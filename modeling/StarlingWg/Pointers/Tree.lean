import Mathlib.Logic.Function.Basic

namespace StarlingWg.Pointers

open Option

-- Where a pointer is stored: in the root variable or in a child field.
inductive Place (N : Type)
  | root
  | child (node : N) (bit : Bool)
  deriving DecidableEq

-- The pointers between the nodes of a binary tree. `up` is the place that a
-- node believes it is stored at; a node that is not in the tree has none.
@[ext]
structure Links (N : Type) where
  root : Option N
  down : N → Bool → Option N
  up : N → Option (Place N)

namespace Links

variable {N : Type} {l : Links N} {place : Place N} {n m x : N} {b bit : Bool}

def content (l : Links N) : Place N → Option N
  | .root => l.root
  | .child n b => l.down n b

def Live (l : Links N) (n : N) : Prop :=
  l.up n ≠ none

def Valid (l : Links N) : Place N → Prop
  | .root => True
  | .child n _ => l.Live n

-- The pointers up and down agree, and a child stands in some relation to the
-- field it is stored in.
structure Tree (l : Links N) (Below : N → Bool → N → Prop) : Prop where
  up_of_content : ∀ place m, l.Valid place → l.content place = some m → l.up m = some place
  content_of_up : ∀ place m, l.up m = some place → l.Valid place ∧ l.content place = some m
  below : ∀ n b m, l.Live n → l.down n b = some m → Below n b m

inductive Under (l : Links N) : Place N → N → Prop
  | here {place : Place N} {m : N} : l.content place = some m → Under l place m
  | step {place : Place N} {n m : N} {b : Bool} : l.content place = some n →
      Under l (.child n b) m → Under l place m

theorem Under.snoc (h : l.Under place n) (hm : l.down n b = some m) : l.Under place m := by
  induction h with
  | here hn => exact .step hn (.here hm)
  | step hn _ ih => exact .step hn (ih hm)

-- A node of the tree that is bare has both children.
def Full (l : Links N) (bare : N → Prop) : Prop :=
  ∀ n, l.Live n → bare n → ∀ b, l.down n b ≠ none

section

variable [DecidableEq N]

-- Puts a new node into a place; what was there becomes its child.
def splice (l : Links N) (place : Place N) (x : N) (bit : Bool) : Links N where
  root := if .root = place then some x else l.root
  down n b :=
    if n = x then (if b = bit then l.content place else none)
    else if .child n b = place then some x else l.down n b
  up n :=
    if n = x then some place
    else if l.content place = some n then some (.child x bit) else l.up n

-- Takes out the node of a place; its child, if there is one, gets the place.
def bypass (l : Links N) (place : Place N) (n : N) (child : Option N) : Links N where
  root := if .root = place then child else l.root
  down m b :=
    if m = n then none
    else if .child m b = place then child else l.down m b
  up m :=
    if m = n then none
    else if child = some m then some place else l.up m

-- The single writes that a program makes: to the pointer at a place, to the
-- place a node believes in, and to all pointers of a node.
def put (l : Links N) (place : Place N) (value : Option N) : Links N where
  root := if .root = place then value else l.root
  down n b := if .child n b = place then value else l.down n b
  up := l.up

def hang (l : Links N) (m : N) (place : Place N) : Links N where
  root := l.root
  down := l.down
  up n := if n = m then some place else l.up n

def clear (l : Links N) (n : N) : Links N where
  root := l.root
  down m b := if m = n then none else l.down m b
  up m := if m = n then none else l.up m

def rehang (l : Links N) (child : Option N) (place : Place N) : Links N :=
  match child with
  | some m => l.hang m place
  | none => l

@[simp]
theorem rehang_down (child : Option N) : (l.rehang child place).down = l.down := by
  cases child <;> rfl

variable {child : Option N} {d : N}

theorem rehang_up (h : child ≠ some n) : (l.rehang child place).up n = l.up n := by
  cases child with
  | none => rfl
  | some m =>
    have hne : n ≠ m := fun he => h (he ▸ rfl)
    simp [rehang, hang, hne]

def NotOf (place : Place N) (n : N) : Prop :=
  ∀ b, place ≠ .child n b

theorem put_leaf (hplace : NotOf place x) (hnone : l.content place = none) :
    ((l.clear x).hang x place).put place (some x) = l.splice place x bit := by
  apply Links.ext
  · simp [put, hang, clear, splice]
  · funext n b
    by_cases hn : n = x
    · have := hplace b
      simp [put, hang, clear, splice, hn, hnone, this.symm]
    · simp [put, hang, clear, splice, hn]
  · funext n
    by_cases hn : n = x
    · simp [put, hang, clear, splice, hn]
    · simp [put, hang, clear, splice, hn, hnone]

theorem put_above (hplace : NotOf place x) (hd : l.content place = some d) (hne : d ≠ x) :
    ((((l.clear x).hang d (.child x bit)).put (.child x bit) (some d)).hang x place).put place
      (some x) = l.splice place x bit := by
  apply Links.ext
  · simp [put, hang, clear, splice]
  · funext n b
    by_cases hn : n = x
    · have := hplace b
      simp [put, hang, clear, splice, hn, hd, this.symm]
    · simp [put, hang, clear, splice, hn]
  · funext n
    by_cases hn : n = x
    · simp [put, hang, clear, splice, hn]
    · by_cases hnd : n = d
      · simp [put, hang, clear, splice, hnd, hne, hd]
      · simp [put, hang, clear, splice, hn, hnd, hd, Ne.symm hnd]

-- The writes that put a node with two children into a place: the node that was
-- there and a new one.
theorem put_branch {z : N} {bit' : Bool} (hx : NotOf place x) (hz : NotOf place z)
    (hd : l.content place = some d) (hdz : d ≠ z) (hxz : x ≠ z) (hbit : bit' ≠ bit) :
    ((((((((l.clear x).clear z).hang d (.child z bit)).put (.child z bit) (some d)).hang x
      (.child z bit')).put (.child z bit') (some x)).hang z place).put place (some z)) =
      (l.splice place z bit).splice (.child z bit') x b := by
  have hempty : (l.splice place z bit).content (.child z bit') = none := by
    simp [splice, content, hbit]
  have hnot : NotOf (.child z bit') x := by simp [NotOf, Ne.symm hxz]
  have hleaf : (((l.splice place z bit).clear x).hang x (.child z bit')).put (.child z bit')
      (some x) = (l.splice place z bit).splice (.child z bit') x b := put_leaf hnot hempty
  rw [← hleaf, ← put_above hz hd hdz]
  apply Links.ext
  · simp [put, hang, clear]
  · funext n b
    by_cases hn : n = x
    · simp [put, hang, clear, hn, hxz, Ne.symm (hx b)]
    · by_cases hnz : n = z
      · simp [put, hang, clear, hnz, Ne.symm hxz, Ne.symm (hz b)]
      · simp [put, hang, clear, hn, hnz]
  · funext n
    by_cases hn : n = x
    · simp [put, hang, clear, hn, hxz]
    · simp [put, hang, clear, hn]

theorem put_bypass : ((l.rehang child place).put place child).clear n = l.bypass place n child := by
  cases child with
  | none => apply Links.ext <;> simp [rehang, put, clear, bypass]
  | some m =>
    apply Links.ext
    · simp [rehang, put, hang, clear, bypass]
    · simp [rehang, put, hang, clear, bypass]
    · funext k
      simp [rehang, put, hang, clear, bypass, eq_comm]

theorem clear_rehang (hplace : NotOf place n) (hchild : child ≠ some n) :
    ((l.clear n).rehang child place).put place child =
      ((l.rehang child place).put place child).clear n := by
  have hdown : ∀ (l : Links N) m b, ((l.clear n).put place child).down m b =
      ((l.put place child).clear n).down m b := by
    intro l m b
    by_cases hm : m = n
    · simp [put, clear, hm, Ne.symm (hplace b)]
    · simp [put, clear, hm]
  cases child with
  | none =>
    apply Links.ext
    · simp [rehang, put, clear]
    · funext m b
      exact hdown l m b
    · simp [rehang, put, clear]
  | some k =>
    apply Links.ext
    · simp [rehang, put, hang, clear]
    · funext m b
      exact hdown l m b
    · funext m
      by_cases hm : m = n
      · have hk : n ≠ k := fun he => hchild (he ▸ rfl)
        simp [rehang, put, hang, clear, hm, hk]
      · simp [rehang, put, hang, clear, hm]

-- The writes that take out a leaf and then the node above it.
theorem put_bypass_twice {p : N} (hplace : NotOf place n) (hchild : child ≠ some n) :
    ((((l.put (.child p b) none).rehang child place).put place child).clear n).clear p =
      (l.bypass (.child p b) n none).bypass place p child := by
  rw [← put_bypass, ← put_bypass, ← clear_rehang hplace hchild]
  rfl

end

section

variable {Below : N → Bool → N → Prop} {rank : N → Nat}
  (hrank : ∀ n b m, Below n b m → rank n < rank m)
  (htrans : ∀ n b k b' m, Below n b k → Below k b' m → Below n b m)

theorem Tree.live_of_content (h : l.Tree Below) (hplace : l.Valid place)
    (hm : l.content place = some m) : l.Live m := by
  intro hnone
  rw [h.up_of_content place m hplace hm] at hnone
  simp at hnone

theorem Tree.live_of_down (h : l.Tree Below) (hn : l.Live n) (hm : l.down n b = some m) :
    l.Live m := by
  have hvalid : l.Valid (.child n b) := hn
  exact h.live_of_content hvalid hm

theorem Tree.mono {Below' : N → Bool → N → Prop} (h : l.Tree Below)
    (himp : ∀ n b m, l.Live n → l.Live m → Below n b m → Below' n b m) : l.Tree Below' where
  up_of_content := h.up_of_content
  content_of_up := h.content_of_up
  below n b m hn hm :=
    himp n b m hn (h.live_of_down hn hm) (h.below n b m hn hm)

theorem live_of_up (hup : l.up n = some place) : l.Live n := by
  simp [Live, hup]

theorem Tree.place_unique (h : l.Tree Below) {place' : Place N} (hplace : l.Valid place)
    (hplace' : l.Valid place') (hm : l.content place = some m) (hm' : l.content place' = some m) :
    place = place' := by
  have hup := h.up_of_content place m hplace hm
  rw [h.up_of_content place' m hplace' hm'] at hup
  exact (Option.some.inj hup).symm

include hrank in
theorem Tree.down_ne (h : l.Tree Below) (hn : l.Live n) (hm : l.down n b = some m) : m ≠ n := by
  rintro rfl
  exact Nat.lt_irrefl _ (hrank m b m (h.below m b m hn hm))

include hrank in
theorem Tree.notOf (h : l.Tree Below) (hup : l.up n = some place) : NotOf place n := by
  rintro b rfl
  obtain ⟨hn, hself⟩ := h.content_of_up _ n hup
  exact h.down_ne hrank hn hself rfl

include hrank in
-- The induction is on the rank, which is smaller for the parent.
theorem Tree.under_root (h : l.Tree Below) (hm : l.Live m) : l.Under .root m := by
  induction hr : rank m using Nat.strongRecOn generalizing m with
  | ind r ih =>
    obtain ⟨place, hup⟩ := ne_none_iff_exists'.mp hm
    obtain ⟨hplace, hcontent⟩ := h.content_of_up place m hup
    cases place with
    | root => exact .here hcontent
    | child n b =>
      have hlt := hrank n b m (h.below n b m hplace hcontent)
      exact (ih (rank n) (by omega) hplace rfl).snoc hcontent

theorem Tree.live_of_under (h : l.Tree Below) (hplace : l.Valid place) (hu : l.Under place m) :
    l.Live m := by
  induction hu with
  | here hm => exact h.live_of_content hplace hm
  | step hn _ ih => exact ih (h.live_of_content hplace hn)

include htrans in
theorem Tree.below_of_under (h : l.Tree Below) (hn : l.Live n) (hu : l.Under (.child n b) m) :
    Below n b m := by
  generalize hplace : Place.child n b = place at hu
  induction hu generalizing n b with
  | here hm =>
    subst hplace
    exact h.below n b _ hn hm
  | @step _ k _ b' hk _ ih =>
    subst hplace
    have hlive := h.live_of_down hn hk
    exact htrans n b k b' _ (h.below n b k hn hk) (ih hlive rfl)

variable [DecidableEq N]

section

variable (h : l.Tree Below) (hplace : l.Valid place) (hx : ¬l.Live x)

theorem splice_up_self : (l.splice place x bit).up x = some place := by
  simp [Links.splice]

theorem splice_content_new (b : Bool) : (l.splice place x bit).content (.child x b) =
    if b = bit then l.content place else none := by
  simp [Links.splice, content]

include hx in
theorem splice_content_old {s : Place N} (hs : l.Valid s) :
    (l.splice place x bit).content s = if s = place then some x else l.content s := by
  cases s with
  | root => simp [Links.splice, content]
  | child n b =>
    have hn : n ≠ x := fun he => hx (he ▸ hs)
    simp [Links.splice, content, hn]

include h hplace hx

theorem Tree.splice_up_down {d : N} (hd : l.content place = some d) :
    (l.splice place x bit).up d = some (.child x bit) := by
  have hne : d ≠ x := fun he => hx (he ▸ h.live_of_content hplace hd)
  simp [Links.splice, hne, hd]

theorem Tree.splice_up_other {s : Place N} (hs : l.Valid s) (hne : s ≠ place)
    (hm : l.content s = some m) : (l.splice place x bit).up m = some s := by
  have hmx : m ≠ x := fun he => hx (he ▸ h.live_of_content hs hm)
  have hd : l.content place ≠ some m := fun hd => hne (h.place_unique hs hplace hm hd)
  simp [Links.splice, hmx, hd, h.up_of_content s m hs hm]

theorem Tree.splice_live : (l.splice place x bit).Live n ↔ n = x ∨ l.Live n := by
  by_cases hn : n = x
  · subst hn
    simp [Live, splice_up_self]
  · by_cases hd : l.content place = some n
    · simp [Live, h.splice_up_down hplace hx hd, h.up_of_content place n hplace hd]
    · simp [Live, Links.splice, hn, hd]

theorem Tree.splice_valid {s : Place N} :
    (l.splice place x bit).Valid s ↔ (∃ b, s = .child x b) ∨ l.Valid s := by
  cases s with
  | root => simp [Valid]
  | child n b => simp [Valid, h.splice_live hplace hx]

theorem Tree.splice (hfits : ∀ n b, place = .child n b → Below n b x)
    (hdown : ∀ d, l.content place = some d → Below x bit d) :
    (l.splice place x bit).Tree Below := by
  refine ⟨?_, ?_, ?_⟩
  · intro s m hs hm
    obtain ⟨b, rfl⟩ | hs := (h.splice_valid hplace hx).mp hs
    · rw [splice_content_new] at hm
      split at hm
      case isTrue hb => rw [hb, h.splice_up_down hplace hx hm]
      case isFalse => simp at hm
    · rw [splice_content_old hx hs] at hm
      split at hm
      case isTrue hp =>
        cases hm
        rw [splice_up_self, hp]
      case isFalse hp => exact h.splice_up_other hplace hx hs hp hm
  · intro s m hup
    by_cases hm : m = x
    · subst hm
      rw [splice_up_self] at hup
      cases hup
      exact ⟨(h.splice_valid hplace hx).mpr (.inr hplace), by simp [splice_content_old hx hplace]⟩
    · by_cases hd : l.content place = some m
      · rw [h.splice_up_down hplace hx hd] at hup
        cases hup
        exact ⟨(h.splice_valid hplace hx).mpr (.inl ⟨_, rfl⟩), by simp [splice_content_new, hd]⟩
      · have hold : l.up m = some s := by simpa [Links.splice, hm, hd] using hup
        obtain ⟨hs, hc⟩ := h.content_of_up s m hold
        have hne : s ≠ place := fun he => hd (he ▸ hc)
        exact ⟨(h.splice_valid hplace hx).mpr (.inr hs), by simp [splice_content_old hx hs, hne, hc]⟩
  · intro n b m hn hm
    change (l.splice place x bit).content (.child n b) = some m at hm
    obtain rfl | hn := (h.splice_live hplace hx).mp hn
    · rw [splice_content_new] at hm
      split at hm
      case isTrue hb => exact hb ▸ hdown m hm
      case isFalse => simp at hm
    · rw [splice_content_old hx (s := .child n b) hn] at hm
      split at hm
      case isTrue hp => exact Option.some.inj hm ▸ hfits n b hp.symm
      case isFalse => exact h.below n b m hn hm

-- The new node is not bare, and no other node loses a child.
theorem Tree.splice_full {bare bare' : N → Prop} (hfull : l.Full bare) (hself : ¬bare' x)
    (hbare : ∀ n, l.Live n → bare' n → bare n) : (l.splice place x bit).Full bare' := by
  intro n hn hb b
  obtain rfl | hn := (h.splice_live hplace hx).mp hn
  · exact absurd hb hself
  · change (l.splice place x bit).content (.child n b) ≠ none
    rw [splice_content_old hx (s := .child n b) hn]
    split
    · simp
    · exact hfull n hn (hbare n hn hb) b

end

theorem Tree.branch_full {z : N} {bit' : Bool} {bare bare' : N → Prop} (h : l.Tree Below)
    (h' : (l.splice place z bit).Tree Below) (hplace : l.Valid place) (hz : ¬l.Live z)
    (hx : ¬l.Live x) (hzx : x ≠ z) (hbit : bit' ≠ bit) (hcontent : l.content place ≠ none)
    (hfull : l.Full bare) (hself : ¬bare' x) (hbare : ∀ n, l.Live n → bare' n → bare n) :
    ((l.splice place z bit).splice (.child z bit') x b).Full bare' := by
  have hlive : ∀ k, (l.splice place z bit).Live k ↔ k = z ∨ l.Live k := fun k =>
    h.splice_live hplace hz
  have hvalid : (l.splice place z bit).Valid (.child z bit') := (hlive z).mpr (.inl rfl)
  have hx' : ¬(l.splice place z bit).Live x := by
    rw [hlive]
    exact fun hl => hl.elim hzx hx
  intro n hn hb c
  obtain rfl | hn := (h'.splice_live hvalid hx').mp hn
  · exact absurd hb hself
  change ((l.splice place z bit).splice (.child z bit') x b).content (.child n c) ≠ none
  rw [splice_content_old hx' (s := .child n c) hn]
  split
  case isTrue => simp
  case isFalse hne =>
    obtain rfl | hold := (hlive n).mp hn
    · have hc : c = bit := by
        cases c <;> cases bit <;> cases bit' <;> simp_all
      rw [splice_content_new, if_pos hc]
      exact hcontent
    · rw [splice_content_old hz (s := .child n c) hold]
      split
      case isTrue => simp
      case isFalse => exact hfull n hold (hbare n hold hb) c

section

variable {child : Option N} (h : l.Tree Below) (hup : l.up n = some place)
  (hchild : ∀ m, child = some m ↔ ∃ b, l.down n b = some m)

theorem bypass_up_self : (l.bypass place n child).up n = none := by
  simp [Links.bypass]

theorem bypass_content {s : Place N} (hs : ∀ b, s ≠ .child n b) :
    (l.bypass place n child).content s = if s = place then child else l.content s := by
  cases s with
  | root => simp [Links.bypass, content]
  | child m b =>
    have hm : m ≠ n := fun he => hs b (he ▸ rfl)
    simp [Links.bypass, content, hm]

theorem bypass_up_other (hm : m ≠ n) (hc : child ≠ some m) :
    (l.bypass place n child).up m = l.up m := by
  simp [Links.bypass, hm, hc]

include hrank h hup hchild

theorem Tree.bypass_up_child (hm : child = some m) :
    (l.bypass place n child).up m = some place := by
  obtain ⟨b, hb⟩ := (hchild m).mp hm
  have hne : m ≠ n := fun he => h.down_ne hrank (live_of_up hup) hb he
  simp [Links.bypass, hne, hm]

theorem Tree.bypass_live : (l.bypass place n child).Live m ↔ m ≠ n ∧ l.Live m := by
  by_cases hm : m = n
  · simp [Live, hm, bypass_up_self]
  · by_cases hc : child = some m
    · obtain ⟨b, hb⟩ := (hchild m).mp hc
      have hl := h.live_of_down (live_of_up hup) hb
      have hl' := live_of_up (h.bypass_up_child hrank hup hchild hc)
      exact ⟨fun _ => ⟨hm, hl⟩, fun _ => hl'⟩
    · simp [Live, bypass_up_other hm hc, hm]

theorem Tree.bypass_valid {s : Place N} :
    (l.bypass place n child).Valid s ↔ (∀ b, s ≠ .child n b) ∧ l.Valid s := by
  cases s with
  | root => simp [Valid]
  | child m b =>
    simp only [Valid, h.bypass_live hrank hup hchild, ne_eq, Place.child.injEq, not_and]
    exact ⟨fun hm => ⟨fun _ he => (hm.1 he).elim, hm.2⟩, fun hm => ⟨fun he => hm.1 b he rfl, hm.2⟩⟩

include htrans

theorem Tree.bypass : (l.bypass place n child).Tree Below := by
  obtain ⟨hplace, hn⟩ := h.content_of_up place n hup
  have hself : NotOf place n := h.notOf hrank hup
  refine ⟨?_, ?_, ?_⟩
  · intro s m hs hm
    obtain ⟨hsn, hs⟩ := (h.bypass_valid hrank hup hchild).mp hs
    rw [bypass_content hsn] at hm
    split at hm
    case isTrue hp => rw [h.bypass_up_child hrank hup hchild hm, hp]
    case isFalse hp =>
      have hmn : m ≠ n := fun he => hp (h.place_unique hs hplace (he ▸ hm) hn)
      have hc : child ≠ some m := by
        intro hc
        obtain ⟨b, hb⟩ := (hchild m).mp hc
        have hvalid : l.Valid (.child n b) := live_of_up hup
        exact hsn b (h.place_unique hs hvalid hm hb)
      rw [bypass_up_other hmn hc, h.up_of_content s m hs hm]
  · intro s m hm
    have hmn : m ≠ n := by
      rintro rfl
      simp [bypass_up_self] at hm
    by_cases hc : child = some m
    · rw [h.bypass_up_child hrank hup hchild hc] at hm
      cases hm
      exact ⟨(h.bypass_valid hrank hup hchild).mpr ⟨hself, hplace⟩, by
        simp [bypass_content hself, hc]⟩
    · rw [bypass_up_other hmn hc] at hm
      obtain ⟨hs, hcont⟩ := h.content_of_up s m hm
      have hsn : ∀ b, s ≠ .child n b := by
        rintro b rfl
        exact hc ((hchild m).mpr ⟨b, hcont⟩)
      have hp : s ≠ place := by
        rintro rfl
        exact hmn (Option.some.inj (hcont.symm.trans hn))
      exact ⟨(h.bypass_valid hrank hup hchild).mpr ⟨hsn, hs⟩, by
        simp [bypass_content hsn, hp, hcont]⟩
  · intro k b m hlive hm
    change (l.bypass place n child).content (.child k b) = some m at hm
    obtain ⟨hkn, hk⟩ := (h.bypass_live hrank hup hchild).mp hlive
    rw [bypass_content (fun b' he => hkn (Place.child.inj he).1)] at hm
    split at hm
    case isTrue hp =>
      subst hp
      obtain ⟨b', hb'⟩ := (hchild m).mp hm
      exact htrans k b n b' m (h.below k b n hk hn) (h.below n b' m (live_of_up hup) hb')
    case isFalse => exact h.below k b m hk hm

omit htrans in
theorem Tree.bypass_full {bare bare' : N → Prop} (hfull : l.Full bare)
    (hparent : ∀ m b, place = .child m b → bare' m → child ≠ none)
    (hbare : ∀ m, m ≠ n → l.Live m → bare' m → bare m) :
    (l.bypass place n child).Full bare' := by
  intro m hm hb b
  obtain ⟨hne, hlive⟩ := (h.bypass_live hrank hup hchild).mp hm
  change (l.bypass place n child).content (.child m b) ≠ none
  rw [bypass_content (fun b' he => hne (Place.child.inj he).1)]
  split
  case isTrue hp => exact hparent m b hp.symm hb
  case isFalse => exact hfull m hlive (hbare m hne hlive hb) b

end

omit [DecidableEq N] in
include hrank in
-- Where every node is bare, each has a child of a higher rank.
theorem Tree.root_eq_none {bound : Nat} {bare : N → Prop} (h : l.Tree Below)
    (hbound : ∀ n, l.Live n → rank n ≤ bound) (hfull : l.Full bare)
    (hbare : ∀ n, l.Live n → bare n) : l.root = none := by
  have hdeep : ∀ k n, l.Live n → ∃ m, l.Live m ∧ k ≤ rank m := by
    intro k
    induction k with
    | zero => exact fun n hn => ⟨n, hn, Nat.zero_le _⟩
    | succ k ih =>
      intro n hn
      obtain ⟨m, hm, hle⟩ := ih n hn
      obtain ⟨d, hd⟩ := ne_none_iff_exists'.mp (hfull m hm (hbare m hm) true)
      have hlt := hrank m true d (h.below m true d hm hd)
      exact ⟨d, h.live_of_down hm hd, by omega⟩
  refine eq_none_iff_forall_ne_some.mpr fun n hn => ?_
  have hvalid : l.Valid .root := trivial
  obtain ⟨m, hm, hle⟩ := hdeep (bound + 1) n (h.live_of_content hvalid hn)
  have hmax := hbound m hm
  omega

end

end Links

end StarlingWg.Pointers
