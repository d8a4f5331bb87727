import StarlingWg.Routing.Bits

namespace StarlingWg.Routing

open Function
open Pointers (Place Links)

variable {P : Type} {f : Family}

-- The prefix of a node, and the position of the bit that follows it.
structure Site (f : Family) where
  cidr : Nat
  bitAtByte : Nat
  bitAtShift : Nat
  bits : Address f

-- Who owns a node, and whether it is in the list of its owner.
structure Tag (P : Type) where
  peer : Option P
  perPeerElem : Bool

def TrieEntry.site (entry : TrieEntry P f) : Site f :=
  ⟨entry.cidr, entry.bitAtByte, entry.bitAtShift, entry.bits⟩

def TrieEntry.tag (entry : TrieEntry P f) : Tag P :=
  ⟨entry.peer, entry.perPeerElem⟩

def Site.literal (ip : Address f) (cidr : Nat) : Site f :=
  ⟨cidr, cidr / 8, 7 - cidr % 8, mask ip cidr⟩

structure Site.Sound (site : Site f) : Prop where
  cidr_le : site.cidr ≤ f.width
  bitAtByte : site.bitAtByte = site.cidr / 8
  bitAtShift : site.bitAtShift = 7 - site.cidr % 8
  masked : mask site.bits site.cidr = site.bits

variable {ip : Address f} {n m : Site f} {b : Bool}

theorem Site.literal_sound {cidr : Nat} (hc : cidr ≤ f.width) : (Site.literal ip cidr).Sound :=
  ⟨hc, rfl, rfl, mask_mask ip hc⟩

def Site.Covers (site : Site f) (ip : Address f) : Prop :=
  ∀ i < site.cidr, site.bits.getMsbD i = ip.getMsbD i

-- The prefix of a node contains that of another one, which goes on with `b`.
structure Site.Below (n : Site f) (b : Bool) (m : Site f) : Prop where
  cidr_lt : n.cidr < m.cidr
  covers : n.Covers m.bits
  bit : m.bits.getMsbD n.cidr = b

theorem Site.Below.trans {k : Site f} {b' : Bool} (h : n.Below b k)
    (h' : k.Below b' m) : n.Below b m where
  cidr_lt := Nat.lt_trans h.cidr_lt h'.cidr_lt
  covers i hi := (h.covers i hi).trans (h'.covers i (Nat.lt_trans hi h.cidr_lt))
  bit := (h'.covers n.cidr h.cidr_lt).symm.trans h.bit

theorem Site.Below.covers_of_covers (h : n.Below b m) (hm : m.Covers ip) : n.Covers ip :=
  fun i hi => (h.covers i hi).trans (hm i (Nat.lt_trans hi h.cidr_lt))

theorem Site.Below.bit_of_covers (h : n.Below b m) (hm : m.Covers ip) : ip.getMsbD n.cidr = b :=
  (hm n.cidr h.cidr_lt).symm.trans h.bit

theorem Site.Sound.covers_iff {site : Site f} (h : site.Sound) (ip : Address f) :
    site.Covers ip ↔ site.bits = mask ip site.cidr := by
  have hmask := mask_eq_iff site.bits ip h.cidr_le
  rw [h.masked] at hmask
  exact hmask.symm

def placeType : Place NodeId → Nat
  | .root => 2
  | .child _ bit => bit.toNat

def Below (site : NodeId → Site f) (n : NodeId) (b : Bool) (m : NodeId) : Prop :=
  (site n).Below b (site m)

-- The nodes form a trie of sound sites, and no node from a bound on is in it.
structure Arranged (l : Links NodeId) (site : NodeId → Site f) (bound : NodeId) : Prop where
  tree : l.Tree (Below site)
  sound : ∀ n, l.Live n → (site n).Sound
  fresh : ∀ n, l.Live n → n < bound

section

variable {l : Links NodeId} {site : NodeId → Site f} {bound n m x : NodeId} {place : Place NodeId}
  {b bit : Bool}

theorem Below.rank (n : NodeId) (b : Bool) (m : NodeId) (h : Below site n b m) :
    (site n).cidr < (site m).cidr :=
  h.cidr_lt

theorem Below.chain (n : NodeId) (b : Bool) (k : NodeId) (b' : Bool) (m : NodeId)
    (h : Below site n b k) (h' : Below site k b' m) : Below site n b m :=
  Site.Below.trans h h'

theorem Arranged.under_root (h : Arranged l site bound) (hm : l.Live m) : l.Under .root m :=
  h.tree.under_root Below.rank hm

theorem Arranged.below_of_under (h : Arranged l site bound) (hn : l.Live n)
    (hu : l.Under (.child n b) m) : Below site n b m :=
  h.tree.below_of_under Below.chain hn hu

theorem Arranged.live_of_under (h : Arranged l site bound) (hn : l.Live n)
    (hu : l.Under (.child n b) m) : l.Live m := by
  have hvalid : l.Valid (.child n b) := hn
  exact h.tree.live_of_under hvalid hu

theorem Arranged.splice (h : Arranged l site bound) {new : Site f} {w : NodeId}
    (hplace : l.Valid place) (hdead : ¬l.Live x) (hle : bound ≤ w) (hbound : x < w)
    (hsound : new.Sound)
    (hfits : ∀ n b, place = .child n b → (site n).Below b new)
    (hdown : ∀ d, l.content place = some d → new.Below bit (site d)) :
    Arranged (l.splice place x bit) (update site x new) w := by
  have hold : ∀ n, l.Live n → update site x new n = site n := by
    intro n hn
    have hne : n ≠ x := fun he => hdead (he ▸ hn)
    exact update_of_ne hne new site
  have htree : l.Tree (Below (update site x new)) :=
    h.tree.mono fun n b m hn hm hb => by simpa only [Below, hold n hn, hold m hm] using hb
  refine ⟨htree.splice hplace hdead ?_ ?_, ?_, ?_⟩
  · rintro n b rfl
    rw [Below, hold n hplace, update_self]
    exact hfits n b rfl
  · intro d hd
    rw [Below, hold d (h.tree.live_of_content hplace hd), update_self]
    exact hdown d hd
  · intro n hn
    obtain rfl | hn := (h.tree.splice_live hplace hdead).mp hn
    · rw [update_self]
      exact hsound
    · rw [hold n hn]
      exact h.sound n hn
  · intro n hn
    obtain rfl | hn := (h.tree.splice_live hplace hdead).mp hn
    · exact hbound
    · exact Nat.lt_of_lt_of_le (h.fresh n hn) hle

theorem Arranged.bypass (h : Arranged l site bound) {child : Option NodeId}
    (hup : l.up n = some place) (hchild : ∀ m, child = some m ↔ ∃ b, l.down n b = some m) :
    Arranged (l.bypass place n child) site bound := by
  have hlive : ∀ m, (l.bypass place n child).Live m → l.Live m := fun m hm =>
    ((h.tree.bypass_live Below.rank hup hchild).mp hm).2
  exact ⟨h.tree.bypass Below.rank Below.chain hup hchild,
    fun m hm => h.sound m (hlive m hm), fun m hm => h.fresh m (hlive m hm)⟩

end

namespace Heap

def links (heap : Heap P f) : Links NodeId where
  root := heap.root
  down n := (heap.nodes n).child
  up n := (heap.nodes n).parent.parentBit

def site (heap : Heap P f) (n : NodeId) : Site f :=
  (heap.nodes n).site

def tag (heap : Heap P f) (n : NodeId) : Tag P :=
  (heap.nodes n).tag

-- A pointer's address and the index noted with it belong together.
def Typed (heap : Heap P f) : Prop :=
  ∀ n place, heap.links.up n = some place → (heap.nodes n).parent.parentBitType = placeType place

structure Shape (heap : Heap P f) : Prop
  extends Arranged heap.links heap.site heap.allocated where
  typed : heap.Typed

-- A node without a peer is there because it joins two others.
def Full (heap : Heap P f) : Prop :=
  heap.links.Full fun n => (heap.tag n).peer = none

-- The lists of the peers hold exactly the nodes in the trie that they own.
structure Listed (heap : Heap P f) : Prop where
  mem : ∀ peer n, (f, n) ∈ heap.trieEntries peer ↔
    heap.links.Live n ∧ (heap.tag n).peer = some peer
  elem : ∀ n, heap.links.Live n → (heap.tag n).perPeerElem = (heap.tag n).peer.isSome
  nodup : ∀ peer, (heap.trieEntries peer).Nodup

section

variable (heap : Heap P f) (n : NodeId) {g : TrieEntry P f → TrieEntry P f} {entry : TrieEntry P f}

theorem links_modify (hchild : (g (heap.nodes n)).child = (heap.nodes n).child)
    (hparent : (g (heap.nodes n)).parent.parentBit = (heap.nodes n).parent.parentBit) :
    (heap.modify n g).links = heap.links := by
  apply Links.ext
  · rfl
  · funext m
    by_cases hm : m = n <;> simp [links, modify, update_apply, hm, hchild]
  · funext m
    by_cases hm : m = n <;> simp [links, modify, update_apply, hm, hparent]

theorem site_modify
    (h : (g (heap.nodes n)).site = (heap.nodes n).site) : (heap.modify n g).site = heap.site := by
  funext m
  by_cases hm : m = n <;> simp [site, modify, hm, h]

theorem tag_modify (g : TrieEntry P f → TrieEntry P f) :
    (heap.modify n g).tag = update heap.tag n (g (heap.nodes n)).tag := by
  funext m
  by_cases hm : m = n <;> simp [tag, modify, hm]

theorem tag_modify_same
    (h : (g (heap.nodes n)).tag = (heap.nodes n).tag) : (heap.modify n g).tag = heap.tag := by
  rw [tag_modify, h]
  exact update_eq_self n heap.tag

@[simp]
theorem links_store (place : Place NodeId) (value : Option NodeId) :
    (heap.store place value).links = heap.links.put place value := by
  cases place with
  | root => apply Links.ext <;> simp [links, store, Links.put]
  | child k bit =>
    apply Links.ext
    · simp [links, store, modify, Links.put]
    · funext m b
      by_cases hm : m = k
      · subst hm
        by_cases hb : b = bit <;> simp [links, store, modify, Links.put, hb]
      · simp [links, store, modify, Links.put, hm]
    · funext m
      by_cases hm : m = k <;> simp [links, store, modify, Links.put, hm]

@[simp]
theorem site_store (place : Place NodeId) (value : Option NodeId) :
    (heap.store place value).site = heap.site := by
  cases place with
  | root => rfl
  | child k bit =>
    rw [store]
    exact heap.site_modify k rfl

@[simp]
theorem tag_store (place : Place NodeId) (value : Option NodeId) :
    (heap.store place value).tag = heap.tag := by
  cases place with
  | root => rfl
  | child k bit =>
    rw [store]
    exact heap.tag_modify_same k rfl

@[simp]
theorem links_setParent (place : Place NodeId) (type : Nat) :
    (heap.setParent n ⟨some place, type⟩).links = heap.links.hang n place := by
  apply Links.ext
  · rfl
  · funext m
    by_cases hm : m = n <;> simp [links, setParent, modify, Links.hang, hm]
  · funext m
    by_cases hm : m = n <;> simp [links, setParent, modify, Links.hang, hm]

@[simp]
theorem site_setParent (parent : ParentIndirection) : (heap.setParent n parent).site = heap.site :=
  heap.site_modify n rfl

@[simp]
theorem tag_setParent (parent : ParentIndirection) : (heap.setParent n parent).tag = heap.tag :=
  heap.tag_modify_same n rfl

theorem site_maskSelf : (heap.maskSelf n).site = update heap.site n
    { heap.site n with bits := mask (heap.site n).bits (heap.site n).cidr } := by
  funext m
  by_cases hm : m = n <;> simp [site, maskSelf, modify, TrieEntry.site, hm]

@[simp]
theorem tag_maskSelf : (heap.maskSelf n).tag = heap.tag :=
  heap.tag_modify_same n rfl

@[simp]
theorem site_setPeer (peer : Option P) : (heap.setPeer n peer).site = heap.site :=
  heap.site_modify n rfl

theorem tag_setPeer (peer : Option P) : (heap.setPeer n peer).tag =
    update heap.tag n ⟨peer, (heap.tag n).perPeerElem⟩ :=
  heap.tag_modify n _

@[simp]
theorem site_zeroizePointers : (heap.zeroizePointers n).site = heap.site :=
  heap.site_modify n rfl

theorem tag_zeroizePointers : (heap.zeroizePointers n).tag =
    update heap.tag n ⟨none, (heap.tag n).perPeerElem⟩ :=
  heap.tag_modify n _

@[simp]
theorem links_setPeer (peer : Option P) : (heap.setPeer n peer).links = heap.links :=
  heap.links_modify n rfl rfl

@[simp]
theorem links_maskSelf : (heap.maskSelf n).links = heap.links :=
  heap.links_modify n rfl rfl

@[simp]
theorem links_zeroizePointers : (heap.zeroizePointers n).links = heap.links.clear n := by
  apply Links.ext
  · rfl
  · funext m b
    by_cases hm : m = n <;> simp [links, zeroizePointers, modify, Links.clear, hm]
  · funext m
    by_cases hm : m = n <;> simp [links, zeroizePointers, modify, Links.clear, hm]

theorem links_allocate (hchild : ∀ b, entry.child b = none)
    (hparent : entry.parent.parentBit = none) :
    (heap.allocate entry).links = heap.links.clear heap.allocated := by
  apply Links.ext
  · rfl
  · funext m b
    by_cases hm : m = heap.allocated <;> simp [links, allocate, Links.clear, hm, hchild]
  · funext m
    by_cases hm : m = heap.allocated <;> simp [links, allocate, Links.clear, hm, hparent]

theorem links_allocate_at {place : Place NodeId} (hchild : ∀ b, entry.child b = none)
    (hparent : entry.parent.parentBit = some place) :
    (heap.allocate entry).links = (heap.links.clear heap.allocated).hang heap.allocated place := by
  apply Links.ext
  · rfl
  · funext m b
    by_cases hm : m = heap.allocated <;> simp [links, allocate, Links.clear, Links.hang, hm, hchild]
  · funext m
    by_cases hm : m = heap.allocated <;>
      simp [links, allocate, Links.clear, Links.hang, hm, hparent]

theorem site_allocate (entry : TrieEntry P f) :
    (heap.allocate entry).site = update heap.site heap.allocated entry.site := by
  funext m
  by_cases hm : m = heap.allocated <;> simp [site, allocate, hm]

theorem tag_allocate (entry : TrieEntry P f) :
    (heap.allocate entry).tag = update heap.tag heap.allocated entry.tag := by
  funext m
  by_cases hm : m = heap.allocated <;> simp [tag, allocate, hm]

end

section

variable {heap : Heap P f} (h : heap.Typed)

include h

theorem Typed.modify {n : NodeId} {g : TrieEntry P f → TrieEntry P f}
    (hg : ∀ place, (g (heap.nodes n)).parent.parentBit = some place →
      (g (heap.nodes n)).parent.parentBitType = placeType place) : (heap.modify n g).Typed := by
  intro m place hm
  by_cases hmn : m = n
  · subst hmn
    simp only [links, Heap.modify, update_self] at hm ⊢
    exact hg place hm
  · simp only [links, Heap.modify, update_of_ne hmn] at hm ⊢
    exact h m place hm

theorem Typed.store (place : Place NodeId) (value : Option NodeId) :
    (heap.store place value).Typed := by
  cases place with
  | root => exact h
  | child k bit => exact h.modify fun place hp => h k place hp

theorem Typed.setParent (n : NodeId) (place : Place NodeId) :
    (heap.setParent n ⟨some place, placeType place⟩).Typed := by
  refine h.modify fun place' hp => ?_
  cases hp
  rfl

theorem Typed.link (n : NodeId) (bit : Bool) (m : NodeId) : (heap.link n bit m).Typed :=
  (h.setParent m (.child n bit)).store (.child n bit) (some m)

theorem Typed.zeroizePointers (n : NodeId) : (heap.zeroizePointers n).Typed :=
  h.modify fun _ hp => by simp at hp

theorem Typed.setPeer (n : NodeId) (peer : Option P) : (heap.setPeer n peer).Typed :=
  h.modify fun place hp => h n place hp

theorem Typed.maskSelf (n : NodeId) : (heap.maskSelf n).Typed :=
  h.modify fun place hp => h n place hp

theorem Typed.allocate {entry : TrieEntry P f} (hparent : ∀ place,
    entry.parent.parentBit = some place → entry.parent.parentBitType = placeType place) :
    (heap.allocate entry).Typed := by
  intro m place hm
  by_cases hmn : m = heap.allocated
  · subst hmn
    simp only [links, Heap.allocate, update_self] at hm ⊢
    exact hparent place hm
  · simp only [links, Heap.allocate, update_of_ne hmn] at hm ⊢
    exact h m place hm

end

section

variable [DecidableEq P] {heap : Heap P f} {n : NodeId} {peer : P}

structure Noted (heap heap' : Heap P f) (n : NodeId) (tag : Tag P) : Prop where
  links : heap'.links = heap.links
  site : heap'.site = heap.site
  tag : heap'.tag = update heap.tag n tag
  allocated : heap'.allocated = heap.allocated
  typed : heap.Typed → heap'.Typed

theorem noted_setElem (entries : List (Family × NodeId)) (elem : Bool)
    (hpeer : (heap.tag n).peer = some peer) :
    heap.Noted ((heap.setEntries peer entries).setElem n elem) n ⟨some peer, elem⟩ where
  links := (heap.setEntries peer entries).links_modify n rfl rfl
  site := (heap.setEntries peer entries).site_modify n rfl
  tag := by
    rw [← hpeer]
    exact (heap.setEntries peer entries).tag_modify n _
  allocated := rfl
  typed h := by
    have hsame : (heap.setEntries peer entries).Typed := h
    exact hsame.modify fun place hp => h n place hp

theorem addToPeerEntries_spec (hpeer : (heap.tag n).peer = some peer) :
    ∃ heap', heap.addToPeerEntries n = some heap' ∧ heap.Noted heap' n ⟨some peer, true⟩ ∧
      heap'.trieEntries =
        update heap.trieEntries peer (heap.trieEntries peer ++ [(f, n)]) := by
  have hnode : (heap.nodes n).peer = some peer := hpeer
  exact ⟨_, by simp [addToPeerEntries, hnode], noted_setElem _ true hpeer, rfl⟩

theorem Listed.removeFromPeerEntries (hl : heap.Listed) (hn : heap.links.Live n) :
    ∃ heap', heap.removeFromPeerEntries n = some heap' ∧
      heap.Noted heap' n ⟨(heap.tag n).peer, false⟩ ∧
      ∀ q, heap'.trieEntries q = (heap.trieEntries q).erase (f, n) := by
  have helem := hl.elem n hn
  cases hpeer : (heap.tag n).peer with
  | none =>
    have helem : (heap.nodes n).perPeerElem = false := helem.trans (hpeer ▸ rfl)
    refine ⟨heap, by simp [Heap.removeFromPeerEntries, helem], ⟨rfl, rfl, ?_, rfl, id⟩, fun q => ?_⟩
    · have hself : (⟨none, false⟩ : Tag P) = heap.tag n := by
        rw [← hpeer, ← show (heap.tag n).perPeerElem = false from helem]
      rw [hself, update_eq_self]
    · refine (List.erase_of_not_mem fun hm => ?_).symm
      simp [((hl.mem q n).mp hm).2] at hpeer
  | some peer =>
    have hnode : (heap.nodes n).peer = some peer := hpeer
    have helem : (heap.nodes n).perPeerElem = true := helem.trans (hpeer ▸ rfl)
    refine ⟨(heap.setEntries peer ((heap.trieEntries peer).erase (f, n))).setElem n false,
      by simp [Heap.removeFromPeerEntries, hnode, helem], noted_setElem _ false hpeer, fun q => ?_⟩
    change update heap.trieEntries peer _ q = _
    by_cases hq : q = peer
    · rw [hq, update_self]
    · rw [update_of_ne hq]
      refine (List.erase_of_not_mem fun hm => hq ?_).symm
      exact Option.some.inj (((hl.mem q n).mp hm).2.symm.trans hpeer)

end

end Heap

end StarlingWg.Routing
