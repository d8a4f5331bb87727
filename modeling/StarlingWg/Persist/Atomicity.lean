import StarlingWg.Persist.FileStore

namespace StarlingWg.Persist

open Control List Function
open Interaction
open Progress (advance writing)

section

def alone : Machine sig Progress where
  admits _ _ op reply :=
    match (op : FileOp _), reply with
    | .write _ _ data, .ok n => n ≤ data.length
    | _, _ => true
  effect p _ op reply := p.advance (op : FileOp _) reply

-- A Save writes its data from the position that it has reached, and renames
-- its temporary file when all of it is written. A Load returns what it has
-- got when there is nothing more.
def Call.Good (p : Progress) : Call → {β : Type} → FileOp β → Prop
  | .save key _, _, .create name => name = tmpPath key ∧ p = .idle
  | .save _ data, _, .write fd offset rest =>
    p = .writing fd offset ∧ rest = data.drop offset ∧ offset ≤ data.length
  | .save _ _, _, .close _ => True
  | .save key data, _, .rename old new =>
    old = tmpPath key ∧ new = path key ∧ ∃ fd, p = .writing fd data.length
  | .save key _, _, .remove name => name = tmpPath key
  | .load key, _, .openFile name => name = path key ∧ p = .idle
  | .load _, _, .read fd offset => ∃ got, p = .reading fd got false ∧ offset = got.length
  | .load _, _, .returned outcome =>
    ∀ data, outcome = .loaded (.ok (some data)) → ∃ fd, p = .reading fd data true
  | .delete key, _, .remove name => name = path key
  | _, _, .returned _ => True
  | _, _, _ => False

def Call.pre (p : Progress) : Call → {β : Type} → FileProc β → Prop
  | .save _ data, _, .writeAll fd offset rest =>
    p = .writing fd offset ∧ rest = data.drop offset ∧ offset ≤ data.length
  | .load _, _, .readAll fd got => p = .reading fd got false
  | _, _, _ => False

def Call.post (p' : Progress) : Call → {β : Type} → FileProc β → β → Prop
  | .save _ data, _, .writeAll fd _ _, result =>
    result = .ok () → p' = .writing fd data.length
  | .load _, _, .readAll fd _, result => ∀ data, result = .ok data → p' = .reading fd data true
  | _, _, _, _ => False

def spec (call : Call) : Spec sig Progress where
  good p _ op _ _ := call.Good p (op : FileOp _)
  pre proc p := call.pre p (proc : FileProc _)
  post proc _ result p' := call.post p' (proc : FileProc _) result

variable {call : Call} {p : Progress} {β : Type} {key : GoString} {fd : Nat}

theorem wp_perform (op : FileOp β) (Q : β → Progress → Prop) :
    wp alone (spec call) (perform op) Q p =
      ∀ reply, alone.admits p (op : sig.Op β) reply = true →
        call.Good p op ∧ Q reply (p.advance op reply) := rfl

theorem writeAll_meets {data : Bytes} {offset : Nat} {rest : Bytes}
    (h : (Call.save key data).pre p (.writeAll fd offset rest)) :
    wp alone (spec (.save key data)) (body (.writeAll fd offset rest))
      (fun result p' => (Call.save key data).post p' (.writeAll fd offset rest) result) p := by
  obtain ⟨rfl, rfl, hle⟩ := h
  simp only [body]
  split
  · next hnil =>
      have hlen : data.length ≤ offset := drop_eq_nil_iff.mp hnil
      intro _
      rw [Nat.le_antisymm hle hlen]
  · simp only [wp_bind, wp_perform]
    rintro (err | n) hadm
    · exact ⟨⟨rfl, rfl, hle⟩, fun h => by cases h⟩
    · refine ⟨⟨rfl, rfl, hle⟩, ?_⟩
      have hn : n ≤ (data.drop offset).length := of_decide_eq_true hadm
      rw [length_drop] at hn
      cases n with
      | zero => exact fun h => by cases h
      | succ n =>
        refine ⟨⟨rfl, ?_, by omega⟩, fun _ _ h => h⟩
        rw [drop_drop]

theorem readAll_meets {got : Bytes} (h : (Call.load key).pre p (.readAll fd got)) :
    wp alone (spec (.load key)) (body (.readAll fd got))
      (fun result p' => (Call.load key).post p' (.readAll fd got) result) p := by
  obtain rfl := h
  simp only [body, wp_bind, wp_perform]
  rintro (err | piece) -
  · exact ⟨⟨got, rfl, rfl⟩, fun _ h => by cases h⟩
  · refine ⟨⟨got, rfl, rfl⟩, ?_⟩
    cases piece with
    | nil =>
      rintro data ⟨⟩
      simp [advance]
    | cons b piece =>
      exact ⟨rfl, fun _ _ h => h⟩

theorem bodies_verified (call : Call) : Verified bodies alone (spec call) := by
  intro β proc p hpre
  cases proc with
  | writeAll fd offset rest =>
    cases call with
    | save key data => exact writeAll_meets hpre
    | load key => exact hpre.elim
    | delete key => exact hpre.elim
  | readAll fd got =>
    cases call with
    | save key data => exact hpre.elim
    | load key => exact readAll_meets hpre
    | delete key => exact hpre.elim

theorem save_meets (key : GoString) (data : Bytes) :
    wp alone (spec (.save key data)) (Call.save key data).program (fun _ _ => True) .idle := by
  rintro (err | fd) -
  · exact ⟨⟨rfl, rfl⟩, fun _ _ => ⟨trivial, trivial⟩⟩
  refine ⟨⟨rfl, rfl⟩, ?_⟩
  refine ⟨⟨rfl, by simp, Nat.zero_le _⟩, fun result p' hpost closed _ => ⟨trivial, ?_⟩⟩
  cases result with
  | error err => exact fun _ _ => ⟨trivial, trivial⟩
  | ok _ =>
    obtain rfl := hpost rfl
    cases closed with
    | error err => exact fun _ _ => ⟨trivial, trivial⟩
    | ok _ =>
      rintro (err | _) -
      · refine ⟨⟨rfl, rfl, fd, rfl⟩, ?_⟩
        exact fun _ _ => ⟨rfl, fun _ _ => ⟨trivial, trivial⟩⟩
      · exact ⟨⟨rfl, rfl, fd, rfl⟩, fun _ _ => ⟨trivial, trivial⟩⟩

theorem load_meets (key : GoString) :
    wp alone (spec (.load key)) (Call.load key).program (fun _ _ => True) .idle := by
  rintro (err | fd) -
  · refine ⟨⟨rfl, rfl⟩, ?_⟩
    cases err with
    | notExist => exact fun _ _ => ⟨fun _ h => by simp at h, trivial⟩
    | other err => exact fun _ _ => ⟨fun _ h => by simp at h, trivial⟩
  refine ⟨⟨rfl, rfl⟩, ?_⟩
  refine ⟨rfl, fun result p' hpost => ?_⟩
  cases result with
  | error err =>
    cases err with
    | notExist => exact fun _ _ => ⟨fun _ h => by simp at h, trivial⟩
    | other err => exact fun _ _ => ⟨fun _ h => by simp at h, trivial⟩
  | ok data =>
    refine fun _ _ => ⟨fun data' h => ⟨fd, ?_⟩, trivial⟩
    obtain rfl : data = data' := by simpa using h
    exact hpost data rfl

theorem delete_meets (key : GoString) :
    wp alone (spec (.delete key)) (Call.delete key).program (fun _ _ => True) .idle := by
  rintro (err | _) -
  · refine ⟨rfl, ?_⟩
    cases err with
    | notExist => exact fun _ _ => ⟨trivial, trivial⟩
    | other err => exact fun _ _ => ⟨trivial, trivial⟩
  · exact ⟨rfl, fun _ _ => ⟨trivial, trivial⟩⟩

theorem Call.meets (call : Call) : wp alone (spec call) call.program (fun _ _ => True) .idle := by
  cases call with
  | save key data => exact save_meets key data
  | load key => exact load_meets key
  | delete key => exact delete_meets key

variable {ι : Type} [DecidableEq ι]

theorem framed (epochs : ι → Nat) :
    Framed (machine epochs) Killed (fun i w => w.progress i) (fun _ => alone) where
  admits i w _ op reply hadm := by
    have hop := (Bool.and_eq_true_iff.mp hadm).2
    cases op with
    | write fd offset data =>
      cases reply with
      | error err => rfl
      | ok n => exact hop
    | _ => rfl
  effect i w _ op reply _ := update_self ..
  other i w _ op reply _ j hj := update_of_ne hj ..
  quiet w w' h j := by rw [h]

end

section

variable {ι : Type}

structure World.Frozen (w : World ι) (epochs : ι → Nat) (fd : Nat) : Prop where
  bound : fd < w.next
  unnamed : ∀ key, w.names (tmpPath key) ≠ some fd
  unwritten : ∀ i offset, epochs i = w.epoch → w.progress i ≠ .writing fd offset

structure World.Holds (w : World ι) (calls : ι → Call) (epochs : ι → Nat) (key : GoString) (fd : Nat)
    (data : Bytes) : Prop where
  saved : ∃ j, calls j = .save key data
  content : w.files fd = data
  frozen : w.Frozen epochs fd

-- A Load has got a part of what a Save has put there.
def World.Reads (w : World ι) (calls : ι → Call) (epochs : ι → Nat) (i : ι) (fd : Nat) (got : Bytes)
    (eof : Bool) : Prop :=
  ∃ key data, calls i = .load key ∧ w.Holds calls epochs key fd data ∧ got <+: data ∧
    (eof = true → got = data)

def Loaded (calls : ι → Call) (results : ι → Option Outcome) : Prop :=
  ∀ i key data, calls i = .load key → results i = some (.loaded (.ok (some data))) →
    ∃ j, calls j = .save key data

-- A Save has written the first part of its data, and the temporary name, as
-- long as there is one, is that of its file.
structure World.Writes (w : World ι) (call : Call) (fd offset : Nat) : Prop where
  bound : fd < w.next
  call : ∃ key data, call = .save key data ∧ offset ≤ data.length ∧
    w.files fd = data.take offset ∧ (∀ name, w.names name = some fd → name = tmpPath key) ∧
    ∀ fd', w.names (tmpPath key) = some fd' → fd' = fd

structure Stored (calls : ι → Call) (epochs : ι → Nat) (w : World ι) : Prop where
  injective : ∀ name name' fd, w.names name = some fd → w.names name' = some fd → name = name'
  bound : ∀ name fd, w.names name = some fd → fd < w.next
  waiting : ∀ i, w.epoch < epochs i → w.progress i = .idle
  writer : ∀ i fd offset, epochs i = w.epoch → w.progress i = .writing fd offset →
    w.Writes (calls i) fd offset
  single : ∀ i j fd offset offset', epochs i = w.epoch → epochs j = w.epoch →
    w.progress i = .writing fd offset → w.progress j = .writing fd offset' → i = j
  published : ∀ key fd, w.names (path key) = some fd → ∃ data, w.Holds calls epochs key fd data
  reader : ∀ i fd got eof, w.progress i = .reading fd got eof → w.Reads calls epochs i fd got eof
  loaded : Loaded calls w.results

def Keeps (epochs : ι → Nat) (w w' : World ι) : Prop :=
  ∀ fd, w.Frozen epochs fd → w'.Frozen epochs fd ∧ w'.files fd = w.files fd

variable {key : GoString} {fd offset n : Nat} {data got piece : Bytes} {q : Progress}

theorem World.Holds.keep {calls : ι → Call} {epochs : ι → Nat} {w w' : World ι}
    (h : w.Holds calls epochs key fd data) (hk : Keeps epochs w w') :
    w'.Holds calls epochs key fd data where
  saved := h.saved
  content := (hk fd h.frozen).2.trans h.content
  frozen := (hk fd h.frozen).1

theorem World.Reads.keep {calls : ι → Call} {epochs : ι → Nat} {w w' : World ι} {i : ι} {eof : Bool}
    (h : w.Reads calls epochs i fd got eof) (hk : Keeps epochs w w') :
    w'.Reads calls epochs i fd got eof := by
  obtain ⟨key, data, hcall, hd, hrest⟩ := h
  exact ⟨key, data, hcall, hd.keep hk, hrest⟩

variable [DecidableEq ι] {calls : ι → Call} {epochs : ι → Nat} {w w' : World ι} {i : ι}

structure Moves (calls : ι → Call) (epochs : ι → Nat) (w w' : World ι) (i : ι) : Prop where
  epoch : w'.epoch = w.epoch
  live : epochs i = w.epoch
  others : ∀ j, j ≠ i → w'.progress j = w.progress j
  keeps : Keeps epochs w w'
  injective : ∀ name name' fd, w'.names name = some fd → w'.names name' = some fd → name = name'
  bound : ∀ name fd, w'.names name = some fd → fd < w'.next
  writes : ∀ j fd offset, j ≠ i → epochs j = w.epoch → w.progress j = .writing fd offset →
    w'.Writes (calls j) fd offset
  writer : ∀ fd offset, w'.progress i = .writing fd offset → w'.Writes (calls i) fd offset ∧
    ∀ j offset', j ≠ i → epochs j = w.epoch → w.progress j ≠ .writing fd offset'
  published : ∀ key fd, w'.names (path key) = some fd →
    w.names (path key) = some fd ∨ ∃ data, w'.Holds calls epochs key fd data
  reader : ∀ fd got eof, w'.progress i = .reading fd got eof → w.Reads calls epochs i fd got eof
  loaded : Loaded calls w'.results

theorem Stored.moves (hs : Stored calls epochs w) (hm : Moves calls epochs w w' i) :
    Stored calls epochs w' where
  injective := hm.injective
  bound := hm.bound
  waiting j hj := by
    rw [hm.epoch] at hj
    have hne : j ≠ i := by
      rintro rfl
      have := hm.live
      omega
    rw [hm.others j hne]
    exact hs.waiting j hj
  writer j fd offset hj hp := by
    rw [hm.epoch] at hj
    by_cases hne : j = i
    · subst hne
      exact (hm.writer fd offset hp).1
    · rw [hm.others j hne] at hp
      exact hm.writes j fd offset hne hj hp
  single j k fd offset offset' hj hk hpj hpk := by
    rw [hm.epoch] at hj hk
    by_cases hji : j = i
    · by_cases hki : k = i
      · rw [hji, hki]
      · subst hji
        rw [hm.others k hki] at hpk
        exact absurd hpk ((hm.writer fd offset hpj).2 k offset' hki hk)
    · rw [hm.others j hji] at hpj
      by_cases hki : k = i
      · subst hki
        exact absurd hpj ((hm.writer fd offset' hpk).2 j offset hji hj)
      · rw [hm.others k hki] at hpk
        exact hs.single j k fd offset offset' hj hk hpj hpk
  published key fd h := by
    rcases hm.published key fd h with h | h
    · obtain ⟨data, hd⟩ := hs.published key fd h
      exact ⟨data, hd.keep hm.keeps⟩
    · exact h
  reader j fd got eof hp := by
    by_cases hne : j = i
    · subst hne
      exact (hm.reader fd got eof hp).keep hm.keeps
    · rw [hm.others j hne] at hp
      exact (hs.reader j fd got eof hp).keep hm.keeps
  loaded := hm.loaded

theorem World.Frozen.unwritten_update {g : Nat} (hg : w.Frozen epochs g)
    (hq : ∀ offset, q ≠ .writing g offset) {j : ι} (hj : epochs j = w.epoch) :
    update w.progress i q j ≠ .writing g offset := by
  by_cases hji : j = i
  · rw [hji, update_self]
    exact hq offset
  · rw [update_of_ne hji]
    exact hg.unwritten j offset hj

omit [DecidableEq ι] in
theorem Stored.injective_update (hs : Stored calls epochs w) {names : Name → Option Nat}
    {new : Name} (hnames : ∀ name g, names name = some g →
      name = new ∧ g = fd ∨ w.names name = some g ∧ g ≠ fd) (name name' : Name) (g : Nat)
    (h : names name = some g) (h' : names name' = some g) : name = name' := by
  rcases hnames _ _ h with ⟨rfl, rfl⟩ | ⟨h, hg⟩
  · rcases hnames _ _ h' with ⟨rfl, -⟩ | ⟨-, hg⟩
    · rfl
    · exact absurd rfl hg
  · rcases hnames _ _ h' with ⟨-, rfl⟩ | ⟨h', -⟩
    · exact absurd rfl hg
    · exact hs.injective _ _ _ h h'

theorem Stored.still (hs : Stored calls epochs w) (hi : epochs i = w.epoch)
    {results : ι → Option Outcome}
    (hwriting : ∀ fd offset, q = .writing fd offset → w.progress i = .writing fd offset)
    (hreading : ∀ fd got eof, q = .reading fd got eof → w.Reads calls epochs i fd got eof)
    (hloaded : Loaded calls results) :
    Stored calls epochs { w with progress := update w.progress i q, results := results } := by
  have hfrom : ∀ j fd offset, update w.progress i q j = .writing fd offset →
      w.progress j = .writing fd offset := fun j fd offset h => by
    by_cases hj : j = i
    · subst hj
      rw [update_self] at h
      exact hwriting fd offset h
    · rwa [update_of_ne hj] at h
  have hkeeps : Keeps epochs w
      { w with progress := update w.progress i q, results := results } := fun fd hf =>
    ⟨⟨hf.bound, hf.unnamed, fun j offset hj h => hf.unwritten j offset hj (hfrom j fd offset h)⟩, rfl⟩
  refine hs.moves (i := i) ⟨rfl, hi, fun j hj => update_of_ne hj .., hkeeps, hs.injective,
    hs.bound, ?_, ?_, fun key fd h => .inl h, ?_, hloaded⟩
  · intro j fd offset _ hj hp
    obtain ⟨hbound, hcall⟩ := hs.writer j fd offset hj hp
    exact ⟨hbound, hcall⟩
  · intro fd offset h
    have hp := hfrom i fd offset h
    obtain ⟨hbound, hcall⟩ := hs.writer i fd offset hi hp
    exact ⟨⟨hbound, hcall⟩, fun j offset' hj hje hpj =>
      hj (hs.single j i fd offset' offset hje hi hpj hp)⟩
  · intro fd got eof h
    exact hreading fd got eof ((update_self i q w.progress).symm.trans h)

omit [DecidableEq ι] in
theorem Stored.kill (hs : Stored calls epochs w) :
    Stored calls epochs { w with epoch := w.epoch + 1 } := by
  -- the calls of the next process have not begun
  have hnone : ∀ j fd offset, epochs j = w.epoch + 1 → w.progress j ≠ .writing fd offset := by
    intro j fd offset hj
    rw [hs.waiting j (by omega)]
    exact Progress.noConfusion
  have hkeeps : Keeps epochs w { w with epoch := w.epoch + 1 } := fun fd hf =>
    ⟨⟨hf.bound, hf.unnamed, fun j offset hj => hnone j fd offset hj⟩, rfl⟩
  exact {
    injective := hs.injective
    bound := hs.bound
    waiting := fun j hj => hs.waiting j (Nat.lt_of_succ_lt hj)
    writer := fun j fd offset hj hp => absurd hp (hnone j fd offset hj)
    single := fun j _ fd offset _ hj _ hp _ => absurd hp (hnone j fd offset hj)
    published := fun key fd h => by
      obtain ⟨data, hd⟩ := hs.published key fd h
      exact ⟨data, hd.keep hkeeps⟩
    reader := fun j fd got eof hp => (hs.reader j fd got eof hp).keep hkeeps
    loaded := hs.loaded }

theorem take_writeAt (hle : offset ≤ data.length) :
    writeAt (data.take offset) offset ((data.drop offset).take n) = data.take (offset + n) := by
  have hlen : (data.take offset).length = offset := length_take_of_le hle
  simp only [writeAt, hlen, Nat.sub_self, replicate_zero, append_nil, length_take, length_drop]
  have hrest : (data.take offset).drop (offset + min n (data.length - offset)) = [] :=
    drop_eq_nil_of_le (by rw [hlen]; omega)
  rw [hrest, take_take, Nat.min_self, append_nil, take_add]

theorem Stored.write (hs : Stored calls epochs w) (hi : epochs i = w.epoch)
    (hcall : calls i = .save key data) (hp : w.progress i = .writing fd offset)
    (hn : n ≤ (data.drop offset).length) :
    Stored calls epochs { w with
        files := update w.files fd (writeAt (w.files fd) offset ((data.drop offset).take n))
        progress := update w.progress i (.writing fd (offset + n)) } := by
  obtain ⟨hbound, key', data', hcall', hle, hfile, hname, htmp⟩ := hs.writer i fd offset hi hp
  cases hcall.symm.trans hcall'
  rw [hfile, take_writeAt hle]
  have hothers : ∀ j fd' offset', j ≠ i → epochs j = w.epoch → w.progress j = .writing fd' offset' →
      fd' ≠ fd := by
    rintro j _ offset' hj hje hpj rfl
    exact hj (hs.single j i _ offset' offset hje hi hpj hp)
  refine hs.moves (i := i) ⟨rfl, hi, fun j hj => update_of_ne hj .., ?_, hs.injective,
    hs.bound, ?_, ?_, fun key fd h => .inl h, ?_, hs.loaded⟩
  · intro g hg
    have hne : g ≠ fd := by
      rintro rfl
      exact hg.unwritten i offset hi hp
    exact ⟨⟨hg.bound, hg.unnamed, fun _ _ => hg.unwritten_update fun _ h =>
      hne (writing.inj h).1.symm⟩, update_of_ne hne ..⟩
  · intro j fd' offset' hj hje hpj
    have hne := hothers j fd' offset' hj hje hpj
    obtain ⟨hb, key', data', hc, hl, hf, hrest⟩ := hs.writer j fd' offset' hje hpj
    exact ⟨hb, key', data', hc, hl, (update_of_ne hne ..).trans hf, hrest⟩
  · intro fd' offset' h
    simp only [update_self, writing.injEq] at h
    obtain ⟨rfl, rfl⟩ := h
    rw [length_drop] at hn
    refine ⟨⟨hbound, key, data, hcall, by omega, update_self .., hname, htmp⟩, ?_⟩
    intro j offset' hj hje hpj
    exact hothers j _ offset' hj hje hpj rfl
  · intro fd' got eof h
    simp only [update_self] at h
    cases h

structure Created (w w' : World ι) (name : Name) (fd : Nat) : Prop where
  named : w'.names name = some fd
  others : ∀ name', name' ≠ name → w'.names name' = w.names name'
  empty : w'.files fd = []
  files : ∀ fd', fd' ≠ fd → w'.files fd' = w.files fd'
  next : w.next ≤ w'.next
  bound : fd < w'.next
  target : w.names name = some fd ∨ w.names name = none ∧ fd = w.next

omit [DecidableEq ι] in
theorem Stored.created (hs : Stored calls epochs w) (name : Name) :
    Created w (w.create name) name (w.target name) := by
  unfold World.create World.target
  cases hname : w.names name with
  | some fd =>
    exact ⟨hname, fun _ _ => rfl, update_self .., fun _ h => update_of_ne h ..,
      Nat.le_refl _, hs.bound name fd hname, .inl hname⟩
  | none =>
    exact ⟨update_self .., fun _ h => update_of_ne h .., update_self ..,
      fun _ h => update_of_ne h .., Nat.le_succ _, Nat.lt_succ_self _, .inr ⟨hname, rfl⟩⟩

theorem Stored.create (hs : Stored calls epochs w) (hi : epochs i = w.epoch)
    (hcall : calls i = .save key data)
    (halone : ∀ j, j ≠ i → epochs j = w.epoch → ∀ data' fd offset, calls j = .save key data' →
      w.progress j ≠ .writing fd offset) :
    Stored calls epochs { w.create (tmpPath key) with
        progress := update w.progress i (.writing (w.target (tmpPath key)) 0) } := by
  have hc := hs.created (tmpPath key)
  generalize w.target (tmpPath key) = fd at hc ⊢
  have hepoch : (w.create (tmpPath key)).epoch = w.epoch ∧
      (w.create (tmpPath key)).results = w.results := by
    unfold World.create
    split <;> exact ⟨rfl, rfl⟩
  generalize w.create (tmpPath key) = w1 at hc hepoch ⊢
  obtain ⟨hepoch, hresults⟩ := hepoch
  -- nobody else writes this file: its name would be that of the same key
  have hunwritten : ∀ j offset, j ≠ i → epochs j = w.epoch → w.progress j ≠ .writing fd offset := by
    intro j offset hj hje hpj
    obtain ⟨hb, key', data', hcall', -, -, hname, -⟩ := hs.writer j fd offset hje hpj
    rcases hc.target with htarget | ⟨-, hnext⟩
    · obtain rfl := tmpPath_inj (hname _ htarget)
      exact halone j hj hje data' fd offset hcall' hpj
    · omega
  have hfrozen : ∀ g, w.Frozen epochs g → g ≠ fd := by
    rintro g hg rfl
    rcases hc.target with htarget | ⟨-, hnext⟩
    · exact hg.unnamed key htarget
    · have := hg.bound
      omega
  have hnames : ∀ name g, w1.names name = some g → name = tmpPath key ∧ g = fd ∨
      name ≠ tmpPath key ∧ w.names name = some g ∧ g ≠ fd := by
    intro name g h
    by_cases hn : name = tmpPath key
    · subst hn
      exact .inl ⟨rfl, Option.some.inj (h.symm.trans hc.named)⟩
    · rw [hc.others name hn] at h
      refine .inr ⟨hn, h, ?_⟩
      rintro rfl
      rcases hc.target with htarget | ⟨-, hnext⟩
      · exact hn (hs.injective _ _ _ h htarget)
      · have := hs.bound _ _ h
        omega
  refine hs.moves (i := i) ⟨hepoch, hi, fun j hj => update_of_ne hj .., ?_, ?_, ?_, ?_, ?_, ?_,
    ?_, ?_⟩
  · intro g hg
    refine ⟨⟨Nat.lt_of_lt_of_le hg.bound hc.next, fun key' h => ?_, fun j offset hj =>
      hg.unwritten_update (fun _ h => hfrozen g hg (writing.inj h).1.symm)
        (hj.trans hepoch)⟩, hc.files g (hfrozen g hg)⟩
    rcases hnames _ _ h with ⟨-, rfl⟩ | ⟨-, h, -⟩
    · exact hfrozen _ hg rfl
    · exact hg.unnamed key' h
  · exact hs.injective_update fun name g h => (hnames name g h).imp_right And.right
  · intro name g h
    rcases hnames _ _ h with ⟨-, rfl⟩ | ⟨-, h, -⟩
    · exact hc.bound
    · exact Nat.lt_of_lt_of_le (hs.bound _ _ h) hc.next
  · intro j g offset hj hje hpj
    obtain ⟨hb, key', data', hcall', hle, hfile, hname, htmp⟩ := hs.writer j g offset hje hpj
    have hne : g ≠ fd := by
      rintro rfl
      exact hunwritten j offset hj hje hpj
    refine ⟨Nat.lt_of_lt_of_le hb hc.next, key', data', hcall', hle, (hc.files g hne).trans hfile,
      fun name h => ?_, fun g' h => ?_⟩
    · rcases hnames _ _ h with ⟨-, rfl⟩ | ⟨-, h, -⟩
      · exact absurd rfl hne
      · exact hname name h
    · rcases hnames _ _ h with ⟨hkey, -⟩ | ⟨-, h, -⟩
      · rw [tmpPath_inj hkey] at hcall'
        exact absurd hpj (halone j hj hje data' g offset hcall')
      · exact htmp g' h
  · intro g offset h
    simp only [update_self, writing.injEq] at h
    obtain ⟨rfl, rfl⟩ := h
    refine ⟨⟨hc.bound, key, data, hcall, Nat.zero_le _, hc.empty, fun name h => ?_, fun g' h => ?_⟩,
      fun j offset' hj hje => hunwritten j offset' hj hje⟩
    · rcases hnames _ _ h with ⟨hn, -⟩ | ⟨-, -, hne⟩
      · exact hn
      · exact absurd rfl hne
    · rcases hnames _ _ h with ⟨-, hg⟩ | ⟨hn, -⟩
      · exact hg
      · exact absurd rfl hn
  · intro key' g h
    rcases hnames _ _ h with ⟨hn, -⟩ | ⟨-, h, -⟩
    · exact absurd hn (path_ne_tmpPath key' key)
    · exact .inl h
  · intro g got eof h
    simp only [update_self] at h
    cases h
  · intro j key' data' hj h
    exact hs.loaded j key' data' hj (hresults ▸ h)

theorem Stored.rename (hs : Stored calls epochs w) (hi : epochs i = w.epoch)
    (hcall : calls i = .save key data) (hp : w.progress i = .writing fd data.length)
    (hsome : (w.names (tmpPath key)).isSome) :
    Stored calls epochs { w with
        names := update (update w.names (path key) (w.names (tmpPath key))) (tmpPath key) none
        progress := update w.progress i .idle } := by
  obtain ⟨hbound, key', data', hcall', -, hfile, -, htmp⟩ := hs.writer i fd _ hi hp
  cases hcall.symm.trans hcall'
  have hold : w.names (tmpPath key) = some fd := by
    obtain ⟨fd', h⟩ := Option.isSome_iff_exists.mp hsome
    rw [h, htmp fd' h]
  rw [take_length] at hfile
  have hnames : ∀ name g, update (update w.names (path key) (w.names (tmpPath key)))
        (tmpPath key) none name = some g →
      name = path key ∧ g = fd ∨ name ≠ tmpPath key ∧ w.names name = some g ∧ g ≠ fd := by
    intro name g h
    by_cases hn : name = tmpPath key
    · rw [hn, update_self] at h
      cases h
    · rw [update_of_ne hn] at h
      by_cases hk : name = path key
      · rw [hk, update_self, hold] at h
        exact .inl ⟨hk, (Option.some.inj h).symm⟩
      · rw [update_of_ne hk] at h
        refine .inr ⟨hn, h, ?_⟩
        rintro rfl
        exact hn (hs.injective _ _ _ h hold)
  have hunwritten : ∀ j offset, epochs j = w.epoch →
      update w.progress i .idle j ≠ .writing fd offset := by
    intro j offset hj h
    by_cases hji : j = i
    · rw [hji, update_self] at h
      cases h
    · rw [update_of_ne hji] at h
      exact hji (hs.single j i fd offset _ hj hi h hp)
  refine hs.moves (i := i) ⟨rfl, hi, fun j hj => update_of_ne hj .., ?_, ?_, ?_, ?_, ?_, ?_,
    ?_, hs.loaded⟩
  · intro g hg
    refine ⟨⟨hg.bound, fun key' h => ?_, fun _ _ => hg.unwritten_update fun _ => Progress.noConfusion⟩,
      rfl⟩
    rcases hnames _ _ h with ⟨hn, -⟩ | ⟨-, h, -⟩
    · exact path_ne_tmpPath key key' hn.symm
    · exact hg.unnamed key' h
  · exact hs.injective_update fun name g h => (hnames name g h).imp_right And.right
  · intro name g h
    rcases hnames _ _ h with ⟨-, rfl⟩ | ⟨-, h, -⟩
    · exact hbound
    · exact hs.bound _ _ h
  · intro j g offset hj hje hpj
    obtain ⟨hb, key', data', hc, hl, hf, hname, htmp⟩ := hs.writer j g offset hje hpj
    refine ⟨hb, key', data', hc, hl, hf, fun name h => ?_, fun g' h => ?_⟩
    · rcases hnames _ _ h with ⟨-, rfl⟩ | ⟨-, h, -⟩
      · exact absurd (hs.single j i _ offset _ hje hi hpj hp) hj
      · exact hname name h
    · rcases hnames _ _ h with ⟨hn, -⟩ | ⟨-, h, -⟩
      · exact absurd hn.symm (path_ne_tmpPath key key')
      · exact htmp g' h
  · intro g offset h
    simp only [update_self] at h
    cases h
  · intro key' g h
    rcases hnames _ _ h with ⟨hn, rfl⟩ | ⟨-, h, -⟩
    · obtain rfl := path_inj hn
      refine .inr ⟨data, ⟨i, hcall⟩, hfile, hbound, fun key'' h => ?_, hunwritten⟩
      rcases hnames _ _ h with ⟨hn, -⟩ | ⟨-, -, hg⟩
      · exact path_ne_tmpPath _ key'' hn.symm
      · exact hg rfl
    · exact .inl h
  · intro g got eof h
    simp only [update_self] at h
    cases h

theorem Stored.remove (hs : Stored calls epochs w) (hi : epochs i = w.epoch) (name : Name) :
    Stored calls epochs { w with
        names := update w.names name none
        progress := update w.progress i (w.progress i) } := by
  rw [update_eq_self]
  have hnames : ∀ name' g, update w.names name none name' = some g →
      w.names name' = some g := by
    intro name' g h
    by_cases hn : name' = name
    · rw [hn, update_self] at h
      cases h
    · rwa [update_of_ne hn] at h
  have hwrites : ∀ j g offset, epochs j = w.epoch → w.progress j = .writing g offset →
      World.Writes { w with names := update w.names name none } (calls j) g offset := by
    intro j g offset hj hpj
    obtain ⟨hb, key, data, hc, hl, hf, hname, htmp⟩ := hs.writer j g offset hj hpj
    exact ⟨hb, key, data, hc, hl, hf, fun name' h => hname name' (hnames _ _ h),
      fun g' h => htmp g' (hnames _ _ h)⟩
  refine hs.moves (i := i) ⟨rfl, hi, fun _ _ => rfl, fun g hg => ?_, fun name name' g h h' => ?_,
    fun name g h => hs.bound _ _ (hnames _ _ h), fun j g offset _ => hwrites j g offset,
    fun g offset h => ⟨hwrites i g offset hi h, fun j offset' hj hje hpj => ?_⟩,
    fun key g h => .inl (hnames _ _ h), hs.reader i, hs.loaded⟩
  · exact ⟨⟨hg.bound, fun key h => hg.unnamed key (hnames _ _ h), hg.unwritten⟩, rfl⟩
  · exact hs.injective _ _ _ (hnames _ _ h) (hnames _ _ h')
  · exact hj (hs.single j i g offset' offset hje hi hpj h)

theorem Stored.quiet (hs : Stored calls epochs w) (hi : epochs i = w.epoch)
    (hq : q = .idle ∨ q = w.progress i) :
    Stored calls epochs { w with progress := update w.progress i q } := by
  refine hs.still hi (fun fd offset h => ?_) (fun fd got eof h => ?_) hs.loaded
  · rcases hq with rfl | rfl
    · cases h
    · exact h
  · rcases hq with rfl | rfl
    · cases h
    · exact hs.reader i fd got eof h

theorem append_prefix (h : got <+: data)
    (hpiece : piece = (data.drop got.length).take piece.length) : got ++ piece <+: data := by
  obtain ⟨rest, rfl⟩ := h
  rw [drop_left] at hpiece
  rw [hpiece, prefix_append_right_inj]
  exact take_prefix ..

theorem append_eof (h : got <+: data) (hend : piece = [] → data.length ≤ got.length)
    (hnil : piece = []) : got ++ piece = data := by
  rw [hnil, append_nil]
  exact h.eq_of_length_le (hend hnil)

def World.Unshared (w : World ι) (calls : ι → Call) (epochs : ι → Nat) (i : ι) {β : Type} :
    FileOp β → Prop
  | .create name => ∀ j key data fd offset, j ≠ i → epochs j = w.epoch → calls j = .save key data →
      tmpPath key = name → w.progress j ≠ .writing fd offset
  | _ => True

theorem Stored.act (hs : Stored calls epochs w) {β : Type} {op : FileOp β} {reply : β}
    (hadm : (machine epochs i).admits w (op : sig.Op β) reply = true)
    (hgood : (calls i).Good (w.progress i) op) (halone : w.Unshared calls epochs i op) :
    Stored calls epochs ((machine epochs i).effect w (op : sig.Op β) reply) := by
  obtain ⟨hi, hop⟩ := Bool.and_eq_true_iff.mp hadm
  have hi := of_decide_eq_true hi
  cases op with
  | create name =>
    cases hcall : calls i with
    | save key data =>
      rw [hcall] at hgood
      obtain ⟨rfl, -⟩ := hgood
      cases reply with
      | error err => exact hs.quiet hi (.inr rfl)
      | ok fd =>
        obtain rfl := of_decide_eq_true hop
        exact hs.create hi hcall fun j hj hje data' fd offset hcall' =>
          halone j key data' fd offset hj hje hcall' rfl
    | _ => rw [hcall] at hgood; exact hgood.elim
  | write fd offset rest =>
    cases hcall : calls i with
    | save key data =>
      rw [hcall] at hgood
      obtain ⟨hp, rfl, -⟩ := hgood
      cases reply with
      | error err => exact hs.quiet hi (.inr rfl)
      | ok n => exact hs.write hi hcall hp (of_decide_eq_true hop)
    | _ => rw [hcall] at hgood; exact hgood.elim
  | close fd => exact hs.quiet hi (.inr rfl)
  | rename old new =>
    cases hcall : calls i with
    | save key data =>
      rw [hcall] at hgood
      obtain ⟨rfl, rfl, fd, hp⟩ := hgood
      cases reply with
      | error err => exact hs.quiet hi (.inl rfl)
      | ok _ => exact hs.rename hi hcall hp hop
    | _ => rw [hcall] at hgood; exact hgood.elim
  | remove name =>
    cases reply with
    | error err => exact hs.quiet hi (.inr rfl)
    | ok _ => exact hs.remove hi name
  | openFile name =>
    cases hcall : calls i with
    | load key =>
      rw [hcall] at hgood
      obtain ⟨rfl, -⟩ := hgood
      cases reply with
      | error err => exact hs.quiet hi (.inr rfl)
      | ok fd =>
        obtain ⟨data, hd⟩ := hs.published key fd (of_decide_eq_true hop)
        refine hs.still hi (fun _ _ h => by cases h) (fun fd' got eof h => ?_) hs.loaded
        cases h
        exact ⟨key, data, hcall, hd, nil_prefix, fun h => by cases h⟩
    | _ => rw [hcall] at hgood; exact hgood.elim
  | read fd offset =>
    cases hcall : calls i with
    | load key =>
      rw [hcall] at hgood
      obtain ⟨got, hp, rfl⟩ := hgood
      cases reply with
      | error err => exact hs.quiet hi (.inr rfl)
      | ok piece =>
        obtain ⟨key', data, hcall', hd, hprefix, -⟩ := hs.reader i fd got false hp
        obtain ⟨hpiece, hend⟩ := of_decide_eq_true hop
        rw [hd.content] at hpiece hend
        refine hs.still hi (fun _ _ h => ?_) (fun fd' got' eof h => ?_) hs.loaded
        · simp [advance, hp] at h
        · simp only [advance, hp, Progress.reading.injEq] at h
          obtain ⟨rfl, rfl, rfl⟩ := h
          exact ⟨key', data, hcall', hd, append_prefix hprefix hpiece,
            fun h => append_eof hprefix hend (of_decide_eq_true h)⟩
    | _ => rw [hcall] at hgood; exact hgood.elim
  | returned outcome =>
    refine hs.still hi (fun _ _ h => by cases h) (fun _ _ _ h => by cases h)
      fun j key data hj h => ?_
    simp only [World.perform] at h
    by_cases hji : j = i
    · subst hji
      rw [hj] at hgood
      rw [update_self, Option.some.injEq] at h
      obtain ⟨fd, hp⟩ := hgood data h
      obtain ⟨key', data', hcall, hd, -, heof⟩ := hs.reader j fd data true hp
      cases hj.symm.trans hcall
      exact heof rfl ▸ hd.saved
    · rw [update_of_ne hji] at h
      exact hs.loaded j key data hj h

end

section

variable {ι : Type} [DecidableEq ι] {calls : ι → Call} {epochs : ι → Nat}
  {labels : List (Label sig ι (World ι))} {pool next last : Pool sig ι (World ι)}
  {label : Label sig ι (World ι)}

-- The Saves of a key in one process take turns between opening the temporary
-- file and renaming it.
def Exclusive (calls : ι → Call) (epochs : ι → Nat) : Label sig ι (World ι) → Prop
  | .act i w op _ _ => w.Unshared calls epochs i (op : FileOp _)
  | _ => True

structure Sound (calls : ι → Call) (epochs : ι → Nat) (pool : Pool sig ι (World ι)) : Prop where
  meets : pool.Meets (fun i w => w.progress i) (fun _ => alone) (fun i => spec (calls i))
    (fun _ _ => True)
  stored : Stored calls epochs pool.state

omit [DecidableEq ι] in
theorem Sound.launch : Sound calls epochs (launch calls) where
  meets i := (calls i).meets
  stored := by
    constructor <;> simp [Persist.launch, Loaded]

theorem Sound.step (hs : Sound calls epochs pool) (hexclusive : Exclusive calls epochs label)
    (hstep : Pool.Step bodies (machine epochs) Killed pool label next) :
    Sound calls epochs next := by
  obtain ⟨hmeets, hok⟩ := Pool.Meets.step (framed epochs) (fun i => bodies_verified (calls i)) hstep
    hs.meets
  refine ⟨hmeets, ?_⟩
  cases hstep with
  | act i _ hadm => exact hs.stored.act hadm hok hexclusive
  | enter => exact hs.stored
  | env h =>
    rw [h]
    exact hs.stored.kill

theorem Runs.sound (hr : Runs calls epochs labels last)
    (hexclusive : ∀ label ∈ labels, Exclusive calls epochs label) : Sound calls epochs last :=
  (hr.along _ (fun _ => True) (Sound calls epochs) hexclusive Sound.launch
    fun _ _ _ hg hstep hs => ⟨hs.step hg hstep, trivial⟩).1

-- Two Saves of a key share one temporary file.
theorem load_saved_of_exclusive (hr : Runs calls epochs labels last)
    (hexclusive : ∀ label ∈ labels, Exclusive calls epochs label) {i : ι} {key : GoString}
    {data : Bytes} (hi : calls i = .load key)
    (hresult : last.state.results i = some (.loaded (.ok (some data)))) :
    ∃ j, calls j = .save key data :=
  (hr.sound hexclusive).stored.loaded i key data hi hresult

def sampleCalls : Fin 3 → Call
  | 0 => .save ⟨[107]⟩ [1, 2, 3]
  | 1 => .save ⟨[107]⟩ [4, 5]
  | 2 => .load ⟨[107]⟩

def samplePiece : Fin 3 → Nat → Nat
  | 1, _ => 1
  | _, n => n

def sampleReply (i : Fin 3) (w : World (Fin 3)) {β : Type} : FileOp β → Option β
  | .create name => some (.ok (w.target name))
  | .write _ _ data => some (.ok (samplePiece i data.length))
  | .close _ => some (.ok ())
  | .rename _ _ => some (.ok ())
  | .remove _ => some (.ok ())
  | .openFile name => (w.names name).map .ok
  | .read fd offset => some (.ok ((w.files fd).drop offset))
  | .returned _ => some ()

def Progress.isWriting : Progress → Bool
  | .writing _ _ => true
  | _ => false

def noneWriting : Label sig (Fin 3) (World (Fin 3)) → Bool
  | .act i w op _ _ =>
    match (op : FileOp _) with
    | .create _ => decide (∀ j, j ≠ i → (w.progress j).isWriting = false)
    | _ => true
  | _ => true

theorem exclusive_of_noneWriting {label : Label sig (Fin 3) (World (Fin 3))} {epochs : Fin 3 → Nat}
    (h : noneWriting label = true) : Exclusive sampleCalls epochs label := by
  cases label with
  | act i w op reply w' =>
    cases op with
    | create name =>
      intro j key data fd offset hj _ _ _ hp
      have hw := of_decide_eq_true h j hj
      rw [hp] at hw
      cases hw
    | _ => trivial
  | enter => trivial
  | env => trivial

theorem sample_reaches (allowed : Label sig (Fin 3) (World (Fin 3)) → Bool)
    (schedule : List (Fin 3)) (P : World (Fin 3) → Bool)
    (h : (Pool.replay bodies (machine fun _ => 0) (fun i w {_} op => sampleReply i w op) allowed
      schedule (launch sampleCalls)).any (fun last => P last.state) = true) :
    ∃ labels last, Runs sampleCalls (fun _ => 0) labels last ∧
      (∀ label ∈ labels, allowed label = true) ∧ P last.state = true :=
  Pool.reaches_of_replay Killed _ h

theorem load_torn :
    ∃ labels last, Runs sampleCalls (fun _ => 0) labels last ∧
      last.state.results 2 = some (.loaded (.ok (some [4]))) ∧
      ∀ j, sampleCalls j ≠ .save ⟨[107]⟩ [4] := by
  obtain ⟨labels, last, hr, -, hp⟩ := sample_reaches (fun _ => true)
    [0, 0, 0, 0, 0, 1, 1, 1, 0, 2, 2, 2, 2, 2, 2]
    (fun w => decide (w.results 2 = some (.loaded (.ok (some [4]))))) (by decide +kernel)
  exact ⟨labels, last, hr, of_decide_eq_true hp, by decide⟩

theorem load_saved_of_exclusive_sample :
    ∃ labels last, Runs sampleCalls (fun _ => 0) labels last ∧
      (∀ label ∈ labels, Exclusive sampleCalls (fun _ => 0) label) ∧
      last.state.results 2 = some (.loaded (.ok (some [4, 5]))) ∧
      ∃ j, sampleCalls j = .save ⟨[107]⟩ [4, 5] := by
  obtain ⟨labels, last, hr, hl, hp⟩ := sample_reaches noneWriting
    [0, 0, 0, 0, 0, 0, 0, 1, 1, 1, 1, 1, 1, 1, 1, 2, 2, 2, 2, 2, 2]
    (fun w => decide (w.results 2 = some (.loaded (.ok (some [4, 5]))))) (by decide +kernel)
  have hresult := of_decide_eq_true hp
  have hexclusive : ∀ label ∈ labels, Exclusive sampleCalls (fun _ => 0) label :=
    fun label hlabel => exclusive_of_noneWriting (hl label hlabel)
  exact ⟨labels, last, hr, hexclusive, hresult, load_saved_of_exclusive hr hexclusive rfl hresult⟩

end

end StarlingWg.Persist
