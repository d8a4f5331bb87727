import Mathlib.Algebra.Group.Nat.Defs
import Mathlib.Logic.Function.Basic
import Mathlib.Order.Lattice

namespace StarlingWg.Replay

open Function


abbrev Block := BitVec 64

abbrev Counter := BitVec 64

abbrev blockBitLog : Nat := 6

abbrev blockBits : Nat := 64

abbrev ringBlocks : Nat := 128

abbrev windowSize : Nat := (ringBlocks - 1) * blockBits

abbrev blockMask : BitVec 64 := 127

abbrev bitMask : BitVec 64 := 63

theorem and_blockMask (i : BitVec 64) : (i &&& blockMask).toNat = i.toNat % 128 := by
  exact Nat.and_two_pow_sub_one_eq_mod i.toNat 7

theorem and_bitMask (i : BitVec 64) : (i &&& bitMask).toNat = i.toNat % 64 := by
  exact Nat.and_two_pow_sub_one_eq_mod i.toNat 6

structure Filter where
  last : Counter := 0
  ring : Fin ringBlocks → Block := fun _ => 0

def ringIndex (i : BitVec 64) : Fin ringBlocks :=
  ⟨(i &&& blockMask).toNat, by rw [and_blockMask]; exact Nat.mod_lt _ (by decide)⟩

-- The loop that clears `diff` blocks after `current`. It stops where the
-- source's does: current + diff cannot wrap.
def clear (ring : Fin ringBlocks → Block) (current : BitVec 64) : Nat → Fin ringBlocks → Block
  | 0 => ring
  | diff + 1 => clear (update ring (ringIndex (current + 1)) 0) (current + 1) diff

namespace Filter

def reset (f : Filter) : Filter where
  last := 0
  ring := update f.ring 0 0

def checkAndSet (f : Filter) (counter : Counter) : Bool × Filter :=
  let indexBlock := ringIndex (counter >>> blockBitLog)
  let indexBit := counter &&& bitMask
  let old := f.ring indexBlock
  let new := old ||| ((1 : Block) <<< indexBit)
  (old != new, { f with ring := update f.ring indexBlock new })

def moveForward (f : Filter) (counter : Counter) : Filter :=
  let current := f.last >>> blockBitLog
  let diff := (counter >>> blockBitLog) - current
  let capped := if diff.toNat > ringBlocks then ringBlocks else diff.toNat
  { last := counter, ring := clear f.ring current capped }

def validateCounter (f : Filter) (counter limit : Counter) : Bool × Filter :=
  if limit ≤ counter then
    (false, f)
  else if f.last < counter then
    (f.moveForward counter).checkAndSet counter
  else if windowSize < (f.last - counter).toNat then
    (false, f)
  else
    f.checkAndSet counter

end Filter

inductive Call
  | reset
  | validateCounter (counter limit : Counter)
  deriving DecidableEq, Repr

def Filter.results : Filter → List Call → List (Option Bool)
  | _, [] => []
  | f, .reset :: calls => none :: f.reset.results calls
  | f, .validateCounter counter limit :: calls =>
    some (f.validateCounter counter limit).1 :: (f.validateCounter counter limit).2.results calls

-- The counters accepted since the last Reset are all there is to know.
def largest (accepted : List Counter) : Nat :=
  accepted.foldr (fun counter rest => max counter.toNat rest) 0

def Accepts (accepted : List Counter) (counter limit : Counter) : Prop :=
  counter < limit ∧ counter ∉ accepted ∧ largest accepted ≤ counter.toNat + windowSize

instance (accepted : List Counter) (counter limit : Counter) :
    Decidable (Accepts accepted counter limit) :=
  inferInstanceAs (Decidable (_ ∧ _))

def expected : List Counter → List Call → List (Option Bool)
  | _, [] => []
  | _, .reset :: calls => none :: expected [] calls
  | accepted, .validateCounter counter limit :: calls =>
    if Accepts accepted counter limit then some true :: expected (counter :: accepted) calls
    else some false :: expected accepted calls

theorem le_largest {accepted : List Counter} {counter : Counter} (h : counter ∈ accepted) :
    counter.toNat ≤ largest accepted := by
  induction accepted with
  | nil => simp at h
  | cons head tail ih =>
    simp only [largest, List.foldr_cons] at ih ⊢
    rcases List.mem_cons.mp h with rfl | hm
    · omega
    · have := ih hm
      omega

theorem ringIndex_val (i : BitVec 64) : (ringIndex i).val = i.toNat % 128 :=
  and_blockMask i

theorem shift_toNat (counter : Counter) : (counter >>> blockBitLog).toNat = counter.toNat / 64 := by
  rw [BitVec.toNat_ushiftRight, Nat.shiftRight_eq_div_pow]
  rfl

theorem clear_apply (ring : Fin ringBlocks → Block) (current : BitVec 64) (diff : Nat)
    (hwrap : current.toNat + diff < 2 ^ 64) (slot : Fin ringBlocks) :
    clear ring current diff slot = 0 ∧ (∃ i, current.toNat < i ∧ i ≤ current.toNat + diff ∧
        i % 128 = slot.val) ∨
      clear ring current diff slot = ring slot ∧ ∀ i, current.toNat < i →
        i ≤ current.toNat + diff → i % 128 ≠ slot.val := by
  induction diff generalizing ring current with
  | zero => exact .inr ⟨rfl, fun i hlo hhi => by omega⟩
  | succ diff ih =>
    have hnext : (current + 1).toNat = current.toNat + 1 := by
      rw [BitVec.toNat_add]
      simp only [BitVec.ofNat_eq_ofNat, BitVec.toNat_ofNat]
      omega
    simp only [clear]
    rcases ih (update ring (ringIndex (current + 1)) 0) (current + 1) (by omega) with
      ⟨hzero, i, hlo, hhi, hi⟩ | ⟨hkeep, hnone⟩
    · exact .inl ⟨hzero, i, by omega, by omega, hi⟩
    · by_cases hs : slot = ringIndex (current + 1)
      · refine .inl ⟨?_, current.toNat + 1, by omega, by omega, ?_⟩
        · rw [hkeep, hs, update_self]
        · rw [hs, ringIndex_val, hnext]
      · refine .inr ⟨by rw [hkeep, update_of_ne hs], fun i hlo hhi hi => ?_⟩
        by_cases hfirst : i = current.toNat + 1
        · apply hs
          apply Fin.ext
          rw [ringIndex_val, hnext, ← hi, hfirst]
        · exact hnone i (by omega) (by omega) hi

def Filter.marked (f : Filter) (counter : Counter) : Bool :=
  (f.ring (ringIndex (counter >>> blockBitLog))).getLsbD (counter.toNat % 64)

theorem one_shift_bit (counter : Counter) (i : Nat) (hi : i < 64) :
    ((1 : Block) <<< (counter &&& bitMask)).getLsbD i = decide (i = counter.toNat % 64) := by
  rw [BitVec.shiftLeft_eq', and_bitMask, BitVec.getLsbD_shiftLeft]
  simp only [hi, decide_true, Bool.true_and]
  by_cases h : i = counter.toNat % 64
  · subst h
    simp
  · by_cases hlt : i < counter.toNat % 64
    · simp [hlt, h]
    · have hpos : i - counter.toNat % 64 ≠ 0 := by omega
      simp [hlt, h, BitVec.getLsbD_one, hpos]

theorem Filter.checkAndSet_fst (f : Filter) (counter : Counter) :
    (f.checkAndSet counter).1 = !f.marked counter := by
  simp only [checkAndSet, marked]
  generalize f.ring (ringIndex (counter >>> blockBitLog)) = old
  have hlt : counter.toNat % 64 < 64 := Nat.mod_lt _ (by decide)
  cases hbit : old.getLsbD (counter.toNat % 64) with
  | false =>
    simp only [Bool.not_false, bne_iff_ne, ne_eq]
    intro heq
    rw [heq, BitVec.getLsbD_or, one_shift_bit counter _ hlt] at hbit
    simp at hbit
  | true =>
    simp only [Bool.not_true, bne_eq_false_iff_eq]
    apply BitVec.eq_of_getLsbD_eq
    intro i hi
    rw [BitVec.getLsbD_or, one_shift_bit counter i hi]
    by_cases h : i = counter.toNat % 64
    · simp [h, hbit]
    · simp [h]

-- Two counters fewer than a ring apart have different bits.
theorem Filter.marked_checkAndSet (f : Filter) (counter other : Counter)
    (hnear : counter.toNat / 64 < other.toNat / 64 + 128 ∧
      other.toNat / 64 < counter.toNat / 64 + 128) :
    (f.checkAndSet counter).2.marked other = (f.marked other || decide (other = counter)) := by
  have hlt : other.toNat % 64 < 64 := Nat.mod_lt _ (by decide)
  simp only [checkAndSet, marked]
  by_cases hslot : ringIndex (other >>> blockBitLog) = ringIndex (counter >>> blockBitLog)
  · have hblock : other.toNat / 64 = counter.toNat / 64 := by
      have hval := congrArg Fin.val hslot
      rw [ringIndex_val, ringIndex_val, shift_toNat, shift_toNat] at hval
      omega
    rw [hslot, update_self, BitVec.getLsbD_or, one_shift_bit counter _ hlt]
    congr 1
    apply decide_eq_decide.mpr
    constructor
    · intro hbit
      apply BitVec.eq_of_toNat_eq
      omega
    · rintro rfl
      rfl
  · rw [update_of_ne hslot]
    have hne : other ≠ counter := by
      rintro rfl
      exact hslot rfl
    simp [hne]

section

-- The ring shows the accepted counters in the 128 blocks up to the last one.
structure Tracks (f : Filter) (accepted : List Counter) : Prop where
  last : f.last.toNat = largest accepted
  marked : ∀ counter : Counter, counter.toNat / 64 ≤ f.last.toNat / 64 →
    f.last.toNat / 64 < counter.toNat / 64 + 128 → (f.marked counter = true ↔ counter ∈ accepted)

variable {f : Filter} {accepted : List Counter} {counter : Counter}

theorem Tracks.fresh (hlast : f.last = 0) (hring : f.ring 0 = 0) : Tracks f [] := by
  refine ⟨by simp [hlast, largest], fun counter hlo _ => ?_⟩
  have hblock : counter.toNat / 64 = 0 := by
    simp only [hlast, BitVec.ofNat_eq_ofNat, BitVec.toNat_ofNat] at hlo
    omega
  have hslot : ringIndex (counter >>> blockBitLog) = 0 := by
    apply Fin.ext
    rw [ringIndex_val, shift_toNat, hblock]
    rfl
  simp [Filter.marked, hslot, hring]

theorem Tracks.moveForward (h : Tracks f accepted) (hgt : f.last.toNat < counter.toNat)
    (other : Counter) (hlo : other.toNat / 64 ≤ counter.toNat / 64)
    (hhi : counter.toNat / 64 < other.toNat / 64 + 128) :
    (f.moveForward counter).marked other = true ↔ other ∈ accepted := by
  have hbound := counter.isLt
  have hdiff : ((counter >>> blockBitLog) - (f.last >>> blockBitLog)).toNat =
      counter.toNat / 64 - f.last.toNat / 64 := by
    rw [BitVec.toNat_sub_of_le (by rw [BitVec.le_def, shift_toNat, shift_toNat]; omega),
      shift_toNat, shift_toNat]
  have hslot : (ringIndex (other >>> blockBitLog)).val = other.toNat / 64 % 128 := by
    rw [ringIndex_val, shift_toNat]
  have hcleared := clear_apply f.ring (f.last >>> blockBitLog)
    (if counter.toNat / 64 - f.last.toNat / 64 > 128 then 128
      else counter.toNat / 64 - f.last.toNat / 64)
    (by rw [shift_toNat]; split <;> omega) (ringIndex (other >>> blockBitLog))
  rw [shift_toNat, hslot] at hcleared
  simp only [Filter.moveForward, Filter.marked, hdiff]
  by_cases hnew : f.last.toNat / 64 < other.toNat / 64
  · -- a block the window enters has been cleared and holds nothing accepted
    have hnot : other ∉ accepted := by
      intro hm
      have := le_largest hm
      have := h.last
      omega
    rcases hcleared with ⟨hzero, -⟩ | ⟨-, hnone⟩
    · simp [hzero, hnot]
    · exfalso
      by_cases hfar : counter.toNat / 64 - f.last.toNat / 64 > 128
      · rw [if_pos hfar] at hnone
        exact hnone (f.last.toNat / 64 + 1 +
          (other.toNat / 64 % 128 + 128 - (f.last.toNat / 64 + 1) % 128) % 128)
          (by omega) (by omega) (by omega)
      · rw [if_neg hfar] at hnone
        exact hnone (other.toNat / 64) hnew (by omega) rfl
  · -- a block that was in the window stays as it is
    rcases hcleared with ⟨-, i, hi⟩ | ⟨hkeep, -⟩
    · exfalso
      split at hi <;> omega
    · rw [hkeep]
      exact h.marked other (by omega) (by omega)

theorem Tracks.checkAndSet (f : Filter) (accepted : List Counter) (counter : Counter)
    (hlast : f.last.toNat = max counter.toNat (largest accepted))
    (hwindow : f.last.toNat ≤ counter.toNat + windowSize)
    (hmarked : ∀ other : Counter, other.toNat / 64 ≤ f.last.toNat / 64 →
      f.last.toNat / 64 < other.toNat / 64 + 128 → (f.marked other = true ↔ other ∈ accepted)) :
    (f.checkAndSet counter).1 = decide (counter ∉ accepted) ∧
      Tracks (f.checkAndSet counter).2 (counter :: accepted) := by
  simp only [windowSize, ringBlocks, blockBits] at hwindow
  refine ⟨?_, hlast, fun other hlo hhi => ?_⟩
  · rw [f.checkAndSet_fst]
    have hself := hmarked counter (by omega) (by omega)
    by_cases hm : counter ∈ accepted
    · simp [hself.mpr hm, hm]
    · simp [hm, Bool.eq_false_iff.mpr (mt hself.mp hm)]
  · have hlo' : other.toNat / 64 ≤ f.last.toNat / 64 := hlo
    have hhi' : f.last.toNat / 64 < other.toNat / 64 + 128 := hhi
    rw [f.marked_checkAndSet counter other (by omega), Bool.or_eq_true, hmarked other hlo' hhi',
      decide_eq_true_iff, List.mem_cons, or_comm]

theorem Tracks.of_mem (h : Tracks f (counter :: accepted))
    (hm : counter ∈ accepted) : Tracks f accepted := by
  refine ⟨?_, fun other hlo hhi => ?_⟩
  · have hle := le_largest hm
    have hlast : f.last.toNat = max counter.toNat (largest accepted) := h.last
    omega
  · rw [h.marked other hlo hhi, List.mem_cons, or_iff_right_iff_imp]
    rintro rfl
    exact hm

theorem Tracks.validateCounter (h : Tracks f accepted) (counter limit : Counter) :
    (f.validateCounter counter limit).1 = decide (Accepts accepted counter limit) ∧
      Tracks (f.validateCounter counter limit).2
        (if Accepts accepted counter limit then counter :: accepted else accepted) := by
  have hlast := h.last
  unfold Filter.validateCounter
  by_cases hlimit : limit ≤ counter
  · have hno : ¬Accepts accepted counter limit := fun ha => absurd ha.1 (BitVec.not_lt.mpr hlimit)
    simpa [hlimit, hno] using h
  have hbelow : counter < limit := BitVec.not_le.mp hlimit
  rw [if_neg hlimit]
  by_cases hgt : f.last < counter
  · -- the counter is new, so it is accepted
    have hgt' : f.last.toNat < counter.toNat := BitVec.lt_def.mp hgt
    have hnew : counter ∉ accepted := by
      intro hm
      have := le_largest hm
      omega
    have hyes : Accepts accepted counter limit := ⟨hbelow, hnew, by omega⟩
    have hlast' : (f.moveForward counter).last = counter := rfl
    obtain ⟨hfst, htracks⟩ := Tracks.checkAndSet (f.moveForward counter) accepted counter
      (by rw [hlast']; omega) (by rw [hlast']; omega) fun other => h.moveForward hgt' other
    rw [if_pos hgt, if_pos hyes]
    exact ⟨hfst.trans (by simp [hnew, hyes]), htracks⟩
  · have hle : counter.toNat ≤ f.last.toNat := by
      rw [BitVec.lt_def] at hgt
      omega
    have hsub : (f.last - counter).toNat = f.last.toNat - counter.toNat :=
      BitVec.toNat_sub_of_le hle
    rw [if_neg hgt, hsub]
    by_cases hbehind : windowSize < f.last.toNat - counter.toNat
    · have hno : ¬Accepts accepted counter limit := fun ha => by
        have := ha.2.2
        omega
      rw [if_pos hbehind, if_neg hno]
      exact ⟨by simp [hno], h⟩
    · rw [if_neg hbehind]
      obtain ⟨hfst, htracks⟩ := Tracks.checkAndSet f accepted counter (by omega) (by omega) h.marked
      by_cases hm : counter ∈ accepted
      · have hno : ¬Accepts accepted counter limit := fun ha => ha.2.1 hm
        rw [if_neg hno]
        exact ⟨hfst.trans (by simp [hm, hno]), htracks.of_mem hm⟩
      · have hyes : Accepts accepted counter limit := ⟨hbelow, hm, by omega⟩
        rw [if_pos hyes]
        exact ⟨hfst.trans (by simp [hm, hyes]), htracks⟩

theorem Tracks.results (h : Tracks f accepted)
    (calls : List Call) : f.results calls = expected accepted calls := by
  induction calls generalizing f accepted with
  | nil => rfl
  | cons call calls ih =>
    cases call with
    | reset =>
      simp only [Filter.results, expected, List.cons.injEq, true_and]
      -- what Reset leaves in the other blocks is cleared before it is read
      exact ih (.fresh rfl (by simp [Filter.reset]))
    | validateCounter counter limit =>
      obtain ⟨hfst, hnext⟩ := h.validateCounter counter limit
      simp only [Filter.results, expected, hfst]
      by_cases ha : Accepts accepted counter limit
      · rw [if_pos ha] at hnext ⊢
        rw [ih hnext, decide_eq_true ha]
      · rw [if_neg ha] at hnext ⊢
        rw [ih hnext, decide_eq_false ha]

-- The ring of blocks against the list of all accepted counters.
theorem results_eq_expected (calls : List Call) : Filter.results {} calls = expected [] calls :=
  Tracks.results (.fresh rfl rfl) calls

end

theorem Filter.checkAndSet_of_false {f : Filter} {counter : Counter}
    (h : (f.checkAndSet counter).1 = false) : f.checkAndSet counter = (false, f) := by
  have hsame : f.ring (ringIndex (counter >>> blockBitLog)) =
      f.ring (ringIndex (counter >>> blockBitLog)) ||| ((1 : Block) <<< (counter &&& bitMask)) := by
    simpa only [checkAndSet, bne_eq_false_iff_eq] using h
  refine Prod.ext h ?_
  simp only [checkAndSet, ← hsame, update_eq_self]

theorem Tracks.validateCounter_of_not_accepts {f : Filter} {accepted : List Counter}
    (h : Tracks f accepted) {counter limit : Counter} (hno : ¬Accepts accepted counter limit) :
    f.validateCounter counter limit = (false, f) := by
  have hfst := (h.validateCounter counter limit).1
  rw [decide_eq_false hno] at hfst
  unfold Filter.validateCounter at hfst ⊢
  split
  · rfl
  · next hlimit =>
      rw [if_neg hlimit] at hfst
      split
      · next hgt =>
          -- a counter beyond the last one is new
          have hlt : f.last.toNat < counter.toNat := BitVec.lt_def.mp hgt
          have hlast := h.last
          refine absurd ⟨BitVec.not_le.mp hlimit, fun hm => ?_, by omega⟩ hno
          have := le_largest hm
          omega
      · next hgt =>
          rw [if_neg hgt] at hfst
          split
          · rfl
          · next hbehind =>
              rw [if_neg hbehind] at hfst
              exact Filter.checkAndSet_of_false hfst

structure Recorded where
  filter : Filter
  accepted : List Counter
  tracks : Tracks filter accepted

namespace Recorded

def new : Recorded :=
  ⟨Filter.reset {}, [], .fresh rfl rfl⟩

def validateCounter (r : Recorded) (counter limit : Counter) : Bool × Recorded :=
  ((r.filter.validateCounter counter limit).1,
    ⟨(r.filter.validateCounter counter limit).2, _, (r.tracks.validateCounter counter limit).2⟩)

theorem validateCounter_of_not_accepts {r : Recorded} {counter limit : Counter}
    (hno : ¬Accepts r.accepted counter limit) :
    r.validateCounter counter limit = (false, r) := by
  obtain ⟨filter, accepted, tracks⟩ := r
  simp only [validateCounter, tracks.validateCounter_of_not_accepts hno, if_neg hno]

theorem validateCounter_cases (r : Recorded) (counter limit : Counter) :
    r.validateCounter counter limit = (false, r) ∨
      (r.validateCounter counter limit).1 = true ∧
      (r.validateCounter counter limit).2.accepted = counter :: r.accepted := by
  by_cases ha : Accepts r.accepted counter limit
  · refine .inr ⟨?_, if_pos ha⟩
    exact (r.tracks.validateCounter counter limit).1.trans (decide_eq_true ha)
  · exact .inl (validateCounter_of_not_accepts ha)

end Recorded

end StarlingWg.Replay
