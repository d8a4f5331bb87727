import Mathlib.Data.Nat.Digits.Defs
import StarlingWg.Device.Classification
import StarlingWg.Orchestrate.Rendering

namespace StarlingWg.Uapi

open StarlingWg.Device (UintRange Cause parseUint parseDigits bind_ok)
open Orchestrate (decimal rangeString)

theorem le_ofDigitChars (cs : List Char) (n : Nat) : n ≤ Nat.ofDigitChars 10 cs n := by
  induction cs generalizing n with
  | nil => exact Nat.le_refl n
  | cons c cs ih =>
    have hstep := ih (10 * n + (c.toNat - '0'.toNat))
    rw [Nat.ofDigitChars_cons]
    omega

-- A text of decimal digits, leading zeros included, and its value.
def Decimal (text : List Char) (n : Nat) : Prop :=
  text ≠ [] ∧ (∀ c ∈ text, c.isDigit = true) ∧ Nat.ofDigitChars 10 text 0 = n

theorem decimal_spec (n : Nat) : Decimal (decimal n) n :=
  ⟨Nat.toDigits_ne_nil, fun _ => Orchestrate.mem_decimal,
    Nat.ofDigitChars_toDigits (by decide) (by decide)⟩

theorem parseDigits_iff {limit n m : Nat} {cs : List Char} (hn : n < limit) :
    parseDigits limit n cs = .ok m ↔
      (∀ c ∈ cs, c.isDigit = true) ∧ Nat.ofDigitChars 10 cs n = m ∧ m < limit := by
  induction cs generalizing n with
  | nil =>
    simp only [parseDigits, Except.ok.injEq, List.not_mem_nil, false_implies, implies_true, true_and]
    constructor
    · rintro rfl
      exact ⟨rfl, hn⟩
    · exact fun h => h.1
  | cons c cs ih =>
    rw [Nat.ofDigitChars_cons, Nat.mul_comm, List.forall_mem_cons, parseDigits]
    by_cases hc : c.isDigit = true
    · rw [if_pos hc]
      have hle := le_ofDigitChars cs (n * 10 + (c.toNat - '0'.toNat))
      dsimp only
      split
      · rw [iff_false_left (by simp)]
        rintro ⟨-, rfl, hm⟩
        omega
      · rw [ih (by omega)]
        simp [hc]
    · simp [hc]

theorem parseUint_iff {bitSize n : Nat} {text : List Char} :
    parseUint bitSize text = .ok n ↔ Decimal text n ∧ n < 2 ^ bitSize := by
  cases text with
  | nil => simp [parseUint, Decimal]
  | cons c cs =>
    rw [parseUint, parseDigits_iff (Nat.two_pow_pos bitSize), Decimal, and_assoc, and_assoc]
    · simp
    · simp

theorem parseUint_decimal {bitSize n : Nat} (h : n < 2 ^ bitSize) :
    parseUint bitSize (decimal n) = .ok n :=
  parseUint_iff.mpr ⟨decimal_spec n, h⟩

section

variable {c : Char} (hc : c.isDigit = false) {text : List Char} {n m : Nat} (h : Decimal text n)
include hc h

theorem Decimal.ne_separator : ∀ x ∈ text, (x == c) = false := by
  intro x hx
  rw [beq_eq_false_iff_ne]
  rintro rfl
  rw [h.2.1 x hx] at hc
  exact absurd hc (by decide)

theorem Decimal.splitOn : text.splitOn c = [text] :=
  List.splitOnP_eq_singleton (h.ne_separator hc)

theorem Decimal.splitOn_pair {second : List Char} (h' : Decimal second m) :
    (text ++ c :: second).splitOn c = [text, second] := by
  rw [List.splitOn, List.splitOnP_append_cons_of_forall_mem (h.ne_separator hc) _ (by simp)]
  exact congrArg (text :: ·) (h'.splitOn hc)

end

section

variable {str : List Char} {r : UintRange}

-- The texts of a range: one number, or its two bounds.
def RangeText (str : List Char) (lo hi : UInt32) : Prop :=
  lo = hi ∧ Decimal str lo.toNat ∨
    ∃ first second, str = first ++ '-' :: second ∧ Decimal first lo.toNat ∧ Decimal second hi.toNat

theorem RangeText.of_fromString (h : UintRange.fromString str = .ok r) : RangeText str r.lo r.hi := by
  have hstr := @List.intercalate_splitOn _ str _ _ '-'
  have hnat : ∀ {text n}, parseUint 32 text = .ok n → Decimal text (UInt32.ofNat n).toNat := by
    intro text n hn
    rw [parseUint_iff] at hn
    rw [UInt32.toNat_ofNat_of_lt' hn.2]
    exact hn.1
  unfold UintRange.fromString at h
  split at h
  · next part heq =>
    obtain ⟨lo, hlo, hr⟩ := bind_ok h
    rw [← Except.ok.inj hr]
    rw [heq, show ['-'].intercalate [part] = part by simp [List.intercalate]] at hstr
    exact .inl ⟨rfl, hstr ▸ hnat hlo⟩
  · next first second heq =>
    obtain ⟨lo, hlo, h⟩ := bind_ok h
    obtain ⟨hi, hhi, h⟩ := bind_ok h
    split at h
    · simp [throw, throwThe, MonadExceptOf.throw, bind, Except.bind] at h
    · have hr : UintRange.fromUint32 (.ofNat lo) (.ofNat hi) = r := Except.ok.inj h
      rw [← hr]
      rw [heq] at hstr
      exact .inr ⟨first, second, by simpa [List.intercalate] using hstr.symm, hnat hlo, hnat hhi⟩
  · simp at h

theorem RangeText.fromString {lo hi : UInt32} (hle : lo ≤ hi) (h : RangeText str lo hi) :
    UintRange.fromString str = .ok ⟨lo, hi⟩ := by
  have hparse : ∀ {text} {n : UInt32}, Decimal text n.toNat → parseUint 32 text = .ok n.toNat :=
    fun {_ n} hn => parseUint_iff.mpr ⟨hn, n.toNat_lt⟩
  have horder : ¬hi.toNat < lo.toNat := Nat.not_lt.mpr (UInt32.le_iff_toNat_le.mp hle)
  unfold UintRange.fromString
  obtain ⟨rfl, hn⟩ | ⟨first, second, rfl, hfirst, hsecond⟩ := h
  · rw [hn.splitOn (by decide)]
    simp [hparse hn, bind, Except.bind, pure, Except.pure, UintRange.fromUint32]
  · rw [hfirst.splitOn_pair (by decide) hsecond]
    simp [hparse hfirst, hparse hsecond, horder, bind, Except.bind, pure, Except.pure,
      UintRange.fromUint32]

theorem rangeText_rangeString (lo hi : UInt32) : RangeText (rangeString lo hi) lo hi := by
  unfold rangeString
  split
  · next heq => exact .inl ⟨heq, decimal_spec _⟩
  · exact .inr ⟨_, _, rfl, decimal_spec _, decimal_spec _⟩

theorem fromString_rangeString (h : r.WellFormed) :
    UintRange.fromString (rangeString r.lo r.hi) = .ok r :=
  RangeText.fromString h (rangeText_rangeString r.lo r.hi)

end

-- A range as the source keeps it, both bounds in one word.
namespace Packed

def fromUint32 (lo hi : UInt32) : UInt64 :=
  hi.toUInt64 <<< 32 ||| lo.toUInt64

def lo (r : UInt64) : UInt32 :=
  r.toUInt32

def hi (r : UInt64) : UInt32 :=
  (r >>> 32).toUInt32

def fromString (str : List Char) : Except Cause UInt64 :=
  (UintRange.fromString str).map fun r => fromUint32 r.lo r.hi

def contains (r : UInt64) (num : UInt32) : Bool :=
  lo r ≤ num && num ≤ hi r

def pickOne (fastrandn : UInt32 → UInt32) (r : UInt64) : UInt32 :=
  lo r + fastrandn (hi r - lo r + 1)

def toString (r : UInt64) : List Char :=
  rangeString (lo r) (hi r)

def overlap (r right : UInt64) : Bool :=
  lo r ≤ hi right && lo right ≤ hi r

@[simp] theorem lo_fromUint32 (lo hi : UInt32) : Packed.lo (fromUint32 lo hi) = lo := by
  rw [← UInt32.toNat_inj, Packed.lo, fromUint32]
  simp [Nat.shiftLeft_eq]

@[simp] theorem hi_fromUint32 (lo hi : UInt32) : Packed.hi (fromUint32 lo hi) = hi := by
  rw [← UInt32.toNat_inj, Packed.hi, fromUint32]
  have hlo := lo.toNat_lt
  have hhi := hi.toNat_lt
  have hor := Nat.shiftLeft_add_eq_or_of_lt hlo hi.toNat
  have hmod : hi.toNat * 4294967296 % 18446744073709551616 = hi.toNat * 4294967296 := by omega
  simp [Nat.shiftLeft_eq, Nat.shiftRight_eq_div_pow, hmod] at hor ⊢
  omega

theorem fromString_iff {str : List Char} {r : UInt64} :
    fromString str = .ok r ↔ ∃ lo hi, lo ≤ hi ∧ RangeText str lo hi ∧ r = fromUint32 lo hi := by
  constructor
  · intro h
    cases hr : UintRange.fromString str with
    | error cause => simp [fromString, hr, Except.map] at h
    | ok range =>
      rw [fromString, hr] at h
      exact ⟨range.lo, range.hi, UintRange.fromString_wellFormed hr, .of_fromString hr,
        (Except.ok.inj h).symm⟩
  · rintro ⟨lo, hi, hle, htext, rfl⟩
    rw [fromString, htext.fromString hle]
    rfl

theorem contains_iff {lo hi num : UInt32} :
    contains (fromUint32 lo hi) num = true ↔ lo ≤ num ∧ num ≤ hi := by
  simp [contains]

theorem overlap_iff {lo hi lo' hi' : UInt32} (h : lo ≤ hi) (h' : lo' ≤ hi') :
    overlap (fromUint32 lo hi) (fromUint32 lo' hi') = true ↔
      ∃ num, contains (fromUint32 lo hi) num = true ∧ contains (fromUint32 lo' hi') num = true := by
  simp only [contains_iff, overlap, lo_fromUint32, hi_fromUint32, Bool.and_eq_true, decide_eq_true_eq]
  constructor
  · intro hover
    rcases UInt32.le_total lo lo' with hle | hle
    · exact ⟨lo', ⟨hle, hover.2⟩, UInt32.le_refl _, h'⟩
    · exact ⟨lo, ⟨UInt32.le_refl _, h⟩, hle, hover.1⟩
  · rintro ⟨num, hin, hin'⟩
    exact ⟨UInt32.le_trans hin.1 hin'.2, UInt32.le_trans hin'.1 hin.2⟩

theorem contains_pickOne {lo hi : UInt32} (h : lo ≤ hi) {fastrandn : UInt32 → UInt32}
    (hzero : fastrandn 0 = 0) (hlt : ∀ n, 0 < n → fastrandn n < n) :
    contains (fromUint32 lo hi) (pickOne fastrandn (fromUint32 lo hi)) = true := by
  have hpick : UintRange.Picks ⟨lo, hi⟩ (lo + fastrandn (hi - lo + 1)) := by
    refine ⟨_, ?_, rfl⟩
    by_cases hspan : hi - lo + 1 = 0
    · exact .inr ⟨hspan, by rw [hspan, hzero]⟩
    · exact .inl (hlt _ (UInt32.pos_iff_ne_zero.mpr hspan))
  simpa [contains, pickOne, UintRange.contains] using hpick.contains h

theorem uintRange_laws {lo hi : UInt32} (h : lo ≤ hi) :
    fromString (toString (fromUint32 lo hi)) = .ok (fromUint32 lo hi) ∧
      (∀ str r, fromString str = .ok r ↔
        ∃ lo hi, lo ≤ hi ∧ RangeText str lo hi ∧ r = fromUint32 lo hi) ∧
      (∀ num, contains (fromUint32 lo hi) num = true ↔ lo ≤ num ∧ num ≤ hi) ∧
      (∀ lo' hi', lo' ≤ hi' → (overlap (fromUint32 lo hi) (fromUint32 lo' hi') = true ↔
        ∃ num, contains (fromUint32 lo hi) num = true ∧ contains (fromUint32 lo' hi') num = true)) ∧
      ∀ fastrandn : UInt32 → UInt32, fastrandn 0 = 0 → (∀ n, 0 < n → fastrandn n < n) →
        contains (fromUint32 lo hi) (pickOne fastrandn (fromUint32 lo hi)) = true := by
  refine ⟨?_, fun _ _ => fromString_iff, fun _ => contains_iff, fun _ _ => overlap_iff h,
    fun _ => contains_pickOne h⟩
  rw [toString, lo_fromUint32, hi_fromUint32]
  exact fromString_iff.mpr ⟨lo, hi, h, rangeText_rangeString lo hi, rfl⟩

theorem full_range_wraps :
    Packed.hi (fromUint32 0 4294967295) - Packed.lo (fromUint32 0 4294967295) + 1 = 0 ∧
    contains (fromUint32 0 4294967295) (pickOne (fun _ => 0) (fromUint32 0 4294967295)) = true :=
  ⟨by decide, (uintRange_laws (by decide)).2.2.2.2 _ rfl fun _ => id⟩

end Packed

end StarlingWg.Uapi
