import Mathlib.Data.List.Basic

namespace StarlingWg.Buffer

open List

variable {α : Type} {a b dst src : List α} {pos size q : Nat}

def slice (l : List α) (pos size : Nat) : List α :=
  (l.drop pos).take size

def copyAt (dst : List α) (pos : Nat) (src : List α) : List α :=
  dst.take pos ++ (src.take (dst.length - pos) ++ dst.drop (pos + src.length))

theorem length_slice (h : pos + size ≤ a.length) : (slice a pos size).length = size := by
  rw [slice, length_take, length_drop]
  omega

theorem slice_append_left (h : pos + size ≤ a.length) : slice (a ++ b) pos size = slice a pos size := by
  rw [slice, slice, drop_append_of_le_length (by omega),
    take_append_of_le_length (by rw [length_drop]; omega)]

theorem slice_append_right : slice (a ++ b) (a.length + pos) size = slice b pos size := by
  rw [slice, slice, drop_append, drop_eq_nil_of_le (by omega), nil_append, Nat.add_sub_cancel_left]

theorem slice_middle {c : List α} (hpos : pos = a.length) (hsize : size = b.length) :
    slice (a ++ (b ++ c)) pos size = b := by
  rw [hpos, hsize, slice, drop_left, take_left]

theorem slice_take (h : pos + size ≤ q) : slice (a.take q) pos size = slice a pos size := by
  rw [slice, slice, drop_take, take_take, Nat.min_eq_left (by omega)]

theorem slice_slice {p n : Nat} (h : pos + n ≤ size) : slice (slice a p size) pos n = slice a (p + pos) n := by
  have htake : slice (slice a p size) pos n = slice (a.drop p) pos n := slice_take h
  rw [htake, slice, slice, drop_drop]

theorem slice_slice_length : slice a pos (slice a pos size).length = slice a pos size := by
  rw [slice, slice, length_take, ← take_take, take_length]

@[simp] theorem length_copyAt : (copyAt dst pos src).length = dst.length := by
  simp only [copyAt, length_append, length_take, length_drop]
  omega

section

variable (h : pos + src.length ≤ dst.length)

include h

theorem copyAt_eq : copyAt dst pos src = dst.take pos ++ (src ++ dst.drop (pos + src.length)) := by
  have hroom : src.take (dst.length - pos) = src := take_of_length_le (by omega)
  rw [copyAt, hroom]

theorem take_copyAt (hq : q ≤ pos) : (copyAt dst pos src).take q = dst.take q := by
  have hlen : (dst.take pos).length = pos := by
    rw [length_take]
    omega
  rw [copyAt_eq h, take_append_of_le_length (by omega), take_take, Nat.min_eq_left hq]

theorem drop_copyAt (hq : pos + src.length ≤ q) : (copyAt dst pos src).drop q = dst.drop q := by
  have hlen : (dst.take pos).length = pos := by
    rw [length_take]
    omega
  rw [copyAt_eq h, drop_append, drop_eq_nil_of_le (by omega), nil_append,
    drop_append, drop_eq_nil_of_le (by omega), nil_append, drop_drop, hlen]
  congr 1
  omega

theorem slice_copyAt_self : slice (copyAt dst pos src) pos src.length = src := by
  have hlen : (dst.take pos).length = pos := by
    rw [length_take]
    omega
  rw [copyAt_eq h, slice, drop_append, drop_eq_nil_of_le (by omega), nil_append, hlen,
    Nat.sub_self, drop_zero, take_left]

theorem slice_copyAt_before (hq : q + size ≤ pos) : slice (copyAt dst pos src) q size = slice dst q size := by
  rw [← slice_take hq, take_copyAt h (Nat.le_refl pos), slice_take hq]

theorem slice_copyAt_after (hq : pos + src.length ≤ q) :
    slice (copyAt dst pos src) q size = slice dst q size := by
  rw [slice, slice, drop_copyAt h hq]

end

theorem copyAt_copyAt {src' : List α} (hsrc : src'.length = src.length)
    (h : pos + src.length ≤ dst.length) : copyAt (copyAt dst pos src) pos src' = copyAt dst pos src' := by
  have hroom : pos + src'.length ≤ dst.length := by rwa [hsrc]
  have hroom' : pos + src'.length ≤ (copyAt dst pos src).length := by rwa [length_copyAt]
  rw [copyAt_eq hroom', copyAt_eq hroom, take_copyAt h (Nat.le_refl pos), drop_copyAt h (by omega)]

theorem copyAt_slice (h : pos + size ≤ dst.length) : copyAt dst pos (slice dst pos size) = dst := by
  have hlen : (slice dst pos size).length = size := length_slice h
  rw [copyAt_eq (by rw [hlen]; exact h), hlen, slice, ← drop_drop, take_append_drop,
    take_append_drop]

theorem copyAt_zero (h : src.length ≤ dst.length) : copyAt dst 0 src = src ++ dst.drop src.length := by
  rw [copyAt_eq (by omega), take_zero, nil_append, Nat.zero_add]

theorem copyAt_append_left (h : pos + src.length ≤ a.length) :
    copyAt (a ++ b) pos src = copyAt a pos src ++ b := by
  have hab : pos + src.length ≤ (a ++ b).length := by
    rw [length_append]
    omega
  rw [copyAt_eq h, copyAt_eq hab, take_append_of_le_length (by omega), drop_append_of_le_length h]
  simp only [append_assoc]

theorem copyAt_append_right : copyAt (a ++ b) (a.length + pos) src = a ++ copyAt b pos src := by
  have hroom : (a ++ b).length - (a.length + pos) = b.length - pos := by
    rw [length_append]
    omega
  rw [copyAt, copyAt, hroom, take_append, take_of_length_le (by omega),
    Nat.add_sub_cancel_left, drop_append, drop_eq_nil_of_le (by omega), nil_append,
    append_assoc]
  congr 4
  omega

theorem copyAt_append_append {c : List α} (hpos : pos = a.length + b.length)
    (h : src.length ≤ c.length) :
    copyAt (a ++ (b ++ c)) pos src = a ++ (b ++ (src ++ c.drop src.length)) := by
  rw [hpos, copyAt_append_right, ← Nat.add_zero b.length, copyAt_append_right, copyAt_zero h]

end StarlingWg.Buffer
