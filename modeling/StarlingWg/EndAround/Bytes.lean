import Mathlib.Tactic.Ring
import StarlingWg.EndAround.Sum
import StarlingWg.Bytes

namespace StarlingWg.EndAround

open List

-- The big-endian 16-bit words of a byte string, added up. An odd last byte is
-- the high one of its word.
def wordSum : Bytes → Nat
  | [] => 0
  | [hi] => hi.toNat * 256
  | hi :: lo :: rest => hi.toNat * 256 + lo.toNat + wordSum rest

theorem wordSum_append {front : Bytes} (h : front.length % 2 = 0) (rest : Bytes) :
    wordSum (front ++ rest) = wordSum front + wordSum rest := by
  induction front using wordSum.induct with
  | case1 => simp [wordSum]
  | case2 hi => simp at h
  | case3 hi lo front ih =>
    simp only [length_cons] at h
    simp only [cons_append, wordSum, ih (by omega)]
    omega

theorem wordSum_take_drop {n : Nat} (h : n % 2 = 0) {bytes : Bytes} (hn : n ≤ bytes.length) :
    wordSum (bytes.take n) + wordSum (bytes.drop n) = wordSum bytes := by
  rw [← wordSum_append (by rw [length_take, min_eq_left hn]; exact h), take_append_drop]

def ofLittle : Bytes → Nat
  | [] => 0
  | byte :: bytes => byte.toNat + 256 * ofLittle bytes

def ofBig : Bytes → Nat
  | [] => 0
  | byte :: bytes => byte.toNat * 256 ^ bytes.length + ofBig bytes

def toLittle : Nat → Nat → Bytes
  | 0, _ => []
  | size + 1, value => .ofNat value :: toLittle size (value / 256)

def toBig (size value : Nat) : Bytes :=
  (toLittle size value).reverse

@[simp] theorem length_toLittle (size value : Nat) : (toLittle size value).length = size := by
  induction size generalizing value with
  | zero => rfl
  | succ size ih => rw [toLittle, length_cons, ih]

@[simp] theorem length_toBig (size value : Nat) : (toBig size value).length = size := by
  rw [toBig, length_reverse, length_toLittle]

theorem ofLittle_lt (bytes : Bytes) : ofLittle bytes < 256 ^ bytes.length := by
  induction bytes with
  | nil => exact Nat.one_pos
  | cons byte bytes ih =>
    have hbyte := byte.toNat_lt
    rw [ofLittle, length_cons, Nat.pow_succ]
    omega

theorem ofLittle_append (low high : Bytes) :
    ofLittle (low ++ high) = ofLittle low + 256 ^ low.length * ofLittle high := by
  induction low with
  | nil => simp [ofLittle]
  | cons byte low ih =>
    rw [cons_append, ofLittle, ofLittle, ih, length_cons, Nat.pow_succ]
    ring

theorem ofBig_eq (bytes : Bytes) : ofBig bytes = ofLittle bytes.reverse := by
  induction bytes with
  | nil => rfl
  | cons byte bytes ih =>
    rw [ofBig, ih, reverse_cons, ofLittle_append, length_reverse]
    simp only [ofLittle]
    ring

theorem ofBig_lt (bytes : Bytes) : ofBig bytes < 256 ^ bytes.length := by
  rw [ofBig_eq, ← length_reverse]
  exact ofLittle_lt _

theorem ofLittle_toLittle {size value : Nat} (h : value < 256 ^ size) :
    ofLittle (toLittle size value) = value := by
  induction size generalizing value with
  | zero =>
    rw [toLittle, ofLittle]
    omega
  | succ size ih =>
    rw [toLittle, ofLittle, ih (by omega), UInt8.toNat_ofNat']
    omega

theorem ofBig_toBig {size value : Nat} (h : value < 256 ^ size) :
    ofBig (toBig size value) = value := by
  rw [ofBig_eq, toBig, reverse_reverse, ofLittle_toLittle h]

-- A word of an even number of bytes stands for the sum of its 16-bit words; in
-- the other byte order for 256 times that sum.
theorem Same.pow_mul {size : Nat} (h : size % 2 = 0) (n : Nat) : Same 65535 (256 ^ size * n) n := by
  induction size using Nat.twoStepInduction with
  | zero => exact .of_eq (by simp)
  | one => cases h
  | more size ih _ =>
    have hsplit : 256 ^ (size + 2) * n = (65535 + 1) * (256 ^ size * n) := by ring
    rw [hsplit]
    exact (Same.wrap 65535 _).trans (ih (by omega))

theorem ofBig_same {bytes : Bytes} (h : bytes.length % 2 = 0) :
    Same 65535 (ofBig bytes) (wordSum bytes) := by
  induction bytes using wordSum.induct with
  | case1 => exact .refl _ _
  | case2 hi => simp at h
  | case3 hi lo rest ih =>
    simp only [length_cons] at h
    have hrest : rest.length % 2 = 0 := by omega
    have hsplit : ofBig (hi :: lo :: rest) =
        256 ^ rest.length * (hi.toNat * 256 + lo.toNat) + ofBig rest := by
      simp only [ofBig, length_cons]
      ring
    rw [hsplit]
    exact (Same.pow_mul hrest _).add (ih hrest)

theorem ofLittle_same {bytes : Bytes} (h : bytes.length % 2 = 0) :
    Same 65535 (ofLittle bytes) (256 * wordSum bytes) := by
  induction bytes using wordSum.induct with
  | case1 => exact .refl _ _
  | case2 hi => simp at h
  | case3 hi lo rest ih =>
    simp only [length_cons] at h
    have hrest := ih (by omega)
    have hfirst : Same 65535 (hi.toNat + 256 * lo.toNat) (256 * (hi.toNat * 256 + lo.toNat)) := by
      have hwrap := (Same.wrap 65535 hi.toNat).symm.add (.refl 65535 (256 * lo.toNat))
      have hsplit : 256 * (hi.toNat * 256 + lo.toNat) = (65535 + 1) * hi.toNat + 256 * lo.toNat := by
        ring
      rwa [hsplit]
    have hlittle : ofLittle (hi :: lo :: rest) =
        hi.toNat + 256 * lo.toNat + (65535 + 1) * ofLittle rest := by
      simp only [ofLittle]
      ring
    rw [hlittle, wordSum, Nat.mul_add]
    exact hfirst.add ((Same.wrap 65535 _).trans hrest)

inductive ByteOrder
  | little
  | big
  deriving DecidableEq, Repr

namespace ByteOrder

def value : ByteOrder → Bytes → Nat
  | .little => ofLittle
  | .big => ofBig

def bytes : ByteOrder → Nat → Nat → Bytes
  | .little => toLittle
  | .big => toBig

def scale : ByteOrder → Nat
  | .little => 256
  | .big => 1

variable (order : ByteOrder)

@[simp] theorem length_bytes (size value : Nat) : (order.bytes size value).length = size := by
  cases order with
  | little => exact length_toLittle size value
  | big => exact length_toBig size value

theorem value_lt (bytes : Bytes) : order.value bytes < 256 ^ bytes.length := by
  cases order with
  | little => exact ofLittle_lt bytes
  | big => exact ofBig_lt bytes

theorem value_bytes {size value : Nat} (h : value < 256 ^ size) :
    order.value (order.bytes size value) = value := by
  cases order with
  | little => exact ofLittle_toLittle h
  | big => exact ofBig_toBig h

theorem value_same {bytes : Bytes} (h : bytes.length % 2 = 0) :
    Same 65535 (order.value bytes) (order.scale * wordSum bytes) := by
  cases order with
  | little => exact ofLittle_same h
  | big =>
    rw [scale, Nat.one_mul]
    exact ofBig_same h

theorem scale_scale (n : Nat) : Same 65535 (order.scale * (order.scale * n)) n := by
  cases order with
  | little =>
    rw [scale, ← Nat.mul_assoc]
    exact .wrap 65535 n
  | big => exact .of_eq (by simp only [scale, Nat.one_mul])

theorem ofBig_bytes_same {size value : Nat} (hsize : size % 2 = 0) (h : value < 256 ^ size) :
    Same 65535 (ofBig (order.bytes size value)) (order.scale * value) := by
  have heven : (order.bytes size value).length % 2 = 0 := by rw [length_bytes, hsize]
  have hvalue := order.value_same heven
  rw [order.value_bytes h] at hvalue
  exact (ofBig_same heven).trans
    ((order.scale_scale _).symm.trans (hvalue.symm.mul_left order.scale))

end ByteOrder

end StarlingWg.EndAround
