import StarlingWg.Buffer.Slice
import StarlingWg.Tun.Checksum

namespace StarlingWg.Tun

open EndAround Buffer

section

variable (p : Bytes) (pos : Nat)

def byteAt : UInt8 :=
  (slice p pos 1).headD 0

-- BigEndian.Uint16 and BigEndian.Uint32 of a slice from a position on.
def uint16At : UInt16 :=
  .ofNat (ofBig (slice p pos 2))

def uint32At : UInt32 :=
  .ofNat (ofBig (slice p pos 4))

def setByte (v : UInt8) : Bytes :=
  copyAt p pos [v]

def putUint16 (v : UInt16) : Bytes :=
  copyAt p pos (toBig 2 v.toNat)

def putUint32 (v : UInt32) : Bytes :=
  copyAt p pos (toBig 4 v.toNat)

def srcAddr (isV6 : Bool) : Bytes :=
  if isV6 then slice p 8 16 else slice p 12 4

def dstAddr (isV6 : Bool) : Bytes :=
  if isV6 then slice p 24 16 else slice p 16 4

end

section

variable {p : Bytes} {pos : Nat}

@[simp] theorem length_setByte (v : UInt8) : (setByte p pos v).length = p.length :=
  length_copyAt

@[simp] theorem length_putUint16 (v : UInt16) : (putUint16 p pos v).length = p.length :=
  length_copyAt

@[simp] theorem length_putUint32 (v : UInt32) : (putUint32 p pos v).length = p.length :=
  length_copyAt

end

section

variable {a b : Bytes} {pos : Nat}

theorem byteAt_append_left (h : pos < a.length) : byteAt (a ++ b) pos = byteAt a pos := by
  rw [byteAt, byteAt, slice_append_left h]

theorem byteAt_append_right : byteAt (a ++ b) (a.length + pos) = byteAt b pos := by
  rw [byteAt, byteAt, slice_append_right]

theorem uint16At_append_left (h : pos + 2 ≤ a.length) : uint16At (a ++ b) pos = uint16At a pos := by
  rw [uint16At, uint16At, slice_append_left h]

theorem uint16At_append_right : uint16At (a ++ b) (a.length + pos) = uint16At b pos := by
  rw [uint16At, uint16At, slice_append_right]

theorem uint32At_append_right : uint32At (a ++ b) (a.length + pos) = uint32At b pos := by
  rw [uint32At, uint32At, slice_append_right]

theorem setByte_append_left (h : pos < a.length) (v : UInt8) :
    setByte (a ++ b) pos v = setByte a pos v ++ b :=
  copyAt_append_left h

theorem setByte_append_right (v : UInt8) :
    setByte (a ++ b) (a.length + pos) v = a ++ setByte b pos v :=
  copyAt_append_right

theorem putUint16_append_left (h : pos + 2 ≤ a.length) (v : UInt16) :
    putUint16 (a ++ b) pos v = putUint16 a pos v ++ b :=
  copyAt_append_left (by rw [length_toBig]; exact h)

theorem putUint16_append_right (v : UInt16) :
    putUint16 (a ++ b) (a.length + pos) v = a ++ putUint16 b pos v :=
  copyAt_append_right

theorem putUint32_append_left (h : pos + 4 ≤ a.length) (v : UInt32) :
    putUint32 (a ++ b) pos v = putUint32 a pos v ++ b :=
  copyAt_append_left (by rw [length_toBig]; exact h)

theorem putUint32_append_right (v : UInt32) :
    putUint32 (a ++ b) (a.length + pos) v = a ++ putUint32 b pos v :=
  copyAt_append_right

end

section

def fixedHeaderLen (isV6 : Bool) : Nat :=
  if isV6 then 40 else 20

variable {a b : Bytes} {isV6 : Bool}

theorem srcAddr_append_left (h : fixedHeaderLen isV6 ≤ a.length) : srcAddr (a ++ b) isV6 = srcAddr a isV6 := by
  cases isV6 with
  | true => exact slice_append_left (by simp only [fixedHeaderLen, if_true] at h; omega)
  | false =>
    exact slice_append_left (by simp only [fixedHeaderLen, Bool.false_eq_true, if_false] at h; omega)

theorem dstAddr_append_left (h : fixedHeaderLen isV6 ≤ a.length) : dstAddr (a ++ b) isV6 = dstAddr a isV6 := by
  cases isV6 with
  | true => exact slice_append_left (by simp only [fixedHeaderLen, if_true] at h; omega)
  | false =>
    exact slice_append_left (by simp only [fixedHeaderLen, Bool.false_eq_true, if_false] at h; omega)

theorem srcAddr_length (h : fixedHeaderLen isV6 ≤ a.length) :
    (srcAddr a isV6).length = if isV6 then 16 else 4 := by
  cases isV6 with
  | true => exact length_slice (by simp only [fixedHeaderLen, if_true] at h; omega)
  | false => exact length_slice (by simp only [fixedHeaderLen, Bool.false_eq_true, if_false] at h; omega)

theorem dstAddr_length (h : fixedHeaderLen isV6 ≤ a.length) :
    (dstAddr a isV6).length = if isV6 then 16 else 4 := by
  cases isV6 with
  | true => exact length_slice (by simp only [fixedHeaderLen, if_true] at h; omega)
  | false => exact length_slice (by simp only [fixedHeaderLen, Bool.false_eq_true, if_false] at h; omega)

end

section

variable {p : Bytes} {pos q n : Nat}

theorem slice_setByte (h : pos < p.length) (hq : q + n ≤ pos ∨ pos + 1 ≤ q) (v : UInt8) :
    slice (setByte p pos v) q n = slice p q n := by
  have hroom : pos + [v].length ≤ p.length := h
  rcases hq with hq | hq
  · exact slice_copyAt_before hroom hq
  · exact slice_copyAt_after hroom hq

theorem slice_putUint16 (h : pos + 2 ≤ p.length) (hq : q + n ≤ pos ∨ pos + 2 ≤ q) (v : UInt16) :
    slice (putUint16 p pos v) q n = slice p q n := by
  have hroom : pos + (toBig 2 v.toNat).length ≤ p.length := by rw [length_toBig]; exact h
  rcases hq with hq | hq
  · exact slice_copyAt_before hroom hq
  · exact slice_copyAt_after hroom (by rw [length_toBig]; exact hq)

theorem slice_putUint32 (h : pos + 4 ≤ p.length) (hq : q + n ≤ pos ∨ pos + 4 ≤ q) (v : UInt32) :
    slice (putUint32 p pos v) q n = slice p q n := by
  have hroom : pos + (toBig 4 v.toNat).length ≤ p.length := by rw [length_toBig]; exact h
  rcases hq with hq | hq
  · exact slice_copyAt_before hroom hq
  · exact slice_copyAt_after hroom (by rw [length_toBig]; exact hq)

theorem byteAt_setByte (h : pos < p.length) (v : UInt8) : byteAt (setByte p pos v) pos = v := by
  have hself : slice (copyAt p pos [v]) pos [v].length = [v] := slice_copyAt_self h
  exact congrArg (List.headD · 0) hself

theorem uint16At_putUint16 (h : pos + 2 ≤ p.length) (v : UInt16) :
    uint16At (putUint16 p pos v) pos = v := by
  have hself : slice (putUint16 p pos v) pos (toBig 2 v.toNat).length = toBig 2 v.toNat :=
    slice_copyAt_self (by rw [length_toBig]; exact h)
  rw [length_toBig] at hself
  rw [uint16At, hself, ofBig_toBig v.toNat_lt, UInt16.ofNat_toNat]

theorem uint32At_putUint32 (h : pos + 4 ≤ p.length) (v : UInt32) :
    uint32At (putUint32 p pos v) pos = v := by
  have hself : slice (putUint32 p pos v) pos (toBig 4 v.toNat).length = toBig 4 v.toNat :=
    slice_copyAt_self (by rw [length_toBig]; exact h)
  rw [length_toBig] at hself
  rw [uint32At, hself, ofBig_toBig v.toNat_lt, UInt32.ofNat_toNat]

theorem wordSum_putUint16 (heven : pos % 2 = 0) (h : pos + 2 ≤ p.length) (v : UInt16) :
    wordSum (putUint16 p pos v) = wordSum (putUint16 p pos 0) + v.toNat := by
  have hsplit : ∀ w : UInt16, wordSum (putUint16 p pos w) =
      wordSum (p.take pos) + (w.toNat + wordSum (p.drop (pos + 2))) := by
    intro w
    rw [putUint16, copyAt_eq (by rw [length_toBig]; exact h), length_toBig,
      wordSum_append (by rw [List.length_take]; omega), wordSum_append (by rw [length_toBig]),
      wordSum_toBig_two w.toNat_lt]
  rw [hsplit v, hsplit 0, UInt16.toNat_zero]
  omega

theorem putUint16_putUint16 (h : pos + 2 ≤ p.length) (v w : UInt16) :
    putUint16 (putUint16 p pos v) pos w = putUint16 p pos w :=
  copyAt_copyAt (by rw [length_toBig, length_toBig]) (by rw [length_toBig]; exact h)

theorem putUint16_zero (h : pos + 2 ≤ p.length) (hzero : slice p pos 2 = [0, 0]) :
    putUint16 p pos 0 = p := by
  have hsame := copyAt_slice h
  rwa [hzero] at hsame

theorem slice_putUint16_zero (h : pos + 2 ≤ p.length) : slice (putUint16 p pos 0) pos 2 = [0, 0] :=
  by
  have hself : slice (putUint16 p pos 0) pos (toBig 2 0).length = toBig 2 0 := slice_copyAt_self h
  exact hself

theorem checksumRef_complete (heven : pos % 2 = 0) (h : pos + 2 ≤ p.length)
    (hzero : slice p pos 2 = [0, 0]) {initial : Nat} {v : UInt16}
    (hv : v.toNat = checksumRef p initial) : checksumRef (putUint16 p pos (~~~v)) initial = 65535 := by
  have hnot : (~~~v).toNat = 65535 - checksumRef p initial := by
    rw [UInt16.toNat_not, hv]
    rfl
  rw [checksumRef, wordSum_putUint16 heven h, putUint16_zero h hzero, hnot, ← Nat.add_assoc]
  exact fold_complement (by decide) _

end

end StarlingWg.Tun
