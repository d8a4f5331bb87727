import StarlingWg.EndAround.Bytes

namespace StarlingWg.Tun

open EndAround List

-- bits.Add64
def add64 (x y carry : UInt64) : UInt64 × UInt64 :=
  let sum := x.toNat + y.toNat + carry.toNat
  (.ofNat sum, .ofNat (sum / 18446744073709551616))

section

-- The byte order of the host.
variable (order : ByteOrder)

def nativeUint (bytes : Bytes) : UInt64 :=
  .ofNat (order.value bytes)

-- NativeEndian.PutUint64 and then BigEndian.Uint64.
def swap (ac : UInt64) : UInt64 :=
  .ofNat (ofBig (order.bytes 8 ac.toNat))

-- The Add64 calls on `count` words of `width` bytes, each with the carry of
-- the one before.
def addChain (width : Nat) : Nat → Bytes → UInt64 × UInt64 → UInt64 × UInt64
  | 0, _, st => st
  | count + 1, b, (ac, carry) =>
    addChain width count (b.drop width) (add64 ac (nativeUint order (b.take width)) carry)

def addBlock (width count : Nat) (b : Bytes) (ac : UInt64) : UInt64 :=
  let (ac, carry) := addChain order width count b (ac, 0)
  ac + carry

-- for len(b) >= 128. Each round takes bytes away, so the length is fuel enough.
def blocks : Nat → Bytes × UInt64 → Bytes × UInt64
  | 0, st => st
  | fuel + 1, st =>
    if 128 ≤ st.1.length then blocks fuel (st.1.drop 128, addBlock order 8 16 st.1 st.2) else st

-- if len(b) >= width * count, which is 64, 32, 16, 8, 4 and 2 in turn.
def tail (width count : Nat) (st : Bytes × UInt64) : Bytes × UInt64 :=
  if width * count ≤ st.1.length then
    (st.1.drop (width * count), addBlock order width count st.1 st.2)
  else st

-- if len(b) == 1
def lastByte : Bytes × UInt64 → UInt64
  | ([last], ac) => addBlock order 2 1 [last, 0] ac
  | (_, ac) => ac

def checksumNoFold (b : Bytes) (initial : UInt64) : UInt64 :=
  let st := blocks order b.length (b, swap order initial)
  let st := tail order 8 8 st
  let st := tail order 8 4 st
  let st := tail order 8 2 st
  let st := tail order 8 1 st
  let st := tail order 4 1 st
  let st := tail order 2 1 st
  swap order (lastByte order st)

def foldOnce (ac : UInt64) : UInt64 :=
  (ac >>> 16) + (ac &&& 0xffff)

def checksum (b : Bytes) (initial : UInt64) : UInt16 :=
  (foldOnce (foldOnce (foldOnce (foldOnce (checksumNoFold order b initial))))).toUInt16

def pseudoHeaderChecksumNoFold (protocol : UInt8) (srcAddr dstAddr : Bytes)
    (totalLen : UInt16) : UInt64 :=
  let sum := checksumNoFold order srcAddr 0
  let sum := checksumNoFold order dstAddr sum
  let sum := checksumNoFold order [0, protocol] sum
  checksumNoFold order (toBig 2 totalLen.toNat) sum

end

section

variable {order : ByteOrder}

-- The value that an accumulator and a carry stand for. It fits 64 bits, so
-- that the carry can be added at last.
theorem add64_spec {ac carry : UInt64} (y : UInt64)
    (h : ac.toNat + carry.toNat ≤ 18446744073709551615) :
    (add64 ac y carry).1.toNat + (add64 ac y carry).2.toNat ≤ 18446744073709551615 ∧
      Same 18446744073709551615 ((add64 ac y carry).1.toNat + (add64 ac y carry).2.toNat)
        (ac.toNat + carry.toNat + y.toNat) := by
  have hy := y.toNat_lt
  have hsum : ac.toNat + y.toNat + carry.toNat = ac.toNat + carry.toNat + y.toNat := by omega
  have hvalue : (add64 ac y carry).1.toNat + (add64 ac y carry).2.toNat =
      (ac.toNat + carry.toNat + y.toNat) / (18446744073709551615 + 1) +
        (ac.toNat + carry.toNat + y.toNat) % (18446744073709551615 + 1) := by
    simp only [add64, hsum, UInt64.toNat_ofNat']
    omega
  rw [hvalue]
  exact ⟨carry_le (by omega), .carry _ _⟩

theorem nativeUint_toNat {bytes : Bytes} (h : bytes.length ≤ 8) :
    (nativeUint order bytes).toNat = order.value bytes := by
  have hlt := order.value_lt bytes
  have hpow : 256 ^ bytes.length ≤ 256 ^ 8 := Nat.pow_le_pow_right (by decide) h
  rw [nativeUint, UInt64.toNat_ofNat_of_lt']
  exact lt_of_lt_of_le hlt hpow

variable {width count : Nat} {b : Bytes}

theorem addChain_spec (order : ByteOrder) (hwidth : width ≤ 8) (heven : width % 2 = 0)
    (hb : width * count ≤ b.length)
    {ac carry : UInt64} (h : ac.toNat + carry.toNat ≤ 18446744073709551615) :
    let st := addChain order width count b (ac, carry)
    st.1.toNat + st.2.toNat ≤ 18446744073709551615 ∧
      Same 65535 (st.1.toNat + st.2.toNat)
        (ac.toNat + carry.toNat + order.scale * wordSum (b.take (width * count))) := by
  induction count generalizing b ac carry with
  | zero => exact ⟨h, .of_eq (by simp [addChain, wordSum])⟩
  | succ count ih =>
    have hsplit : width * (count + 1) = width + width * count := by ring
    have hlength : (b.take width).length = width := by
      rw [length_take, min_eq_left (by omega)]
    obtain ⟨hle, hsame⟩ := add64_spec (nativeUint order (b.take width)) h
    rw [nativeUint_toNat (by omega)] at hsame
    have hword : Same 65535 (order.value (b.take width)) (order.scale * wordSum (b.take width)) :=
      order.value_same (by rw [hlength, heven])
    have hrest : width * count ≤ (b.drop width).length := by
      rw [length_drop]
      omega
    obtain ⟨hle', hsame'⟩ := ih hrest hle
    refine ⟨hle', hsame'.trans ?_⟩
    have hwords : wordSum (b.take (width * (count + 1))) =
        wordSum (b.take width) + wordSum ((b.drop width).take (width * count)) := by
      rw [hsplit, take_add, wordSum_append (by rw [hlength, heven])]
    rw [hwords, Nat.mul_add, ← Nat.add_assoc]
    exact ((hsame.of_dvd (by decide)).trans ((Same.refl _ _).add hword)).add (.refl _ _)

theorem addBlock_same (hwidth : width ≤ 8) (heven : width % 2 = 0) (hb : width * count ≤ b.length)
    (ac : UInt64) :
    Same 65535 (addBlock order width count b ac).toNat
      (ac.toNat + order.scale * wordSum (b.take (width * count))) := by
  have hac : ac.toNat + (0 : UInt64).toNat ≤ 18446744073709551615 := by
    have := ac.toNat_lt
    rw [UInt64.toNat_zero]
    omega
  obtain ⟨hle, hsame⟩ := addChain_spec order hwidth heven hb hac
  rw [addBlock, UInt64.toNat_add, Nat.mod_eq_of_lt (by omega)]
  exact hsame

-- The accumulator stands for what has been added of a total, and fewer bytes
-- than a bound are still to be added.
structure Sums (order : ByteOrder) (total bound : Nat) (st : Bytes × UInt64) : Prop where
  same : ∃ done, Same 65535 st.2.toNat (order.scale * done) ∧ done + wordSum st.1 = total
  length : st.1.length < bound

variable {total bound : Nat} {st : Bytes × UInt64}

theorem Sums.block (h : Sums order total bound st) (width count : Nat) (hwidth : width ≤ 8)
    (heven : width % 2 = 0)
    (hb : width * count ≤ st.1.length) :
    Sums order total (bound - width * count)
      (st.1.drop (width * count), addBlock order width count st.1 st.2) := by
  obtain ⟨done, hsame, htotal⟩ := h.same
  have hlength := h.length
  refine ⟨⟨done + wordSum (st.1.take (width * count)), ?_, ?_⟩, ?_⟩
  · rw [Nat.mul_add]
    exact (addBlock_same hwidth heven hb st.2).trans (hsame.add (.refl _ _))
  · rw [Nat.add_assoc, wordSum_take_drop (by rw [Nat.mul_mod, heven, Nat.zero_mul, Nat.zero_mod]) hb]
    exact htotal
  · rw [length_drop]
    omega

theorem Sums.tail (width count : Nat) (h : Sums order total (2 * (width * count)) st)
    (hwidth : width ≤ 8) (heven : width % 2 = 0) :
    Sums order total (width * count) (Tun.tail order width count st) := by
  unfold Tun.tail
  split
  · next hb =>
      have hblock := h.block width count hwidth heven hb
      rwa [Nat.two_mul, Nat.add_sub_cancel] at hblock
  · next hb => exact ⟨h.same, Nat.lt_of_not_le hb⟩

theorem Sums.blocks {fuel : Nat} (h : Sums order total (128 + fuel) st) :
    Sums order total 128 (Tun.blocks order fuel st) := by
  induction fuel generalizing st with
  | zero => exact h
  | succ fuel ih =>
    unfold Tun.blocks
    split
    · next hb =>
        have hblock := h.block 8 16 (by decide) (by decide) hb
        apply ih
        exact ⟨hblock.same, hblock.length.trans_le (by omega)⟩
    · next hb => exact ⟨h.same, Nat.lt_of_not_le hb⟩

theorem Sums.lastByte (h : Sums order total 2 st) :
    Same 65535 (Tun.lastByte order st).toNat (order.scale * total) := by
  obtain ⟨b, ac⟩ := st
  obtain ⟨⟨done, hsame, htotal⟩, hlength⟩ := h
  match b with
  | [] =>
    rw [← htotal]
    exact hsame
  | [last] =>
    have hlast : Same 65535 (Tun.lastByte order ([last], ac)).toNat
        (ac.toNat + order.scale * wordSum [last, 0]) :=
      addBlock_same (by decide) (by decide) (by simp) ac
    rw [← htotal, Nat.mul_add]
    exact hlast.trans (hsame.add (.of_eq (by simp [wordSum])))
  | _ :: _ :: _ =>
    simp only [length_cons] at hlength
    omega

theorem swap_same (ac : UInt64) : Same 65535 (swap order ac).toNat (order.scale * ac.toNat) := by
  have hlt := ofBig_lt (order.bytes 8 ac.toNat)
  rw [ByteOrder.length_bytes] at hlt
  rw [swap, UInt64.toNat_ofNat_of_lt' hlt]
  exact order.ofBig_bytes_same (by decide) ac.toNat_lt

theorem checksumNoFold_same (order : ByteOrder) (b : Bytes) (initial : UInt64) :
    Same 65535 (checksumNoFold order b initial).toNat (initial.toNat + wordSum b) := by
  have hstart : Sums order (initial.toNat + wordSum b) (128 + b.length) (b, swap order initial) :=
    ⟨⟨initial.toNat, swap_same initial, rfl⟩, by dsimp only; omega⟩
  have h64 := hstart.blocks.tail 8 8 (by decide) (by decide)
  have h32 := h64.tail 8 4 (by decide) (by decide)
  have h16 := h32.tail 8 2 (by decide) (by decide)
  have h8 := h16.tail 8 1 (by decide) (by decide)
  have h4 := h8.tail 4 1 (by decide) (by decide)
  have h2 := h4.tail 2 1 (by decide) (by decide)
  exact (swap_same _).trans ((h2.lastByte.mul_left order.scale).trans (order.scale_scale _))

end

section

variable {order : ByteOrder}

theorem foldOnce_toNat (ac : UInt64) : (foldOnce ac).toNat = ac.toNat / 65536 + ac.toNat % 65536 := by
  have hac := ac.toNat_lt
  have hlow : (ac &&& 0xffff).toNat = ac.toNat % 65536 := by
    exact Nat.and_two_pow_sub_one_eq_mod _ 16
  have hhigh : (ac >>> 16).toNat = ac.toNat / 65536 := by
    exact Nat.shiftRight_eq_div_pow _ 16
  rw [foldOnce, UInt64.toNat_add, hlow, hhigh]
  omega

theorem foldOnce_same (ac : UInt64) : Same 65535 (foldOnce ac).toNat ac.toNat := by
  rw [foldOnce_toNat]
  exact .carry 65535 _

-- Four times are enough for 64 bits. The bounds leave no room for a carry in
-- the last one.
theorem foldOnce_four_le (ac : UInt64) :
    (foldOnce (foldOnce (foldOnce (foldOnce ac)))).toNat ≤ 65535 := by
  have hac := ac.toNat_lt
  have h1 : (foldOnce ac).toNat ≤ 281474976776190 := by
    rw [foldOnce_toNat]
    omega
  have h2 : (foldOnce (foldOnce ac)).toNat ≤ 4295032830 := by
    rw [foldOnce_toNat]
    omega
  have h3 : (foldOnce (foldOnce (foldOnce ac))).toNat ≤ 131070 := by
    rw [foldOnce_toNat]
    omega
  rw [foldOnce_toNat]
  omega

-- The checksum of RFC 1071: the sum as a number without a bound, folded until
-- it fits 16 bits.
def checksumRef (b : Bytes) (initial : Nat) : Nat :=
  fold 65535 (initial + wordSum b)

theorem checksum_eq_ref (order : ByteOrder) (b : Bytes) (initial : UInt64) :
    (checksum order b initial).toNat = checksumRef b initial.toNat := by
  have hle := foldOnce_four_le (checksumNoFold order b initial)
  rw [checksum, UInt64.toNat_toUInt16, Nat.mod_eq_of_lt (by omega)]
  refine Same.eq_fold ?_ (by decide) hle
  exact (foldOnce_same _).trans ((foldOnce_same _).trans ((foldOnce_same _).trans
    ((foldOnce_same _).trans (checksumNoFold_same order b initial))))

def pseudoHeader (isV6 : Bool) (protocol : UInt8) (srcAddr dstAddr : Bytes)
    (totalLen : UInt16) : Bytes :=
  if isV6 then srcAddr ++ (dstAddr ++ (toBig 4 totalLen.toNat ++ [0, 0, 0, protocol]))
  else srcAddr ++ (dstAddr ++ ([0, protocol] ++ toBig 2 totalLen.toNat))

theorem wordSum_toBig_two {n : Nat} (h : n < 65536) : wordSum (toBig 2 n) = n := by
  have hbytes : toBig 2 n = [.ofNat (n / 256), .ofNat n] := rfl
  rw [hbytes, wordSum, wordSum, UInt8.toNat_ofNat', UInt8.toNat_ofNat']
  omega

theorem wordSum_toBig_four {n : Nat} (h : n < 65536) : wordSum (toBig 4 n) = n := by
  have hbytes : toBig 4 n = [.ofNat (n / 256 / 256 / 256), .ofNat (n / 256 / 256), .ofNat (n / 256),
    .ofNat n] := rfl
  simp only [hbytes, wordSum, UInt8.toNat_ofNat']
  omega

theorem wordSum_pseudoHeader {srcAddr dstAddr : Bytes} (hsrc : srcAddr.length % 2 = 0)
    (hdst : dstAddr.length % 2 = 0) (isV6 : Bool) (protocol : UInt8) (totalLen : UInt16)
    (data : Bytes) :
    wordSum (pseudoHeader isV6 protocol srcAddr dstAddr totalLen ++ data) =
      wordSum srcAddr + wordSum dstAddr + protocol.toNat + totalLen.toNat + wordSum data := by
  have hlen := totalLen.toNat_lt
  cases isV6 with
  | true =>
    simp only [pseudoHeader, if_true, append_assoc]
    rw [wordSum_append hsrc, wordSum_append hdst, wordSum_append (by rw [length_toBig]),
      wordSum_toBig_four hlen]
    simp only [cons_append, nil_append, wordSum, UInt8.toNat_zero]
    omega
  | false =>
    simp only [pseudoHeader, Bool.false_eq_true, if_false, append_assoc]
    rw [wordSum_append hsrc, wordSum_append hdst, cons_append, cons_append, wordSum,
      nil_append, wordSum_append (by rw [length_toBig]), wordSum_toBig_two hlen,
      UInt8.toNat_zero]
    omega

theorem pseudoHeaderChecksumNoFold_same (protocol : UInt8) (srcAddr dstAddr : Bytes)
    (totalLen : UInt16) :
    Same 65535 (pseudoHeaderChecksumNoFold order protocol srcAddr dstAddr totalLen).toNat
      (wordSum srcAddr + wordSum dstAddr + protocol.toNat + totalLen.toNat) := by
  have hsrc : Same 65535 (checksumNoFold order srcAddr 0).toNat (wordSum srcAddr) := by
    have h := checksumNoFold_same order srcAddr 0
    rwa [UInt64.toNat_zero, Nat.zero_add] at h
  have hdst := (checksumNoFold_same order dstAddr (checksumNoFold order srcAddr 0)).trans
    (hsrc.add (.refl _ _))
  have hprotocol := (checksumNoFold_same order [0, protocol] _).trans
    (hdst.add (.refl 65535 (wordSum [0, protocol])))
  have htotal := (checksumNoFold_same order (toBig 2 totalLen.toNat) _).trans
    (hprotocol.add (.refl 65535 (wordSum (toBig 2 totalLen.toNat))))
  rw [wordSum_toBig_two totalLen.toNat_lt] at htotal
  unfold pseudoHeaderChecksumNoFold
  simpa only [wordSum, UInt8.toNat_zero, Nat.zero_mul, Nat.zero_add, Nat.add_zero] using htotal

theorem checksum_pseudoHeader_eq_ref {srcAddr dstAddr : Bytes} (hsrc : srcAddr.length % 2 = 0)
    (hdst : dstAddr.length % 2 = 0) (isV6 : Bool) (protocol : UInt8) (totalLen : UInt16)
    (data : Bytes) :
    (checksum order data
        (pseudoHeaderChecksumNoFold order protocol srcAddr dstAddr totalLen)).toNat =
      checksumRef (pseudoHeader isV6 protocol srcAddr dstAddr totalLen ++ data) 0 := by
  rw [checksum_eq_ref]
  refine Same.eq_fold ?_ (by decide) (fold_le (by decide) _)
  rw [Nat.zero_add, wordSum_pseudoHeader hsrc hdst]
  exact (fold_same _ _).trans ((pseudoHeaderChecksumNoFold_same _ _ _ _).add (.refl _ _))

theorem checksum_reference (order : ByteOrder) (data : Bytes) :
    (∀ initial : UInt64, (checksum order data initial).toNat = checksumRef data initial.toNat) ∧
      ∀ (isV6 : Bool) (protocol : UInt8) (srcAddr dstAddr : Bytes) (totalLen : UInt16),
        srcAddr.length = (if isV6 then 16 else 4) → dstAddr.length = (if isV6 then 16 else 4) →
        (checksum order data
            (pseudoHeaderChecksumNoFold order protocol srcAddr dstAddr totalLen)).toNat =
          checksumRef (pseudoHeader isV6 protocol srcAddr dstAddr totalLen ++ data) 0 := by
  refine ⟨checksum_eq_ref order data, fun isV6 protocol srcAddr dstAddr totalLen hsrc hdst => ?_⟩
  apply checksum_pseudoHeader_eq_ref
  · rw [hsrc]
    split <;> rfl
  · rw [hdst]
    split <;> rfl

theorem checksum_reference_sample :
    checksum .little [1, 2, 3] (pseudoHeaderChecksumNoFold .little 17 [127, 0, 0, 1] [127, 0, 0, 1] 3) =
        0x0219 ∧
      checksumRef (pseudoHeader false 17 [127, 0, 0, 1] [127, 0, 0, 1] 3 ++ [1, 2, 3]) 0 = 0x0219 := by
  have hvalue : checksum .little [1, 2, 3]
      (pseudoHeaderChecksumNoFold .little 17 [127, 0, 0, 1] [127, 0, 0, 1] 3) = 0x0219 := by
    decide +kernel
  refine ⟨hvalue, ?_⟩
  rw [← (checksum_reference .little [1, 2, 3]).2 false 17 [127, 0, 0, 1] [127, 0, 0, 1] 3 rfl rfl,
    hvalue]
  rfl

end

end StarlingWg.Tun
