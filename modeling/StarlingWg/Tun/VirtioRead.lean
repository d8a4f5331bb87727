import StarlingWg.Tun.Reading

namespace StarlingWg.Tun

open EndAround Buffer List

variable {order : ByteOrder} {input : Bytes} {hdr : VirtioNetHdr} {isV6 : Bool}
  {slots : List Slot} {outOffset : Nat}

theorem decode_bytes (order : ByteOrder) (hdr : VirtioNetHdr) (input : Bytes) :
    VirtioNetHdr.decode order (hdr.bytes order ++ input) = .ok hdr := by
  have hfields : VirtioNetHdr.decode order (hdr.bytes order ++ input) = .ok
      { hdr with
        hdrLen := .ofNat (order.value (order.bytes 2 hdr.hdrLen.toNat))
        gsoSize := .ofNat (order.value (order.bytes 2 hdr.gsoSize.toNat))
        csumStart := .ofNat (order.value (order.bytes 2 hdr.csumStart.toNat))
        csumOffset := .ofNat (order.value (order.bytes 2 hdr.csumOffset.toNat)) } := by
    cases order <;> exact if_neg (by simp [VirtioNetHdr.bytes, virtioNetHdrLen]; omega)
  have hvalue (v : UInt16) : UInt16.ofNat (order.value (order.bytes 2 v.toNat)) = v := by
    rw [order.value_bytes v.toNat_lt, UInt16.ofNat_toNat]
  rw [hfields, hvalue, hvalue, hvalue, hvalue]

theorem toNat_tcpHLen (b : UInt8) : ((b >>> 4) * 4).toUInt16.toNat = (b >>> 4).toNat * 4 := by
  have hshift : (b >>> 4).toNat = b.toNat / 16 := Nat.shiftRight_eq_div_pow _ 4
  have hlt := b.toNat_lt
  have hfour : (4 : UInt8).toNat = 4 := rfl
  rw [UInt8.toNat_toUInt16, UInt8.toNat_mul, hshift, hfour]
  omega

theorem tcpHLen_range {b : UInt8} (h : 20 ≤ (b >>> 4).toNat * 4) :
    ¬(((b >>> 4) * 4).toUInt16 < 20 ∨ (60 : UInt16) < ((b >>> 4) * 4).toUInt16) := by
  have hshift : (b >>> 4).toNat = b.toNat / 16 := Nat.shiftRight_eq_div_pow _ 4
  have hlt := b.toNat_lt
  have htwenty : (20 : UInt16).toNat = 20 := rfl
  have hsixty : (60 : UInt16).toNat = 60 := rfl
  rw [UInt16.lt_iff_toNat_lt, UInt16.lt_iff_toNat_lt, toNat_tcpHLen]
  omega

namespace Superpacket

variable (h : Superpacket input hdr isV6)

include h

theorem checkVersion_eq : checkVersion (byteAt input 0 >>> 4) hdr.gsoType = .ok () := by
  rw [h.version]
  rcases h.gsoType with htype | htype <;> cases isV6 <;> rw [htype] <;> rfl

theorem parseHdrLen_eq (hdrLen : UInt16) : parseHdrLen input { hdr with hdrLen } = .ok hdr := by
  have hlen := h.hdrLen
  have hle := h.hdrLen_le
  have hmax := h.length_le
  have hmin := h.th_le
  have hsum {v : UInt16} (hv : v.toNat = transportHeaderLen input hdr) :
      hdr.csumStart + v = hdr.hdrLen := by
    rw [← UInt16.toNat_inj, UInt16.toNat_add]
    omega
  unfold parseHdrLen
  dsimp only
  by_cases hudp : hdr.gsoType = gsoUDPL4
  · rw [if_pos hudp, hsum]
    rw [transportHeaderLen, isTCP, hudp]
    rfl
  · have htcp : isTCP hdr := by
      rw [isTCP, h.gsoType.resolve_left hudp]
      cases isV6 <;> rfl
    have hth : transportHeaderLen input hdr =
        (byteAt input (hdr.csumStart.toNat + 12) >>> 4).toNat * 4 := if_pos htcp
    rw [transportProtocol, if_pos htcp] at hmin
    have htwenty : 20 ≤ transportHeaderLen input hdr := hmin
    have hat : (hdr.csumStart + 12).toNat = hdr.csumStart.toNat + 12 := by
      have htwelve : (12 : UInt16).toNat = 12 := rfl
      rw [UInt16.toNat_add, htwelve]
      omega
    rw [if_neg hudp, hat, if_neg (by omega), if_neg (tcpHLen_range (hth ▸ htwenty)), hsum]
    rw [toNat_tcpHLen, hth]

-- Nothing depends on the hdrLen that the kernel has written.
theorem checkVirtioRead_eq (hdrLen : UInt16) :
    checkVirtioRead input { hdr with hdrLen } = .ok hdr := by
  have hlen := h.hdrLen
  have hle := h.hdrLen_le
  have hcsum := h.csum_le
  have htype : ¬(hdr.gsoType ≠ gsoTCPV4 ∧ hdr.gsoType ≠ gsoTCPV6 ∧ hdr.gsoType ≠ gsoUDPL4) := by
    have hgso := h.gsoType
    split at hgso <;> tauto
  have hat : (hdr.csumStart + hdr.csumOffset).toNat ≤ hdr.csumStart.toNat + hdr.csumOffset.toNat := by
    rw [UInt16.toNat_add]
    exact Nat.mod_le _ _
  have hstart : ¬hdr.hdrLen < hdr.csumStart := by
    rw [UInt16.lt_iff_toNat_lt]
    omega
  unfold checkVirtioRead
  rw [h.checkVersion_eq, h.parseHdrLen_eq, if_neg htype]
  simp only [bind, Except.bind, pure, Except.pure]
  rw [if_neg (by omega), if_neg hstart, if_neg (by omega)]

theorem handleVirtioRead_eq (order : ByteOrder) (hdrLen : UInt16) :
    handleVirtioRead order (({ hdr with hdrLen }).bytes order ++ input) slots outOffset =
      gsoSplit order input hdr slots outOffset isV6 := by
  have hsix : (byteAt input 0 >>> 4 == 6) = isV6 := by
    rw [h.version]
    cases isV6 <;> rfl
  have hgso : hdr.gsoType ≠ gsoNone := by
    rcases h.gsoType with htype | htype <;> rw [htype]
    · decide
    · cases isV6 <;> decide
  rw [handleVirtioRead, decode_bytes]
  dsimp only
  rw [if_neg hgso, drop_left' (by simp [VirtioNetHdr.bytes, virtioNetHdrLen]),
    h.checkVirtioRead_eq, hsix]

theorem roomy (hroom : ∀ slot ∈ slots, outOffset + input.length ≤ slot.buf.length) :
    Roomy hdr (payload hdr input) outOffset 0 slots := by
  intro j slot hslot _
  have hle := hroom slot (mem_of_getElem? hslot)
  have hsum := h.length_payload
  rw [slice, length_take, length_drop]
  omega

end Superpacket

-- All segments if there are enough buffers, otherwise one less than buffers.
structure ReadsSegments (input : Bytes) (hdr : VirtioNetHdr) (isV6 : Bool)
    (outOffset buffers : Nat) (r : ReadResult) : Prop where
  segment : ∀ i packet, (packetsRead r.n r.slots outOffset)[i]? = some packet →
    IsSegment input hdr isV6 i packet
  count : (packetsRead r.n r.slots outOffset).length =
    if segmentCount input hdr ≤ buffers then segmentCount input hdr else buffers - 1
  err : r.err = if segmentCount input hdr ≤ buffers then none else some errTooManySegments
  payload : segmentCount input hdr ≤ buffers →
    ((packetsRead r.n r.slots outOffset).map (payload hdr)).flatten = payload hdr input

end StarlingWg.Tun
