import StarlingWg.Tun.Segments

namespace StarlingWg.Tun

open EndAround Buffer List

-- Bytes of a header that a segment takes over as they are.
def SpareIP (isV6 : Bool) (pos n : Nat) : Prop :=
  if isV6 then pos + n ≤ 4 ∨ 6 ≤ pos
  else pos + n ≤ 2 ∨ (6 ≤ pos ∧ pos + n ≤ 10) ∨ 12 ≤ pos

def SpareTransport (protocol : UInt8) (pos n : Nat) : Prop :=
  if protocol = ipprotoTCP then pos + n ≤ 4 ∨ (8 ≤ pos ∧ pos + n ≤ 13) ∨ 14 ≤ pos
  else pos + n ≤ 4 ∨ 6 ≤ pos

instance (protocol : UInt8) (pos n : Nat) : Decidable (SpareTransport protocol pos n) :=
  inferInstanceAs (Decidable (if protocol = ipprotoTCP then _ else _))

section

variable {order : ByteOrder} {isV6 : Bool} {ip : Bytes} {i totalLen pos n : Nat}
  (hip : 20 ≤ ip.length)

include hip

theorem slice_numberedIP (h : pos + n ≤ 4 ∨ 6 ≤ pos) : slice (numberedIP ip i) pos n = slice ip pos n := by
  unfold numberedIP
  split
  · exact slice_putUint16 (by omega) h _
  · rfl

theorem numberedIP_id : uint16At (numberedIP ip i) 4 = uint16At ip 4 + .ofNat i := by
  unfold numberedIP
  split
  · exact uint16At_putUint16 (by omega) _
  · next hi =>
      have hzero : i = 0 := by omega
      rw [hzero]
      exact (UInt16.add_zero _).symm

theorem slice_ipSegment (h : SpareIP isV6 pos n) :
    slice (ipSegment order isV6 ip i totalLen) pos n = slice ip pos n := by
  unfold SpareIP at h
  unfold ipSegment
  cases isV6 with
  | true => exact slice_putUint16 (by omega) h _
  | false =>
    simp only [Bool.false_eq_true, if_false] at h ⊢
    rw [slice_putUint16 (by simp; omega) (by omega), slice_putUint16 (by simp; omega) (by omega),
      slice_numberedIP hip (by omega)]

theorem srcAddr_ipSegment : srcAddr (ipSegment order isV6 ip i totalLen) isV6 = srcAddr ip isV6 := by
  unfold srcAddr
  cases isV6 with
  | true => exact slice_ipSegment hip (by simp [SpareIP])
  | false => exact slice_ipSegment hip (by simp [SpareIP])

theorem dstAddr_ipSegment : dstAddr (ipSegment order isV6 ip i totalLen) isV6 = dstAddr ip isV6 := by
  unfold dstAddr
  cases isV6 with
  | true => exact slice_ipSegment hip (by simp [SpareIP])
  | false => exact slice_ipSegment hip (by simp [SpareIP])

theorem ipSegment_totalLen :
    uint16At (ipSegment order false ip i totalLen) 2 = .ofNat totalLen := by
  unfold ipSegment
  simp only [Bool.false_eq_true, if_false]
  rw [uint16At, slice_putUint16 (by simp; omega) (by omega), ← uint16At,
    uint16At_putUint16 (by simp; omega)]

theorem ipSegment_id :
    uint16At (ipSegment order false ip i totalLen) 4 = uint16At ip 4 + .ofNat i := by
  unfold ipSegment
  simp only [Bool.false_eq_true, if_false]
  rw [uint16At, slice_putUint16 (by simp; omega) (by omega), slice_putUint16 (by simp; omega) (by omega),
    ← uint16At, numberedIP_id hip]

theorem ipSegment_payloadLen :
    uint16At (ipSegment order true ip i totalLen) 4 = .ofNat (totalLen - ip.length) :=
  uint16At_putUint16 (by omega) _

theorem ipSegment_checksum (hzero : slice ip 10 2 = [0, 0]) :
    checksumRef (ipSegment order false ip i totalLen) 0 = 65535 := by
  unfold ipSegment
  apply checksumRef_complete (by decide)
  · simp
    omega
  · rw [slice_putUint16 (by simp; omega) (by omega), slice_numberedIP hip (by omega), hzero]
  · exact checksum_eq_ref order _ 0

end

section

variable {protocol : UInt8} {gsoSize : UInt16} {firstTCPSeqNum : UInt32} {th : Bytes}
  {i : Nat} {last : Bool} {segmentDataLen pos n : Nat}
  (hth : minTransportLen protocol ≤ th.length)

include hth

theorem slice_transportSegment (h : SpareTransport protocol pos n) :
    slice (transportSegment protocol gsoSize firstTCPSeqNum th i last segmentDataLen) pos n =
      slice th pos n := by
  unfold minTransportLen at hth
  unfold SpareTransport at h
  unfold transportSegment
  by_cases htcp : protocol = ipprotoTCP
  · rw [if_pos htcp] at hth h ⊢
    split
    · exact slice_putUint32 (by omega) (by omega) _
    · rw [slice_setByte (by simp; omega) (by omega), slice_putUint32 (by omega) (by omega)]
  · rw [if_neg htcp] at hth h ⊢
    exact slice_putUint16 (by omega) h _

theorem transportSegment_seq (htcp : protocol = ipprotoTCP) :
    uint32At (transportSegment protocol gsoSize firstTCPSeqNum th i last segmentDataLen) 4 =
      firstTCPSeqNum + (gsoSize * .ofNat i).toUInt32 := by
  rw [minTransportLen, if_pos htcp] at hth
  rw [transportSegment, if_pos htcp]
  split
  · exact uint32At_putUint32 (by omega) _
  · rw [uint32At, slice_setByte (by simp; omega) (by omega), ← uint32At,
      uint32At_putUint32 (by omega)]

theorem transportSegment_flags (htcp : protocol = ipprotoTCP) :
    byteAt (transportSegment protocol gsoSize firstTCPSeqNum th i last segmentDataLen) 13 =
      if last then byteAt th 13 else byteAt th 13 &&& ~~~(tcpFlagFIN ||| tcpFlagPSH) := by
  rw [minTransportLen, if_pos htcp] at hth
  rw [transportSegment, if_pos htcp]
  split
  · rw [byteAt, slice_putUint32 (by omega) (by omega), ← byteAt]
  · rw [byteAt_setByte (by simp; omega), byteAt, slice_putUint32 (by omega) (by omega), ← byteAt]

theorem transportSegment_udpLen (hudp : protocol ≠ ipprotoTCP) :
    uint16At (transportSegment protocol gsoSize firstTCPSeqNum th i last segmentDataLen) 4 =
      .ofNat segmentDataLen + .ofNat th.length := by
  rw [minTransportLen, if_neg hudp] at hth
  rw [transportSegment, if_neg hudp]
  exact uint16At_putUint16 (by omega) _

end

section

variable {order : ByteOrder} {hdr : VirtioNetHdr} {isV6 : Bool} {protocol : UInt8}
  {ip t piece : Bytes}

theorem even_length_srcAddr (hip : fixedHeaderLen isV6 ≤ ip.length) :
    (srcAddr ip isV6).length % 2 = 0 := by
  rw [srcAddr_length hip]
  split <;> rfl

theorem even_length_dstAddr (hip : fixedHeaderLen isV6 ≤ ip.length) :
    (dstAddr ip isV6).length % 2 = 0 := by
  rw [dstAddr_length hip]
  split <;> rfl

theorem checksumRef_pseudoHeader {srcAddr dstAddr : Bytes} (hsrc : srcAddr.length % 2 = 0)
    (hdst : dstAddr.length % 2 = 0) (totalLen : UInt16) (bytes : Bytes) :
    checksumRef (pseudoHeader isV6 protocol srcAddr dstAddr totalLen ++ bytes) 0 =
      checksumRef bytes (wordSum srcAddr + wordSum dstAddr + protocol.toNat + totalLen.toNat) := by
  rw [checksumRef, Nat.zero_add, wordSum_pseudoHeader hsrc hdst, checksumRef]

theorem checksummed_checksum (hip : fixedHeaderLen isV6 ≤ ip.length)
    (heven : hdr.csumOffset.toNat % 2 = 0) (hcsum : hdr.csumOffset.toNat + 2 ≤ t.length)
    (hzero : slice t hdr.csumOffset.toNat 2 = [0, 0]) :
    checksumRef (pseudoHeader isV6 protocol (srcAddr ip isV6) (dstAddr ip isV6)
      (.ofNat (t.length + piece.length)) ++ (checksummed order hdr isV6 protocol ip t piece ++ piece))
      0 = 65535 := by
  have hsrc := even_length_srcAddr hip
  have hdst := even_length_dstAddr hip
  have hzero' : slice (t ++ piece) hdr.csumOffset.toNat 2 = [0, 0] := by
    rw [slice_append_left hcsum, hzero]
  rw [checksummed, ← putUint16_append_left hcsum, checksumRef_pseudoHeader hsrc hdst]
  apply checksumRef_complete heven
  · rw [length_append]
    omega
  · exact hzero'
  · rw [checksum_pseudoHeader_eq_ref hsrc hdst isV6, checksumRef_pseudoHeader hsrc hdst]

end

section

def transportProtocol (hdr : VirtioNetHdr) : UInt8 :=
  if isTCP hdr then ipprotoTCP else ipprotoUDP

def ipHeaderLen (input : Bytes) (isV6 : Bool) : Nat :=
  if isV6 then 40 else (byteAt input 0 &&& 0x0f).toNat * 4

def transportHeaderLen (input : Bytes) (hdr : VirtioNetHdr) : Nat :=
  if isTCP hdr then (byteAt input (hdr.csumStart.toNat + 12) >>> 4).toNat * 4 else 8

structure Superpacket (input : Bytes) (hdr : VirtioNetHdr) (isV6 : Bool) : Prop where
  length_le : input.length ≤ 65535
  version : byteAt input 0 >>> 4 = if isV6 then 6 else 4
  gsoType : hdr.gsoType = gsoUDPL4 ∨ hdr.gsoType = if isV6 then gsoTCPV6 else gsoTCPV4
  csumStart : hdr.csumStart.toNat = ipHeaderLen input isV6
  ip_le : fixedHeaderLen isV6 ≤ ipHeaderLen input isV6
  hdrLen : hdr.hdrLen.toNat = hdr.csumStart.toNat + transportHeaderLen input hdr
  th_le : minTransportLen (transportProtocol hdr) ≤ transportHeaderLen input hdr
  hdrLen_le : hdr.hdrLen.toNat ≤ input.length
  gsoSize_pos : 0 < hdr.gsoSize.toNat
  csum_le : hdr.csumOffset.toNat + 2 ≤ transportHeaderLen input hdr

-- The checksum field is a word of the transport header that is nothing else,
-- as at 16 for TCP and at 6 for UDP.
structure ChecksumField (hdr : VirtioNetHdr) : Prop where
  even : hdr.csumOffset.toNat % 2 = 0
  spare : SpareTransport (transportProtocol hdr) hdr.csumOffset.toNat 2

def payload (hdr : VirtioNetHdr) (packet : Bytes) : Bytes :=
  packet.drop hdr.hdrLen.toNat

def segmentCount (input : Bytes) (hdr : VirtioNetHdr) : Nat :=
  pieceCount hdr.gsoSize.toNat (payload hdr input).length

def clearedIP (input : Bytes) (hdr : VirtioNetHdr) (isV6 : Bool) : Bytes :=
  let ip := input.take hdr.csumStart.toNat
  if isV6 then ip else putUint16 ip 10 0

def clearedTransport (input : Bytes) (hdr : VirtioNetHdr) : Bytes :=
  putUint16 (slice input hdr.csumStart.toNat (hdr.hdrLen.toNat - hdr.csumStart.toNat))
    hdr.csumOffset.toNat 0

variable {order : ByteOrder} {input : Bytes} {hdr : VirtioNetHdr} {isV6 : Bool}

namespace Superpacket

variable (h : Superpacket input hdr isV6)

include h

theorem twenty_le : 20 ≤ hdr.csumStart.toNat := by
  have hip := h.ip_le
  rw [← h.csumStart] at hip
  unfold fixedHeaderLen at hip
  split at hip <;> omega

theorem start_le : hdr.csumStart.toNat ≤ input.length := by
  have := h.hdrLen
  have := h.hdrLen_le
  omega

theorem length_ip : (input.take hdr.csumStart.toNat).length = hdr.csumStart.toNat := by
  have := h.start_le
  rw [length_take]
  omega

theorem length_transport :
    (slice input hdr.csumStart.toNat (hdr.hdrLen.toNat - hdr.csumStart.toNat)).length =
      transportHeaderLen input hdr := by
  have := h.hdrLen
  have := h.hdrLen_le
  rw [length_slice (by omega)]
  omega

theorem eq_append : input = input.take hdr.csumStart.toNat ++
    (slice input hdr.csumStart.toNat (hdr.hdrLen.toNat - hdr.csumStart.toNat) ++ payload hdr input) := by
  have := h.hdrLen
  have hdata : payload hdr input =
      (input.drop hdr.csumStart.toNat).drop (hdr.hdrLen.toNat - hdr.csumStart.toNat) := by
    rw [payload, drop_drop]
    congr 1
    omega
  rw [hdata, slice, take_append_drop, take_append_drop]

theorem length_clearedIP : (clearedIP input hdr isV6).length = hdr.csumStart.toNat := by
  unfold clearedIP
  cases isV6 with
  | true => exact h.length_ip
  | false =>
    simp only [Bool.false_eq_true, if_false, length_putUint16]
    exact h.length_ip

theorem length_clearedTransport : (clearedTransport input hdr).length = transportHeaderLen input hdr := by
  rw [clearedTransport, length_putUint16, h.length_transport]

theorem clearChecksums_eq : clearChecksums input hdr isV6 =
    clearedIP input hdr isV6 ++ (clearedTransport input hdr ++ payload hdr input) := by
  have hstart := h.twenty_le
  have hcsum := h.csum_le
  have hth := h.length_transport
  have hat : (hdr.csumStart + hdr.csumOffset).toNat =
      (clearedIP input hdr isV6).length + hdr.csumOffset.toNat := by
    have := h.hdrLen
    have := hdr.hdrLen.toNat_lt
    rw [UInt16.toNat_add, h.length_clearedIP, Nat.mod_eq_of_lt (by omega)]
  have hclear : (if isV6 then input else putUint16 input 10 0) = clearedIP input hdr isV6 ++
      (slice input hdr.csumStart.toNat (hdr.hdrLen.toNat - hdr.csumStart.toNat) ++ payload hdr input) := by
    cases isV6 with
    | true => exact h.eq_append
    | false =>
      simp only [clearedIP, Bool.false_eq_true, if_false]
      rw [← putUint16_append_left (by rw [h.length_ip]; omega), ← h.eq_append]
  rw [clearChecksums, hclear, hat, putUint16_append_right, putUint16_append_left (by omega),
    clearedTransport]

theorem parts : Parts (clearChecksums input hdr isV6) hdr isV6 (transportProtocol hdr)
    (clearedIP input hdr isV6) (clearedTransport input hdr) (payload hdr input) where
  eq := h.clearChecksums_eq
  ip_length := h.length_clearedIP
  th_length := by rw [h.length_clearedIP, h.length_clearedTransport, h.hdrLen]
  ip_le := by
    rw [h.length_clearedIP, h.csumStart]
    exact h.ip_le
  th_le := by
    rw [h.length_clearedTransport]
    exact h.th_le
  csum_le := by
    rw [h.length_clearedTransport]
    exact h.csum_le

end Superpacket

variable (order input hdr isV6)

def firstSeq : UInt32 :=
  if isTCP hdr then uint32At (clearChecksums input hdr isV6) (hdr.csumStart + 4).toNat else 0

def superSegment (i : Nat) : Bytes :=
  segmentAt order hdr isV6 (transportProtocol hdr) (firstSeq input hdr isV6)
    (clearedIP input hdr isV6) (clearedTransport input hdr) (payload hdr input) i

def superPiece (i : Nat) : Bytes :=
  slice (payload hdr input) (i * hdr.gsoSize.toNat) hdr.gsoSize.toNat

def superTransport (i : Nat) : Bytes :=
  transportSegment (transportProtocol hdr) hdr.gsoSize (firstSeq input hdr isV6)
    (clearedTransport input hdr) i
    ((payload hdr input).length ≤ i * hdr.gsoSize.toNat + hdr.gsoSize.toNat)
    (superPiece input hdr i).length

structure IsSegment (i : Nat) (packet : Bytes) : Prop where
  size : i + 1 < segmentCount input hdr → (payload hdr packet).length = hdr.gsoSize.toNat
  id : isV6 = false → uint16At packet 4 = uint16At input 4 + .ofNat i
  seq_lt : i * hdr.gsoSize.toNat < 65536
  seq : isTCP hdr → uint32At packet (hdr.csumStart.toNat + 4) =
    uint32At input (hdr.csumStart.toNat + 4) + .ofNat (i * hdr.gsoSize.toNat)
  flags : isTCP hdr → byteAt packet (hdr.csumStart.toNat + 13) =
    if i + 1 = segmentCount input hdr then byteAt input (hdr.csumStart.toNat + 13)
    else byteAt input (hdr.csumStart.toNat + 13) &&& ~~~(tcpFlagFIN ||| tcpFlagPSH)
  totalLen : isV6 = false → (uint16At packet 2).toNat = packet.length
  payloadLen : isV6 = true → (uint16At packet 4).toNat + 40 = packet.length
  udpLen : isTCP hdr = false →
    (uint16At packet (hdr.csumStart.toNat + 4)).toNat + hdr.csumStart.toNat = packet.length
  ipChecksum : isV6 = false → checksumRef (packet.take hdr.csumStart.toNat) 0 = 65535
  checksum : checksumRef (pseudoHeader isV6 (transportProtocol hdr) (srcAddr packet isV6)
    (dstAddr packet isV6) (.ofNat (packet.length - hdr.csumStart.toNat)) ++
      packet.drop hdr.csumStart.toNat) 0 = 65535

variable {order input hdr isV6}

theorem Superpacket.gsoSplit_splits (h : Superpacket input hdr isV6) (order : ByteOrder)
    {slots : List Slot} {outOffset : Nat} (hroom : Roomy hdr (payload hdr input) outOffset 0 slots) :
    Splits (superSegment order input hdr isV6) outOffset (segmentCount input hdr) 0 slots
      (gsoSplit order input hdr slots outOffset isV6) := by
  have hloop := h.parts.splitLoop_splits order (firstSeq input hdr isV6) h.gsoSize_pos
    (Nat.zero_le _) hroom
  rw [Nat.zero_mul, Nat.add_zero] at hloop
  exact hloop

namespace Superpacket

variable (h : Superpacket input hdr isV6)

include h

theorem length_payload : hdr.hdrLen.toNat + (payload hdr input).length = input.length := by
  have := h.hdrLen_le
  rw [payload, length_drop]
  omega

theorem length_superTransport (i : Nat) :
    (superTransport input hdr isV6 i).length = transportHeaderLen input hdr := by
  rw [superTransport, length_transportSegment, h.length_clearedTransport]

theorem superSegment_eq (order : ByteOrder) (i : Nat) : ∃ ip,
    ip = ipSegment order isV6 (clearedIP input hdr isV6) i (superSegment order input hdr isV6 i).length ∧
    ip.length = hdr.csumStart.toNat ∧
    superSegment order input hdr isV6 i = ip ++ (checksummed order hdr isV6 (transportProtocol hdr)
      (clearedIP input hdr isV6) (superTransport input hdr isV6 i) (superPiece input hdr i) ++
        superPiece input hdr i) := by
  have hlength : (superSegment order input hdr isV6 i).length =
      hdr.hdrLen.toNat + (superPiece input hdr i).length := h.parts.length_segmentAt i
  refine ⟨_, rfl, by rw [length_ipSegment, h.length_clearedIP], ?_⟩
  rw [hlength]
  rfl

theorem length_superSegment (order : ByteOrder) (i : Nat) :
    (superSegment order input hdr isV6 i).length =
      hdr.hdrLen.toNat + (superPiece input hdr i).length :=
  h.parts.length_segmentAt i

theorem length_superSegment_le (order : ByteOrder) (i : Nat) :
    (superSegment order input hdr isV6 i).length ≤ 65535 := by
  have := h.length_payload
  have := h.length_le
  rw [h.length_superSegment, superPiece, slice, length_take, length_drop]
  omega

theorem payload_superSegment (i : Nat) :
    payload hdr (superSegment order input hdr isV6 i) = superPiece input hdr i := by
  obtain ⟨ip, -, hip, heq⟩ := h.superSegment_eq order i
  rw [payload, heq, ← append_assoc]
  exact drop_left' (by rw [length_append, length_checksummed, h.length_superTransport, hip,
    h.hdrLen])

theorem drop_superSegment (i : Nat) :
    (superSegment order input hdr isV6 i).drop hdr.csumStart.toNat =
      checksummed order hdr isV6 (transportProtocol hdr) (clearedIP input hdr isV6)
        (superTransport input hdr isV6 i) (superPiece input hdr i) ++ superPiece input hdr i := by
  obtain ⟨ip, -, hip, heq⟩ := h.superSegment_eq order i
  rw [heq, drop_left' hip]

theorem srcAddr_superSegment (order : ByteOrder) (i : Nat) :
    srcAddr (superSegment order input hdr isV6 i) isV6 = srcAddr (clearedIP input hdr isV6) isV6 := by
  obtain ⟨ip, hdef, hip, heq⟩ := h.superSegment_eq order i
  rw [heq, srcAddr_append_left (by rw [hip, h.csumStart]; exact h.ip_le), hdef,
    srcAddr_ipSegment h.parts.twenty_le]

theorem dstAddr_superSegment (order : ByteOrder) (i : Nat) :
    dstAddr (superSegment order input hdr isV6 i) isV6 = dstAddr (clearedIP input hdr isV6) isV6 := by
  obtain ⟨ip, hdef, hip, heq⟩ := h.superSegment_eq order i
  rw [heq, dstAddr_append_left (by rw [hip, h.csumStart]; exact h.ip_le), hdef,
    dstAddr_ipSegment h.parts.twenty_le]

theorem length_superSegment_sub (order : ByteOrder) (i : Nat) :
    (superSegment order input hdr isV6 i).length - hdr.csumStart.toNat =
      (superTransport input hdr isV6 i).length + (superPiece input hdr i).length := by
  have := h.hdrLen
  rw [h.length_superSegment, h.length_superTransport]
  omega

theorem superTransport_zero (hspare : SpareTransport (transportProtocol hdr) hdr.csumOffset.toNat 2)
    (i : Nat) : slice (superTransport input hdr isV6 i) hdr.csumOffset.toNat 2 = [0, 0] := by
  rw [superTransport,
    slice_transportSegment (by rw [h.length_clearedTransport]; exact h.th_le) hspare]
  exact slice_putUint16_zero (by rw [h.length_transport]; exact h.csum_le)

variable {pos n : Nat}

theorem slice_superSegment_ip (hpos : pos + n ≤ hdr.csumStart.toNat) (i : Nat) :
    slice (superSegment order input hdr isV6 i) pos n =
      slice (ipSegment order isV6 (clearedIP input hdr isV6) i
        (superSegment order input hdr isV6 i).length) pos n := by
  obtain ⟨ip, hdef, hip, heq⟩ := h.superSegment_eq order i
  rw [← hdef, heq, slice_append_left (by omega)]

theorem slice_superSegment_transport (hpos : pos + n ≤ transportHeaderLen input hdr)
    (hcsum : pos + n ≤ hdr.csumOffset.toNat ∨ hdr.csumOffset.toNat + 2 ≤ pos) (i : Nat) :
    slice (superSegment order input hdr isV6 i) (hdr.csumStart.toNat + pos) n =
      slice (superTransport input hdr isV6 i) pos n := by
  have hth := h.length_superTransport i
  have hle := h.csum_le
  obtain ⟨ip, -, hip, heq⟩ := h.superSegment_eq order i
  rw [heq, ← hip, slice_append_right,
    slice_append_left (by rw [length_checksummed, hth]; exact hpos),
    checksummed, slice_putUint16 (by rw [hth]; exact hle) hcsum]

theorem slice_clearedIP (hpos : pos + n ≤ hdr.csumStart.toNat)
    (hcsum : isV6 = true ∨ pos + n ≤ 10 ∨ 12 ≤ pos) :
    slice (clearedIP input hdr isV6) pos n = slice input pos n := by
  have hstart := h.twenty_le
  have hip := h.length_ip
  unfold clearedIP
  cases isV6 with
  | true => exact slice_take hpos
  | false =>
    simp only [Bool.false_eq_true, false_or, if_false] at hcsum ⊢
    rw [slice_putUint16 (by omega) hcsum, slice_take hpos]

theorem slice_clearedTransport (hpos : pos + n ≤ transportHeaderLen input hdr)
    (hcsum : pos + n ≤ hdr.csumOffset.toNat ∨ hdr.csumOffset.toNat + 2 ≤ pos) :
    slice (clearedTransport input hdr) pos n = slice input (hdr.csumStart.toNat + pos) n := by
  have hle := h.csum_le
  have hth := h.length_transport
  have hlen := h.hdrLen
  rw [clearedTransport, slice_putUint16 (by omega) hcsum, slice_slice (by omega)]

theorem seq_lt {i : Nat} (hi : i < segmentCount input hdr) : i * hdr.gsoSize.toNat < 65536 := by
  have := (lt_pieceCount_iff h.gsoSize_pos).mp hi
  have := h.length_payload
  have := h.length_le
  omega

theorem toUInt32_mul {i : Nat} (hi : i < segmentCount input hdr) :
    (hdr.gsoSize * .ofNat i).toUInt32 = .ofNat (i * hdr.gsoSize.toNat) := by
  have hlt := h.seq_lt hi
  have hindex : i < 65536 := Nat.lt_of_le_of_lt (Nat.le_mul_of_pos_right i h.gsoSize_pos) hlt
  apply UInt32.toNat_inj.mp
  rw [UInt16.toNat_toUInt32, UInt16.toNat_mul, UInt16.toNat_ofNat', Nat.mod_eq_of_lt hindex,
    UInt32.toNat_ofNat', Nat.mul_comm]
  omega

section

variable (hfield : ChecksumField hdr)

include hfield

theorem superSegment_seq (htcp : isTCP hdr) {i : Nat} (hi : i < segmentCount input hdr) :
    uint32At (superSegment order input hdr isV6 i) (hdr.csumStart.toNat + 4) =
      uint32At input (hdr.csumStart.toNat + 4) + .ofNat (i * hdr.gsoSize.toNat) := by
  have hspare := hfield.spare
  have hprotocol : transportProtocol hdr = ipprotoTCP := if_pos htcp
  have hth := h.th_le
  rw [SpareTransport, if_pos hprotocol] at hspare
  have hle : 20 ≤ transportHeaderLen input hdr := by
    rwa [minTransportLen, if_pos hprotocol] at hth
  have hlength := h.length_clearedTransport
  have hfirst : uint32At (clearChecksums input hdr isV6) (hdr.csumStart + 4).toNat =
      uint32At input (hdr.csumStart.toNat + 4) := by
    have hat : (hdr.csumStart + 4).toNat = (clearedIP input hdr isV6).length + 4 :=
      h.parts.toNat_add (by show 4 ≤ _; omega)
    rw [hat, h.clearChecksums_eq, uint32At_append_right, uint32At, slice_append_left (by omega),
      h.slice_clearedTransport (by omega) (by omega), ← uint32At]
  rw [uint32At, h.slice_superSegment_transport (by omega) (by omega), ← uint32At,
    superTransport, transportSegment_seq (by rw [hlength]; exact hth) hprotocol, firstSeq,
    if_pos htcp, hfirst,
    h.toUInt32_mul hi]

theorem superSegment_flags (htcp : isTCP hdr) {i : Nat} (hi : i < segmentCount input hdr) :
    byteAt (superSegment order input hdr isV6 i) (hdr.csumStart.toNat + 13) =
      if i + 1 = segmentCount input hdr then byteAt input (hdr.csumStart.toNat + 13)
      else byteAt input (hdr.csumStart.toNat + 13) &&& ~~~(tcpFlagFIN ||| tcpFlagPSH) := by
  have hspare := hfield.spare
  have hprotocol : transportProtocol hdr = ipprotoTCP := if_pos htcp
  have hth := h.th_le
  rw [SpareTransport, if_pos hprotocol] at hspare
  have hle : 20 ≤ transportHeaderLen input hdr := by
    rwa [minTransportLen, if_pos hprotocol] at hth
  have hlast : (payload hdr input).length ≤ i * hdr.gsoSize.toNat + hdr.gsoSize.toNat ↔
      i + 1 = segmentCount input hdr := by
    have hnext := lt_pieceCount_iff h.gsoSize_pos (i := i + 1) (n := (payload hdr input).length)
    rw [Nat.succ_mul] at hnext
    unfold segmentCount at hi ⊢
    omega
  rw [byteAt, h.slice_superSegment_transport (by omega) (by omega), ← byteAt,
    superTransport, transportSegment_flags (by rw [h.length_clearedTransport]; exact hth) hprotocol, byteAt,
    h.slice_clearedTransport (by omega) (by omega), ← byteAt]
  simp only [decide_eq_true_eq, hlast]

theorem superSegment_udpLen (hudp : isTCP hdr = false) (i : Nat) :
    (uint16At (superSegment order input hdr isV6 i) (hdr.csumStart.toNat + 4)).toNat +
      hdr.csumStart.toNat = (superSegment order input hdr isV6 i).length := by
  have hspare := hfield.spare
  have hprotocol : transportProtocol hdr = ipprotoUDP := if_neg (by rw [hudp]; decide)
  have hne : transportProtocol hdr ≠ ipprotoTCP := by rw [hprotocol]; decide
  have hth := h.th_le
  have hlen := h.length_superSegment order i
  have hle := h.length_superSegment_le order i
  have hhdr := h.hdrLen
  rw [SpareTransport, if_neg hne] at hspare
  have height : 8 ≤ transportHeaderLen input hdr := by
    rwa [minTransportLen, if_neg hne] at hth
  rw [uint16At, h.slice_superSegment_transport (by omega) (by omega), ← uint16At,
    superTransport, transportSegment_udpLen (by rw [h.length_clearedTransport]; exact hth) hne,
    h.length_clearedTransport, ← UInt16.ofNat_add, UInt16.toNat_ofNat', Nat.mod_eq_of_lt (by omega)]
  omega

theorem superSegment_checksum (i : Nat) : checksumRef (pseudoHeader isV6 (transportProtocol hdr)
      (srcAddr (superSegment order input hdr isV6 i) isV6)
      (dstAddr (superSegment order input hdr isV6 i) isV6)
      (.ofNat ((superSegment order input hdr isV6 i).length - hdr.csumStart.toNat)) ++
        (superSegment order input hdr isV6 i).drop hdr.csumStart.toNat) 0 = 65535 := by
  rw [h.srcAddr_superSegment, h.dstAddr_superSegment, h.length_superSegment_sub, h.drop_superSegment]
  apply checksummed_checksum h.parts.ip_le hfield.even
  · rw [h.length_superTransport]
    exact h.csum_le
  · exact h.superTransport_zero hfield.spare i

end

theorem isSegment (hfield : ChecksumField hdr) {i : Nat} (hi : i < segmentCount input hdr) :
    IsSegment input hdr isV6 i (superSegment order input hdr isV6 i) where
  size := by
    intro hnext
    have := (lt_pieceCount_iff h.gsoSize_pos).mp hnext
    rw [Nat.succ_mul] at this
    rw [h.payload_superSegment, superPiece, length_slice (by omega)]
  id := by
    rintro rfl
    have hstart := h.twenty_le
    rw [uint16At, h.slice_superSegment_ip (by omega), ← uint16At,
      ipSegment_id (by rw [h.length_clearedIP]; exact hstart), uint16At,
      h.slice_clearedIP (by omega) (by omega), ← uint16At]
  seq_lt := h.seq_lt hi
  seq := fun htcp => h.superSegment_seq hfield htcp hi
  flags := fun htcp => h.superSegment_flags hfield htcp hi
  totalLen := by
    rintro rfl
    have hstart := h.twenty_le
    have hle := h.length_superSegment_le order i
    rw [uint16At, h.slice_superSegment_ip (by omega), ← uint16At,
      ipSegment_totalLen (by rw [h.length_clearedIP]; exact hstart), UInt16.toNat_ofNat',
      Nat.mod_eq_of_lt (by omega)]
  payloadLen := by
    rintro rfl
    have hstart := h.twenty_le
    have hcsum : hdr.csumStart.toNat = 40 := h.csumStart
    have hle := h.length_superSegment_le order i
    have hlen := h.length_superSegment order i
    have := h.hdrLen
    rw [uint16At, h.slice_superSegment_ip (by omega), ← uint16At,
      ipSegment_payloadLen (by rw [h.length_clearedIP]; exact hstart), UInt16.toNat_ofNat',
      Nat.mod_eq_of_lt (by omega), h.length_clearedIP]
    omega
  udpLen := fun hudp => h.superSegment_udpLen hfield hudp i
  ipChecksum := by
    rintro rfl
    have htwenty := h.twenty_le
    have hip := h.length_clearedIP
    obtain ⟨ip, hdef, hstart, heq⟩ := h.superSegment_eq order i
    rw [heq, take_left' hstart, hdef]
    exact ipSegment_checksum (by omega) (slice_putUint16_zero (by rw [h.length_ip]; omega))
  checksum := h.superSegment_checksum hfield i

end Superpacket

end

end StarlingWg.Tun
