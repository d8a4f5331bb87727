import StarlingWg.Tun.Superpacket

namespace StarlingWg.Tun

open EndAround Buffer List

variable {order : ByteOrder} {input : Bytes} {hdr : VirtioNetHdr} {isV6 : Bool}
  {slots : List Slot} {outOffset : Nat}

theorem packetsRead_eq {n : Int}
    (h : ∀ packet ∈ (slots.take n.toNat).map (Slot.packet outOffset), 0 < packet.length) :
    packetsRead n slots outOffset = (slots.take n.toNat).map (Slot.packet outOffset) := by
  rw [packetsRead, filter_eq_self.mpr]
  intro slot hslot
  have hpos := h (slot.packet outOffset) (mem_map_of_mem hslot)
  have hle : (slot.packet outOffset).length ≤ slot.size := length_take_le _ _
  rw [decide_eq_true_eq]
  omega

namespace Splits

variable {segmentOf : Nat → Bytes} {count : Nat} {r : ReadResult}

theorem length_slots (h : Splits segmentOf outOffset count 0 slots r) : r.slots.length = slots.length := by
  have hdrop := congrArg List.length h.rest
  have htake := congrArg List.length h.packets
  simp only [length_map, length_take, length_drop, length_range] at hdrop htake
  omega

theorem take_packets (h : Splits segmentOf outOffset count 0 slots r) {m : Nat}
    (hm : m ≤ min slots.length count) :
    (r.slots.take m).map (Slot.packet outOffset) = (List.range m).map segmentOf := by
  have hpackets := congrArg (List.take m) h.packets
  rw [Nat.sub_zero, ← map_take, take_take, ← map_take, take_range,
    Nat.min_eq_left (by omega), Nat.min_eq_left hm] at hpackets
  rw [hpackets]
  exact map_congr_left fun j _ => by rw [Nat.zero_add]

theorem packetsRead_eq (h : Splits segmentOf outOffset count 0 slots r)
    (hpos : ∀ i, 0 < (segmentOf i).length) (hn : r.n.toNat ≤ min slots.length count) :
    packetsRead r.n r.slots outOffset = (List.range r.n.toNat).map segmentOf := by
  rw [Tun.packetsRead_eq, h.take_packets hn]
  rw [h.take_packets hn]
  intro packet hpacket
  obtain ⟨i, -, rfl⟩ := mem_map.mp hpacket
  exact hpos i

end Splits

theorem roomy_of_le
    (h : ∀ slot ∈ slots, outOffset + (hdr.hdrLen.toNat + hdr.gsoSize.toNat) ≤ slot.buf.length) :
    Roomy hdr (payload hdr input) outOffset 0 slots := by
  intro j slot hslot _
  have hle := h slot (mem_of_getElem? hslot)
  have hpiece : (slice (payload hdr input) ((0 + j) * hdr.gsoSize.toNat) hdr.gsoSize.toNat).length ≤
      hdr.gsoSize.toNat := length_take_le _ _
  omega

theorem Superpacket.length_pos (h : Superpacket input hdr isV6) (i : Nat) :
    0 < (superSegment order input hdr isV6 i).length := by
  have := h.hdrLen
  have := h.twenty_le
  rw [h.length_superSegment]
  omega

theorem Superpacket.map_payload (h : Superpacket input hdr isV6) :
    (((List.range (segmentCount input hdr)).map (superSegment order input hdr isV6)).map
      (payload hdr)).flatten = payload hdr input := by
  rw [map_map]
  have hpieces : (List.range (segmentCount input hdr)).map
      (payload hdr ∘ superSegment order input hdr isV6) =
        pieces hdr.gsoSize.toNat (payload hdr input) :=
    map_congr_left fun i _ => h.payload_superSegment i
  rw [hpieces, flatten_pieces h.gsoSize_pos]

-- With a slot for every segment.
theorem gsoSplit_correct (order : ByteOrder) (h : Superpacket input hdr isV6) (hfield : ChecksumField hdr)
    (hslots : segmentCount input hdr ≤ slots.length)
    (hroom : Roomy hdr (payload hdr input) outOffset 0 slots) :
    let r := gsoSplit order input hdr slots outOffset isV6
    let packets := packetsRead r.n r.slots outOffset
    r.err = none ∧ r.n = segmentCount input hdr ∧ packets.length = segmentCount input hdr ∧
      (packets.map (payload hdr)).flatten = payload hdr input ∧
      ∀ i packet, packets[i]? = some packet → IsSegment input hdr isV6 i packet := by
  intro r packets
  have hsplits := h.gsoSplit_splits order hroom
  have hn : r.n = segmentCount input hdr := by
    rw [hsplits.n, if_pos (by omega)]
  have hcount : r.n.toNat = segmentCount input hdr := by
    rw [hn, Int.toNat_natCast]
  have hpackets : packets =
      (List.range (segmentCount input hdr)).map (superSegment order input hdr isV6) := by
    have hle : r.n.toNat ≤ min slots.length (segmentCount input hdr) := by
      omega
    rw [← hcount]
    exact hsplits.packetsRead_eq h.length_pos hle
  refine ⟨?_, hn, ?_, ?_, ?_⟩
  · rw [hsplits.err, if_pos (by omega)]
  · rw [hpackets, length_map, length_range]
  · rw [hpackets, h.map_payload]
  · intro i packet hpacket
    rw [hpackets, List.getElem?_map, Option.map_eq_some_iff] at hpacket
    obtain ⟨j, hj, rfl⟩ := hpacket
    obtain ⟨hlt, heq⟩ := List.getElem?_eq_some_iff.mp hj
    rw [getElem_range] at heq
    rw [length_range] at hlt
    subst heq
    exact h.isSegment hfield hlt

def tcpInput : Bytes :=
  [0x45, 0, 0, 42, 0, 0, 0, 0, 64, 6, 0, 0, 10, 0, 0, 1, 10, 0, 0, 2] ++
    [0, 1, 0, 2, 0, 0, 0, 5, 0, 0, 0, 0, 0x50, 0x18, 0, 0, 0, 0, 0, 0] ++ [7, 8]

def tcpHdr (csumOffset : UInt16) : VirtioNetHdr :=
  { gsoType := gsoTCPV4, hdrLen := 40, gsoSize := 1, csumStart := 20, csumOffset }

def emptySlot (n : Nat) : Slot :=
  ⟨List.replicate n 0, 0⟩

theorem superpacket_tcpInput {csumOffset : UInt16} (h : csumOffset.toNat + 2 ≤ 20) :
    Superpacket tcpInput (tcpHdr csumOffset) false := by
  have hth : transportHeaderLen tcpInput (tcpHdr csumOffset) = 20 := by
    show (byteAt tcpInput 32 >>> 4).toNat * 4 = 20
    decide
  refine ⟨by decide, by decide, .inr rfl, ?_, by decide, ?_, ?_, ?_, ?_, ?_⟩
  · show 20 = ipHeaderLen tcpInput false
    decide
  · rw [hth]
    rfl
  · rw [hth]
    show 20 ≤ 20
    decide
  · show 40 ≤ 42
    decide
  · show 0 < 1
    decide
  · rw [hth]
    exact h

theorem gsoSplit_correct_two :
    let r := gsoSplit .little tcpInput (tcpHdr 16) [emptySlot 41, emptySlot 41] 0 false
    r.n = 2 ∧ (packetsRead r.n r.slots 0).map (uint32At · 24) = [5, 6] ∧
      ∀ i packet, (packetsRead r.n r.slots 0)[i]? = some packet →
        IsSegment tcpInput (tcpHdr 16) false i packet := by
  have hroom : Roomy (tcpHdr 16) (payload (tcpHdr 16) tcpInput) 0 0 [emptySlot 41, emptySlot 41] :=
    roomy_of_le (by decide)
  have hcorrect := gsoSplit_correct .little (superpacket_tcpInput (by decide))
    ⟨by decide, by decide⟩ (by decide) hroom
  exact ⟨hcorrect.2.1, by decide +kernel, hcorrect.2.2.2.2⟩

theorem sequence_overwritten :
    Superpacket tcpInput (tcpHdr 4) false ∧ checkVirtioRead tcpInput (tcpHdr 4) = .ok (tcpHdr 4) ∧
      Roomy (tcpHdr 4) (payload (tcpHdr 4) tcpInput) 0 0 [emptySlot 41, emptySlot 41] ∧
      let r := gsoSplit .little tcpInput (tcpHdr 4) [emptySlot 41, emptySlot 41] 0 false
      r.n = 2 ∧ (packetsRead r.n r.slots 0).map (uint32At · 24) ≠ [5, 6] :=
  ⟨superpacket_tcpInput (by decide), rfl, roomy_of_le (by decide), by decide +kernel⟩

theorem Superpacket.n_gsoSplit (h : Superpacket input hdr isV6) (order : ByteOrder)
    (hroom : Roomy hdr (payload hdr input) outOffset 0 slots) :
    (gsoSplit order input hdr slots outOffset isV6).n =
      if segmentCount input hdr ≤ slots.length then (segmentCount input hdr : Int)
      else slots.length - 1 := by
  have hn := (h.gsoSplit_splits order hroom).n
  rwa [Nat.zero_add, Int.natCast_zero, Int.zero_add] at hn

theorem Superpacket.packetsRead_gsoSplit (h : Superpacket input hdr isV6) (order : ByteOrder)
    (hroom : Roomy hdr (payload hdr input) outOffset 0 slots) :
    packetsRead (gsoSplit order input hdr slots outOffset isV6).n
        (gsoSplit order input hdr slots outOffset isV6).slots outOffset =
      (List.range (gsoSplit order input hdr slots outOffset isV6).n.toNat).map
        (superSegment order input hdr isV6) := by
  apply (h.gsoSplit_splits order hroom).packetsRead_eq h.length_pos
  rw [h.n_gsoSplit order hroom]
  split <;> omega

-- Out of slots, the count is one less than the slots filled.
theorem gsoSplit_reported (order : ByteOrder) (h : Superpacket input hdr isV6)
    (hroom : Roomy hdr (payload hdr input) outOffset 0 slots) :
    let r := gsoSplit order input hdr slots outOffset isV6
    let filled := min slots.length (segmentCount input hdr)
    ((r.slots.take filled).map (Slot.packet outOffset) =
        (List.range filled).map (superSegment order input hdr isV6) ∧
      r.slots.drop filled = slots.drop filled) ∧
    (r.err = if segmentCount input hdr ≤ slots.length then none else some errTooManySegments) ∧
    (r.n = filled ↔ segmentCount input hdr ≤ slots.length) ∧
    (packetsRead r.n r.slots outOffset =
        (List.range filled).map (superSegment order input hdr isV6) ↔
      segmentCount input hdr ≤ slots.length ∨ slots = []) ∧
    (0 ≤ r.n ↔ segmentCount input hdr ≤ slots.length ∨ slots ≠ []) := by
  intro r filled
  have hsplits := h.gsoSplit_splits order hroom
  have hlength := hsplits.length_slots
  have hn : r.n = if segmentCount input hdr ≤ slots.length then (segmentCount input hdr : Int)
      else slots.length - 1 := h.n_gsoSplit order hroom
  have hempty : slots = [] ↔ slots.length = 0 := length_eq_zero_iff.symm
  have hread : packetsRead r.n r.slots outOffset =
      (List.range r.n.toNat).map (superSegment order input hdr isV6) :=
    h.packetsRead_gsoSplit order hroom
  refine ⟨⟨hsplits.take_packets (Nat.le_refl _), ?_⟩, ?_, ?_, ?_, ?_⟩
  · have hrest := hsplits.rest
    rcases Nat.le_total (segmentCount input hdr) slots.length with hle | hle
    · have hfilled : filled = segmentCount input hdr := Nat.min_eq_right hle
      rw [hfilled]
      exact hrest
    · have hfilled : filled = slots.length := Nat.min_eq_left hle
      rw [hfilled, drop_length, ← hlength]
      exact drop_length
  · have herr := hsplits.err
    rwa [Nat.zero_add] at herr
  · rw [hn]
    split <;> omega
  · have hcount : r.n.toNat = filled ↔ segmentCount input hdr ≤ slots.length ∨ slots = [] := by
      rw [hn, hempty]
      split <;> omega
    rw [hread, ← hcount]
    refine ⟨fun heq => ?_, fun heq => by rw [heq]⟩
    have hlengths := congrArg List.length heq
    rwa [length_map, length_map, length_range, length_range] at hlengths
  · rw [hn, ne_eq, hempty]
    split <;> omega

theorem gsoSplit_reported_two :
    let r := gsoSplit .little tcpInput (tcpHdr 16) [emptySlot 41, emptySlot 41] 0 false
    r.n = 2 ∧ r.err = none := by
  have hroom : Roomy (tcpHdr 16) (payload (tcpHdr 16) tcpInput) 0 0 [emptySlot 41, emptySlot 41] :=
    roomy_of_le (by decide)
  have hreported := gsoSplit_reported .little (superpacket_tcpInput (by decide)) hroom
  exact ⟨hreported.2.2.1.mpr (by decide), hreported.2.1⟩

theorem filled_not_counted :
    let r := gsoSplit .little tcpInput (tcpHdr 16) [emptySlot 41] 0 false
    Superpacket tcpInput (tcpHdr 16) false ∧
      Roomy (tcpHdr 16) (payload (tcpHdr 16) tcpInput) 0 0 [emptySlot 41] ∧
      r.slots.map (Slot.packet 0) = [superSegment .little tcpInput (tcpHdr 16) false 0] ∧
      r.n = 0 ∧ packetsRead r.n r.slots 0 = [] ∧
      (gsoSplit .little tcpInput (tcpHdr 16) [] 0 false).n = -1 :=
  ⟨superpacket_tcpInput (by decide), roomy_of_le (by decide), by decide +kernel⟩

theorem uint16At_complement_eq_zero_iff {p : Bytes} {pos : Nat} (h : pos + 2 ≤ p.length) {v : UInt16} :
    uint16At (putUint16 p pos (~~~v)) pos = 0 ↔ v.toNat = 65535 := by
  rw [uint16At_putUint16 h, ← UInt16.toNat_inj, UInt16.toNat_not, UInt16.toNat_zero]
  have hlt := v.toNat_lt
  have hsize : UInt16.size = 65536 := rfl
  omega

theorem Superpacket.checksum_eq_zero_iff (h : Superpacket input hdr isV6) (order : ByteOrder)
    (hspare : SpareTransport (transportProtocol hdr) hdr.csumOffset.toNat 2) (i : Nat) :
    let packet := superSegment order input hdr isV6 i
    uint16At packet (hdr.csumStart.toNat + hdr.csumOffset.toNat) = 0 ↔
      checksumRef (pseudoHeader isV6 (transportProtocol hdr) (srcAddr packet isV6)
        (dstAddr packet isV6) (.ofNat (packet.length - hdr.csumStart.toNat)) ++
          putUint16 (packet.drop hdr.csumStart.toNat) hdr.csumOffset.toNat 0) 0 = 65535 := by
  intro packet
  have hcsum : hdr.csumOffset.toNat + 2 ≤ (superTransport input hdr isV6 i).length := by
    rw [h.length_superTransport]
    exact h.csum_le
  have hfield : uint16At packet (hdr.csumStart.toNat + hdr.csumOffset.toNat) =
      uint16At (checksummed order hdr isV6 (transportProtocol hdr) (clearedIP input hdr isV6)
        (superTransport input hdr isV6 i) (superPiece input hdr i)) hdr.csumOffset.toNat := by
    obtain ⟨ip, -, hip, heq⟩ := h.superSegment_eq order i
    rw [← hip]
    show uint16At (superSegment order input hdr isV6 i) _ = _
    rw [heq, uint16At_append_right, uint16At_append_left (by rw [length_checksummed]; exact hcsum)]
  have hcleared : putUint16 (packet.drop hdr.csumStart.toNat) hdr.csumOffset.toNat 0 =
      superTransport input hdr isV6 i ++ superPiece input hdr i := by
    rw [h.drop_superSegment, putUint16_append_left (by rw [length_checksummed]; exact hcsum),
      checksummed, putUint16_putUint16 hcsum, putUint16_zero hcsum (h.superTransport_zero hspare i)]
  rw [hfield, hcleared, checksummed, uint16At_complement_eq_zero_iff hcsum,
    checksum_pseudoHeader_eq_ref (even_length_srcAddr h.parts.ip_le)
      (even_length_dstAddr h.parts.ip_le) isV6,
    ← h.length_superSegment_sub order, ← h.srcAddr_superSegment order i,
    ← h.dstAddr_superSegment order i]

theorem gsoNoneChecksum_eq_zero_iff {cSumStart cSumOffset : UInt16}
    (h : cSumStart.toNat + cSumOffset.toNat + 2 ≤ input.length) (hlength : input.length ≤ 65535) :
    uint16At (gsoNoneChecksum order input cSumStart cSumOffset)
        (cSumStart.toNat + cSumOffset.toNat) = 0 ↔
      checksumRef ((putUint16 input (cSumStart.toNat + cSumOffset.toNat) 0).drop cSumStart.toNat)
        (uint16At input (cSumStart.toNat + cSumOffset.toNat)).toNat = 65535 := by
  have hat : (cSumStart + cSumOffset).toNat = cSumStart.toNat + cSumOffset.toNat := by
    rw [UInt16.toNat_add, Nat.mod_eq_of_lt (by omega)]
  rw [gsoNoneChecksum, hat, uint16At_complement_eq_zero_iff (by rw [length_putUint16]; exact h),
    checksum_eq_ref, UInt16.toNat_toUInt64]

-- A zero sum is not sent as all ones.
theorem udp_checksum_zero_iff (order : ByteOrder) :
    (∀ (input : Bytes) (hdr : VirtioNetHdr) (isV6 : Bool) (slots : List Slot) (outOffset : Nat),
      Superpacket input hdr isV6 → hdr.gsoType = gsoUDPL4 → hdr.csumOffset = 6 →
      Roomy hdr (payload hdr input) outOffset 0 slots →
      let r := gsoSplit order input hdr slots outOffset isV6
      ∀ packet ∈ packetsRead r.n r.slots outOffset, (uint16At packet (hdr.csumStart.toNat + 6) = 0 ↔
          checksumRef (pseudoHeader isV6 ipprotoUDP (srcAddr packet isV6) (dstAddr packet isV6)
            (.ofNat (packet.length - hdr.csumStart.toNat)) ++
              putUint16 (packet.drop hdr.csumStart.toNat) 6 0) 0 = 65535)) ∧
    ∀ (input : Bytes) (cSumStart : UInt16), cSumStart.toNat + 8 ≤ input.length →
      input.length ≤ 65535 →
      (uint16At (gsoNoneChecksum order input cSumStart 6) (cSumStart.toNat + 6) = 0 ↔
        checksumRef ((putUint16 input (cSumStart.toNat + 6) 0).drop cSumStart.toNat)
          (uint16At input (cSumStart.toNat + 6)).toNat = 65535) := by
  refine ⟨?_, fun input cSumStart h hlength => gsoNoneChecksum_eq_zero_iff h hlength⟩
  intro input hdr isV6 slots outOffset h hudp hoffset hroom r packet hpacket
  have hprotocol : transportProtocol hdr = ipprotoUDP := by
    rw [transportProtocol, isTCP, hudp]
    rfl
  have hspare : SpareTransport (transportProtocol hdr) hdr.csumOffset.toNat 2 := by
    rw [hprotocol, hoffset]
    decide
  have hsix : hdr.csumOffset.toNat = 6 := by
    rw [hoffset]
    rfl
  rw [h.packetsRead_gsoSplit order hroom] at hpacket
  obtain ⟨i, -, rfl⟩ := mem_map.mp hpacket
  have hiff := h.checksum_eq_zero_iff order hspare i
  rwa [hsix, hprotocol] at hiff

-- A UDP packet over IPv6, and one over IPv4 with the sum of its pseudo header in
-- the field. The last two bytes are free.
def udpInputV6 (hi lo : UInt8) : Bytes :=
  [0x60, 0, 0, 0, 0, 10, 17, 64] ++ [0, 0, 0, 0, 0, 0, 0, 0, 0, 0, 0, 0, 0, 0, 0, 1] ++
    [0, 0, 0, 0, 0, 0, 0, 0, 0, 0, 0, 0, 0, 0, 0, 2] ++ [0, 1, 0, 2, 0, 10, 0, 0] ++ [hi, lo]

def udpInputV4 (hi lo : UInt8) : Bytes :=
  [0x45, 0, 0, 30, 0, 0, 0, 0, 64, 17, 0, 0, 10, 0, 0, 1, 10, 0, 0, 2] ++
    [0, 1, 0, 2, 0, 10, 0x14, 0x1e] ++ [hi, lo]

def udpHdr : VirtioNetHdr :=
  { gsoType := gsoUDPL4, hdrLen := 48, gsoSize := 2, csumStart := 40, csumOffset := 6 }

theorem superpacket_udpInputV6 (hi lo : UInt8) : Superpacket (udpInputV6 hi lo) udpHdr true where
  length_le := by show 50 ≤ 65535; decide
  version := by show (0x60 : UInt8) >>> 4 = 6; decide
  gsoType := .inl rfl
  csumStart := rfl
  ip_le := by show 40 ≤ 40; decide
  hdrLen := rfl
  th_le := by show 8 ≤ 8; decide
  hdrLen_le := by show 48 ≤ 50; decide
  gsoSize_pos := by decide
  csum_le := by show 8 ≤ 8; decide

theorem udp_checksum_zero_iff_sample :
    (uint16At (gsoNoneChecksum .little (udpInputV4 0 0) 20 6) 26 = 0 ↔
      checksumRef ((putUint16 (udpInputV4 0 0) 26 0).drop 20)
        (uint16At (udpInputV4 0 0) 26).toNat = 65535) ∧
    ∀ packet ∈ packetsRead (gsoSplit .little (udpInputV6 0 0) udpHdr [emptySlot 50] 0 true).n
        (gsoSplit .little (udpInputV6 0 0) udpHdr [emptySlot 50] 0 true).slots 0,
      (uint16At packet 46 = 0 ↔
        checksumRef (pseudoHeader true ipprotoUDP (srcAddr packet true) (dstAddr packet true)
          (.ofNat (packet.length - 40)) ++ putUint16 (packet.drop 40) 6 0) 0 = 65535) :=
  ⟨(udp_checksum_zero_iff .little).2 (udpInputV4 0 0) 20 (by decide) (by decide),
    (udp_checksum_zero_iff .little).1 (udpInputV6 0 0) udpHdr true [emptySlot 50] 0
      (superpacket_udpInputV6 0 0) rfl rfl (roomy_of_le (by decide))⟩

theorem zero_checksum_written : Superpacket (udpInputV6 0xff 0xd4) udpHdr true ∧
      Roomy udpHdr (payload udpHdr (udpInputV6 0xff 0xd4)) 0 0 [emptySlot 50] ∧
      (let r := gsoSplit .little (udpInputV6 0xff 0xd4) udpHdr [emptySlot 50] 0 true
      (packetsRead r.n r.slots 0).map (uint16At · 46) = [0]) ∧
      uint16At (gsoNoneChecksum .little (udpInputV4 0xeb 0xd4) 20 6) 26 = 0 :=
  ⟨superpacket_udpInputV6 _ _, roomy_of_le (by decide), by decide +kernel, by decide +kernel⟩

end StarlingWg.Tun
