import StarlingWg.Buffer.Pieces
import StarlingWg.Tun.Split

namespace StarlingWg.Tun

open EndAround Buffer List

section

variable (order : ByteOrder)

def numberedIP (ip : Bytes) (i : Nat) : Bytes :=
  if 0 < i then putUint16 ip 4 (uint16At ip 4 + .ofNat i) else ip

def ipSegment (isV6 : Bool) (ip : Bytes) (i totalLen : Nat) : Bytes :=
  if isV6 then putUint16 ip 4 (.ofNat (totalLen - ip.length))
  else
    let ip := putUint16 (numberedIP ip i) 2 (.ofNat totalLen)
    putUint16 ip 10 (~~~(checksum order ip 0))

def transportSegment (protocol : UInt8) (gsoSize : UInt16) (firstTCPSeqNum : UInt32)
    (th : Bytes) (i : Nat) (last : Bool) (segmentDataLen : Nat) : Bytes :=
  if protocol = ipprotoTCP then
    let th := putUint32 th 4 (firstTCPSeqNum + (gsoSize * .ofNat i).toUInt32)
    if last then th
    else setByte th 13 (byteAt th 13 &&& ~~~(tcpFlagFIN ||| tcpFlagPSH))
  else putUint16 th 4 (.ofNat segmentDataLen + .ofNat th.length)

@[simp] theorem length_numberedIP (ip : Bytes) (i : Nat) : (numberedIP ip i).length = ip.length := by
  unfold numberedIP
  split <;> simp

@[simp] theorem length_ipSegment (isV6 : Bool) (ip : Bytes) (i totalLen : Nat) :
    (ipSegment order isV6 ip i totalLen).length = ip.length := by
  unfold ipSegment
  cases isV6 <;> simp

@[simp] theorem length_transportSegment (protocol : UInt8) (gsoSize : UInt16)
    (firstTCPSeqNum : UInt32) (th : Bytes) (i : Nat) (last : Bool) (segmentDataLen : Nat) :
    (transportSegment protocol gsoSize firstTCPSeqNum th i last segmentDataLen).length =
      th.length := by
  unfold transportSegment
  split
  · dsimp only
    split <;> simp
  · simp

end

section

variable {order : ByteOrder} {input : Bytes} {hdr : VirtioNetHdr} {isV6 : Bool}
  {protocol : UInt8} {firstTCPSeqNum : UInt32} {ip th data : Bytes}

def minTransportLen (protocol : UInt8) : Nat :=
  if protocol = ipprotoTCP then 20 else 8

theorem eight_le_minTransportLen (protocol : UInt8) : 8 ≤ minTransportLen protocol := by
  unfold minTransportLen
  split <;> omega

-- An input in its three parts, with a header that says where they are.
structure Parts (input : Bytes) (hdr : VirtioNetHdr) (isV6 : Bool) (protocol : UInt8)
    (ip th data : Bytes) : Prop where
  eq : input = ip ++ (th ++ data)
  ip_length : ip.length = hdr.csumStart.toNat
  th_length : ip.length + th.length = hdr.hdrLen.toNat
  ip_le : fixedHeaderLen isV6 ≤ ip.length
  th_le : minTransportLen protocol ≤ th.length
  csum_le : hdr.csumOffset.toNat + 2 ≤ th.length

namespace Parts

variable (h : Parts input hdr isV6 protocol ip th data)

include h

theorem twenty_le : 20 ≤ ip.length := by
  have := h.ip_le
  unfold fixedHeaderLen at this
  split at this <;> omega

theorem take_eq : input.take hdr.csumStart.toNat = ip := by
  rw [h.eq, ← h.ip_length, take_left]

theorem slice_eq : slice input hdr.csumStart.toNat (hdr.hdrLen.toNat - hdr.csumStart.toNat) = th := by
  have hth := h.th_length
  rw [h.eq, ← h.ip_length]
  exact slice_middle rfl (by omega)

theorem slice_data (off size : Nat) : slice input (hdr.hdrLen.toNat + off) size = slice data off size := by
  rw [h.eq, ← h.th_length, Nat.add_assoc, slice_append_right, slice_append_right]

theorem length_eq : input.length = hdr.hdrLen.toNat + data.length := by
  have := h.th_length
  rw [h.eq]
  simp only [length_append]
  omega

theorem toNat_add {n : UInt16} (hn : n.toNat ≤ th.length) :
    (hdr.csumStart + n).toNat = ip.length + n.toNat := by
  have := hdr.hdrLen.toNat_lt
  have := h.th_length
  rw [UInt16.toNat_add, ← h.ip_length, Nat.mod_eq_of_lt (by omega)]

theorem toNat_sub : (hdr.hdrLen - hdr.csumStart).toNat = th.length := by
  have := h.th_length
  have hle : hdr.csumStart ≤ hdr.hdrLen := by
    rw [UInt16.le_iff_toNat_le, ← h.ip_length]
    omega
  rw [UInt16.toNat_sub_of_le _ _ hle, ← h.ip_length]
  omega

theorem copyIPHeader_eq {out : Bytes} (hout : ip.length ≤ out.length) (i totalLen : Nat) :
    copyIPHeader order input hdr isV6 i totalLen out =
      ipSegment order isV6 ip i totalLen ++ out.drop ip.length := by
  have hle := h.twenty_le
  unfold copyIPHeader ipSegment numberedIP
  dsimp only
  rw [h.take_eq]
  simp only [copyAt_zero hout, ← h.ip_length]
  cases isV6 with
  | true => exact putUint16_append_left (by omega) _
  | false =>
    simp only [Bool.false_eq_true, if_false]
    by_cases hi : 0 < i
    · simp only [hi, if_true]
      rw [putUint16_append_left (by omega), putUint16_append_left (by simp; omega),
        uint16At_append_left (by omega), take_left' (by simp), putUint16_append_left (by simp; omega)]
    · simp only [hi, if_false]
      rw [putUint16_append_left (by omega), take_left' (by simp),
        putUint16_append_left (by simp; omega)]

theorem copyTransportHeader_eq {a rest : Bytes} (ha : a.length = ip.length)
    (hrest : th.length ≤ rest.length) (i : Nat) (last : Bool) (segmentDataLen : Nat) :
    copyTransportHeader input hdr protocol firstTCPSeqNum i last segmentDataLen (a ++ rest) =
      a ++ (transportSegment protocol hdr.gsoSize firstTCPSeqNum th i last segmentDataLen ++
        rest.drop th.length) := by
  have hth := h.th_le
  have hstart : hdr.csumStart.toNat = a.length + 0 := by rw [← h.ip_length, ha, Nat.add_zero]
  have hlen : hdr.hdrLen - hdr.csumStart = .ofNat th.length := by
    rw [← h.toNat_sub, UInt16.ofNat_toNat]
  have h4 : (hdr.csumStart + 4).toNat = a.length + 4 := by
    have := eight_le_minTransportLen protocol
    rw [h.toNat_add (by show 4 ≤ _; omega), ha]
    rfl
  unfold minTransportLen at hth
  unfold copyTransportHeader transportSegment
  simp only [h.slice_eq]
  rw [hstart, copyAt_append_right, copyAt_zero hrest, h4]
  split at hth
  · next htcp =>
      have h13 : (hdr.csumStart + 13).toNat = a.length + 13 := by
        rw [h.toNat_add (by show 13 ≤ _; omega), ha]
        rfl
      rw [if_pos htcp, if_pos htcp, h13, putUint32_append_right, putUint32_append_left (by omega)]
      cases last with
      | true => rfl
      | false =>
        simp only [Bool.false_eq_true, if_false]
        rw [setByte_append_right, byteAt_append_right, setByte_append_left (by simp; omega),
          byteAt_append_left (by simp; omega)]
  · next hudp =>
      rw [if_neg hudp, if_neg hudp, hlen, putUint16_append_right, putUint16_append_left (by omega)]

end Parts

variable (order hdr isV6 protocol firstTCPSeqNum ip th)

def checksummed (t piece : Bytes) : Bytes :=
  putUint16 t hdr.csumOffset.toNat (~~~(checksum order (t ++ piece)
    (pseudoHeaderChecksumNoFold order protocol (srcAddr ip isV6) (dstAddr ip isV6)
      (.ofNat (t.length + piece.length)))))

def segment (i : Nat) (last : Bool) (piece : Bytes) : Bytes :=
  ipSegment order isV6 ip i (hdr.hdrLen.toNat + piece.length) ++
    (checksummed order hdr isV6 protocol ip
      (transportSegment protocol hdr.gsoSize firstTCPSeqNum th i last piece.length) piece ++ piece)

variable {order hdr isV6 protocol firstTCPSeqNum ip th}

@[simp] theorem length_checksummed (t piece : Bytes) :
    (checksummed order hdr isV6 protocol ip t piece).length = t.length :=
  length_putUint16 _

theorem Parts.putTransportChecksum_eq (h : Parts input hdr isV6 protocol ip th data)
    {a t piece rest : Bytes} (ha : a.length = ip.length) (ht : t.length = th.length) :
    putTransportChecksum order input hdr isV6 protocol (hdr.hdrLen.toNat + piece.length)
        piece.length (a ++ (t ++ (piece ++ rest))) =
      a ++ (checksummed order hdr isV6 protocol ip t piece ++ (piece ++ rest)) := by
  have hcsum := h.csum_le
  have hslice : slice (a ++ (t ++ (piece ++ rest))) hdr.csumStart.toNat
      (hdr.hdrLen.toNat + piece.length - hdr.csumStart.toNat) = t ++ piece := by
    have hth := h.th_length
    rw [← append_assoc t, ← h.ip_length]
    exact slice_middle ha.symm (by rw [length_append]; omega)
  have hsrc : srcAddr input isV6 = srcAddr ip isV6 := by
    rw [h.eq, srcAddr_append_left h.ip_le]
  have hdst : dstAddr input isV6 = dstAddr ip isV6 := by
    rw [h.eq, dstAddr_append_left h.ip_le]
  unfold putTransportChecksum checksummed
  dsimp only
  rw [hslice, hsrc, hdst, h.toNat_sub, h.toNat_add (by omega), ← ha, ht, putUint16_append_right,
    putUint16_append_left (by omega)]

theorem Parts.segmentEnd_eq (h : Parts input hdr isV6 protocol ip th data) {off : Nat}
    (hoff : off ≤ data.length) :
    segmentEnd input hdr (hdr.hdrLen.toNat + off) =
      hdr.hdrLen.toNat + off + (slice data off hdr.gsoSize.toNat).length := by
  have hlen := h.length_eq
  unfold segmentEnd
  rw [slice, length_take, length_drop]
  split <;> omega

theorem Parts.fillSegment_eq (h : Parts input hdr isV6 protocol ip th data) {off : Nat}
    (hoff : off ≤ data.length) (i : Nat) {out : Bytes}
    (hout : hdr.hdrLen.toNat + (slice data off hdr.gsoSize.toNat).length ≤ out.length) :
    fillSegment order input hdr isV6 protocol firstTCPSeqNum i (hdr.hdrLen.toNat + off) out =
      segment order hdr isV6 protocol firstTCPSeqNum ip th i
        (data.length ≤ off + hdr.gsoSize.toNat) (slice data off hdr.gsoSize.toNat) ++
        out.drop (hdr.hdrLen.toNat + (slice data off hdr.gsoSize.toNat).length) := by
  have hth := h.th_length
  have hlen := h.length_eq
  generalize hpiece : slice data off hdr.gsoSize.toNat = piece at hout ⊢
  have hsize : segmentEnd input hdr (hdr.hdrLen.toNat + off) - (hdr.hdrLen.toNat + off) = piece.length := by
    rw [h.segmentEnd_eq hoff, hpiece]
    omega
  have hlast : (segmentEnd input hdr (hdr.hdrLen.toNat + off) == input.length) =
      decide (data.length ≤ off + hdr.gsoSize.toNat) := by
    rw [h.segmentEnd_eq hoff, slice, length_take, length_drop, hlen, Bool.beq_eq_decide_eq]
    apply decide_eq_decide.mpr
    omega
  have hdata : slice input (hdr.hdrLen.toNat + off) piece.length = piece := by
    rw [h.slice_data, ← hpiece, slice_slice_length]
  have hip : (ipSegment order isV6 ip i (hdr.hdrLen.toNat + piece.length)).length = ip.length :=
    length_ipSegment order isV6 ip i _
  have hrest : ((out.drop ip.length).drop th.length).drop piece.length =
      out.drop (hdr.hdrLen.toNat + piece.length) := by
    rw [drop_drop, drop_drop, ← Nat.add_assoc, hth]
  unfold fillSegment segment
  simp only [hsize, hlast, hdata]
  rw [h.copyIPHeader_eq (by omega), h.copyTransportHeader_eq hip (by rw [length_drop]; omega),
    copyAt_append_append (by rw [hip, length_transportSegment, hth])
      (by rw [length_drop, length_drop]; omega),
    hrest, h.putTransportChecksum_eq hip (length_transportSegment ..)]
  simp only [append_assoc]

end

section

variable {order : ByteOrder} {input : Bytes} {hdr : VirtioNetHdr} {isV6 : Bool}
  {protocol : UInt8} {firstTCPSeqNum : UInt32} {ip th data : Bytes} {outOffset : Nat}

variable (order hdr isV6 protocol firstTCPSeqNum ip th data)

def segmentAt (i : Nat) : Bytes :=
  segment order hdr isV6 protocol firstTCPSeqNum ip th i
    (data.length ≤ i * hdr.gsoSize.toNat + hdr.gsoSize.toNat)
    (slice data (i * hdr.gsoSize.toNat) hdr.gsoSize.toNat)

variable {order hdr isV6 protocol firstTCPSeqNum ip th data}

theorem Parts.length_segmentAt (h : Parts input hdr isV6 protocol ip th data) (i : Nat) :
    (segmentAt order hdr isV6 protocol firstTCPSeqNum ip th data i).length =
      hdr.hdrLen.toNat + (slice data (i * hdr.gsoSize.toNat) hdr.gsoSize.toNat).length := by
  have hth := h.th_length
  rw [segmentAt, segment, length_append, length_append, length_ipSegment,
    length_checksummed, length_transportSegment]
  omega

theorem Parts.fillSlot_eq (h : Parts input hdr isV6 protocol ip th data) (order : ByteOrder)
    (firstTCPSeqNum : UInt32) {i : Nat} (hi : i * hdr.gsoSize.toNat ≤ data.length) {slot : Slot}
    (hroom : outOffset + (hdr.hdrLen.toNat +
      (slice data (i * hdr.gsoSize.toNat) hdr.gsoSize.toNat).length) ≤ slot.buf.length) :
    (fillSlot order input hdr isV6 protocol firstTCPSeqNum outOffset i
        (hdr.hdrLen.toNat + i * hdr.gsoSize.toNat) slot).packet outOffset =
      segmentAt order hdr isV6 protocol firstTCPSeqNum ip th data i := by
  have htake : (slot.buf.take outOffset).length = outOffset := by
    rw [length_take]
    omega
  have hsize : (fillSlot order input hdr isV6 protocol firstTCPSeqNum outOffset i
      (hdr.hdrLen.toNat + i * hdr.gsoSize.toNat) slot).size =
        (segmentAt order hdr isV6 protocol firstTCPSeqNum ip th data i).length := by
    rw [h.length_segmentAt, fillSlot, h.segmentEnd_eq hi, Nat.add_sub_cancel_left]
  rw [Slot.packet, hsize, fillSlot, h.fillSegment_eq hi i (by rw [length_drop]; omega)]
  exact slice_middle htake.symm rfl

def Roomy (hdr : VirtioNetHdr) (data : Bytes) (outOffset i : Nat) (slots : List Slot) : Prop :=
  ∀ j slot, slots[j]? = some slot → (i + j) * hdr.gsoSize.toNat < data.length →
    outOffset + (hdr.hdrLen.toNat +
      (slice data ((i + j) * hdr.gsoSize.toNat) hdr.gsoSize.toNat).length) ≤ slot.buf.length

-- What the loop leaves behind, from its i-th round on, when there are `count`
-- segments: it fills as many buffers as it can and leaves the others alone.
structure Splits (segmentOf : Nat → Bytes) (outOffset count i : Nat) (slots : List Slot)
    (r : ReadResult) : Prop where
  packets : (r.slots.take (count - i)).map (Slot.packet outOffset) =
    (List.range (min slots.length (count - i))).map fun j => segmentOf (i + j)
  rest : r.slots.drop (count - i) = slots.drop (count - i)
  n : r.n = if count ≤ i + slots.length then (count : Int) else i + slots.length - 1
  err : r.err = if count ≤ i + slots.length then none else some errTooManySegments

namespace Splits

variable {segmentOf : Nat → Bytes} {count i : Nat} {slot : Slot} {slots : List Slot}

theorem full (h : i < count) :
    Splits segmentOf outOffset count i [] ⟨[], (i : Int) - 1, some errTooManySegments⟩ where
  packets := by simp
  rest := rfl
  n := by rw [if_neg (by rw [length_nil]; omega), length_nil, Int.natCast_zero, Int.add_zero]
  err := by rw [if_neg (by rw [length_nil]; omega)]

theorem done : Splits segmentOf outOffset count count slots ⟨slots, count, none⟩ where
  packets := by simp
  rest := rfl
  n := by rw [if_pos (by omega)]
  err := by rw [if_pos (by omega)]

theorem cons (h : i < count) {r : ReadResult} (hrest : Splits segmentOf outOffset count (i + 1) slots r)
    {filled : Slot} (hfilled : filled.packet outOffset = segmentOf i) :
    Splits segmentOf outOffset count i (slot :: slots) ⟨filled :: r.slots, r.n, r.err⟩ := by
  have hleft : count - i = count - (i + 1) + 1 := by omega
  have hlength : i + (slot :: slots).length = i + 1 + slots.length := by
    rw [length_cons]
    omega
  refine ⟨?_, ?_, ?_, ?_⟩
  · rw [hleft, take_succ_cons, map_cons, hfilled, hrest.packets, length_cons,
      Nat.succ_min_succ, range_succ_eq_map, map_cons, map_map]
    congr 1
    apply map_congr_left
    intro j _
    rw [Function.comp, Nat.add_right_comm]
    rfl
  · rw [hleft, drop_succ_cons, drop_succ_cons, hrest.rest]
  · rw [hlength, hrest.n]
    split
    · rfl
    · rw [length_cons]
      omega
  · rw [hlength, hrest.err]

end Splits

theorem Parts.splitLoop_splits (h : Parts input hdr isV6 protocol ip th data) (order : ByteOrder)
    (firstTCPSeqNum : UInt32) (hsize : 0 < hdr.gsoSize.toNat) {i : Nat} {slots : List Slot}
    (hi : i ≤ pieceCount hdr.gsoSize.toNat data.length) (hroom : Roomy hdr data outOffset i slots) :
    Splits (segmentAt order hdr isV6 protocol firstTCPSeqNum ip th data) outOffset
      (pieceCount hdr.gsoSize.toNat data.length) i slots
      (splitLoop order input hdr isV6 protocol firstTCPSeqNum outOffset i
        (hdr.hdrLen.toNat + i * hdr.gsoSize.toNat) slots) := by
  have hmore : ∀ i, hdr.hdrLen.toNat + i * hdr.gsoSize.toNat < input.length ↔
      i < pieceCount hdr.gsoSize.toNat data.length := by
    intro i
    rw [lt_pieceCount_iff hsize, h.length_eq]
    omega
  induction slots generalizing i with
  | nil =>
    unfold splitLoop
    split
    · next hlt => exact .full ((hmore i).mp hlt)
    · next hge =>
        have hend : i = pieceCount hdr.gsoSize.toNat data.length :=
          Nat.le_antisymm hi (Nat.le_of_not_lt (mt (hmore i).mpr hge))
        rw [hend]
        exact .done
  | cons slot slots ih =>
    unfold splitLoop
    split
    · next hlt =>
        have hlt := (hmore i).mp hlt
        have hfirst := (lt_pieceCount_iff hsize).mp hlt
        have hstep : hdr.hdrLen.toNat + i * hdr.gsoSize.toNat + hdr.gsoSize.toNat =
            hdr.hdrLen.toNat + (i + 1) * hdr.gsoSize.toNat := by ring
        have hnext : Roomy hdr data outOffset (i + 1) slots := by
          intro j slot hslot hj
          rw [Nat.add_right_comm, Nat.add_assoc] at hj ⊢
          exact hroom (j + 1) slot hslot hj
        rw [hstep]
        exact (ih hlt hnext).cons hlt
          (h.fillSlot_eq order firstTCPSeqNum (Nat.le_of_lt hfirst) (hroom 0 slot rfl hfirst))
    · next hge =>
        have hend : i = pieceCount hdr.gsoSize.toNat data.length :=
          Nat.le_antisymm hi (Nat.le_of_not_lt (mt (hmore i).mpr hge))
        rw [hend]
        exact .done

end

end StarlingWg.Tun
