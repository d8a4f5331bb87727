import StarlingWg.Tun.Packet

namespace StarlingWg.Tun

open EndAround Buffer

def tcpFlagFIN : UInt8 := 0x01

def tcpFlagPSH : UInt8 := 0x08

abbrev virtioNetHdrLen : Nat := 10

-- The constants of golang.org/x/sys/unix.
def ipprotoTCP : UInt8 := 6

def ipprotoUDP : UInt8 := 17

def needsCsum : UInt8 := 1

def gsoNone : UInt8 := 0

def gsoTCPV4 : UInt8 := 1

def gsoTCPV6 : UInt8 := 4

def gsoUDPL4 : UInt8 := 5

structure VirtioNetHdr where
  flags : UInt8 := 0
  gsoType : UInt8 := 0
  hdrLen : UInt16 := 0
  gsoSize : UInt16 := 0
  csumStart : UInt16 := 0
  csumOffset : UInt16 := 0
  deriving DecidableEq, Repr

section

variable (order : ByteOrder)

namespace VirtioNetHdr

-- The header in memory, with its fields in the byte order of the host.
def bytes (v : VirtioNetHdr) : Bytes :=
  [v.flags, v.gsoType] ++ (order.bytes 2 v.hdrLen.toNat ++ (order.bytes 2 v.gsoSize.toNat ++
    (order.bytes 2 v.csumStart.toNat ++ order.bytes 2 v.csumOffset.toNat)))

def decode (b : Bytes) : Except String VirtioNetHdr :=
  if b.length < virtioNetHdrLen then .error "short buffer"
  else .ok {
    flags := byteAt b 0
    gsoType := byteAt b 1
    hdrLen := .ofNat (order.value (slice b 2 2))
    gsoSize := .ofNat (order.value (slice b 4 2))
    csumStart := .ofNat (order.value (slice b 6 2))
    csumOffset := .ofNat (order.value (slice b 8 2)) }

end VirtioNetHdr

structure Slot where
  buf : Bytes
  size : Nat
  deriving DecidableEq, Repr

def Slot.packet (outOffset : Nat) (slot : Slot) : Bytes :=
  slice slot.buf outOffset slot.size

structure ReadResult where
  slots : List Slot
  n : Int
  err : Option String
  deriving DecidableEq, Repr

def errTooManySegments : String := "too many segments"

section

-- The superpacket with its checksums cleared, its header, the transport
-- protocol and the first sequence number.
variable (input : Bytes) (hdr : VirtioNetHdr) (isV6 : Bool) (protocol : UInt8)
  (firstTCPSeqNum : UInt32)

def segmentEnd (nextSegmentDataAt : Nat) : Nat :=
  if input.length < nextSegmentDataAt + hdr.gsoSize.toNat then input.length
  else nextSegmentDataAt + hdr.gsoSize.toNat

def copyIPHeader (i totalLen : Nat) (out : Bytes) : Bytes :=
  let iphLen := hdr.csumStart.toNat
  let out := copyAt out 0 (input.take iphLen)
  if isV6 then putUint16 out 4 (.ofNat (totalLen - iphLen))
  else
    let out := if 0 < i then putUint16 out 4 (uint16At out 4 + .ofNat i) else out
    let out := putUint16 out 2 (.ofNat totalLen)
    putUint16 out 10 (~~~(checksum order (out.take iphLen) 0))

def copyTransportHeader (i : Nat) (last : Bool) (segmentDataLen : Nat) (out : Bytes) :
    Bytes :=
  let start := hdr.csumStart.toNat
  let out := copyAt out start (slice input start (hdr.hdrLen.toNat - start))
  if protocol = ipprotoTCP then
    let tcpSeq := firstTCPSeqNum + (hdr.gsoSize * .ofNat i).toUInt32
    let out := putUint32 out (hdr.csumStart + 4).toNat tcpSeq
    if last then out
    else
      let flags := (hdr.csumStart + 13).toNat
      setByte out flags (byteAt out flags &&& ~~~(tcpFlagFIN ||| tcpFlagPSH))
  else
    putUint16 out (hdr.csumStart + 4).toNat (.ofNat segmentDataLen + (hdr.hdrLen - hdr.csumStart))

def putTransportChecksum (totalLen segmentDataLen : Nat) (out : Bytes) : Bytes :=
  let transportHeaderLen := (hdr.hdrLen - hdr.csumStart).toNat
  let lenForPseudo : UInt16 := .ofNat (transportHeaderLen + segmentDataLen)
  let transportCSumNoFold := pseudoHeaderChecksumNoFold order protocol (srcAddr input isV6)
    (dstAddr input isV6) lenForPseudo
  let start := hdr.csumStart.toNat
  let transportCSum := ~~~(checksum order (slice out start (totalLen - start)) transportCSumNoFold)
  putUint16 out (hdr.csumStart + hdr.csumOffset).toNat transportCSum

-- One round of the loop of gsoSplit, from `out := outBuffs[i][outOffset:]` on.
def fillSegment (i nextSegmentDataAt : Nat) (out : Bytes) : Bytes :=
  let nextSegmentEnd := segmentEnd input hdr nextSegmentDataAt
  let segmentDataLen := nextSegmentEnd - nextSegmentDataAt
  let totalLen := hdr.hdrLen.toNat + segmentDataLen
  let out := copyIPHeader order input hdr isV6 i totalLen out
  let out := copyTransportHeader input hdr protocol firstTCPSeqNum i
    (nextSegmentEnd == input.length) segmentDataLen out
  let out := copyAt out hdr.hdrLen.toNat (slice input nextSegmentDataAt segmentDataLen)
  putTransportChecksum order input hdr isV6 protocol totalLen segmentDataLen out

def fillSlot (outOffset i nextSegmentDataAt : Nat) (slot : Slot) : Slot where
  buf := slot.buf.take outOffset ++
    fillSegment order input hdr isV6 protocol firstTCPSeqNum i nextSegmentDataAt
      (slot.buf.drop outOffset)
  size := hdr.hdrLen.toNat + (segmentEnd input hdr nextSegmentDataAt - nextSegmentDataAt)

-- for ; nextSegmentDataAt < len(in); i++. The buffers end it even when the
-- position does not move.
def splitLoop (outOffset : Nat) : (i nextSegmentDataAt : Nat) → List Slot → ReadResult
  | i, nextSegmentDataAt, [] =>
    if nextSegmentDataAt < input.length then ⟨[], (i : Int) - 1, some errTooManySegments⟩
    else ⟨[], i, none⟩
  | i, nextSegmentDataAt, slot :: slots =>
    if nextSegmentDataAt < input.length then
      let rest := splitLoop outOffset (i + 1) (nextSegmentDataAt + hdr.gsoSize.toNat) slots
      ⟨fillSlot order input hdr isV6 protocol firstTCPSeqNum outOffset i nextSegmentDataAt slot ::
        rest.slots, rest.n, rest.err⟩
    else ⟨slot :: slots, i, none⟩

end

-- What gsoSplit makes of its input first: the checksums are cleared.
def clearChecksums (input : Bytes) (hdr : VirtioNetHdr) (isV6 : Bool) : Bytes :=
  let input := if isV6 then input else putUint16 input 10 0
  putUint16 input (hdr.csumStart + hdr.csumOffset).toNat 0

def isTCP (hdr : VirtioNetHdr) : Bool :=
  hdr.gsoType == gsoTCPV4 || hdr.gsoType == gsoTCPV6

def gsoSplit (input : Bytes) (hdr : VirtioNetHdr) (slots : List Slot) (outOffset : Nat)
    (isV6 : Bool) : ReadResult :=
  let input := clearChecksums input hdr isV6
  let protocol := if isTCP hdr then ipprotoTCP else ipprotoUDP
  let firstTCPSeqNum := if isTCP hdr then uint32At input (hdr.csumStart + 4).toNat else 0
  splitLoop order input hdr isV6 protocol firstTCPSeqNum outOffset 0 hdr.hdrLen.toNat slots

def gsoNoneChecksum (input : Bytes) (cSumStart cSumOffset : UInt16) : Bytes :=
  let cSumAt := (cSumStart + cSumOffset).toNat
  let initial := uint16At input cSumAt
  let input := putUint16 input cSumAt 0
  putUint16 input cSumAt (~~~(checksum order (input.drop cSumStart.toNat) initial.toUInt64))

-- The transport header length, which is not taken from the header.
def parseHdrLen (input : Bytes) (hdr : VirtioNetHdr) : Except String VirtioNetHdr :=
  if hdr.gsoType = gsoUDPL4 then .ok { hdr with hdrLen := hdr.csumStart + 8 }
  else if input.length ≤ (hdr.csumStart + 12).toNat then .error "packet is too short"
  else
    let tcpHLen := ((byteAt input (hdr.csumStart + 12).toNat >>> 4) * 4).toUInt16
    if tcpHLen < 20 ∨ 60 < tcpHLen then
      .error ("tcp header len is invalid: " ++ toString tcpHLen.toNat)
    else .ok { hdr with hdrLen := hdr.csumStart + tcpHLen }

def checkVersion (ipVersion gsoType : UInt8) : Except String Unit :=
  if ipVersion = 4 then
    if gsoType ≠ gsoTCPV4 ∧ gsoType ≠ gsoUDPL4 then
      .error ("ip header version: " ++ toString ipVersion.toNat ++ ", GSO type: " ++
        toString gsoType.toNat)
    else .ok ()
  else if ipVersion = 6 then
    if gsoType ≠ gsoTCPV6 ∧ gsoType ≠ gsoUDPL4 then
      .error ("ip header version: " ++ toString ipVersion.toNat ++ ", GSO type: " ++
        toString gsoType.toNat)
    else .ok ()
  else .error ("invalid ip header version: " ++ toString ipVersion.toNat)

-- The checks in front of gsoSplit, and the header with which it is called.
def checkVirtioRead (input : Bytes) (hdr : VirtioNetHdr) : Except String VirtioNetHdr := do
  if hdr.gsoType ≠ gsoTCPV4 ∧ hdr.gsoType ≠ gsoTCPV6 ∧ hdr.gsoType ≠ gsoUDPL4 then
    throw ("unsupported virtio GSO type: " ++ toString hdr.gsoType.toNat)
  checkVersion (byteAt input 0 >>> 4) hdr.gsoType
  let hdr ← parseHdrLen input hdr
  if input.length < hdr.hdrLen.toNat then
    throw ("length of packet (" ++ toString input.length ++ ") < virtioNetHdr.hdrLen (" ++
      toString hdr.hdrLen.toNat ++ ")")
  if hdr.hdrLen < hdr.csumStart then
    throw ("virtioNetHdr.hdrLen (" ++ toString hdr.hdrLen.toNat ++ ") < virtioNetHdr.csumStart (" ++
      toString hdr.csumStart.toNat ++ ")")
  let cSumAt := (hdr.csumStart + hdr.csumOffset).toNat
  if input.length ≤ cSumAt + 1 then
    throw ("end of checksum offset (" ++ toString (cSumAt + 1) ++ ") exceeds packet length (" ++
      toString input.length ++ ")")
  return hdr

-- A packet that is not split goes to the first buffer.
def readWhole (input : Bytes) (offset : Nat) : List Slot → ReadResult
  | [] => ⟨[], 0, none⟩
  | slot :: slots =>
    let room := slot.buf.length - offset
    if room < input.length then
      ⟨slot :: slots, 0, some ("read len " ++ toString input.length ++
        " overflows bufs element len " ++ toString room)⟩
    else
      ⟨⟨slot.buf.take offset ++ copyAt (slot.buf.drop offset) 0 input, input.length⟩ :: slots, 1,
        none⟩

def handleVirtioRead (read : Bytes) (slots : List Slot) (offset : Nat) : ReadResult :=
  match VirtioNetHdr.decode order read with
  | .error err => ⟨slots, 0, some err⟩
  | .ok hdr =>
    let input := read.drop virtioNetHdrLen
    if hdr.gsoType = gsoNone then
      let input := if hdr.flags &&& needsCsum ≠ 0 then
          gsoNoneChecksum order input hdr.csumStart hdr.csumOffset
        else input
      readWhole input offset slots
    else
      match checkVirtioRead input hdr with
      | .error err => ⟨slots, 0, some err⟩
      | .ok hdr => gsoSplit order input hdr slots offset (byteAt input 0 >>> 4 == 6)

end

-- The packets that RoutineReadFromTUN goes on with after a read of n buffers.
def packetsRead (n : Int) (slots : List Slot) (offset : Nat) : List Bytes :=
  ((slots.take n.toNat).filter fun slot => 1 ≤ slot.size).map (Slot.packet offset)

end StarlingWg.Tun
