import StarlingWg.Control.Message
import StarlingWg.Wire.Codec

namespace StarlingWg.Control

open Wire Decoder Reads List

def keySize : Nat := 32

def putU16 (v : UInt16) : Bytes := beBytes 2 v.toNat

def putU32 (v : UInt32) : Bytes := beBytes 4 v.toNat

def putU64 (v : UInt64) : Bytes := beBytes 8 v.toNat

def putKey (k : Key) : Bytes := beBytes keySize k.toNat

def putSessionID (id : SessionID) : Bytes := beBytes 16 id.toNat

-- The length is cut to 16 bits; the bytes are all appended.
def putString (s : GoString) : Bytes :=
  putU16 (.ofNat s.bytes.length) ++ s.bytes

def Addr.as16 : Addr → Bytes
  | .invalid => List.replicate 16 0
  | .v4 bits => List.replicate 10 0 ++ [255, 255] ++ beBytes 4 bits.toNat
  | .v6 bits _ => beBytes 16 bits.toNat

def putAddr : Addr → Bytes
  | .v4 bits => 4 :: beBytes 4 bits.toNat
  | addr => 6 :: addr.as16

def putAddrPort (ap : AddrPort) : Bytes :=
  putAddr ap.addr ++ putU16 ap.port

def Message.type : Message → UInt8
  | .hello _ => 1
  | .xInfo _ => 2
  | .natProbeRequest _ => 3
  | .natProbeResponse _ => 4
  | .nativeEndpointReport _ => 5
  | .nativeReady _ => 6
  | .nativeFailed _ => 7
  | .modeDecision _ => 8
  | .cloakedParams _ => 9
  | .ping _ => 10
  | .pong _ => 11
  | .bye _ => 12

def CloakedParams.encodeBody (m : CloakedParams) : Bytes :=
  putU32 m.s1 ++ (putU32 m.s2 ++ (putU32 m.s3 ++ (putU32 m.s4 ++ (putU32 m.h1Lo ++
    (putU32 m.h1Hi ++ (putU32 m.h2Lo ++ (putU32 m.h2Hi ++ (putU32 m.h3Lo ++ (putU32 m.h3Hi ++
      (putU32 m.h4Lo ++ (putU32 m.h4Hi ++ (((if m.hasHeaderProtection then 1 else 0) ::
        putKey m.headerProtectionKey) ++ putAddrPort m.listenEndpoint))))))))))))

def Message.encodeBody : Message → Bytes
  | .hello m => m.role :: (putKey m.wgPublicKey ++ [m.protocolVersion])
  | .xInfo m =>
    putU16 m.probePortA ++ (putU16 m.probePortB ++ (putU16 m.nativeListenPort ++
      putU16 m.cloakedListenPort))
  | .natProbeRequest m => putU64 m.probeID ++ putU16 m.port
  | .natProbeResponse m => putU64 m.probeID ++ putAddrPort m.observedAddr
  | .nativeEndpointReport m => putSessionID m.sessionID ++ putAddrPort m.externalAddr
  | .nativeReady m => putSessionID m.sessionID
  | .nativeFailed m => putSessionID m.sessionID ++ putString m.reason
  | .modeDecision m => (putSessionID m.sessionID ++ [m.mode]) ++ putString m.reason
  | .cloakedParams m => m.encodeBody
  | .ping nonce => putU64 nonce
  | .pong nonce => putU64 nonce
  | .bye reason => putString reason

-- Errors are their texts.
abbrev Getter (α : Type) := Decoder String α

def getU16 : Getter UInt16 := do
  let b ← take 2 "control: truncated u16"
  return .ofNat (beNat b)

def getU32 : Getter UInt32 := do
  let b ← take 4 "control: truncated u32"
  return .ofNat (beNat b)

def getU64 : Getter UInt64 := do
  let b ← take 8 "control: truncated u64"
  return .ofNat (beNat b)

def getString : Getter GoString := do
  let l ← getU16
  let s ← take l.toNat "control: truncated string"
  return ⟨s⟩

def getAddr (family : UInt8) : Getter Addr :=
  if family = 4 then do
    let b ← take 4 "control: truncated v4 addr"
    return .v4 (.ofNat 32 (beNat b))
  else if family = 6 then do
    let b ← take 16 "control: truncated v6 addr"
    return .v6 (.ofNat 128 (beNat b)) ""
  else throw ("control: unknown address family " ++ toString family.toNat)

def getAddrPort : Getter AddrPort := do
  let b ← take 1 "control: truncated addrport"
  let addr ← getAddr (b.headD 0)
  let port ← take 2 "control: truncated port"
  return ⟨addr, .ofNat (beNat port)⟩

def keyOf (b : Bytes) : Key := .ofNat 256 (beNat b)

def sessionIDOf (b : Bytes) : SessionID := .ofNat 128 (beNat b)

def decodeHello : Getter Message := do
  let b ← take (1 + keySize + 1) "control: truncated Hello"
  return .hello ⟨b.headD 0, keyOf ((b.drop 1).take keySize), b.getD (1 + keySize) 0⟩

def decodeXInfo : Getter Message := do
  let probePortA ← getU16
  let probePortB ← getU16
  let nativeListenPort ← getU16
  let cloakedListenPort ← getU16
  return .xInfo ⟨probePortA, probePortB, nativeListenPort, cloakedListenPort⟩

def decodeNATProbeRequest : Getter Message := do
  let probeID ← getU64
  let port ← getU16
  return .natProbeRequest ⟨probeID, port⟩

def decodeNATProbeResponse : Getter Message := do
  let probeID ← getU64
  let observedAddr ← getAddrPort
  return .natProbeResponse ⟨probeID, observedAddr⟩

def decodeNativeEndpointReport : Getter Message := do
  let b ← take 16 "control: truncated NativeEndpointReport"
  let externalAddr ← getAddrPort
  return .nativeEndpointReport ⟨sessionIDOf b, externalAddr⟩

def decodeNativeReady : Getter Message := do
  let b ← take 16 "control: truncated NativeReady"
  return .nativeReady ⟨sessionIDOf b⟩

def decodeNativeFailed : Getter Message := do
  let b ← take 16 "control: truncated NativeFailed"
  let reason ← getString
  return .nativeFailed ⟨sessionIDOf b, reason⟩

def decodeModeDecision : Getter Message := do
  let b ← take 17 "control: truncated ModeDecision"
  let reason ← getString
  return .modeDecision ⟨sessionIDOf (b.take 16), b.getD 16 0, reason⟩

def decodeCloakedParams : Getter Message := do
  let s1 ← getU32
  let s2 ← getU32
  let s3 ← getU32
  let s4 ← getU32
  let h1Lo ← getU32
  let h1Hi ← getU32
  let h2Lo ← getU32
  let h2Hi ← getU32
  let h3Lo ← getU32
  let h3Hi ← getU32
  let h4Lo ← getU32
  let h4Hi ← getU32
  let b ← take (1 + 32) "control: truncated CloakedParams"
  let listenEndpoint ← getAddrPort
  return .cloakedParams
    { s1, s2, s3, s4, h1Lo, h1Hi, h2Lo, h2Hi, h3Lo, h3Hi, h4Lo, h4Hi
      headerProtectionKey := keyOf (b.drop 1)
      hasHeaderProtection := b.headD 0 == 1
      listenEndpoint }

def decodeFields (t : UInt8) : Getter Message :=
  match t.toNat with
  | 1 => decodeHello
  | 2 => decodeXInfo
  | 3 => decodeNATProbeRequest
  | 4 => decodeNATProbeResponse
  | 5 => decodeNativeEndpointReport
  | 6 => decodeNativeReady
  | 7 => decodeNativeFailed
  | 8 => decodeModeDecision
  | 9 => decodeCloakedParams
  | 10 => do
      let nonce ← getU64
      return .ping nonce
  | 11 => do
      let nonce ← getU64
      return .pong nonce
  | 12 => do
      let reason ← getString
      return .bye reason
  | n => throw ("control: unknown message type " ++ toString n)

-- The bytes after the last field are ignored.
def decodeBody (t : UInt8) (body : Bytes) : Except String Message :=
  (decodeFields t body).map Prod.fst

section

def GoString.received (s : GoString) : GoString :=
  ⟨s.bytes.take (s.bytes.length % 65536)⟩

def GoString.lost (s : GoString) : Bytes :=
  s.bytes.drop (s.bytes.length % 65536)

def Addr.received : Addr → Addr
  | .v4 bits => .v4 bits
  | .v6 bits _ => .v6 bits ""
  | .invalid => .v6 0 ""

def AddrPort.received (ap : AddrPort) : AddrPort :=
  { ap with addr := ap.addr.received }

def Message.received : Message → Message
  | .natProbeResponse m => .natProbeResponse { m with observedAddr := m.observedAddr.received }
  | .nativeEndpointReport m =>
    .nativeEndpointReport { m with externalAddr := m.externalAddr.received }
  | .nativeFailed m => .nativeFailed { m with reason := m.reason.received }
  | .modeDecision m => .modeDecision { m with reason := m.reason.received }
  | .cloakedParams m => .cloakedParams { m with listenEndpoint := m.listenEndpoint.received }
  | .bye reason => .bye reason.received
  | m => m

open Decoder (Reads Leaves Finds)

-- The end of a string whose length does not fit.
def Message.lost : Message → Bytes
  | .nativeFailed m => m.reason.lost
  | .modeDecision m => m.reason.lost
  | .bye reason => reason.lost
  | _ => []

theorem getU16_reads (v : UInt16) : Reads getU16 (putU16 v) v := by
  have hread := (take "control: truncated u16" (beBytes_length 2 v.toNat)).map
    fun b => UInt16.ofNat (beNat b)
  rwa [beNat_beBytes v.toNat_lt, UInt16.ofNat_toNat] at hread

theorem getU32_reads (v : UInt32) : Reads getU32 (putU32 v) v := by
  have hread := (take "control: truncated u32" (beBytes_length 4 v.toNat)).map
    fun b => UInt32.ofNat (beNat b)
  rwa [beNat_beBytes v.toNat_lt, UInt32.ofNat_toNat] at hread

theorem getU64_reads (v : UInt64) : Reads getU64 (putU64 v) v := by
  have hread := (take "control: truncated u64" (beBytes_length 8 v.toNat)).map
    fun b => UInt64.ofNat (beNat b)
  rwa [beNat_beBytes v.toNat_lt, UInt64.ofNat_toNat] at hread

theorem keyOf_putKey (k : Key) : keyOf (putKey k) = k :=
  ofNat_beNat (by decide) k

theorem sessionIDOf_putSessionID (id : SessionID) : sessionIDOf (putSessionID id) = id :=
  ofNat_beNat (by decide) id

theorem getString_leaves (s : GoString) : Leaves getString (putString s) s.received s.lost := by
  have hlen : (UInt16.ofNat s.bytes.length).toNat = s.bytes.length % 65536 := UInt16.toNat_ofNat'
  refine (getU16_reads _).bind_leaves ?_
  have hread : Reads (take (s.bytes.length % 65536) "control: truncated string")
      (s.bytes.take (s.bytes.length % 65536)) (s.bytes.take (s.bytes.length % 65536)) :=
    .take _ (length_take_of_le (Nat.mod_le _ _))
  intro rest
  have hmap := hread.map GoString.mk (s.lost ++ rest)
  rwa [← append_assoc, GoString.lost, take_append_drop] at hmap

theorem getAddr_reads (addr : Addr) :
    ∃ family bytes, putAddr addr = family :: bytes ∧ Reads (getAddr family) bytes addr.received := by
  cases addr with
  | invalid =>
    have hzero : BitVec.ofNat 128 (beNat (List.replicate 16 0)) = 0 := by decide
    have hread := (take "control: truncated v6 addr"
      (by decide : (List.replicate 16 (0 : UInt8)).length = 16)).map
        fun b => Addr.v6 (.ofNat 128 (beNat b)) ""
    exact ⟨6, _, rfl, hread⟩
  | v4 bits =>
    have hread := (take "control: truncated v4 addr" (beBytes_length 4 bits.toNat)).map
      fun b => Addr.v4 (.ofNat 32 (beNat b))
    rw [ofNat_beNat (by decide) bits] at hread
    exact ⟨4, _, rfl, hread⟩
  | v6 bits zone =>
    have hread := (take "control: truncated v6 addr" (beBytes_length 16 bits.toNat)).map
      fun b => Addr.v6 (.ofNat 128 (beNat b)) ""
    rw [ofNat_beNat (by decide) bits] at hread
    exact ⟨6, _, rfl, hread⟩

theorem getAddrPort_reads (ap : AddrPort) : Reads getAddrPort (putAddrPort ap) ap.received := by
  obtain ⟨family, bytes, hput, hread⟩ := getAddr_reads ap.addr
  have hbytes : putAddrPort ap = [family] ++ (bytes ++ putU16 ap.port) := by
    rw [putAddrPort, hput]
    rfl
  have hport := (take "control: truncated port" (beBytes_length 2 ap.port.toNat)).map
    fun b => (⟨ap.addr.received, .ofNat (beNat b)⟩ : AddrPort)
  rw [beNat_beBytes ap.port.toNat_lt, UInt16.ofNat_toNat] at hport
  rw [hbytes]
  refine (take "control: truncated addrport" (rfl : [family].length = 1)).bind ?_
  exact hread.bind hport

theorem decodeHello_reads (m : Hello) :
    Reads decodeHello (Message.hello m).encodeBody (.hello m) := by
  have hkey : (putKey m.wgPublicKey).length = keySize := beBytes_length _ _
  have hlen : (Message.hello m).encodeBody.length = 1 + keySize + 1 := by
    simp only [Message.encodeBody, length_cons, length_append, hkey, length_nil]
    omega
  have hread := (take "control: truncated Hello" hlen).map fun b =>
    Message.hello ⟨b.headD 0, keyOf ((b.drop 1).take keySize), b.getD (1 + keySize) 0⟩
  have hmiddle : ((Message.hello m).encodeBody.drop 1).take keySize = putKey m.wgPublicKey :=
    take_left' hkey
  have hlast : (Message.hello m).encodeBody.getD (1 + keySize) 0 = m.protocolVersion := by
    rw [Message.encodeBody, Nat.add_comm, getD_cons_succ, ← hkey]
    simp
  rw [hmiddle, hlast, keyOf_putKey] at hread
  exact hread

theorem decodeModeDecision_leaves (m : ModeDecision) :
    Leaves decodeModeDecision (Message.modeDecision m).encodeBody (Message.modeDecision m).received
      m.reason.lost := by
  have hid : (putSessionID m.sessionID).length = 16 := beBytes_length _ _
  have hlen : (putSessionID m.sessionID ++ [m.mode]).length = 17 := by
    rw [length_append, hid]
    rfl
  have hlast : (putSessionID m.sessionID ++ [m.mode]).getD 16 0 = m.mode := by
    rw [← hid]
    simp
  refine (take "control: truncated ModeDecision" hlen).bind_leaves ?_
  rw [take_left' hid, hlast, sessionIDOf_putSessionID]
  exact (getString_leaves m.reason).map _

theorem decodeCloakedParams_reads (m : CloakedParams) :
    Reads decodeCloakedParams m.encodeBody (Message.cloakedParams m).received := by
  have hlen : ((if m.hasHeaderProtection then (1 : UInt8) else 0) ::
      putKey m.headerProtectionKey).length = 1 + 32 := by
    rw [length_cons, putKey, beBytes_length]
    rfl
  iterate 12 refine (getU32_reads _).bind ?_
  refine (take "control: truncated CloakedParams" hlen).bind ?_
  have hread := (getAddrPort_reads m.listenEndpoint).map fun listenEndpoint =>
    Message.cloakedParams { m with
      headerProtectionKey := keyOf (putKey m.headerProtectionKey)
      hasHeaderProtection := (if m.hasHeaderProtection then (1 : UInt8) else 0) == 1
      listenEndpoint := listenEndpoint }
  have hflag : ((if m.hasHeaderProtection then (1 : UInt8) else 0) == 1) = m.hasHeaderProtection := by
    cases m.hasHeaderProtection <;> decide
  rw [hflag, keyOf_putKey] at hread
  simp only [headD_cons, drop_succ_cons, drop_zero, hflag, keyOf_putKey]
  exact hread

theorem decodeFields_leaves (m : Message) :
    Leaves (decodeFields m.type) m.encodeBody m.received m.lost := by
  have hid : ∀ id : SessionID, (putSessionID id).length = 16 := fun id => beBytes_length _ _
  cases m with
  | hello m => exact decodeHello_reads m
  | xInfo m =>
    refine (getU16_reads _).bind_leaves ((getU16_reads _).bind_leaves ((getU16_reads _).bind_leaves ?_))
    exact (getU16_reads _).map _
  | natProbeRequest m => exact (getU64_reads _).bind_leaves ((getU16_reads _).map _)
  | natProbeResponse m => exact (getU64_reads _).bind_leaves ((getAddrPort_reads _).map _)
  | nativeEndpointReport m =>
    refine (take _ (hid _)).bind_leaves ?_
    rw [sessionIDOf_putSessionID]
    exact (getAddrPort_reads _).map _
  | nativeReady m =>
    have hread := (take "control: truncated NativeReady" (hid m.sessionID)).map
      fun b => Message.nativeReady ⟨sessionIDOf b⟩
    rw [sessionIDOf_putSessionID] at hread
    exact hread
  | nativeFailed m =>
    refine (take _ (hid _)).bind_leaves ?_
    rw [sessionIDOf_putSessionID]
    exact (getString_leaves _).map _
  | modeDecision m => exact decodeModeDecision_leaves m
  | cloakedParams m => exact decodeCloakedParams_reads m
  | ping nonce => exact (getU64_reads _).map _
  | pong nonce => exact (getU64_reads _).map _
  | bye reason => exact (getString_leaves _).map _

theorem decodeBody_encodeBody (m : Message) : decodeBody m.type m.encodeBody = .ok m.received := by
  obtain ⟨rest, hrest⟩ : Finds _ _ _ := (decodeFields_leaves m).finds
  rw [decodeBody, hrest]
  rfl

end

def GoString.Survives (s : GoString) : Prop :=
  s.bytes.length < 65536

def Addr.Survives : Addr → Prop
  | .v4 _ => True
  | .v6 _ zone => zone = ""
  | .invalid => False

def Message.Survives : Message → Prop
  | .natProbeResponse m => m.observedAddr.addr.Survives
  | .nativeEndpointReport m => m.externalAddr.addr.Survives
  | .nativeFailed m => m.reason.Survives
  | .modeDecision m => m.reason.Survives
  | .cloakedParams m => m.listenEndpoint.addr.Survives
  | .bye reason => reason.Survives
  | _ => True

theorem GoString.Survives.received {s : GoString} (h : s.Survives) : s.received = s := by
  rw [GoString.received, Nat.mod_eq_of_lt h, take_length]

theorem Addr.Survives.received {addr : Addr} (h : addr.Survives) : addr.received = addr := by
  cases addr with
  | invalid => exact h.elim
  | v4 bits => rfl
  | v6 bits zone => rw [Addr.received, (h : zone = "")]

theorem AddrPort.received_of_survives {ap : AddrPort} (h : ap.addr.Survives) : ap.received = ap := by
  rw [AddrPort.received, h.received]

theorem Message.Survives.received {m : Message} (h : m.Survives) : m.received = m := by
  cases m with
  | natProbeResponse m => rw [Message.received, AddrPort.received_of_survives h]
  | nativeEndpointReport m => rw [Message.received, AddrPort.received_of_survives h]
  | nativeFailed m => rw [Message.received, GoString.Survives.received h]
  | modeDecision m => rw [Message.received, GoString.Survives.received h]
  | cloakedParams m => rw [Message.received, AddrPort.received_of_survives h]
  | bye reason => rw [Message.received, GoString.Survives.received h]
  | hello _ | xInfo _ | natProbeRequest _ | nativeReady _ | ping _ | pong _ => rfl

section

open Decoder (Returns)

theorem getString_returns : Returns getString GoString.Survives := by
  refine .skip fun l => (Returns.take _ _).bind fun text hlen => .pure ?_
  rw [GoString.Survives, hlen]
  exact l.toNat_lt

theorem getAddrPort_returns : Returns getAddrPort fun ap => ap.addr.Survives := by
  have haddr : ∀ family, Returns (getAddr family) Addr.Survives := by
    intro family
    unfold getAddr
    split
    · exact .skip fun _ => .pure trivial
    split
    · exact .skip fun _ => .pure rfl
    · exact .throw _
  exact .skip fun _ => (haddr _).bind fun _ haddr => .skip fun _ => .pure haddr

theorem decodeFields_returns (t : UInt8) : Returns (decodeFields t) Message.Survives := by
  unfold decodeFields
  split
  · exact .skip fun _ => .pure trivial
  · exact .skip fun _ => .skip fun _ => .skip fun _ => .skip fun _ => .pure trivial
  · exact .skip fun _ => .skip fun _ => .pure trivial
  · exact .skip fun _ => getAddrPort_returns.bind fun _ hap => .pure hap
  · exact .skip fun _ => getAddrPort_returns.bind fun _ hap => .pure hap
  · exact .skip fun _ => .pure trivial
  · exact .skip fun _ => getString_returns.bind fun _ hreason => .pure hreason
  · exact .skip fun _ => getString_returns.bind fun _ hreason => .pure hreason
  · iterate 13 refine .skip fun _ => ?_
    exact getAddrPort_returns.bind fun _ hap => .pure hap
  · exact .skip fun _ => .pure trivial
  · exact .skip fun _ => .pure trivial
  · exact getString_returns.bind fun _ hreason => .pure hreason
  · exact .throw _

theorem decodeBody_survives {t : UInt8} {body : Bytes} {m : Message}
    (h : decodeBody t body = .ok m) : m.Survives := by
  unfold decodeBody at h
  cases hfields : decodeFields t body with
  | error err =>
    rw [hfields] at h
    exact absurd h (by simp [Except.map])
  | ok p =>
    rw [hfields] at h
    rw [← Except.ok.inj h]
    exact decodeFields_returns t body p.1 p.2 hfields

end

end StarlingWg.Control
