import Mathlib.Data.LawfulXor.Basic
import StarlingWg.Device.Config

namespace StarlingWg.Device

open Control List Option

def messageUnknownType : UInt32 := 0

abbrev messageInitiationSize : Nat := 148

abbrev messageResponseSize : Nat := 92

abbrev messageCookieReplySize : Nat := 64

abbrev messageTransportHeaderSize : Nat := 16

-- binary.LittleEndian.
def putUint32 (v : UInt32) : Bytes :=
  [.ofNat v.toNat, .ofNat (v.toNat / 256), .ofNat (v.toNat / 65536), .ofNat (v.toNat / 16777216)]

def uint32 : Bytes → UInt32
  | b0 :: b1 :: b2 :: b3 :: _ =>
    .ofNat (b0.toNat + b1.toNat * 256 + b2.toNat * 65536 + b3.toNat * 16777216)
  | _ => 0

def putUint64 (v : UInt64) : Bytes :=
  putUint32 (.ofNat (v.toNat % 4294967296)) ++ putUint32 (.ofNat (v.toNat / 4294967296))

theorem putUint32_uint32 (b0 b1 b2 b3 : UInt8) :
    putUint32 (uint32 [b0, b1, b2, b3]) = [b0, b1, b2, b3] := by
  have h0 := b0.toNat_lt
  have h1 := b1.toNat_lt
  have h2 := b2.toNat_lt
  have h3 := b3.toNat_lt
  simp only [putUint32, uint32, List.cons.injEq, and_true, ← UInt8.toNat_inj, UInt8.toNat_ofNat',
    UInt32.toNat_ofNat']
  omega

theorem uint32_putUint32 (v : UInt32) : uint32 (putUint32 v) = v := by
  have hv := v.toNat_lt
  simp only [putUint32, uint32, ← UInt32.toNat_inj, UInt8.toNat_ofNat', UInt32.toNat_ofNat']
  omega

theorem putUint32_inj {v w : UInt32} (h : putUint32 v = putUint32 w) : v = w := by
  rw [← uint32_putUint32 v, h, uint32_putUint32]

@[simp] theorem putUint32_length (v : UInt32) : (putUint32 v).length = 4 := rfl

@[simp] theorem putUint64_length (v : UInt64) : (putUint64 v).length = 8 := rfl

theorem exists_putUint64 (bytes : Bytes) (h : bytes.length = 8) :
    ∃ v : UInt64, putUint64 v = bytes := by
  match bytes, h with
  | [b0, b1, b2, b3, b4, b5, b6, b7], _ =>
    let lo := uint32 [b0, b1, b2, b3]
    let hi := uint32 [b4, b5, b6, b7]
    have hlo := lo.toNat_lt
    have hhi := hi.toNat_lt
    refine ⟨.ofNat (lo.toNat + hi.toNat * 4294967296), ?_⟩
    have hlow : (lo.toNat + hi.toNat * 4294967296) % 4294967296 = lo.toNat := by omega
    have hhigh : (lo.toNat + hi.toNat * 4294967296) / 4294967296 = hi.toNat := by omega
    rw [putUint64, UInt64.toNat_ofNat_of_lt' (by rw [UInt64.size]; omega), hlow, hhigh,
      UInt32.ofNat_toNat, UInt32.ofNat_toNat, putUint32_uint32, putUint32_uint32]
    rfl

-- A header value that PickOne may return: fastrandn(n) is below n, and 0 for n = 0.
def UintRange.Picks (r : UintRange) (v : UInt32) : Prop :=
  ∃ draw : UInt32, (draw < r.hi - r.lo + 1 ∨ r.hi - r.lo + 1 = 0 ∧ draw = 0) ∧ v = r.lo + draw

-- The ChaCha20 key stream of a key and a nonce.
abbrev KeyStream := Key → Bytes → Nat → UInt8

section

variable (stream : KeyStream) (device : Settings)

def headerProtectionCipher (salt : Bytes) : Option (Nat → UInt8) :=
  if device.headerProtectionKey = 0 then none else some (stream device.headerProtectionKey salt)

def xorKeyStream (cip : Option (Nat → UInt8)) (bytes : Bytes) : Bytes :=
  match cip with
  | none => bytes
  | some ks => bytes.mapIdx fun i b => b ^^^ ks i

-- The buffer of a handshake message: random bytes, then the message. The salt
-- is the start of the buffer.
def sendHandshake (crypt message : Bytes) : Bytes :=
  crypt ++ xorKeyStream (headerProtectionCipher stream device ((crypt ++ message).take 12)) message

def calculatePaddingSize (packetSize mtu : Nat) : Nat :=
  if mtu = 0 then (packetSize + 15) / 16 * 16 - packetSize
  else
    let lastUnit := if mtu < packetSize then packetSize % mtu else packetSize
    min ((lastUnit + 15) / 16 * 16) mtu - lastUnit

-- None stands for -1. `add` is what PickOne returns.
def randomPaddingAddition (addition : UintRange) (add : UInt32) (packetSize mtu : Nat) :
    Option Nat :=
  if addition = ⟨0, 0⟩ then none
  else if mtu = 0 then some add.toNat
  else
    let packetSize := if mtu < packetSize then packetSize % mtu else packetSize
    some (min add.toNat (mtu - packetSize))

def paddingSize (addition : UintRange) (add : UInt32) (packetSize mtu : Nat) : Nat :=
  (randomPaddingAddition addition add packetSize mtu).getD (calculatePaddingSize packetSize mtu)

-- One element of the encryption queue: its nonce, the index of its receiver,
-- its content, and the sending AEAD of its keypair.
structure Outbound where
  nonce : UInt64
  remoteIndex : UInt32
  packet : Bytes
  send : UInt64 → Bytes → Bytes
  overhead : ∀ nonce plain, (send nonce plain).length = plain.length + 16

def Outbound.sealed (elem : Outbound) (addition : UintRange) (add : UInt32) (mtu : Nat) :
    Bytes :=
  elem.send elem.nonce
    (elem.packet ++ List.replicate (paddingSize addition add elem.packet.length mtu) 0)

-- Seal moves a datagram that the message buffer cannot hold to a new array,
-- and the header is then protected in the old one.
def routineEncryption (maxMessageSize : Nat) (elem : Outbound) (crypt : Bytes)
    (msgType : UInt32) (addition : UintRange) (add : UInt32) (mtu : Nat) : Bytes :=
  let header := putUint32 msgType ++ putUint32 elem.remoteIndex ++ putUint64 elem.nonce
  let masked := xorKeyStream (headerProtectionCipher stream device ((crypt ++ header).take 12)) header
  let sealed := elem.sealed addition add mtu
  crypt ++ (if crypt.length + 16 + sealed.length ≤ maxMessageSize then masked else header) ++ sealed

def typeHash (packet : Bytes) : Bytes :=
  xorKeyStream (headerProtectionCipher stream device (packet.take 12)) [0, 0, 0, 0]

end

def applyHash (src hash : Bytes) : Bytes :=
  List.zipWith (· ^^^ ·) src hash

def readHeader (packet : Bytes) (padding : Nat) (hash : Bytes) : UInt32 :=
  uint32 (applyHash ((packet.drop padding).take 4) hash)

def fits (header : UintRange) (padding : UInt32) (messageSize : Nat) (packet hash : Bytes) :
    Bool :=
  packet.length == padding.toNat + messageSize &&
    header.contains (readHeader packet padding.toNat hash)

def determinePacketTypeAndPadding (device : Settings) (packet : Bytes) (expectedType : UInt32)
    (hash : Bytes) : UInt32 × UInt32 :=
  let headers := device.headers
  let paddings := device.paddings
  let expects := fun type => expectedType == messageUnknownType || expectedType == type
  if expects messageInitiationType &&
      fits headers.init paddings.init messageInitiationSize packet hash then
    (messageInitiationType, paddings.init)
  else if expects messageResponseType &&
      fits headers.response paddings.response messageResponseSize packet hash then
    (messageResponseType, paddings.response)
  else if expects messageCookieReplyType &&
      fits headers.cookie paddings.cookie messageCookieReplySize packet hash then
    (messageCookieReplyType, paddings.cookie)
  else if expects messageTransportType &&
      decide (paddings.transport.toNat + messageTransportHeaderSize ≤ packet.length) &&
      headers.transport.contains (readHeader packet paddings.transport.toNat hash) then
    (messageTransportType, paddings.transport)
  else (messageUnknownType, 0)

section

variable (stream : KeyStream) (device : Settings)

-- The byte the key stream adds at a position of the protected region.
def mask (salt : Bytes) (i : Nat) : UInt8 :=
  if device.headerProtectionKey = 0 then 0 else stream device.headerProtectionKey salt i

def byteOf (v : UInt32) (i : Nat) : UInt8 :=
  (putUint32 v).getD i 0

theorem xorKeyStream_getElem? (salt bytes : Bytes) (i : Nat) :
    (xorKeyStream (headerProtectionCipher stream device salt) bytes)[i]? =
      bytes[i]?.map (· ^^^ mask stream device salt i) := by
  unfold headerProtectionCipher mask
  split
  · simp [xorKeyStream]
  · simp [xorKeyStream]

@[simp] theorem xorKeyStream_length (cip : Option (Nat → UInt8)) (bytes : Bytes) :
    (xorKeyStream cip bytes).length = bytes.length := by
  cases cip <;> simp [xorKeyStream]

theorem typeHash_eq (packet : Bytes) :
    typeHash stream device packet = (List.range 4).map (mask stream device (packet.take 12)) := by
  unfold typeHash headerProtectionCipher mask
  split
  · rfl
  · simp [xorKeyStream, range_succ]

theorem byteOf_ext {v w : UInt32} (h : ∀ i < 4, byteOf v i = byteOf w i) : v = w := by
  apply putUint32_inj
  have h0 := h 0 (by decide)
  have h1 := h 1 (by decide)
  have h2 := h 2 (by decide)
  have h3 := h 3 (by decide)
  simp only [byteOf, putUint32, getD_cons_zero, getD_cons_succ] at h0 h1 h2 h3 ⊢
  rw [h0, h1, h2, h3]

theorem readHeader_eq_iff {packet : Bytes} {offset : Nat} (hlen : offset + 4 ≤ packet.length)
    (v : UInt32) :
    readHeader packet offset (typeHash stream device packet) = v ↔
      ∀ j < 4, packet[offset + j]? =
        some (byteOf v j ^^^ mask stream device (packet.take 12) j) := by
  rw [typeHash_eq]
  generalize mask stream device (packet.take 12) = m
  obtain ⟨a0, a1, a2, a3, hword⟩ : ∃ a0 a1 a2 a3, (packet.drop offset).take 4 = [a0, a1, a2, a3] := by
    have hfour : ((packet.drop offset).take 4).length = 4 := by
      rw [length_take, length_drop]
      omega
    match (packet.drop offset).take 4, hfour with
    | [a0, a1, a2, a3], _ => exact ⟨a0, a1, a2, a3, rfl⟩
  have hget : ∀ j < 4, packet[offset + j]? = [a0, a1, a2, a3][j]? := by
    intro j hj
    rw [← hword, List.getElem?_take_of_lt hj, List.getElem?_drop]
  have hread : readHeader packet offset ((List.range 4).map m) =
      uint32 [a0 ^^^ m 0, a1 ^^^ m 1, a2 ^^^ m 2, a3 ^^^ m 3] := by
    simp [readHeader, applyHash, hword, range_succ]
  rw [hread]
  constructor
  · rintro rfl j hj
    rw [hget j hj]
    have hbytes : ∀ i, byteOf (uint32 [a0 ^^^ m 0, a1 ^^^ m 1, a2 ^^^ m 2, a3 ^^^ m 3]) i =
        [a0 ^^^ m 0, a1 ^^^ m 1, a2 ^^^ m 2, a3 ^^^ m 3].getD i 0 := by
      intro i
      rw [byteOf, putUint32_uint32]
    rw [hbytes]
    match j, hj with
    | 0, _ | 1, _ | 2, _ | 3, _ => simp
  · intro h
    apply byteOf_ext
    intro i hi
    have hi' := h i hi
    rw [hget i hi] at hi'
    rw [byteOf, putUint32_uint32]
    match i, hi with
    | 0, _ | 1, _ | 2, _ | 3, _ =>
      simp only [List.getElem?_cons_zero, List.getElem?_cons_succ, Option.some.injEq] at hi'
      simp [hi']

end

-- The handshake messages, in the order in which the receiver tries them.
inductive Kind
  | init
  | response
  | cookie
  deriving DecidableEq, Repr

def Kind.header (device : Settings) : Kind → UintRange
  | .init => device.headers.init
  | .response => device.headers.response
  | .cookie => device.headers.cookie

def Kind.padding (device : Settings) : Kind → UInt32
  | .init => device.paddings.init
  | .response => device.paddings.response
  | .cookie => device.paddings.cookie

def Kind.size : Kind → Nat
  | .init => messageInitiationSize
  | .response => messageResponseSize
  | .cookie => messageCookieReplySize

def Kind.type : Kind → UInt32
  | .init => messageInitiationType
  | .response => messageResponseType
  | .cookie => messageCookieReplyType

section

variable (stream : KeyStream) (maxMessageSize mtu : Nat) (device : Settings)

structure Agrees : Prop where
  handshake : ∀ (kind : Kind) (crypt body : Bytes) (msgType : UInt32),
    crypt.length = (kind.padding device).toNat → body.length + 4 = kind.size →
    (kind.header device).Picks msgType →
    let packet := sendHandshake stream device crypt (putUint32 msgType ++ body)
    determinePacketTypeAndPadding device packet messageUnknownType
      (typeHash stream device packet) = (kind.type, kind.padding device)
  transport : ∀ (elem : Outbound) (crypt : Bytes) (msgType : UInt32) (addition : UintRange)
    (add : UInt32), crypt.length = device.paddings.transport.toNat →
    device.headers.transport.Picks msgType → addition.Picks add → elem.packet.length ≤ mtu →
    let packet := routineEncryption stream device maxMessageSize elem crypt msgType addition add mtu
    determinePacketTypeAndPadding device packet messageUnknownType
      (typeHash stream device packet) = (messageTransportType, device.paddings.transport)

-- The type field of a transport message can be read as one of a handshake
-- message where the two fields overlap.
def Collides (kind : Kind) : Prop :=
  ∃ (salt : Bytes) (t v : UInt32), salt.length = 12 ∧ device.headers.transport.Picks t ∧
    (kind.header device).contains v = true ∧ ∀ i < 4, ∀ j < 4,
      (kind.padding device).toNat + j = device.paddings.transport.toNat + i →
      byteOf v j = byteOf t i ^^^ mask stream device salt i ^^^ mask stream device salt j

-- No two handshake messages have one size, and where a transport message can
-- have the size of a handshake message, their type fields cannot be confused.
structure Separated : Prop where
  handshake : ∀ sent tried : Kind, sent ≠ tried →
    (sent.padding device).toNat + sent.size ≠ (tried.padding device).toNat + tried.size
  transport : ∀ kind : Kind,
    device.paddings.transport.toNat + 32 ≤ (kind.padding device).toNat + kind.size →
    (kind.padding device).toNat + kind.size ≤ device.paddings.transport.toNat + 32 + mtu →
    ¬Collides stream device kind

end

section

variable {stream : KeyStream} {device : Settings} {r : UintRange}
  {crypt body : Bytes} {kind : Kind} {msgType : UInt32}

theorem UintRange.Picks.contains {v : UInt32} (h : r.Picks v) (hr : r.WellFormed) :
    r.contains v = true := by
  obtain ⟨draw, hdraw, rfl⟩ := h
  have hhi := r.hi.toNat_lt
  have hle := UInt32.le_iff_toNat_le.mp hr
  have hsub : (r.hi - r.lo).toNat = r.hi.toNat - r.lo.toNat := UInt32.toNat_sub_of_le _ _ hr
  have hbound : draw.toNat ≤ r.hi.toNat - r.lo.toNat := by
    rcases hdraw with hlt | ⟨-, rfl⟩
    · have := UInt32.lt_iff_toNat_lt.mp hlt
      rw [UInt32.toNat_add, hsub] at this
      simp only [UInt32.toNat_one] at this
      omega
    · simp
  simp only [UintRange.contains, Bool.and_eq_true, decide_eq_true_eq, UInt32.le_iff_toNat_le,
    UInt32.toNat_add]
  omega

theorem UintRange.WellFormed.picks_lo : r.Picks r.lo := by
  refine ⟨0, ?_, by simp⟩
  by_cases h : r.hi - r.lo + 1 = 0
  · exact .inr ⟨h, rfl⟩
  · exact .inl (UInt32.pos_iff_ne_zero.mpr h)

theorem typeField_getElem? {region rest : Bytes} {t : UInt32} {more : Bytes}
    (hkey : device.headerProtectionKey ≠ 0 → 12 ≤ crypt.length)
    (hregion : region = putUint32 t ++ more) {packet : Bytes}
    (hpacket : packet = crypt ++ xorKeyStream
      (headerProtectionCipher stream device ((crypt ++ region).take 12)) region ++ rest) :
    ∀ i < 4, packet[crypt.length + i]? =
      some (byteOf t i ^^^ mask stream device (packet.take 12) i) := by
  intro i hi
  have hlen : i < (putUint32 t).length := by simpa using hi
  have hmask : mask stream device (packet.take 12) =
      mask stream device ((crypt ++ region).take 12) := by
    -- the receiver takes the start of the datagram for the salt
    funext i
    unfold mask
    split
    · rfl
    · next h =>
        rw [hpacket, append_assoc, take_append_of_le_length (hkey h), take_append_of_le_length (hkey h)]
  rw [hmask, hpacket, append_assoc, List.getElem?_append_right (by omega),
    Nat.add_sub_cancel_left, List.getElem?_append_left (by simp [hregion]; omega),
    xorKeyStream_getElem?, hregion, List.getElem?_append_left hlen]
  simp [byteOf, getD_eq_getElem?_getD, List.getElem?_eq_getElem hlen]

theorem Settings.Valid.crypt_le (h : device.Valid) {padding : UInt32}
    (hp : padding ∈ device.paddings.list) (hcrypt : crypt.length = padding.toNat) :
    device.headerProtectionKey ≠ 0 → 12 ≤ crypt.length := by
  intro hkey
  have hle := UInt32.le_iff_toNat_le.mp (h.shielded hkey padding hp)
  rw [hcrypt]
  exact hle

theorem Kind.padding_mem (kind : Kind) : kind.padding device ∈ device.paddings.list := by
  cases kind <;> simp [Kind.padding, Paddings.list]

theorem Kind.header_wellFormed (kind : Kind) (h : device.Valid) :
    (kind.header device).WellFormed := by
  apply h.wellFormed
  cases kind <;> simp [Kind.header, Headers.list]

theorem handshake_length (hcrypt : crypt.length = (kind.padding device).toNat)
    (hbody : body.length + 4 = kind.size) :
    (sendHandshake stream device crypt (putUint32 msgType ++ body)).length =
      (kind.padding device).toNat + kind.size := by
  simp only [sendHandshake, length_append, xorKeyStream_length, putUint32_length, hcrypt]
  omega

theorem size_add_paddingSize_le (addition : UintRange) (add : UInt32) {size mtu : Nat}
    (hmtu : 0 < mtu) (hsize : size ≤ mtu) : size + paddingSize addition add size mtu ≤ mtu := by
  have hfits : ¬mtu < size := by omega
  unfold paddingSize randomPaddingAddition calculatePaddingSize
  rw [if_neg (by omega : mtu ≠ 0), if_neg hfits]
  by_cases hzero : addition = ⟨0, 0⟩
  · rw [if_pos hzero]
    simp only [getD_none, if_neg (by omega : mtu ≠ 0)]
    omega
  · rw [if_neg hzero]
    simp only [getD_some]
    omega

theorem Outbound.sealed_length (elem : Outbound) (addition : UintRange) (add : UInt32) (mtu : Nat) :
    (elem.sealed addition add mtu).length =
      elem.packet.length + paddingSize addition add elem.packet.length mtu + 16 := by
  simp [Outbound.sealed, elem.overhead]

section

variable {elem : Outbound} {addition : UintRange} {add : UInt32} {mtu maxMessageSize : Nat}

theorem transport_length :
    (routineEncryption stream device maxMessageSize elem crypt msgType addition add mtu).length =
      crypt.length + 16 + (elem.sealed addition add mtu).length := by
  simp only [routineEncryption, apply_ite List.length, length_append, xorKeyStream_length,
    putUint32_length, putUint64_length, ite_self]

theorem routineEncryption_of_fits
    (hfits : crypt.length + 16 + (elem.sealed addition add mtu).length ≤ maxMessageSize) :
    routineEncryption stream device maxMessageSize elem crypt msgType addition add mtu =
      let header := putUint32 msgType ++ putUint32 elem.remoteIndex ++ putUint64 elem.nonce
      crypt ++ xorKeyStream (headerProtectionCipher stream device ((crypt ++ header).take 12)) header ++
        elem.sealed addition add mtu := by
  simp only [routineEncryption, if_pos hfits]

end

theorem handshake_fits (h : device.Valid) (hcrypt : crypt.length = (kind.padding device).toNat)
    (hbody : body.length + 4 = kind.size) (hpick : (kind.header device).Picks msgType) :
    fits (kind.header device) (kind.padding device) kind.size
      (sendHandshake stream device crypt (putUint32 msgType ++ body))
      (typeHash stream device (sendHandshake stream device crypt (putUint32 msgType ++ body))) =
        true := by
  have hlen : (sendHandshake stream device crypt (putUint32 msgType ++ body)).length =
      (kind.padding device).toNat + kind.size := handshake_length hcrypt hbody
  generalize hpacket : sendHandshake stream device crypt (putUint32 msgType ++ body) = packet at hlen ⊢
  have hfield : ∀ i < 4, packet[(kind.padding device).toNat + i]? =
      some (byteOf msgType i ^^^ mask stream device (packet.take 12) i) := by
    have hshape : packet = crypt ++ xorKeyStream (headerProtectionCipher stream device
        ((crypt ++ (putUint32 msgType ++ body)).take 12)) (putUint32 msgType ++ body) ++ [] := by
      rw [← hpacket, append_nil]
      rfl
    rw [← hcrypt]
    exact typeField_getElem? (h.crypt_le kind.padding_mem hcrypt) rfl hshape
  have hread := (readHeader_eq_iff stream device (by omega) msgType).mpr hfield
  simp only [fits, hlen, hread, beq_self_eq_true, Bool.true_and]
  exact hpick.contains (kind.header_wellFormed h)

end

section

variable {device : Settings} {packet hash : Bytes}

theorem determine_unknown : determinePacketTypeAndPadding device packet messageUnknownType hash =
    if fits (Kind.init.header device) (Kind.init.padding device) Kind.init.size packet hash then
      (Kind.init.type, Kind.init.padding device)
    else if fits (Kind.response.header device) (Kind.response.padding device) Kind.response.size
        packet hash then (Kind.response.type, Kind.response.padding device)
    else if fits (Kind.cookie.header device) (Kind.cookie.padding device) Kind.cookie.size
        packet hash then (Kind.cookie.type, Kind.cookie.padding device)
    else if decide (device.paddings.transport.toNat + messageTransportHeaderSize ≤ packet.length) &&
        device.headers.transport.contains
          (readHeader packet device.paddings.transport.toNat hash) then
      (messageTransportType, device.paddings.transport)
    else (messageUnknownType, 0) := by
  simp [determinePacketTypeAndPadding, Kind.header, Kind.padding, Kind.size, Kind.type]

theorem determine_kind {kind : Kind}
    (hfits : fits (kind.header device) (kind.padding device) kind.size packet hash = true)
    (hother : ∀ tried : Kind, tried ≠ kind →
      fits (tried.header device) (tried.padding device) tried.size packet hash = false) :
    determinePacketTypeAndPadding device packet messageUnknownType hash =
      (kind.type, kind.padding device) := by
  rw [determine_unknown]
  cases kind with
  | init => rw [if_pos hfits]
  | response => rw [hother .init (by decide), if_neg (by decide), if_pos hfits]
  | cookie =>
    rw [hother .init (by decide), hother .response (by decide), if_neg (by decide),
      if_neg (by decide), if_pos hfits]

theorem determine_ne_transport {kind : Kind}
    (hfits : fits (kind.header device) (kind.padding device) kind.size packet hash = true) :
    (determinePacketTypeAndPadding device packet messageUnknownType hash).1 ≠
      messageTransportType := by
  rw [determine_unknown]
  split
  · simp [Kind.type, messageInitiationType, messageTransportType]
  split
  · simp [Kind.type, messageResponseType, messageTransportType]
  split
  · simp [Kind.type, messageCookieReplyType, messageTransportType]
  · cases kind <;> contradiction

theorem determine_ne_smaller {sent tried : Kind} (hlt : sent.size < tried.size)
    (hfits : fits (tried.header device) (tried.padding device) tried.size packet hash = true) :
    (determinePacketTypeAndPadding device packet messageUnknownType hash).1 ≠ sent.type := by
  rw [determine_unknown]
  cases tried with
  | init =>
    rw [if_pos hfits]
    cases sent with
    | init => simp at hlt
    | response => exact (by decide : Kind.init.type ≠ Kind.response.type)
    | cookie => exact (by decide : Kind.init.type ≠ Kind.cookie.type)
  | response =>
    cases sent with
    | init => exact absurd hlt (by decide)
    | response => simp at hlt
    | cookie =>
      split
      · exact (by decide : Kind.init.type ≠ Kind.cookie.type)
      · exact (by decide : Kind.response.type ≠ Kind.cookie.type)
  | cookie => cases sent <;> exact absurd hlt (by decide)

theorem fits_eq_true {kind : Kind} :
    fits (kind.header device) (kind.padding device) kind.size packet hash = true ↔
      packet.length = (kind.padding device).toNat + kind.size ∧
        (kind.header device).contains (readHeader packet (kind.padding device).toNat hash) = true := by
  simp [fits]

end

section

variable {stream : KeyStream} {maxMessageSize bound mtu : Nat} {device : Settings}

theorem Separated.determines_transport (h : device.Valid) (hs : Separated stream bound device)
    {elem : Outbound} {crypt packet : Bytes} {msgType add : UInt32} {addition : UintRange}
    (hcrypt : crypt.length = device.paddings.transport.toNat)
    (hpick : device.headers.transport.Picks msgType)
    (hpacket : packet =
      routineEncryption stream device maxMessageSize elem crypt msgType addition add mtu)
    (hfits : crypt.length + 16 + (elem.sealed addition add mtu).length ≤ maxMessageSize)
    (hbound : packet.length ≤ device.paddings.transport.toNat + 32 + bound) :
    determinePacketTypeAndPadding device packet messageUnknownType (typeHash stream device packet) =
      (messageTransportType, device.paddings.transport) := by
  have hwell : device.headers.transport.WellFormed := h.wellFormed _ (by simp [Headers.list])
  have hsealed := elem.sealed_length addition add mtu
  have hlen : packet.length = device.paddings.transport.toNat + 16 +
      (elem.sealed addition add mtu).length := hpacket ▸ hcrypt ▸ transport_length
  have hfield : ∀ i < 4, packet[device.paddings.transport.toNat + i]? =
      some (byteOf msgType i ^^^ mask stream device (packet.take 12) i) :=
    hcrypt ▸ typeField_getElem? (h.crypt_le (by simp [Paddings.list]) hcrypt) rfl
      (hpacket.trans (routineEncryption_of_fits hfits))
  have hnone : ∀ kind : Kind, fits (kind.header device) (kind.padding device) kind.size packet
      (typeHash stream device packet) = false := by
    intro kind
    rw [Bool.eq_false_iff]
    intro hfits
    obtain ⟨hsize, hcontains⟩ := fits_eq_true.mp hfits
    have hfour : 4 ≤ kind.size := by cases kind <;> decide
    have hread := (readHeader_eq_iff stream device (by rw [hsize]; omega) _).mp
      (rfl : readHeader packet (kind.padding device).toNat (typeHash stream device packet) = _)
    refine hs.transport kind (by omega) (by omega) ⟨packet.take 12, msgType, _, ?_, hpick,
      hcontains, fun i hi j hj hij => ?_⟩
    · rw [length_take]
      cases kind <;> simp only [Kind.size] at hsize <;> omega
    · have hbyte := (hread j hj).symm.trans (hij ▸ hfield i hi)
      rw [Option.some.injEq] at hbyte
      rw [← hbyte, xor_cancel_right]
  have hread := (readHeader_eq_iff stream device (by omega) msgType).mpr hfield
  rw [determine_unknown, hnone .init, hnone .response, hnone .cookie, hread,
    hpick.contains hwell, if_neg (by decide), if_neg (by decide), if_neg (by decide), if_pos]
  simp only [Bool.and_true, decide_eq_true_eq, messageTransportHeaderSize]
  omega

theorem Separated.agrees (h : device.Valid) (hs : Separated stream mtu device) (hmtu : 0 < mtu)
    (hmax : device.paddings.transport.toNat + 32 + mtu ≤ maxMessageSize) :
    Agrees stream maxMessageSize mtu device where
  handshake kind crypt body msgType hcrypt hbody hpick := by
    refine determine_kind (handshake_fits h hcrypt hbody hpick) fun tried hne => ?_
    rw [Bool.eq_false_iff]
    intro hfits
    have hlen := (fits_eq_true.mp hfits).1
    rw [handshake_length hcrypt hbody] at hlen
    exact hs.handshake kind tried hne.symm hlen
  transport elem crypt msgType addition add hcrypt hpick _ hsize := by
    have hle := size_add_paddingSize_le addition add hmtu hsize
    have hsealed := elem.sealed_length addition add mtu
    refine hs.determines_transport h hcrypt hpick rfl (by omega) ?_
    rw [transport_length]
    omega

end

section

variable {stream : KeyStream} {maxMessageSize mtu : Nat} {device : Settings}

def forged (stream : KeyStream) (device : Settings) (salt : Bytes)
    (offset : Nat) (v : UInt32) (p : Nat) : UInt8 :=
  if offset ≤ p ∧ p < offset + 4 then
    byteOf v (p - offset) ^^^ mask stream device salt (p - offset)
  else salt.getD p 0

variable {salt : Bytes} {offset p : Nat} {v : UInt32} {kind sent tried : Kind}

theorem forged_window {j : Nat} (hj : j < 4) : forged stream device salt offset v (offset + j) =
      byteOf v j ^^^ mask stream device salt j := by
  unfold forged
  rw [if_pos (by omega), Nat.add_sub_cancel_left]

def forgedPadding (stream : KeyStream) (device : Settings) (salt : Bytes)
    (offset : Nat) (v : UInt32) (size : Nat) : Bytes :=
  (List.range size).map (forged stream device salt offset v)

theorem mask_forgedPadding (h : device.Valid) (hsalt : salt.length = 12) {padding : UInt32}
    (hp : padding ∈ device.paddings.list) (rest : Bytes) :
    mask stream device ((forgedPadding stream device salt (kind.padding device).toNat v
      padding.toNat ++ rest).take 12) = mask stream device salt := by
  funext i
  unfold mask
  split
  · rfl
  · next hkey =>
      have hle : 12 ≤ padding.toNat := UInt32.le_iff_toNat_le.mp (h.shielded hkey padding hp)
      have hoffset : 12 ≤ (kind.padding device).toNat :=
        UInt32.le_iff_toNat_le.mp (h.shielded hkey _ kind.padding_mem)
      congr 1
      apply ext_getElem?
      intro p
      by_cases hp : p < 12
      · rw [List.getElem?_take_of_lt hp, List.getElem?_append_left (by simp [forgedPadding]; omega),
          forgedPadding, List.getElem?_map, List.getElem?_range (by omega), map_some,
          forged, if_neg (by omega), getD_eq_getElem?_getD,
          List.getElem?_eq_getElem (by omega : p < salt.length), getD_some]
      · rw [List.getElem?_eq_none (by simp; omega), List.getElem?_eq_none (by omega)]

theorem Kind.size_gap (hlt : sent.size < tried.size) : sent.size + 4 ≤ tried.size := by
  revert hlt
  cases sent <;> cases tried <;> decide

theorem Kind.size_inj (h : sent.size = tried.size) : sent = tried := by
  revert h
  cases sent <;> cases tried <;> decide

theorem Kind.four_le_size (kind : Kind) : 4 ≤ kind.size := by
  cases kind <;> decide

theorem fits_forged (salt : Bytes) {packet : Bytes}
    (hlen : packet.length = (kind.padding device).toNat + kind.size)
    (hmask : mask stream device (packet.take 12) = mask stream device salt)
    (hv : (kind.header device).contains v = true)
    (hwindow : ∀ j < 4, packet[(kind.padding device).toNat + j]? =
      some (byteOf v j ^^^ mask stream device salt j)) :
    fits (kind.header device) (kind.padding device) kind.size packet
      (typeHash stream device packet) = true := by
  have hfour := kind.four_le_size
  have hread := (readHeader_eq_iff stream device (by omega) v).mpr (hmask ▸ hwindow)
  rw [fits_eq_true, hread]
  exact ⟨hlen, hv⟩

theorem forgedPadding_getElem? {size : Nat}
    (hp : p < size) : (forgedPadding stream device salt offset v size)[p]? =
      some (forged stream device salt offset v p) := by
  simp [forgedPadding, List.getElem?_range hp]

theorem contains_lo {r : UintRange} (h : r.WellFormed) : r.contains r.lo = true := by
  simpa [UintRange.contains, UintRange.WellFormed] using h

theorem Agrees.handshake_sizes (h : device.Valid) (ha : Agrees stream maxMessageSize mtu device)
    (hlt : sent.size < tried.size) :
    (sent.padding device).toNat + sent.size ≠ (tried.padding device).toNat + tried.size := by
  intro hsize
  have hgap := Kind.size_gap hlt
  have hfour := sent.four_le_size
  -- random padding in which the receiver finds the type it tries first
  obtain ⟨crypt, hforged⟩ : ∃ crypt, crypt = forgedPadding stream device (List.replicate 12 0)
    (tried.padding device).toNat (tried.header device).lo (sent.padding device).toNat := ⟨_, rfl⟩
  have hcrypt : crypt.length = (sent.padding device).toNat := by simp [hforged, forgedPadding]
  have hbody : (List.replicate (sent.size - 4) (0 : UInt8)).length + 4 = sent.size := by
    rw [length_replicate]
    omega
  have hresult := ha.handshake sent crypt _ _ hcrypt hbody UintRange.WellFormed.picks_lo
  refine determine_ne_smaller hlt ?_ (congrArg Prod.fst hresult)
  refine fits_forged (List.replicate 12 0) ((handshake_length hcrypt hbody).trans hsize) ?_
    (contains_lo (tried.header_wellFormed h)) fun j hj => ?_
  · rw [hforged]
    exact mask_forgedPadding h (by simp) sent.padding_mem _
  · rw [sendHandshake, List.getElem?_append_left (by omega), hforged,
      forgedPadding_getElem? (by omega), forged_window hj]

-- The content of a forged transport message: n bytes that are sealed to the
-- forged ones, with none added.
theorem exists_outbound (forge : Nat → UInt8) (offset n mtu : Nat) (header : Nat → UInt8) :
    ∃ elem : Outbound, elem.packet.length = n ∧
      putUint32 elem.remoteIndex ++ putUint64 elem.nonce = (List.range 12).map header ∧
      elem.sealed ⟨0, 1⟩ 0 mtu = (List.range (n + 16)).map fun i => forge (offset + i) := by
  obtain ⟨nonce, hnonce⟩ := exists_putUint64 ((List.range 8).map fun i => header (4 + i)) (by simp)
  refine ⟨⟨nonce, uint32 [header 0, header 1, header 2, header 3], List.replicate n 0,
    fun _ plain => (List.range (plain.length + 16)).map fun i => forge (offset + i), by simp⟩,
    length_replicate, ?_, ?_⟩
  · rw [hnonce, putUint32_uint32]
    rfl
  · simp [Outbound.sealed, paddingSize, randomPaddingAddition]

theorem Agrees.not_collides (h : device.Valid) (ha : Agrees stream maxMessageSize mtu device)
    (hmax : device.paddings.transport.toNat + 32 + mtu ≤ maxMessageSize) (kind : Kind)
    (hmin : device.paddings.transport.toNat + 32 ≤ (kind.padding device).toNat + kind.size)
    (hmtu : (kind.padding device).toNat + kind.size ≤ device.paddings.transport.toNat + 32 + mtu) :
    ¬Collides stream device kind := by
  rintro ⟨salt, t, v, hsalt, ht, hv, hoverlap⟩
  have hmem : device.paddings.transport ∈ device.paddings.list := by simp [Paddings.list]
  let forge := forged stream device salt (kind.padding device).toNat v
  obtain ⟨crypt, hforged⟩ : ∃ crypt, crypt = forgedPadding stream device salt
    (kind.padding device).toNat v device.paddings.transport.toNat := ⟨_, rfl⟩
  have hcrypt : crypt.length = device.paddings.transport.toNat := by simp [hforged, forgedPadding]
  -- the rest of the header is forged before the key stream is added to it
  obtain ⟨elem, hsize, hheader, hsealed⟩ := exists_outbound forge
    (device.paddings.transport.toNat + 16)
    ((kind.padding device).toNat + kind.size - (device.paddings.transport.toNat + 32)) mtu
    fun i => forge (device.paddings.transport.toNat + 4 + i) ^^^ mask stream device salt (4 + i)
  obtain ⟨packet, hpacket⟩ : ∃ packet, packet =
    routineEncryption stream device maxMessageSize elem crypt t ⟨0, 1⟩ 0 mtu := ⟨_, rfl⟩
  have hbytes : (elem.sealed ⟨0, 1⟩ 0 mtu).length = (kind.padding device).toNat + kind.size -
      (device.paddings.transport.toNat + 32) + 16 := by simp [hsealed]
  have hlen : packet.length = (kind.padding device).toNat + kind.size := by
    rw [hpacket, transport_length]
    omega
  have hshape : packet = crypt ++ (xorKeyStream (headerProtectionCipher stream device
      ((crypt ++ (putUint32 t ++ (putUint32 elem.remoteIndex ++ putUint64 elem.nonce))).take 12))
      (putUint32 t ++ (putUint32 elem.remoteIndex ++ putUint64 elem.nonce)) ++
        elem.sealed ⟨0, 1⟩ 0 mtu) := by
    rw [hpacket, routineEncryption_of_fits (by omega)]
    simp only [append_assoc]
  have hmask : ∀ rest, mask stream device ((crypt ++ rest).take 12) = mask stream device salt := by
    intro rest
    rw [hforged]
    exact mask_forgedPadding h hsalt hmem rest
  have hresult := ha.transport elem crypt t ⟨0, 1⟩ 0 hcrypt ht ⟨0, by decide, by decide⟩ (by omega)
  rw [← hpacket] at hresult
  refine determine_ne_transport (fits_forged salt hlen (hshape ▸ hmask _) hv fun j hj => ?_)
    (congrArg Prod.fst hresult)
  rw [← forged_window hj, hshape]
  by_cases hpad : (kind.padding device).toNat + j < device.paddings.transport.toNat
  · rw [List.getElem?_append_left (by omega), hforged, forgedPadding_getElem? hpad]
  rw [List.getElem?_append_right (by omega), hcrypt]
  obtain ⟨i, hi⟩ : ∃ i, (kind.padding device).toNat + j = device.paddings.transport.toNat + i :=
    ⟨_, (Nat.add_sub_cancel' (by omega)).symm⟩
  rw [hi, Nat.add_sub_cancel_left]
  by_cases hregion : i < 16
  · rw [List.getElem?_append_left (by simpa using hregion), xorKeyStream_getElem?, hmask, hheader]
    by_cases htype : i < 4
    · have hbyte := hoverlap i htype j hj hi
      rw [List.getElem?_append_left (by simpa using htype), ← hi, forged_window hj, hbyte,
        xor_cancel_right]
      simp [byteOf, List.getElem?_eq_getElem (by simpa using htype : i < (putUint32 t).length)]
    · rw [List.getElem?_append_right (by simp; omega), putUint32_length, List.getElem?_map,
        List.getElem?_range (by omega)]
      have hback : device.paddings.transport.toNat + 4 + (i - 4) =
          device.paddings.transport.toNat + i := by omega
      have hfour : 4 + (i - 4) = i := by omega
      simp [hback, hfour, forge]
  · rw [List.getElem?_append_right (by simp; omega), hsealed, List.getElem?_map]
    have hrange : i - 16 < (kind.padding device).toNat + kind.size -
        (device.paddings.transport.toNat + 32) + 16 := by
      have hsize := kind.four_le_size
      omega
    have hback : device.paddings.transport.toNat + 16 + (i - 16) =
        device.paddings.transport.toNat + i := by omega
    simp only [xorKeyStream_length, length_append, putUint32_length, putUint64_length]
    rw [List.getElem?_range hrange, map_some, hback]

theorem Agrees.separated (h : device.Valid) (ha : Agrees stream maxMessageSize mtu device)
    (hmax : device.paddings.transport.toNat + 32 + mtu ≤ maxMessageSize) :
    Separated stream mtu device where
  handshake sent tried hne := by
    rcases Nat.lt_trichotomy sent.size tried.size with hlt | heq | hlt
    · exact ha.handshake_sizes h hlt
    · exact absurd (Kind.size_inj heq) hne
    · exact (ha.handshake_sizes h hlt).symm
  transport := ha.not_collides h hmax

end

theorem contains_single {v lo : UInt32} (h : (UintRange.mk lo lo).contains v = true) : v = lo := by
  rw [UintRange.contains, Bool.and_eq_true, decide_eq_true_eq, decide_eq_true_eq] at h
  exact UInt32.le_antisymm h.2 h.1

theorem newDevice_separated (stream : KeyStream) (mtu : Nat) :
    Separated stream mtu newDevice := by
  refine ⟨by rintro (_ | _) (_ | _) <;> decide, ?_⟩
  rintro kind - - ⟨salt, t, v, -, htype, hv, hbytes⟩
  have ht : t = 4 := contains_single (htype.contains (by decide))
  have hkind : v = kind.type := by cases kind <;> exact contains_single hv
  have hfirst := hbytes 0 (by decide) 0 (by decide) (by cases kind <;> rfl)
  rw [xor_cancel_right, ht, hkind] at hfirst
  cases kind <;> exact absurd hfirst (by decide)

end StarlingWg.Device
