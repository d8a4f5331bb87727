import StarlingWg.Device.Classification
import StarlingWg.Noise.Handshake

namespace StarlingWg.Device

open Control List Option

abbrev messageTransportSize : Nat := 32

abbrev minMessageSize : Nat := messageTransportSize

-- bytes[lo:hi], with no result where an index is out of the bytes.
def slice (bytes : Bytes) (lo hi : Nat) : Option Bytes :=
  if lo ≤ hi ∧ hi ≤ bytes.length then some ((bytes.take hi).drop lo) else none

-- applyHash with a destination of `size` bytes.
def applyHashTo (size : Nat) (src hash : Bytes) : Option Bytes :=
  if size ≤ src.length ∧ size ≤ hash.length then
    some (applyHash (src.take size) (hash.take size))
  else none

theorem slice_eq_some {bytes : Bytes} {lo hi : Nat} (hle : lo ≤ hi) (hhi : hi ≤ bytes.length) :
    slice bytes lo hi = some ((bytes.take hi).drop lo) :=
  if_pos ⟨hle, hhi⟩

theorem applyHashTo_eq_some {size : Nat} {src hash : Bytes} (hsrc : src.length = size)
    (hhash : hash.length = size) : applyHashTo size src hash = some (applyHash src hash) := by
  rw [applyHashTo, if_pos ⟨Nat.le_of_eq hsrc.symm, Nat.le_of_eq hhash.symm⟩,
    take_of_length_le (Nat.le_of_eq hsrc), take_of_length_le (Nat.le_of_eq hhash)]

-- What RoutineReceiveIncoming does with one datagram: nothing, an element for
-- the peer of the receiver index, or an element of the handshake queue.
inductive Inbound
  | dropped
  | transport (packet : Bytes) (padding : UInt32) (receiver : UInt32)
  | handshake (msgType : UInt32) (packet : Bytes)
  deriving DecidableEq, Repr

section

variable (device : Settings) (packet : Bytes) (hash : Bytes)

-- The offsets are computed in uint32.
def readHeaderChecked (padding : UInt32) : Option UInt32 := do
  let field ← slice packet padding.toNat (padding + 4).toNat
  let headerBytes ← applyHashTo 4 field hash
  return uint32 headerBytes

def fitsChecked (header : UintRange) (padding : UInt32) (sizeOk : Bool) : Option Bool :=
  if sizeOk then (readHeaderChecked packet hash padding).map header.contains else some false

def determineChecked (expectedType : UInt32) : Option (UInt32 × UInt32) := do
  let headers := device.headers
  let paddings := device.paddings
  let size := packet.length
  let expects := fun type => expectedType == messageUnknownType || expectedType == type
  if ← fitsChecked packet hash headers.init paddings.init
      (expects messageInitiationType && size == paddings.init.toNat + messageInitiationSize) then
    return (messageInitiationType, paddings.init)
  else if ← fitsChecked packet hash headers.response paddings.response
      (expects messageResponseType && size == paddings.response.toNat + messageResponseSize) then
    return (messageResponseType, paddings.response)
  else if ← fitsChecked packet hash headers.cookie paddings.cookie
      (expects messageCookieReplyType && size == paddings.cookie.toNat + messageCookieReplySize) then
    return (messageCookieReplyType, paddings.cookie)
  else if ← fitsChecked packet hash headers.transport paddings.transport
      (expects messageTransportType &&
        decide (paddings.transport.toNat + messageTransportHeaderSize ≤ size)) then
    return (messageTransportType, paddings.transport)
  else return (messageUnknownType, 0)

end

section

-- cip.XORKeyStream(packet[lo:hi], packet[lo:hi]) after `used` bytes of the stream.
def continueKeyStream (cip : Option (Nat → UInt8)) (used lo hi : Nat) (packet : Bytes) :
    Option Bytes :=
  match cip with
  | none => some packet
  | some ks => do
      let region ← slice packet lo hi
      return packet.take lo ++ region.mapIdx (fun i b => b ^^^ ks (used + i)) ++ packet.drop hi

-- applyHash(packet[:4], packet[:4], typeHash).
def unmaskType (cip : Option (Nat → UInt8)) (hash packet : Bytes) : Option Bytes :=
  match cip with
  | none => some packet
  | some _ => do
      let field ← slice packet 0 4
      let type ← applyHashTo field.length field hash
      return type ++ packet.drop 4

def receiveFixed (cip : Option (Nat → UInt8)) (msgType : UInt32) (size : Nat)
    (packet : Bytes) : Option Inbound :=
  if packet.length ≠ size then some .dropped
  else (continueKeyStream cip 4 4 size packet).map (.handshake msgType)

def receiveTransport (cip : Option (Nat → UInt8)) (padding : UInt32) (packet : Bytes) :
    Option Inbound :=
  if packet.length < messageTransportSize then some .dropped
  else do
    let packet ← continueKeyStream cip 4 4 messageTransportHeaderSize packet
    let receiver ← slice packet 4 8
    return .transport packet padding (uint32 receiver)

def receiveMessage (cip : Option (Nat → UInt8)) (msgType padding : UInt32) (packet : Bytes) :
    Option Inbound :=
  if msgType = messageTransportType then receiveTransport cip padding packet
  else if msgType = messageInitiationType then receiveFixed cip msgType messageInitiationSize packet
  else if msgType = messageResponseType then receiveFixed cip msgType messageResponseSize packet
  else if msgType = messageCookieReplyType then
    receiveFixed cip msgType messageCookieReplySize packet
  else some .dropped

variable (stream : KeyStream) (device : Settings)

def receivePacket (packet : Bytes) : Option Inbound := do
  let nonce ← slice packet 0 headerCipherNonceSize.toNat
  let cip := headerProtectionCipher stream device nonce
  let typeHash := xorKeyStream cip [0, 0, 0, 0]
  let determined ← determineChecked device packet typeHash messageUnknownType
  let (msgType, padding) := determined
  let packet ← slice packet padding.toNat packet.length
  let packet ← unmaskType cip typeHash packet
  receiveMessage cip msgType padding packet

-- The body of the loop of RoutineReceiveIncoming for a datagram of `size`
-- bytes in its buffer, up to the lookup of the keypair.
def receiveIncoming (buffer : Bytes) (size : Nat) : Option Inbound :=
  if size < minMessageSize then some .dropped
  else do
    let packet ← slice buffer 0 size
    receivePacket stream device packet

end

def field (packet : Bytes) (lo hi : Nat) : Bytes :=
  (packet.take hi).drop lo

-- binary.Read of the two messages, which have their sizes. The MACs are read
-- from the bytes.
def decodeInitiation (packet : Bytes) : Noise.MessageInitiation Bytes where
  type := (uint32 (field packet 0 4)).toBitVec
  sender := (uint32 (field packet 4 8)).toBitVec
  ephemeral := field packet 8 40
  static := field packet 40 88
  timestamp := field packet 88 116

def decodeResponse (packet : Bytes) : Noise.MessageResponse Bytes where
  type := (uint32 (field packet 0 4)).toBitVec
  sender := (uint32 (field packet 4 8)).toBitVec
  receiver := (uint32 (field packet 8 12)).toBitVec
  ephemeral := field packet 12 44
  empty := field packet 44 60

def readInitiation (msgType : UInt32) (packet : Bytes) :
    Noise.MessageInitiation Bytes :=
  { decodeInitiation packet with type := msgType.toBitVec }

def readResponse (msgType : UInt32) (packet : Bytes) : Noise.MessageResponse Bytes :=
  { decodeResponse packet with type := msgType.toBitVec }

section

variable {device : Settings} {packet hash : Bytes}

theorem readHeaderChecked_eq {padding : UInt32} (hhash : hash.length = 4)
    (hsize : padding.toNat + 4 ≤ packet.length) (hpacket : packet.length ≤ 65535) :
    readHeaderChecked packet hash padding = some (readHeader packet padding.toNat hash) := by
  have hadd : (padding + 4).toNat = padding.toNat + 4 := by
    rw [UInt32.toNat_add]
    exact Nat.mod_eq_of_lt (by simp only [UInt32.reduceToNat]; omega)
  have hfield : ((packet.take (padding.toNat + 4)).drop padding.toNat) =
      (packet.drop padding.toNat).take 4 := by
    rw [drop_take]
    congr 1
    omega
  have hlen : ((packet.drop padding.toNat).take 4).length = 4 := by
    rw [length_take, length_drop]
    omega
  rw [readHeaderChecked, hadd, slice_eq_some (by omega) hsize, hfield, bind_eq_bind,
    bind_some, applyHashTo_eq_some hlen hhash]
  rfl

theorem fitsChecked_eq {header : UintRange} {padding : UInt32} {sizeOk : Bool}
    (hhash : hash.length = 4) (hsize : sizeOk = true → padding.toNat + 4 ≤ packet.length)
    (hpacket : packet.length ≤ 65535) :
    fitsChecked packet hash header padding sizeOk =
      some (sizeOk && header.contains (readHeader packet padding.toNat hash)) := by
  cases sizeOk with
  | false => rfl
  | true =>
    simp only [fitsChecked, if_true, readHeaderChecked_eq hhash (hsize rfl) hpacket,
      map_some, Bool.true_and]

theorem determineChecked_eq (hhash : hash.length = 4) (hpacket : packet.length ≤ 65535)
    (expectedType : UInt32) :
    determineChecked device packet hash expectedType =
      some (determinePacketTypeAndPadding device packet expectedType hash) := by
  have hfixed : ∀ (expects : Bool) (header : UintRange) (padding : UInt32) (size : Nat), 4 ≤ size →
      fitsChecked packet hash header padding (expects && packet.length == padding.toNat + size) =
        some (expects && fits header padding size packet hash) := by
    intro expects header padding size hfour
    rw [fitsChecked_eq hhash ?_ hpacket, fits, Bool.and_assoc]
    intro hok
    simp only [Bool.and_eq_true, beq_iff_eq] at hok
    omega
  have htransport : ∀ expects : Bool,
      fitsChecked packet hash device.headers.transport device.paddings.transport (expects &&
        decide (device.paddings.transport.toNat + messageTransportHeaderSize ≤ packet.length)) =
      some (expects &&
        decide (device.paddings.transport.toNat + messageTransportHeaderSize ≤ packet.length) &&
        device.headers.transport.contains
          (readHeader packet device.paddings.transport.toNat hash)) := by
    intro expects
    refine fitsChecked_eq hhash (fun hok => ?_) hpacket
    simp only [Bool.and_eq_true, decide_eq_true_eq, messageTransportHeaderSize] at hok
    omega
  simp only [determineChecked, hfixed _ _ _ messageInitiationSize (by decide),
    hfixed _ _ _ messageResponseSize (by decide), hfixed _ _ _ messageCookieReplySize (by decide),
    htransport, bind_eq_bind, bind_some, determinePacketTypeAndPadding,
    apply_ite some]
  rfl

theorem determine_padding_le (hfour : 4 ≤ packet.length) :
    (determinePacketTypeAndPadding device packet messageUnknownType hash).2.toNat + 4 ≤
      packet.length := by
  have hfits : ∀ kind : Kind,
      fits (kind.header device) (kind.padding device) kind.size packet hash = true →
      (kind.padding device).toNat + 4 ≤ packet.length := by
    intro kind hfits
    have hlen : packet.length = (kind.padding device).toNat + kind.size := by
      simp only [fits, Bool.and_eq_true, beq_iff_eq] at hfits
      exact hfits.1
    have hsize : 4 ≤ kind.size := by cases kind <;> decide
    omega
  rw [determine_unknown]
  split
  · next h => exact hfits .init h
  split
  · next h => exact hfits .response h
  split
  · next h => exact hfits .cookie h
  split
  · next h =>
      simp only [Bool.and_eq_true, decide_eq_true_eq, messageTransportHeaderSize] at h
      show device.paddings.transport.toNat + 4 ≤ packet.length
      omega
  · exact hfour

end

section

variable {cip : Option (Nat → UInt8)} {packet hash : Bytes}

theorem continueKeyStream_isSome (cip : Option (Nat → UInt8)) (used : Nat) {lo hi : Nat}
    (hle : lo ≤ hi) (hhi : hi ≤ packet.length) :
    ∃ packet', continueKeyStream cip used lo hi packet = some packet' ∧
      packet'.length = packet.length := by
  cases cip with
  | none => exact ⟨packet, rfl, rfl⟩
  | some ks =>
    rw [continueKeyStream, slice_eq_some hle hhi]
    refine ⟨_, rfl, ?_⟩
    simp only [length_append, length_mapIdx, length_take, length_drop]
    omega

theorem unmaskType_isSome (cip : Option (Nat → UInt8)) (hfour : 4 ≤ packet.length)
    (hhash : hash.length = 4) :
    ∃ packet', unmaskType cip hash packet = some packet' ∧ packet'.length = packet.length := by
  cases cip with
  | none => exact ⟨packet, rfl, rfl⟩
  | some ks =>
    have hfield : ((packet.take 4).drop 0).length = 4 := by
      simp only [drop_zero, length_take]
      omega
    rw [unmaskType, slice_eq_some (by omega) hfour, bind_eq_bind, bind_some, hfield,
      applyHashTo_eq_some hfield hhash]
    refine ⟨_, rfl, ?_⟩
    simp only [applyHash, length_append, length_zipWith, hfield, hhash, length_drop]
    omega

variable {msgType padding : UInt32}

theorem receiveFixed_isSome {size : Nat} (hfour : 4 ≤ size) :
    (receiveFixed cip msgType size packet).isSome = true := by
  unfold receiveFixed
  split
  · rfl
  · next hsize =>
      have hlen : size ≤ packet.length := by omega
      obtain ⟨packet', hrun, -⟩ := continueKeyStream_isSome cip 4 hfour hlen
      simp [hrun]

theorem receiveTransport_isSome : (receiveTransport cip padding packet).isSome = true := by
  unfold receiveTransport
  split
  · rfl
  · next hsize =>
      have hlen : 16 ≤ packet.length := by
        simp only [messageTransportSize] at hsize
        omega
      obtain ⟨packet', hrun, hlen'⟩ :=
        continueKeyStream_isSome cip 4 (by decide : 4 ≤ messageTransportHeaderSize) hlen
      have height : 8 ≤ packet'.length := by omega
      rw [hrun, bind_eq_bind, bind_some, slice_eq_some (by omega) height]
      rfl

theorem receiveMessage_isSome : (receiveMessage cip msgType padding packet).isSome = true := by
  unfold receiveMessage
  split
  · exact receiveTransport_isSome
  split
  · exact receiveFixed_isSome (by decide)
  split
  · exact receiveFixed_isSome (by decide)
  split
  · exact receiveFixed_isSome (by decide)
  · rfl

end

section

def cipherOf (stream : KeyStream) (device : Settings) (packet : Bytes) : Option (Nat → UInt8) :=
  headerProtectionCipher stream device (packet.take 12)

abbrev Determined (stream : KeyStream) (device : Settings) (packet : Bytes)
    (msgType padding : UInt32) : Prop :=
  determineChecked device packet (typeHash stream device packet) messageUnknownType =
    some (msgType, padding)

variable {stream : KeyStream} {device : Settings} {packet : Bytes} {msgType padding : UInt32}

theorem receivePacket_eq (hmin : minMessageSize ≤ packet.length)
    (hdetermined : Determined stream device packet msgType padding)
    (hpadding : padding.toNat ≤ packet.length) :
    receivePacket stream device packet =
      (unmaskType (cipherOf stream device packet) (typeHash stream device packet)
        (packet.drop padding.toNat)).bind
      (receiveMessage (cipherOf stream device packet) msgType padding) := by
  have hnonce : slice packet 0 headerCipherNonceSize.toNat = some (packet.take 12) :=
    slice_eq_some (Nat.zero_le _) (Nat.le_trans (by decide) hmin)
  have hrest : slice packet padding.toNat packet.length = some (packet.drop padding.toNat) := by
    rw [slice_eq_some hpadding (Nat.le_refl _), take_length]
  simp only [receivePacket, hnonce, bind_eq_bind, bind_some]
  change (determineChecked device packet (typeHash stream device packet)
    messageUnknownType).bind _ = _
  rw [hdetermined, bind_some]
  rw [hrest, bind_some]
  rfl

theorem receivePacket_isSome (hmin : minMessageSize ≤ packet.length)
    (hmax : packet.length ≤ 65535) : (receivePacket stream device packet).isSome = true := by
  have hhash : (typeHash stream device packet).length = 4 := xorKeyStream_length ..
  obtain ⟨msgType, padding, hdetermined, hpadding⟩ : ∃ msgType padding,
      Determined stream device packet msgType padding ∧ padding.toNat + 4 ≤ packet.length :=
    ⟨_, _, determineChecked_eq hhash hmax _, determine_padding_le (Nat.le_trans (by decide) hmin)⟩
  have hfour : 4 ≤ (packet.drop padding.toNat).length := by
    rw [length_drop]
    omega
  obtain ⟨packet', hunmask, -⟩ :=
    unmaskType_isSome (cipherOf stream device packet) hfour hhash
  rw [receivePacket_eq hmin hdetermined (by omega), hunmask]
  exact receiveMessage_isSome

theorem receiveIncoming_some (stream : KeyStream) (device : Settings)
    {buffer : Bytes} {size : Nat} (hsize : size ≤ buffer.length)
    (hbuffer : buffer.length ≤ 65535) :
    ∃ inbound, receiveIncoming stream device buffer size = some inbound := by
  rw [← isSome_iff_exists]
  unfold receiveIncoming
  split
  · rfl
  · next hmin =>
      have hlen : (buffer.take size).length = size := by
        rw [length_take]
        omega
      rw [slice_eq_some (Nat.zero_le size) hsize, bind_eq_bind, bind_some, drop_zero]
      exact receivePacket_isSome (by omega) (by omega)

-- No slice of the receiver is out of range.
theorem receiveIncoming_isSome (stream : KeyStream) (device : Settings)
    (buffer : Bytes) (size : Nat) (hsize : size ≤ buffer.length)
    (hbuffer : buffer.length ≤ 65535) :
    (receiveIncoming stream device buffer size).isSome = true :=
  isSome_iff_exists.mpr (receiveIncoming_some stream device hsize hbuffer)

theorem receiveIncoming_isSome_zeros :
    (receiveIncoming (fun _ _ _ => 1) newDevice (List.replicate 100 0) 92).isSome = true :=
  receiveIncoming_isSome _ newDevice _ 92 (by decide) (by decide)

end

section

def Outbound.header (elem : Outbound) (msgType : UInt32) : Bytes :=
  putUint32 msgType ++ putUint32 elem.remoteIndex ++ putUint64 elem.nonce

variable {stream : KeyStream} {device : Settings}

def maskFrom (ks : Nat → UInt8) (used : Nat) (bytes : Bytes) : Bytes :=
  bytes.mapIdx fun i b => b ^^^ ks (used + i)

@[simp] theorem maskFrom_length (ks : Nat → UInt8) (used : Nat) (bytes : Bytes) :
    (maskFrom ks used bytes).length = bytes.length :=
  length_mapIdx

theorem maskFrom_maskFrom (ks : Nat → UInt8) (used : Nat) (bytes : Bytes) :
    maskFrom ks used (maskFrom ks used bytes) = bytes := by
  apply ext_getElem?
  intro i
  cases hi : bytes[i]? with
  | none => simp [maskFrom, hi]
  | some b =>
    simp only [maskFrom, List.getElem?_mapIdx, hi, map_some, UInt8.xor_assoc,
      UInt8.xor_self, UInt8.xor_zero]

theorem xorKeyStream_message (ks : Nat → UInt8) (b0 b1 b2 b3 : UInt8) (body : Bytes) :
    xorKeyStream (some ks) (b0 :: b1 :: b2 :: b3 :: body) =
      [b0 ^^^ ks 0, b1 ^^^ ks 1, b2 ^^^ ks 2, b3 ^^^ ks 3] ++ maskFrom ks 4 body := by
  have hshift : ∀ i, 4 + i = i + 1 + 1 + 1 + 1 := fun i => by omega
  simp only [xorKeyStream, mapIdx_cons, maskFrom, hshift]
  rfl

theorem unmaskType_masked (ks : Nat → UInt8) (b0 b1 b2 b3 : UInt8) (rest : Bytes) :
    unmaskType (some ks) (xorKeyStream (some ks) [0, 0, 0, 0])
      ([b0 ^^^ ks 0, b1 ^^^ ks 1, b2 ^^^ ks 2, b3 ^^^ ks 3] ++ rest) =
        some ([b0, b1, b2, b3] ++ rest) := by
  have hfield : slice ([b0 ^^^ ks 0, b1 ^^^ ks 1, b2 ^^^ ks 2, b3 ^^^ ks 3] ++ rest) 0 4 =
      some [b0 ^^^ ks 0, b1 ^^^ ks 1, b2 ^^^ ks 2, b3 ^^^ ks 3] :=
    slice_eq_some (by decide) (by simp)
  have hhash : xorKeyStream (some ks) [0, 0, 0, 0] = [ks 0, ks 1, ks 2, ks 3] := by
    simp [xorKeyStream]
  have happly : applyHashTo 4 [b0 ^^^ ks 0, b1 ^^^ ks 1, b2 ^^^ ks 2, b3 ^^^ ks 3]
      [ks 0, ks 1, ks 2, ks 3] = some [b0, b1, b2, b3] := by
    rw [applyHashTo_eq_some (by rfl) (by rfl)]
    simp only [applyHash, zipWith_cons_cons, zipWith_nil_left, UInt8.xor_assoc,
      UInt8.xor_self, UInt8.xor_zero]
  rw [hhash, unmaskType, hfield]
  exact congrArg (fun type => Option.bind type fun type => some (type ++ rest)) happly

theorem continueKeyStream_masked (ks : Nat → UInt8) (b0 b1 b2 b3 : UInt8) (body rest : Bytes) :
    continueKeyStream (some ks) 4 4 (body.length + 4)
      ([b0, b1, b2, b3] ++ (maskFrom ks 4 body ++ rest)) =
        some ([b0, b1, b2, b3] ++ (body ++ rest)) := by
  have hregion : slice ([b0, b1, b2, b3] ++ (maskFrom ks 4 body ++ rest)) 4 (body.length + 4) =
      some (maskFrom ks 4 body) := by
    rw [slice_eq_some (by omega) (by simp)]
    simp [take_left' (maskFrom_length ks 4 body)]
  have hrest : ([b0, b1, b2, b3] ++ (maskFrom ks 4 body ++ rest)).drop (body.length + 4) =
      rest := by
    simp [drop_left' (maskFrom_length ks 4 body)]
  have htwice := maskFrom_maskFrom ks 4 body
  rw [maskFrom] at htwice
  rw [continueKeyStream, hregion, hrest]
  simp [htwice]

-- The receiver takes the key stream in two pieces off the protected region,
-- which the sender has masked at once.
theorem unprotect (cip : Option (Nat → UInt8)) (b0 b1 b2 b3 : UInt8) (body rest : Bytes) :
    ∃ packet, unmaskType cip (xorKeyStream cip [0, 0, 0, 0])
        (xorKeyStream cip (b0 :: b1 :: b2 :: b3 :: body) ++ rest) = some packet ∧
      packet.length = body.length + 4 + rest.length ∧
      continueKeyStream cip 4 4 (body.length + 4) packet =
        some (b0 :: b1 :: b2 :: b3 :: body ++ rest) := by
  cases cip with
  | none => exact ⟨_, rfl, by simp [xorKeyStream, Nat.add_right_comm], rfl⟩
  | some ks =>
    refine ⟨[b0, b1, b2, b3] ++ (maskFrom ks 4 body ++ rest), ?_, ?_, ?_⟩
    · rw [xorKeyStream_message ks b0 b1 b2 b3 body, append_assoc, unmaskType_masked]
    · simp only [length_append, length_cons, length_nil, maskFrom_length]
      omega
    · exact continueKeyStream_masked ks b0 b1 b2 b3 body rest

theorem receiveIncoming_append {packet : Bytes} (hmin : minMessageSize ≤ packet.length)
    (rest : Bytes) :
    receiveIncoming stream device (packet ++ rest) packet.length =
      receivePacket stream device packet := by
  have hslice : slice (packet ++ rest) 0 packet.length = some packet := by
    rw [slice_eq_some (Nat.zero_le _) (by simp), take_left, drop_zero]
  rw [receiveIncoming, if_neg (by omega), hslice]
  rfl

variable {crypt message : Bytes}

-- Without a key there is no salt, and the padding need not hold one.
abbrev HoldsSalt (device : Settings) (crypt : Bytes) : Prop :=
  device.headerProtectionKey ≠ 0 → 12 ≤ crypt.length

theorem HoldsSalt.cipher (hsalt : HoldsSalt device crypt) (rest : Bytes) :
    headerProtectionCipher stream device ((crypt ++ rest).take 12) =
      headerProtectionCipher stream device (crypt.take 12) := by
  by_cases hkey : device.headerProtectionKey = 0
  · rw [headerProtectionCipher, headerProtectionCipher, if_pos hkey, if_pos hkey]
  · rw [take_append_of_le_length (hsalt hkey)]

-- The salt is in the padding, so both sides use one key stream.
theorem receivePacket_protected {rest : Bytes} {msgType padding : UInt32}
    (hcrypt : crypt.length = padding.toNat) (hsalt : HoldsSalt device crypt)
    (hfour : 4 ≤ message.length) {packet : Bytes}
    (hpacket : packet = crypt ++ (xorKeyStream
      (headerProtectionCipher stream device (crypt.take 12)) message ++ rest))
    (hmin : minMessageSize ≤ packet.length)
    (hdetermined : Determined stream device packet msgType padding) :
    ∃ cip packet', receivePacket stream device packet =
        receiveMessage cip msgType padding packet' ∧
      packet'.length = message.length + rest.length ∧
      continueKeyStream cip 4 4 message.length packet' = some (message ++ rest) := by
  have hcip : cipherOf stream device packet =
      headerProtectionCipher stream device (crypt.take 12) := by
    rw [cipherOf, hpacket, hsalt.cipher]
  have hdrop : packet.drop padding.toNat =
      xorKeyStream (cipherOf stream device packet) message ++ rest := by
    rw [hcip, hpacket, ← hcrypt, drop_left]
  have hlen : padding.toNat ≤ packet.length := by
    rw [hpacket, length_append]
    omega
  rw [receivePacket_eq hmin hdetermined hlen, hdrop]
  match message, hfour with
  | b0 :: b1 :: b2 :: b3 :: body, _ =>
    obtain ⟨packet', hunmask, hlength, hcontinue⟩ :=
      unprotect (cipherOf stream device packet) b0 b1 b2 b3 body rest
    refine ⟨cipherOf stream device packet, packet', ?_, hlength, hcontinue⟩
    rw [show typeHash stream device packet =
      xorKeyStream (cipherOf stream device packet) [0, 0, 0, 0] from rfl, hunmask]
    rfl

theorem receiveIncoming_sendHandshake {kind : Kind}
    (hcrypt : crypt.length = (kind.padding device).toNat) (hsalt : HoldsSalt device crypt)
    (hmessage : message.length = kind.size)
    (hdetermined : Determined stream device (sendHandshake stream device crypt message)
      kind.type (kind.padding device)) (rest : Bytes) :
    receiveIncoming stream device (sendHandshake stream device crypt message ++ rest)
      (sendHandshake stream device crypt message).length = some (.handshake kind.type message) := by
  have hsize : 32 ≤ kind.size := by cases kind <;> decide
  have hmin : minMessageSize ≤ (sendHandshake stream device crypt message).length := by
    rw [sendHandshake, length_append, xorKeyStream_length]
    exact Nat.le_trans (Nat.le_trans hsize (Nat.le_of_eq hmessage.symm)) (Nat.le_add_left ..)
  have hpacket : sendHandshake stream device crypt message = crypt ++ (xorKeyStream
      (headerProtectionCipher stream device (crypt.take 12)) message ++ []) := by
    rw [sendHandshake, hsalt.cipher, append_nil]
  obtain ⟨cip, packet', hreceive, hlength, hcontinue⟩ :=
    receivePacket_protected hcrypt hsalt (by omega) hpacket hmin hdetermined
  have hkind : receiveMessage cip kind.type (kind.padding device) packet' =
      receiveFixed cip kind.type kind.size packet' := by cases kind <;> rfl
  rw [receiveIncoming_append hmin, hreceive, hkind, receiveFixed,
    if_neg (by rw [hlength, hmessage]; simp), ← hmessage, hcontinue, append_nil]
  rfl

-- Whatever the header was before the key stream was added to it.
theorem receiveIncoming_transport {header sealed : Bytes} (hheader : header.length = 16)
    (hsealed : 16 ≤ sealed.length) (hcrypt : crypt.length = device.paddings.transport.toNat)
    (hsalt : HoldsSalt device crypt) {packet : Bytes}
    (hpacket : packet = crypt ++ (xorKeyStream
      (headerProtectionCipher stream device (crypt.take 12)) header ++ sealed))
    (hdetermined : Determined stream device packet messageTransportType device.paddings.transport)
    (rest : Bytes) :
    receiveIncoming stream device (packet ++ rest) packet.length =
      some (.transport (header ++ sealed) device.paddings.transport
        (uint32 ((header.drop 4).take 4))) := by
  have hmin : minMessageSize ≤ packet.length := by
    rw [hpacket, length_append, length_append, xorKeyStream_length, hheader,
      minMessageSize, messageTransportSize]
    omega
  obtain ⟨cip, packet', hreceive, hlength, hcontinue⟩ :=
    receivePacket_protected hcrypt hsalt (by omega) hpacket hmin hdetermined
  have htransport : receiveMessage cip messageTransportType device.paddings.transport packet' =
      receiveTransport cip device.paddings.transport packet' := rfl
  have hindex : slice (header ++ sealed) 4 8 = some ((header.drop 4).take 4) := by
    rw [slice_eq_some (by decide) (by rw [length_append]; omega),
      take_append_of_le_length (by omega), drop_take]
  rw [hheader] at hlength hcontinue
  rw [receiveIncoming_append hmin, hreceive, htransport, receiveTransport,
    if_neg (by rw [hlength, messageTransportSize]; omega), hcontinue, bind_eq_bind,
    bind_some, hindex]
  rfl

theorem xorKeyStream_involutive (cip : Option (Nat → UInt8)) (bytes : Bytes) :
    xorKeyStream cip (xorKeyStream cip bytes) = bytes := by
  cases cip with
  | none => rfl
  | some ks => exact ext_getElem? fun i => by simp [xorKeyStream, Function.comp_def]

theorem xorKeyStream_eq_self_iff {salt bytes : Bytes} :
    xorKeyStream (headerProtectionCipher stream device salt) bytes = bytes ↔
      ∀ i < bytes.length, mask stream device salt i = 0 := by
  rw [List.ext_getElem?_iff]
  simp only [xorKeyStream_getElem?]
  refine forall_congr' fun i => ?_
  by_cases hi : i < bytes.length <;> simp [hi]

-- A header that left in the clear is masked by the receiver instead.
theorem receiveIncoming_routineEncryption {elem : Outbound} {msgType : UInt32}
    {addition : UintRange} {add : UInt32} {mtu maxMessageSize : Nat}
    (hcrypt : crypt.length = device.paddings.transport.toNat)
    (hsalt : HoldsSalt device crypt) {packet : Bytes}
    (hpacket : packet =
      routineEncryption stream device maxMessageSize elem crypt msgType addition add mtu)
    (hdetermined : Determined stream device packet messageTransportType device.paddings.transport)
    (rest : Bytes) :
    receiveIncoming stream device (packet ++ rest) packet.length =
        some (.transport (elem.header msgType ++ elem.sealed addition add mtu)
          device.paddings.transport elem.remoteIndex) ↔
      packet.length ≤ maxMessageSize ∨ ∀ i < 16, mask stream device (crypt.take 12) i = 0 := by
  have hheader : (elem.header msgType).length = 16 := rfl
  have hsealed : 16 ≤ (elem.sealed addition add mtu).length := by
    rw [elem.sealed_length]
    omega
  have hlength : packet.length = crypt.length + 16 + (elem.sealed addition add mtu).length :=
    hpacket ▸ transport_length
  let cip := headerProtectionCipher stream device (crypt.take 12)
  obtain ⟨header, hsent⟩ : ∃ header, header =
      if packet.length ≤ maxMessageSize then elem.header msgType
      else xorKeyStream cip (elem.header msgType) := ⟨_, rfl⟩
  have hsixteen : header.length = 16 := by
    rw [hsent, apply_ite List.length, xorKeyStream_length, hheader, ite_self]
  have hparts : packet = crypt ++ (xorKeyStream cip header ++ elem.sealed addition add mtu) := by
    rw [hsent, apply_ite (xorKeyStream cip), xorKeyStream_involutive, hlength, hpacket,
      ← append_assoc]
    unfold routineEncryption
    dsimp only
    rw [hsalt.cipher]
    rfl
  rw [receiveIncoming_transport hsixteen hsealed hcrypt hsalt hparts hdetermined rest]
  have hsame : header = elem.header msgType ↔ packet.length ≤ maxMessageSize ∨
      ∀ i < 16, mask stream device (crypt.take 12) i = 0 := by
    by_cases hfits : packet.length ≤ maxMessageSize
    · simp [hsent, hfits]
    · rw [hsent, if_neg hfits, xorKeyStream_eq_self_iff, hheader, or_iff_right hfits]
  rw [← hsame]
  constructor
  · intro h
    injection h with h
    injection h with h
    exact append_cancel_right h
  · rintro rfl
    exact congrArg (fun index => some (Inbound.transport _ _ index)) (uint32_putUint32 _)

theorem uint32_type_field (msgType : UInt32) (body : Bytes) :
    uint32 (field (putUint32 msgType ++ body) 0 4) = msgType :=
  uint32_putUint32 msgType

theorem readInitiation_eq (h : 4 ≤ message.length) (msgType : UInt32) :
    readInitiation msgType message = decodeInitiation (putUint32 msgType ++ message.drop 4) := by
  match message, h with
  | b0 :: b1 :: b2 :: b3 :: body, _ =>
    exact congrArg (fun type => { decodeInitiation (b0 :: b1 :: b2 :: b3 :: body) with
      type := UInt32.toBitVec type }) (uint32_type_field msgType body).symm

theorem readResponse_eq (h : 4 ≤ message.length) (msgType : UInt32) :
    readResponse msgType message = decodeResponse (putUint32 msgType ++ message.drop 4) := by
  match message, h with
  | b0 :: b1 :: b2 :: b3 :: body, _ =>
    exact congrArg (fun type => { decodeResponse (b0 :: b1 :: b2 :: b3 :: body) with
      type := UInt32.toBitVec type }) (uint32_type_field msgType body).symm

end

section

variable (stream : KeyStream) (maxMessageSize : Nat) (device : Settings)

-- A datagram that is classified as what it is comes out as it went in; a
-- transport message only if it fits the buffer of the sender, or the key stream
-- is zero over its header. What is behind it in the buffer is left over from
-- other datagrams. The type of a message goes to the handshake worker beside
-- the bytes, and replaces theirs.
structure RoundTrips : Prop where
  handshake : ∀ (kind : Kind) (crypt message rest : Bytes),
    crypt.length = (kind.padding device).toNat → message.length = kind.size →
    let packet := sendHandshake stream device crypt message
    Determined stream device packet kind.type (kind.padding device) →
    receiveIncoming stream device (packet ++ rest) packet.length =
      some (.handshake kind.type message)
  transport : ∀ (elem : Outbound) (crypt : Bytes) (msgType : UInt32) (addition : UintRange)
    (add : UInt32) (mtu : Nat) (rest : Bytes),
    crypt.length = device.paddings.transport.toNat →
    let packet := routineEncryption stream device maxMessageSize elem crypt msgType addition add mtu
    Determined stream device packet messageTransportType device.paddings.transport →
    (receiveIncoming stream device (packet ++ rest) packet.length =
        some (.transport (elem.header msgType ++ elem.sealed addition add mtu)
          device.paddings.transport elem.remoteIndex) ↔
      packet.length ≤ maxMessageSize ∨ ∀ i < 16, mask stream device (crypt.take 12) i = 0)
  initiation : ∀ message : Bytes, message.length = messageInitiationSize →
    readInitiation messageInitiationType message =
      decodeInitiation (putUint32 messageInitiationType ++ message.drop 4)
  response : ∀ message : Bytes, message.length = messageResponseSize →
    readResponse messageResponseType message =
      decodeResponse (putUint32 messageResponseType ++ message.drop 4)

theorem protection_roundTrips (hkinds : ∀ kind : Kind, 12 ≤ (kind.padding device).toNat)
    (htransport : 12 ≤ device.paddings.transport.toNat) : RoundTrips stream maxMessageSize device where
  handshake kind crypt message rest hcrypt hmessage :=
    fun hdetermined =>
      receiveIncoming_sendHandshake hcrypt (fun _ => hcrypt ▸ hkinds kind) hmessage hdetermined rest
  transport elem crypt msgType addition add mtu rest hcrypt :=
    fun hdetermined =>
      receiveIncoming_routineEncryption hcrypt (fun _ => hcrypt ▸ htransport) rfl hdetermined rest
  initiation message hmessage :=
    readInitiation_eq (by rw [hmessage]; decide) messageInitiationType
  response message hmessage :=
    readResponse_eq (by rw [hmessage]; decide) messageResponseType

def salted : Settings :=
  { newDevice with headerProtectionKey := 1, paddings := ⟨12, 12, 12, 12⟩ }

theorem protection_roundTrips_salted :
    let stream : KeyStream := fun _ salt i => salt.getD (i % 12) 0 + .ofNat i
    let message := putUint32 messageInitiationType ++ List.replicate 144 5
    let packet := sendHandshake stream salted (List.replicate 12 7) message
    packet ≠ List.replicate 12 7 ++ message ∧ RoundTrips stream 1700 salted ∧
      receiveIncoming stream salted packet packet.length =
        some (.handshake messageInitiationType message) := by
  intro stream message packet
  have hkinds : ∀ kind : Kind, 12 ≤ (kind.padding salted).toNat := by
    intro kind
    cases kind <;> decide
  have htrips : RoundTrips stream 1700 salted := protection_roundTrips stream 1700 salted hkinds (by decide)
  refine ⟨by decide +kernel, htrips, ?_⟩
  have hreceived := htrips.handshake .init (List.replicate 12 7) message [] rfl rfl
    (by decide +kernel)
  rwa [append_nil] at hreceived

-- A buffer of 1700 bytes does not hold a packet of 1280 bytes behind a padding of 400.
theorem header_left_clear :
    let stream : KeyStream := fun _ _ _ => 1
    let device : Settings := { newDevice with
      headerProtectionKey := 1
      headers := { newDevice.headers with transport := ⟨5, 4294967295⟩ }
      paddings := ⟨12, 12, 12, 400⟩ }
    let elem : Outbound :=
      ⟨0, 7, List.replicate 1280 0, fun _ plain => plain ++ List.replicate 16 9, by simp⟩
    let packet := routineEncryption stream device 1700 elem (List.replicate 400 0) 5 ⟨0, 0⟩ 0 1280
    Determined stream device packet messageTransportType device.paddings.transport ∧
      receiveIncoming stream device packet packet.length ≠
        some (.transport (elem.header 5 ++ elem.sealed ⟨0, 0⟩ 0 1280) device.paddings.transport
          elem.remoteIndex) := by
  intro stream device elem packet
  have hdetermined : Determined stream device packet messageTransportType device.paddings.transport := by
    decide +kernel
  refine ⟨hdetermined, fun hsame => ?_⟩
  have hcrypt : (List.replicate 400 (0 : UInt8)).length = device.paddings.transport.toNat :=
    length_replicate
  have hiff := receiveIncoming_routineEncryption hcrypt (fun _ => hcrypt ▸ by decide) rfl hdetermined []
  rw [append_nil] at hiff
  rcases hiff.mp hsame with hfits | hzero
  · exact absurd hfits (by decide +kernel)
  · exact absurd (hzero 0 (by decide)) (by decide)

end

end StarlingWg.Device
