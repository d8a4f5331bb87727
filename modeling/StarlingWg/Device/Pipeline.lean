import StarlingWg.Device.Receive
import StarlingWg.Replay.Filter
import StarlingWg.Routing.Trie

namespace StarlingWg.Device

open Control Function

-- ChaCha20, the primitives of the handshake, the two AEADs and BLAKE2s-128.
-- The handshake uses the nonce 0 of the first AEAD.
structure Primitives where
  stream : KeyStream
  noise : Noise.Crypto Bytes
  aeadOpen : (key : Bytes) → (nonce : UInt64) → (cipher ad : Bytes) → Option Bytes
  zeroNonce : ∀ key cipher ad, noise.aeadOpen key cipher ad = aeadOpen key 0 cipher ad
  xaeadOpen : (key nonce cipher ad : Bytes) → Option Bytes
  mac : (key body : Bytes) → Bytes

section

variable (p : Primitives)

abbrev cookieRefreshTime : Int := 120000000000

structure CookieChecker where
  mac1Key : Bytes
  secret : Bytes
  secretSet : Int

structure CookieGenerator where
  mac1Key : Bytes
  cookie : Bytes
  cookieSet : Int
  lastMAC1 : Option Bytes
  encryptionKey : Bytes

def CookieChecker.checkMAC1 (st : CookieChecker) (msg : Bytes) : Bool :=
  let smac2 := msg.length - 16
  let smac1 := smac2 - 16
  p.mac st.mac1Key (msg.take smac1) == field msg smac1 smac2

def CookieChecker.checkMAC2 (st : CookieChecker) (now : Int) (msg src : Bytes) : Bool :=
  if now - st.secretSet > cookieRefreshTime then false
  else
    let cookie := p.mac st.secret src
    let smac2 := msg.length - 16
    p.mac cookie (msg.take smac2) == msg.drop smac2

-- What CreateReply leaves. The reply itself is only sent.
def CookieChecker.createReply (st : CookieChecker) (now : Int) (secret : Bytes) :
    CookieChecker :=
  if now - st.secretSet > cookieRefreshTime then { st with secret := secret, secretSet := now }
  else st

def CookieGenerator.consumeReply (st : CookieGenerator) (now : Int) (nonce cookie : Bytes) :
    CookieGenerator :=
  match st.lastMAC1 with
  | none => st
  | some lastMAC1 =>
    match p.xaeadOpen st.encryptionKey nonce cookie lastMAC1 with
    | none => st
    | some cookie => { st with cookie := cookie, cookieSet := now }

-- What AddMacs leaves. The MACs themselves are only sent.
def CookieGenerator.addMacs (st : CookieGenerator) (msg : Bytes) : CookieGenerator :=
  { st with lastMAC1 := some (p.mac st.mac1Key (msg.take (msg.length - 32))) }

end

-- What the receive path calls of the send path and the timers.
inductive Call (ι : Type)
  | timersHandshakeComplete (peer : ι)
  | timersSessionDerived (peer : ι)
  | timersDataReceived (peer : ι)
  | timersAnyAuthenticatedPacketReceived (peer : ι)
  | timersAnyAuthenticatedPacketTraversal (peer : ι)
  | timersAnyAuthenticatedPacketSent (peer : ι)
  | keepKeyFreshReceiving (peer : ι)
  | sendStagedPackets (peer : ι)
  | sendKeepalive (peer : ι)
  | sendBuffers (peer : ι)
  | sendHandshakeCookie (sender : UInt32)
  deriving DecidableEq, Repr

-- A Device with its peers. Filters and creation times are those of the
-- Keypair objects; `tun` and `calls` are what has been written and called.
structure Receiver (ι ε : Type) where
  settings : Settings
  noise : Noise.Device Bytes ι
  filters : Nat → Replay.Recorded
  created : Nat → Int
  endpoint : ι → Option ε
  disableRoaming : ι → Bool
  rxBytes : ι → UInt64
  cookieChecker : CookieChecker
  cookieGenerator : ι → CookieGenerator
  allowedips : Routing.AllowedIPs ι
  tun : List Bytes
  calls : List (Call ι)

-- A datagram in its buffer, and what else decides about it: whether the
-- handshake queue is full, whether the device is under load, the answer of
-- the rate limiter, and the random values that are drawn.
structure Arrival (ε : Type) where
  buffer : Bytes
  size : Nat
  endpoint : ε
  dstToBytes : Bytes
  queueFull : Bool
  underLoad : Bool
  allow : Bool
  secret : Bytes
  random : Noise.Random Bytes
  size_le : size ≤ buffer.length
  buffer_le : buffer.length ≤ 65535

def rejectAfterMessages : Replay.Counter := 18446744073709543423

def rejectAfterTime : Int := 180000000000

def Settings.keychainExpireTime (device : Settings) : Int :=
  let t := device.timings.rejectAfterTimeSec
  if t = ⟨0, 0⟩ then rejectAfterTime else t.hi.toNat * 1000000000

section

def uint64 (bytes : Bytes) : UInt64 :=
  .ofNat ((uint32 (bytes.take 4)).toNat + (uint32 (bytes.drop 4)).toNat * 4294967296)

def bigEndian (bytes : Bytes) : Nat :=
  bytes.foldl (fun value byte => value * 256 + byte.toNat) 0

def messageCounter (packet : Bytes) : UInt64 :=
  uint64 (field packet 8 16)

def messageContent (packet : Bytes) : Bytes :=
  packet.drop messageTransportHeaderSize

def encodeResponse (msg : Noise.MessageResponse Bytes) : Bytes :=
  putUint32 (.ofBitVec msg.type) ++ putUint32 (.ofBitVec msg.sender) ++
    putUint32 (.ofBitVec msg.receiver) ++ msg.ephemeral ++ msg.empty ++ List.replicate 32 0

variable {ι : Type} [DecidableEq ι]

def allows (allowedips : Routing.AllowedIPs ι) (peer : ι) (f : Routing.Family)
    (src : Bytes) : Bool :=
  allowedips.lookup (.ofNat f.width (bigEndian src) : Routing.Address f) == some (some peer)

-- Whether a packet counts as data, and what of it goes to the TUN device. The
-- IPv6 length is a sum in uint16, and a slice may end behind its length.
def inspect (allowedips : Routing.AllowedIPs ι) (peer : ι) (packet : Bytes) : Bool × Option Bytes :=
  match packet with
  | [] => (false, none)
  | first :: _ =>
    if first = 0 then (false, none)
    else if first >>> 4 = 4 then
      let length := bigEndian (field packet 2 4)
      if packet.length < 20 then (true, none)
      else if packet.length < length ∨ length < 20 then (true, none)
      else if !allows allowedips peer .ipv4 (field packet 12 16) then (true, none)
      else (true, some (packet.take length))
    else if first >>> 4 = 6 then
      let length := (bigEndian (field packet 4 6) + 40) % 65536
      if packet.length < 40 then (true, none)
      else if packet.length < length then (true, none)
      else if !allows allowedips peer .ipv6 (field packet 8 24) then (true, none)
      else (true, some (packet.take length))
    else (true, none)

end

namespace Receiver

variable {ι ε : Type} [DecidableEq ι] (p : Primitives)

def call (s : Receiver ι ε) (c : Call ι) : Receiver ι ε :=
  { s with calls := s.calls ++ [c] }

def setEndpointFromPacket (s : Receiver ι ε) (peer : ι) (endpoint : ε) : Receiver ι ε :=
  if s.disableRoaming peer then s
  else { s with endpoint := update s.endpoint peer (some endpoint) }

def addRxBytes (s : Receiver ι ε) (peer : ι) (n : Nat) : Receiver ι ε :=
  { s with rxBytes := update s.rxBytes peer (s.rxBytes peer + .ofNat n) }

def beginSymmetricSession (s : Receiver ι ε) (peer : ι) : Receiver ι ε × Bool :=
  match s.noise.beginSymmetricSession p.noise peer with
  | (noise, .error _) => ({ s with noise := noise }, false)
  | (noise, .ok _) =>
    ({ s with
      noise := noise
      filters := update s.filters s.noise.allocated .new
      created := update s.created s.noise.allocated s.noise.clock }, true)

def sendHandshakeResponse (s : Receiver ι ε) (peer : ι) (random : Noise.Random Bytes) :
    Receiver ι ε :=
  match s.noise.createMessageResponse p.noise peer random with
  | none => s
  | some (noise, .error _) => { s with noise := noise }
  | some (noise, .ok response) =>
    let generator := (s.cookieGenerator peer).addMacs p (encodeResponse response)
    let s := { s with
      noise := noise, cookieGenerator := update s.cookieGenerator peer generator }
    match s.beginSymmetricSession p peer with
    | (s, false) => s
    | (s, true) =>
      (((s.call (.timersSessionDerived peer)).call
        (.timersAnyAuthenticatedPacketTraversal peer)).call
        (.timersAnyAuthenticatedPacketSent peer)).call (.sendBuffers peer)

def consumeCookieReply (s : Receiver ι ε) (packet : Bytes) : Receiver ι ε :=
  match s.noise.indexTable (uint32 (field packet 4 8)).toBitVec with
  | none => s
  | some entry =>
    if !(s.noise.peers entry.peer).isRunning then s
    else
      let generator := (s.cookieGenerator entry.peer).consumeReply p s.noise.clock
        (field packet 8 32) (field packet 32 64)
      { s with cookieGenerator := update s.cookieGenerator entry.peer generator }

def sendHandshakeCookie (s : Receiver ι ε) (arrival : Arrival ε) (packet : Bytes) :
    Receiver ι ε :=
  { s with
    cookieChecker := s.cookieChecker.createReply s.noise.clock arrival.secret }.call
      (.sendHandshakeCookie (uint32 (field packet 4 8)))

def handleInitiation (s : Receiver ι ε) (arrival : Arrival ε) (msgType : UInt32)
    (packet : Bytes) : Receiver ι ε :=
  match s.noise.consumeMessageInitiation p.noise (readInitiation msgType packet) with
  | (noise, none) => { s with noise := noise }
  | (noise, some peer) =>
    let s := { s with noise := noise }
    let s := (s.call (.timersAnyAuthenticatedPacketTraversal peer)).call
      (.timersAnyAuthenticatedPacketReceived peer)
    let s := s.setEndpointFromPacket peer arrival.endpoint
    let s := s.addRxBytes peer packet.length
    s.sendHandshakeResponse p peer arrival.random

def handleResponse (s : Receiver ι ε) (arrival : Arrival ε) (msgType : UInt32)
    (packet : Bytes) : Receiver ι ε :=
  match s.noise.consumeMessageResponse p.noise (readResponse msgType packet) with
  | (noise, none) => { s with noise := noise }
  | (noise, some peer) =>
    let s := { s with noise := noise }
    let s := s.setEndpointFromPacket peer arrival.endpoint
    let s := s.addRxBytes peer packet.length
    let s := (s.call (.timersAnyAuthenticatedPacketTraversal peer)).call
      (.timersAnyAuthenticatedPacketReceived peer)
    match s.beginSymmetricSession p peer with
    | (s, false) => s
    | (s, true) =>
      ((s.call (.timersSessionDerived peer)).call (.timersHandshakeComplete peer)).call
        (.sendKeepalive peer)

-- The second switch of RoutineHandshake.
def handleMessage (s : Receiver ι ε) (arrival : Arrival ε) (msgType : UInt32)
    (packet : Bytes) : Receiver ι ε :=
  if msgType = messageInitiationType then s.handleInitiation p arrival msgType packet
  else if msgType = messageResponseType then s.handleResponse p arrival msgType packet
  else s

def routineHandshake (s : Receiver ι ε) (arrival : Arrival ε) (msgType : UInt32)
    (packet : Bytes) : Receiver ι ε :=
  if msgType = messageCookieReplyType then s.consumeCookieReply p packet
  else if msgType = messageInitiationType ∨ msgType = messageResponseType then
    if !s.cookieChecker.checkMAC1 p packet then s
    else if arrival.underLoad then
      if !s.cookieChecker.checkMAC2 p s.noise.clock packet arrival.dstToBytes then
        s.sendHandshakeCookie arrival packet
      else if !arrival.allow then s
      else s.handleMessage p arrival msgType packet
    else s.handleMessage p arrival msgType packet
  else s

def routineDecryption (keypair : Noise.Keypair Bytes) (packet : Bytes) :
    Option Bytes :=
  p.aeadOpen keypair.receive (messageCounter packet) (messageContent packet) []

-- The rest of the loop of RoutineSequentialReceiver for a packet that the
-- filter has accepted.
def deliver (s : Receiver ι ε) (peer : ι) (keypair : Noise.Keypair Bytes) (endpoint : ε)
    (packet : Bytes) : Receiver ι ε :=
  let (noise, confirmed) := s.noise.receivedWithKeypair peer (some keypair)
  let s := { s with noise := noise }
  let s := if confirmed then
      ((s.setEndpointFromPacket peer endpoint).call (.timersHandshakeComplete peer)).call
        (.sendStagedPackets peer)
    else s
  let (data, written) := inspect s.allowedips peer packet
  let s := s.addRxBytes peer (packet.length + minMessageSize)
  let s := s.setEndpointFromPacket peer endpoint
  let s := ((s.call (.keepKeyFreshReceiving peer)).call
    (.timersAnyAuthenticatedPacketTraversal peer)).call (.timersAnyAuthenticatedPacketReceived peer)
  let s := if data then s.call (.timersDataReceived peer) else s
  { s with tun := s.tun ++ written.toList }

def routineSequentialReceiver (s : Receiver ι ε) (peer : ι)
    (keypair : Noise.Keypair Bytes) (endpoint : ε) (counter : UInt64)
    (packet : Option Bytes) : Receiver ι ε :=
  match packet with
  | none => s
  | some packet =>
    let (valid, filter) :=
      (s.filters keypair.id).validateCounter counter.toBitVec rejectAfterMessages
    let s := { s with filters := update s.filters keypair.id filter }
    if !valid then s else s.deliver peer keypair endpoint packet

def receiveTransportMessage (s : Receiver ι ε) (arrival : Arrival ε) (packet : Bytes)
    (receiver : UInt32) : Receiver ι ε :=
  match s.noise.indexTable receiver.toBitVec with
  | none => s
  | some value =>
    match value.keypair with
    | none => s
    | some keypair =>
      if s.created keypair.id + s.settings.keychainExpireTime < s.noise.clock then s
      else if !(s.noise.peers value.peer).isRunning then s
      else s.routineSequentialReceiver value.peer keypair arrival.endpoint (messageCounter packet)
        (routineDecryption p keypair packet)

def handle (s : Receiver ι ε) (arrival : Arrival ε) : Inbound → Receiver ι ε
  | .dropped => s
  | .transport packet _ receiver => s.receiveTransportMessage p arrival packet receiver
  | .handshake msgType packet =>
    if arrival.queueFull then s else s.routineHandshake p arrival msgType packet

-- One datagram through all routines. None is a panic.
def receive (s : Receiver ι ε) (arrival : Arrival ε) : Option (Receiver ι ε) :=
  (receiveIncoming p.stream s.settings arrival.buffer arrival.size).map (s.handle p arrival)

section

variable {p : Primitives} {s : Receiver ι ε} {peer : ι}

omit [DecidableEq ι] in
@[simp] theorem call_settings (c : Call ι) : (s.call c).settings = s.settings := rfl

omit [DecidableEq ι] in
@[simp] theorem call_noise (c : Call ι) : (s.call c).noise = s.noise := rfl

omit [DecidableEq ι] in
@[simp] theorem call_filters (c : Call ι) : (s.call c).filters = s.filters := rfl

@[simp] theorem addRxBytes_settings (n : Nat) : (s.addRxBytes peer n).settings = s.settings := rfl

@[simp] theorem addRxBytes_noise (n : Nat) : (s.addRxBytes peer n).noise = s.noise := rfl

@[simp] theorem addRxBytes_filters (n : Nat) : (s.addRxBytes peer n).filters = s.filters := rfl

@[simp] theorem setEndpointFromPacket_settings (endpoint : ε) :
    (s.setEndpointFromPacket peer endpoint).settings = s.settings := by
  unfold setEndpointFromPacket
  split <;> rfl

@[simp] theorem setEndpointFromPacket_noise (endpoint : ε) :
    (s.setEndpointFromPacket peer endpoint).noise = s.noise := by
  unfold setEndpointFromPacket
  split <;> rfl

@[simp] theorem setEndpointFromPacket_filters (endpoint : ε) :
    (s.setEndpointFromPacket peer endpoint).filters = s.filters := by
  unfold setEndpointFromPacket
  split <;> rfl

@[simp] theorem beginSymmetricSession_settings :
    (s.beginSymmetricSession p peer).1.settings = s.settings := by
  unfold beginSymmetricSession
  split <;> rfl

@[simp] theorem beginSymmetricSession_noise :
    (s.beginSymmetricSession p peer).1.noise = (s.noise.beginSymmetricSession p.noise peer).1 := by
  unfold beginSymmetricSession
  split <;> simp [*]

variable {keypair : Noise.Keypair Bytes} {endpoint : ε} {packet : Bytes}

@[simp] theorem deliver_settings :
    (s.deliver peer keypair endpoint packet).settings = s.settings := by
  unfold deliver
  dsimp only
  split <;> split <;> simp

@[simp] theorem deliver_noise : (s.deliver peer keypair endpoint packet).noise =
    (s.noise.receivedWithKeypair peer (some keypair)).1 := by
  unfold deliver
  dsimp only
  split <;> split <;> simp

@[simp] theorem deliver_filters : (s.deliver peer keypair endpoint packet).filters = s.filters := by
  unfold deliver
  dsimp only
  split <;> split <;> simp

end

end Receiver

end StarlingWg.Device
