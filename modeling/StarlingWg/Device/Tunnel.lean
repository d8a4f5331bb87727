import StarlingWg.Device.Forwarding

namespace StarlingWg.Device

open List Function
open Control (Key)
open Replay (Accepts Counter windowSize)

section

variable {stream : KeyStream} {device : Settings} {elem : Outbound}
  {crypt packet : Bytes} {msgType add : UInt32} {addition : UintRange} {mtu maxMessageSize : Nat}

theorem receiveIncoming_datagram (hvalid : device.Valid) (hsep : Separated stream 65535 device)
    (hcrypt : crypt.length = device.paddings.transport.toNat)
    (hpick : device.headers.transport.Picks msgType)
    (hpacket : packet =
      routineEncryption stream device maxMessageSize elem crypt msgType addition add mtu)
    (hfits : packet.length ≤ maxMessageSize) (hmax : packet.length ≤ 65535) (rest : Bytes) :
    receiveIncoming stream device (packet ++ rest) packet.length =
      some (.transport (elem.header msgType ++ elem.sealed addition add mtu)
        device.paddings.transport elem.remoteIndex) := by
  have hroom : crypt.length + 16 + (elem.sealed addition add mtu).length ≤ maxMessageSize := by
    rw [← transport_length, ← hpacket]
    exact hfits
  have hdetermined : Determined stream device packet messageTransportType device.paddings.transport := by
    rw [Determined, determineChecked_eq (xorKeyStream_length ..) hmax]
    exact congrArg some (hsep.determines_transport hvalid hcrypt hpick hpacket hroom (by omega))
  have hsalt : HoldsSalt device crypt := hvalid.crypt_le (by simp [Paddings.list]) hcrypt
  exact (receiveIncoming_routineEncryption hcrypt hsalt hpacket hdetermined rest).mpr (.inl hfits)

theorem uint64_putUint64 (v : UInt64) : uint64 (putUint64 v) = v := by
  have hlow : (putUint64 v).take 4 = putUint32 (.ofNat (v.toNat % 4294967296)) := rfl
  have hhigh : (putUint64 v).drop 4 = putUint32 (.ofNat (v.toNat / 4294967296)) := rfl
  have hlt := v.toNat_lt
  rw [uint64, hlow, hhigh, uint32_putUint32, uint32_putUint32, ← UInt64.toNat_inj,
    UInt32.toNat_ofNat', UInt32.toNat_ofNat', UInt64.toNat_ofNat']
  omega

theorem largest_le {accepted : List Counter} {n : Nat} (h : ∀ c ∈ accepted, c.toNat ≤ n) :
    Replay.largest accepted ≤ n := by
  induction accepted with
  | nil => exact Nat.zero_le n
  | cons c accepted ih =>
    rw [forall_mem_cons] at h
    exact Nat.max_le.mpr ⟨h.1, ih h.2⟩

end

namespace Receiver

variable {ι ε : Type} [DecidableEq ι]

section

variable (p : Primitives) (log : Sealing → Prop) (s : Receiver ι ε) (index : UInt32) (peer : ι)
  (keypair : Noise.Keypair (Bytes))

-- A confirmed keypair of a running peer that is not too old.
structure Serves : Prop where
  entry : ∃ handshake, s.noise.indexTable index.toBitVec = some ⟨peer, handshake, some keypair⟩
  confirmed : (s.noise.keypairs peer).next.map Noise.Keypair.id ≠ some keypair.id
  running : (s.noise.peers peer).isRunning = true
  young : s.noise.clock ≤ s.created keypair.id + s.settings.keychainExpireTime

-- The datagram that RoutineEncryption makes of an element for the keypair, in
-- a buffer that can hold it. It carries a keepalive or a packet from an
-- address of the peer.
structure Carries (arrival : Arrival ε) (elem : Outbound) : Prop where
  datagram : ∃ maxMessageSize crypt msgType addition add mtu rest,
    crypt.length = s.settings.paddings.transport.toNat ∧
    s.settings.headers.transport.Picks msgType ∧
    p.aeadOpen keypair.receive elem.nonce (elem.sealed addition add mtu) [] =
      some (elem.plaintext addition add mtu) ∧
    let packet :=
      routineEncryption p.stream s.settings maxMessageSize elem crypt msgType addition add mtu
    packet.length ≤ maxMessageSize ∧ arrival.buffer = packet ++ rest ∧ arrival.size = packet.length
  index : elem.remoteIndex = index
  content : elem.packet = [] ∨ ∃ f, WellSized elem.packet f ∧
    allows s.allowedips peer f (ipSource elem.packet f) = true

-- What the datagrams of a session leave as it is.
structure Stays (s s' : Receiver ι ε) : Prop where
  settings : s'.settings = s.settings
  noise : s'.noise = s.noise
  created : s'.created = s.created
  allowedips : s'.allowedips = s.allowedips

-- What arrives belongs to the session, or it was sealed by nobody.
structure Arrives (x : Arrival ε × Option Outbound) : Prop where
  carried : ∀ elem, x.2 = some elem → s.Carries p index peer keypair x.1 elem
  forged : x.2 = none → ∀ s', Stays s s' → ¬s'.FreshAuthentic p log x.1

abbrev accepted : List Counter :=
  (s.filters keypair.id).accepted

def written (elem : Outbound) : List Bytes :=
  if elem.packet = [] then [] else [elem.packet]

end

variable {p : Primitives} {s₀ s : Receiver ι ε} {index : UInt32} {peer : ι}
  {keypair : Noise.Keypair (Bytes)} {arrival : Arrival ε} {elem : Outbound}

@[simp] theorem setEndpointFromPacket_created (endpoint : ε) :
    (s.setEndpointFromPacket peer endpoint).created = s.created := by
  unfold setEndpointFromPacket
  split <;> rfl

theorem deliver_stays (h : Stays s₀ s) {endpoint : ε} {packet : Bytes}
    (hnext : (s₀.noise.keypairs peer).next.map Noise.Keypair.id ≠ some keypair.id) :
    Stays s₀ (s.deliver peer keypair endpoint packet) := by
  have hsame : s₀.noise.receivedWithKeypair peer (some keypair) = (s₀.noise, false) := if_pos hnext
  have hframe : (s.deliver peer keypair endpoint packet).created = s.created ∧
      (s.deliver peer keypair endpoint packet).allowedips = s.allowedips := by
    unfold deliver
    dsimp only
    split <;> split <;> simp [call, addRxBytes]
  constructor
  · rw [deliver_settings, h.settings]
  · rw [deliver_noise, h.noise, hsame]
  · rw [hframe.1, h.created]
  · rw [hframe.2, h.allowedips]

theorem Carries.inspect_eq (hc : s.Carries p index peer keypair arrival elem) {addition : UintRange}
    {add : UInt32} {mtu : Nat} (hsize : elem.packet.length < 65536) :
    (inspect s.allowedips peer (elem.plaintext addition add mtu)).2.toList = written elem := by
  rcases hc.content with hnil | ⟨f, hwell, hallows⟩
  · rw [Outbound.plaintext, hnil, nil_append, inspect_zeros, written, if_pos hnil]
    rfl
  · have hne : elem.packet ≠ [] := by
      intro hnil
      have hversion := hwell.version
      rw [hnil] at hversion
      cases hversion
    rw [Outbound.plaintext, inspect_append hwell hsize hallows, written, if_neg hne]
    rfl

variable {log : Sealing → Prop}

theorem receive_forged (hideal : p.Authentic log) (h : Stays s₀ s)
    (hforged : ¬s.FreshAuthentic p log arrival) :
    ∃ s', s.receive p arrival = some s' ∧ Stays s₀ s' ∧ s'.tun = s.tun ∧ s'.filters = s.filters := by
  obtain ⟨inbound, hinbound⟩ :=
    receiveIncoming_some p.stream s.settings arrival.size_le arrival.buffer_le
  have hsame : s.Unchanged (s.handle p arrival inbound) :=
    handle_unchanged hideal fun hfresh => hforged ⟨inbound, hinbound, hfresh⟩
  exact ⟨_, receive_eq_some hinbound, ⟨hsame.settings.trans h.settings, hsame.noise.trans h.noise,
    hsame.created.trans h.created, hsame.allowedips.trans h.allowedips⟩, hsame.tun, hsame.filters⟩

section

variable (hvalid : s₀.settings.Valid) (hsep : Separated p.stream 65535 s₀.settings)
  (hs : s₀.Serves index peer keypair)

include hvalid hsep hs

theorem receive_carried (h : Stays s₀ s) (hc : s₀.Carries p index peer keypair arrival elem) :
    ∃ addition add mtu, elem.packet.length < 65536 ∧ s.receive p arrival =
      some (s.routineSequentialReceiver peer keypair arrival.endpoint elem.nonce
        (some (elem.plaintext addition add mtu))) := by
  obtain ⟨maxMessageSize, crypt, msgType, addition, add, mtu, rest, hcrypt, hpick, hopens, hfits,
    hbuffer, hsize⟩ := hc.datagram
  obtain ⟨handshake, hentry⟩ := hs.entry
  have hmax : (routineEncryption p.stream s₀.settings maxMessageSize elem crypt msgType addition add
      mtu).length ≤ 65535 := hsize ▸ arrival.size_le.trans arrival.buffer_le
  have hcounter : messageCounter (elem.header msgType ++ elem.sealed addition add mtu) = elem.nonce :=
    uint64_putUint64 elem.nonce
  have hopen : routineDecryption p keypair (elem.header msgType ++ elem.sealed addition add mtu) =
      some (elem.plaintext addition add mtu) := by
    rw [routineDecryption, hcounter]
    exact hopens
  refine ⟨addition, add, mtu, ?_, ?_⟩
  · rw [transport_length, elem.sealed_length] at hmax
    omega
  · rw [receive, h.settings, hbuffer, hsize,
      receiveIncoming_datagram hvalid hsep hcrypt hpick rfl hfits hmax rest, Option.map_some, handle,
      receiveTransportMessage, hc.index, h.noise, h.created, h.settings, hentry]
    simp only [hs.running, hcounter, hopen, Bool.not_true, Bool.false_eq_true, if_false,
      if_neg (Int.not_lt.mpr hs.young)]

theorem receive_admitted (h : Stays s₀ s) (hc : s₀.Carries p index peer keypair arrival elem)
    (hyes : Accepts (s.accepted keypair) elem.nonce.toBitVec rejectAfterMessages) :
    ∃ s', s.receive p arrival = some s' ∧ Stays s₀ s' ∧ s'.tun = s.tun ++ written elem ∧
      s'.accepted keypair = elem.nonce.toBitVec :: s.accepted keypair := by
  obtain ⟨addition, add, mtu, hsize, hreceive⟩ := receive_carried hvalid hsep hs h hc
  have hpasses : ((s.filters keypair.id).validateCounter elem.nonce.toBitVec
      rejectAfterMessages).1 = true :=
    ((s.filters keypair.id).tracks.validateCounter _ _).1.trans (decide_eq_true hyes)
  have hseen : ((s.filters keypair.id).validateCounter elem.nonce.toBitVec
      rejectAfterMessages).2.accepted = elem.nonce.toBitVec :: s.accepted keypair :=
    if_pos hyes
  refine ⟨_, hreceive, ?_, ?_, ?_⟩
  · rw [routineSequentialReceiver]
    simp only [hpasses, Bool.not_true, Bool.false_eq_true, if_false]
    generalize (Replay.Recorded.validateCounter _ _ _).2 = filter
    apply deliver_stays _ hs.confirmed
    exact ⟨h.settings, h.noise, h.created, h.allowedips⟩
  · rw [routineSequentialReceiver_tun hpasses, h.allowedips, hc.inspect_eq hsize]
  · rw [accepted, routineSequentialReceiver]
    simp only [hpasses, Bool.not_true, Bool.false_eq_true, if_false, deliver_filters,
      update_self]
    exact hseen

theorem receive_arrived (hideal : p.Authentic log) (h : Stays s₀ s)
    {x : Arrival ε × Option Outbound} (hx : s₀.Arrives p log index peer keypair x) :
    ∃ s', s.receive p x.1 = some s' ∧ Stays s₀ s' ∧
      ((∃ elem, x.2 = some elem ∧ Accepts (s.accepted keypair) elem.nonce.toBitVec rejectAfterMessages ∧
          s'.tun = s.tun ++ written elem ∧
          s'.accepted keypair = elem.nonce.toBitVec :: s.accepted keypair) ∨
        (∀ elem, x.2 = some elem →
          ¬Accepts (s.accepted keypair) elem.nonce.toBitVec rejectAfterMessages) ∧
        s'.tun = s.tun ∧ s'.filters = s.filters) := by
  obtain ⟨arrival, content⟩ := x
  cases content with
  | none =>
    obtain ⟨s', hreceive, hstays, hsame⟩ := receive_forged hideal h (hx.forged rfl s h)
    exact ⟨s', hreceive, hstays, .inr ⟨fun _ helem => (by cases helem), hsame⟩⟩
  | some elem =>
    have hc := hx.carried elem rfl
    by_cases hyes : Accepts (s.accepted keypair) elem.nonce.toBitVec rejectAfterMessages
    · obtain ⟨s', hreceive, hstays, hnew⟩ := receive_admitted hvalid hsep hs h hc hyes
      exact ⟨s', hreceive, hstays, .inl ⟨elem, rfl, hyes, hnew⟩⟩
    · obtain ⟨addition, add, mtu, -, hreceive⟩ := receive_carried hvalid hsep hs h hc
      rw [routineSequentialReceiver, Replay.Recorded.validateCounter_of_not_accepts hyes] at hreceive
      simp only [update_eq_self, Bool.not_false, if_true] at hreceive
      exact ⟨s, hreceive, h, .inr ⟨fun _ helem => Option.some.inj helem ▸ hyes, rfl, rfl⟩⟩

end

-- An AEAD whose tag is the same for everything that was sealed.
def tagged : Primitives :=
  let aeadOpen := fun cipher : Bytes =>
    if cipher.drop (cipher.length - 16) = replicate 16 9 then some (cipher.take (cipher.length - 16))
    else none
  { samplePrimitives with
    noise := { samplePrimitives.noise with aeadOpen := fun _ cipher _ => aeadOpen cipher }
    aeadOpen := fun _ _ cipher _ => aeadOpen cipher
    zeroNonce := fun _ _ _ => rfl }

def taggedLog (sealing : Sealing) : Prop :=
  sealing.cipher = sealing.plain ++ replicate 16 9

theorem tagged_authentic : tagged.Authentic taggedLog := by
  intro key nonce plain ad cipher h
  simp only [tagged, Option.ite_none_right_eq_some, Option.some.injEq] at h
  rw [taggedLog, ← h.1, ← h.2, take_append_drop]

def taggedElement (nonce : UInt64) (packet : Bytes) : Outbound :=
  { sampleElement packet with
    nonce := nonce
    send := fun _ plain => plain ++ replicate 16 9
    overhead := fun _ plain => by rw [length_append, length_replicate] }

def taggedArrival (nonce : UInt64) (content : Bytes) (h : content.length ≤ 65519) : Arrival Unit :=
  { sampleArrival with
    buffer := putUint32 4 ++ putUint32 5 ++ putUint64 nonce ++ content
    size := 16 + content.length
    size_le := by simp; omega
    buffer_le := by simp; omega }

end Receiver

end StarlingWg.Device
