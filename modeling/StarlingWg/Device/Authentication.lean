import StarlingWg.Device.Pipeline
import StarlingWg.Noise.Opening

namespace StarlingWg.Device

open Noise Function Option

structure Sealing where
  key : Bytes
  nonce : UInt64
  plain : Bytes
  ad : Bytes
  cipher : Bytes

def Primitives.Authentic (p : Primitives) (log : Sealing → Prop) : Prop :=
  ∀ key nonce plain ad cipher, p.aeadOpen key nonce cipher ad = some plain →
    log ⟨key, nonce, plain, ad, cipher⟩

namespace Receiver

variable {ι ε : Type} [DecidableEq ι] (p : Primitives) (log : Sealing → Prop) (s : Receiver ι ε)

-- Sealed with the receiving key of the keypair of its index, under a counter
-- that the filter of the keypair has not accepted.
def FreshTransport (packet : Bytes) (receiver : UInt32) : Prop :=
  ∃ value keypair plain, s.noise.indexTable receiver.toBitVec = some value ∧
    value.keypair = some keypair ∧
    log ⟨keypair.receive, messageCounter packet, plain, [], messageContent packet⟩ ∧
    (messageCounter packet).toBitVec ∉ (s.filters keypair.id).accepted

-- The static key of a peer, sealed for this device, and a timestamp newer than
-- the last one of the peer, sealed with the secret that the two share.
def FreshInitiation (packet : Bytes) : Prop :=
  let msg := readInitiation messageInitiationType packet
  s.cookieChecker.checkMAC1 p packet = true ∧ ∃ peerPK peer plain,
    log ⟨(s.noise.staticKeys p.noise msg).2, 0, peerPK, s.noise.staticHash p.noise msg,
      msg.static⟩ ∧
    s.noise.lookupPeer peerPK = some peer ∧
    log ⟨s.noise.timestampKey p.noise msg peer, 0, plain, s.noise.timestampHash p.noise msg,
      msg.timestamp⟩ ∧
    Noise.Timestamp.after (p.noise.readStamp plain) (s.noise.handshake peer).lastTimestamp = true

def FreshResponse (packet : Bytes) : Prop :=
  let msg := readResponse messageResponseType packet
  s.cookieChecker.checkMAC1 p packet = true ∧ ∃ value peer plain,
    s.noise.indexTable msg.receiver = some value ∧ value.handshake = some peer ∧
    (s.noise.handshake peer).state = .initiationCreated ∧
    log ⟨((s.noise.handshake peer).responseKeys p.noise s.noise.privateKey msg).2.2, 0, plain,
      (s.noise.handshake peer).responseHash p.noise s.noise.privateKey msg, msg.empty⟩

def Fresh : Inbound → Prop
  | .dropped => False
  | .transport packet _ receiver => s.FreshTransport log packet receiver
  | .handshake msgType packet =>
    msgType = messageInitiationType ∧ s.FreshInitiation p log packet ∨
    msgType = messageResponseType ∧ s.FreshResponse p log packet

def FreshAuthentic (arrival : Arrival ε) : Prop :=
  ∃ inbound, receiveIncoming p.stream s.settings arrival.buffer arrival.size = some inbound ∧
    s.Fresh p log inbound

-- Handshakes with their last timestamps, keypairs and the index table are in `noise`.
structure Unchanged (s s' : Receiver ι ε) : Prop where
  settings : s'.settings = s.settings
  endpoint : s'.endpoint = s.endpoint
  noise : s'.noise = s.noise
  filters : s'.filters = s.filters
  created : s'.created = s.created
  allowedips : s'.allowedips = s.allowedips
  rxBytes : s'.rxBytes = s.rxBytes
  tun : s'.tun = s.tun
  calls : ∀ c ∈ s'.calls, c ∈ s.calls ∨ ∃ sender, c = .sendHandshakeCookie sender

variable {p log s}

omit [DecidableEq ι] in
theorem Unchanged.refl : s.Unchanged s :=
  ⟨rfl, rfl, rfl, rfl, rfl, rfl, rfl, rfl, fun _ hc => .inl hc⟩

section

theorem routineSequentialReceiver_of_mem {peer : ι} {keypair : Noise.Keypair Bytes}
    {endpoint : ε} {counter : UInt64} {packet : Option Bytes}
    (h : counter.toBitVec ∈ (s.filters keypair.id).accepted) :
    s.routineSequentialReceiver peer keypair endpoint counter packet = s := by
  unfold routineSequentialReceiver
  cases packet with
  | none => rfl
  | some packet =>
    have hrejected := Replay.Recorded.validateCounter_of_not_accepts
      fun ha : Replay.Accepts _ _ rejectAfterMessages => ha.2.1 h
    simp only [hrejected, update_eq_self, Bool.not_false, if_true]

theorem receiveTransportMessage_cases (p : Primitives) (s : Receiver ι ε) (arrival : Arrival ε)
    (packet : Bytes) (receiver : UInt32) :
    s.receiveTransportMessage p arrival packet receiver = s ∨
      ∃ value keypair, s.noise.indexTable receiver.toBitVec = some value ∧
        value.keypair = some keypair ∧
        s.receiveTransportMessage p arrival packet receiver =
          s.routineSequentialReceiver value.peer keypair arrival.endpoint (messageCounter packet)
            (routineDecryption p keypair packet) := by
  unfold receiveTransportMessage
  split
  · exact .inl rfl
  · next value hvalue =>
      split
      · exact .inl rfl
      · next keypair hkeypair =>
          split
          · exact .inl rfl
          split
          · exact .inl rfl
          · exact .inr ⟨value, keypair, hvalue, hkeypair, rfl⟩

variable {arrival : Arrival ε} {packet : Bytes} {receiver : UInt32}

theorem receiveTransportMessage_of_mem (h : ∀ value keypair plain,
      s.noise.indexTable receiver.toBitVec = some value → value.keypair = some keypair →
      routineDecryption p keypair packet = some plain →
      (messageCounter packet).toBitVec ∈ (s.filters keypair.id).accepted) :
    s.receiveTransportMessage p arrival packet receiver = s := by
  rcases receiveTransportMessage_cases p s arrival packet receiver with
    hdropped | ⟨value, keypair, hvalue, hkeypair, hreceived⟩
  · exact hdropped
  · rw [hreceived]
    cases hopen : routineDecryption p keypair packet with
    | none => rfl
    | some plain =>
      exact routineSequentialReceiver_of_mem (h value keypair plain hvalue hkeypair hopen)

theorem receiveTransportMessage_unchanged (hideal : p.Authentic log)
    (h : ¬s.FreshTransport log packet receiver) :
    s.receiveTransportMessage p arrival packet receiver = s := by
  apply receiveTransportMessage_of_mem
  intro value keypair plain hvalue hkeypair hopen
  by_contra hnew
  exact h ⟨value, keypair, plain, hvalue, hkeypair, hideal _ _ _ _ _ hopen, hnew⟩

theorem routineSequentialReceiver_cases (peer : ι) (keypair : Noise.Keypair Bytes)
    (endpoint : ε) (counter : UInt64) (packet : Option Bytes) :
    let s' := s.routineSequentialReceiver peer keypair endpoint counter packet
    s' = s ∨ s'.settings = s.settings ∧
      s'.noise = (s.noise.receivedWithKeypair peer (some keypair)).1 ∧
      counter.toBitVec ∈ (s'.filters keypair.id).accepted := by
  cases packet with
  | none => exact .inl rfl
  | some packet =>
    dsimp only [routineSequentialReceiver]
    rcases (s.filters keypair.id).validateCounter_cases counter.toBitVec rejectAfterMessages with
      hrejected | ⟨hvalid, haccepted⟩
    · left
      simp only [hrejected, update_eq_self, Bool.not_false, if_true]
    · right
      simp only [hvalid, Bool.not_true, Bool.false_eq_true, if_false, deliver_settings,
        deliver_noise, deliver_filters, update_self, haccepted, List.mem_cons, true_or,
        and_self]

theorem receiveTransportMessage_again (p : Primitives) (s : Receiver ι ε)
    (arrival again : Arrival ε) (packet : Bytes) (receiver : UInt32) :
    let s' := s.receiveTransportMessage p arrival packet receiver
    s'.settings = s.settings ∧
      (s' = s ∨ s'.receiveTransportMessage p again packet receiver = s') := by
  rcases receiveTransportMessage_cases p s arrival packet receiver with
    hdropped | ⟨value, keypair, hvalue, hkeypair, hreceived⟩
  · rw [hdropped]
    exact ⟨rfl, .inl rfl⟩
  rw [hreceived]
  rcases s.routineSequentialReceiver_cases value.peer keypair arrival.endpoint
    (messageCounter packet) (routineDecryption p keypair packet) with
    hsame | ⟨hsettings, hnoise, haccepted⟩
  · rw [hsame]
    exact ⟨rfl, .inl rfl⟩
  · refine ⟨hsettings, .inr (receiveTransportMessage_of_mem ?_)⟩
    intro value' keypair' plain hvalue' hkeypair' _
    -- the index still names this keypair, or nothing
    rw [hnoise] at hvalue'
    rcases receivedWithKeypair_indexTable s.noise value.peer (some keypair)
      receiver.toBitVec with hnone | hkept
    · exact absurd (hnone.symm.trans hvalue') (by simp)
    · obtain rfl : value = value' :=
        Option.some.inj (hvalue.symm.trans (hkept.symm.trans hvalue'))
      obtain rfl : keypair = keypair' := Option.some.inj (hkeypair.symm.trans hkeypair')
      exact haccepted

end

section

variable {arrival : Arrival ε} {packet : Bytes}

theorem consumeCookieReply_unchanged : s.Unchanged (s.consumeCookieReply p packet) := by
  unfold consumeCookieReply
  split
  · exact .refl
  · split
    · exact .refl
    · exact ⟨rfl, rfl, rfl, rfl, rfl, rfl, rfl, rfl, fun _ hc => .inl hc⟩

omit [DecidableEq ι] in
theorem sendHandshakeCookie_unchanged : s.Unchanged (s.sendHandshakeCookie arrival packet) := by
  refine ⟨rfl, rfl, rfl, rfl, rfl, rfl, rfl, rfl, fun c hc => ?_⟩
  rcases List.mem_append.mp hc with hold | hnew
  · exact .inl hold
  · exact .inr ⟨_, List.mem_singleton.mp hnew⟩

variable {msgType : UInt32}

theorem handleInitiation_of_none
    (h : s.noise.checkInitiation p.noise (readInitiation msgType packet) = none) :
    s.handleInitiation p arrival msgType packet = s := by
  rw [handleInitiation, Noise.Device.consumeMessageInitiation, h]

theorem handleInitiation_unchanged (hideal : p.Authentic log)
    (hmac : s.cookieChecker.checkMAC1 p packet = true) (h : ¬s.FreshInitiation p log packet) :
    s.handleInitiation p arrival messageInitiationType packet = s := by
  have hnone : s.noise.checkInitiation p.noise (readInitiation messageInitiationType packet) =
      none := by
    rw [eq_none_iff_forall_not_mem]
    intro checked hchecked
    obtain ⟨peerPK, plain, hstatic, hpeer, htimestamp, hafter⟩ :=
      checkInitiation_opened hchecked
    rw [p.zeroNonce] at hstatic htimestamp
    exact h ⟨hmac, peerPK, checked.peer, plain, hideal _ _ _ _ _ hstatic, hpeer,
      hideal _ _ _ _ _ htimestamp, hafter⟩
  exact handleInitiation_of_none hnone

theorem handleResponse_of_none
    (h : s.noise.consumeMessageResponse p.noise (readResponse msgType packet) = (s.noise, none)) :
    s.handleResponse p arrival msgType packet = s := by
  rw [handleResponse, h]

theorem handleResponse_unchanged (hideal : p.Authentic log)
    (hmac : s.cookieChecker.checkMAC1 p packet = true) (h : ¬s.FreshResponse p log packet) :
    s.handleResponse p arrival messageResponseType packet = s := by
  rcases consumeMessageResponse_cases p.noise s.noise (readResponse messageResponseType packet) with
    hnone | ⟨value, peer, result, hvalue, hpeer, hcheck, -⟩
  · exact handleResponse_of_none hnone
  · obtain ⟨hstate, plain, hopen⟩ := checkResponse_opened hcheck
    rw [p.zeroNonce] at hopen
    exact absurd ⟨hmac, value, peer, plain, hvalue, hpeer, hstate, hideal _ _ _ _ _ hopen⟩ h

theorem handleMessage_unchanged (hideal : p.Authentic log)
    (hmac : s.cookieChecker.checkMAC1 p packet = true)
    (h : ¬s.Fresh p log (.handshake msgType packet)) :
    s.handleMessage p arrival msgType packet = s := by
  unfold handleMessage
  split
  · next htype =>
      subst htype
      exact handleInitiation_unchanged hideal hmac fun hfresh => h (.inl ⟨rfl, hfresh⟩)
  split
  · next htype =>
      subst htype
      exact handleResponse_unchanged hideal hmac fun hfresh => h (.inr ⟨rfl, hfresh⟩)
  · rfl

theorem routineHandshake_cases (p : Primitives) (s : Receiver ι ε) (arrival : Arrival ε)
    (packet : Bytes) (msgType : UInt32) :
    s.Unchanged (s.routineHandshake p arrival msgType packet) ∨
      s.cookieChecker.checkMAC1 p packet = true ∧
      s.routineHandshake p arrival msgType packet = s.handleMessage p arrival msgType packet := by
  unfold routineHandshake
  split
  · exact .inl consumeCookieReply_unchanged
  split
  · split
    · exact .inl .refl
    · next hmac =>
        have hmac : s.cookieChecker.checkMAC1 p packet = true := by simpa using hmac
        split
        · split
          · exact .inl sendHandshakeCookie_unchanged
          · split
            · exact .inl .refl
            · exact .inr ⟨hmac, rfl⟩
        · exact .inr ⟨hmac, rfl⟩
  · exact .inl .refl

theorem routineHandshake_unchanged (hideal : p.Authentic log)
    (h : ¬s.Fresh p log (.handshake msgType packet)) :
    s.Unchanged (s.routineHandshake p arrival msgType packet) := by
  rcases routineHandshake_cases p s arrival packet msgType with hsame | ⟨hmac, hmessage⟩
  · exact hsame
  · rw [hmessage, handleMessage_unchanged hideal hmac h]
    exact .refl

end

theorem handle_unchanged (hideal : p.Authentic log) {arrival : Arrival ε} {inbound : Inbound}
    (h : ¬s.Fresh p log inbound) : s.Unchanged (s.handle p arrival inbound) := by
  cases inbound with
  | dropped => exact .refl
  | transport packet padding receiver =>
    rw [handle, receiveTransportMessage_unchanged hideal h]
    exact .refl
  | handshake msgType packet =>
    rw [handle]
    split
    · exact .refl
    · exact routineHandshake_unchanged hideal h

section

variable (p s) (arrival again : Arrival ε) (packet : Bytes)

theorem sendHandshakeResponse_stamps (peer : ι) (random : Noise.Random Bytes) :
    let s' := s.sendHandshakeResponse p peer random
    s'.settings = s.settings ∧ s.noise.SameStamps s'.noise := by
  unfold sendHandshakeResponse
  split
  · exact ⟨rfl, .refl⟩
  · next noise _ hcreate => exact ⟨rfl, createMessageResponse_sameStamps hcreate⟩
  · next noise response hcreate =>
      have hstamps := createMessageResponse_sameStamps hcreate
      have hbegin : noise.SameStamps (noise.beginSymmetricSession p.noise peer).1 :=
        beginSymmetricSession_stamps
      dsimp only
      split
      all_goals
        next s' hs' =>
          have hs1 := congrArg Prod.fst hs'
          dsimp only at hs1
          simp only [call_settings, call_noise, ← hs1, beginSymmetricSession_settings,
            beginSymmetricSession_noise, true_and]
          exact hstamps.trans hbegin

theorem handleInitiation_again (msgType : UInt32) :
    let s' := s.handleInitiation p arrival msgType packet
    s'.settings = s.settings ∧ (s' = s ∨ s'.handleInitiation p again msgType packet = s') := by
  cases hcheck : s.noise.checkInitiation p.noise (readInitiation msgType packet) with
  | none =>
    rw [handleInitiation_of_none hcheck]
    exact ⟨rfl, .inl rfl⟩
  | some checked =>
    have hconsume : s.noise.consumeMessageInitiation p.noise (readInitiation msgType packet) =
        (s.noise.commitInitiation (readInitiation msgType packet) checked, some checked.peer) := by
      rw [Noise.Device.consumeMessageInitiation, hcheck]
    rw [handleInitiation, hconsume]
    dsimp only
    generalize hs1 : @addRxBytes ι ε _ _ _ _ = s1
    have hnoise : s1.noise =
        s.noise.commitInitiation (readInitiation msgType packet) checked := by
      rw [← hs1]
      simp
    have hsettings : s1.settings = s.settings := by
      rw [← hs1]
      simp
    obtain ⟨hsame, hstamps⟩ := sendHandshakeResponse_stamps p s1 checked.peer arrival.random
    refine ⟨hsame.trans hsettings, .inr (handleInitiation_of_none ?_)⟩
    rw [hnoise] at hstamps
    apply checkInitiation_again hcheck ((commitInitiation_keys _ checked).trans hstamps.keys)
    rw [hstamps.lastTimestamp, commitInitiation_lastTimestamp]
    split
    · exact BitVec.le_refl _
    · next hold =>
        exact BitVec.not_lt.mp fun hlt => hold ⟨rfl, hlt⟩

theorem handleResponse_again (msgType : UInt32) :
    let s' := s.handleResponse p arrival msgType packet
    s'.settings = s.settings ∧ (s' = s ∨ s'.handleResponse p again msgType packet = s') := by
  rcases consumeMessageResponse_cases p.noise s.noise (readResponse msgType packet) with
    hnone | ⟨value, peer, result, -, -, -, hsome⟩
  · rw [handleResponse_of_none hnone]
    exact ⟨rfl, .inl rfl⟩
  · have hagain := consumeMessageResponse_again hsome
    rw [handleResponse, hsome]
    dsimp only
    generalize hs1 : @call ι ε (@call ι ε _ _) _ = s1
    have hnoise : s1.noise =
        s.noise.commitResponse peer (readResponse msgType packet) result.1 result.2 := by
      rw [← hs1]
      simp
    have hsettings : s1.settings = s.settings := by
      rw [← hs1]
      simp
    rw [← hnoise] at hagain
    split
    all_goals
      next s2 hs2 =>
        have hs2 := congrArg Prod.fst hs2
        dsimp only at hs2
        constructor
        · simp only [call_settings, ← hs2, beginSymmetricSession_settings, hsettings]
        · refine .inr (handleResponse_of_none ?_)
          simp only [call_noise, ← hs2, beginSymmetricSession_noise, hagain]

theorem handleMessage_again (msgType : UInt32) :
    let s' := s.handleMessage p arrival msgType packet
    s'.settings = s.settings ∧ (s' = s ∨ s'.handleMessage p again msgType packet = s') := by
  dsimp only [handleMessage]
  split
  · exact handleInitiation_again p s arrival again packet msgType
  split
  · exact handleResponse_again p s arrival again packet msgType
  · exact ⟨rfl, .inl rfl⟩

theorem routineHandshake_again (msgType : UInt32) :
    let s' := s.routineHandshake p arrival msgType packet
    s'.settings = s.settings ∧
      (s.Unchanged s' ∨ s'.Unchanged (s'.routineHandshake p again msgType packet)) := by
  rcases routineHandshake_cases p s arrival packet msgType with hsame | ⟨-, hmessage⟩
  · exact ⟨hsame.settings, .inl hsame⟩
  · rw [hmessage]
    obtain ⟨hsettings, hsame | hagain⟩ := handleMessage_again p s arrival again packet msgType
    · rw [hsame]
      exact ⟨rfl, .inl .refl⟩
    · refine ⟨hsettings, .inr ?_⟩
      rcases routineHandshake_cases p (s.handleMessage p arrival msgType packet) again packet
        msgType with hsame | ⟨-, hmessage⟩
      · exact hsame
      · rw [hmessage, hagain]
        exact .refl

theorem handle_again (inbound : Inbound) :
    let s' := s.handle p arrival inbound
    s'.settings = s.settings ∧
      (s.Unchanged s' ∨ s'.Unchanged (s'.handle p again inbound)) := by
  cases inbound with
  | dropped => exact ⟨rfl, .inl .refl⟩
  | transport packet padding receiver =>
    obtain ⟨hsettings, hsame | hagain⟩ :=
      receiveTransportMessage_again p s arrival again packet receiver
    · simp only [handle, hsame]
      exact ⟨trivial, .inl .refl⟩
    · simp only [handle, hagain]
      exact ⟨hsettings, .inr .refl⟩
  | handshake msgType packet =>
    dsimp only [handle]
    split
    · exact ⟨rfl, .inl .refl⟩
    · obtain ⟨hsettings, hunchanged⟩ := routineHandshake_again p s arrival again packet msgType
      refine ⟨hsettings, hunchanged.imp_right fun hagain => ?_⟩
      split
      · exact .refl
      · exact hagain

end

theorem receive_eq_some {inbound : Inbound} {arrival : Arrival ε}
    (h : receiveIncoming p.stream s.settings arrival.buffer arrival.size = some inbound) :
    s.receive p arrival = some (s.handle p arrival inbound) := by
  rw [receive, h]
  rfl

-- Only a fresh authentic packet moves the receiver, and only once.
theorem unauthentic_unchanged (hideal : p.Authentic log) (s : Receiver ι ε) (arrival : Arrival ε) :
    (¬s.FreshAuthentic p log arrival →
      ∃ s', s.receive p arrival = some s' ∧ s.Unchanged s') ∧
    ∀ s' again, s.receive p arrival = some s' → ¬s.Unchanged s' →
      again.buffer = arrival.buffer → again.size = arrival.size →
      ∃ s'', s'.receive p again = some s'' ∧ s'.Unchanged s'' := by
  obtain ⟨inbound, hinbound⟩ :=
    receiveIncoming_some p.stream s.settings arrival.size_le arrival.buffer_le
  constructor
  · intro h
    exact ⟨_, receive_eq_some hinbound,
      handle_unchanged hideal fun hfresh => h ⟨inbound, hinbound, hfresh⟩⟩
  · intro s' again hs' heffect hbuffer hsize
    rw [receive_eq_some hinbound] at hs'
    obtain rfl := Option.some.inj hs'
    obtain ⟨hsettings, hsame | hagain⟩ := handle_again p s arrival again inbound
    · exact absurd hsame heffect
    · rw [← hsettings, ← hbuffer, ← hsize] at hinbound
      exact ⟨_, receive_eq_some hinbound, hagain⟩

def sampleLog (sealing : Sealing) : Prop :=
  sealing.nonce = 0 ∧ sealing.plain = [] ∧ sealing.cipher = List.replicate 16 9

def samplePrimitives : Primitives where
  stream _ _ _ := 0
  noise :=
    { zero := [], empty := [], initialChainKey := [], wgIdentifier := [], publicKey := id
      scalarMult := fun _ _ => [], mixHash := fun _ _ => [], kdf1 := fun _ _ => []
      kdf2 := fun _ _ => ([], []), kdf3 := fun _ _ => ([], [], []), aeadSeal := fun _ _ _ => []
      aeadOpen := fun _ cipher _ => if cipher = List.replicate 16 9 then some [] else none
      stamp := fun _ => [], readStamp := fun _ => 0 }
  aeadOpen _ nonce cipher _ :=
    if nonce = 0 ∧ cipher = List.replicate 16 9 then some [] else none
  zeroNonce _ _ _ := by simp
  xaeadOpen _ _ _ _ := none
  mac _ _ := []

theorem samplePrimitives_authentic : samplePrimitives.Authentic sampleLog := by
  intro key nonce plain ad cipher h
  simp only [samplePrimitives, ite_none_right_eq_some, Option.some.injEq] at h
  exact ⟨h.1.1, h.2.symm, h.1.2⟩

def sampleReceiver (filter : Replay.Recorded) : Receiver Unit Unit where
  settings := newDevice
  noise :=
    { privateKey := [], publicKey := [], lookupPeer := fun _ => none
      peers := fun _ => newPeer samplePrimitives.noise [] [] []
      indexTable := fun i => if i = 5 then some ⟨(), none, some ⟨0, [], [], true, 5, 6⟩⟩ else none
      allocated := 1 }
  filters _ := filter
  created _ := 0
  endpoint _ := none
  disableRoaming _ := false
  rxBytes _ := 0
  cookieChecker := ⟨[], [], 0⟩
  cookieGenerator _ := ⟨[], [], 0, none, []⟩
  allowedips := {}
  tun := []
  calls := []

def sampleArrival : Arrival Unit where
  buffer := putUint32 4 ++ putUint32 5 ++ putUint64 0 ++ List.replicate 16 9
  size := 32
  endpoint := ()
  dstToBytes := []
  queueFull := false
  underLoad := false
  allow := true
  secret := []
  random := ⟨[], [], 0⟩
  size_le := by decide
  buffer_le := by decide

theorem unauthentic_unchanged_replay :
    let taken := (Replay.Recorded.new.validateCounter 0 rejectAfterMessages).2
    ((sampleReceiver .new).receive samplePrimitives sampleArrival).map (fun s => s.rxBytes ()) =
      some 32 ∧
    ¬(sampleReceiver taken).FreshAuthentic samplePrimitives sampleLog sampleArrival ∧
    ∃ s', (sampleReceiver taken).receive samplePrimitives sampleArrival = some s' ∧
      (sampleReceiver taken).Unchanged s' := by
  intro taken
  have hinbound : receiveIncoming samplePrimitives.stream newDevice sampleArrival.buffer
      sampleArrival.size = some (.transport sampleArrival.buffer 0 5) := by decide +kernel
  have hnot :
      ¬(sampleReceiver taken).FreshAuthentic samplePrimitives sampleLog sampleArrival := by
    rintro ⟨inbound, h, hfresh⟩
    obtain rfl := Option.some.inj (hinbound.symm.trans h)
    obtain ⟨value, keypair, plain, -, -, -, hnew⟩ := hfresh
    have hmem : (messageCounter sampleArrival.buffer).toBitVec ∈ taken.accepted := by
      decide +kernel
    exact hnew hmem
  exact ⟨by decide +kernel, hnot,
    (unauthentic_unchanged samplePrimitives_authentic (sampleReceiver taken) sampleArrival).1 hnot⟩

end Receiver

end StarlingWg.Device
