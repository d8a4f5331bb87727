import StarlingWg.Noise.Handshake

namespace StarlingWg.Noise

open Function Option
open Noise.Device (handshake store storeHandshake)

variable {B ι κ : Type} [DecidableEq B]

section

variable {c : Crypto B}

-- One side of the configuration: the peer of a device is the device with the
-- given private key.
structure Device.Knows (c : Crypto B) (dev : Device B ι) (peer : ι) (privateKey : B) : Prop where
  publicKey : dev.publicKey = c.publicKey dev.privateKey
  remoteStatic : (dev.handshake peer).remoteStatic = c.publicKey privateKey
  precomputed : (dev.handshake peer).precomputedStaticStatic =
    c.scalarMult dev.privateKey (c.publicKey privateKey)
  lookup : dev.lookupPeer (c.publicKey privateKey) = some peer
  running : (dev.peers peer).isRunning = true

def Device.Accepts (dev : Device B ι) (peer : ι) (timestamp : Timestamp) : Prop :=
  Timestamp.after timestamp (dev.handshake peer).lastTimestamp = true ∧
    Device.handshakeInitationRate < dev.clock - (dev.handshake peer).lastInitiationConsumption

variable {h : Handshake B} {ephemeral msgEphemeral : B}

theorem initiate_eq (hc : c.Honest) {remote : B} (hstatic : h.remoteStatic = c.publicKey remote)
    (hp : h.precomputedStaticStatic ≠ c.zero) (static ephemeral : B) (timestamp : Timestamp) :
    h.initiate c static ephemeral timestamp =
      let msgEphemeral := c.publicKey ephemeral
      let hash := c.mixHash (c.mixHash c.initialHash (c.publicKey remote)) msgEphemeral
      let first := c.kdf2 (c.kdf1 c.initialChainKey msgEphemeral)
        (c.scalarMult ephemeral (c.publicKey remote))
      let msgStatic := c.aeadSeal first.2 static hash
      let second := c.kdf2 first.1 h.precomputedStaticStatic
      let msgTimestamp := c.aeadSeal second.2 (c.stamp timestamp) (c.mixHash hash msgStatic)
      ({ h with
          localEphemeral := ephemeral
          hash := c.mixHash (c.mixHash hash msgStatic) msgTimestamp
          chainKey := second.1 }, some (msgEphemeral, msgStatic, msgTimestamp)) := by
  simp [Handshake.initiate, Handshake.mixHash, Handshake.mixKey, hstatic, hc.sharedSecret, hp]

theorem checkInitiation_of_initiate (hc : c.Honest) {initiator : Device B ι}
    {responder : Device B κ} {i : ι} {r : κ} (hi : initiator.Knows c i responder.privateKey)
    (hr : responder.Knows c r initiator.privateKey) {timestamp : Timestamp}
    (ht : responder.Accepts r timestamp) {msgStatic msgTimestamp : B}
    (hinitiate : (initiator.handshake i).initiate c initiator.publicKey ephemeral timestamp =
      (h, some (msgEphemeral, msgStatic, msgTimestamp))) (sender : Index) :
    responder.checkInitiation c
        ⟨messageInitiationType, sender, msgEphemeral, msgStatic, msgTimestamp⟩ =
      some ⟨r, h.hash, h.chainKey, timestamp⟩ := by
  have hpi : (initiator.handshake i).precomputedStaticStatic ≠ c.zero := by
    rw [hi.precomputed]
    exact hc.nonzero _ _
  have hpr : (responder.handshake r).precomputedStaticStatic =
      (initiator.handshake i).precomputedStaticStatic := by
    rw [hi.precomputed, hr.precomputed, hc.dh]
  have hflood : ¬responder.clock - (responder.handshake r).lastInitiationConsumption ≤
      Device.handshakeInitationRate := by
    have := ht.2
    omega
  rw [initiate_eq hc hi.remoteStatic hpi] at hinitiate
  cases hinitiate
  simp only [Device.checkInitiation, ne_eq, not_true_eq_false, ↓reduceIte, hc.sharedSecret,
    hc.dh ephemeral, hi.publicKey, hr.publicKey, Bool.not_eq_eq_eq_not, Bool.not_true,
    Bool.or_eq_true, decide_eq_true_eq, pure_def, bind_eq_bind, bind_some,
    hc.aead, hr.lookup, hr.running, Bool.true_eq_false, hpr, hpi, hflood, or_false, hc.stamp, ht.1]

theorem respond_eq (hc : c.Honest) {remoteEphemeral remoteStatic : B}
    (hephemeral : h.remoteEphemeral = c.publicKey remoteEphemeral)
    (hstatic : h.remoteStatic = c.publicKey remoteStatic) (ephemeral : B) :
    h.respond c ephemeral =
      let msgEphemeral := c.publicKey ephemeral
      let mixed := c.kdf1 (c.kdf1 (c.kdf1 h.chainKey msgEphemeral)
        (c.scalarMult ephemeral (c.publicKey remoteEphemeral)))
        (c.scalarMult ephemeral (c.publicKey remoteStatic))
      let derived := c.kdf3 mixed h.presharedKey
      let hash := c.mixHash (c.mixHash h.hash msgEphemeral) derived.2.1
      let msgEmpty := c.aeadSeal derived.2.2 c.empty hash
      ({ h with
          localEphemeral := ephemeral
          hash := c.mixHash hash msgEmpty
          chainKey := derived.1 }, some (msgEphemeral, msgEmpty)) := by
  simp [Handshake.respond, Handshake.mixHash, Handshake.mixKey, hephemeral, hstatic,
    hc.sharedSecret]

theorem checkResponse_of_respond (hc : c.Honest) {hi hr : Handshake B} {privateKey : B}
    {msgEmpty : B} (hrespond : hr.respond c ephemeral = (h, some (msgEphemeral, msgEmpty)))
    (hstate : hi.state = .initiationCreated) (hhash : hi.hash = hr.hash)
    (hchain : hi.chainKey = hr.chainKey) (hpsk : hi.presharedKey = hr.presharedKey)
    (hephemeral : hr.remoteEphemeral = c.publicKey hi.localEphemeral)
    (hstatic : hr.remoteStatic = c.publicKey privateKey) (type : BitVec 32)
    (sender receiver : Index) :
    hi.checkResponse c privateKey ⟨type, sender, receiver, msgEphemeral, msgEmpty⟩ =
      some (h.hash, h.chainKey) := by
  rw [respond_eq hc hephemeral hstatic] at hrespond
  cases hrespond
  simp [Handshake.checkResponse, hstate, hhash, hchain, hpsk, hc.sharedSecret, hc.dh ephemeral,
    hc.aead]

end

section

variable [DecidableEq ι] [DecidableEq κ] (c : Crypto B)

structure Stages (B ι κ : Type) where
  created : Device B ι
  consumed : Device B κ
  answered : Device B κ
  responder : Device B κ
  completed : Device B ι
  initiator : Device B ι

-- The six calls, with the message types restored as the receive path does.
-- None when a call fails or returns another peer.
def honestRun (initiator : Device B ι) (i : ι) (responder : Device B κ) (r : κ)
    (initRandom respRandom : Random B) (timestamp : Timestamp) : Option (Stages B ι κ) := do
  let (created, .ok initiation) ← initiator.createMessageInitiation c i initRandom timestamp | none
  let (consumed, found) :=
    responder.consumeMessageInitiation c { initiation with type := messageInitiationType }
  if found ≠ some r then none
  else
    let (answered, .ok response) ← consumed.createMessageResponse c r respRandom | none
    let (responderDone, .ok _) := answered.beginSymmetricSession c r | none
    let (completed, found) :=
      created.consumeMessageResponse c { response with type := messageResponseType }
    if found ≠ some i then none
    else
      let (initiatorDone, .ok _) := completed.beginSymmetricSession c i | none
      return ⟨created, consumed, answered, responderDone, completed, initiatorDone⟩

structure Stages.Agree (stages : Stages B ι κ) (i : ι) (r : κ) : Prop where
  firstHash : (stages.created.handshake i).hash = (stages.consumed.handshake r).hash
  firstChainKey : (stages.created.handshake i).chainKey = (stages.consumed.handshake r).chainKey
  secondHash : (stages.completed.handshake i).hash = (stages.answered.handshake r).hash
  secondChainKey : (stages.completed.handshake i).chainKey = (stages.answered.handshake r).chainKey
  keys : ∃ ours theirs, (stages.initiator.keypairs i).current = some ours ∧
    (stages.responder.keypairs r).next = some theirs ∧ ours.send = theirs.receive ∧
    ours.receive = theirs.send ∧ ours.remoteIndex = theirs.localIndex ∧
    theirs.remoteIndex = ours.localIndex

end

section

variable [DecidableEq ι] {c : Crypto B} {dev : Device B ι} {peer : ι} {random : Random B}
  {h : Handshake B} {ephemeral : B} {sender : Index}

theorem createMessageInitiation_ok {timestamp : Timestamp} {static msgTimestamp : B}
    (hinitiate : (dev.handshake peer).initiate c dev.publicKey random.ephemeral timestamp =
      (h, some (ephemeral, static, msgTimestamp)))
    (hdraw : (dev.indexTable.delete h.localIndex).newIndexForHandshake random.draws =
      some sender) :
    ∃ created, dev.createMessageInitiation c peer random timestamp =
        some (created, .ok ⟨random.msgType, sender, ephemeral, static, msgTimestamp⟩) ∧
      created.handshake peer = { h with localIndex := sender, state := .initiationCreated } ∧
      created.indexTable sender = some ⟨peer, some peer, none⟩ ∧
      created.privateKey = dev.privateKey := by
  refine ⟨_, by simp only [Device.createMessageInitiation, hinitiate, hdraw]; rfl, ?_, ?_, ?_⟩
  · simp [handshake, storeHandshake, store]
  · simp [storeHandshake, store, IndexTable.insertHandshake]
  · rfl

theorem consumeMessageInitiation_ok {msg : MessageInitiation B} {checked : Device.Initiated B ι}
    (hcheck : dev.checkInitiation c msg = some checked) :
    ∃ consumed, dev.consumeMessageInitiation c msg = (consumed, some checked.peer) ∧
      consumed.indexTable = dev.indexTable ∧
      ∃ timestamp consumption, consumed.handshake checked.peer =
        { dev.handshake checked.peer with
          hash := checked.hash
          chainKey := checked.chainKey
          remoteIndex := msg.sender
          remoteEphemeral := msg.ephemeral
          lastTimestamp := timestamp
          lastInitiationConsumption := consumption
          state := .initiationConsumed } := by
  refine ⟨_, by simp only [Device.consumeMessageInitiation, hcheck]; rfl, ?_, ?_⟩
  · rfl
  · simp only [Device.commitInitiation, handshake, storeHandshake, store, update_self]
    exact ⟨_, _, rfl⟩

theorem createMessageResponse_ok {empty : B}
    (hstate : (dev.handshake peer).state = .initiationConsumed)
    (hdraw : (dev.indexTable.delete (dev.handshake peer).localIndex).newIndexForHandshake
      random.draws = some sender)
    (hrespond : ((dev.handshake peer).assign sender).respond c random.ephemeral =
      (h, some (ephemeral, empty))) :
    ∃ answered, dev.createMessageResponse c peer random =
        some (answered, .ok ⟨random.msgType, sender, h.remoteIndex, ephemeral, empty⟩) ∧
      answered.handshake peer = { h with state := .responseCreated } := by
  refine ⟨_, by simp only [Device.createMessageResponse, hstate, hdraw, hrespond, ne_eq,
    not_true_eq_false, ↓reduceIte]; rfl, ?_⟩
  simp [handshake, storeHandshake, store]

theorem consumeMessageResponse_ok {msg : MessageResponse B} {hash chainKey : B}
    (htype : msg.type = messageResponseType)
    (hlookup : dev.indexTable msg.receiver = some ⟨peer, some peer, none⟩)
    (hcheck : (dev.handshake peer).checkResponse c dev.privateKey msg = some (hash, chainKey)) :
    ∃ completed, dev.consumeMessageResponse c msg = (completed, some peer) ∧
      completed.handshake peer =
        { dev.handshake peer with
          hash := hash
          chainKey := chainKey
          remoteIndex := msg.sender
          state := .responseConsumed } := by
  refine ⟨_, by simp only [Device.consumeMessageResponse, htype, hlookup, hcheck, ne_eq,
    not_true_eq_false, ↓reduceIte]; rfl, ?_⟩
  simp [Device.commitResponse, handshake, storeHandshake, store]

omit [DecidableEq B] in
theorem beginSymmetricSession_ok {sendKey recvKey : B} {isInitiator : Bool}
    (hkeys : (dev.handshake peer).deriveKeys c = some (sendKey, recvKey, isInitiator)) :
    ∃ done, dev.beginSymmetricSession c peer = (done, .ok ()) ∧
      (if isInitiator then (done.keypairs peer).current else (done.keypairs peer).next) =
        some ⟨dev.allocated, sendKey, recvKey, isInitiator, (dev.handshake peer).localIndex,
          (dev.handshake peer).remoteIndex⟩ := by
  refine ⟨_, by simp only [Device.beginSymmetricSession, Device.deriveKeypair, hkeys]; rfl, ?_⟩
  simp only [Device.keypairs, Device.allocate, store, update_self]
  cases isInitiator with
  | true =>
    by_cases hnext : (dev.peers peer).keypairs.next.isSome <;> simp [Keypairs.rotate, hnext]
  | false => simp [Keypairs.rotate]

end

section

variable [DecidableEq ι] [DecidableEq κ] {c : Crypto B} {initiator : Device B ι}
  {responder : Device B κ} {i : ι} {r : κ}

theorem honestRun_agrees (hc : c.Honest) (hi : initiator.Knows c i responder.privateKey)
    (hr : responder.Knows c r initiator.privateKey)
    (hpsk : (initiator.handshake i).presharedKey = (responder.handshake r).presharedKey)
    {timestamp : Timestamp} (ht : responder.Accepts r timestamp) {initRandom respRandom : Random B}
    (hinitDraw : ((initiator.indexTable.delete (initiator.handshake i).localIndex
      ).newIndexForHandshake initRandom.draws).isSome)
    (hrespDraw : ((responder.indexTable.delete (responder.handshake r).localIndex
      ).newIndexForHandshake respRandom.draws).isSome) :
    ∃ stages, honestRun c initiator i responder r initRandom respRandom timestamp = some stages ∧
      stages.Agree i r := by
  obtain ⟨x, hx⟩ := isSome_iff_exists.mp hinitDraw
  obtain ⟨y, hy⟩ := isSome_iff_exists.mp hrespDraw
  have hpi : (initiator.handshake i).precomputedStaticStatic ≠ c.zero := by
    rw [hi.precomputed]
    exact hc.nonzero _ _
  -- the first message
  obtain ⟨h1, static, msgTimestamp, hinitiate, hephemeral, hpsk1, hindex⟩ :
      ∃ h1 static msgTimestamp,
        (initiator.handshake i).initiate c initiator.publicKey initRandom.ephemeral timestamp =
          (h1, some (c.publicKey initRandom.ephemeral, static, msgTimestamp)) ∧
        h1.localEphemeral = initRandom.ephemeral ∧
        h1.presharedKey = (initiator.handshake i).presharedKey ∧
        h1.localIndex = (initiator.handshake i).localIndex :=
    ⟨_, _, _, initiate_eq hc hi.remoteStatic hpi _ _ _, rfl, rfl, rfl⟩
  obtain ⟨created, hcreate, hcreated, htable, hkey⟩ :=
    createMessageInitiation_ok hinitiate (hindex ▸ hx)
  obtain ⟨consumed, hconsume, hconsumedTable, lastTimestamp, consumption, hconsumed⟩ :=
    consumeMessageInitiation_ok (checkInitiation_of_initiate hc hi hr ht hinitiate x)
  -- the second message
  have hremote : (consumed.handshake r).remoteEphemeral = c.publicKey initRandom.ephemeral := by
    rw [hconsumed]
  have hstatic : (consumed.handshake r).remoteStatic = c.publicKey initiator.privateKey := by
    rw [hconsumed]
    exact hr.remoteStatic
  have hdraw : (consumed.indexTable.delete (consumed.handshake r).localIndex).newIndexForHandshake
      respRandom.draws = some y := by
    rw [hconsumedTable, hconsumed]
    exact hy
  obtain ⟨h2, empty, hrespond, hreceiver, hsender⟩ : ∃ h2 empty,
      ((consumed.handshake r).assign y).respond c respRandom.ephemeral =
        (h2, some (c.publicKey respRandom.ephemeral, empty)) ∧
      h2.remoteIndex = (consumed.handshake r).remoteIndex ∧ h2.localIndex = y :=
    ⟨_, _, respond_eq hc (h := (consumed.handshake r).assign y) hremote hstatic _, rfl, rfl⟩
  have hx2 : h2.remoteIndex = x := by rw [hreceiver, hconsumed]
  obtain ⟨answered, hanswer, hanswered⟩ :=
    createMessageResponse_ok (by rw [hconsumed]) hdraw hrespond
  have hcheck : (created.handshake i).checkResponse c created.privateKey
      ⟨messageResponseType, y, x, c.publicKey respRandom.ephemeral, empty⟩ =
        some (h2.hash, h2.chainKey) := by
    rw [hkey]
    refine checkResponse_of_respond hc hrespond ?_ ?_ ?_ ?_ ?_ hstatic _ _ _
    · rw [hcreated]
    · rw [hcreated, Handshake.assign, hconsumed]
    · rw [hcreated, Handshake.assign, hconsumed]
    · rw [hcreated, Handshake.assign, hconsumed]
      exact hpsk1.trans hpsk
    · rw [hcreated, hephemeral]
      exact hremote
  obtain ⟨completed, hcomplete, hcompleted⟩ := consumeMessageResponse_ok rfl htable hcheck
  -- the two sessions
  obtain ⟨responderDone, hrespDone, htheirs⟩ := beginSymmetricSession_ok (c := c)
    (by rw [hanswered]; rfl : (answered.handshake r).deriveKeys c = _)
  obtain ⟨initiatorDone, hinitDone, hours⟩ := beginSymmetricSession_ok (c := c)
    (by rw [hcompleted]; rfl : (completed.handshake i).deriveKeys c = _)
  refine ⟨⟨created, consumed, answered, responderDone, completed, initiatorDone⟩, ?_, ?_⟩
  · simp [honestRun, hcreate, hconsume, hanswer, hrespDone, hx2, hcomplete, hinitDone]
  · exact {
      firstHash := by rw [hcreated, hconsumed]
      firstChainKey := by rw [hcreated, hconsumed]
      secondHash := by rw [hcompleted, hanswered]
      secondChainKey := by rw [hcompleted, hanswered]
      keys := ⟨_, _, hours, htheirs, by rw [hcompleted, hanswered], by rw [hcompleted, hanswered],
        by simp [hcompleted, hanswered, hsender],
        by simp [hcompleted, hanswered, hx2, hcreated]⟩ }

end

section

open Term (atom crypto)

def sampleDevice (privateKey remote : Term) : Device Term Unit where
  privateKey := privateKey
  publicKey := .pub privateKey
  lookupPeer pk := if pk = .pub remote then some () else none
  peers _ := newPeer crypto privateKey (.pub remote) (atom 99)
  clock := 1000000000

theorem sampleDevice_knows (privateKey remote : Term) :
    (sampleDevice privateKey remote).Knows crypto ()
      (sampleDevice remote privateKey).privateKey where
  publicKey := rfl
  remoteStatic := rfl
  precomputed := rfl
  lookup := if_pos rfl
  running := rfl

theorem honestRun_agrees_sample :
    ∃ stages, honestRun crypto (sampleDevice (atom 10) (atom 11)) ()
        (sampleDevice (atom 11) (atom 10)) () ⟨atom 20, [7], 1⟩ ⟨atom 21, [9], 2⟩ 5 = some stages ∧
      stages.Agree () () :=
  honestRun_agrees Term.crypto_honest (sampleDevice_knows (atom 10) (atom 11))
    (sampleDevice_knows (atom 11) (atom 10)) rfl ⟨by decide, by decide⟩ (by decide) (by decide)

end

end StarlingWg.Noise
