import StarlingWg.Noise.Workers

namespace StarlingWg.Noise

open Interaction Workers Function

variable {B ι τ : Type}

section

def Workers.Op.peer : {β : Type} → Op B ι β → Option ι
  | _, .commitInitiation _ checked => some checked.peer
  | _, .createMessageResponse peer _ => some peer
  | _, .commitResponse handshake _ _ _ => some handshake
  | _, .beginSymmetricSession peer => some peer
  | _, .createMessageInitiation peer _ _ => some peer
  | _, .receivedWithKeypair peer _ => some peer
  | _, .expireCurrentKeypairs peer => some peer
  | _, .zeroAndFlushAll peer => some peer
  | _, _ => none

def Workers.Op.draws : {β : Type} → Op B ι β → List Index
  | _, .createMessageResponse _ drawn => drawn.draws
  | _, .createMessageInitiation _ drawn _ => drawn.draws
  | _, _ => []

def DrawsNonzero : Condition B ι τ :=
  fun _ _ {_} op _ => 0 ∉ op.draws

instance (w : World B ι τ) (t : τ) {β : Type} (op : Op B ι β) (reply : β) :
    Decidable (DrawsNonzero w t op reply) :=
  inferInstanceAs (Decidable (0 ∉ op.draws))

structure Device.Undisturbed (dev dev' : Device B ι) (peer : ι) : Prop where
  others : ∀ i entry, entry.peer ≠ peer →
    (dev'.indexTable i = some entry ↔ dev.indexTable i = some entry)
  own : ∀ k, k ∈ (dev.keypairs peer).held → k ∈ (dev'.keypairs peer).held →
    dev'.indexTable k.localIndex = dev.indexTable k.localIndex

variable [DecidableEq B] [DecidableEq ι] {c : Crypto B} {dev dev' : Device B ι} {peer : ι}

omit [DecidableEq B] [DecidableEq ι] in
theorem Device.Kept.undisturbed (h : dev.Owned) (hk : dev.Kept dev' peer) :
    dev.Undisturbed dev' peer where
  others := hk.tracks.others
  own k hold hnew := by
    by_cases hz : k.localIndex = 0
    · rw [hz, hk.tracks.zero, (h.tracks peer).zero]
    · rw [hk.tracks.keypair_entry hnew hz, (h.tracks peer).keypair_entry hold hz]

theorem Device.Owned.effect (h : dev.Owned) {β : Type} (op : Op B ι β) (hdraws : 0 ∉ op.draws)
    (hpeer : op.peer = some peer) : dev.Kept (effect c dev op) peer := by
  cases op with
  | commitInitiation msg checked =>
    obtain rfl := Option.some.inj hpeer
    exact h.commitInitiation msg checked
  | createMessageResponse p random =>
    obtain rfl := Option.some.inj hpeer
    simp only [effect]
    cases hr : dev.createMessageResponse c p random with
    | none => exact h.unchanged
    | some result => exact h.createMessageResponse hdraws hr
  | commitResponse handshake msg hash chainKey =>
    obtain rfl := Option.some.inj hpeer
    exact h.commitResponse msg hash chainKey
  | beginSymmetricSession p =>
    obtain rfl := Option.some.inj hpeer
    exact h.beginSymmetricSession
  | createMessageInitiation p random timestamp =>
    obtain rfl := Option.some.inj hpeer
    simp only [effect]
    cases hr : dev.createMessageInitiation c p random timestamp with
    | none => exact h.unchanged
    | some result => exact h.createMessageInitiation hdraws hr
  | receivedWithKeypair p received =>
    obtain rfl := Option.some.inj hpeer
    exact h.receivedWithKeypair received
  | expireCurrentKeypairs p =>
    obtain rfl := Option.some.inj hpeer
    exact h.expireCurrentKeypairs
  | zeroAndFlushAll p =>
    obtain rfl := Option.some.inj hpeer
    exact h.zeroAndFlushAll
  | _ => simp [Op.peer] at hpeer

theorem effect_of_peer_none {β : Type} {op : Op B ι β} (h : op.peer = none) :
    effect c dev op = dev := by
  cases op with
  | receive | request | random | checkInitiation | lookup | checkResponse => rfl
  | _ => simp [Op.peer] at h

variable [DecidableEq τ] {role : τ → Role} {labels : List (WorkLabel B ι τ)}
  {last : WorkPool B ι τ}

theorem owned_of_run (hfresh : dev.Fresh) (hr : Run c role dev labels last)
    (hdraws : ∀ label ∈ labels, DrawsNonzero.Holds label) : last.state.device.Owned := by
  refine (invariant_of_run hr DrawsNonzero (fun _ _ _ _ _ => True) hdraws
    (fun w => w.device.Owned) hfresh.live.owned (fun w clock running h => h.elapse clock running)
    ?_).1
  intro w t β op reply _ _ hnonzero howned
  refine ⟨?_, trivial⟩
  show (effect c w.device op).Owned
  cases hpeer : op.peer with
  | none => rwa [effect_of_peer_none hpeer]
  | some peer => exact (howned.effect op hnonzero hpeer).owned howned

-- In any reachable state, an operation on a peer leaves the others alone.
theorem peers_undisturbed (hfresh : dev.Fresh) (hr : Run c role dev labels last)
    (hdraws : ∀ label ∈ labels, DrawsNonzero.Holds label) {β : Type} (op : Op B ι β)
    (hpeer : op.peer = some peer) (hop : 0 ∉ op.draws) :
    last.state.device.Undisturbed (effect c last.state.device op) peer := by
  have howned := owned_of_run hfresh hr hdraws
  exact (howned.effect op hop hpeer).undisturbed howned

end

section

open Term (atom crypto)

def initiate (drawn : Random Term) : Script Term Bool Unit where
  request _ _ := some (.createMessageInitiation true 5)
  random _ _ := some drawn

def initiation (drawn : Random Term) : Op Term Bool (Option (MessageInitiation Term)) :=
  .createMessageInitiation false drawn 6

theorem zero_index_deleted :
    ∃ labels last, Run crypto (fun _ : Unit => .requests) twoPeers labels last ∧
      ¬last.state.device.Undisturbed
        (effect crypto last.state.device (initiation ⟨atom 21, [9], 1⟩)) false := by
  obtain ⟨labels, last, hr, -, hp⟩ := (initiate ⟨atom 20, [0], 1⟩).reaches crypto (fun _ => true)
    (fun _ => .requests) twoPeers [(), (), (), ()] (fun w => decide
      (w.device.indexTable 0 = some ⟨true, some true, none⟩ ∧
        (effect crypto w.device (initiation ⟨atom 21, [9], 1⟩)).indexTable 0 = none))
    (by decide)
  obtain ⟨hbefore, hafter⟩ := of_decide_eq_true hp
  refine ⟨labels, last, hr, fun h => ?_⟩
  have hsame := (h.others 0 ⟨true, some true, none⟩ (by decide)).mpr hbefore
  rw [hafter] at hsame
  simp at hsame

theorem peers_undisturbed_two :
    ∃ labels last, Run crypto (fun _ : Unit => .requests) twoPeers labels last ∧
      last.state.device.indexTable 7 = some ⟨true, some true, none⟩ ∧
      last.state.device.Undisturbed
        (effect crypto last.state.device (initiation ⟨atom 21, [7, 9], 1⟩)) false := by
  obtain ⟨labels, last, hr, hdraws, hp⟩ := (initiate ⟨atom 20, [7], 1⟩).reaches crypto
    (fun label => decide (DrawsNonzero.Holds label)) (fun _ => .requests) twoPeers
    [(), (), (), ()] (fun w => decide (w.device.indexTable 7 = some ⟨true, some true, none⟩))
    (by decide)
  exact ⟨labels, last, hr, of_decide_eq_true hp, peers_undisturbed twoPeers_fresh hr
    (fun label hl => of_decide_eq_true (hdraws label hl)) _ rfl (by decide)⟩

end

section

def HandshakeState.Initiating : HandshakeState → Prop
  | .initiationCreated | .responseConsumed => True
  | .zeroed | .initiationConsumed | .responseCreated => False

instance : DecidablePred HandshakeState.Initiating
  | .initiationCreated | .responseConsumed => isTrue trivial
  | .zeroed | .initiationConsumed | .responseCreated => isFalse id

def Workers.Origin.index (origin : Option (Origin B)) : Option Index :=
  origin.bind Origin.sender

-- The index of an initiator's keypair is the one of the initiation that its
-- keys come from, and the table maps it to the keypair.
def Workers.Installed.Agrees (i : Installed B ι) : Prop :=
  i.keypair.isInitiator = true → Origin.index i.origin = some i.keypair.localIndex ∧
    i.entry = some ⟨i.peer, none, some i.keypair⟩

-- A response is committed while the handshake has the index of the initiation
-- that was checked; a failing CreateMessageInitiation finds no initiation
-- under way; index 0 is not drawn.
def CommitsCurrent : Condition B ι τ
  | w, t, _, .commitResponse handshake _ _ _, _ =>
    Origin.index (w.log.read t) = some (w.device.handshake handshake).localIndex
  | w, _, _, .createMessageInitiation peer random _, reply =>
    0 ∉ random.draws ∧ (reply = none → ¬(w.device.handshake peer).state.Initiating)
  | _, _, _, .createMessageResponse _ random, _ => 0 ∉ random.draws
  | _, _, _, _, _ => True

instance (w : World B ι τ) (t : τ) {β : Type} (op : Op B ι β) (reply : β) :
    Decidable (CommitsCurrent w t op reply) := by
  induction op using Op.casesOn <;> dsimp only [CommitsCurrent] <;> infer_instance

structure Agreeing (w : World B ι τ) : Prop where
  owned : w.device.Owned
  origin : ∀ peer, Origin.index (w.log.origin peer) ≠ some 0
  read : ∀ t, Origin.index (w.log.read t) ≠ some 0
  current : ∀ peer, (w.device.handshake peer).state.Initiating →
    Origin.index (w.log.origin peer) = some (w.device.handshake peer).localIndex
  installed : ∀ i ∈ w.log.installed, i.Agrees

variable [DecidableEq ι] {c : Crypto B} {w : World B ι τ}
  {dev' : Device B ι} {log : Log B ι τ} {peer : ι} {origin : Option (Origin B)} {t : τ}

theorem Agreeing.write (h : Agreeing w) (hkept : w.device.Kept dev' peer)
    (horigin : log.origin = update w.log.origin peer origin)
    (hread : log.read = w.log.read)
    (hinstalled : ∀ i ∈ log.installed, i ∈ w.log.installed ∨ i.Agrees)
    (hnonzero : Origin.index origin ≠ some 0)
    (hcurrent : (dev'.handshake peer).state.Initiating →
      Origin.index origin = some (dev'.handshake peer).localIndex) : Agreeing ⟨dev', log⟩ where
  owned := hkept.owned h.owned
  origin other := by
    rw [horigin]
    by_cases he : other = peer
    · rwa [he, update_self]
    · rw [update_of_ne he]
      exact h.origin other
  read := by
    rw [hread]
    exact h.read
  current other := by
    rw [horigin]
    by_cases he : other = peer
    · rwa [he, update_self]
    · rw [update_of_ne he, Device.handshake, hkept.others other he]
      exact h.current other
  installed i hi := (hinstalled i hi).elim (h.installed i) id

theorem Agreeing.keep (h : Agreeing w) (hkept : w.device.Kept dev' peer)
    (hlog : log.origin = w.log.origin) (hread : log.read = w.log.read)
    (hinstalled : log.installed = w.log.installed)
    (hcurrent : (dev'.handshake peer).state.Initiating →
      (dev'.handshake peer) = w.device.handshake peer) : Agreeing ⟨dev', log⟩ := by
  refine h.write hkept ?_ hread (fun i hi => .inl (hinstalled ▸ hi)) (h.origin peer)
    fun hstate => ?_
  · rw [hlog, update_eq_self]
  · have hsame := hcurrent hstate
    rw [hsame] at hstate ⊢
    exact h.current peer hstate

variable [DecidableEq B] [DecidableEq τ]

omit [DecidableEq B] in
theorem Agreeing.begin (h : Agreeing w) {keypair : Keypair B}
    (hk : w.device.deriveKeypair c peer = some keypair) (reply : Bool) :
    Agreeing ⟨(w.device.beginSymmetricSession c peer).1,
      record c w t (.beginSymmetricSession peer) reply⟩ := by
  have hkept : w.device.Kept (w.device.beginSymmetricSession c peer).1 peer :=
    h.owned.beginSymmetricSession
  have hslot : keypair ∈ ((w.device.beginSymmetricSession c peer).1.keypairs peer).held := by
    rw [beginSymmetricSession_some hk]
    simp only [allocate_keypairs, store_keypairs_self]
    exact ⟨_, rotate_new _ _ _⟩
  simp only [record, hk]
  refine h.write hkept rfl rfl ?_ (by simp [Origin.index]) ?_
  · intro i hi
    rcases List.mem_append.mp hi with hi | hi
    · exact .inl hi
    obtain rfl := List.mem_singleton.mp hi
    refine .inr fun hinitiator => ?_
    obtain ⟨hindex, ⟨hstate, -⟩ | ⟨-, hresponder, -⟩⟩ := deriveKeypair_cases hk
    · have horigin := h.current peer (hstate ▸ trivial)
      refine ⟨hindex ▸ horigin, hkept.tracks.keypair_entry hslot fun hz => ?_⟩
      exact h.origin peer (by rw [horigin, ← hindex, hz])
    · simp [hresponder] at hinitiator
  · simp [beginSymmetricSession_some hk, Handshake.finish, HandshakeState.Initiating]

omit [DecidableEq B] in
theorem Agreeing.check (h : Agreeing w) (handshake : ι) (msg : MessageResponse B)
    (reply : Option (B × B)) :
    Agreeing ⟨w.device, record c w t (.checkResponse handshake msg) reply⟩ := by
  simp only [record]
  split
  · refine ⟨h.owned, h.origin, fun u => ?_, h.current, h.installed⟩
    dsimp only
    by_cases he : u = t
    · rw [he, update_self]
      exact h.origin handshake
    · rw [update_of_ne he]
      exact h.read u
  · exact h

theorem Agreeing.createMessageInitiation (h : Agreeing w) {random : Random B}
    {timestamp : Timestamp} {reply : Option (MessageInitiation B)}
    (hreply : replies c w.device (.createMessageInitiation peer random timestamp) reply = true)
    (hcond : 0 ∉ random.draws ∧ (reply = none → ¬(w.device.handshake peer).state.Initiating)) :
    Agreeing ⟨effect c w.device (.createMessageInitiation peer random timestamp),
      record c w t (.createMessageInitiation peer random timestamp) reply⟩ := by
  obtain ⟨dev', result, hr, rfl, heffect⟩ := createMessageInitiation_replied hreply
  rw [heffect]
  have hkept := h.owned.createMessageInitiation hcond.1 hr
  obtain ⟨_, fields, -, ⟨hash, chainKey, rfl⟩, ⟨-, rfl, hfailed⟩ |
    ⟨-, sender, hdraw, -, rfl, hsender⟩⟩ := createMessageInitiation_cases hr
  · -- the state is still the one before
    refine h.write hkept rfl rfl (fun i hi => .inl hi) (by simp [Origin.index, hfailed]) ?_
    rw [storeHandshake_handshake_self]
    exact fun hinitiating => absurd hinitiating (hcond.2 hfailed)
  · refine h.write hkept rfl rfl (fun i hi => .inl hi) ?_ fun _ => ?_
    · simp only [Origin.index, Option.bind_some, hsender, ne_eq, Option.some.injEq]
      exact fun hz => hcond.1 (hz ▸ hdraw)
    · simp [Origin.index, hsender]

theorem Agreeing.step (h : Agreeing w) {β : Type} (op : Op B ι β) (reply : β)
    (hreply : replies c w.device op reply = true) (hcond : CommitsCurrent w t op reply) :
    Agreeing ⟨effect c w.device op, record c w t op reply⟩ := by
  cases op with
  | commitInitiation msg checked =>
    refine h.write (h.owned.commitInitiation msg checked) rfl rfl (fun i hi => .inl hi)
      (by simp [Origin.index]) ?_
    simp [effect, Device.commitInitiation, HandshakeState.Initiating]
  | createMessageResponse peer random =>
    obtain ⟨dev', result, hr, -, rfl⟩ := createMessageResponse_replied hreply
    have hkept := h.owned.createMessageResponse hcond hr
    refine h.keep hkept rfl rfl rfl fun hstate => ?_
    obtain hsame | ⟨hconsumed, sender, -, -, _, fields, -, ⟨hash, chainKey, rfl⟩, hstored⟩ :=
      createMessageResponse_cases hr
    · rw [hsame]
    · -- the state is that of a responder
      rw [hstored, storeHandshake_handshake_self] at hstate
      split at hstate
      · exact hstate.elim
      · simp [Handshake.assign, hconsumed, HandshakeState.Initiating] at hstate
  | checkResponse handshake msg => exact h.check handshake msg reply
  | commitResponse handshake msg hash chainKey =>
    refine h.write (h.owned.commitResponse msg hash chainKey) rfl rfl (fun i hi => .inl hi)
      (h.read t) fun _ => ?_
    rw [effect, Device.commitResponse, storeHandshake_handshake_self]
    exact hcond
  | beginSymmetricSession peer =>
    cases hk : w.device.deriveKeypair c peer with
    | none =>
      simp only [effect, record, hk, beginSymmetricSession_none hk]
      exact h
    | some keypair => exact h.begin hk reply
  | createMessageInitiation peer random timestamp =>
    exact h.createMessageInitiation hreply hcond
  | receivedWithKeypair peer received =>
    refine h.keep (h.owned.receivedWithKeypair received) rfl rfl rfl fun _ => ?_
    exact receivedWithKeypair_handshake received peer
  | expireCurrentKeypairs peer =>
    refine h.write h.owned.expireCurrentKeypairs rfl rfl (fun i hi => .inl hi)
      (by simp [Origin.index]) ?_
    simp [effect, Device.expireCurrentKeypairs, Handshake.clear, HandshakeState.Initiating]
  | zeroAndFlushAll peer =>
    refine h.write h.owned.zeroAndFlushAll rfl rfl (fun i hi => .inl hi) (by simp [Origin.index]) ?_
    simp [effect, Device.zeroAndFlushAll, Handshake.clear, HandshakeState.Initiating]
  | _ => exact h

variable {role : τ → Role} {dev : Device B ι} {labels : List (WorkLabel B ι τ)}
  {last : WorkPool B ι τ}

omit [DecidableEq ι] [DecidableEq B] [DecidableEq τ] in
theorem Device.Fresh.agreeing (h : dev.Fresh) : Agreeing (⟨dev, {}⟩ : World B ι τ) where
  owned := h.live.owned
  origin _ := by simp [Origin.index]
  read _ := by simp [Origin.index]
  current peer hstate := by
    rw [h.state] at hstate
    exact hstate.elim
  installed := by simp

-- The commit itself does not look whether its initiation is still there.
theorem initiator_index_agrees (hfresh : dev.Fresh) (hr : Run c role dev labels last)
    (hcond : ∀ label ∈ labels, CommitsCurrent.Holds label) :
    ∀ i ∈ last.state.log.installed, i.Agrees := by
  refine (invariant_of_run hr CommitsCurrent (fun _ _ _ _ _ => True) hcond Agreeing hfresh.agreeing
    (fun w clock running h => ⟨h.owned.elapse clock running, h.origin, h.read, h.current,
      h.installed⟩) ?_).1.installed
  intro w t β op reply hreply _ hcommits hagree
  have hnext := hagree.step op reply hreply hcommits
  exact ⟨⟨hnext.owned, hnext.origin, hnext.read, hnext.current, hnext.installed⟩, trivial⟩

end

section

open Term (atom crypto)

theorem retransmission_takes_index :
    ∃ labels last, Run crypto sampleRole (sampleDevice (atom 10) (atom 11)) labels last ∧
      ∃ i ∈ last.state.log.installed, i.keypair.isInitiator = true ∧
        Origin.index i.origin = some 7 ∧ i.keypair.localIndex = 8 ∧ ¬i.Agrees := by
  obtain ⟨labels, last, hr, -, hp⟩ := sampleScript.reaches crypto (fun _ => true) sampleRole
    (sampleDevice (atom 10) (atom 11)) [0, 0, 0, 0, 1, 1, 1, 1, 0, 0, 0, 0, 1, 1]
    (fun w => w.log.installed.any fun i => decide (i.keypair.isInitiator = true ∧
      Origin.index i.origin = some 7 ∧ i.keypair.localIndex = 8)) (by decide +kernel)
  obtain ⟨i, hi, hfound⟩ := List.any_eq_true.mp hp
  obtain ⟨hinitiator, horigin, hindex⟩ := of_decide_eq_true hfound
  refine ⟨labels, last, hr, i, hi, hinitiator, horigin, hindex, fun h => ?_⟩
  have hsame := (h hinitiator).1
  rw [horigin, hindex] at hsame
  exact absurd hsame (by decide)

theorem initiator_index_agrees_seven :
    ∃ labels last, Run crypto sampleRole (sampleDevice (atom 10) (atom 11)) labels last ∧
      last.state.log.installed.map (fun i => i.keypair.localIndex) = [7] ∧
      ∀ i ∈ last.state.log.installed, i.Agrees := by
  obtain ⟨labels, last, hr, hcond, hp⟩ := sampleScript.reaches crypto
    (fun label => decide (CommitsCurrent.Holds label)) sampleRole
    (sampleDevice (atom 10) (atom 11)) [0, 0, 0, 0, 1, 1, 1, 1, 1, 1]
    (fun w => decide (w.log.installed.map (fun i => i.keypair.localIndex) = [7]))
    (by decide +kernel)
  exact ⟨labels, last, hr, of_decide_eq_true hp, initiator_index_agrees (sampleDevice_fresh _ _) hr
    fun label hl => of_decide_eq_true (hcond label hl)⟩

end

end StarlingWg.Noise
