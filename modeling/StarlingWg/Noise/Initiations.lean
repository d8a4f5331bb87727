import StarlingWg.Noise.Workers
import Mathlib.Data.List.Pairwise
import Mathlib.Data.List.Nodup

namespace StarlingWg.Noise

open Interaction Workers Timestamp Option

variable {B ι τ : Type}

section

variable [DecidableEq B] {c : Crypto B} {dev dev' : Device B ι} {msg : MessageInitiation B}

def Device.openInitiation (c : Crypto B) (dev : Device B ι) (msg : MessageInitiation B) :
    Option (Device.Initiated B ι) :=
  if msg.type ≠ messageInitiationType then none
  else do
    let hash := c.mixHash (c.mixHash c.initialHash dev.publicKey) msg.ephemeral
    let ss ← c.sharedSecret dev.privateKey msg.ephemeral
    let first := c.kdf2 (c.kdf1 c.initialChainKey msg.ephemeral) ss
    let peerPK ← c.aeadOpen first.2 msg.static hash
    let hash := c.mixHash hash msg.static
    let peer ← dev.lookupPeer peerPK
    let second := c.kdf2 first.1 (dev.handshake peer).precomputedStaticStatic
    let plain ← c.aeadOpen second.2 msg.timestamp hash
    return ⟨peer, c.mixHash hash msg.timestamp, second.1, c.readStamp plain⟩

theorem checkInitiation_opens {checked : Device.Initiated B ι}
    (h : dev.checkInitiation c msg = some checked) :
    dev.openInitiation c msg = some checked ∧
      after checked.timestamp (dev.handshake checked.peer).lastTimestamp = true := by
  unfold Device.checkInitiation at h
  unfold Device.openInitiation
  split at h
  · simp at h
  next htype =>
    rw [if_neg htype]
    simp only [bind_eq_bind, bind_eq_some_iff] at h ⊢
    obtain ⟨ss, hss, peerPK, hpk, peer, hpeer, h⟩ := h
    split at h
    · simp at h
    split at h
    · simp at h
    obtain ⟨plain, hplain, h⟩ := bind_eq_some_iff.mp h
    split at h
    · simp at h
    next hfresh =>
      cases h
      refine ⟨⟨ss, hss, peerPK, hpk, peer, hpeer, plain, hplain, rfl⟩, ?_⟩
      simp only [Bool.or_eq_true, not_or, Bool.not_eq_true, Bool.not_eq_false'] at hfresh
      exact hfresh.1

structure Device.SameKeys (dev dev' : Device B ι) : Prop where
  privateKey : dev'.privateKey = dev.privateKey
  publicKey : dev'.publicKey = dev.publicKey
  lookupPeer : dev'.lookupPeer = dev.lookupPeer
  precomputed : ∀ peer, (dev'.handshake peer).precomputedStaticStatic =
    (dev.handshake peer).precomputedStaticStatic

omit [DecidableEq B] in
theorem Device.SameKeys.trans {dev'' : Device B ι} (h : dev.SameKeys dev')
    (h' : dev'.SameKeys dev'') : dev.SameKeys dev'' where
  privateKey := h'.privateKey.trans h.privateKey
  publicKey := h'.publicKey.trans h.publicKey
  lookupPeer := h'.lookupPeer.trans h.lookupPeer
  precomputed peer := (h'.precomputed peer).trans (h.precomputed peer)

theorem Device.SameKeys.openInitiation (h : dev.SameKeys dev') :
    dev'.openInitiation c msg = dev.openInitiation c msg := by
  simp only [Device.openInitiation, h.privateKey, h.publicKey, h.lookupPeer, h.precomputed]

end

section

variable [DecidableEq ι] {c : Crypto B} {dev dev' : Device B ι} {peer : ι}

structure Device.SameStamps (dev dev' : Device B ι) : Prop where
  keys : dev.SameKeys dev'
  lastTimestamp : ∀ peer, (dev'.handshake peer).lastTimestamp = (dev.handshake peer).lastTimestamp

theorem Device.SameStamps.store {p : Peer B} (table : IndexTable B ι)
    (hkey : p.handshake.precomputedStaticStatic = (dev.handshake peer).precomputedStaticStatic)
    (hlast : p.handshake.lastTimestamp = (dev.handshake peer).lastTimestamp) :
    dev.SameStamps (dev.store peer p table) := by
  have hkeep : ∀ other, ((dev.store peer p table).handshake other).precomputedStaticStatic =
        (dev.handshake other).precomputedStaticStatic ∧
      ((dev.store peer p table).handshake other).lastTimestamp =
        (dev.handshake other).lastTimestamp := by
    intro other
    by_cases he : other = peer
    · rw [he, store_handshake_self]
      exact ⟨hkey, hlast⟩
    · rw [store_handshake_of_ne he]
      exact ⟨rfl, rfl⟩
  exact ⟨⟨rfl, rfl, rfl, fun other => (hkeep other).1⟩, fun other => (hkeep other).2⟩

omit [DecidableEq ι] in
theorem Device.SameStamps.refl : dev.SameStamps dev :=
  ⟨⟨rfl, rfl, rfl, fun _ => rfl⟩, fun _ => rfl⟩

omit [DecidableEq ι] in
theorem Device.SameStamps.trans {dev'' : Device B ι} (h : dev.SameStamps dev')
    (h' : dev'.SameStamps dev'') : dev.SameStamps dev'' where
  keys := h.keys.trans h'.keys
  lastTimestamp peer := (h'.lastTimestamp peer).trans (h.lastTimestamp peer)

omit [DecidableEq ι] in
theorem Device.SameStamps.allocate (h : dev.SameStamps dev') : dev.SameStamps dev'.allocate :=
  ⟨⟨h.keys.privateKey, h.keys.publicKey, h.keys.lookupPeer, h.keys.precomputed⟩, h.lastTimestamp⟩

theorem commitInitiation_keys (msg : MessageInitiation B) (checked : Device.Initiated B ι) :
    dev.SameKeys (dev.commitInitiation msg checked) := by
  refine ⟨rfl, rfl, rfl, fun other => ?_⟩
  by_cases he : other = checked.peer
  · rw [he, Device.commitInitiation, storeHandshake_handshake_self]
  · rw [Device.commitInitiation, Device.storeHandshake, store_handshake_of_ne he]

theorem commitInitiation_lastTimestamp (dev : Device B ι) (msg : MessageInitiation B)
    (checked : Device.Initiated B ι) (other : ι) :
    ((dev.commitInitiation msg checked).handshake other).lastTimestamp =
      if other = checked.peer ∧ (dev.handshake other).lastTimestamp < checked.timestamp then
        checked.timestamp else (dev.handshake other).lastTimestamp := by
  by_cases he : other = checked.peer
  · rw [he, Device.commitInitiation, storeHandshake_handshake_self]
    simp [after]
  · rw [Device.commitInitiation, Device.storeHandshake, store_handshake_of_ne he]
    simp [he]

variable [DecidableEq B] {random : Random B}

theorem createMessageInitiation_stamps {timestamp : Timestamp}
    {reply : Option (MessageInitiation B)}
    (h : replies c dev (.createMessageInitiation peer random timestamp) reply = true) :
    dev.SameStamps (Workers.effect c dev (.createMessageInitiation peer random timestamp)) := by
  obtain ⟨dev', result, hr, -, heffect⟩ := createMessageInitiation_replied h
  rw [heffect]
  obtain ⟨_, fields, -, ⟨hash, chainKey, rfl⟩, ⟨-, rfl, -⟩ | ⟨-, sender, -, -, rfl, -⟩⟩ :=
    createMessageInitiation_cases hr
  · exact .store _ rfl rfl
  · exact .store _ rfl rfl

theorem createMessageResponse_sameStamps {result : Except NoiseError (MessageResponse B)}
    (h : dev.createMessageResponse c peer random = some (dev', result)) : dev.SameStamps dev' := by
  obtain rfl | ⟨-, sender, -, -, _, fields, -, ⟨hash, chainKey, rfl⟩, rfl⟩ :=
    createMessageResponse_cases h
  · exact .refl
  · cases fields with
    | none => exact .store _ rfl rfl
    | some fields => exact .store _ rfl rfl

omit [DecidableEq B] in
theorem beginSymmetricSession_stamps : dev.SameStamps (dev.beginSymmetricSession c peer).1 := by
  cases hk : dev.deriveKeypair c peer with
  | none =>
    rw [beginSymmetricSession_none hk]
    exact .refl
  | some keypair =>
    rw [beginSymmetricSession_some hk]
    apply Device.SameStamps.allocate
    exact .store _ rfl rfl

omit [DecidableEq B] in
theorem receivedWithKeypair_stamps (received : Option (Keypair B)) :
    dev.SameStamps (dev.receivedWithKeypair peer received).1 := by
  unfold Device.receivedWithKeypair
  dsimp only
  split
  · exact .refl
  · exact .store _ rfl rfl

end

section

def CommitsNewer : Condition B ι τ
  | w, _, _, .commitInitiation _ checked, _ =>
    after checked.timestamp (w.device.handshake checked.peer).lastTimestamp = true
  | _, _, _, _, _ => True

instance (w : World B ι τ) (t : τ) {β : Type} (op : Op B ι β) (reply : β) :
    Decidable (CommitsNewer w t op reply) := by
  induction op using Op.casesOn <;> dsimp only [CommitsNewer] <;> infer_instance

def Increasing (consumed : List (MessageInitiation B × Device.Initiated B ι)) : Prop :=
  consumed.Pairwise fun earlier later => earlier.2.peer = later.2.peer →
    after later.2.timestamp earlier.2.timestamp = true

structure ConsumedOnce (w : World B ι τ) : Prop where
  increasing : Increasing w.log.consumed
  once : (w.log.consumed.map Prod.fst).Nodup

variable [DecidableEq B]

structure Stamped (c : Crypto B) (start : Device B ι) (w : World B ι τ) : Prop where
  keys : start.SameKeys w.device
  atLeast : ∀ peer, (start.handshake peer).lastTimestamp ≤ (w.device.handshake peer).lastTimestamp
  reached : ∀ peer, (w.device.handshake peer).lastTimestamp =
      (start.handshake peer).lastTimestamp ∨
    ∃ entry ∈ w.log.consumed, entry.2.peer = peer ∧
      entry.2.timestamp = (w.device.handshake peer).lastTimestamp
  bound : ∀ entry ∈ w.log.consumed,
    entry.2.timestamp ≤ (w.device.handshake entry.2.peer).lastTimestamp
  opened : ∀ entry ∈ w.log.consumed, start.openInitiation c entry.1 = some entry.2
  passed : ∀ t msg checked, w.log.passed t = some (.initiation msg checked) →
    start.openInitiation c msg = some checked ∧
      (start.handshake checked.peer).lastTimestamp < checked.timestamp

variable [DecidableEq ι] {c : Crypto B} {start : Device B ι} {w : World B ι τ} {t : τ}

omit [DecidableEq ι] in
theorem Stamped.keep {w' : World B ι τ} (h : Stamped c start w)
    (hdev : w.device.SameStamps w'.device) (hconsumed : w'.log.consumed = w.log.consumed)
    (hpassed : ∀ u msg checked, w'.log.passed u = some (.initiation msg checked) →
      w.log.passed u = some (.initiation msg checked) ∨
        w.device.checkInitiation c msg = some checked) : Stamped c start w' where
  keys := h.keys.trans hdev.keys
  atLeast peer := by
    rw [hdev.lastTimestamp]
    exact h.atLeast peer
  reached peer := by
    rw [hdev.lastTimestamp, hconsumed]
    exact h.reached peer
  bound := by
    simp only [hdev.lastTimestamp, hconsumed]
    exact h.bound
  opened := by
    rw [hconsumed]
    exact h.opened
  passed u msg checked hu := by
    rcases hpassed u msg checked hu with hu | hcheck
    · exact h.passed u msg checked hu
    · obtain ⟨hopen, hafter⟩ := checkInitiation_opens hcheck
      rw [h.keys.openInitiation] at hopen
      have hnewer := of_decide_eq_true hafter
      have hstart := h.atLeast checked.peer
      exact ⟨hopen, by bv_omega⟩

variable {checked : Device.Initiated B ι} {β : Type}

theorem Stamped.commit (h : Stamped c start w) {msg : MessageInitiation B}
    (hpassed : w.log.passed t = some (.initiation msg checked)) {log : Log B ι τ}
    (hconsumed : log.consumed = w.log.consumed ++ [(msg, checked)])
    (hlog : log.passed = w.log.passed) :
    Stamped c start ⟨w.device.commitInitiation msg checked, log⟩ := by
  have hlast := commitInitiation_lastTimestamp w.device msg checked
  obtain ⟨hopen, -⟩ := h.passed t msg checked hpassed
  refine ⟨h.keys.trans (commitInitiation_keys msg checked), fun peer => ?_, fun peer => ?_,
    fun entry hentry => ?_, fun entry hentry => ?_, ?_⟩
  · have hold := h.atLeast peer
    rw [hlast]
    split
    · next hnew => exact BitVec.le_of_lt (by bv_omega)
    · exact hold
  · rw [hlast, hconsumed]
    split
    · next hnew => exact .inr ⟨_, List.mem_append_right _ List.mem_cons_self, hnew.1.symm, rfl⟩
    · rcases h.reached peer with hsame | ⟨entry, hentry, hpeer, hts⟩
      · exact .inl hsame
      · exact .inr ⟨entry, List.mem_append_left _ hentry, hpeer, hts⟩
  · rw [hlast]
    rw [hconsumed] at hentry
    rcases List.mem_append.mp hentry with hentry | hentry
    · have hold := h.bound entry hentry
      split
      · next hnew => exact BitVec.le_of_lt (by bv_omega)
      · exact hold
    · obtain rfl := List.mem_singleton.mp hentry
      split
      · exact BitVec.le_refl _
      · next hold => exact BitVec.not_lt.mp fun hlt => hold ⟨rfl, hlt⟩
  · rw [hconsumed] at hentry
    rcases List.mem_append.mp hentry with hentry | hentry
    · exact h.opened entry hentry
    · obtain rfl := List.mem_singleton.mp hentry
      exact hopen
  · simp only [hlog]
    exact h.passed

variable [DecidableEq τ]

theorem Stamped.step (h : Stamped c start w) (op : Op B ι β) (reply : β)
    (hreply : replies c w.device op reply = true) (hfollows : op.Follows (w.log.passed t)) :
    Stamped c start ((machine c t).effect w op reply) := by
  have hpassed := passed_initiation (t := t) hreply
  cases op with
  | commitInitiation msg checked =>
    refine h.commit hfollows rfl ?_
    exact Function.update_eq_self t w.log.passed
  | createMessageResponse peer random =>
    obtain ⟨dev', result, hr, -, heffect⟩ := createMessageResponse_replied hreply
    have hsame := createMessageResponse_sameStamps hr
    rw [← heffect] at hsame
    exact h.keep hsame rfl hpassed
  | checkResponse handshake msg =>
    refine h.keep .refl ?_ hpassed
    simp only [machine, World.pass, record]
    split <;> rfl
  | commitResponse handshake msg hash chainKey => exact h.keep (.store _ rfl rfl) rfl hpassed
  | beginSymmetricSession peer =>
    refine h.keep beginSymmetricSession_stamps ?_ hpassed
    simp only [machine, World.pass, record]
    split <;> rfl
  | createMessageInitiation peer random timestamp =>
    exact h.keep (createMessageInitiation_stamps hreply) rfl hpassed
  | receivedWithKeypair peer received =>
    exact h.keep (receivedWithKeypair_stamps received) rfl hpassed
  | expireCurrentKeypairs peer => exact h.keep (.store _ rfl rfl) rfl hpassed
  | zeroAndFlushAll peer => exact h.keep (.store _ rfl rfl) rfl hpassed
  | _ => exact h.keep .refl rfl hpassed

omit [DecidableEq ι] [DecidableEq τ] in
theorem Stamped.elapse (h : Stamped c start w) (clock : Int) (running : ι → Bool) :
    Stamped c start { w with device := w.device.elapse clock running } :=
  h.keep ⟨⟨rfl, rfl, rfl, fun _ => rfl⟩, fun _ => rfl⟩ rfl fun _ _ _ => .inl

omit [DecidableEq ι] [DecidableEq τ] in
theorem Stamped.init : Stamped c start (⟨start, {}⟩ : World B ι τ) where
  keys := Device.SameStamps.refl.keys
  atLeast _ := BitVec.le_refl _
  reached _ := .inl rfl
  bound := by simp
  opened := by simp
  passed := by simp

omit [DecidableEq ι] [DecidableEq τ] in
-- The timestamp of a message is in the message, so a second consumption of it
-- would be no later than the first.
theorem Stamped.once (h : Stamped c start w) (hi : Increasing w.log.consumed) :
    (w.log.consumed.map Prod.fst).Nodup := by
  refine List.pairwise_map.mpr (hi.imp_of_mem fun {earlier later} he hl hafter hsame => ?_)
  have hopen := h.opened earlier he
  rw [hsame, h.opened later hl] at hopen
  have hchecked := Option.some.inj hopen
  have hlater := hafter (by rw [hchecked])
  rw [hchecked] at hlater
  exact BitVec.lt_irrefl _ (of_decide_eq_true hlater)

omit [DecidableEq ι] [DecidableEq τ] in
theorem Stamped.increasing (h : Stamped c start w) (hi : Increasing w.log.consumed)
    {msg : MessageInitiation B}
    (hnewer : after checked.timestamp (w.device.handshake checked.peer).lastTimestamp = true) :
    Increasing (w.log.consumed ++ [(msg, checked)]) := by
  refine List.pairwise_append.mpr ⟨hi, List.pairwise_singleton _ _, ?_⟩
  intro entry hentry new hnew hpeer
  obtain rfl := List.mem_singleton.mp hnew
  have hbound := h.bound entry hentry
  have hlast := of_decide_eq_true hnewer
  rw [hpeer] at hbound
  exact decide_eq_true (by bv_omega)

omit [DecidableEq ι] [DecidableEq τ] in
theorem Stamped.newer_of_increasing (h : Stamped c start w) {msg : MessageInitiation B}
    (hpassed : w.log.passed t = some (.initiation msg checked))
    (hi : Increasing (w.log.consumed ++ [(msg, checked)])) :
    after checked.timestamp (w.device.handshake checked.peer).lastTimestamp = true := by
  rcases h.reached checked.peer with hstart | ⟨entry, hentry, hpeer, hlast⟩
  · rw [hstart]
    exact decide_eq_true (h.passed t msg checked hpassed).2
  · rw [← hlast]
    exact (List.pairwise_append.mp hi).2.2 entry hentry _ List.mem_cons_self hpeer

theorem consumed_grows (op : Op B ι β) (reply : β) :
    ∃ new, ((machine c t).effect w op reply).log.consumed = w.log.consumed ++ new := by
  cases op with
  | commitInitiation msg checked => exact ⟨_, rfl⟩
  | checkResponse handshake msg =>
    refine ⟨[], ?_⟩
    simp only [machine, World.pass, record, List.append_nil]
    split <;> rfl
  | beginSymmetricSession peer =>
    refine ⟨[], ?_⟩
    simp only [machine, World.pass, record, List.append_nil]
    split <;> rfl
  | _ => exact ⟨[], (List.append_nil _).symm⟩

variable {role : τ → Role} {labels : List (WorkLabel B ι τ)}
  {last : WorkPool B ι τ}

theorem consumed_of_commitsNewer (hr : Run c role start labels last)
    (hnewer : ∀ label ∈ labels, CommitsNewer.Holds label) : ConsumedOnce last.state := by
  have hinv := (invariant_of_run hr CommitsNewer (fun _ _ _ _ _ => True) hnewer
    (fun w => Stamped c start w ∧ Increasing w.log.consumed) ⟨.init, .nil⟩
    (fun w clock running h => ⟨h.1.elapse clock running, h.2⟩) ?_).1
  · exact ⟨hinv.2, hinv.1.once hinv.2⟩
  rintro w t β op reply hreply hfollows hcond ⟨hstamped, hi⟩
  refine ⟨⟨hstamped.step op reply hreply hfollows, ?_⟩, trivial⟩
  cases op with
  | commitInitiation msg checked => exact hstamped.increasing hi hcond
  | checkResponse handshake msg =>
    simp only [machine, World.pass, record]
    split <;> exact hi
  | beginSymmetricSession peer =>
    simp only [machine, World.pass, record]
    split <;> exact hi
  | _ => exact hi

theorem commitsNewer_of_increasing (hr : Run c role start labels last)
    (hi : Increasing last.state.log.consumed) : ∀ label ∈ labels, CommitsNewer.Holds label := by
  -- in the state after every operation the commits so far are increasing
  have hall : ∀ label ∈ labels, Condition.Holds (fun w t {_} op reply =>
      Increasing ((machine c t).effect w op reply).log.consumed) label := by
    refine hr.back _ (fun w => Increasing w.log.consumed) hi fun pool label next hs hnext => ?_
    cases hs with
    | act thread ht hadm =>
      obtain ⟨new, hgrows⟩ := consumed_grows (c := c) (w := pool.state) (t := thread) _ _
      refine ⟨?_, hnext⟩
      rw [hgrows] at hnext
      exact (List.pairwise_append.mp hnext).1
    | enter => exact ⟨hnext, trivial⟩
    | env he => cases he; exact ⟨hnext, trivial⟩
  have hcommit := (invariant_of_run hr (fun _ _ _ _ _ => True) (fun w t {_} op reply =>
    Increasing ((machine c t).effect w op reply).log.consumed → CommitsNewer w t op reply)
    (fun label _ => by cases label <;> trivial) (Stamped c start) .init
    (fun w clock running h => h.elapse clock running) ?_).2
  · intro label hl
    cases label with
    | act t w op reply w' => exact hcommit _ hl (hall _ hl)
    | enter => trivial
    | env => trivial
  intro w t β op reply hreply hfollows _ hstamped
  refine ⟨hstamped.step op reply hreply hfollows, fun hnext => ?_⟩
  cases op with
  | commitInitiation msg checked => exact hstamped.newer_of_increasing hfollows hnext
  | _ => trivial

-- The timestamp is only checked under the read lock.
theorem initiations_consumed_once_iff (hr : Run c role start labels last) :
    ConsumedOnce last.state ↔ ∀ label ∈ labels, CommitsNewer.Holds label :=
  ⟨fun h => commitsNewer_of_increasing hr h.increasing, consumed_of_commitsNewer hr⟩

end

section

open Term (atom crypto)

def duplicated : Script Term Unit (Fin 3) where
  packet _ _ := (sampleInitiation.map .initiation).getD .skipped

def consumedStamps (w : World Term Unit (Fin 3)) : List Timestamp :=
  w.log.consumed.map fun entry => entry.2.timestamp

theorem initiation_consumed_twice :
    ∃ labels last, Run crypto sampleRole (sampleDevice (atom 11) (atom 10)) labels last ∧
      consumedStamps last.state = [5, 5] ∧ ¬ConsumedOnce last.state := by
  obtain ⟨labels, last, hr, -, hp⟩ := duplicated.reaches crypto (fun _ => true) sampleRole
    (sampleDevice (atom 11) (atom 10)) [1, 1, 1, 2, 2, 2, 1, 2]
    (fun w => decide (consumedStamps w = [5, 5])) (by decide +kernel)
  have hstamps := of_decide_eq_true hp
  refine ⟨labels, last, hr, hstamps, fun h => ?_⟩
  have hall : (consumedStamps last.state).Pairwise fun earlier later =>
      after later earlier = true :=
    List.pairwise_map.mpr (h.increasing.imp fun hafter => hafter rfl)
  rw [hstamps] at hall
  exact absurd hall (by decide)

theorem initiations_consumed_once_iff_sequential :
    ∃ labels last, Run crypto sampleRole (sampleDevice (atom 11) (atom 10)) labels last ∧
      consumedStamps last.state = [5] ∧ ConsumedOnce last.state := by
  obtain ⟨labels, last, hr, hnewer, hp⟩ := duplicated.reaches crypto
    (fun label => decide (CommitsNewer.Holds label)) sampleRole
    (sampleDevice (atom 11) (atom 10)) [1, 1, 1, 1, 2, 2, 2]
    (fun w => decide (consumedStamps w = [5])) (by decide +kernel)
  exact ⟨labels, last, hr, of_decide_eq_true hp, (initiations_consumed_once_iff hr).mpr
    fun label hl => of_decide_eq_true (hnewer label hl)⟩

end

end StarlingWg.Noise
