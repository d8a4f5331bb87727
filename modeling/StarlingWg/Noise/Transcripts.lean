import StarlingWg.Noise.Initiations
import StarlingWg.Symbolic.Deduction

namespace StarlingWg.Noise

open Interaction Workers Origin HandshakeState Crypto List Function Option

variable {B ι τ : Type} {c : Crypto B} {m : Hmac B}

def Crypto.chain (c : Crypto B) (inputs : List B) : B :=
  inputs.foldl c.kdf1 c.initialChainKey

def Crypto.sendKey (c : Crypto B) (isInitiator : Bool) (chainKey : B) : B :=
  if isInitiator then (c.kdf2 chainKey c.empty).1 else (c.kdf2 chainKey c.empty).2

theorem Crypto.Ideal.kdf2_fst (h : c.Ideal m) (key input : B) :
    (c.kdf2 key input).1 = c.kdf1 key input := by
  rw [h.kdf2, h.kdf1]
  rfl

theorem Crypto.Ideal.kdf3_fst (h : c.Ideal m) (key input : B) :
    (c.kdf3 key input).1 = c.kdf1 key input := by
  rw [h.kdf3, h.kdf1]
  rfl

theorem Crypto.Ideal.chain_injective (h : c.Ideal m) {xs ys : List B}
    (he : c.chain xs = c.chain ys) : xs = ys := by
  refine Symbolic.foldl_inj (fun key input key' input' hk => ?_) (fun key input => ?_) he
  · rw [h.kdf1] at hk
    exact h.hmac1 _ _ _ _ (h.hmac1 _ _ _ _ hk).1
  · rw [h.kdf1]
    exact h.initial _

theorem Crypto.Ideal.sendKey_injective (h : c.Ideal m) {role role' : Bool} {key key' : B}
    (he : c.sendKey role key = c.sendKey role' key') : role = role' ∧ key = key' := by
  have hprk : ∀ x y, m.hmac1 x c.empty = m.hmac1 y c.empty → x = y := fun x y hxy =>
    (h.hmac1 _ _ _ _ hxy).1
  cases role with
  | true =>
    cases role' with
    | true =>
      simp only [sendKey, ↓reduceIte, h.kdf2, Hmac.kdf2] at he
      exact ⟨rfl, hprk _ _ (h.hmac1 _ _ _ _ he).1⟩
    | false =>
      simp only [sendKey, ↓reduceIte, h.kdf2, Hmac.kdf2, Bool.false_eq_true] at he
      exact absurd he (h.disjoint _ _ _)
  | false =>
    cases role' with
    | true =>
      simp only [sendKey, ↓reduceIte, h.kdf2, Hmac.kdf2, Bool.false_eq_true] at he
      exact absurd he.symm (h.disjoint _ _ _)
    | false =>
      simp only [sendKey, ↓reduceIte, h.kdf2, Hmac.kdf2, Bool.false_eq_true] at he
      exact ⟨rfl, hprk _ _ (h.hmac2 _ _ _ _ he)⟩

-- The own ephemeral key in the inputs of a chain key: the first of them for
-- an initiator; for a responder the one before the last three, or the first
-- when CreateMessageInitiation has failed on the handshake.
def Bears : Bool → List B → B → Prop
  | true, inputs, e => ∃ rest, inputs = e :: rest
  | false, inputs, e => (∃ init a b d, inputs = init ++ [e, a, b, d]) ∨
      ∃ rest, rest.length ≤ 1 ∧ inputs = e :: rest

theorem Bears.unique {role : Bool} {inputs : List B} {e e' : B} (h : Bears role inputs e)
    (h' : Bears role inputs e') : e = e' := by
  cases role with
  | true =>
    obtain ⟨rest, rfl⟩ := h
    obtain ⟨rest', he⟩ := h'
    exact (List.cons.inj he).1
  | false =>
    rcases h with ⟨init, a, b, d, rfl⟩ | ⟨rest, hshort, rfl⟩
    · rcases h' with ⟨init', a', b', d', he⟩ | ⟨rest', hshort, he⟩
      · exact (List.cons.inj (append_inj_right' he rfl)).1
      · have hlen := congrArg List.length he
        simp only [length_append, length_cons, length_nil] at hlen
        omega
    · rcases h' with ⟨init', a', b', d', he⟩ | ⟨rest', -, he⟩
      · have hlen := congrArg List.length he
        simp only [length_append, length_cons, length_nil] at hlen
        omega
      · exact (List.cons.inj he).1

theorem Bears.append {inputs : List B} {e : B} (h : Bears true inputs e) (more : List B) :
    Bears true (inputs ++ more) e := by
  obtain ⟨rest, rfl⟩ := h
  exact ⟨rest ++ more, rfl⟩

section

variable [DecidableEq B] {h : Handshake B} {inputs : List B} {ephemeral : B} {hs : Handshake B}

theorem initiate_chain (hc : c.Ideal m) {static : B} {timestamp : Timestamp}
    {fields : Option (B × B × B)} (hi : h.initiate c static ephemeral timestamp = (hs, fields)) :
    ∃ rest, hs.chainKey = c.chain (c.publicKey ephemeral :: rest) ∧
      (fields = none → rest.length ≤ 1) := by
  unfold Handshake.initiate at hi
  dsimp only at hi
  split at hi
  · obtain ⟨rfl, rfl⟩ := Prod.mk.inj hi
    exact ⟨[], rfl, by simp⟩
  · next ss _ =>
      split at hi
      · obtain ⟨rfl, rfl⟩ := Prod.mk.inj hi
        exact ⟨[ss], by simp [Handshake.mixHash, Handshake.mixKey, hc.kdf2_fst, chain], by simp⟩
      · obtain ⟨rfl, rfl⟩ := Prod.mk.inj hi
        exact ⟨[ss, h.precomputedStaticStatic],
          by simp [Handshake.mixHash, Handshake.mixKey, hc.kdf2_fst, chain], by simp⟩

theorem respond_chain (hc : c.Ideal m) {fields : Option (B × B)}
    (hi : h.respond c ephemeral = (hs, fields)) (hchain : h.chainKey = c.chain inputs) :
    ∃ rest, hs.chainKey = c.chain (inputs ++ c.publicKey ephemeral :: rest) ∧
      (fields.isSome → rest.length = 3) := by
  unfold Handshake.respond at hi
  dsimp only at hi
  split at hi
  · obtain ⟨rfl, rfl⟩ := Prod.mk.inj hi
    exact ⟨[], by simp [Handshake.mixHash, Handshake.mixKey, hchain, chain], by simp⟩
  · next ss _ =>
      split at hi
      · obtain ⟨rfl, rfl⟩ := Prod.mk.inj hi
        exact ⟨[ss], by simp [Handshake.mixHash, Handshake.mixKey, hchain, chain], by simp⟩
      · next ss' _ =>
          obtain ⟨rfl, rfl⟩ := Prod.mk.inj hi
          exact ⟨[ss, ss', h.presharedKey], by
            simp [Handshake.mixHash, Handshake.mixKey, hchain, hc.kdf3_fst, chain], by simp⟩

theorem checkResponse_chain (hc : c.Ideal m) {privateKey hash chainKey : B}
    {msg : MessageResponse B} (hi : h.checkResponse c privateKey msg = some (hash, chainKey))
    (hchain : h.chainKey = c.chain inputs) :
    ∃ rest, chainKey = c.chain (inputs ++ rest) := by
  unfold Handshake.checkResponse at hi
  split at hi
  · simp at hi
  simp only [bind_eq_bind, bind_eq_some_iff] at hi
  obtain ⟨ss, -, ss', -, plain, -, hkeys⟩ := hi
  cases hkeys
  refine ⟨[msg.ephemeral, ss, ss', h.presharedKey], ?_⟩
  simp [hc.kdf3_fst, hchain, chain]

theorem checkInitiation_chain (hc : c.Ideal m) {dev : Device B ι} {msg : MessageInitiation B}
    {checked : Device.Initiated B ι} (hi : dev.checkInitiation c msg = some checked) :
    ∃ inputs, checked.chainKey = c.chain inputs := by
  have hopen := (checkInitiation_opens hi).1
  unfold Device.openInitiation at hopen
  split at hopen
  · simp at hopen
  simp only [bind_eq_bind, bind_eq_some_iff] at hopen
  obtain ⟨ss, -, peerPK, -, peer, -, plain, -, hchecked⟩ := hopen
  cases hchecked
  exact ⟨[msg.ephemeral, ss, (dev.handshake peer).precomputedStaticStatic],
    by simp [hc.kdf2_fst, chain]⟩

end

section

def HandshakeState.derives : HandshakeState → Option Bool
  | .responseConsumed => some true
  | .responseCreated => some false
  | .zeroed | .initiationCreated | .initiationConsumed => none

def Workers.Origin.key (origin : Option (Origin B)) : Option B :=
  origin.map ephemeral

def Workers.Installed.Uses (c : Crypto B) (i : Installed B ι) (role : Bool) (e : B) : Prop :=
  i.keypair.isInitiator = role ∧
    ∃ inputs, i.keypair.send = c.sendKey role (c.chain inputs) ∧ Bears role inputs e

structure PeerKeyed (c : Crypto B) (ephemerals : List B) (installed : List (Installed B ι))
    (peer : ι) (h : Handshake B) (origin : Option (Origin B)) : Prop where
  awaiting : h.state = .initiationCreated → ∃ inputs e, h.chainKey = c.chain inputs ∧
    Bears true inputs e ∧ e ∈ ephemerals ∧ key origin = some e
  consumed : h.state = .initiationConsumed → ∃ inputs, h.chainKey = c.chain inputs
  ready : ∀ role, h.state.derives = some role → ∃ inputs e, h.chainKey = c.chain inputs ∧
    Bears role inputs e ∧ e ∈ ephemerals ∧ (role = true → key origin = some e) ∧
    ∀ i ∈ installed, i.peer = peer → ¬i.Uses c role e

def Workers.Installed.Keyed (c : Crypto B) (ephemerals : List B) (i : Installed B ι) : Prop :=
  ∃ inputs e, i.keypair.send = c.sendKey i.keypair.isInitiator (c.chain inputs) ∧
    Bears i.keypair.isInitiator inputs e ∧ e ∈ ephemerals ∧
    (i.keypair.isInitiator = true → key i.origin = some e)

-- No two keypairs of a peer have the same sending key, and no initiation has
-- led to two of them.
structure KeysUnique (w : World B ι τ) : Prop where
  send : w.log.installed.Pairwise fun i j => i.peer = j.peer → i.keypair.send ≠ j.keypair.send
  once : w.log.installed.Pairwise fun i j => i.peer = j.peer → i.keypair.isInitiator = true →
    j.keypair.isInitiator = true → key i.origin ≠ key j.origin

-- A response is committed while no keypair has been installed from the
-- initiation that was checked, and no ephemeral key is drawn twice.
def CommitsUnused (c : Crypto B) : Condition B ι τ
  | w, t, _, .commitResponse _ _ _ _, _ => ∀ i ∈ w.log.installed,
      i.keypair.isInitiator = true → key i.origin ≠ key (w.log.read t)
  | w, _, _, .createMessageInitiation _ random _, _ =>
    c.publicKey random.ephemeral ∉ w.log.ephemerals
  | w, _, _, .createMessageResponse _ random, _ =>
    c.publicKey random.ephemeral ∉ w.log.ephemerals
  | _, _, _, _, _ => True

structure Keyed (c : Crypto B) (w : World B ι τ) : Prop where
  peers : ∀ peer, PeerKeyed c w.log.ephemerals w.log.installed peer (w.device.handshake peer)
    (w.log.origin peer)
  initiation : ∀ t msg checked, w.log.passed t = some (.initiation msg checked) →
    ∃ inputs, checked.chainKey = c.chain inputs
  response : ∀ t peer msg hash chainKey,
    w.log.passed t = some (.response peer msg hash chainKey) → ∃ inputs e,
      chainKey = c.chain inputs ∧ Bears true inputs e ∧ e ∈ w.log.ephemerals ∧
        key (w.log.read t) = some e
  installed : ∀ i ∈ w.log.installed, i.Keyed c w.log.ephemerals
  unique : KeysUnique w

variable {ephemerals ephemerals' : List B} {i : Installed B ι} {role : Bool} {e : B}

theorem Workers.Installed.Keyed.uses (hc : c.Ideal m) (h : i.Keyed c ephemerals)
    (hu : i.Uses c role e) : e ∈ ephemerals ∧ (role = true → key i.origin = some e) := by
  obtain ⟨rfl, inputs, hsend, hbears⟩ := hu
  obtain ⟨inputs', e', hsend', hbears', hdrawn, horigin⟩ := h
  obtain rfl := hc.chain_injective (hc.sendKey_injective (hsend.symm.trans hsend')).2
  obtain rfl := hbears.unique hbears'
  exact ⟨hdrawn, horigin⟩

theorem Workers.Installed.Keyed.mono (h : i.Keyed c ephemerals)
    (hsub : ∀ e ∈ ephemerals, e ∈ ephemerals') : i.Keyed c ephemerals' := by
  obtain ⟨inputs, e, hsend, hbears, hdrawn, horigin⟩ := h
  exact ⟨inputs, e, hsend, hbears, hsub e hdrawn, horigin⟩

variable {installed : List (Installed B ι)} {peer : ι} {origin : Option (Origin B)}

theorem PeerKeyed.mono {installed' : List (Installed B ι)} {h : Handshake B}
    (hp : PeerKeyed c ephemerals installed peer h origin) (hsub : ∀ e ∈ ephemerals, e ∈ ephemerals')
    (hinstalled : ∀ i ∈ installed', i.peer = peer → i ∈ installed) :
    PeerKeyed c ephemerals' installed' peer h origin where
  awaiting hstate := by
    obtain ⟨inputs, e, hchain, hbears, hdrawn, horigin⟩ := hp.awaiting hstate
    exact ⟨inputs, e, hchain, hbears, hsub e hdrawn, horigin⟩
  consumed := hp.consumed
  ready role hstate := by
    obtain ⟨inputs, e, hchain, hbears, hdrawn, horigin, hunused⟩ := hp.ready role hstate
    exact ⟨inputs, e, hchain, hbears, hsub e hdrawn, horigin,
      fun i hi hpeer => hunused i (hinstalled i hi hpeer) hpeer⟩

theorem PeerKeyed.zeroed {h : Handshake B} (hstate : h.state = .zeroed) :
    PeerKeyed c ephemerals installed peer h origin where
  awaiting he := by simp [hstate] at he
  consumed he := by simp [hstate] at he
  ready role he := by simp [hstate, derives] at he

end

section

variable [DecidableEq B] [DecidableEq ι] [DecidableEq τ] {w : World B ι τ} {t : τ} {peer : ι}

theorem ephemerals_grow {β : Type} (op : Op B ι β) (reply : β) :
    ∀ e ∈ w.log.ephemerals, e ∈ ((machine c t).effect w op reply).log.ephemerals := by
  intro e he
  cases op with
  | createMessageResponse peer random => exact mem_append_left _ he
  | createMessageInitiation peer random timestamp => exact mem_append_left _ he
  | checkResponse handshake msg =>
    simp only [machine, World.pass, record]
    split <;> exact he
  | beginSymmetricSession peer =>
    simp only [machine, World.pass, record]
    split <;> exact he
  | _ => exact he

theorem Keyed.of_peers (hc : c.Ideal m) (h : Keyed c w) {β : Type} {op : Op B ι β} {reply : β}
    (hreply : replies c w.device op reply = true)
    (hinstalled : ((machine c t).effect w op reply).log.installed = w.log.installed)
    (hpeers : ∀ peer, PeerKeyed c ((machine c t).effect w op reply).log.ephemerals
      w.log.installed peer (((machine c t).effect w op reply).device.handshake peer)
      (((machine c t).effect w op reply).log.origin peer)) :
    Keyed c ((machine c t).effect w op reply) where
  peers := by
    rw [hinstalled]
    exact hpeers
  initiation u msg checked hu := by
    rcases passed_initiation hreply u msg checked hu with hu | hcheck
    · exact h.initiation u msg checked hu
    · exact checkInitiation_chain hc hcheck
  response u p msg hash chainKey hu := by
    rcases passed_response hreply u p msg hash chainKey hu with ⟨hu, hread⟩ | ⟨hcheck, hread⟩
    · obtain ⟨inputs, e, hchain, hbears, hdrawn, hkey⟩ := h.response u p msg hash chainKey hu
      exact ⟨inputs, e, hchain, hbears, ephemerals_grow op reply e hdrawn, hread ▸ hkey⟩
    · have hstate : (w.device.handshake p).state = .initiationCreated := by
        by_contra hne
        simp [Handshake.checkResponse, hne] at hcheck
      obtain ⟨inputs, e, hchain, hbears, hdrawn, hkey⟩ := (h.peers p).awaiting hstate
      obtain ⟨rest, hmore⟩ := checkResponse_chain hc hcheck hchain
      exact ⟨inputs ++ rest, e, hmore, hbears.append rest, ephemerals_grow op reply e hdrawn,
        hread ▸ hkey⟩
  installed i hi := by
    rw [hinstalled] at hi
    exact (h.installed i hi).mono (ephemerals_grow op reply)
  unique := by
    refine ⟨?_, ?_⟩
    · rw [hinstalled]
      exact h.unique.send
    · rw [hinstalled]
      exact h.unique.once

theorem Keyed.keep (hc : c.Ideal m) (h : Keyed c w) {β : Type} {op : Op B ι β} {reply : β}
    (hreply : replies c w.device op reply = true)
    (hdev : ∀ peer, ((machine c t).effect w op reply).device.handshake peer =
      w.device.handshake peer)
    (horigin : ((machine c t).effect w op reply).log.origin = w.log.origin)
    (hinstalled : ((machine c t).effect w op reply).log.installed = w.log.installed) :
    Keyed c ((machine c t).effect w op reply) := by
  refine h.of_peers hc hreply hinstalled fun peer => ?_
  rw [hdev, horigin]
  exact (h.peers peer).mono (ephemerals_grow op reply) fun i hi _ => hi

theorem Keyed.write (hc : c.Ideal m) (h : Keyed c w) {β : Type} {op : Op B ι β} {reply : β}
    (hreply : replies c w.device op reply = true) {p : Peer B} {table : IndexTable B ι}
    {origin : Option (Origin B)}
    (hdev : ((machine c t).effect w op reply).device = w.device.store peer p table)
    (horigin : ((machine c t).effect w op reply).log.origin =
      update w.log.origin peer origin)
    (hinstalled : ((machine c t).effect w op reply).log.installed = w.log.installed)
    (hpeer : PeerKeyed c ((machine c t).effect w op reply).log.ephemerals w.log.installed peer
      p.handshake origin) :
    Keyed c ((machine c t).effect w op reply) := by
  refine h.of_peers hc hreply hinstalled fun other => ?_
  rw [hdev, horigin]
  by_cases he : other = peer
  · rwa [he, store_handshake_self, update_self]
  · rw [store_handshake_of_ne he, update_of_ne he]
    exact (h.peers other).mono (ephemerals_grow op reply) fun i hi _ => hi

omit [DecidableEq B] [DecidableEq ι] [DecidableEq τ] in
theorem Keyed.unused (hc : c.Ideal m) (h : Keyed c w) {e : B} (hfresh : e ∉ w.log.ephemerals)
    (role : Bool) : ∀ i ∈ w.log.installed, i.peer = peer → ¬i.Uses c role e :=
  fun i hi _ hu => hfresh ((h.installed i hi).uses hc hu).1

variable {random : Random B} {reply : Unit} {keypair : Keypair B}

theorem Keyed.createMessageInitiation (hc : c.Ideal m) (h : Keyed c w) {timestamp : Timestamp}
    {reply : Option (MessageInitiation B)}
    (hreply : replies c w.device (.createMessageInitiation peer random timestamp) reply = true)
    (hfresh : c.publicKey random.ephemeral ∉ w.log.ephemerals) :
    Keyed c ((machine c t).effect w (.createMessageInitiation peer random timestamp) reply) := by
  obtain ⟨dev', result, hr, -, heffect⟩ := createMessageInitiation_replied hreply
  have hdrawn : c.publicKey random.ephemeral ∈ w.log.ephemerals ++ [c.publicKey random.ephemeral] :=
    mem_append_right _ mem_cons_self
  obtain ⟨hs, fields, hinitiate, -, ⟨rfl, rfl, -⟩ | ⟨-, sender, -, -, rfl, -⟩⟩ :=
    createMessageInitiation_cases hr
  · obtain ⟨rest, hchain, hshort⟩ := initiate_chain hc hinitiate
    refine h.write hc hreply heffect rfl rfl ⟨fun _ => ?_, fun _ => ⟨_, hchain⟩, fun role _ => ?_⟩
    · exact ⟨_, _, hchain, ⟨rest, rfl⟩, hdrawn, rfl⟩
    · refine ⟨_, _, hchain, ?_, hdrawn, fun _ => rfl, h.unused hc hfresh role⟩
      cases role with
      | true => exact ⟨rest, rfl⟩
      | false => exact .inr ⟨rest, hshort rfl, rfl⟩
  · obtain ⟨rest, hchain, -⟩ := initiate_chain hc hinitiate
    refine h.write hc hreply heffect rfl rfl ⟨fun _ => ?_, fun hstate => ?_, fun role hstate => ?_⟩
    · exact ⟨_, _, hchain, ⟨rest, rfl⟩, hdrawn, rfl⟩
    · simp at hstate
    · simp [derives] at hstate

theorem Keyed.createMessageResponse (hc : c.Ideal m) (h : Keyed c w)
    {reply : Option (MessageResponse B)}
    (hreply : replies c w.device (.createMessageResponse peer random) reply = true)
    (hfresh : c.publicKey random.ephemeral ∉ w.log.ephemerals) :
    Keyed c ((machine c t).effect w (.createMessageResponse peer random) reply) := by
  obtain ⟨dev', result, hr, -, heffect⟩ := createMessageResponse_replied hreply
  have hdrawn : c.publicKey random.ephemeral ∈ w.log.ephemerals ++ [c.publicKey random.ephemeral] :=
    mem_append_right _ mem_cons_self
  have horigin : w.log.origin = update w.log.origin peer (w.log.origin peer) :=
    (update_eq_self peer w.log.origin).symm
  obtain rfl | ⟨hstate, sender, -, -, hs, fields, hrespond, hchanges, rfl⟩ :=
    createMessageResponse_cases hr
  · exact h.keep hc hreply (fun other => by rw [← heffect]; rfl) rfl rfl
  · obtain ⟨inputs, hinputs⟩ := (h.peers peer).consumed hstate
    obtain ⟨rest, hchain, hthree⟩ := respond_chain hc hrespond hinputs
    refine h.write hc hreply heffect horigin rfl ?_
    obtain ⟨hash, chainKey, rfl⟩ := hchanges
    cases fields with
    | none =>
      refine ⟨fun he => ?_, fun _ => ⟨_, hchain⟩, fun role he => ?_⟩
      · simp [Handshake.assign, hstate] at he
      · simp [Handshake.assign, hstate, derives] at he
    | some fields =>
      refine ⟨fun he => ?_, fun he => ?_, fun role he => ?_⟩
      · simp at he
      · simp at he
      · obtain rfl : false = role := by simpa [derives] using he
        obtain ⟨a, b, d, rfl⟩ := length_eq_three.mp (hthree rfl)
        exact ⟨_, _, hchain, .inl ⟨inputs, a, b, d, rfl⟩, hdrawn, by simp, h.unused hc hfresh false⟩

theorem Keyed.commitInitiation (hc : c.Ideal m) (h : Keyed c w) {msg : MessageInitiation B}
    {checked : Device.Initiated B ι}
    (hreply : replies c w.device (.commitInitiation msg checked) reply = true)
    (hpassed : w.log.passed t = some (.initiation msg checked)) :
    Keyed c ((machine c t).effect w (.commitInitiation msg checked) reply) := by
  refine h.write hc hreply rfl rfl rfl ⟨fun he => ?_, fun _ => ?_, fun role he => ?_⟩
  · simp at he
  · exact h.initiation t msg checked hpassed
  · simp [derives] at he

theorem Keyed.commitResponse (hc : c.Ideal m) (h : Keyed c w) {msg : MessageResponse B}
    {hash chainKey : B}
    (hreply : replies c w.device (.commitResponse peer msg hash chainKey) reply = true)
    (hpassed : w.log.passed t = some (.response peer msg hash chainKey))
    (hunused : ∀ i ∈ w.log.installed, i.keypair.isInitiator = true →
      key i.origin ≠ key (w.log.read t)) :
    Keyed c ((machine c t).effect w (.commitResponse peer msg hash chainKey) reply) := by
  obtain ⟨inputs, e, hchain, hbears, hdrawn, hkey⟩ :=
    h.response t peer msg hash chainKey hpassed
  refine h.write hc hreply rfl rfl rfl ⟨fun he => ?_, fun he => ?_, fun role he => ?_⟩
  · simp at he
  · simp at he
  · obtain rfl : true = role := by simpa [derives] using he
    refine ⟨inputs, e, hchain, hbears, hdrawn, fun _ => hkey, fun i hi _ hu => ?_⟩
    have hsame := ((h.installed i hi).uses hc hu).2 rfl
    exact hunused i hi hu.1 (hsame.trans hkey.symm)

omit [DecidableEq B] [DecidableEq ι] [DecidableEq τ] in
theorem deriveKeypair_sendKey {dev : Device B ι} (h : dev.deriveKeypair c peer = some keypair) :
    (dev.handshake peer).state.derives = some keypair.isInitiator ∧
      keypair.send = c.sendKey keypair.isInitiator (dev.handshake peer).chainKey := by
  obtain ⟨-, ⟨hstate, hrole, hsend⟩ | ⟨hstate, hrole, hsend⟩⟩ := deriveKeypair_cases h
  · rw [hstate, hrole, hsend]
    exact ⟨rfl, rfl⟩
  · rw [hstate, hrole, hsend]
    exact ⟨rfl, rfl⟩

omit [DecidableEq B] [DecidableEq ι] [DecidableEq τ] in
theorem Keyed.derives (h : Keyed c w)
    (hk : w.device.deriveKeypair c peer = some keypair) : ∃ inputs e,
      keypair.send = c.sendKey keypair.isInitiator (c.chain inputs) ∧
      Bears keypair.isInitiator inputs e ∧ e ∈ w.log.ephemerals ∧
      (keypair.isInitiator = true → key (w.log.origin peer) = some e) ∧
      ∀ i ∈ w.log.installed, i.peer = peer → ¬i.Uses c keypair.isInitiator e := by
  obtain ⟨hderives, hsend⟩ := deriveKeypair_sendKey hk
  obtain ⟨inputs, e, hchain, hrest⟩ := (h.peers peer).ready _ hderives
  exact ⟨inputs, e, hchain ▸ hsend, hrest⟩

omit [DecidableEq B] [DecidableEq ι] [DecidableEq τ] in
theorem Keyed.send_ne (hc : c.Ideal m) (h : Keyed c w)
    (hk : w.device.deriveKeypair c peer = some keypair) :
    ∀ i ∈ w.log.installed, i.peer = peer → i.keypair.send ≠ keypair.send := by
  obtain ⟨inputs, e, hsend, hbears, -, -, hunused⟩ := h.derives hk
  intro i hi hpeer he
  obtain ⟨inputs', e', hsend', -⟩ := h.installed i hi
  obtain ⟨hrole, hsame⟩ := hc.sendKey_injective (hsend'.symm.trans (he.trans hsend))
  exact hunused i hi hpeer ⟨hrole, inputs, he.trans hsend, hbears⟩

omit [DecidableEq B] [DecidableEq ι] [DecidableEq τ] in
theorem Keyed.origin_ne (h : Keyed c w) (hk : w.device.deriveKeypair c peer = some keypair) :
    ∀ i ∈ w.log.installed, i.peer = peer → i.keypair.isInitiator = true →
      keypair.isInitiator = true → key i.origin ≠ key (w.log.origin peer) := by
  obtain ⟨inputs, e, -, -, -, hkey, hunused⟩ := h.derives hk
  intro i hi hpeer hinitiator hnew he
  obtain ⟨inputs', e', hsend', hbears', -, hkey'⟩ := h.installed i hi
  rw [hkey' hinitiator, hkey hnew] at he
  cases he
  rw [hinitiator] at hsend' hbears'
  exact hunused i hi hpeer ⟨hinitiator.trans hnew.symm, inputs', hnew ▸ hsend', hnew ▸ hbears'⟩

theorem Keyed.begin (hc : c.Ideal m) (h : Keyed c w) {reply : Bool}
    (hk : w.device.deriveKeypair c peer = some keypair) :
    Keyed c ((machine c t).effect w (.beginSymmetricSession peer) reply) := by
  obtain ⟨inputs, e, hsend, hbears, hdrawn, hkey, -⟩ := h.derives hk
  simp only [machine, Workers.effect, record, hk, World.pass, passes, update_eq_self,
    beginSymmetricSession_some hk]
  refine ⟨fun other => ?_, h.initiation, h.response, fun i hi => ?_, ?_, ?_⟩
  · by_cases he : other = peer
    · refine .zeroed ?_
      simp [he, Handshake.finish]
    · dsimp only
      rw [allocate_handshake, store_handshake_of_ne he, update_of_ne he]
      refine (h.peers other).mono (fun _ h => h) fun i hi hother => ?_
      rcases mem_append.mp hi with hi | hi
      · exact hi
      · obtain rfl := mem_singleton.mp hi
        exact absurd hother.symm he
  · rcases mem_append.mp hi with hi | hi
    · exact h.installed i hi
    · obtain rfl := mem_singleton.mp hi
      exact ⟨inputs, e, hsend, hbears, hdrawn, hkey⟩
  · refine pairwise_append.mpr ⟨h.unique.send, pairwise_singleton _ _, ?_⟩
    intro i hi j hj hpeer
    obtain rfl := mem_singleton.mp hj
    exact h.send_ne hc hk i hi hpeer
  · refine pairwise_append.mpr ⟨h.unique.once, pairwise_singleton _ _, ?_⟩
    intro i hi j hj hpeer
    obtain rfl := mem_singleton.mp hj
    exact h.origin_ne hk i hi hpeer

theorem Keyed.step (hc : c.Ideal m) (h : Keyed c w) {β : Type} (op : Op B ι β) (reply : β)
    (hreply : replies c w.device op reply = true) (hfollows : op.Follows (w.log.passed t))
    (hcond : CommitsUnused c w t op reply) : Keyed c ((machine c t).effect w op reply) := by
  cases op with
  | commitInitiation msg checked => exact h.commitInitiation hc hreply hfollows
  | createMessageResponse peer random => exact h.createMessageResponse hc hreply hcond
  | checkResponse handshake msg =>
    refine h.keep hc hreply (fun _ => rfl) ?_ ?_
    · simp only [machine, World.pass, record]
      split <;> rfl
    · simp only [machine, World.pass, record]
      split <;> rfl
  | commitResponse peer msg hash chainKey => exact h.commitResponse hc hreply hfollows hcond
  | beginSymmetricSession peer =>
    cases hk : w.device.deriveKeypair c peer with
    | none =>
      refine h.keep hc hreply (fun other => ?_) ?_ ?_
      · simp only [machine, World.pass, Workers.effect, beginSymmetricSession_none hk]
      · simp only [machine, World.pass, record, hk]
      · simp only [machine, World.pass, record, hk]
    | some keypair => exact h.begin hc hk
  | createMessageInitiation peer random timestamp =>
    exact h.createMessageInitiation hc hreply hcond
  | receivedWithKeypair peer received =>
    refine h.keep hc hreply (fun other => ?_) rfl rfl
    exact receivedWithKeypair_handshake received other
  | expireCurrentKeypairs peer => exact h.write hc hreply rfl rfl rfl (.zeroed rfl)
  | zeroAndFlushAll peer => exact h.write hc hreply rfl rfl rfl (.zeroed rfl)
  | _ => exact h.keep hc hreply (fun _ => rfl) rfl rfl

variable {role : τ → Role} {dev : Device B ι} {labels : List (WorkLabel B ι τ)}
  {last : WorkPool B ι τ}

-- Over all workers, peers and sessions of a device.
theorem send_keys_unique (hc : c.Ideal m) (hfresh : dev.Fresh) (hr : Run c role dev labels last)
    (hcond : ∀ label ∈ labels, (CommitsUnused c).Holds label) : KeysUnique last.state := by
  refine (invariant_of_run hr (CommitsUnused c) (fun _ _ _ _ _ => True) hcond (Keyed c)
    ⟨fun peer => .zeroed (hfresh.state peer), by simp, by simp, by simp, .nil, .nil⟩
    (fun w clock running h => ⟨h.peers, h.initiation, h.response, h.installed, h.unique.send,
      h.unique.once⟩) ?_).1.unique
  intro w t β op reply hreply hfollows hcommits hkeyed
  exact ⟨hkeyed.step hc op reply hreply hfollows hcommits, trivial⟩

end

section

open Term (atom crypto)

instance [DecidableEq B] (w : World B ι τ) (t : τ) {β : Type} (op : Op B ι β) (reply : β) :
    Decidable (CommitsUnused c w t op reply) := by
  induction op using Op.casesOn <;> dsimp only [CommitsUnused] <;> infer_instance

def sendKeys (w : World Term Unit (Fin 3)) : List Term :=
  w.log.installed.map fun i => i.keypair.send

theorem duplicate_response_repeats_key :
    ∃ labels last, Run crypto sampleRole (sampleDevice (atom 10) (atom 11)) labels last ∧
      (∃ key, sendKeys last.state = [key, key]) ∧ ¬KeysUnique last.state := by
  obtain ⟨labels, last, hr, -, hp⟩ := sampleScript.reaches crypto (fun _ => true) sampleRole
    (sampleDevice (atom 10) (atom 11)) [0, 0, 0, 0, 1, 1, 1, 1, 2, 2, 2, 2, 1, 1, 2, 2]
    (fun w => decide (sendKeys w = List.replicate 2 ((sendKeys w).headD (atom 0))))
    (by decide +kernel)
  obtain ⟨key, hkeys⟩ : ∃ key, sendKeys last.state = [key, key] := ⟨_, of_decide_eq_true hp⟩
  refine ⟨labels, last, hr, ⟨key, hkeys⟩, fun h => ?_⟩
  have hall : (sendKeys last.state).Pairwise (· ≠ ·) :=
    pairwise_map.mpr (h.send.imp fun hne => hne rfl)
  rw [hkeys] at hall
  simp at hall

theorem send_keys_unique_single :
    ∃ labels last, Run crypto sampleRole (sampleDevice (atom 10) (atom 11)) labels last ∧
      (sendKeys last.state).length = 1 ∧ KeysUnique last.state := by
  obtain ⟨labels, last, hr, hcond, hp⟩ := sampleScript.reaches crypto
    (fun label => decide ((CommitsUnused crypto).Holds label)) sampleRole
    (sampleDevice (atom 10) (atom 11)) [0, 0, 0, 0, 1, 1, 1, 1, 1, 2, 2, 2, 2, 1]
    (fun w => decide ((sendKeys w).length = 1)) (by decide +kernel)
  exact ⟨labels, last, hr, of_decide_eq_true hp, send_keys_unique Term.crypto_ideal
    (sampleDevice_fresh _ _) hr fun label hl => of_decide_eq_true (hcond label hl)⟩

end

end StarlingWg.Noise
