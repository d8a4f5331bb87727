import StarlingWg.Orchestrate.World

namespace StarlingWg.Orchestrate

open Control Interaction List Function

def negotiation (x y : Config) (pc : PeerConfig) (hint : ModeHint) (s : YState) :
    WorldPool :=
  compose x (do let _ ← runY y pc hint) s

theorem negotiation_composed (x y : Config) (pc : PeerConfig) (hint : ModeHint) {s : YState} (hs : s.Fresh) :
    Composed x y (.addr pc.controlAddr) False (fun _ => True) (negotiation x y pc hint s) := by
  refine .initial hs ?_
  simp only [wp_bind]
  exact wp_mono (runY_meets (.inl hs.count) fun c _ => hs.conns c) fun _ _ _ => trivial

def blockedOn : Prog Unit → Option ConnId
  | .perform (.recv c) _ => some c
  | _ => none

theorem eq_recv_of_blockedOn {program : Prog Unit} {c : ConnId} (h : blockedOn program = some c) :
    ∃ next, program = .perform (.recv c) next := by
  unfold blockedOn at h
  split at h
  · next next =>
      cases h
      exact ⟨next, rfl⟩
  · simp at h

def finished : Prog Unit → Bool
  | .done _ => true
  | _ => false

-- Both ends wait in Recv on an open connection with nothing under way.
def Deadlocked (pool : WorldPool) (c : ConnId) : Prop :=
  blockedOn (pool.threads .y) = some c ∧ blockedOn (pool.threads (.handler c)) = some c ∧
  pool.state.isOpen c = true ∧ (pool.state.y.conns c).received = (pool.state.x c).sent ∧
  (pool.state.x c).received = (pool.state.y.conns c).sent

instance (pool : WorldPool) (c : ConnId) : Decidable (Deadlocked pool c) :=
  inferInstanceAs (Decidable (_ ∧ _))

-- The two failures after which fallbackToCloaked returns without a word to Y.
def Op.refuses : {β : Type} → Op β → β → Bool
  | _, .cloakedAddPeer _ _, .error _ => true
  | _, .resolvePublicHost _, .error _ => true
  | _, _, _ => false

def refuses : WorldLabel → Bool
  | .act _ _ op reply _ => Op.refuses op reply
  | _ => false

theorem xEffect_refused {β : Type} (l : XLocal) {op : Op β} {reply : β}
    (h : op.refuses reply = false) : (xEffect l op reply).refused = l.refused := by
  cases op <;> first
    | rfl
    | (cases reply <;> first
        | rfl
        | exact absurd h Bool.noConfusion)

section

variable {x y : Config} {sess : SessionKey} {upgrades : Prop} {goal : YState → Prop}
variable {pool next : WorldPool} {label : WorldLabel}

theorem refused_step (hs : Pool.Step (bodies x y) (worldMachine x y) World.Breaks pool label next)
    (hl : refuses label = false) (h : ∀ c, (pool.state.x c).refused = false) (c : ConnId) :
    (next.state.x c).refused = false := by
  cases hs with
  | @act β thread op rest reply ht hadm =>
    cases thread with
    | y => exact h c
    | handler c' =>
      by_cases hc : c = c'
      · subst hc
        simp only [worldMachine, update_self]
        rw [xEffect_refused _ hl]
        exact h c
      · simp only [worldMachine, update_of_ne hc]
        exact h c
  | enter => exact h c
  | env he =>
    obtain ⟨_, rfl⟩ := he
    exact h c

theorem Composed.settled_of_blocked (h : Composed x y sess upgrades goal pool) {c : ConnId}
    (hb : blockedOn (pool.threads (.handler c)) = some c) :
    XSettled (pool.state.x c) ∧ 2 ≤ (pool.state.x c).sent.length := by
  obtain ⟨next, hn⟩ := eq_recv_of_blockedOn hb
  have hw := h.meets (.handler c)
  rw [hn] at hw
  exact (hw (.error "") rfl).1.2

theorem Composed.settled_of_finished (h : Composed x y sess upgrades goal pool) {c : ConnId}
    (hf : finished (pool.threads (.handler c)) = true) : XSettled (pool.state.x c) := by
  have hw := h.meets (.handler c)
  unfold finished at hf
  split at hf
  · next hdone =>
      rw [hdone] at hw
      exact hw.2
  · simp at hf

end

theorem not_waiting_of_settled {e : ConnEnd} {l : XLocal} (hset : XSettled l)
    (hopening : 2 ≤ l.sent.length) (hfailed : l.failed = false) (hrefused : l.refused = false)
    (hdown : e.received = l.sent) (hup : l.received = e.sent) : ¬Waiting e := by
  rintro (hshort | ⟨m, hm, hnone⟩ | howed | ⟨hnone, m, hm, hmode⟩)
  · rw [hdown] at hshort
    omega
  · have hrep : m.sessionID ∈ l.received.filterMap reported :=
      mem_filterMap.mpr ⟨_, hup ▸ hm, rfl⟩
    rw [← hset.answers hfailed] at hrep
    obtain ⟨r, hr, hans⟩ := mem_filterMap.mp hrep
    exact hnone r (hdown ▸ hr) hans
  · rw [hdown, hset.fallback hfailed hrefused] at howed
    exact Bool.false_ne_true howed
  · have hpos := hset.decision hfailed hrefused ⟨m, hup ▸ hm, hmode⟩
    rw [← hdown] at hpos
    omega

-- Both ends wait for each other only after an operation was refused.
theorem negotiation_deadlock_free (x y : Config) (pc : PeerConfig) (hint : ModeHint) {s : YState}
    (hs : s.Fresh) {labels : List WorldLabel} {pool : WorldPool}
    (hr : World.Runs x y (negotiation x y pc hint s) labels pool)
    (hserved : ∀ label ∈ labels, refuses label = false) (c : ConnId) : ¬Deadlocked pool c := by
  obtain ⟨⟨hcomp, hrefused⟩, -⟩ := hr.along (fun label => refuses label = false) (fun _ => True)
    (fun pool => Composed x y (.addr pc.controlAddr) False (fun _ => True) pool ∧
      ∀ c, (pool.state.x c).refused = false) hserved
    ⟨negotiation_composed x y pc hint hs, fun c => rfl⟩
    fun pool label next hl hstep h => ⟨⟨(h.1.step hstep).1, refused_step hstep hl h.2⟩, trivial⟩
  rintro ⟨hy, hx, hopen, hdown, hup⟩
  obtain ⟨hset, hopening⟩ := hcomp.settled_of_blocked hx
  have hfailed : (pool.state.x c).failed = false := by
    by_contra hf
    have hb := hcomp.linked.failed c (Bool.not_eq_false _ ▸ hf)
    simp [World.isOpen, hb] at hopen
  obtain ⟨next, hn⟩ := eq_recv_of_blockedOn hy
  have hw := hcomp.meets .y
  rw [hn] at hw
  exact not_waiting_of_settled hset hopening hfailed (hrefused c) hdown hup
    ((hw (.error "") rfl).1.2.resolve_right id)

theorem refusal_deadlocks : ∃ labels pool,
    World.Runs sampleX sampleY (negotiation sampleX sampleY samplePeer .none .init) labels pool ∧ Deadlocked pool 0 := by
  obtain ⟨labels, pool, hr, -, hd⟩ :=
    Outcomes.reaches ⟨.symmetric, ⟨false, ""⟩, .error "no address left"⟩ sampleX sampleY
      (fun _ => true) (turns [(.y, 3), (.handler 0, 8), (.y, 11), (.handler 0, 5)])
      (negotiation sampleX sampleY samplePeer .none .init)
      (fun pool => decide (Deadlocked pool 0)) (by decide)
  exact ⟨labels, pool, hr, of_decide_eq_true hd⟩

theorem negotiation_deadlock_free_cloaked : ∃ labels pool,
    World.Runs sampleX sampleY (negotiation sampleX sampleY samplePeer .none .init) labels pool ∧
    (∀ label ∈ labels, refuses label = false) ∧
    (pool.state.y.sessions (.addr samplePeer.controlAddr)).state = .connectedCloaked ∧
    ∀ c, ¬Deadlocked pool c := by
  obtain ⟨labels, pool, hr, hl, hd⟩ :=
    Outcomes.reaches ⟨.symmetric, ⟨false, ""⟩, .ok ()⟩ sampleX sampleY
      (fun label => !refuses label) (turns [(.y, 3), (.handler 0, 8), (.y, 11), (.handler 0, 5), (.y, 12)])
      (negotiation sampleX sampleY samplePeer .none .init)
      (fun pool => decide ((pool.state.y.sessions (.addr samplePeer.controlAddr)).state =
        .connectedCloaked)) (by decide)
  have hserved : ∀ label ∈ labels, refuses label = false := fun label hm => by simpa using hl label hm
  exact ⟨labels, pool, hr, hserved, of_decide_eq_true hd,
    negotiation_deadlock_free sampleX sampleY samplePeer .none YState.init_fresh hr hserved⟩

-- X's native attempt for the address and the SessionID of the only request
-- Y made on the connection has succeeded.
def NativeAgreed (w : World) : Prop :=
  ∃ m res, .nativeEndpointReport m ∈ (w.y.conns 0).sent ∧ requestCount (w.y.conns 0).sent = 1 ∧
    .nativeEndpointReport m ∈ (w.x 0).received ∧ (m.externalAddr, res) ∈ (w.x 0).attempts ∧
    res.success = true ∧ .nativeReady ⟨m.sessionID⟩ ∈ (w.x 0).sent

-- Y's key is on X's cloaked device, and Y's device has the shared lines of
-- the configuration X's cloaked device got from its profile.
def CloakedAgreed (x y : Config) (sess : SessionKey) (w : World) : Prop :=
  y.localPublicKey ∈ (w.x 0).added ∧ ∃ dev, (w.y.sessions sess).dev = some dev ∧
    (w.y.devices dev).conf.filter UapiLine.shared =
      x.obfuscationProfile.uapi.filter UapiLine.shared

-- The answers X has sent are the SessionIDs of the reports it has received, in
-- order; the last report may be unanswered while X serves it.
def Answered (pool : WorldPool) : Prop :=
  (pool.state.x 0).sent.filterMap answered <+: (pool.state.x 0).received.filterMap reported ∧
  (blockedOn (pool.threads (.handler 0)) = some 0 ∨
      finished (pool.threads (.handler 0)) = true →
    (pool.state.x 0).sent.filterMap answered = (pool.state.x 0).received.filterMap reported)

-- What holds throughout one exchange: there is one connection, a Connected
-- session of Y rests on it, and X's session is as its handler left it.
structure Exchange (x y : Config) (sess : SessionKey) (pool : WorldPool) : Prop where
  composed : Composed x y sess False (fun _ => True) pool
  single : pool.state.y.connCount ≤ 1
  backed : pool.state.y.connCount = 0 ∨ TalkInv sess pool.state.y
  recorded : pool.state.session = (.idle, ("" : GoString)) ∨
    ∃ c, (pool.state.x c).wrote = some pool.state.session

theorem connCount_le_one {β : Type} {who : Actor} {sess : SessionKey} {s : YState} {op : Op β}
    {reply : β} (hok : (ySpec sess False).good s op reply (yEffect who s op reply))
    (h : s.connCount ≤ 1) : (yEffect who s op reply).connCount ≤ 1 := by
  cases op with
  | dial controlAddr remote =>
    have hzero : s.connCount = 0 := hok.2.resolve_right id
    cases reply <;> exact Nat.le_of_eq (congrArg Nat.succ hzero)
  | _ =>
    first
      | exact h
      | (cases reply <;> exact h)

theorem xEffect_wrote {β : Type} (l : XLocal) (op : Op β) (reply : β) (session : State × GoString) :
    (xEffect l op reply).wrote = some (sessionAfter session op) ∨
    ((xEffect l op reply).wrote = l.wrote ∧ sessionAfter session op = session) := by
  cases op <;> first
    | exact .inl rfl
    | exact .inr ⟨rfl, rfl⟩
    | (cases reply <;> exact .inr ⟨rfl, rfl⟩)

theorem eq_of_countP_eq_one {p : Message → Bool} {messages : List Message} {a b : Message}
    (h : messages.countP p = 1) (ha : a ∈ messages) (hpa : p a = true) (hb : b ∈ messages)
    (hpb : p b = true) : a = b := by
  rw [countP_eq_length_filter, length_eq_one_iff] at h
  obtain ⟨only, honly⟩ := h
  have hmem : ∀ {c}, c ∈ messages → p c = true → c = only := fun hc hpc =>
    mem_singleton.mp (honly ▸ mem_filter.mpr ⟨hc, hpc⟩)
  exact (hmem ha hpa).trans (hmem hb hpb).symm

def Grounded (x y : Config) (sess : SessionKey) : WorldLabel → Prop
  | .act .y w (.setState _ state _) _ _ =>
    (state = .connectedNative → NativeAgreed w) ∧
    (state = .connectedCloaked → CloakedAgreed x y sess w)
  | _ => True

section

variable {x y : Config} {sess : SessionKey} {pool next : WorldPool}
variable {label : WorldLabel}

theorem Exchange.eq_zero (h : Exchange x y sess pool) {c : Nat}
    (hc : pool.state.y.connCount = c + 1 ∨ (pool.state.x c).started = true) : c = 0 := by
  have hsingle := h.single
  rcases hc with hc | hc
  · omega
  · by_contra hne
    have hunborn := h.composed.linked.unborn c (by omega)
    rw [hunborn] at hc
    exact Bool.false_ne_true hc

theorem Exchange.native (h : Exchange x y sess pool)
    (hev : NativeEvidence False pool.state.y) : NativeAgreed pool.state := by
  obtain ⟨c, ⟨sid, addr⟩, hn, hreport, hready, hone | hno⟩ := hev
  · obtain rfl := h.eq_zero (.inl hn)
    -- the NativeReady Y holds was sent by X, for a report Y sent
    have hsent := (h.composed.linked.down 0).subset hready
    obtain ⟨externalAddr, res, hreceived, hatt, hsucc⟩ := (h.composed.handlers 0).ready _ hsent
    have hown := (h.composed.linked.up 0).subset hreceived
    have hsame := eq_of_countP_eq_one hone hreport rfl hown rfl
    obtain rfl : addr = externalAddr := by simpa using hsame
    exact ⟨_, res, hreport, hone, hreceived, hatt, hsucc, hsent⟩
  · exact hno.elim

theorem Exchange.cloaked (h : Exchange x y sess pool)
    (hev : CloakedEvidence sess pool.state.y) : CloakedAgreed x y sess pool.state := by
  obtain ⟨c, p, dev, hn, hparams, hdev, hconf⟩ := hev
  obtain rfl := h.eq_zero (.inl hn)
  have hsent := (h.composed.linked.down 0).subset hparams
  obtain ⟨⟨endpoint, rfl⟩, key, hadded, hpeer⟩ := (h.composed.handlers 0).params _ hsent
  have hkey := h.composed.linked.peer 0 key hpeer
  exact ⟨hkey ▸ hadded, dev, hdev, hconf.trans (uapi_shared _ endpoint).symm⟩

theorem Exchange.initial (x y : Config) (pc : PeerConfig) (hint : ModeHint) {s : YState} (hs : s.Fresh) : Exchange x y (.addr pc.controlAddr) (negotiation x y pc hint s) where
  composed := negotiation_composed x y pc hint hs
  single := by
    have hcount : (negotiation x y pc hint s).state.y.connCount = 0 := hs.count
    omega
  backed := .inl hs.count
  recorded := .inl rfl

theorem Exchange.step (h : Exchange x y sess pool)
    (hs : Pool.Step (bodies x y) (worldMachine x y) World.Breaks pool label next) :
    Exchange x y sess next ∧ Grounded x y sess label := by
  obtain ⟨hcomp, hok⟩ := h.composed.step hs
  cases hs with
  | @act β thread op rest reply ht hadm =>
    cases thread with
    | y =>
      refine ⟨⟨hcomp, connCount_le_one hok h.single, .inr hok.1, h.recorded⟩, ?_⟩
      cases op with
      | setState target state reason =>
        exact ⟨fun hn => h.native (hok.2.2.1 hn), fun hc => h.cloaked (hok.2.2.2 hc)⟩
      | _ => trivial
    | handler c =>
      refine ⟨⟨hcomp, h.single, h.backed, ?_⟩, trivial⟩
      simp only [worldMachine]
      rcases xEffect_wrote (pool.state.x c) op reply pool.state.session with hw | ⟨hw, hsame⟩
      · exact .inr ⟨c, by simpa using hw⟩
      · rw [hsame]
        refine h.recorded.imp_right fun ⟨c', hc'⟩ => ⟨c', ?_⟩
        by_cases hcc : c' = c
        · subst hcc
          simpa [hw] using hc'
        · simpa [update_of_ne hcc] using hc'
  | enter => exact ⟨⟨hcomp, h.single, h.backed, h.recorded⟩, trivial⟩
  | env he =>
    obtain ⟨_, rfl⟩ := he
    exact ⟨⟨hcomp, h.single, h.backed, h.recorded⟩, trivial⟩

theorem Exchange.answered (h : Exchange x y sess pool)
    (hopen : pool.state.broken 0 = false) : Answered pool := by
  have hfailed : (pool.state.x 0).failed = false := by
    by_contra hf
    have hb := h.composed.linked.failed 0 (Bool.not_eq_false _ ▸ hf)
    rw [hopen] at hb
    exact Bool.false_ne_true hb
  refine ⟨((h.composed.handlers 0).answers hfailed).1, ?_⟩
  rintro (hb | hf)
  · exact (h.composed.settled_of_blocked hb).1.answers hfailed
  · exact (h.composed.settled_of_finished hf).answers hfailed

-- Native needs an attempt of its own and cloaked parameters of their own, and
-- X gives one of them for each request.
theorem Exchange.agree (h : Exchange x y sess pool) (hx : pool.state.session.1.Connected)
    (hy : (pool.state.y.sessions sess).state.Connected) :
    pool.state.session.1 = (pool.state.y.sessions sess).state := by
  obtain ⟨c, hwrote⟩ : ∃ c, (pool.state.x c).wrote = some pool.state.session := by
    refine h.recorded.resolve_left fun hidle => ?_
    rw [hidle] at hx
    exact absurd hx (by decide)
  have hstarted := (h.composed.handlers c).begun (.inr (by simp [hwrote]))
  obtain rfl := h.eq_zero (.inr hstarted)
  have hcount : pool.state.y.connCount ≠ 0 := fun hzero => by
    rw [h.composed.linked.unborn 0 (by omega)] at hstarted
    exact Bool.false_ne_true hstarted
  have hinv := h.backed.resolve_left hcount
  have hsince : (pool.state.y.sessions sess).since - 1 = 0 := by
    have hle := hinv.since_le hy
    have hsingle := h.single
    omega
  have hX := h.composed.handlers 0
  have hbudget := hX.budget
  have hreadies := hX.readies_le
  have hrequests := h.composed.linked.requests_le 0
  have hready := h.composed.linked.readies_le 0
  have hparams := h.composed.linked.params_le 0
  rcases hx with hx | hx <;> rcases hy with hy | hy
  · rw [hx, hy]
  · have hn := hX.native (by simp [hwrote, hx])
    have hc := hinv.backed.cloaked hy
    rw [hsince] at hc
    omega
  · have hn := hX.cloaked (by simp [hwrote, hx])
    have hc := hinv.backed.native hy
    rw [hsince] at hc
    omega
  · rw [hx, hy]

end

-- Over any interleaving, broken connections included.
theorem negotiation_safe (x y : Config) (pc : PeerConfig) (hint : ModeHint) {s : YState}
    (hs : s.Fresh) {labels : List WorldLabel} {pool : WorldPool}
    (hr : World.Runs x y (negotiation x y pc hint s) labels pool) :
    (∀ w reason w', .act .y w (.setState (.addr pc.controlAddr) .connectedNative reason) () w' ∈
      labels → NativeAgreed w) ∧
    (∀ w reason w', .act .y w (.setState (.addr pc.controlAddr) .connectedCloaked reason) () w' ∈
      labels → CloakedAgreed x y (.addr pc.controlAddr) w) ∧
    (pool.state.broken 0 = false → Answered pool) ∧
    (pool.state.session.1.Connected →
      (pool.state.y.sessions (.addr pc.controlAddr)).state.Connected →
      pool.state.session.1 = (pool.state.y.sessions (.addr pc.controlAddr)).state) := by
  obtain ⟨hex, hlabels⟩ := hr.along (fun _ => True) (Grounded x y (.addr pc.controlAddr))
    (Exchange x y (.addr pc.controlAddr)) (fun _ _ => trivial)
    (.initial x y pc hint hs) fun pool label next _ hstep h => h.step hstep
  exact ⟨fun w reason w' hm => (hlabels _ hm).1 rfl, fun w reason w' hm => (hlabels _ hm).2 rfl,
    hex.answered, hex.agree⟩

theorem negotiation_safe_native : ∃ labels pool,
    World.Runs sampleX sampleY (negotiation sampleX sampleY samplePeer .none .init) labels pool ∧
    (pool.state.y.sessions (.addr samplePeer.controlAddr)).state = .connectedNative ∧
    pool.state.session.1 = .connectedNative ∧ Answered pool := by
  obtain ⟨labels, pool, hr, -, hd⟩ :=
    Outcomes.reaches ⟨.cone, ⟨true, ""⟩, .ok ()⟩ sampleX sampleY (fun _ => true)
      (turns [(.y, 3), (.handler 0, 8), (.y, 15), (.handler 0, 6), (.y, 4)])
      (negotiation sampleX sampleY samplePeer .none .init)
      (fun pool => decide (pool.state.broken 0 = false ∧ pool.state.session.1.Connected ∧
        (pool.state.y.sessions (.addr samplePeer.controlAddr)).state = .connectedNative)) (by decide)
  obtain ⟨hopen, hx, hy⟩ := of_decide_eq_true hd
  obtain ⟨-, -, hanswered, hagree⟩ :=
    negotiation_safe sampleX sampleY samplePeer .none YState.init_fresh hr
  exact ⟨labels, pool, hr, hy, (hagree hx (.inl hy)).trans hy, hanswered hopen⟩

end StarlingWg.Orchestrate
