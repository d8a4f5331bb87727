import StarlingWg.Orchestrate.Negotiation

namespace StarlingWg.Orchestrate

open Control Interaction Function

def deployment (x y : Config) (pc : PeerConfig) : WorldPool :=
  compose x (loneY y pc) .init

def resting : Prog Unit → Bool
  | .perform (.select _) _ => true
  | .done _ => true
  | _ => false

-- No attempt is under way, no handler is at work and no connection is open.
def Quiescent (pool : WorldPool) : Prop :=
  resting (pool.threads .y) = true ∧
  ∀ c < pool.state.y.connCount, pool.state.isOpen c = false ∧
    (finished (pool.threads (.handler c)) = true ∨ (pool.state.x c).started = false)

instance (pool : WorldPool) : Decidable (Quiescent pool) :=
  inferInstanceAs (Decidable (_ ∧ _))

def YState.alive (s : YState) (sess : SessionKey) : Bool :=
  (s.sessions sess).dev.any fun dev => !(s.devices dev).closed

def World.Agrees (w : World) (sess : SessionKey) : Prop :=
  (w.y.sessions sess).state.Connected → w.y.alive sess = true →
    w.session.1 = (w.y.sessions sess).state

instance (w : World) (sess : SessionKey) : Decidable (w.Agrees sess) :=
  inferInstanceAs (Decidable (_ → _ → _))

-- The steps that keep X's session on the connection Y's session rests on: a
-- handler writes while no handler of a later connection has started, and does
-- not time out waiting for the cloaked handshake; a connection Y has closed is
-- not accepted any more; and while Y's session is Connected, Y does not close
-- a later connection that X has accepted.
def orderly (sess : SessionKey) : WorldLabel → Bool
  | .act (.handler c) w (.setState _ state reason) _ _ =>
    decide (∀ c' < w.y.connCount, c < c' → (w.x c').started = false) &&
    decide ((state, reason) ≠ (.failed, ("cloaked-handshake-timeout" : GoString)))
  | .act (.handler c) w (.accept _) _ _ => !(w.y.conns c).closed
  | .act .y w (.closeConn c) _ _ =>
    !(decide (w.y.sessions sess).state.Connected && decide ((w.y.sessions sess).since ≤ c) &&
      (w.x c).started)
  | _ => true

-- The connections Y has dialled and closed since its session became
-- Connected were not accepted.
def Untouched (sess : SessionKey) (x : ConnId → XLocal) (s : YState) : Prop :=
  (s.sessions sess).state.Connected → ∀ c, (s.sessions sess).since ≤ c → c < s.connCount →
    (s.conns c).closed = true → (x c).started = false

structure InStep (sess : SessionKey) (w : World) : Prop where
  newest : ∀ c v, (∀ c' > c, (w.x c').started = false) → (w.x c).wrote = some v → w.session = v
  untouched : Untouched sess w.x w.y
  patient : ∀ c, (w.x c).wrote ≠ some (.failed, ("cloaked-handshake-timeout" : GoString))

section

variable {sess : SessionKey} {x : ConnId → XLocal} {s : YState}

theorem Untouched.updateSession (h : Untouched sess x s) (target : SessionKey)
    (dev : Option DevId) (extraCloser : Option SockId) :
    Untouched sess x
      (s.updateSession target fun v => { v with dev := dev, extraCloser := extraCloser }) := by
  by_cases ht : sess = target
  · subst ht
    simpa [Untouched, YState.updateSession] using h
  · simpa [Untouched, YState.updateSession, update_of_ne ht] using h

theorem Untouched.setState (sess : SessionKey) (x : ConnId → XLocal) (s : YState) (state : State)
    (reason : GoString) : Untouched sess x (s.setState sess state reason) := by
  intro _ c hsince hlt
  simp only [YState.updateSession, update_self] at hsince hlt
  omega

theorem Untouched.updateConn (h : Untouched sess x s) (cc : ConnId) (f : ConnEnd → ConnEnd)
    (hclosed : (s.sessions sess).state.Connected → (s.sessions sess).since ≤ cc →
      (f (s.conns cc)).closed = true → (s.conns cc).closed = true ∨ (x cc).started = false) :
    Untouched sess x (s.updateConn cc f) := by
  intro hc c hsince hlt hcl
  by_cases he : c = cc
  · subst he
    simp only [YState.updateConn, update_self] at hcl
    rcases hclosed hc hsince hcl with hold | hnew
    · exact h hc c hsince hlt hold
    · exact hnew
  · simp only [YState.updateConn, update_of_ne he] at hcl
    exact h hc c hsince hlt hcl

theorem Untouched.withConn (h : Untouched sess x s) (e : ConnEnd)
    (hnew : (x s.connCount).started = false) : Untouched sess x (s.withConn e) := by
  intro hc c hsince hlt hcl
  by_cases he : c = s.connCount
  · rw [he]
    exact hnew
  · simp only [YState.withConn, update_of_ne he] at hcl
    have hold : c < s.connCount := Nat.lt_of_le_of_ne (Nat.le_of_lt_succ hlt) he
    exact h hc c hsince hold hcl

end

section

variable {x y : Config} {sess : SessionKey} {goal : YState → Prop} {w : World} {β : Type}
variable {op : Op β} {reply : β}

theorem InStep.step_y (h : InStep sess w) (hlinked : w.Linked y)
    (hgood : (ySpec sess True).good w.y op reply (yEffect .main w.y op reply))
    (hord : orderly sess (.act .y w op reply ((worldMachine x y .y).effect w op reply)) = true) :
    InStep sess ((worldMachine x y .y).effect w op reply) := by
  refine ⟨h.newest, ?_, h.patient⟩
  cases op with
  | dial controlAddr remote =>
    have hnew := hlinked.unborn w.y.connCount (Nat.le_refl _)
    cases reply <;> exact h.untouched.withConn _ hnew
  | setState target state reason =>
    obtain rfl : target = sess := hgood.2.1
    exact .setState target w.x w.y state reason
  | closeConn c =>
    refine h.untouched.updateConn c (fun e => { e with closed := true }) fun hc hsince _ => ?_
    simp only [orderly, decide_eq_true hc, decide_eq_true hsince, Bool.true_and,
      Bool.not_eq_true'] at hord
    exact .inr hord
  | send c msg =>
    cases reply with
    | error err => exact h.untouched
    | ok _ =>
      exact h.untouched.updateConn c (fun e => { e with sent := e.sent ++ [msg] })
        fun _ _ hcl => .inl hcl
  | recv c =>
    cases reply with
    | error err => exact h.untouched
    | ok msg =>
      exact h.untouched.updateConn c (fun e => { e with received := e.received ++ [msg] })
        fun _ _ hcl => .inl hcl
  | setDevice target dev extraCloser => exact h.untouched.updateSession target dev extraCloser
  | takeDevice target => exact h.untouched.updateSession target none none
  | _ =>
    first
      | exact h.untouched
      | (cases reply <;> exact h.untouched)

theorem InStep.of_x (h : InStep sess w) (c : ConnId) {l : XLocal} {broken : ConnId → Bool}
    (hwrote : l.wrote = (w.x c).wrote) (hmono : (w.x c).started = true → l.started = true)
    (hnew : l.started = false ∨ (w.x c).started = true ∨ (w.y.conns c).closed = false) :
    InStep sess { w with x := update w.x c l, broken := broken } := by
  have hsame : ∀ c', (update w.x c l c').wrote = (w.x c').wrote :=
    (forall_update_iff w.x fun c' l' => l'.wrote = (w.x c').wrote).mpr ⟨hwrote, fun _ _ => rfl⟩
  have hstarted : ∀ c', (update w.x c l c').started = false → (w.x c').started = false :=
    (forall_update_iff w.x fun c' l' => l'.started = false → (w.x c').started = false).mpr
      ⟨fun hl => Bool.not_eq_true _ ▸ fun ht => Bool.false_ne_true (hl ▸ hmono ht), fun _ _ => id⟩
  refine ⟨fun c' v hlater hw => ?_, fun hc c' hsince hlt hcl => ?_, fun c' => ?_⟩
  · exact h.newest c' v (fun c'' hgt => hstarted c'' (hlater c'' hgt)) (hsame c' ▸ hw)
  · have hold := h.untouched hc c' hsince hlt hcl
    by_cases he : c' = c
    · subst he
      simp only [update_self]
      rcases hnew with hl | ht | ho
      · exact hl
      · exact absurd (hold ▸ ht) Bool.false_ne_true
      · exact absurd (ho ▸ hcl) Bool.false_ne_true
    · simpa only [update_of_ne he] using hold
  · simpa only [hsame c'] using h.patient c'

theorem InStep.write (h : InStep sess w) (hinv : ∀ c, XInv x (w.x c)) (hlinked : w.Linked y)
    (c : ConnId) {l : XLocal} {v : State × GoString} (hl : l.wrote = some v)
    (hs : l.started = (w.x c).started) (hstarted : l.started = true)
    (hlater : ∀ c' < w.y.connCount, c < c' → (w.x c').started = false)
    (hpatient : v ≠ (.failed, ("cloaked-handshake-timeout" : GoString))) :
    InStep sess { w with x := update w.x c l, session := v } := by
  have hsame : ∀ c', (update w.x c l c').started = (w.x c').started :=
    (forall_update_iff w.x fun c' l' => l'.started = (w.x c').started).mpr ⟨hs, fun _ _ => rfl⟩
  refine ⟨fun c' v' hnone hw => ?_, fun hc c' hsince hlt hcl => ?_, ?_⟩
  · -- only the latest handler, which is this one, can have no later one
    by_cases he : c' = c
    · subst he
      simp only [update_self, hl] at hw
      exact Option.some.inj hw
    · simp only [update_of_ne he] at hw
      have hs' := (hinv c').begun (.inr (by simp [hw]))
      rcases Nat.lt_or_gt_of_ne he with hlt | hgt
      · have hnot : l.started = false := by simpa using hnone c hlt
        exact absurd (hnot ▸ hstarted) Bool.false_ne_true
      · by_cases hborn : c' < w.y.connCount
        · exact absurd (hlater c' hborn hgt ▸ hs') Bool.false_ne_true
        · exact absurd (hlinked.unborn c' (Nat.not_lt.mp hborn) ▸ hs') Bool.false_ne_true
  · simpa only [hsame] using h.untouched hc c' hsince hlt hcl
  · refine (forall_update_iff w.x fun _ l' => l'.wrote ≠ _).mpr ⟨?_, fun c' _ => h.patient c'⟩
    rw [hl]
    exact fun he => hpatient (Option.some.inj he)

theorem InStep.step_x (h : InStep sess w) (hinv : ∀ c, XInv x (w.x c)) (hlinked : w.Linked y)
    (c : ConnId) (hinv' : XInv x (xEffect (w.x c) op reply))
    (hord : orderly sess (.act (.handler c) w op reply
      ((worldMachine x y (.handler c)).effect w op reply)) = true) :
    InStep sess ((worldMachine x y (.handler c)).effect w op reply) := by
  have hkeep : (w.x c).started = false ∨ (w.x c).started = true ∨ (w.y.conns c).closed = false := by
    cases (w.x c).started <;> simp
  cases op with
  | accept conn =>
    simp only [orderly, Bool.not_eq_true'] at hord
    exact h.of_x c rfl (fun _ => rfl) (.inr (.inr hord))
  | setState target state reason =>
    simp only [orderly, Bool.and_eq_true, decide_eq_true_eq] at hord
    have hstarted : (w.x c).started = true := hinv'.begun (.inr (by simp [xEffect]))
    exact h.write hinv hlinked c rfl rfl hstarted hord.1 hord.2
  | _ =>
    first
      | exact h.of_x c rfl id hkeep
      | (cases reply <;> exact h.of_x c rfl id hkeep)

end

structure Deployed (x y : Config) (sess : SessionKey) (pool : WorldPool) : Prop where
  composed : Composed x y sess True YState.HungUp pool
  talk : TalkInv sess pool.state.y
  inStep : InStep sess pool.state

section

variable {x y : Config} {sess : SessionKey} {pool next : WorldPool}
variable {label : WorldLabel}

theorem Deployed.initial (x y : Config) (pc : PeerConfig) :
    Deployed x y (.addr pc.controlAddr) (deployment x y pc) := by
  have hidle : ¬State.idle.Connected := by decide
  have htalk : TalkInv (.addr pc.controlAddr) YState.init :=
    ⟨.of_not_connected hidle, fun _ _ => rfl⟩
  have hhung : YState.init.HungUp := fun c hc => absurd hc (Nat.not_lt_zero c)
  refine ⟨.initial YState.init_fresh (loneY_meets y pc trivial htalk hhung), htalk, ?_⟩
  exact ⟨nofun, fun hc => absurd hc hidle, nofun⟩

theorem Deployed.step (h : Deployed x y sess pool)
    (hs : Pool.Step (bodies x y) (worldMachine x y) World.Breaks pool label next)
    (hord : orderly sess label = true) : Deployed x y sess next := by
  obtain ⟨hcomp, hok⟩ := h.composed.step hs
  cases hs with
  | @act β thread op rest reply ht hadm =>
    cases thread with
    | y => exact ⟨hcomp, hok.1, h.inStep.step_y h.composed.linked hok hord⟩
    | handler c =>
      have hinv : XInv x (xEffect (pool.state.x c) op reply) := by
        have hview : ((worldMachine x y (.handler c)).effect pool.state op reply).x c =
          xEffect (pool.state.x c) op reply := update_self ..
        exact hview ▸ hcomp.handlers c
      exact ⟨hcomp, h.talk, h.inStep.step_x h.composed.handlers h.composed.linked c hinv hord⟩
  | enter => exact ⟨hcomp, h.talk, h.inStep⟩
  | env he =>
    obtain ⟨_, rfl⟩ := he
    exact ⟨hcomp, h.talk, { h.inStep with }⟩

theorem Deployed.hungUp (h : Deployed x y sess pool)
    (hrest : resting (pool.threads .y) = true) : pool.state.y.HungUp := by
  have hw := h.composed.meets .y
  unfold resting at hrest
  split at hrest
  · next netChange rest hsel =>
      rw [hsel] at hw
      exact (hw .ctxDone rfl).1.2
  · next hdone =>
      rw [hdone] at hw
      exact hw
  · simp at hrest

theorem Deployed.handler_wrote (h : Deployed x y sess pool) {c : ConnId}
    (hset : XSettled (pool.state.x c))
    (hc : (pool.state.y.sessions sess).state.Connected)
    (hsince : (pool.state.y.sessions sess).since = c + 1) :
    (pool.state.x c).wrote.map Prod.fst = some (pool.state.y.sessions sess).state := by
  have hbudget := (h.composed.handlers c).budget
  have hsuccesses := (h.composed.handlers c).readies_le
  have hrequests := h.composed.linked.requests_le c
  have hreadies := h.composed.linked.readies_le c
  have hparams := h.composed.linked.params_le c
  rcases hc with hn | hn
  · have hb := h.talk.backed.native hn
    rw [hsince, Nat.add_sub_cancel] at hb
    rw [hn]
    exact hset.native (by omega) (by omega)
  · have hb := h.talk.backed.cloaked hn
    rw [hsince, Nat.add_sub_cancel] at hb
    rw [hn]
    exact (hset.cloaked (by omega) (by omega)).resolve_right (h.inStep.patient c)

theorem Deployed.agrees (h : Deployed x y sess pool) (hq : Quiescent pool) :
    pool.state.Agrees sess := by
  intro hc _
  obtain ⟨hrest, hx⟩ := hq
  have hpos := h.talk.backed.since_pos hc
  have hle := h.talk.since_le hc
  obtain ⟨c, hsince⟩ : ∃ c, (pool.state.y.sessions sess).since = c + 1 :=
    ⟨_, (Nat.succ_pred_eq_of_pos hpos).symm⟩
  -- the handler of the session's connection has started, since Y heard from it
  have hsent : (pool.state.x c).sent ≠ [] := by
    intro hnil
    have hreadies := h.composed.linked.readies_le c
    have hparams := h.composed.linked.params_le c
    rw [hnil] at hreadies hparams
    rcases hc with hn | hn
    · have hb := h.talk.backed.native hn
      rw [hsince, Nat.add_sub_cancel] at hb
      simp only [List.countP_nil] at hreadies
      omega
    · have hb := h.talk.backed.cloaked hn
      rw [hsince, Nat.add_sub_cancel] at hb
      simp only [List.countP_nil] at hparams
      omega
  have hstarted := (h.composed.handlers c).begun (.inl hsent)
  have hset : XSettled (pool.state.x c) := by
    rcases (hx c (by omega)).2 with hf | hn
    · exact h.composed.settled_of_finished hf
    · exact absurd (hn ▸ hstarted) Bool.false_ne_true
  have hwrote := h.handler_wrote hset hc hsince
  -- and no later connection has been accepted
  have hlater : ∀ c' > c, (pool.state.x c').started = false := by
    intro c' hgt
    by_cases hborn : c' < pool.state.y.connCount
    · exact h.inStep.untouched hc c' (hsince ▸ hgt) hborn (h.hungUp hrest c' hborn)
    · exact h.composed.linked.unborn c' (Nat.not_lt.mp hborn)
  obtain ⟨v, hv, hstate⟩ := Option.map_eq_some_iff.mp hwrote
  rw [h.inStep.newest c v hlater hv, hstate]

end

-- At rest, both ends show the same mode.
theorem agreement_of_orderly (x y : Config) (pc : PeerConfig)
    {labels : List WorldLabel} {pool : WorldPool}
    (hr : World.Runs x y (deployment x y pc) labels pool)
    (hord : ∀ label ∈ labels, orderly (.addr pc.controlAddr) label = true)
    (hq : Quiescent pool) : pool.state.Agrees (.addr pc.controlAddr) := by
  obtain ⟨hdep, -⟩ := hr.along (fun label => orderly (.addr pc.controlAddr) label = true)
    (fun _ => True) (Deployed x y (.addr pc.controlAddr)) hord (.initial x y pc)
    fun pool label next hl hstep h => ⟨h.step hstep hl, trivial⟩
  exact hdep.agrees hq

theorem agreement_of_orderly_cloaked : ∃ labels pool,
    World.Runs sampleX sampleY (deployment sampleX sampleY samplePeer) labels pool ∧
    (∀ label ∈ labels, orderly (.addr samplePeer.controlAddr) label = true) ∧
    Quiescent pool ∧ pool.state.session.1 = .connectedCloaked := by
  obtain ⟨labels, pool, hr, hord, hd⟩ :=
    Outcomes.reaches ⟨.symmetric, ⟨false, ""⟩, .ok ()⟩ sampleX sampleY
      (orderly (.addr samplePeer.controlAddr))
      (turns [(.y, 5), (.handler 0, 8), (.y, 9), (.handler 0, 12), (.y, 15), (.handler 0, 2),
        (.y, 2)])
      (deployment sampleX sampleY samplePeer)
      (fun pool => decide (Quiescent pool ∧
        (pool.state.y.sessions (.addr samplePeer.controlAddr)).state = .connectedCloaked ∧
        pool.state.y.alive (.addr samplePeer.controlAddr) = true)) (by decide)
  obtain ⟨hq, hc, halive⟩ := of_decide_eq_true hd
  have hagrees := agreement_of_orderly sampleX sampleY samplePeer hr hord hq
  exact ⟨labels, pool, hr, hord, hq, (hagrees (.inr hc) halive).trans hc⟩

-- X has moved its session to Probing when the attempt is dropped, and leaves it
-- there.
theorem dropped_attempt_disagrees : ∃ labels pool,
    World.Runs sampleX sampleY (deployment sampleX sampleY samplePeer) labels pool ∧ Quiescent pool ∧
    (pool.state.y.sessions (.addr samplePeer.controlAddr)).state = .connectedCloaked ∧
    pool.state.y.alive (.addr samplePeer.controlAddr) = true ∧
    pool.state.session.1 = .probing := by
  obtain ⟨labels, pool, hr, -, hd⟩ :=
    Outcomes.reaches ⟨.symmetric, ⟨false, ""⟩, .ok ()⟩ sampleX sampleY (fun _ => true)
      (turns [(.y, 5), (.handler 0, 8), (.y, 9), (.handler 0, 12), (.y, 15), (.handler 0, 2),
        (.y, 13), (.handler 1, 8), (.y, 8), (.handler 1, 2), (.y, 1)])
      (deployment sampleX sampleY samplePeer)
      (fun pool => decide (Quiescent pool ∧
        (pool.state.y.sessions (.addr samplePeer.controlAddr)).state = .connectedCloaked ∧
        pool.state.y.alive (.addr samplePeer.controlAddr) = true ∧
        pool.state.session.1 = .probing)) (by decide)
  exact ⟨labels, pool, hr, of_decide_eq_true hd⟩

end StarlingWg.Orchestrate
