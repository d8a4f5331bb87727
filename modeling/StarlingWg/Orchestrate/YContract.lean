import StarlingWg.Orchestrate.Conversation

namespace StarlingWg.Orchestrate

open Control Interaction UapiLine State List Function

theorem cloakedConf_shared (cfg : Config) (pc : PeerConfig) (allowedIPs : List Prefix)
    (p : CloakedParams) :
    (cloakedConf cfg pc allowedIPs p).filter shared = cloakedParamsUAPI p := by
  have hips : (allowedIPs.map allowedIP).filter shared = [] := by
    simp [filter_eq_nil_iff, shared]
  have hparams : (cloakedParamsUAPI p).filter shared = cloakedParamsUAPI p := by
    simp only [cloakedParamsUAPI, filter_append, lineUnless_filter_shared (.s1 p.s1) rfl,
      lineUnless_filter_shared (.s2 p.s2) rfl, lineUnless_filter_shared (.s3 p.s3) rfl,
      lineUnless_filter_shared (.s4 p.s4) rfl, lineUnless_filter_shared (.h1 p.h1Lo p.h1Hi) rfl,
      lineUnless_filter_shared (.h2 p.h2Lo p.h2Hi) rfl,
      lineUnless_filter_shared (.h3 p.h3Lo p.h3Hi) rfl,
      lineUnless_filter_shared (.h4 p.h4Lo p.h4Hi) rfl,
      lineUnless_filter_shared (.headerProtectionKey p.headerProtectionKey) rfl]
  simp only [cloakedConf, filter_append, hips, hparams]
  simp [shared]

-- `sess` is backed, and connections not dialled yet carry nothing.
structure TalkInv (sess : SessionKey) (s : YState) : Prop where
  backed : Backed (s.sessions sess).state (s.sessions sess).since s.conns
  fresh : ∀ c, s.connCount ≤ c → s.conns c = {}

-- Between `s` and `s'` the connections below `lo` were not used, and those
-- from `hi` on have been closed again.
structure Used (lo hi : Nat) (s s' : YState) : Prop where
  count : s.connCount ≤ s'.connCount
  same : ∀ c < lo, s'.conns c = s.conns c
  closed : ∀ c, hi ≤ c → c < s'.connCount → (s'.conns c).closed = true

def YState.HungUp (s : YState) : Prop :=
  ∀ c < s.connCount, (s.conns c).closed = true

-- `cc` is the newest connection; a Connected session rests on an older one.
structure Talking (sess : SessionKey) (cc : ConnId) (s : YState) : Prop where
  inv : TalkInv sess s
  newest : s.connCount = cc + 1
  apart : (s.sessions sess).state.Connected → (s.sessions sess).since ≤ cc

-- Devices, sockets and the shared TUN have moved, nothing else.
structure SameTalk (s s' : YState) : Prop where
  sessions : s'.sessions = s.sessions
  conns : s'.conns = s.conns
  connCount : s'.connCount = s.connCount

-- Y has the answer to its report on the newest connection. Without upgrades
-- the report is the only request it made there.
def NativeEvidence (upgrades : Prop) (s : YState) : Prop :=
  ∃ c m, s.connCount = c + 1 ∧ .nativeEndpointReport m ∈ (s.conns c).sent ∧
    .nativeReady ⟨m.sessionID⟩ ∈ (s.conns c).received ∧
    (requestCount (s.conns c).sent = 1 ∨ upgrades)

-- The session's device runs on parameters received on the newest connection.
def CloakedEvidence (sess : SessionKey) (s : YState) : Prop :=
  ∃ c p dev, s.connCount = c + 1 ∧ .cloakedParams p ∈ (s.conns c).received ∧
    (s.sessions sess).dev = some dev ∧
    (s.devices dev).conf.filter shared = cloakedParamsUAPI p

structure AwaitsParams (e : ConnEnd) : Prop where
  single : requestCount e.sent ≤ 1
  due : owed e.received = true ∨
    (paramsCount e.received = 0 ∧ ∃ m, .modeDecision m ∈ e.sent ∧ m.mode = ModeCloaked)

structure AwaitsResult (sid : SessionID) (externalAddr : AddrPort) (e : ConnEnd) : Prop where
  single : requestCount e.sent = 1
  report : .nativeEndpointReport ⟨sid, externalAddr⟩ ∈ e.sent
  due : ∀ r ∈ e.received, answered r ≠ some sid

theorem AwaitsParams.receive_other {e : ConnEnd} (h : AwaitsParams e) {msg : Message}
    (hmsg : isParams msg = false) : AwaitsParams { e with received := e.received ++ [msg] } where
  single := h.single
  due := by
    rcases h.due with ho | ⟨hp, hm⟩
    · left
      cases msg <;> simp_all [owedStep, isParams]
    · right
      exact ⟨by simpa [paramsCount, hmsg] using hp, hm⟩

theorem AwaitsResult.receive_other {e : ConnEnd} {sid : SessionID} {externalAddr : AddrPort}
    (h : AwaitsResult sid externalAddr e) {msg : Message} (hmsg : answered msg ≠ some sid) :
    AwaitsResult sid externalAddr { e with received := e.received ++ [msg] } where
  single := h.single
  report := h.report
  due r hr := by
    simp only [mem_append, mem_singleton] at hr
    rcases hr with hr | rfl
    · exact h.due r hr
    · exact hmsg

-- The contract of the Y side for the session `sess`. `upgrades` says whether
-- background native attempts are part of the run.
def ySpec (sess : SessionKey) (upgrades : Prop) : Spec sig YState where
  good s _ op _ s' := TalkInv sess s' ∧ match op with
    | .dial _ _ => s.connCount = 0 ∨ upgrades
    | .recv c => Waiting (s.conns c) ∨ upgrades
    | .setState target state _ => target = sess ∧
        (state = .connectedNative → NativeEvidence upgrades s) ∧
        (state = .connectedCloaked → CloakedEvidence sess s)
    | .select _ => s.HungUp
    | _ => True
  pre
    | .runY pc _, s => .addr pc.controlAddr = sess ∧ (s.connCount = 0 ∨ upgrades) ∧
        ∀ c, s.connCount ≤ c → s.conns c = {}
    | .nativeWait cc pc _ _ _ externalAddr sid, s => .addr pc.controlAddr = sess ∧
        Talking sess cc s ∧ ¬(s.sessions sess).state.Connected ∧
        AwaitsResult sid externalAddr (s.conns cc)
    | .cloakedWait cc pc _, s => .addr pc.controlAddr = sess ∧
        Talking sess cc s ∧ ¬(s.sessions sess).state.Connected ∧ AwaitsParams (s.conns cc)
    | .pollY _ _ _, s => TalkInv sess s
    | .attemptBackgroundNative pc, s => .addr pc.controlAddr = sess ∧ upgrades ∧ TalkInv sess s
    | .backgroundWait cc pc _ _ _ _ _ _, s => .addr pc.controlAddr = sess ∧ upgrades ∧
        Talking sess cc s ∧ requestCount (s.conns cc).sent = 1
    | .waitForNativeReady cc _ _, s => upgrades ∧ Talking sess cc s
    | .supervise pc _, s => .addr pc.controlAddr = sess ∧ upgrades ∧ TalkInv sess s ∧ s.HungUp
    | _, _ => False
  post
    | .runY _ _, s, _, s' => TalkInv sess s' ∧ Used s.connCount s.connCount s s'
    | .nativeWait cc _ _ _ _ _ _, s, _, s' => TalkInv sess s' ∧ Used cc (cc + 1) s s'
    | .cloakedWait cc _ _, s, _, s' => TalkInv sess s' ∧ Used cc (cc + 1) s s'
    | .pollY _ _ _, s, _, s' => s' = s
    | .attemptBackgroundNative _, s, _, s' => TalkInv sess s' ∧ Used s.connCount s.connCount s s'
    | .backgroundWait cc _ _ _ _ _ _ _, s, _, s' => TalkInv sess s' ∧ Used cc (cc + 1) s s'
    | .waitForNativeReady cc sid _, s, ready, s' => ∃ messages, s' = s.receive cc messages ∧
        (ready = true → .nativeReady ⟨sid⟩ ∈ messages)
    | .supervise _ _, _, _, s' => s'.HungUp
    | _, _, _, _ => True

section

variable {sess : SessionKey} {cc : ConnId} {s s' s'' : YState} {lo hi : Nat}

theorem TalkInv.since_le (h : TalkInv sess s) (hc : (s.sessions sess).state.Connected) :
    (s.sessions sess).since ≤ s.connCount := by
  by_contra hlt
  have hempty := h.fresh ((s.sessions sess).since - 1) (by omega)
  rcases hc with hc | hc
  · have hreq := (h.backed.native hc).1
    simp [hempty] at hreq
  · have hparams := (h.backed.cloaked hc).2
    simp [hempty] at hparams

theorem TalkInv.withConn (h : TalkInv sess s) (e : ConnEnd) : TalkInv sess (s.withConn e) where
  backed := h.backed.update fun hc => by
    have hle := h.since_le hc
    have hpos := h.backed.since_pos hc
    omega
  fresh c hc := by
    simp only [YState.withConn] at hc ⊢
    have hne : c ≠ s.connCount := by omega
    rw [update_of_ne hne]
    exact h.fresh c (by omega)

theorem withConn_updateConn (s : YState) (e : ConnEnd) (f : ConnEnd → ConnEnd) :
    (s.withConn e).updateConn s.connCount f = s.withConn (f e) := by
  simp [YState.withConn, YState.updateConn]

theorem Talking.updateConn (h : Talking sess cc s) (f : ConnEnd → ConnEnd) :
    Talking sess cc (s.updateConn cc f) where
  inv :=
    { backed := h.inv.backed.update fun hc => by
        have hle := h.apart hc
        have hpos := h.inv.backed.since_pos hc
        omega
      fresh := fun c hc => by
        have hn := h.newest
        simp only [YState.updateConn] at hc ⊢
        have hne : c ≠ cc := by omega
        rw [update_of_ne hne]
        exact h.inv.fresh c hc }
  newest := h.newest
  apart := h.apart

theorem Talking.receive (h : Talking sess cc s) (messages : List Message) :
    Talking sess cc (s.receive cc messages) :=
  h.updateConn _

theorem Talking.send (h : Talking sess cc s) (msg : Message) : Talking sess cc (s.send cc msg) :=
  h.updateConn _

theorem TalkInv.setDevice (h : TalkInv sess s) (dev : Option DevId) (extraCloser : Option SockId) :
    TalkInv sess (s.updateSession sess fun v => { v with dev := dev, extraCloser := extraCloser }) where
  backed := by
    simp only [YState.updateSession, update_self]
    exact h.backed
  fresh := h.fresh

theorem TalkInv.setState (sess : SessionKey) (h : ∀ c, s.connCount ≤ c → s.conns c = {}) {state : State}
    (hb : Backed state s.connCount s.conns) (reason : GoString) :
    TalkInv sess (s.setState sess state reason) where
  backed := by
    simp only [YState.updateSession, update_self]
    exact hb
  fresh := h

theorem TalkInv.setState_other (sess : SessionKey) (h : ∀ c, s.connCount ≤ c → s.conns c = {}) {state : State}
    (hstate : ¬state.Connected) (reason : GoString) : TalkInv sess (s.setState sess state reason) :=
  .setState sess h (.of_not_connected hstate) reason

theorem Talking.setState_other (h : Talking sess cc s) {state : State}
    (hstate : ¬state.Connected) (reason : GoString) :
    Talking sess cc (s.setState sess state reason) where
  inv := .setState_other sess h.inv.fresh hstate reason
  newest := h.newest
  apart hc := by
    simp only [YState.updateSession, update_self] at hc
    exact absurd hc hstate

theorem Talking.same (h : Talking sess cc s) (hs : SameTalk s s') : Talking sess cc s' where
  inv :=
    { backed := by
        rw [hs.sessions, hs.conns]
        exact h.inv.backed
      fresh := by
        rw [hs.connCount, hs.conns]
        exact h.inv.fresh }
  newest := hs.connCount.trans h.newest
  apart := by
    rw [hs.sessions]
    exact h.apart

theorem Used.same_conns (h : Used lo hi s s') (hc : s''.conns = s'.conns)
    (hn : s''.connCount = s'.connCount) : Used lo hi s s'' where
  count := by
    rw [hn]
    exact h.count
  same := by
    rw [hc]
    exact h.same
  closed := by
    rw [hn, hc]
    exact h.closed

theorem Used.refl (s : YState) (hhi : s.connCount ≤ hi) : Used lo hi s s where
  count := Nat.le_refl _
  same _ _ := rfl
  closed c hc hlt := by omega

theorem Used.trans (h : Used lo hi s s') (h' : Used lo hi s' s'') : Used lo hi s s'' where
  count := Nat.le_trans h.count h'.count
  same c hc := (h'.same c hc).trans (h.same c hc)
  closed := h'.closed

theorem Used.mono {lo' : Nat} (h : Used lo' hi s s') (hle : lo ≤ lo') : Used lo hi s s' :=
  { h with same := fun c hc => h.same c (Nat.lt_of_lt_of_le hc hle) }

theorem Used.updateConn (hn : s.connCount = cc + 1) (f : ConnEnd → ConnEnd) :
    Used cc (cc + 1) s (s.updateConn cc f) where
  count := Nat.le_refl _
  same c hc := update_of_ne (Nat.ne_of_lt hc) _ _
  closed c hc hlt := by
    simp only [YState.updateConn] at hlt
    omega

theorem TalkInv.closeConn (h : TalkInv sess s) (hlt : s.connCount > cc) :
    TalkInv sess (s.updateConn cc fun e => { e with closed := true }) where
  backed := h.backed.close cc
  fresh c hc := by
    simp only [YState.updateConn] at hc ⊢
    have hne : c ≠ cc := by omega
    rw [update_of_ne hne]
    exact h.fresh c hc

theorem Talking.withConn (h : TalkInv sess s) (e : ConnEnd) :
    Talking sess s.connCount (s.withConn e) where
  inv := h.withConn e
  newest := rfl
  apart hc := h.since_le hc

theorem Used.withConn (s : YState) {e : ConnEnd} (he : e.closed = true) :
    Used s.connCount s.connCount s (s.withConn e) where
  count := Nat.le_succ _
  same c hc := update_of_ne (Nat.ne_of_lt hc) _ _
  closed c hc hlt := by
    obtain rfl : c = s.connCount := by
      simp only [YState.withConn] at hlt
      omega
    simpa [YState.withConn] using he

-- The deferred Close of a connection dialled in `s`.
theorem Used.closeConn {e : ConnEnd} (h : Used s.connCount (s.connCount + 1) (s.withConn e) s') :
    Used s.connCount s.connCount s
      (s'.updateConn s.connCount fun e => { e with closed := true }) where
  count := by
    have hle := h.count
    simp only [YState.withConn, YState.updateConn] at hle ⊢
    omega
  same c hc := by
    have hne := Nat.ne_of_lt hc
    simp only [YState.updateConn]
    rw [update_of_ne hne, h.same c hc]
    exact update_of_ne hne _ _
  closed c hc hlt := by
    simp only [YState.updateConn] at hlt ⊢
    by_cases he : c = s.connCount
    · subst he
      simp
    · rw [update_of_ne he]
      exact h.closed c (by omega) hlt

theorem Used.hungUp (h : Used s.connCount s.connCount s s') (hs : s.HungUp) : s'.HungUp := by
  intro c hc
  by_cases hlt : c < s.connCount
  · rw [h.same c hlt]
    exact hs c hlt
  · exact h.closed c (by omega) hc

theorem YState.HungUp.same_conns (hs : s.HungUp) (hconns : s'.conns = s.conns)
    (hcount : s'.connCount = s.connCount) : s'.HungUp := by
  intro c hc
  rw [hconns]
  exact hs c (hcount ▸ hc)

end

section

abbrev PeerConfig.sess (pc : PeerConfig) : SessionKey :=
  .addr pc.controlAddr

variable {sess : SessionKey} {upgrades : Prop} {who : Actor} {s s₀ : YState} {cfg : Config}
  {cc : ConnId} {pc : PeerConfig} {allowedIPs : List Prefix} {info : XInfo} {xAddr : Addr}
  {hint : ModeHint} {sup : Supervision} {ySocket probeSocket : SockId} {dev yDev probeDev : DevId}
  {externalAddr : AddrPort} {sid : SessionID} {deadline : Int} {peer : Key} {state : State}
  {reason : GoString} {tun : Tun} {bind : Bind} {p : CloakedParams}

abbrev yWp (who : Actor) (sess : SessionKey) (upgrades : Prop) {α : Type} (program : Prog α)
    (Q : α → YState → Prop) (s : YState) : Prop :=
  wp (yMachine who) (ySpec sess upgrades) program Q s

abbrev Kept (sess : SessionKey) (cc : ConnId) (s₀ : YState) {α : Type} (_ : α) (s : YState) : Prop :=
  TalkInv sess s ∧ Used cc (cc + 1) s₀ s

theorem connectXInfo_meets (hi : TalkInv sess s) (hdial : s.connCount = 0 ∨ upgrades)
    {Q : Except String (ConnId × XInfo × Addr) → YState → Prop}
    (herr : ∀ err e, e.closed = true → Q (.error err) (s.withConn e))
    (hok : ∀ info xAddr e, e.closed = false → requestCount e.sent = 0 →
      paramsCount e.received = 0 → (∀ r ∈ e.received, answered r = none) →
      Q (.ok (s.connCount, info, xAddr)) (s.withConn e)) :
    yWp who sess upgrades (connectXInfo cfg pc) Q s := by
  have hconn := fun e => hi.withConn e
  have hwait : ∀ e, e.received.length < 2 → Waiting ((s.withConn e).conns s.connCount) ∨ upgrades := by
    intro e hlen
    simp only [YState.withConn, update_self]
    exact .inl (.inl hlen)
  unfold connectXInfo
  simp only [wp_bind, wp_y, yEvery, wp_pure, withConn_updateConn]
  refine ⟨fun err => ⟨⟨hconn _, hdial⟩, herr _ _ rfl⟩, ⟨hconn _, hdial⟩,
    fun err => ⟨⟨hconn _, trivial⟩, ⟨hconn _, trivial⟩, herr _ _ rfl⟩, ⟨hconn _, trivial⟩,
    fun err => ⟨⟨hconn _, hwait _ (by simp)⟩, ⟨hconn _, trivial⟩, herr _ _ rfl⟩, fun msg => ?_⟩
  refine ⟨⟨hconn _, hwait _ (by simp)⟩, ?_⟩
  -- anything but Hello, and then anything but XInfo, closes the connection
  cases msg with
  | hello m =>
    simp only [wp_bind, wp_y, yEvery, wp_pure, withConn_updateConn]
    refine ⟨fun err => ⟨⟨hconn _, hwait _ (by simp)⟩, ⟨hconn _, trivial⟩, herr _ _ rfl⟩,
      fun msg => ⟨⟨hconn _, hwait _ (by simp)⟩, ?_⟩⟩
    cases msg with
    | xInfo info =>
      simp only [wp_bind, wp_y, yEvery]
      rintro (err | xAddr)
      · simp only [wp_bind, wp_y, yEvery, wp_pure, withConn_updateConn]
        exact ⟨⟨hconn _, trivial⟩, ⟨hconn _, trivial⟩, herr _ _ rfl⟩
      · exact ⟨⟨hconn _, trivial⟩, hok info xAddr _ rfl (by simp [requestCount, isRequest])
          (by simp [paramsCount, isParams]) (by simp [answered])⟩
    | _ =>
      simp only [wp_bind, wp_y, yEvery, wp_pure, withConn_updateConn]
      exact ⟨⟨hconn _, trivial⟩, herr _ _ rfl⟩
  | _ =>
    simp only [wp_bind, wp_y, yEvery, wp_pure, withConn_updateConn]
    exact ⟨⟨hconn _, trivial⟩, herr _ _ rfl⟩

theorem good_setState_other (hfresh : ∀ c, s.connCount ≤ c → s.conns c = {})
    (hstate : ¬state.Connected) :
    (ySpec sess upgrades).good s (.setState sess state reason) () (s.setState sess state reason) :=
  ⟨.setState_other sess hfresh hstate reason, rfl, fun hn => absurd (.inl hn) hstate,
    fun hc => absurd (.inr hc) hstate⟩

theorem Talking.leave {s₀ s₂ : YState} (ht : Talking sess cc s) (hu : Used cc (cc + 1) s₀ s)
    (hstate : ¬state.Connected) (hs : SameTalk s s₂) :
    (ySpec sess upgrades).good s₂ (.setState sess state reason) () (s₂.setState sess state reason) ∧
    TalkInv sess (s₂.setState sess state reason) ∧
    Used cc (cc + 1) s₀ (s₂.setState sess state reason) := by
  have hfresh := (ht.same hs).inv.fresh
  have hused := hu.same_conns hs.conns hs.connCount
  exact ⟨good_setState_other hfresh hstate, .setState_other sess hfresh hstate reason,
    hused.count, hused.same, hused.closed⟩

theorem pollY_meets (hi : TalkInv sess s) :
    yWp who sess upgrades (pollY dev peer deadline) (fun _ s' => s' = s) s := by
  unfold pollY
  simp only [wp_bind, wp_y, yEvery]
  intro t
  refine ⟨⟨hi, trivial⟩, ?_⟩
  split
  · simp only [wp_bind, wp_y, yEvery]
    rintro (_ | _ | seen)
    all_goals
      refine ⟨⟨hi, trivial⟩, ?_⟩
      first
        | rfl
        | simp only [wp_bind, wp_y, yEvery, wp_call]
          exact fun _ => ⟨⟨hi, trivial⟩, hi, fun _ _ hp => hp⟩
  · rfl

theorem install_meets (cc : ConnId) {externalAddr : Option AddrPort} (hi : TalkInv pc.sess s)
    (hn : s.connCount = cc + 1) (hb : Backed state s.connCount s.conns)
    (hnative : state = .connectedNative → NativeEvidence upgrades s)
    (hcloaked : state = .connectedCloaked → ∃ p, .cloakedParams p ∈ (s.conns cc).received ∧
      (s.devices dev).conf.filter shared = cloakedParamsUAPI p) {Q : YState → Prop}
    (hq : ∀ s', TalkInv pc.sess s' → Used cc (cc + 1) s s' → Q s') :
    yWp who pc.sess upgrades (install pc dev extraCloser state reason mode externalAddr) (fun _ => Q) s := by
  have hdevice := hi.setDevice (some dev) extraCloser
  have hdone := TalkInv.setState pc.sess hdevice.fresh hb reason
  unfold install
  simp only [wp_bind, wp_y, yEvery]
  refine ⟨⟨hdevice, trivial⟩, ⟨hdone, rfl, hnative, fun hc => ?_⟩,
    fun _ => ⟨⟨hdone, trivial⟩, hq _ hdone ?_⟩⟩
  · obtain ⟨p, hp, hconf⟩ := hcloaked hc
    exact ⟨cc, p, dev, hn, hp, by simp [YState.updateSession], hconf⟩
  · exact (Used.refl s (Nat.le_of_eq hn)).same_conns rfl rfl

theorem install_native_meets (cc : ConnId) (m : NativeEndpointReport)
    (externalAddr : Option AddrPort) (hi : TalkInv pc.sess s)
    (hn : s.connCount = cc + 1) (hreport : .nativeEndpointReport m ∈ (s.conns cc).sent)
    (hready : .nativeReady ⟨m.sessionID⟩ ∈ (s.conns cc).received)
    (hcount : requestCount (s.conns cc).sent ≤ readyCount (s.conns cc).received)
    (hsingle : requestCount (s.conns cc).sent = 1 ∨ upgrades) {Q : YState → Prop}
    (hq : ∀ s', TalkInv pc.sess s' → Used cc (cc + 1) s s' → Q s') :
    yWp who pc.sess upgrades
      (install pc dev extraCloser .connectedNative reason mode externalAddr) (fun _ => Q) s := by
  have hpos : 0 < requestCount (s.conns cc).sent := countP_pos_iff.mpr ⟨_, hreport, rfl⟩
  refine install_meets cc hi hn ?_ (fun _ => ⟨cc, m, hn, hreport, hready, hsingle⟩) (by simp) hq
  rw [hn]
  exact ⟨fun _ => Nat.succ_pos cc, fun _ => ⟨hpos, hcount⟩, nofun⟩

theorem preparePassiveDevice_meets (hi : TalkInv sess s) {Q : Except String DevId → YState → Prop}
    (hq : ∀ reply s', SameTalk s s' → Q reply s') :
    yWp who sess upgrades (preparePassiveDevice cfg pc allowedIPs tun bind) Q s := by
  unfold preparePassiveDevice
  simp only [wp_bind, wp_y, yEvery, wp_pure]
  refine ⟨⟨{ hi with }, trivial⟩, fun err => ⟨⟨{ hi with }, trivial⟩, ⟨{ hi with }, trivial⟩, ?_⟩,
    ⟨{ hi with }, trivial⟩, ?_⟩
  · exact hq _ _ ⟨rfl, rfl, rfl⟩
  · rintro (err | _)
    · simp only [wp_bind, wp_y, yEvery, wp_pure]
      exact ⟨⟨{ hi with }, trivial⟩, ⟨{ hi with }, trivial⟩, hq _ _ ⟨rfl, rfl, rfl⟩⟩
    · exact ⟨⟨{ hi with }, trivial⟩, hq _ _ ⟨rfl, rfl, rfl⟩⟩

theorem closeDevice_meets (sess : SessionKey) (hi : TalkInv sess s) {Q : YState → Prop}
    (hq : ∀ s', TalkInv sess s' → s'.conns = s.conns → s'.connCount = s.connCount → Q s') :
    yWp who sess upgrades (closeDevice sess) (fun _ => Q) s := by
  have htaken := hi.setDevice none none
  unfold closeDevice
  simp only [wp_bind, wp_y, yEvery]
  refine ⟨⟨htaken, trivial⟩, ?_⟩
  cases (s.sessions sess).dev with
  | none =>
    cases (s.sessions sess).extraCloser with
    | none => exact hq _ htaken rfl rfl
    | some socket =>
      simp only [wp_y, yEvery]
      exact ⟨⟨{ htaken with }, trivial⟩, hq _ { htaken with } rfl rfl⟩
  | some dev =>
    simp only [wp_bind, wp_y, yEvery]
    refine ⟨⟨{ htaken with }, trivial⟩, ?_⟩
    cases (s.sessions sess).extraCloser with
    | none => exact hq _ { htaken with } rfl rfl
    | some socket =>
      simp only [wp_y, yEvery]
      exact ⟨⟨{ htaken with }, trivial⟩, hq _ { htaken with } rfl rfl⟩

structure Unasked (e : ConnEnd) : Prop where
  requests : requestCount e.sent = 0
  params : paramsCount e.received = 0
  answers : ∀ r ∈ e.received, answered r = none

section

variable (ht : Talking pc.sess cc s) (hu : Used cc (cc + 1) s₀ s)
include ht hu

theorem connectCloaked_meets (hsingle : requestCount (s.conns cc).sent ≤ 1)
    (hp : .cloakedParams p ∈ (s.conns cc).received) :
    yWp who pc.sess upgrades (connectCloaked cfg pc allowedIPs p) (Kept pc.sess cc s₀) s := by
  have hnc : ¬failed.Connected := by decide
  unfold connectCloaked
  simp only [wp_bind, wp_y, yEvery, wp_pure]
  refine ⟨⟨{ ht.inv with }, trivial⟩, ⟨{ ht.inv with }, trivial⟩, fun err => ?_,
    ⟨{ ht.inv with }, trivial⟩, ?_⟩
  · exact ⟨⟨{ ht.inv with }, trivial⟩, ⟨{ ht.inv with }, trivial⟩, ht.leave hu hnc ⟨rfl, rfl, rfl⟩⟩
  rintro (err | _)
  · refine ⟨⟨{ ht.inv with }, trivial⟩, ?_⟩
    simp only [wp_bind, wp_y, yEvery, wp_pure]
    exact ⟨⟨{ ht.inv with }, trivial⟩, ht.leave hu hnc ⟨rfl, rfl, rfl⟩⟩
  · refine ⟨⟨{ ht.inv with }, trivial⟩, ?_⟩
    simp only [wp_bind, wp_y, yEvery, wp_call]
    intro start
    refine ⟨⟨{ ht.inv with }, trivial⟩, { ht.inv with }, ?_⟩
    rintro seen s' rfl
    cases seen with
    | true =>
      have hparams : 0 < paramsCount (s.conns cc).received := countP_pos_iff.mpr ⟨_, hp, rfl⟩
      apply install_meets cc
      · exact { ht.inv with }
      · exact ht.newest
      · show Backed _ s.connCount s.conns
        rw [ht.newest]
        exact ⟨fun _ => Nat.succ_pos cc, nofun, fun _ => ⟨hsingle, hparams⟩⟩
      · simp
      · exact fun _ => ⟨p, hp, by simp [YState.updateDevice, YState.openDevice, cloakedConf_shared]⟩
      · refine fun s' hi hs => ⟨hi, Used.trans ?_ hs⟩
        exact hu.same_conns rfl rfl
    | false =>
      simp only [Bool.false_eq_true, ↓reduceIte, wp_bind, wp_y, yEvery, wp_pure]
      exact ⟨⟨{ ht.inv with }, trivial⟩, ht.leave hu hnc ⟨rfl, rfl, rfl⟩⟩

theorem runYCloaked_meets (ha : AwaitsParams (s.conns cc)) :
    yWp who pc.sess upgrades (runYCloaked cc pc allowedIPs) (Kept pc.sess cc s₀) s := by
  have hnc : ¬probing.Connected := by decide
  have hprobing := ht.setState_other hnc "cloaked-setup"
  unfold runYCloaked
  simp only [wp_bind, wp_y, yEvery, wp_call]
  refine ⟨good_setState_other ht.inv.fresh hnc, ⟨rfl, hprobing, ?_, ha⟩, ?_⟩
  · simpa [YState.updateSession] using hnc
  · refine fun _ s' hp => ⟨hp.1, Used.trans ?_ hp.2⟩
    exact hu.same_conns rfl rfl

theorem handoff_meets (hup : upgrades) (hone : requestCount (s.conns cc).sent = 1)
    (hready : 0 < readyCount (s.conns cc).received) :
    yWp who pc.sess upgrades (handoff cfg cc pc allowedIPs probeSocket externalAddr)
      (Kept pc.sess cc s₀) s := by
  unfold handoff
  simp only [wp_bind, wp_y, yEvery]
  refine ⟨⟨{ ht.inv with }, trivial⟩, ?_⟩
  apply preparePassiveDevice_meets
  · exact { ht.inv with }
  intro reply s₁ hs
  have ht₁ : Talking pc.sess cc s₁ := ht.same ⟨hs.1, hs.2, hs.3⟩
  have hu₁ : Used cc (cc + 1) s₀ s₁ := hu.same_conns hs.conns hs.connCount
  rcases reply with err | realDev
  · exact ⟨ht₁.inv, hu₁⟩
  simp only [wp_bind, wp_y, yEvery, wp_pure, wp_call]
  intro sid₂
  have hsend := ht₁.send (.nativeEndpointReport ⟨sid₂, externalAddr⟩)
  refine ⟨⟨ht₁.inv, trivial⟩, fun err => ⟨⟨ht₁.inv, trivial⟩, ⟨{ ht₁.inv with }, trivial⟩,
    { ht₁.inv with }, ?_⟩, ⟨hsend.inv, trivial⟩, fun start => ⟨⟨hsend.inv, trivial⟩,
    ⟨hup, hsend⟩, ?_⟩⟩
  · exact hu₁.same_conns rfl rfl
  rintro ready s₂ ⟨messages, rfl, hmem⟩
  have hrecv := hsend.receive messages
  have hu₂ : Used cc (cc + 1) s₀ (YState.receive _ cc messages) :=
    (hu₁.trans (.updateConn ht₁.newest _)).trans (.updateConn hsend.newest _)
  cases ready with
  | true =>
    simp only [↓reduceIte, wp_bind, wp_pure]
    refine closeDevice_meets _ hrecv.inv fun s₃ hi hconns hcount => ?_
    -- both reports made on this connection have been answered by now
    have hcc : s₃.conns cc =
        { s.conns cc with
          sent := (s.conns cc).sent ++ [.nativeEndpointReport ⟨sid₂, externalAddr⟩]
          received := (s.conns cc).received ++ messages } := by
      have hconns₁ : s₁.conns = s.conns := hs.conns
      simp [hconns, YState.updateConn, hconns₁]
    have hanswered : 0 < readyCount messages := countP_pos_iff.mpr ⟨_, hmem rfl, rfl⟩
    apply install_native_meets cc ⟨sid₂, externalAddr⟩
    · exact hi
    · exact hcount.trans hrecv.newest
    · simp [hcc]
    · simp [hcc, hmem rfl]
    · simp only [readyCount] at hready hanswered
      simp only [hcc, requestCount, readyCount, countP_append, countP_singleton, hone,
        isRequest, if_true]
      omega
    · exact .inr hup
    · exact fun s' hi' hu' => ⟨hi', (hu₂.same_conns hconns hcount).trans hu'⟩
  | false =>
    simp only [Bool.false_eq_true, ↓reduceIte, wp_bind, wp_y, yEvery, wp_call, wp_pure]
    refine ⟨⟨{ hrecv.inv with }, trivial⟩, ⟨rfl, .inr hup, hrecv.inv.fresh⟩,
      fun _ s' hp => ⟨hp.1, ?_⟩⟩
    have hagain : Used (cc + 1) (cc + 1) _ s' := hrecv.newest ▸ hp.2
    refine Used.trans ?_ (hagain.mono (Nat.le_succ cc))
    exact hu₂.same_conns rfl rfl

variable (he : Unasked (s.conns cc))
include he

theorem reportNative_meets (hnot : ¬(s.sessions pc.sess).state.Connected) :
    yWp who pc.sess upgrades (reportNative cfg cc pc allowedIPs ySocket externalAddr)
      (Kept pc.sess cc s₀) s := by
  have hnc : ¬failed.Connected := by decide
  unfold reportNative
  simp only [wp_bind, wp_y, yEvery]
  refine ⟨⟨{ ht.inv with }, trivial⟩, ?_⟩
  apply preparePassiveDevice_meets
  · exact { ht.inv with }
  rintro (err | yDev) s₁ hs
  · have ht₁ : Talking pc.sess cc s₁ := ht.same ⟨hs.1, hs.2, hs.3⟩
    simp only [wp_bind, wp_y, yEvery, wp_pure]
    refine ⟨⟨{ ht₁.inv with }, trivial⟩, ht₁.leave ?_ hnc ⟨rfl, rfl, rfl⟩⟩
    exact hu.same_conns hs.conns hs.connCount
  · have ht₁ : Talking pc.sess cc s₁ := ht.same ⟨hs.1, hs.2, hs.3⟩
    have hu₁ : Used cc (cc + 1) s₀ s₁ := hu.same_conns hs.conns hs.connCount
    have he₁ : Unasked (s₁.conns cc) := by
      rw [hs.conns]
      exact he
    simp only [wp_bind, wp_y, yEvery, wp_pure, wp_call]
    intro sid
    have hsend := ht₁.send (.nativeEndpointReport ⟨sid, externalAddr⟩)
    refine ⟨⟨ht₁.inv, trivial⟩, fun err => ⟨⟨ht₁.inv, trivial⟩, ⟨{ ht₁.inv with }, trivial⟩,
      ht₁.leave hu₁ hnc ⟨rfl, rfl, rfl⟩⟩, ⟨hsend.inv, trivial⟩, ⟨rfl, hsend, ?_, ?_⟩, ?_⟩
    · show ¬(s₁.sessions _).state.Connected
      rw [hs.sessions]
      exact hnot
    · simp only [YState.updateConn, update_self]
      refine ⟨?_, mem_append_right _ (mem_singleton_self _), fun r hr => ?_⟩
      · simp [requestCount, isRequest, he₁.requests]
      · simp [he₁.answers r hr]
    · refine fun _ s' hp => ⟨hp.1, hu₁.trans (Used.trans ?_ hp.2)⟩
      exact .updateConn ht₁.newest _

theorem decideCloaked_meets (onError : String → Prog (Except String Unit))
    (herr : ∀ err, yWp who pc.sess upgrades (onError err) (Kept pc.sess cc s₀) s) :
    yWp who pc.sess upgrades (decideCloaked cc pc allowedIPs reason onError)
      (Kept pc.sess cc s₀) s := by
  have hsend := ht.send (.modeDecision ⟨0, ModeCloaked, reason⟩)
  unfold decideCloaked
  simp only [wp_bind, wp_y, yEvery]
  refine ⟨fun err => ⟨⟨ht.inv, trivial⟩, herr err⟩, ⟨hsend.inv, trivial⟩, ?_⟩
  refine runYCloaked_meets hsend (hu.trans (.updateConn ht.newest _)) ?_
  simp only [YState.updateConn, update_self]
  refine ⟨?_, .inr ⟨he.params, _, mem_append_right _ (mem_singleton_self _), rfl⟩⟩
  simp [requestCount, isRequest, he.requests]

theorem giveUpNative_meets : yWp who pc.sess upgrades (giveUpNative cc pc allowedIPs ySocket reason)
      (Kept pc.sess cc s₀) s := by
  have hfailed : ¬failed.Connected := by decide
  have hclosed : Talking pc.sess cc (s.closeSocket ySocket) :=
    ht.same ⟨rfl, rfl, rfl⟩
  have ht₁ := hclosed.setState_other hfailed reason
  unfold giveUpNative
  simp only [wp_bind, wp_y, yEvery]
  refine ⟨⟨hclosed.inv, trivial⟩, good_setState_other hclosed.inv.fresh hfailed, ?_⟩
  refine decideCloaked_meets ht₁ ?_ he _ fun err => ⟨ht₁.inv, ?_⟩
  · exact hu.same_conns rfl rfl
  · exact hu.same_conns rfl rfl

theorem negotiateY_meets :
    yWp who pc.sess upgrades (negotiateY cfg cc info xAddr pc hint) (Kept pc.sess cc s₀) s := by
  have hfailed : ¬failed.Connected := by decide
  have hprobing : ¬probing.Connected := by decide
  have hattempting : ¬nativeAttempting.Connected := by decide
  unfold negotiateY
  simp only [wp_bind, wp_y, yEvery]
  rintro (err | allowedIPs)
  · refine ⟨⟨ht.inv, trivial⟩, ?_⟩
    simp only [wp_bind, wp_y, yEvery, wp_pure]
    exact ht.leave hu hfailed ⟨rfl, rfl, rfl⟩
  refine ⟨⟨ht.inv, trivial⟩, ?_⟩
  by_cases hhint : hint = .cloaked
  · simp only [hhint, ↓reduceIte, wp_bind, wp_y, yEvery]
    refine ⟨good_setState_other ht.inv.fresh hprobing, ?_⟩
    refine decideCloaked_meets (ht.setState_other hprobing _) ?_ he _ fun err => ?_
    · exact hu.same_conns rfl rfl
    · simp only [wp_bind, wp_y, yEvery, wp_pure]
      refine (ht.setState_other hprobing _).leave ?_ hfailed ⟨rfl, rfl, rfl⟩
      exact hu.same_conns rfl rfl
  simp only [hhint, ↓reduceIte, wp_bind, wp_y, yEvery, wp_pure]
  have ht₁ : Talking pc.sess cc s.openSocket := ht.same ⟨rfl, rfl, rfl⟩
  have hu₁ : Used cc (cc + 1) s₀ s.openSocket := hu.same_conns rfl rfl
  refine ⟨fun err => ⟨⟨ht.inv, trivial⟩, ht.leave hu hfailed ⟨rfl, rfl, rfl⟩⟩,
    ⟨ht₁.inv, trivial⟩, ?_⟩
  rintro (err | result)
  · exact ⟨⟨ht₁.inv, trivial⟩, giveUpNative_meets ht₁ hu₁ he⟩
  refine ⟨⟨ht₁.inv, trivial⟩, ?_⟩
  by_cases hcone : result.natClass = .cone
  · have ht₂ := ht₁.setState_other hattempting ""
    simp only [hcone, ↓reduceIte, wp_bind, wp_y, yEvery]
    refine ⟨good_setState_other ht₁.inv.fresh hattempting, ?_⟩
    rintro (err | _)
    · simp only [wp_bind, wp_y, yEvery, wp_pure]
      refine ⟨⟨ht₂.inv, trivial⟩, ⟨{ ht₂.inv with }, trivial⟩, ht₂.leave ?_ hfailed ⟨rfl, rfl, rfl⟩⟩
      exact hu₁.same_conns rfl rfl
    · refine ⟨⟨ht₂.inv, trivial⟩, reportNative_meets ht₂ ?_ he ?_⟩
      · exact hu₁.same_conns rfl rfl
      · simpa [YState.updateSession] using hattempting
  · simp only [hcone, ↓reduceIte]
    exact giveUpNative_meets ht₁ hu₁ he

theorem probeNative_meets (hup : upgrades) :
    yWp who pc.sess upgrades (probeNative cfg cc pc allowedIPs probeSocket probeDev externalAddr)
      (Kept pc.sess cc s₀) s := by
  unfold probeNative
  simp only [wp_bind, wp_y, yEvery, wp_pure, wp_call]
  intro sid
  have hsend := ht.send (.nativeEndpointReport ⟨sid, externalAddr⟩)
  refine ⟨⟨ht.inv, trivial⟩, fun err => ⟨⟨ht.inv, trivial⟩, ht.inv, hu⟩, ⟨hsend.inv, trivial⟩,
    fun start => ⟨⟨hsend.inv, trivial⟩, ⟨rfl, hup, hsend, ?_⟩, fun _ s' hp => ⟨hp.1, ?_⟩⟩⟩
  · simp [YState.updateConn, requestCount, isRequest, he.requests]
  · exact (hu.trans (.updateConn ht.newest _)).trans hp.2

theorem probeOn_meets (hup : upgrades) :
    yWp who pc.sess upgrades (probeOn cfg cc info xAddr pc allowedIPs probeSocket)
      (Kept pc.sess cc s₀) s := by
  unfold probeOn deferring
  simp only [wp_bind, wp_y, yEvery]
  rintro (err | result)
  · exact ⟨⟨ht.inv, trivial⟩, ht.inv, hu⟩
  refine ⟨⟨ht.inv, trivial⟩, ?_⟩
  by_cases hcone : result.natClass = .cone
  · simp only [hcone, ↓reduceIte, wp_bind, wp_y, yEvery]
    rintro (err | _)
    · exact ⟨⟨ht.inv, trivial⟩, ht.inv, hu⟩
    refine ⟨⟨ht.inv, trivial⟩, ?_⟩
    simp only [wp_bind]
    refine preparePassiveDevice_meets ht.inv ?_
    rintro (err | probeDev) s₁ hs
    · exact ⟨(ht.same hs).inv, hu.same_conns hs.conns hs.connCount⟩
    simp only [wp_bind, wp_pure]
    have he₁ : Unasked (s₁.conns cc) := hs.conns ▸ he
    refine wp_mono (probeNative_meets (ht.same hs) (hu.same_conns hs.conns hs.connCount) he₁ hup) ?_
    rintro (_ | _) s' ⟨hi', hu'⟩
    · simp only [Bool.false_eq_true, ↓reduceIte, wp_y, yEvery]
      refine ⟨⟨{ hi' with }, trivial⟩, { hi' with }, ?_⟩
      exact hu'.same_conns rfl rfl
    · exact ⟨hi', hu'⟩
  · simp only [hcone, ↓reduceIte, wp_pure]
    exact ⟨ht.inv, hu⟩

theorem upgradeOn_meets (hup : upgrades) :
    yWp who pc.sess upgrades (upgradeOn cfg cc info xAddr pc) (Kept pc.sess cc s₀) s := by
  unfold upgradeOn deferring
  simp only [wp_bind, wp_y, yEvery]
  rintro (err | allowedIPs)
  · exact ⟨⟨ht.inv, trivial⟩, ht.inv, hu⟩
  refine ⟨⟨ht.inv, trivial⟩, ?_⟩
  simp only [wp_bind, wp_y, yEvery, wp_pure]
  have ht₁ : Talking pc.sess cc s.openSocket := ht.same ⟨rfl, rfl, rfl⟩
  have hu₁ : Used cc (cc + 1) s₀ s.openSocket := hu.same_conns rfl rfl
  refine ⟨fun err => ⟨⟨ht.inv, trivial⟩, ht.inv, hu⟩, ⟨ht₁.inv, trivial⟩, ?_⟩
  refine wp_mono (probeOn_meets ht₁ hu₁ he hup) ?_
  rintro (_ | _) s' ⟨hi', hu'⟩
  · simp only [Bool.false_eq_true, ↓reduceIte, wp_y, yEvery]
    refine ⟨⟨{ hi' with }, trivial⟩, { hi' with }, ?_⟩
    exact hu'.same_conns rfl rfl
  · exact ⟨hi', hu'⟩

end

theorem cloakedWait_meets (ht : Talking pc.sess cc s) (hnot : ¬(s.sessions pc.sess).state.Connected)
    (ha : AwaitsParams (s.conns cc)) :
    yWp who pc.sess upgrades (cloakedWait cfg cc pc allowedIPs) (Kept pc.sess cc s) s := by
  have hwait : Waiting (s.conns cc) ∨ upgrades := .inl (.inr (.inr ha.due))
  unfold cloakedWait
  simp only [wp_bind, wp_y, yEvery, wp_pure]
  refine ⟨fun err => ⟨⟨ht.inv, hwait⟩, ht.leave (.refl s (Nat.le_of_eq ht.newest)) (by decide)
    ⟨rfl, rfl, rfl⟩⟩, fun msg => ?_⟩
  have hrecv := ht.receive [msg]
  have hused : Used cc (cc + 1) s (s.receive cc [msg]) := .updateConn ht.newest _
  refine ⟨⟨hrecv.inv, hwait⟩, ?_⟩
  cases msg with
  | cloakedParams p =>
    refine connectCloaked_meets hrecv hused ?_ ?_
    · simpa [YState.updateConn] using ha.single
    · simp [YState.updateConn]
  | _ =>
    refine ⟨⟨rfl, hrecv, hnot, ?_⟩, fun _ s' hp => ⟨hp.1, hused.trans hp.2⟩⟩
    simp only [YState.updateConn, update_self]
    exact ha.receive_other rfl

theorem nativeWait_meets (ht : Talking pc.sess cc s) (hnot : ¬(s.sessions pc.sess).state.Connected)
    (ha : AwaitsResult sid externalAddr (s.conns cc)) :
    yWp who pc.sess upgrades (nativeWait cc pc allowedIPs ySocket yDev externalAddr sid)
      (Kept pc.sess cc s) s := by
  have hwait : Waiting (s.conns cc) ∨ upgrades := .inl (.inr (.inl ⟨_, ha.report, ha.due⟩))
  have hnc : ¬failed.Connected := by decide
  unfold nativeWait
  simp only [wp_bind, wp_y, yEvery, wp_pure]
  refine ⟨fun err => ⟨⟨ht.inv, hwait⟩, ⟨{ ht.inv with }, trivial⟩,
    ht.leave (.refl s (Nat.le_of_eq ht.newest)) hnc ⟨rfl, rfl, rfl⟩⟩, fun msg => ?_⟩
  have hrecv := ht.receive [msg]
  have hused : Used cc (cc + 1) s (s.receive cc [msg]) := .updateConn ht.newest _
  have hsent : (s.receive cc [msg]).conns cc =
      { s.conns cc with received := (s.conns cc).received ++ [msg] } := by
    simp [YState.updateConn]
  refine ⟨⟨hrecv.inv, hwait⟩, ?_⟩
  -- a message that is not the answer leaves Y waiting
  have hother : answered msg ≠ some sid →
      yWp who pc.sess upgrades (invoke (.nativeWait cc pc allowedIPs ySocket yDev externalAddr sid))
        (Kept pc.sess cc s) (s.receive cc [msg]) := by
    intro hmsg
    refine ⟨⟨rfl, hrecv, hnot, ?_⟩, fun _ s' hp => ⟨hp.1, hused.trans hp.2⟩⟩
    rw [hsent]
    exact ha.receive_other hmsg
  cases msg with
  | nativeReady m =>
    by_cases hsid : m.sessionID = sid
    · subst hsid
      simp only [↓reduceIte, wp_bind, wp_pure]
      apply install_native_meets cc ⟨m.sessionID, externalAddr⟩
      · exact hrecv.inv
      · exact ht.newest
      · rw [hsent]
        exact ha.report
      · rw [hsent]
        exact mem_append_right _ (mem_singleton_self _)
      · rw [hsent]
        simp [ha.single, readyCount, isReady]
      · rw [hsent]
        exact .inl ha.single
      · exact fun s' hi hs => ⟨hi, hused.trans hs⟩
    · simp only [hsid, ↓reduceIte]
      exact hother (by simpa [answered] using hsid)
  | nativeFailed m =>
    by_cases hsid : m.sessionID = sid
    · simp only [hsid, ↓reduceIte, wp_bind, wp_y, yEvery]
      refine ⟨⟨{ hrecv.inv with }, trivial⟩, ⟨{ hrecv.inv with }, trivial⟩,
        good_setState_other ?_ hnc, ?_⟩
      · exact hrecv.inv.fresh
      refine runYCloaked_meets ?_ ?_ ?_
      · refine Talking.setState_other ?_ hnc _
        exact hrecv.same ⟨rfl, rfl, rfl⟩
      · exact hused.same_conns rfl rfl
      · show AwaitsParams ((s.receive cc [.nativeFailed m]).conns cc)
        rw [hsent]
        exact ⟨Nat.le_of_eq ha.single, .inl (by simp [owedStep])⟩
    · simp only [hsid, ↓reduceIte]
      exact hother (by simpa [answered] using hsid)
  | _ => exact hother (by simp [answered])

theorem runY_meets (hdial : s.connCount = 0 ∨ upgrades)
    (hfresh : ∀ c, s.connCount ≤ c → s.conns c = {}) :
    yWp who pc.sess upgrades (runY cfg pc hint)
      (fun _ s' => TalkInv pc.sess s' ∧ Used s.connCount s.connCount s s') s := by
  have hfailed : ¬failed.Connected := by decide
  have hprobing : ¬probing.Connected := by decide
  have hi := TalkInv.setState_other pc.sess hfresh hprobing ""
  unfold runY deferring
  simp only [wp_bind, wp_y, yEvery]
  refine ⟨good_setState_other hfresh hprobing, ?_⟩
  refine connectXInfo_meets hi hdial (fun err e hclosed => ?_)
    (fun info xAddr e hopen hreq hpar hans => ?_)
  · have ht := Talking.withConn hi e
    simp only [wp_bind, wp_y, yEvery, wp_pure]
    refine ⟨good_setState_other ht.inv.fresh hfailed, .setState_other _ ht.inv.fresh hfailed _, ?_⟩
    exact (Used.withConn s hclosed).same_conns rfl rfl
  · have ht := Talking.withConn hi e
    have he : Unasked e := ⟨hreq, hpar, hans⟩
    simp only [wp_bind, wp_y, yEvery, wp_pure]
    refine wp_mono (negotiateY_meets ht (.refl _ (Nat.le_refl _))
      (by simpa [YState.withConn] using he)) ?_
    rintro _ s' ⟨hi', hu⟩
    have hlt : s.connCount < s'.connCount := hu.count
    have hused := hu.closeConn
    exact ⟨⟨hi'.closeConn hlt, trivial⟩, hi'.closeConn hlt, hused.count, hused.same, hused.closed⟩

theorem waitForNativeReady_meets (hup : upgrades) (ht : Talking sess cc s) :
    yWp who sess upgrades (waitForNativeReady cc sid deadline) (fun ready s' => ∃ messages,
        s' = s.receive cc messages ∧
        (ready = true → .nativeReady ⟨sid⟩ ∈ messages)) s := by
  have hself : s = s.receive cc [] := by
    simp [YState.updateConn]
  unfold waitForNativeReady
  simp only [wp_bind, wp_y, yEvery]
  intro t
  refine ⟨⟨ht.inv, trivial⟩, ?_⟩
  split
  · simp only [wp_bind, wp_y, yEvery, wp_pure]
    refine ⟨fun err => ⟨⟨ht.inv, .inr hup⟩, [], hself, (by simp)⟩, fun msg => ?_⟩
    have hrecv := ht.receive [msg]
    refine ⟨⟨hrecv.inv, .inr hup⟩, ?_⟩
    -- the messages of the remaining rounds come after this one
    have hagain : yWp who sess upgrades (invoke (.waitForNativeReady cc sid deadline))
        (fun ready s' => ∃ messages, s' = s.receive cc messages ∧
          (ready = true → .nativeReady ⟨sid⟩ ∈ messages)) (s.receive cc [msg]) := by
      refine ⟨⟨hup, hrecv⟩, ?_⟩
      rintro ready _ ⟨messages, rfl, hmem⟩
      refine ⟨msg :: messages, by simp [YState.updateConn], fun hr => ?_⟩
      exact mem_cons_of_mem _ (hmem hr)
    cases msg with
    | nativeReady m =>
      by_cases hsid : m.sessionID = sid
      · subst hsid
        simp only [↓reduceIte, wp_pure]
        exact ⟨[_], rfl, fun _ => mem_singleton_self _⟩
      · simp only [hsid, ↓reduceIte]
        exact hagain
    | nativeFailed m =>
      by_cases hsid : m.sessionID = sid
      · simp only [hsid, ↓reduceIte, wp_pure]
        exact ⟨[_], rfl, (by simp)⟩
      · simp only [hsid, ↓reduceIte]
        exact hagain
    | _ => exact hagain
  · exact ⟨[], hself, (by simp)⟩

theorem backgroundWait_meets (hup : upgrades) (ht : Talking pc.sess cc s)
    (hone : requestCount (s.conns cc).sent = 1) :
    yWp who pc.sess upgrades
      (backgroundWait cfg cc pc allowedIPs probeSocket probeDev externalAddr sid deadline)
      (Kept pc.sess cc s) s := by
  have hself : TalkInv pc.sess s ∧ Used cc (cc + 1) s s :=
    ⟨ht.inv, .refl s (Nat.le_of_eq ht.newest)⟩
  unfold backgroundWait
  simp only [wp_bind, wp_y, yEvery]
  intro t
  refine ⟨⟨ht.inv, trivial⟩, ?_⟩
  split
  · simp only [wp_bind, wp_y, yEvery, wp_pure]
    refine ⟨fun err => ⟨⟨ht.inv, .inr hup⟩, hself⟩, fun msg => ?_⟩
    have hrecv := ht.receive [msg]
    have hused : Used cc (cc + 1) s (s.receive cc [msg]) := .updateConn ht.newest _
    have hone' : requestCount ((s.receive cc [msg]).conns cc).sent = 1 := by
      simpa [YState.updateConn] using hone
    refine ⟨⟨hrecv.inv, .inr hup⟩, ?_⟩
    have hagain : yWp who pc.sess upgrades
        (invoke (.backgroundWait cc pc allowedIPs probeSocket probeDev externalAddr sid deadline))
        (Kept pc.sess cc s) (s.receive cc [msg]) :=
      ⟨⟨rfl, hup, hrecv, hone'⟩, fun _ s' hp => ⟨hp.1, hused.trans hp.2⟩⟩
    cases msg with
    | nativeReady m =>
      by_cases hsid : m.sessionID = sid
      · simp only [hsid, ↓reduceIte, wp_bind, wp_y, yEvery]
        refine ⟨⟨{ hrecv.inv with }, trivial⟩, ?_⟩
        refine handoff_meets ?_ ?_ hup hone' ?_
        · exact hrecv.same ⟨rfl, rfl, rfl⟩
        · exact hused.same_conns rfl rfl
        · simp [YState.closeDev, YState.updateConn, readyCount, isReady]
      · simp only [hsid, ↓reduceIte]
        exact hagain
    | nativeFailed m =>
      by_cases hsid : m.sessionID = sid
      · simp only [hsid, ↓reduceIte, wp_pure]
        exact ⟨hrecv.inv, hused⟩
      · simp only [hsid, ↓reduceIte]
        exact hagain
    | _ => exact hagain
  · exact hself

theorem attemptBackgroundNative_meets (hup : upgrades) (hi : TalkInv pc.sess s) :
    yWp who pc.sess upgrades (attemptBackgroundNative cfg pc)
      (fun _ s' => TalkInv pc.sess s' ∧ Used s.connCount s.connCount s s') s := by
  unfold attemptBackgroundNative deferring
  simp only [wp_bind]
  refine connectXInfo_meets hi (.inr hup) (fun err e hclosed => ?_)
    (fun info xAddr e hopen hreq hpar hans => ?_)
  · exact ⟨hi.withConn e, .withConn s hclosed⟩
  · have ht := Talking.withConn hi e
    have he : Unasked e := ⟨hreq, hpar, hans⟩
    simp only [wp_bind, wp_y, yEvery, wp_pure]
    refine wp_mono (upgradeOn_meets ht (.refl _ (Nat.le_refl _))
      (by simpa [YState.withConn] using he) hup) ?_
    rintro _ s' ⟨hi', hu⟩
    have hlt : s.connCount < s'.connCount := hu.count
    exact ⟨⟨hi'.closeConn hlt, trivial⟩, hi'.closeConn hlt, hu.closeConn⟩

section

variable (hup : upgrades) (hi : TalkInv pc.sess s) (hs : s.HungUp)
include hup hi hs

theorem round_meets :
    yWp who pc.sess upgrades (invoke (.supervise pc sup)) (fun _ s' => s'.HungUp) s :=
  ⟨⟨rfl, hup, hi, hs⟩, fun _ _ hp => hp⟩

theorem reconnect_meets :
    yWp who pc.sess upgrades (reconnect pc hint sup) (fun _ s' => s'.HungUp) s := by
  unfold reconnect
  exact ⟨⟨rfl, .inr hup, hi.fresh⟩, fun _ s' hp => round_meets hup hp.1 (hp.2.hungUp hs)⟩

theorem retryNative_meets :
    yWp who pc.sess upgrades (retryNative cfg pc state sup) (fun _ s' => s'.HungUp) s := by
  unfold retryNative
  dsimp only
  split
  · simp only [wp_bind, wp_y, yEvery]
    intro t
    refine ⟨⟨hi, trivial⟩, ?_⟩
    split
    · simp only [wp_bind, wp_y, yEvery, wp_call]
      refine fun attempted => ⟨⟨hi, trivial⟩, ⟨rfl, hup, hi⟩, fun succeeded s' hp => ?_⟩
      split
      · exact round_meets hup hp.1 (hp.2.hungUp hs)
      · exact round_meets hup hp.1 (hp.2.hungUp hs)
    · exact round_meets hup hi hs
  · exact round_meets hup hi hs

theorem checkLiveness_meets :
    yWp who pc.sess upgrades (checkLiveness cfg pc state sup) (fun _ s' => s'.HungUp) s := by
  unfold checkLiveness
  simp only [wp_bind, wp_y, yEvery]
  refine ⟨⟨hi, trivial⟩, ?_⟩
  cases (s.sessions pc.sess).dev with
  | none =>
    simp only [wp_bind, wp_y, yEvery]
  | some dev =>
    simp only [wp_bind, wp_y, yEvery]
    refine fun reading => ⟨⟨hi, trivial⟩, fun t => ⟨⟨hi, trivial⟩, fun since => ⟨⟨hi, trivial⟩, ?_⟩⟩⟩
    split
    · simp only [wp_bind]
      refine closeDevice_meets _ hi fun s' hi' hconns hcount => ?_
      exact reconnect_meets hup hi' (hs.same_conns hconns hcount)
    · exact retryNative_meets hup hi hs

theorem supervise_meets :
    yWp who pc.sess upgrades (supervise cfg pc sup) (fun _ s' => s'.HungUp) s := by
  unfold supervise
  simp only [wp_bind, wp_y, yEvery]
  refine ⟨⟨⟨hi, hs⟩, hs⟩, fun _ ok => ⟨⟨hi, hs⟩, ?_⟩, ⟨hi, hs⟩, ?_⟩
  · cases ok with
    | false => exact round_meets hup hi hs
    | true =>
      simp only [wp_bind]
      refine closeDevice_meets _ hi fun s' hi' hconns hcount => ?_
      exact reconnect_meets hup hi' (hs.same_conns hconns hcount)
  · refine ⟨⟨hi, trivial⟩, ?_⟩
    cases (s.sessions pc.sess).state with
    | connectedNative => exact checkLiveness_meets hup hi hs
    | connectedCloaked => exact checkLiveness_meets hup hi hs
    | failed => exact reconnect_meets hup hi hs
    | idle => exact reconnect_meets hup hi hs
    | probing => exact round_meets hup hi hs
    | nativeAttempting => exact round_meets hup hi hs

theorem superviseY_meets :
    yWp who pc.sess upgrades (superviseY cfg pc) (fun _ s' => s'.HungUp) s := by
  unfold superviseY
  split
  · simp only [wp_bind, wp_y, yEvery]
    rintro (err | _)
    · exact ⟨⟨hi, trivial⟩, round_meets hup hi hs⟩
    · exact ⟨⟨hi, trivial⟩, round_meets hup hi hs⟩
  · exact round_meets hup hi hs

end

theorem y_verified (x y : Config) (sess : SessionKey) (upgrades : Prop) :
    Verified (bodies x y) (yMachine who) (ySpec sess upgrades) := by
  intro β proc s hpre
  cases proc with
  | runY pc hint =>
    obtain ⟨rfl, hdial, hfresh⟩ := hpre
    exact runY_meets hdial hfresh
  | nativeWait cc pc allowedIPs ySocket yDev externalAddr sid =>
    obtain ⟨rfl, ht, hnot, ha⟩ := hpre
    exact nativeWait_meets ht hnot ha
  | cloakedWait cc pc allowedIPs =>
    obtain ⟨rfl, ht, hnot, ha⟩ := hpre
    exact cloakedWait_meets ht hnot ha
  | pollY dev peer deadline => exact pollY_meets hpre
  | attemptBackgroundNative pc =>
    obtain ⟨rfl, hup, hi⟩ := hpre
    exact attemptBackgroundNative_meets hup hi
  | backgroundWait cc pc allowedIPs probeSocket probeDev externalAddr sid deadline =>
    obtain ⟨rfl, hup, ht, hone⟩ := hpre
    exact backgroundWait_meets hup ht hone
  | waitForNativeReady cc sid deadline =>
    exact waitForNativeReady_meets hpre.1 hpre.2
  | supervise pc sup =>
    obtain ⟨rfl, hup, hi, hs⟩ := hpre
    exact supervise_meets hup hi hs
  | serveX => exact hpre.elim
  | pollX => exact hpre.elim

theorem loneY_meets (cfg : Config) (pc : PeerConfig) (hup : upgrades)
    (hi : TalkInv pc.sess s) (hs : s.HungUp) :
    yWp who pc.sess upgrades (loneY cfg pc) (fun _ s' => s'.HungUp) s := by
  unfold loneY startPeers startPeers
  simp only [wp_bind, wp_y, yEvery, wp_call]
  intro lastMode
  refine ⟨⟨hi, trivial⟩, ⟨rfl, .inr hup, hi.fresh⟩, ?_⟩
  rintro (err | _) s' ⟨hi', hu⟩
  all_goals
    simp only [wp_bind, wp_y, yEvery, wp_pure]
    refine ⟨⟨{ hi' with }, trivial⟩, superviseY_meets hup { hi' with } ?_⟩
    exact hu.hungUp hs

end

end StarlingWg.Orchestrate
