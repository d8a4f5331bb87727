import StarlingWg.Orchestrate.Conversation

namespace StarlingWg.Orchestrate

open Control Interaction List

abbrev successes (attempts : List (AddrPort × AttemptResult)) : Nat :=
  attempts.countP fun attempt => attempt.2.success

-- What holds of a handler at every moment. Its successful attempts and the
-- CloakedParams it sent are covered by the requests it received.
structure XInv (x : Config) (l : XLocal) : Prop where
  begun : l.sent ≠ [] ∨ l.wrote ≠ none → l.started = true
  ready : ∀ m, .nativeReady m ∈ l.sent → ∃ externalAddr res,
    .nativeEndpointReport ⟨m.sessionID, externalAddr⟩ ∈ l.received ∧
    (externalAddr, res) ∈ l.attempts ∧ res.success = true
  params : ∀ p, .cloakedParams p ∈ l.sent →
    (∃ endpoint, p = x.obfuscationProfile.toWireParams endpoint) ∧ ∃ key ∈ l.added, l.peer = some key
  budget : successes l.attempts + paramsCount l.sent ≤ requestCount l.received
  readies_le : readyCount l.sent ≤ successes l.attempts
  native : l.wrote.map Prod.fst = some .connectedNative → 0 < successes l.attempts
  cloaked : l.wrote.map Prod.fst = some .connectedCloaked → 0 < paramsCount l.sent
  answers : l.failed = false →
    l.sent.filterMap answered <+: l.received.filterMap reported ∧
    (l.received.filterMap reported).length ≤ (l.sent.filterMap answered).length + 1

structure XSettled (l : XLocal) : Prop where
  answers : l.failed = false → l.sent.filterMap answered = l.received.filterMap reported
  native : successes l.attempts = requestCount l.received → 0 < requestCount l.received →
    l.wrote.map Prod.fst = some .connectedNative
  cloaked : requestCount l.received = 1 → 0 < paramsCount l.sent →
    l.wrote.map Prod.fst = some .connectedCloaked ∨
    l.wrote = some (.failed, ("cloaked-handshake-timeout" : GoString))
  fallback : l.failed = false → l.refused = false → owed l.sent = false
  decision : l.failed = false → l.refused = false →
    (∃ m, .modeDecision m ∈ l.received ∧ m.mode = ModeCloaked) → 0 < paramsCount l.sent

-- The receive loop has been reached: Hello and XInfo are out.
structure XServing (x : Config) (remotePub : Key) (l : XLocal) : Prop where
  inv : XInv x l
  started : l.started = true
  opening : 2 ≤ l.sent.length
  peer : l.peer = some remotePub

def xSpec (x : Config) : Spec sig XLocal where
  good l _ op _ l' := XInv x l' ∧ match op with
    | .recv _ => XSettled l ∧ 2 ≤ l.sent.length
    | _ => True
  pre
    | .serveX _ _ remotePub _, l => XServing x remotePub l ∧ XSettled l
    | .pollX _ _, l => XInv x l
    | _, _ => False
  post
    | .serveX _ _ _ _, _, _, l' => XInv x l' ∧ XSettled l'
    | .pollX _ _, l, _, l' => l' = l
    | _, _, _, _ => True

section

variable {x : Config} {l : XLocal}

theorem XInv.setState (h : XInv x l) (hs : l.started = true) (state : State)
    (hnative : state = .connectedNative → 0 < successes l.attempts)
    (hcloaked : state = .connectedCloaked → 0 < paramsCount l.sent) (reason : GoString) :
    XInv x { l with wrote := some (state, reason) } :=
  { h with
    begun := fun _ => hs
    native := fun he => hnative (Option.some.inj he)
    cloaked := fun he => hcloaked (Option.some.inj he) }

theorem XInv.setState_other (h : XInv x l) (hs : l.started = true) {state : State}
    (hstate : ¬state.Connected) (reason : GoString) :
    XInv x { l with wrote := some (state, reason) } :=
  h.setState hs state (fun he => absurd (.inl he) hstate) (fun he => absurd (.inr he) hstate) reason

theorem XInv.fail (h : XInv x l) : XInv x { l with failed := true } :=
  { h with answers := fun hf => by simp at hf }

theorem XInv.refuse (h : XInv x l) : XInv x { l with refused := true } :=
  { h with }

theorem XInv.add (h : XInv x l) (key : Key) : XInv x { l with added := l.added ++ [key] } :=
  { h with
    params := fun p hp => by
      obtain ⟨hprofile, key', hmem, hpeer⟩ := h.params p hp
      exact ⟨hprofile, key', mem_append_left _ hmem, hpeer⟩ }

theorem XInv.close (h : XInv x l) : XInv x { l with closed := true } :=
  { h with }

theorem XInv.receive (h : XInv x l) (hset : XSettled l) (msg : Message) :
    XInv x { l with received := l.received ++ [msg] } :=
  { h with
    ready := fun m hm => by
      obtain ⟨externalAddr, res, hrep, hatt, hok⟩ := h.ready m hm
      exact ⟨externalAddr, res, mem_append_left _ hrep, hatt, hok⟩
    budget := by
      have hb := h.budget
      rw [requestCount, countP_snoc]
      exact Nat.le_add_right_of_le hb
    answers := fun hf => by
      have he := hset.answers hf
      rw [he, filterMap_append, length_append]
      refine ⟨prefix_append _ _, ?_⟩
      cases h : reported msg <;> simp [h] }

theorem XInv.attempt (h : XInv x l) (externalAddr : AddrPort) (res : AttemptResult)
    (hb : successes l.attempts + paramsCount l.sent < requestCount l.received) :
    XInv x { l with attempts := l.attempts ++ [(externalAddr, res)] } := by
  have hs : successes (l.attempts ++ [(externalAddr, res)]) =
      successes l.attempts + res.success.toNat := by
    cases hr : res.success <;> simp [successes, hr]
  have hle : res.success.toNat ≤ 1 := by cases res.success <;> simp
  have hr := h.readies_le
  exact
  { h with
    ready := fun m hm => by
      obtain ⟨addr, res', hrep, hatt, hok⟩ := h.ready m hm
      exact ⟨addr, res', hrep, mem_append_left _ hatt, hok⟩
    budget := by
      rw [hs]
      show _ + paramsCount l.sent ≤ requestCount l.received
      omega
    readies_le := by
      rw [hs]
      show readyCount l.sent ≤ _
      omega
    native := fun he => by
      have hn := h.native he
      rw [hs]
      omega }

-- What the handler has to show for a message depends on its kind: a ready
-- reports an attempt, parameters use up a request, and an answer is the next
-- one that is due.
theorem XInv.send (h : XInv x l) (hs : l.started = true) (msg : Message)
    (hready : ∀ m, msg = .nativeReady m → readyCount l.sent < successes l.attempts ∧
      ∃ externalAddr res, .nativeEndpointReport ⟨m.sessionID, externalAddr⟩ ∈ l.received ∧
        (externalAddr, res) ∈ l.attempts ∧ res.success = true)
    (hparams : ∀ p, msg = .cloakedParams p →
      successes l.attempts + paramsCount l.sent < requestCount l.received ∧
      (∃ endpoint, p = x.obfuscationProfile.toWireParams endpoint) ∧ ∃ key ∈ l.added, l.peer = some key)
    (hans : l.failed = false → ∀ sid, answered msg = some sid →
      l.sent.filterMap answered ++ [sid] = l.received.filterMap reported) :
    XInv x { l with sent := l.sent ++ [msg] } :=
  { h with
    begun := fun _ => hs
    ready := fun m hm => by
      rcases mem_append.mp hm with hm | hm
      · exact h.ready m hm
      · exact (hready m (mem_singleton.mp hm).symm).2
    params := fun p hp => by
      rcases mem_append.mp hp with hp | hp
      · exact h.params p hp
      · exact (hparams p (mem_singleton.mp hp).symm).2
    budget := by
      rw [paramsCount, countP_snoc]
      cases msg with
      | cloakedParams p => exact (hparams p rfl).1
      | _ => exact h.budget
    readies_le := by
      rw [readyCount, countP_snoc]
      cases msg with
      | nativeReady m => exact (hready m rfl).1
      | _ => exact h.readies_le
    cloaked := fun he => by
      rw [paramsCount, countP_snoc]
      exact Nat.lt_add_right _ (h.cloaked he)
    answers := fun hf => by
      cases ha : answered msg with
      | none => simpa [ha] using h.answers hf
      | some sid =>
        simp only [filterMap_append, filterMap_singleton, ha, Option.toList_some, hans hf sid ha]
        exact ⟨prefix_rfl, Nat.le_succ _⟩ }

theorem XInv.send_other (h : XInv x l) (hs : l.started = true) {msg : Message}
    (hans : answered msg = none) (hparams : isParams msg = false) :
    XInv x { l with sent := l.sent ++ [msg] } := by
  refine h.send hs msg ?_ ?_ fun _ sid ha => ?_
  · rintro m rfl
    cases hans
  · rintro p rfl
    cases hparams
  · rw [hans] at ha
    cases ha

theorem XSettled.receive_other (h : XSettled l) {msg : Message} (hreq : isRequest msg = false) :
    XSettled { l with received := l.received ++ [msg] } := by
  have hrep : reported msg = none := by cases msg <;> simp_all [reported, isRequest]
  have hcount : requestCount (l.received ++ [msg]) = requestCount l.received := by
    simp [requestCount, hreq]
  exact
  { answers := fun hf => by simpa [hrep] using h.answers hf
    native := fun he hp => by
      rw [hcount] at he hp
      exact h.native he hp
    cloaked := fun he hp => by
      rw [hcount] at he
      exact h.cloaked he hp
    fallback := h.fallback
    decision := fun hf hr hm => h.decision hf hr <| by
      obtain ⟨m, hm, hmode⟩ := hm
      simp only [mem_append, mem_singleton] at hm
      rcases hm with hm | rfl
      · exact ⟨m, hm, hmode⟩
      · simp [isRequest, hmode] at hreq }

theorem XSettled.send_other (h : XSettled l) {msg : Message} (hans : answered msg = none)
    (hparams : isParams msg = false) : XSettled { l with sent := l.sent ++ [msg] } := by
  have hcount : paramsCount (l.sent ++ [msg]) = paramsCount l.sent := by
    simp [paramsCount, hparams]
  exact
  { answers := fun hf => by simpa [hans] using h.answers hf
    native := h.native
    cloaked := fun he hp => by
      rw [hcount] at hp
      exact h.cloaked he hp
    fallback := fun hf hr => by
      rw [owed_snoc, h.fallback hf hr]
      cases msg <;> simp_all [owedStep, answered]
    decision := fun hf hr hm => by
      rw [hcount]
      exact h.decision hf hr hm }

theorem XInv.initial (x : Config) (started : Bool) (peer : Option Key) :
    XInv x { started := started, peer := peer } where
  begun h := by simp at h
  ready m hm := by simp at hm
  params p hp := by simp at hp
  budget := by simp
  readies_le := by simp
  native h := by simp at h
  cloaked h := by simp at h
  answers _ := by simp

theorem XSettled.of_silent (hr : l.received = []) (ha : l.sent.filterMap answered = [])
    (ho : owed l.sent = false) : XSettled l where
  answers _ := by rw [ha, hr, filterMap_nil]
  native _ hp := by simp [hr] at hp
  cloaked he := by simp [hr] at he
  fallback _ _ := ho
  decision _ _ hm := by simp [hr] at hm

theorem XSettled.of_unserved
    (hb : successes l.attempts + paramsCount l.sent < requestCount l.received)
    (hans : l.failed = false → l.sent.filterMap answered = l.received.filterMap reported)
    (hstop : l.failed = true ∨ l.refused = true) : XSettled l where
  answers := hans
  native he := by omega
  cloaked he hp := by omega
  fallback hf hr := by simp [hf, hr] at hstop
  decision hf hr := by simp [hf, hr] at hstop

theorem XSettled.of_served (hb : successes l.attempts < requestCount l.received)
    (hans : l.failed = false → l.sent.filterMap answered = l.received.filterMap reported)
    (hpos : 0 < paramsCount l.sent) (ho : owed l.sent = false)
    (hwrote : l.wrote.map Prod.fst = some .connectedCloaked ∨
      l.wrote = some (.failed, ("cloaked-handshake-timeout" : GoString))) : XSettled l where
  answers := hans
  native he := by omega
  cloaked _ _ := hwrote
  fallback _ _ := ho
  decision _ _ _ := hpos

theorem XSettled.of_native (hinv : XInv x l) (hpos : 0 < successes l.attempts)
    (hwrote : l.wrote.map Prod.fst = some .connectedNative)
    (hans : l.failed = false → l.sent.filterMap answered = l.received.filterMap reported)
    (hfallback : l.failed = false → l.refused = false → owed l.sent = false)
    (hdecision : l.failed = false → l.refused = false →
      (∃ m, .modeDecision m ∈ l.received ∧ m.mode = ModeCloaked) → 0 < paramsCount l.sent) :
    XSettled l where
  answers := hans
  native _ _ := hwrote
  cloaked he hp := by
    have hb := hinv.budget
    omega
  fallback := hfallback
  decision := hdecision

theorem XSettled.close (h : XSettled l) : XSettled { l with closed := true } :=
  { h with }

theorem XSettled.fail (h : XSettled l) : XSettled { l with failed := true } where
  answers hf := by simp at hf
  native := h.native
  cloaked := h.cloaked
  fallback hf := by simp at hf
  decision hf := by simp at hf

end

theorem pollX_meets (x : Config) (remotePub : Key) (deadline : Int) (l : XLocal) (hl : XInv x l) :
    wp xMachine (xSpec x) (pollX remotePub deadline)
      ((xSpec x).post (.pollX remotePub deadline) l) l := by
  unfold pollX
  simp only [wp_bind, wp_x, xEvery]
  intro t
  refine ⟨⟨hl, trivial⟩, ?_⟩
  split
  · simp only [wp_bind, wp_x, xEvery]
    rintro (_ | _ | t)
    all_goals simp [wp_x, xEvery, xSpec, hl]
  · simp [xSpec]

theorem fallbackToCloaked_meets (x : Config) (c : ConnId) (sess : SessionKey) (remotePub : Key)
    (allowedIPs : List Prefix) (l : XLocal) (hl : XServing x remotePub l)
    (hb : successes l.attempts + paramsCount l.sent < requestCount l.received)
    (hans : l.failed = false → l.sent.filterMap answered = l.received.filterMap reported) :
    wp xMachine (xSpec x) (fallbackToCloaked x c sess remotePub allowedIPs)
      (fun _ l' => XServing x remotePub l' ∧ XSettled l') l := by
  have hprobing := hl.inv.setState_other hl.started (by decide : ¬State.probing.Connected)
    "cloaked-setup"
  have hadded := hprobing.add remotePub
  unfold fallbackToCloaked
  simp only [wp_bind, wp_x, xEvery, wp_call]
  refine ⟨⟨hprobing, trivial⟩, fun err => ?_, ⟨hadded, trivial⟩, fun err => ?_, fun addr => ?_⟩
  · have hrefused := hprobing.refuse
    have hfailed := hrefused.setState_other hl.started (by decide : ¬State.failed.Connected)
      ("cloaked AddPeer failed: " ++ err)
    exact ⟨⟨hrefused, trivial⟩, ⟨hfailed, trivial⟩, ⟨hfailed, hl.started, hl.opening, hl.peer⟩,
      .of_unserved hb hans (.inr rfl)⟩
  · have hrefused := hadded.refuse
    have hfailed := hrefused.setState_other hl.started (by decide : ¬State.failed.Connected) err
    exact ⟨⟨hrefused, trivial⟩, ⟨hfailed, trivial⟩, ⟨hfailed, hl.started, hl.opening, hl.peer⟩,
      .of_unserved hb hans (.inr rfl)⟩
  · refine ⟨⟨hadded, trivial⟩, fun err => ?_, ?_⟩
    · have hfail := hadded.fail
      have hfailed := hfail.setState_other hl.started (by decide : ¬State.failed.Connected) err
      exact ⟨⟨hfail, trivial⟩, ⟨hfailed, trivial⟩, ⟨hfailed, hl.started, hl.opening, hl.peer⟩,
        .of_unserved hb (fun hf => by simp at hf) (.inl rfl)⟩
    · have hsent := hadded.send hl.started (.cloakedParams (x.obfuscationProfile.toWireParams
        ⟨addr, x.cloakedListenPort⟩)) (fun _ he => by cases he)
        (fun p he => ⟨hb, ⟨_, (Message.cloakedParams.inj he).symm⟩, remotePub, by simp, hl.peer⟩)
        fun _ _ ha => by cases ha
      have hpos : 0 < paramsCount (l.sent ++
          [.cloakedParams (x.obfuscationProfile.toWireParams ⟨addr, x.cloakedListenPort⟩)]) := by
        simp [paramsCount, isParams]
      have hlen := hl.opening
      refine ⟨⟨hsent, trivial⟩, ⟨hsent, trivial⟩, fun start => ⟨⟨hsent, trivial⟩, hsent, ?_⟩⟩
      rintro seen l' rfl
      cases seen with
      | true =>
        have hdone := hsent.setState hl.started .connectedCloaked (fun he => by cases he)
          (fun _ => hpos) ""
        simp only [↓reduceIte, wp_x, xEvery]
        refine ⟨⟨hdone, trivial⟩, ⟨hdone, hl.started, ?_, hl.peer⟩, ?_⟩
        · simp only [length_append]
          omega
        · exact .of_served (Nat.lt_of_le_of_lt (Nat.le_add_right _ _) hb)
            (fun hf => by simpa [answered] using hans hf) hpos (by simp [owedStep]) (.inl rfl)
      | false =>
        have hdone := hsent.setState_other hl.started (by decide : ¬State.failed.Connected)
          "cloaked-handshake-timeout"
        simp only [Bool.false_eq_true, ↓reduceIte, wp_x, xEvery]
        refine ⟨⟨hdone, trivial⟩, ⟨hdone, hl.started, ?_, hl.peer⟩, ?_⟩
        · simp only [length_append]
          omega
        · exact .of_served (Nat.lt_of_le_of_lt (Nat.le_add_right _ _) hb)
            (fun hf => by simpa [answered] using hans hf) hpos (by simp [owedStep]) (.inr rfl)

theorem serveReport_meets (x : Config) (c : ConnId) (sess : SessionKey) (remotePub : Key)
    (allowedIPs : List Prefix) (l : XLocal) (m : NativeEndpointReport)
    (hl : XServing x remotePub l) (hset : XSettled l) :
    wp xMachine (xSpec x) (serveReport x c sess remotePub allowedIPs m)
      (fun _ l' => XInv x l' ∧ XSettled l')
      { l with received := l.received ++ [.nativeEndpointReport m] } := by
  have hcount : requestCount (l.received ++ [.nativeEndpointReport m]) =
      requestCount l.received + 1 := by
    simp [requestCount, isRequest]
  have hb : successes l.attempts + paramsCount l.sent <
      requestCount (l.received ++ [.nativeEndpointReport m]) := by
    have hle := hl.inv.budget
    omega
  have hans : l.failed = false → l.sent.filterMap answered ++ [m.sessionID] =
      (l.received ++ [Message.nativeEndpointReport m]).filterMap reported := by
    intro hf
    simp [hset.answers hf, reported]
  have hattempting := (hl.inv.receive hset (.nativeEndpointReport m)).setState_other hl.started
    (by decide : ¬State.nativeAttempting.Connected) ""
  unfold serveReport
  simp only [wp_bind, wp_x, xEvery]
  refine ⟨⟨hattempting, trivial⟩, fun res => ?_⟩
  have hattempt := hattempting.attempt m.externalAddr res hb
  refine ⟨⟨hattempt, trivial⟩, ?_⟩
  cases hres : res.success with
  | true =>
    have hsucc : successes (l.attempts ++ [(m.externalAddr, res)]) = successes l.attempts + 1 := by
      simp [successes, hres]
    have hready : readyCount l.sent < successes (l.attempts ++ [(m.externalAddr, res)]) := by
      have hle := hl.inv.readies_le
      omega
    have hpos : 0 < successes (l.attempts ++ [(m.externalAddr, res)]) := by omega
    have hnative := hattempt.setState hl.started .connectedNative (fun _ => hpos)
      (fun he => by cases he) ""
    have hfail := hnative.fail
    have hsent := hnative.send hl.started (.nativeReady ⟨m.sessionID⟩)
      (fun _ he => ⟨hready, m.externalAddr, res, by cases he; simp, by simp, hres⟩)
      (fun _ he => by cases he) fun hf _ ha => Option.some.inj ha ▸ hans hf
    simp only [↓reduceIte, wp_bind, wp_x, xEvery, wp_call]
    refine ⟨⟨hattempt, trivial⟩, ⟨hnative, trivial⟩, fun err => ⟨⟨hfail, trivial⟩, ?_⟩,
      ⟨hsent, trivial⟩, ?_⟩
    · refine ⟨⟨⟨hfail, hl.started, hl.opening, hl.peer⟩, ?_⟩, fun _ _ hp => hp⟩
      exact .of_native hfail hpos rfl (fun hf => by simp at hf) (fun hf => by simp at hf)
        (fun hf => by simp at hf)
    · have hlen := hl.opening
      refine ⟨⟨⟨hsent, hl.started, ?_, hl.peer⟩, ?_⟩, fun _ _ hp => hp⟩
      · simp only [length_append]
        omega
      · refine .of_native hsent hpos rfl (fun hf => by simpa [answered] using hans hf) ?_ ?_
        · intro hf hr
          simpa [owedStep] using hset.fallback hf hr
        · intro hf hr hm
          simpa [paramsCount, isParams] using hset.decision hf hr (by simpa using hm)
  | false =>
    have hsame : successes (l.attempts ++ [(m.externalAddr, res)]) = successes l.attempts := by
      simp [successes, hres]
    have hfail := hattempt.fail
    have hsent := hattempt.send hl.started (.nativeFailed ⟨m.sessionID, res.reason⟩)
      (fun _ he => by cases he) (fun _ he => by cases he)
      fun hf _ ha => Option.some.inj ha ▸ hans hf
    simp only [Bool.false_eq_true, ↓reduceIte, wp_bind, wp_x, xEvery, wp_pure]
    refine ⟨fun err => ⟨⟨hfail, trivial⟩, hfail, ?_⟩, ⟨hsent, trivial⟩, ?_⟩
    · exact .of_unserved (by rw [hsame]; exact hb) (fun hf => by simp at hf) (.inl rfl)
    · have hlen := hl.opening
      refine wp_mono (fallbackToCloaked_meets x c sess remotePub allowedIPs _
        ⟨hsent, hl.started, ?_, hl.peer⟩ ?_ ?_) ?_
      · simp only [length_append]
        omega
      · rw [hsame]
        simpa [paramsCount, isParams] using hb
      · intro hf
        simpa [answered] using hans hf
      · intro _ l' hp
        exact ⟨hp, fun _ _ hp => hp⟩

theorem serveX_meets (x : Config) (c : ConnId) (sess : SessionKey) (remotePub : Key)
    (allowedIPs : List Prefix) (l : XLocal) (hl : XServing x remotePub l) (hset : XSettled l) :
    wp xMachine (xSpec x) (serveX x c sess remotePub allowedIPs)
      (fun _ l' => XInv x l' ∧ XSettled l') l := by
  unfold serveX
  simp only [wp_bind, wp_x, xEvery, wp_pure]
  refine ⟨fun err => ⟨⟨hl.inv, hset, hl.opening⟩, hl.inv, hset⟩, fun msg => ?_⟩
  have hrecv := hl.inv.receive hset msg
  refine ⟨⟨hrecv, hset, hl.opening⟩, ?_⟩
  -- a message that asks for nothing leaves the handler settled
  have hother : isRequest msg = false →
      XServing x remotePub { l with received := l.received ++ [msg] } ∧
      XSettled { l with received := l.received ++ [msg] } :=
    fun hreq => ⟨⟨hrecv, hl.started, hl.opening, hl.peer⟩, hset.receive_other hreq⟩
  cases msg with
  | nativeEndpointReport m => exact serveReport_meets x c sess remotePub allowedIPs l m hl hset
  | modeDecision m =>
    by_cases hmode : m.mode = ModeCloaked
    · simp only [hmode, ↓reduceIte, wp_bind]
      refine wp_mono (fallbackToCloaked_meets x c sess remotePub allowedIPs _
        ⟨hrecv, hl.started, hl.opening, hl.peer⟩ ?_ ?_) ?_
      · have hb := hl.inv.budget
        have hcount : requestCount (l.received ++ [.modeDecision m]) =
            requestCount l.received + 1 := by
          simp [requestCount, isRequest, hmode]
        show successes l.attempts + paramsCount l.sent <
          requestCount (l.received ++ [.modeDecision m])
        omega
      · intro hf
        simpa [reported] using hset.answers hf
      · intro _ l' hp
        exact ⟨hp, fun _ _ hp => hp⟩
    · simp only [hmode, ↓reduceIte]
      exact ⟨hother (by simp [isRequest, hmode]), fun _ _ hp => hp⟩
  | ping nonce =>
    obtain ⟨hserving, hsettled⟩ := hother rfl
    have hfail := hserving.inv.fail
    have hpong := hserving.inv.send_other hserving.started (rfl : answered (.pong nonce) = none) rfl
    have hlen := hl.opening
    simp only [wp_bind, wp_x, xEvery]
    refine ⟨fun err => ⟨⟨hfail, trivial⟩, ?_⟩, ⟨hpong, trivial⟩, ?_⟩
    · exact ⟨⟨⟨hfail, hl.started, hl.opening, hl.peer⟩, hsettled.fail⟩, fun _ _ hp => hp⟩
    · refine ⟨⟨⟨hpong, hl.started, ?_, hl.peer⟩, hsettled.send_other rfl rfl⟩, fun _ _ hp => hp⟩
      simp only [length_append]
      omega
  | bye reason => exact ⟨hrecv, (hother rfl).2⟩
  | _ => exact ⟨hother rfl, fun _ _ hp => hp⟩

theorem x_verified (x y : Config) : Verified (bodies x y) xMachine (xSpec x) := by
  intro β proc l hpre
  cases proc with
  | serveX c sess remotePub allowedIPs =>
    exact serveX_meets x c sess remotePub allowedIPs l hpre.1 hpre.2
  | pollX remotePub deadline => exact pollX_meets x remotePub deadline l hpre
  | _ => exact hpre.elim

theorem acceptX_meets (x : Config) (c : ConnId) :
    wp xMachine (xSpec x) (acceptX x c) (fun _ l' => XInv x l' ∧ XSettled l') {} := by
  unfold acceptX handleXConn deferring
  simp only [wp_bind, wp_x, xEvery, wp_pure]
  intro auth
  have haccept := XInv.initial x true (some auth.publicKey)
  have hprobing := haccept.setState_other rfl (by decide : ¬State.probing.Connected) ""
  have hhello := hprobing.send_other rfl
    (rfl : answered (.hello ⟨RoleX, x.localPublicKey, 1⟩) = none) rfl
  have hinfo := hhello.send_other rfl (rfl : answered (.xInfo ⟨x.probePortA, x.probePortB,
    x.nativeListenPort, x.cloakedListenPort⟩) = none) rfl
  refine ⟨⟨haccept, trivial⟩, ⟨hprobing, trivial⟩, fun err => ?_, ⟨hhello, trivial⟩,
    fun err => ?_, ⟨hinfo, trivial⟩, ?_⟩
  · exact ⟨⟨hprobing.fail, trivial⟩, ⟨hprobing.fail.close, trivial⟩, hprobing.fail.close,
      .of_silent rfl rfl rfl⟩
  · exact ⟨⟨hhello.fail, trivial⟩, ⟨hhello.fail.close, trivial⟩, hhello.fail.close,
      .of_silent rfl rfl rfl⟩
  · rintro (err | allowedIPs)
    · exact ⟨⟨hinfo, trivial⟩, ⟨hinfo.close, trivial⟩, hinfo.close, .of_silent rfl rfl rfl⟩
    · refine ⟨⟨hinfo, trivial⟩, ⟨⟨hinfo, rfl, Nat.le_refl 2, rfl⟩, .of_silent rfl rfl rfl⟩, ?_⟩
      rintro _ l' ⟨hinv, hset⟩
      exact ⟨⟨hinv.close, trivial⟩, hinv.close, hset.close⟩

end StarlingWg.Orchestrate
