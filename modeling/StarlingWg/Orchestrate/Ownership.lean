import StarlingWg.Orchestrate.Holding

namespace StarlingWg.Orchestrate

open Control Interaction List Function

-- Whatever was created between two states is closed or the session's in the later one.
def YState.Accounted (sess : SessionKey) (before after : YState) : Prop :=
  (∀ d < after.devCount, before.devCount ≤ d →
    (after.devices d).closed = true ∨ (after.sessions sess).dev = some d) ∧
  ∀ k < after.sockCount, before.sockCount ≤ k →
    after.sockOpen k = false ∨ (after.sessions sess).extraCloser = some k

instance (sess : SessionKey) (before after : YState) : Decidable (before.Accounted sess after) :=
  inferInstanceAs (Decidable (_ ∧ _))

-- runY and attemptBackgroundNative return with their devices and sockets
-- closed or in the session, and setDevice replaces no open device.
def tidy : Event sig YState → Bool
  | .ret before (.runY pc _) _ after => decide (before.Accounted (.addr pc.controlAddr) after)
  | .ret before (.attemptBackgroundNative pc) _ after =>
    decide (before.Accounted (.addr pc.controlAddr) after)
  | .act before (.setDevice target _ _) _ _ =>
    (before.sessions target).dev.all fun d => (before.devices d).closed
  | _ => true

-- A Send or Recv that fails during a native attempt, and an attempt begun
-- with a device still in the session.
def YState.leaks (sess : SessionKey) (s : YState) : {β : Type} → Op β → β → Bool
  | _, .send _ _, .error _ => (s.sessions sess).state == .nativeAttempting
  | _, .recv _, .error _ => (s.sessions sess).state == .nativeAttempting
  | _, .setState target state _, _ => state == .probing && (s.sessions target).dev.isSome
  | _, _, _ => false

structure Ledger (sess : SessionKey) (s : YState) (h : Hand) : Prop where
  held : Held s h
  sess : h.sess = sess
  kept : h.dropped = false
  vacated : h.replaced = false
  paired : h.dev = none → h.extraCloser = none
  devices : ∀ d < s.devCount, (s.devices d).closed = true ∨ d ∈ h.held
  sockets : ∀ k < s.sockCount, s.sockOpen k = true → k ∈ h.socks ∨ h.extraCloser = some k
  created : ∀ k, k ∈ h.socks ∨ h.extraCloser = some k → k < s.sockCount

section

variable {sess : SessionKey} {s : YState} {h : Hand}

theorem Ledger.withState (hl : Ledger sess s h) {state : State} (reason : GoString)
    (hquiet : (state == .probing && (s.sessions h.sess).dev.isSome) = false) :
    Ledger sess (s.setState h.sess state reason) (h.withState state) :=
  { hl with
    held := hl.held.withState state reason
    vacated := by
      rw [hl.held.dev] at hquiet
      simpa [Hand.withState, hl.vacated] using hquiet }

theorem Ledger.put (hl : Ledger sess s h) {dev : DevId} {extraCloser : Option SockId}
    (hdev : dev ∈ h.devs) (hsock : ∀ socket, extraCloser = some socket → socket ∈ h.socks)
    (hvacant : h.Vacant) :
    Ledger sess (s.updateSession h.sess fun v =>
      { v with dev := some dev, extraCloser := extraCloser }) (h.put (some dev) extraCloser) := by
  have hnone : h.dev = none := hvacant hl.vacated
  have hextra : h.extraCloser = none := hl.paired hnone
  exact
  { held := hl.held.put hdev extraCloser
    sess := hl.sess
    kept := hl.kept
    vacated := hl.vacated
    paired := fun hd => by simp [Hand.put] at hd
    devices := fun d hd => by
      refine (hl.devices d hd).imp_right fun hmem => ?_
      have hmem' : d ∈ h.devs := by simpa [Hand.held, hnone] using hmem
      by_cases he : d = dev
      · simp [Hand.held, Hand.put, he]
      · simp [Hand.held, Hand.put, he, mem_erase_of_ne he, hmem']
    sockets := fun k hk hopen => by
      have hmem : k ∈ h.socks := by simpa [hextra] using hl.sockets k hk hopen
      cases hec : extraCloser with
      | none => simp [Hand.put, hmem]
      | some socket =>
        by_cases he : k = socket
        · simp [Hand.put, he]
        · simp [Hand.put, mem_erase_of_ne he, hmem]
    created := fun k hk => by
      rcases hk with hk | hk
      · refine hl.created k (.inl ?_)
        cases hec : extraCloser with
        | none => simpa [Hand.put, hec] using hk
        | some socket => exact mem_of_mem_erase (by simpa [Hand.put, hec] using hk)
      · exact hl.created k (.inl (hsock k hk)) }

theorem Ledger.take (hl : Ledger sess s h) :
    Ledger sess (s.updateSession h.sess fun v => { v with dev := none, extraCloser := none })
      h.take :=
  { hl with
    held := hl.held.take
    paired := fun _ => rfl
    sockets := fun k hk hopen => by
      have hk' := hl.sockets k hk hopen
      simp only [Hand.take, mem_append, Option.mem_toList]
      exact .inl hk'.symm
    created := fun k hk => by
      have hk' : h.extraCloser = some k ∨ k ∈ h.socks := by simpa [Hand.take] using hk
      exact hl.created k hk'.symm }

theorem Ledger.create (hl : Ledger sess s h) {tun : Tun} (bind : Bind)
    (htun : ∀ t, tun = .session t → h.tun = some t) :
    Ledger sess (s.openDevice tun bind) (h.create s.devCount tun) :=
  { hl with
    held := hl.held.create bind htun
    devices := fun d hd => by
      by_cases he : d = s.devCount
      · simp [Hand.held, Hand.create, he]
      · have hlt : d < s.devCount := Nat.lt_of_le_of_ne (Nat.le_of_lt_succ hd) he
        have hold : (s.devices d).closed = true ∨ d ∈ h.dev.toList ++ h.devs := hl.devices d hlt
        simpa [YState.openDevice, update_of_ne he, Hand.held, Hand.create, he] using hold }

theorem Ledger.close (hl : Ledger sess s h) {dev : DevId} (who : Actor)
    (hdev : dev ∈ h.devs ∨ h.tuns dev = some .noop) :
    Ledger sess (s.closeDev who dev) (h.close dev) :=
  { hl with
    held := hl.held.close who hdev
    devices := fun d hd => by
      by_cases he : d = dev
      · simp [YState.closeDev, he]
      · have hold : (s.devices d).closed = true ∨ d ∈ h.dev.toList ++ h.devs := hl.devices d hd
        simpa [YState.closeDev, update_of_ne he, Hand.held, Hand.close,
          mem_erase_of_ne he] using hold }

theorem Ledger.openSocket (hl : Ledger sess s h) :
    Ledger sess s.openSocket { h with socks := s.sockCount :: h.socks } :=
  { hl with
    held := { hl.held with }
    sockets := fun k hk hopen => by
      by_cases he : k = s.sockCount
      · simp [he]
      · have hlt : k < s.sockCount := Nat.lt_of_le_of_ne (Nat.le_of_lt_succ hk) he
        have hold := hl.sockets k hlt (by simpa [YState.openSocket, he] using hopen)
        simpa [he] using hold
    created := fun k hk => by
      have hk' : (k = s.sockCount ∨ k ∈ h.socks) ∨ h.extraCloser = some k := by simpa using hk
      rcases hk' with (rfl | hk') | hk'
      · exact Nat.lt_succ_self _
      · exact Nat.lt_succ_of_lt (hl.created k (.inl hk'))
      · exact Nat.lt_succ_of_lt (hl.created k (.inr hk')) }

theorem Ledger.closeSocket (hl : Ledger sess s h) (socket : SockId) :
    Ledger sess (s.closeSocket socket) { h with socks := h.socks.erase socket } :=
  { hl with
    held := { hl.held with }
    sockets := fun k hk hopen => by
      have he : k ≠ socket := by
        rintro rfl
        simp [YState.closeSocket] at hopen
      have hold := hl.sockets k hk (by simpa [YState.closeSocket, he] using hopen)
      simpa [mem_erase_of_ne he] using hold
    created := fun k hk => hl.created k (hk.imp_left mem_of_mem_erase) }

theorem Ledger.drop (hl : Ledger sess s h)
    (hquiet : ((s.sessions sess).state == .nativeAttempting) = false) : Ledger sess s h.drop :=
  { hl with
    held := { hl.held with }
    kept := by
      rw [← hl.sess, hl.held.state] at hquiet
      simpa [Hand.drop, hl.kept] using hquiet }

theorem Ledger.step (hl : Ledger sess s h) (who : Actor) {keys : Nat → SessionKey} {β : Type}
    {op : Op β} {reply : β}
    (hadm : yAdmits s op reply = true) (hquiet : s.leaks sess op reply = false)
    (hgood : (handSpec keys).good h op reply (handEffect (fun _ h => h) h op reply)) :
    Ledger sess (yEffect who s op reply) (handEffect (fun _ h => h) h op reply) := by
  have hheld := (hl.held.step who keys hadm).2 hgood
  cases op with
  | send conn msg =>
    cases reply with
    | error err => exact { hl.drop hquiet with held := hheld }
    | ok _ => exact { hl with held := hheld }
  | recv conn =>
    cases reply with
    | error err => exact hl.drop hquiet
    | ok _ => exact { hl with held := hheld }
  | ipcSet dev conf =>
    cases reply with
    | error err => exact { hl with held := hheld }
    | ok _ =>
      have hsame : ∀ d, ((s.updateDevice dev fun v =>
          { v with conf := v.conf ++ conf }).devices d).closed = (s.devices d).closed := by
        intro d
        by_cases hd : d = dev
        · simp [YState.updateDevice, hd]
        · simp [YState.updateDevice, hd]
      exact { hl with
        held := hheld
        devices := fun d hd => (hsame d).symm ▸ hl.devices d hd }
  | setState target state reason =>
    obtain ⟨rfl, -⟩ := hgood
    exact hl.withState reason hquiet
  | setDevice target dev extraCloser =>
    obtain ⟨rfl, ⟨d, hd, rfl⟩, hsock, hvacant, -⟩ := hgood
    exact hl.put hd hsock hvacant
  | takeDevice target =>
    obtain rfl : target = h.sess := hgood
    exact hl.take
  | singleFamilyUDP addr =>
    cases reply with
    | error err => exact hl
    | ok socket =>
      obtain rfl : socket = s.sockCount := eq_of_beq hadm
      exact hl.openSocket
  | closeSocket socket => exact hl.closeSocket socket
  | newDevice tun bind =>
    obtain rfl : reply = s.devCount := eq_of_beq hadm
    exact hl.create bind hgood
  | closeDev dev => exact hl.close who hgood
  | _ => first | exact { hl with held := hheld } | (cases reply <;> exact { hl with held := hheld })

theorem Ledger.initial (sess : SessionKey) : Ledger sess YState.init { sess := sess } where
  held := .initial sess
  sess := rfl
  kept := rfl
  vacated := rfl
  paired _ := rfl
  devices d hd := absurd hd (Nat.not_lt_zero d)
  sockets k hk := absurd hk (Nat.not_lt_zero k)
  created k hk := by simp at hk

theorem Ledger.accounted {s' : YState} {h' : Hand} (hl : Ledger sess s h) (hl' : Ledger sess s' h')
    (hret : h.Returned h') : s.Accounted sess s' := by
  have hdev := hl'.held.dev
  have hextra := hl'.held.extraCloser
  rw [hl'.sess] at hdev hextra
  constructor
  · intro d hd hnew
    refine (hl'.devices d hd).imp_right fun hmem => hdev.trans ?_
    simpa [Hand.held, hret.devs] using hmem
  · intro k hk hnew
    cases hopen : s'.sockOpen k with
    | false => exact .inl rfl
    | true =>
      rcases hl'.sockets k hk hopen with hmem | hown
      · rw [hret.socks hl'.kept] at hmem
        exact absurd (hl.created k (.inl hmem)) (Nat.not_lt.mpr hnew)
      · exact .inr (hextra.trans hown)

theorem ownership_simulates (sess : SessionKey) (who : Actor) (keys : Nat → SessionKey) :
    Simulates (yMachine who) (handMachine fun _ h => h) (handSpec keys)
      (fun event => event.marked (YState.leaks sess) = false) (Ledger sess) where
  admits hrel hadm _ := (hrel.held.step who keys hadm).1
  keeps hrel hadm hquiet hgood := hrel.step who hadm hquiet hgood

end

theorem Event.Refines.tidy {sess : SessionKey} {keys : Nat → SessionKey}
    {event : Event sig YState} (he : event.Refines (handSpec keys) (Ledger sess)) : tidy event = true := by
  cases event with
  | act s op reply s' =>
    obtain ⟨h, h', hl, -, hgood⟩ := he
    cases op with
    | setDevice target dev extraCloser =>
      obtain ⟨rfl, -, -, hvacant, -⟩ := hgood
      have hnone : (s.sessions h.sess).dev = none := hl.held.dev.trans (hvacant hl.vacated)
      simp [Orchestrate.tidy, hnone]
    | _ => rfl
  | ret s proc result s' =>
    obtain ⟨h, h', hl, hl', hpre, hpost⟩ := he
    cases proc with
    | runY pc hint =>
      obtain rfl : .addr pc.controlAddr = sess := hpre.1.trans hl.sess
      exact decide_eq_true (hl.accounted hl' hpost.toReturned)
    | attemptBackgroundNative pc =>
      obtain rfl : .addr pc.controlAddr = sess := hpre.1.trans hl.sess
      exact decide_eq_true (hl.accounted hl' hpost.1)
    | _ => rfl

theorem lone_y_leaks_nothing (x y : Config) (pc : PeerConfig) {s : YState}
    {trace : List (Event sig YState)}
    (hr : Partial (bodies x y) (yMachine .main) (loneY y pc) YState.init trace s)
    (hquiet : ∀ event ∈ trace, event.marked (YState.leaks (.addr pc.controlAddr)) = false) :
    ∀ event ∈ trace, tidy event = true := by
  intro event he
  have hrefines := hr.refines (ownership_simulates (.addr pc.controlAddr) .main _)
    (hand_verified x y (fun _ h => h) _) hquiet (.initial _) (loneY_holds y pc rfl rfl)
  exact Event.Refines.tidy (hrefines event he)

theorem lone_y_leaks_nothing_native : ∃ trace s,
    Partial (bodies sampleX sampleY) (yMachine .main) (loneY sampleY samplePeer) YState.init trace s ∧
    (s.sessions (.addr samplePeer.controlAddr)).state = .connectedNative ∧
    ∀ event ∈ trace, tidy event = true := by
  obtain ⟨trace, _, s, hr, hp⟩ :=
    YOutcomes.runs { wakeup := .ctxDone } sampleX sampleY (fun _ => sampleInbox) .main
      (loneY sampleY samplePeer) YState.init
      (fun r => decide ((r.2.2.sessions (.addr samplePeer.controlAddr)).state = .connectedNative) &&
        r.1.all fun event => !event.marked (YState.leaks (.addr samplePeer.controlAddr))) (by decide)
  simp only [Bool.and_eq_true, decide_eq_true_eq, all_eq_true, Bool.not_eq_true'] at hp
  exact ⟨trace, s, hr.stopped, hp.1,
    lone_y_leaks_nothing sampleX sampleY samplePeer hr.stopped hp.2⟩

theorem failed_report_leaks_socket : ∃ trace s,
    Partial (bodies sampleX sampleY) (yMachine .main) (loneY sampleY samplePeer) YState.init trace s ∧
    ∃ event ∈ trace, tidy event = false := by
  obtain ⟨trace, _, s, hr, hp⟩ :=
    YOutcomes.runs { wakeup := .ctxDone } sampleX sampleY (fun _ => sampleInbox.take 2) .main
      (loneY sampleY samplePeer) YState.init (fun r => r.1.any fun event => !tidy event) (by decide)
  simp only [any_eq_true, Bool.not_eq_true'] at hp
  exact ⟨trace, s, hr.stopped, hp⟩

end StarlingWg.Orchestrate
