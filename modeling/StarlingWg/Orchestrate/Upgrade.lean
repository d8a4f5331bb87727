import StarlingWg.Orchestrate.Holding

namespace StarlingWg.Orchestrate

open Control Interaction Function

section

variable {β : Type}

def Op.attaches : Op β → Bool
  | .attach => true
  | _ => false

def Op.setsState : Op β → Bool
  | .setState _ _ _ => true
  | _ => false

-- A configuration, an Up or a Send that fails.
def Op.breaks : Op β → β → Bool
  | .send _ _, .error _ => true
  | .ipcSet _ _, .error _ => true
  | .up _, .error _ => true
  | _, _ => false

end

def handoffNote (r : Handoff × Bool) {β : Type} (op : Op β) (reply : β) : Handoff × Bool :=
  if op.setsState then (.over, r.2)
  else (if op.attaches ∧ r.1 = .ahead then .opened else r.1,
    r.2 || (decide (r.1 = .opened) && op.breaks reply))

-- What happens from the first attach to the first time the state is set.
def handoffWindow (trace : List (Event sig YState)) : List (Event sig YState) :=
  (trace.takeWhile fun event => !event.marked fun _ _ op _ => Op.setsState op).dropWhile fun event =>
    !event.marked fun _ _ op _ => Op.attaches op

abbrev HandoffHolds (trace : List (Event sig YState)) : Prop :=
  ∀ event ∈ handoffWindow trace, event.marked (fun _ _ => Op.breaks) = false

-- A cloaked session with traffic: its device is open on the TUN session that
-- is active.
structure YState.Live (s : YState) (sess : SessionKey) (d : DevId) (t : TunId) : Prop where
  state : (s.sessions sess).state = .connectedCloaked
  dev : (s.sessions sess).dev = some d
  tun : (s.devices d).tun = .session t
  active : s.active = some t
  opened : (s.devices d).closed = false
  created : d < s.devCount
  attached : t < s.tunCount

-- The goroutine of the session is the only one at work, and what it did is on record.
structure Upgrading (sess : SessionKey) (s : YState × Handoff × Bool) (h : Hand) : Prop where
  held : Held s.1 h
  sess : h.sess = sess
  active : s.1.active = h.mine
  connected : h.handoff ≠ .over → h.state.Connected
  record : s.2 = (h.handoff, h.stranded)

section

variable {s : YState} {h : Hand}

theorem Held.carries (hh : Held s h) (hactive : s.active = h.mine) :
    s.carries h.sess = h.carrying := by
  have hdev : ((s.sessions h.sess).dev.map fun dev => (s.devices dev).tun) = h.dev.bind h.tuns := by
    rw [hh.dev]
    cases hd : h.dev with
    | none => rfl
    | some dev =>
      obtain ⟨tun, ht⟩ := hh.known dev (by simp [Hand.held, hd])
      simp [ht, (hh.tuns dev tun ht).2]
  rw [YState.carries, Hand.carrying, hactive, hdev]

theorem Held.active_close (hh : Held s h) (hactive : s.active = h.mine) (who : Actor) {dev : DevId}
    (hdev : dev ∈ h.devs ∨ h.tuns dev = some .noop) :
    (s.closeDev who dev).active = (h.close dev).mine := by
  obtain ⟨tun, ht⟩ : ∃ tun, h.tuns dev = some tun := by
    rcases hdev with hdev | hnoop
    · exact hh.known dev (List.mem_append_right _ hdev)
    · exact ⟨_, hnoop⟩
  have htun := (hh.tuns dev tun ht).2
  simp only [YState.closeDev, YState.holds, Hand.close, hactive, htun, ht]
  cases tun with
  | noop =>
    rw [if_neg (by cases h.mine <;> simp), if_neg (by cases h.mine <;> simp)]
  | session t =>
    have hmem : dev ∈ h.devs := hdev.resolve_right (by simp [ht])
    simp [hh.opened dev (List.mem_append_right _ hmem) t ht]

theorem Upgrading.step {sess : SessionKey} {r : Handoff × Bool} (hu : Upgrading sess (s, r) h)
    (who : Actor) {keys : Nat → SessionKey} {β : Type} {op : Op β} {reply : β}
    (hadm : yAdmits s op reply = true)
    (hgood : (handSpec keys).good h op reply (handEffect (fun _ h => h) h op reply)) :
    Upgrading sess (yEffect who s op reply, handoffNote r op reply)
      (handEffect (fun _ h => h) h op reply) := by
  have hheld := (hu.held.step who keys hadm).2 hgood
  have hactive : s.active = h.mine := hu.active
  obtain rfl : r = (h.handoff, h.stranded) := hu.record
  -- only the session's own setState ends the handoff, so it is Connected until then
  have hmark : (decide h.state.Connected && decide (h.handoff = .opened)) =
      decide (h.handoff = .opened) := by
    by_cases ho : h.handoff = .opened
    · simp [hu.connected (by simp [ho])]
    · simp [ho]
  refine ⟨hheld, ?_, ?_, ?_, ?_⟩
  · cases op <;> first | exact hu.sess | (cases reply <;> exact hu.sess)
  · cases op with
    | attach =>
      obtain rfl : reply = s.tunCount := eq_of_beq hadm
      rfl
    | closeDev dev => exact hu.held.active_close hactive who hgood
    | _ => first | exact hactive | (cases reply <;> exact hactive)
  · cases op with
    | setState => exact fun hover => absurd rfl hover
    | attach => exact fun hover => hu.connected fun he => hover (by simp [handEffect, Hand.attach, he])
    | _ => first | exact hu.connected | (cases reply <;> exact hu.connected)
  · have hquiet : (h.stranded || (decide (h.handoff = .opened) && false)) = h.stranded := by simp
    cases op with
    | send | ipcSet | up =>
      cases reply with
      | error => simp [handoffNote, Op.setsState, Op.attaches, Op.breaks, handEffect, Hand.drop,
          Hand.strand, hmark]
      | ok => exact Prod.ext rfl hquiet
    | attach => simp [handoffNote, Op.setsState, Op.attaches, Op.breaks, handEffect, Hand.attach]
    | setState => rfl
    | _ => first | exact Prod.ext rfl hquiet | (cases reply <;> exact Prod.ext rfl hquiet)

end

theorem upgrade_simulates (sess : SessionKey) (who : Actor) (keys : Nat → SessionKey) :
    Simulates ((yMachine who).record handoffNote) (handMachine fun _ h => h) (handSpec keys)
      (fun _ => True) (Upgrading sess) where
  admits hrel hadm _ := (hrel.held.step who keys hadm).1
  keeps hrel hadm _ hgood := hrel.step who hadm hgood

def upgradeHand (sess : SessionKey) (s : YState) (d : DevId) (t : TunId) : Hand where
  sess := sess
  state := .connectedCloaked
  dev := some d
  extraCloser := (s.sessions sess).extraCloser
  mine := some t
  tuns := update (fun _ => none) d (some (.session t))

theorem YState.Live.upgrading {s : YState} {sess : SessionKey} {d : DevId} {t : TunId}
    (hl : s.Live sess d t) : Upgrading sess (s, .ahead, false) (upgradeHand sess s d t) := by
  have htuns : ∀ dev tun, (upgradeHand sess s d t).tuns dev = some tun →
      dev = d ∧ tun = .session t := by
    intro dev tun ht
    by_cases hd : dev = d
    · subst hd
      exact ⟨rfl, by simpa [upgradeHand, eq_comm] using ht⟩
    · simp [upgradeHand, hd] at ht
  have hheld : (upgradeHand sess s d t).held = [d] := rfl
  exact
  { sess := rfl
    active := hl.active
    connected := fun _ => .inr rfl
    record := rfl
    held :=
    { state := hl.state
      dev := hl.dev
      extraCloser := rfl
      tuns := fun dev tun ht => by
        obtain ⟨rfl, rfl⟩ := htuns dev tun ht
        exact ⟨hl.created, hl.tun⟩
      known := fun dev hdev => by
        obtain rfl : dev = d := by simpa [hheld] using hdev
        exact ⟨.session t, by simp [upgradeHand]⟩
      attached := by
        rintro t' (ht | ht | ⟨dev, ht⟩)
        · obtain rfl : t = t' := Option.some.inj ht
          exact hl.attached
        · simp [upgradeHand] at ht
        · obtain ⟨-, htun⟩ := htuns dev _ ht
          obtain rfl := Tun.session.inj htun
          exact hl.attached
      opened := fun dev hdev t' ht => by
        obtain ⟨rfl, -⟩ := htuns dev _ ht
        exact hl.opened
      nodup := by simp [hheld]
      unique := fun dev dev' t' ht ht' => (htuns dev _ ht).1.trans (htuns dev' _ ht').1.symm
      pending := fun t' ht => by simp [upgradeHand] at ht } }

theorem Op.breaks_of_attaches {β : Type} {op : Op β} (h : op.attaches = true) (reply : β) :
    op.breaks reply = false := by
  cases op <;> first | rfl | cases h

section

variable (broken : Bool) (trace : List (Event sig YState))

theorem noted_over : (trace.foldl (Event.noted handoffNote) (.over, broken)).2 = broken := by
  induction trace with
  | nil => rfl
  | cons event trace ih => cases event <;> simp_all [Event.noted, handoffNote]

theorem noted_opened : (trace.foldl (Event.noted handoffNote) (.opened, broken)).2 =
    (broken || (trace.takeWhile fun event => !event.marked fun _ _ op _ => Op.setsState op).any
      (Event.marked fun _ _ => Op.breaks)) := by
  induction trace generalizing broken with
  | nil => simp
  | cons event trace ih =>
    cases event with
    | ret => simpa [Event.noted, Event.marked] using ih broken
    | act s op reply s' =>
      by_cases hset : op.setsState = true
      · simp [Event.noted, Event.marked, handoffNote, hset, noted_over]
      · simp [Event.noted, Event.marked, handoffNote, hset, ih, Bool.or_assoc]

theorem noted_ahead : (trace.foldl (Event.noted handoffNote) (.ahead, false)).2 =
    (handoffWindow trace).any (Event.marked fun _ _ => Op.breaks) := by
  induction trace with
  | nil => rfl
  | cons event trace ih =>
    cases event with
    | ret => simpa [Event.noted, Event.marked, handoffWindow] using ih
    | act s op reply s' =>
      by_cases hset : op.setsState = true
      · simp [Event.noted, Event.marked, handoffNote, handoffWindow, hset, noted_over]
      · by_cases hattach : op.attaches = true
        · simp [Event.noted, Event.marked, handoffNote, handoffWindow, hset, hattach, noted_opened,
            Op.breaks_of_attaches hattach]
        · simpa [Event.noted, Event.marked, handoffNote, handoffWindow, hset, hattach] using ih

end

-- Whenever the upgrade gives up, the session is out of the Connected states or
-- still has the TUN, exactly when nothing failed during the handoff.
theorem failed_upgrade_carries_iff (x y : Config) (pc : PeerConfig) (who : Actor) {s s' : YState}
    {d : DevId} {t : TunId} {trace : List (Event sig YState)}
    (hl : s.Live (.addr pc.controlAddr) d t)
    (hr : Run (bodies x y) (yMachine who) (attemptBackgroundNative y pc) s trace false s') :
    (¬(s'.sessions (.addr pc.controlAddr)).state.Connected ∨ s'.carries (.addr pc.controlAddr) = true) ↔
      HandoffHolds trace := by
  obtain ⟨trace', hrecorded⟩ := hr.recorded handoffNote (.ahead, false)
  obtain ⟨h', hrel, ⟨-, hverdict⟩, -⟩ :=
    hrecorded.refines (upgrade_simulates (.addr pc.controlAddr) who fun _ => .addr pc.controlAddr)
      (hand_verified x y (fun _ h => h) _) (fun _ _ => trivial) hl.upgrading
      (attemptBackgroundNative_holds rfl rfl rfl)
  have hcarry : (upgradeHand (.addr pc.controlAddr) s d t).carrying = true :=
    Hand.carrying_iff.mpr ⟨t, rfl, by simp [upgradeHand]⟩
  have hsettled : (¬(s'.sessions (.addr pc.controlAddr)).state.Connected ∨
      s'.carries (.addr pc.controlAddr) = true) ↔ h'.Settled := by
    have hstate := hrel.held.state
    have hcarries := hrel.held.carries hrel.active
    rw [hrel.sess] at hstate hcarries
    rw [hstate, hcarries, Hand.Settled, imp_iff_not_or]
  have hbroken : (trace.foldl (Event.noted handoffNote) (.ahead, false)).2 = h'.stranded :=
    congrArg Prod.snd hrel.record
  rw [hsettled, hverdict rfl hcarry rfl rfl, ← hbroken, noted_ahead, List.any_eq_false]
  simp only [HandoffHolds, Bool.not_eq_true]

def cloakedY : YState :=
  { YState.init with
    sessions := update (fun _ => {}) (.addr samplePeer.controlAddr)
      { state := .connectedCloaked, dev := some 0 }
    active := some 0
    tunCount := 1
    devices := fun _ => { tun := .session 0 }
    devCount := 1 }

theorem cloakedY_live : cloakedY.Live (.addr samplePeer.controlAddr) 0 0 where
  state := by simp [cloakedY]
  dev := by simp [cloakedY]
  tun := rfl
  active := rfl
  opened := rfl
  created := Nat.zero_lt_one
  attached := Nat.zero_lt_one

theorem failed_upgrade_carries_iff_symmetric : ∃ trace s',
    Run (bodies sampleX sampleY) (yMachine (.supervisor 0))
      (attemptBackgroundNative sampleY samplePeer) cloakedY trace false s' ∧
    (¬(s'.sessions (.addr samplePeer.controlAddr)).state.Connected ∨
      s'.carries (.addr samplePeer.controlAddr) = true) := by
  obtain ⟨trace, value, s', hr, hp⟩ :=
    YOutcomes.runs { nat := .symmetric } sampleX sampleY (fun _ => sampleInbox) (.supervisor 0)
      (attemptBackgroundNative sampleY samplePeer) cloakedY
      (fun r => !r.2.1 && decide (HandoffHolds r.1)) (by decide)
  simp only [Bool.and_eq_true, Bool.not_eq_true', decide_eq_true_eq] at hp
  obtain ⟨rfl, hquiet⟩ := hp
  exact ⟨trace, s', hr, (failed_upgrade_carries_iff sampleX sampleY samplePeer (.supervisor 0)
    cloakedY_live hr).mpr hquiet⟩

theorem failed_handoff_strands_session : ∃ trace s',
    cloakedY.Live (.addr samplePeer.controlAddr) 0 0 ∧
    Run (bodies sampleX sampleY) (yMachine (.supervisor 0))
      (attemptBackgroundNative sampleY samplePeer) cloakedY trace false s' ∧
    (s'.sessions (.addr samplePeer.controlAddr)).state.Connected ∧
    s'.carries (.addr samplePeer.controlAddr) = false := by
  obtain ⟨trace, value, s', hr, hp⟩ :=
    YOutcomes.runs { ipcSet := fun dev => if dev = 2 then .error "EINVAL" else .ok () }
      sampleX sampleY (fun _ => sampleInbox) (.supervisor 0)
      (attemptBackgroundNative sampleY samplePeer) cloakedY
      (fun r => !r.2.1 && decide ((r.2.2.sessions (.addr samplePeer.controlAddr)).state.Connected ∧
        r.2.2.carries (.addr samplePeer.controlAddr) = false)) (by decide)
  simp only [Bool.and_eq_true, Bool.not_eq_true', decide_eq_true_eq] at hp
  obtain ⟨rfl, hstuck⟩ := hp
  exact ⟨trace, s', cloakedY_live, hr, hstuck⟩

end StarlingWg.Orchestrate
