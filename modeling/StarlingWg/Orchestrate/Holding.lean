import StarlingWg.Orchestrate.HandContract

namespace StarlingWg.Orchestrate

open Control Interaction YState List Function Option

-- sharedTUN.active is the tunSession of the device stored in the session.
def YState.carries (s : YState) (sess : SessionKey) : Bool :=
  s.active.any fun t => ((s.sessions sess).dev.map fun dev => (s.devices dev).tun) == some (.session t)

def Hand.held (h : Hand) : List DevId := h.dev.toList ++ h.devs

def Hand.Knows (h : Hand) (t : TunId) : Prop :=
  h.mine = some t ∨ h.tun = some t ∨ ∃ dev, h.tuns dev = some (.session t)

-- The hand is true of the Y side. A device that is held and on the shared TUN
-- has not been closed, and no other was given the same TUN session.
structure Held (s : YState) (h : Hand) : Prop where
  state : (s.sessions h.sess).state = h.state
  dev : (s.sessions h.sess).dev = h.dev
  extraCloser : (s.sessions h.sess).extraCloser = h.extraCloser
  tuns : ∀ dev tun, h.tuns dev = some tun → dev < s.devCount ∧ (s.devices dev).tun = tun
  known : ∀ dev ∈ h.held, ∃ tun, h.tuns dev = some tun
  attached : ∀ t, h.Knows t → t < s.tunCount
  opened : ∀ dev ∈ h.held, ∀ t, h.tuns dev = some (.session t) → (s.devices dev).closed = false
  nodup : h.held.Nodup
  unique : ∀ dev dev' t, h.tuns dev = some (.session t) → h.tuns dev' = some (.session t) →
    dev = dev'
  pending : ∀ t, h.tun = some t → ∀ dev, h.tuns dev ≠ some (.session t)

section

variable {s s' : YState} {h : Hand}

theorem Held.fresh_dev (hh : Held s h) : h.tuns s.devCount = none ∧ h.dev ≠ some s.devCount := by
  have hnone : h.tuns s.devCount = none := by
    cases ht : h.tuns s.devCount with
    | none => rfl
    | some tun => exact absurd (hh.tuns _ _ ht).1 (Nat.lt_irrefl _)
  refine ⟨hnone, fun hd => ?_⟩
  obtain ⟨tun, ht⟩ := hh.known s.devCount (by simp [Hand.held, hd])
  simp [hnone] at ht

theorem Held.fresh_tun (hh : Held s h) : h.dev.bind h.tuns ≠ some (.session s.tunCount) := by
  intro ht
  obtain ⟨dev, -, hdev⟩ := bind_eq_some_iff.mp ht
  exact Nat.lt_irrefl _ (hh.attached _ (.inr (.inr ⟨dev, hdev⟩)))

theorem Held.frame (hh : Held s h) (hsess : s'.sessions h.sess = s.sessions h.sess)
    (htun : ∀ dev, dev < s.devCount → (s'.devices dev).tun = (s.devices dev).tun)
    (hclosed : ∀ dev ∈ h.held, ∀ t, h.tuns dev = some (.session t) →
      (s'.devices dev).closed = (s.devices dev).closed)
    (hdevs : s.devCount ≤ s'.devCount) (htuns : s.tunCount ≤ s'.tunCount) : Held s' h where
  state := hsess ▸ hh.state
  dev := hsess ▸ hh.dev
  extraCloser := hsess ▸ hh.extraCloser
  tuns dev tun ht :=
    have hd := hh.tuns dev tun ht
    ⟨Nat.lt_of_lt_of_le hd.1 hdevs, (htun dev hd.1).trans hd.2⟩
  known := hh.known
  attached t ht := Nat.lt_of_lt_of_le (hh.attached t ht) htuns
  opened dev hd t ht := (hclosed dev hd t ht).trans (hh.opened dev hd t ht)
  nodup := hh.nodup
  unique := hh.unique
  pending := hh.pending

theorem Held.withState (hh : Held s h) (state : State) (reason : GoString) :
    Held (s.setState h.sess state reason) (h.withState state) :=
  { hh with
    state := by simp [updateSession, Hand.withState]
    dev := by simpa [updateSession, Hand.withState] using hh.dev
    extraCloser := by simpa [updateSession, Hand.withState] using hh.extraCloser }

theorem Held.put (hh : Held s h) {dev : DevId} (hdev : dev ∈ h.devs) (extraCloser : Option SockId) :
    Held (s.updateSession h.sess fun v => { v with dev := some dev, extraCloser := extraCloser })
      (h.put (some dev) extraCloser) := by
  have hheld : ∀ d ∈ (h.put (some dev) extraCloser).held, d ∈ h.held := by
    intro d hd
    simp only [Hand.held, Hand.put, toList_some, elim_some, singleton_append, mem_cons] at hd
    rcases hd with rfl | hd
    · exact mem_append_right _ hdev
    · exact mem_append_right _ (mem_of_mem_erase hd)
  have hnodup : h.devs.Nodup := (nodup_append.mp hh.nodup).2.1
  exact
  { state := by simpa [updateSession, Hand.put] using hh.state
    dev := by simp [updateSession, Hand.put]
    extraCloser := by simp [updateSession, Hand.put]
    tuns := hh.tuns
    known := fun d hd => hh.known d (hheld d hd)
    attached := hh.attached
    opened := fun d hd => hh.opened d (hheld d hd)
    nodup := nodup_cons.mpr ⟨hnodup.not_mem_erase, hnodup.erase dev⟩
    unique := hh.unique
    pending := hh.pending }

theorem Held.take (hh : Held s h) :
    Held (s.updateSession h.sess fun v => { v with dev := none, extraCloser := none }) h.take :=
  { hh with
    state := by simpa [updateSession, Hand.take] using hh.state
    dev := by simp [updateSession, Hand.take]
    extraCloser := by simp [updateSession, Hand.take] }

theorem Held.attach (hh : Held s h) (who : Actor) : Held (s.attach who) (h.attach s.tunCount) :=
  { hh with
    attached := by
      rintro t (ht | ht | ht)
      · obtain rfl : s.tunCount = t := Option.some.inj ht
        exact Nat.lt_succ_self _
      · obtain rfl : s.tunCount = t := Option.some.inj ht
        exact Nat.lt_succ_self _
      · exact Nat.lt_succ_of_lt (hh.attached t (.inr (.inr ht)))
    pending := fun t ht dev hdev => by
      obtain rfl : s.tunCount = t := Option.some.inj ht
      exact Nat.lt_irrefl _ (hh.attached _ (.inr (.inr ⟨dev, hdev⟩))) }

theorem Held.create (hh : Held s h) {tun : Tun} (bind : Bind)
    (htun : ∀ t, tun = .session t → h.tun = some t) :
    Held (s.openDevice tun bind) (h.create s.devCount tun) := by
  obtain ⟨hfresh, hdev⟩ := hh.fresh_dev
  have hheld : (h.create s.devCount tun).held.Perm (s.devCount :: h.held) := perm_middle
  have hsplit : ∀ dev t, (h.create s.devCount tun).tuns dev = some (.session t) →
      (dev = s.devCount ∧ tun = .session t) ∨ h.tuns dev = some (.session t) := by
    intro dev t ht
    by_cases hd : dev = s.devCount
    · exact .inl ⟨hd, by simpa [Hand.create, hd] using ht⟩
    · exact .inr (by simpa [Hand.create, hd] using ht)
  have hnew : s.devCount ∉ h.held := fun hmem => by
    obtain ⟨τ, ht⟩ := hh.known _ hmem
    simp [hfresh] at ht
  exact
  { state := hh.state
    dev := hh.dev
    extraCloser := hh.extraCloser
    tuns := fun dev τ ht => by
      by_cases hd : dev = s.devCount
      · subst hd
        obtain rfl : tun = τ := by simpa [Hand.create] using ht
        simp [openDevice]
      · have ht' : h.tuns dev = some τ := by simpa [Hand.create, hd] using ht
        have hlt := hh.tuns dev τ ht'
        simp only [openDevice, update_of_ne hd]
        exact ⟨Nat.lt_succ_of_lt hlt.1, hlt.2⟩
    known := fun dev hd => by
      rcases mem_cons.mp (hheld.mem_iff.mp hd) with rfl | hd
      · exact ⟨tun, update_self ..⟩
      · obtain ⟨τ, ht⟩ := hh.known dev hd
        exact ⟨τ, h.create_tuns hfresh tun dev τ ht⟩
    attached := by
      rintro t (ht | ht | ⟨dev, ht⟩)
      · exact hh.attached t (.inl ht)
      · refine hh.attached t (.inr (.inl ?_))
        simp only [Hand.create] at ht
        split at ht
        · exact ht
        · simp at ht
      · rcases hsplit dev t ht with ⟨-, hnew⟩ | hold
        · exact hh.attached t (.inr (.inl (htun t hnew)))
        · exact hh.attached t (.inr (.inr ⟨dev, hold⟩))
    opened := fun dev hd t ht => by
      by_cases he : dev = s.devCount
      · simp [openDevice, he]
      · have ht' : h.tuns dev = some (.session t) := by simpa [Hand.create, he] using ht
        have hd' := (mem_cons.mp (hheld.mem_iff.mp hd)).resolve_left he
        simpa [openDevice, update_of_ne he] using hh.opened dev hd' t ht'
    nodup := hheld.nodup_iff.mpr (nodup_cons.mpr ⟨hnew, hh.nodup⟩)
    unique := fun dev dev' t ht ht' => by
      rcases hsplit dev t ht with ⟨rfl, htun₁⟩ | ht₁
      · rcases hsplit dev' t ht' with ⟨rfl, -⟩ | ht₂
        · rfl
        · exact absurd ht₂ (hh.pending t (htun t htun₁) dev')
      · rcases hsplit dev' t ht' with ⟨rfl, htun₂⟩ | ht₂
        · exact absurd ht₁ (hh.pending t (htun t htun₂) dev)
        · exact hh.unique dev dev' t ht₁ ht₂
    pending := fun t ht dev hdev => by
      simp only [Hand.create] at ht
      split at ht
      case isTrue hnoop =>
          rcases hsplit dev t hdev with ⟨-, htun₁⟩ | ht₁
          · simp [hnoop] at htun₁
          · exact hh.pending t ht dev ht₁
      case isFalse => simp at ht }

theorem Held.close (hh : Held s h) {dev : DevId} (who : Actor)
    (hdev : dev ∈ h.devs ∨ h.tuns dev = some .noop) :
    Held (s.closeDev who dev) (h.close dev) := by
  have hsub : (h.close dev).held.Sublist h.held :=
    List.Sublist.append (.refl _) (erase_sublist ..)
  exact
  { state := hh.state
    dev := hh.dev
    extraCloser := hh.extraCloser
    tuns := fun d τ ht => by
      have hd := hh.tuns d τ ht
      refine ⟨hd.1, ?_⟩
      by_cases he : d = dev
      · subst he
        simpa [closeDev] using hd.2
      · simpa [closeDev, update_of_ne he] using hd.2
    known := fun d hd => hh.known d (hsub.subset hd)
    attached := by
      rintro t (ht | ht | ht)
      · refine hh.attached t (.inl ?_)
        simp only [Hand.close] at ht
        split at ht
        · simp at ht
        · exact ht
      · exact hh.attached t (.inr (.inl ht))
      · exact hh.attached t (.inr (.inr ht))
    opened := fun d hd t ht => by
      have hne : d ≠ dev := by
        rintro rfl
        rcases hdev with hdev | hnoop
        · -- it was held once, and not by the session
          obtain ⟨-, hnodup, hdisj⟩ := nodup_append.mp hh.nodup
          rcases mem_append.mp hd with hd | hd
          · exact hdisj d hd d hdev rfl
          · exact hnodup.not_mem_erase hd
        · have ht' : h.tuns d = some (.session t) := ht
          simp [hnoop] at ht'
      simpa [closeDev, update_of_ne hne] using hh.opened d (hsub.subset hd) t ht
    nodup := hh.nodup.sublist hsub
    unique := hh.unique
    pending := hh.pending }

theorem Held.configure (hh : Held s h) (dev : DevId) (conf : List UapiLine) :
    Held (s.updateDevice dev fun d => { d with conf := d.conf ++ conf }) h := by
  have hsame : ∀ d, ((s.updateDevice dev fun d => { d with conf := d.conf ++ conf }).devices d).tun =
      (s.devices d).tun ∧
      ((s.updateDevice dev fun d => { d with conf := d.conf ++ conf }).devices d).closed =
        (s.devices d).closed := by
    intro d
    by_cases hd : d = dev
    · subst hd
      simp [updateDevice]
    · simp [updateDevice, update_of_ne hd]
  exact hh.frame rfl (fun d _ => (hsame d).1) (fun d _ _ _ => (hsame d).2) (Nat.le_refl _) (Nat.le_refl _)

-- The hand follows every call that is good for it. A supervisor that is
-- started takes the hand over as it is.
theorem Held.step (hh : Held s h) (who : Actor) (keys : Nat → SessionKey) {β : Type} {op : Op β} {reply : β}
    (hadm : yAdmits s op reply = true) :
    handAdmits h op reply = true ∧
    ((handSpec keys).good h op reply (handEffect (fun _ h => h) h op reply) →
      Held (yEffect who s op reply) (handEffect (fun _ h => h) h op reply)) := by
  cases op with
  | send | recv | dial | singleFamilyUDP => cases reply <;> exact ⟨rfl, fun _ => { hh with }⟩
  | up dev =>
    cases reply with
    | error err => exact ⟨rfl, fun _ => { hh with }⟩
    | ok _ => exact ⟨rfl, fun _ => hh⟩
  | ipcSet dev conf =>
    cases reply with
    | error err => exact ⟨rfl, fun _ => { hh with }⟩
    | ok _ => exact ⟨rfl, fun _ => hh.configure dev conf⟩
  | getState target =>
    obtain rfl : reply = (s.sessions target).state := eq_of_beq hadm
    refine ⟨?_, fun _ => hh⟩
    by_cases ht : target = h.sess
    · simp [handAdmits, ht, hh.state]
    · simp [handAdmits, ht]
  | setState target state reason =>
    refine ⟨rfl, ?_⟩
    rintro ⟨rfl, -⟩
    exact hh.withState state reason
  | setDevice target dev extraCloser =>
    refine ⟨rfl, ?_⟩
    rintro ⟨rfl, ⟨d, hd, rfl⟩, -⟩
    exact hh.put hd extraCloser
  | takeDevice target =>
    obtain rfl : reply = ((s.sessions target).dev, (s.sessions target).extraCloser) :=
      eq_of_beq hadm
    constructor
    · by_cases ht : target = h.sess
      · simp [handAdmits, ht, hh.dev, hh.extraCloser]
      · simp [handAdmits, ht]
    · rintro rfl
      exact hh.take
  | getDevice target =>
    obtain rfl : reply = (s.sessions target).dev := eq_of_beq hadm
    refine ⟨?_, fun _ => hh⟩
    by_cases ht : target = h.sess
    · simp [handAdmits, ht, hh.dev]
    · simp [handAdmits, ht]
  | attach =>
    obtain rfl : reply = s.tunCount := eq_of_beq hadm
    exact ⟨bne_iff_ne.mpr hh.fresh_tun, fun _ => hh.attach who⟩
  | newDevice tun bind =>
    obtain rfl : reply = s.devCount := eq_of_beq hadm
    exact ⟨Bool.and_eq_true_iff.mpr ⟨beq_iff_eq.mpr hh.fresh_dev.1, bne_iff_ne.mpr hh.fresh_dev.2⟩,
      fun hgood => hh.create bind hgood⟩
  | closeDev dev => exact ⟨rfl, fun hgood => hh.close who hgood⟩
  | select netChange =>
    cases reply with
    | netChange ok => exact ⟨hadm, fun _ => hh⟩
    | _ => exact ⟨rfl, fun _ => hh⟩
  | accept | resolvePublicHost | attemptOnX | cloakedAddPeer | cloakedHandshakeTime =>
    exact absurd hadm (by simp [yAdmits])
  | _ => exact ⟨rfl, fun _ => { hh with }⟩

theorem Held.initial (sess : SessionKey) : Held init { sess := sess } where
  state := rfl
  dev := rfl
  extraCloser := rfl
  tuns _ _ ht := absurd ht (by simp)
  known dev hd := absurd hd (by simp [Hand.held])
  attached := by rintro t (ht | ht | ⟨dev, ht⟩) <;> simp at ht
  opened dev hd := absurd hd (by simp [Hand.held])
  nodup := nodup_nil
  unique _ _ _ ht := absurd ht (by simp)
  pending _ ht := absurd ht (by simp)

end

end StarlingWg.Orchestrate
