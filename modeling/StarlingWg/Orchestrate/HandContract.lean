import StarlingWg.Orchestrate.Hand

namespace StarlingWg.Orchestrate

open Control Interaction Function Option

section

@[simp] def handPre (onSpawn : Nat → Hand → Hand) (keys : Nat → SessionKey) (h : Hand) :
    {β : Type} → Op β → (β → Hand → Prop) → Prop
  | _, .send _ _, Q => (∀ err, Q (.error err) h.strand.drop) ∧ Q (.ok ()) h
  | _, .recv _, Q => (∀ err, Q (.error err) h.drop) ∧ ∀ msg, Q (.ok msg) h
  | _, .ipcSet _ _, Q => (∀ err, Q (.error err) h.strand) ∧ Q (.ok ()) h
  | _, .up _, Q => (∀ err, Q (.error err) h.strand) ∧ Q (.ok ()) h
  | _, .setState target state _, Q =>
    (target = h.sess ∧ (state.Connected → h.carrying = true)) ∧ Q () (h.withState state)
  | _, .getState target, Q => target = h.sess ∧ Q h.state h
  | _, .setDevice target dev extraCloser, Q =>
    (handSpec keys).good h (.setDevice target dev extraCloser) () h ∧ Q () (h.put dev extraCloser)
  | _, .takeDevice target, Q => target = h.sess ∧ Q (h.dev, h.extraCloser) h.take
  | _, .getDevice target, Q => target = h.sess ∧ Q h.dev h
  | _, .singleFamilyUDP _, Q =>
    (∀ err, Q (.error err) h) ∧ ∀ socket, Q (.ok socket) { h with socks := socket :: h.socks }
  | _, .closeSocket socket, Q => Q () { h with socks := h.socks.erase socket }
  | _, .attach, Q => ∀ t, h.dev.bind h.tuns ≠ some (.session t) →
    (h.state ≠ .idle ∧ h.state ≠ .failed) ∧ Q t (h.attach t)
  | _, .newDevice tun _, Q => ∀ dev, h.tuns dev = none → h.dev ≠ some dev →
    (∀ t, tun = .session t → h.tun = some t) ∧ Q dev (h.create dev tun)
  | _, .closeDev dev, Q => (dev ∈ h.devs ∨ h.tuns dev = some .noop) ∧ Q () (h.close dev)
  | _, .select netChange, Q =>
    Q .ctxDone h ∧ (netChange = true → ∀ ok, Q (.netChange ok) h) ∧ Q .liveness h
  | _, .spawn peer, Q => (keys peer = h.sess ∧ h.devs = [] ∧ h.Settled) ∧ Q () (onSpawn peer h)
  | _, .spawned _, Q => Q () h
  | _, .nilDevice, _ | _, .accept _, _ | _, .resolvePublicHost _, _ | _, .attemptOnX _ _ _, _
  | _, .cloakedAddPeer _ _, _ | _, .cloakedHandshakeTime _, _ => True
  | _, .dial _ _, Q | _, .closeConn _, Q | _, .parsePrefixes _, Q | _, .resolveX _, Q
  | _, .characterize _ _ _, Q | _, .punch _ _, Q | _, .handshakeTime _ _, Q | _, .rxBytes _ _, Q
  | _, .randomSessionID, Q | _, .now, Q | _, .sleep, Q | _, .loadSession _, Q
  | _, .saveSession _ _ _, Q | _, .subscribe, Q => ∀ reply, Q reply h

abbrev handWp (onSpawn : Nat → Hand → Hand) (keys : Nat → SessionKey) {α : Type} (program : Prog α)
    (Q : α → Hand → Prop) (h : Hand) : Prop :=
  wp (handMachine onSpawn) (handSpec keys) program Q h

variable {onSpawn : Nat → Hand → Hand} {keys : Nat → SessionKey} {h : Hand}

theorem wp_hand {β : Type} {op : Op β} {Q : β → Hand → Prop} :
    handWp onSpawn keys (perform op) Q h ↔ handPre onSpawn keys h op Q := by
  constructor
  · intro hw
    cases op with
    | send | ipcSet | up => exact ⟨fun err => (hw (.error err) rfl).2, (hw (.ok ()) rfl).2⟩
    | recv | singleFamilyUDP =>
      exact ⟨fun err => (hw (.error err) rfl).2, fun value => (hw (.ok value) rfl).2⟩
    | setState | setDevice | closeDev | spawn => exact hw () rfl
    | closeSocket | spawned => exact (hw () rfl).2
    | getState | takeDevice | getDevice => exact hw _ (by simp [handMachine, handAdmits])
    | attach => exact fun t ht => hw t (bne_iff_ne.mpr ht)
    | newDevice =>
      exact fun dev hdev hne => hw dev
        (Bool.and_eq_true_iff.mpr ⟨beq_iff_eq.mpr hdev, bne_iff_ne.mpr hne⟩)
    | select =>
      exact ⟨(hw .ctxDone rfl).2, fun hn ok => (hw (.netChange ok) hn).2, (hw .liveness rfl).2⟩
    | nilDevice | accept | resolvePublicHost | attemptOnX | cloakedAddPeer | cloakedHandshakeTime =>
      trivial
    | _ => exact fun reply => (hw reply rfl).2
  · intro hq reply hadm
    cases op with
    | send | ipcSet | up =>
      rcases reply with err | _
      · exact ⟨trivial, hq.1 err⟩
      · exact ⟨trivial, hq.2⟩
    | recv | singleFamilyUDP =>
      rcases reply with err | value
      · exact ⟨trivial, hq.1 err⟩
      · exact ⟨trivial, hq.2 value⟩
    | setState | setDevice | closeDev | spawn => exact hq
    | closeSocket | spawned => exact ⟨trivial, hq⟩
    | getState | takeDevice | getDevice =>
      obtain ⟨rfl, hq⟩ := hq
      simp only [handMachine, handAdmits, bne_self_eq_false, Bool.false_or, beq_iff_eq] at hadm
      subst hadm
      exact ⟨rfl, hq⟩
    | attach => exact hq reply (bne_iff_ne.mp hadm)
    | newDevice =>
      obtain ⟨hdev, hne⟩ := Bool.and_eq_true_iff.mp hadm
      exact hq reply (beq_iff_eq.mp hdev) (bne_iff_ne.mp hne)
    | select =>
      rcases reply with _ | ok | _
      · exact ⟨trivial, hq.1⟩
      · exact ⟨trivial, hq.2.1 hadm ok⟩
      · exact ⟨trivial, hq.2.2⟩
    | nilDevice => exact reply.elim
    | accept | resolvePublicHost | attemptOnX | cloakedAddPeer | cloakedHandshakeTime =>
      exact Bool.noConfusion hadm
    | _ => exact ⟨trivial, hq reply⟩

end

section

theorem mem_of_eq_cons {α : Type} {a : α} {l : List α} (hl : l = a :: l.tail) : a ∈ l := by
  rw [hl]
  exact List.mem_cons_self ..

theorem erase_of_eq_cons {α : Type} [BEq α] [LawfulBEq α] {a : α} {l : List α}
    (hl : l = a :: l.tail) : l.erase a = l.tail := by
  rw [hl]
  simp

variable {h h' : Hand}

theorem Hand.create_tuns {dev : DevId} (hdev : h.tuns dev = none) (tun : Tun) (d : DevId) (τ : Tun)
    (hd : h.tuns d = some τ) : (h.create dev tun).tuns d = some τ := by
  have hne : d ≠ dev := by
    rintro rfl
    simp [hdev] at hd
  simpa [Hand.create, update_of_ne hne] using hd

theorem Hand.create_carrying {dev : DevId} (hdev : h.tuns dev = none) (tun : Tun)
    (hc : h.carrying = true) : (h.create dev tun).carrying = true := by
  obtain ⟨t, hmine, htun⟩ := Hand.carrying_iff.mp hc
  obtain ⟨d, hsome, ht⟩ := bind_eq_some_iff.mp htun
  exact Hand.carrying_iff.mpr
    ⟨t, hmine, bind_eq_some_iff.mpr ⟨d, hsome, h.create_tuns hdev tun d _ ht⟩⟩

theorem Hand.withState_vacant : (h.withState .probing).Vacant := by
  intro hr
  simp only [Hand.withState, decide_true, Bool.true_and, Bool.or_eq_false_iff] at hr
  show h.dev = none
  simpa using hr.2

theorem Hand.Done.of {h₁ : Hand} (hd : h₁.Done h') (hsess : h₁.sess = h.sess)
    (htuns : ∀ dev tun, h.tuns dev = some tun → h₁.tuns dev = some tun)
    (hsocks : h₁.socks = h.socks) (hstranded : h₁.stranded = h.stranded) : h.Done h' where
  sess := hd.sess.trans hsess
  tuns dev tun ht := hd.tuns dev tun (htuns dev tun ht)
  devs := hd.devs
  socks hdrop := (hd.socks hdrop).trans hsocks
  stranded := hd.stranded.trans hstranded
  settled := hd.settled

theorem Hand.Done.refl (hdevs : h.devs = []) (hnc : ¬h.state.Connected) : h.Done h where
  sess := rfl
  tuns _ _ ht := ht
  devs := hdevs
  socks _ := rfl
  stranded := rfl
  settled hc := absurd hc hnc

theorem Hand.Done.failed (hdevs : h.devs = []) : h.Done (h.withState .failed) where
  sess := rfl
  tuns _ _ ht := ht
  devs := hdevs
  socks _ := rfl
  stranded := rfl
  settled hc := absurd hc (show ¬State.failed.Connected by decide)

theorem Hand.Returned.refl (hdevs : h.devs = []) : h.Returned h where
  sess := rfl
  tuns _ _ ht := ht
  devs := hdevs
  socks _ := rfl

theorem Hand.Verdict.refl : h.Verdict h := fun hc _ hs => iff_of_true (fun _ => hc) hs

theorem Hand.Verdict.strand : h.Verdict h.strand := by
  intro hc ha hs
  rw [Hand.strand_of_ahead ha]
  exact iff_of_true (fun _ => hc) hs

theorem Hand.close_noop {dev : DevId} (hdev : h.tuns dev = some .noop) :
    h.close dev = { h with devs := h.devs.erase dev } := by
  have hne : h.mine.map Tun.session ≠ h.tuns dev := by
    rw [hdev]
    cases h.mine <;> simp
  simp only [Hand.close, hne, ↓reduceIte]

end

section

variable {onSpawn : Nat → Hand → Hand} {keys : Nat → SessionKey} {h : Hand} {cfg : Config}
  {cc : ConnId} {pc : PeerConfig} {allowedIPs : List Prefix} {info : XInfo} {xAddr : Addr}
  {hint : ModeHint} {sup : Supervision} {sess : SessionKey} {ySocket probeSocket : SockId} {t : TunId}
  {dev yDev probeDev : DevId} {externalAddr : AddrPort} {sid : SessionID} {deadline : Int} {peer : Key}
  {state : State} {reason : GoString} {tun : Tun} {bind : Bind} {params : CloakedParams}

theorem failed_not_connected : ¬State.failed.Connected := by decide

theorem probing_not_connected : ¬State.probing.Connected := by decide

abbrev Hand.Upgraded (h : Hand) (gaveUp : Hand → Prop) (result : Bool) (h' : Hand) : Prop :=
  (result = true → Hand.Returned { h with socks := h.socks.tail } h') ∧ (result = false → gaveUp h')

theorem connectXInfo_holds {Q : Except String (ConnId × XInfo × Addr) → Hand → Prop}
    (hs : h.state ≠ .nativeAttempting) (hok : ∀ r, Q r h) (herr : ∀ err, Q (.error err) h.strand) :
    handWp onSpawn keys (connectXInfo cfg pc) Q h := by
  have hdrop : h.drop = h := Hand.drop_of_ne hs
  have hstrand : h.strand.drop = h.strand := Hand.drop_of_ne hs
  unfold connectXInfo
  simp only [wp_bind, wp_hand, handPre]
  rintro (err | cc)
  · exact hok _
  simp only [wp_bind, wp_hand, handPre, wp_pure, hdrop, hstrand]
  refine ⟨fun _ _ => herr _, fun _ _ => hok _, fun msg => ?_⟩
  cases msg with
  | hello m =>
    simp only [wp_bind, wp_hand, handPre, wp_pure, hdrop]
    refine ⟨fun _ _ => hok _, fun msg => ?_⟩
    cases msg with
    | xInfo info =>
      simp only [wp_bind, wp_hand, handPre]
      rintro (err | xAddr)
      · simp only [wp_bind, wp_hand, handPre, wp_pure]
        exact fun _ => hok _
      · exact hok _
    | _ =>
      simp only [wp_bind, wp_hand, handPre, wp_pure]
      exact fun _ => hok _
  | _ =>
    simp only [wp_bind, wp_hand, handPre, wp_pure]
    exact fun _ => hok _

theorem preparePassiveDevice_holds {Q : Except String DevId → Hand → Prop}
    (htun : ∀ t, tun = .session t → h.tun = some t)
    (herr : ∀ dev err, h.tuns dev = none → Q (.error err) ((h.create dev tun).strand.close dev))
    (hok : ∀ dev, h.tuns dev = none → h.dev ≠ some dev → Q (.ok dev) (h.create dev tun)) :
    handWp onSpawn keys (preparePassiveDevice cfg pc allowedIPs tun bind) Q h := by
  unfold preparePassiveDevice
  simp only [wp_bind, wp_hand, handPre, wp_pure]
  intro dev hdev hne
  have hmem : dev ∈ (h.create dev tun).strand.devs ∨
      (h.create dev tun).strand.tuns dev = some .noop := .inl (List.mem_cons_self ..)
  exact ⟨htun, fun err => ⟨hmem, herr dev _ hdev⟩, fun err => ⟨hmem, herr dev _ hdev⟩,
    hok dev hdev hne⟩

theorem pollY_holds : handWp onSpawn keys (pollY dev peer deadline) (fun _ h' => h' = h) h := by
  unfold pollY
  simp only [wp_bind, wp_hand, handPre]
  intro t
  split
  · simp only [wp_bind, wp_hand, handPre]
    rintro (_ | _ | seen)
    · simp only [wp_bind, wp_hand, handPre, wp_call]
      exact fun _ => ⟨trivial, fun _ _ hp => hp⟩
    · simp only [wp_bind, wp_hand, handPre, wp_call]
      exact fun _ => ⟨trivial, fun _ _ hp => hp⟩
    · rfl
  · rfl

theorem install_holds {extraCloser : Option SockId} {mode : String}
    {externalAddr : Option AddrPort} {Q : Hand → Prop} (hsess : .addr pc.controlAddr = h.sess)
    (hdev : dev ∈ h.devs) (hsock : ∀ socket, extraCloser = some socket → socket ∈ h.socks)
    (hvacant : h.Vacant) (hempty : h.state.Connected → h.dev = none) (hmine : h.mine = some t)
    (htun : h.tuns dev = some (.session t))
    (hq : ((h.put (some dev) extraCloser).withState state).carrying = true →
      Q ((h.put (some dev) extraCloser).withState state)) :
    handWp onSpawn keys
      (install pc dev extraCloser state reason mode externalAddr) (fun _ => Q) h := by
  have hcarry : (h.put (some dev) extraCloser).carrying = true :=
    Hand.carrying_iff.mpr ⟨t, hmine, htun⟩
  unfold install
  simp only [wp_bind, wp_hand, handPre]
  exact ⟨⟨hsess, ⟨dev, hdev, rfl⟩, hsock, hvacant, hempty⟩, ⟨hsess, fun _ => hcarry⟩, fun _ => hq hcarry⟩

theorem waitForNativeReady_holds (hstate : h.state = .connectedCloaked) :
    handWp onSpawn keys (waitForNativeReady cc sid deadline) (fun _ h' => h' = h) h := by
  have hdrop : h.drop = h := Hand.drop_of_ne (by simp [hstate])
  have hagain : handWp onSpawn keys (invoke (.waitForNativeReady cc sid deadline))
      (fun _ h' => h' = h) h := ⟨hstate, fun _ _ hp => hp⟩
  unfold waitForNativeReady
  simp only [wp_bind, wp_hand, handPre]
  intro t
  split
  · simp only [wp_bind, wp_hand, handPre, hdrop]
    refine ⟨fun err => rfl, fun msg => ?_⟩
    cases msg with
    | nativeReady m =>
      dsimp only
      split
      · rfl
      · exact hagain
    | nativeFailed m =>
      dsimp only
      split
      · rfl
      · exact hagain
    | _ => exact hagain
  · rfl

def Hand.cleared (h : Hand) : Hand :=
  { h with
    dev := none
    extraCloser := none
    mine := match h.dev with
      | none => h.mine
      | some dev => if h.mine.map Tun.session = h.tuns dev then none else h.mine }

theorem closeDevice_holds {Q : Hand → Prop} (hsess : sess = h.sess) (hq : Q h.cleared) :
    handWp onSpawn keys (closeDevice sess) (fun _ => Q) h := by
  unfold closeDevice
  simp only [wp_bind, wp_hand, handPre]
  refine ⟨hsess, ?_⟩
  cases hdev : h.dev with
  | none =>
    cases hextra : h.extraCloser with
    | none => simpa [Hand.cleared, Hand.take, hdev, hextra] using hq
    | some socket =>
      simp only [wp_hand, handPre]
      simpa [Hand.cleared, Hand.take, hdev, hextra] using hq
  | some dev =>
    simp only [wp_bind, wp_hand, handPre]
    refine ⟨.inl (by simp [Hand.take, hdev]), ?_⟩
    cases hextra : h.extraCloser with
    | none => simpa [Hand.cleared, Hand.take, Hand.close, hdev, hextra] using hq
    | some socket =>
      simp only [wp_hand, handPre]
      simpa [Hand.cleared, Hand.take, Hand.close, hdev, hextra] using hq

-- A failure between the attach of the handoff and its second answer: the new
-- device is closed, and with it the TUN session that was attached last.
theorem Hand.Verdict.stranded (hstate : h.state = .connectedCloaked) :
    h.Verdict (((h.attach t).create dev (.session t)).strand.close dev) := by
  intro _ ha _
  have hmine : (((h.attach t).create dev (.session t)).strand.close dev).mine = none := by
    simp [Hand.close, Hand.strand, Hand.create, Hand.attach]
  constructor
  · intro hsettled
    have hc := hsettled (.inr hstate)
    simp [Hand.carrying, hmine] at hc
  · intro hs
    simp [Hand.close, Hand.strand, Hand.create, Hand.attach, ha, hstate, State.Connected] at hs

theorem Hand.cleared_mine (ht : h.dev.bind h.tuns ≠ some (.session t)) (hne : h.dev ≠ some dev) :
    ((h.attach t).create dev (.session t)).cleared.mine = some t := by
  cases hd : h.dev with
  | none => simp [Hand.cleared, Hand.create, Hand.attach, hd]
  | some d =>
    have hdd : d ≠ dev := fun he => hne (by rw [hd, he])
    have htun : h.tuns d ≠ some (.session t) := by simpa [hd] using ht
    simp [Hand.cleared, Hand.create, Hand.attach, hd, hdd, htun.symm]

variable (hsess : .addr pc.controlAddr = h.sess)

include hsess

theorem connectCloaked_holds (hstate : h.state = .probing)
    (hvacant : h.Vacant) (hdevs : h.devs = []) :
    handWp onSpawn keys (connectCloaked cfg pc allowedIPs params) (fun _ h' => h.Done h') h := by
  have hnc : ¬h.state.Connected := by simp [hstate, State.Connected]
  unfold connectCloaked
  simp only [wp_bind, wp_hand, handPre]
  intro t _
  refine ⟨by simp [hstate], fun dev hfresh _ => ⟨fun _ ht => congrArg some (Tun.session.inj ht), ?_⟩⟩
  have hdev : dev ∈ ((h.attach t).create dev (.session t)).devs := List.mem_cons_self ..
  have hstrand : ((h.attach t).create dev (.session t)).strand =
      (h.attach t).create dev (.session t) := Hand.strand_of_not_connected hnc
  -- every failure closes the device and leaves the session Failed
  have hfail : h.Done ((((h.attach t).create dev (.session t)).close dev).withState .failed) :=
    { sess := rfl
      tuns := Hand.create_tuns hfresh _
      devs := by simp [Hand.attach, Hand.create, Hand.close, Hand.withState, hdevs]
      socks := fun _ => rfl
      stranded := rfl
      settled := failed_not_connected.elim }
  rw [hstrand]
  refine ⟨fun err => ⟨.inl hdev, ⟨hsess, failed_not_connected.elim⟩, hfail⟩,
    fun err => ⟨.inl hdev, ⟨hsess, failed_not_connected.elim⟩, hfail⟩, ?_⟩
  simp only [wp_call]
  refine fun start => ⟨trivial, ?_⟩
  rintro seen _ rfl
  cases seen with
  | false =>
    simp only [Bool.false_eq_true, ↓reduceIte, wp_bind, wp_hand, handPre]
    exact ⟨.inl hdev, ⟨hsess, failed_not_connected.elim⟩, hfail⟩
  | true =>
    refine install_holds hsess hdev (by simp) hvacant (fun hc => absurd hc hnc) rfl
      (update_self ..) fun hcarry => ?_
    exact
    { sess := rfl
      tuns := Hand.create_tuns hfresh _
      devs := by simp [Hand.attach, Hand.create, Hand.put, Hand.withState, hdevs]
      socks := fun _ => rfl
      stranded := rfl
      settled := fun _ => hcarry }

theorem cloakedWait_holds (hstate : h.state = .probing) (hvacant : h.Vacant) (hdevs : h.devs = []) :
    handWp onSpawn keys (cloakedWait cfg cc pc allowedIPs) (fun _ h' => h.Done h') h := by
  have hdrop : h.drop = h := Hand.drop_of_ne (by simp [hstate])
  unfold cloakedWait
  simp only [wp_bind, wp_hand, handPre, wp_pure, hdrop]
  refine ⟨fun err => ⟨⟨hsess, failed_not_connected.elim⟩, .failed hdevs⟩, fun msg => ?_⟩
  cases msg with
  | cloakedParams params =>
    exact connectCloaked_holds hsess hstate hvacant hdevs
  | _ => exact ⟨⟨hsess, hstate, hvacant, hdevs⟩, fun _ _ hp => hp⟩

theorem runYCloaked_holds (hdevs : h.devs = []) :
    handWp onSpawn keys (runYCloaked cc pc allowedIPs) (fun _ h' => h.Done h') h := by
  unfold runYCloaked
  simp only [wp_bind, wp_hand, handPre, wp_call]
  refine ⟨⟨hsess, probing_not_connected.elim⟩, ⟨hsess, rfl, Hand.withState_vacant, hdevs⟩,
    fun _ h' hp => ?_⟩
  exact hp.of rfl (fun _ _ ht => ht) rfl rfl

theorem nativeWait_holds (ha : h.Armed ySocket yDev) :
    handWp onSpawn keys (nativeWait cc pc allowedIPs ySocket yDev externalAddr sid)
      (fun _ h' => Hand.Done { h with socks := h.socks.tail } h') h := by
  obtain ⟨t, hmine, htun⟩ := ha.attached
  have hdev : yDev ∈ h.devs := by simp [ha.devs]
  have hclosed : h.devs.erase yDev = [] := by simp [ha.devs]
  have hreleased : h.socks.erase ySocket = h.socks.tail := erase_of_eq_cons ha.socks
  have hsock : ∀ socket, some ySocket = some socket → socket ∈ h.socks := by
    intro socket he
    exact Option.some.inj he ▸ mem_of_eq_cons ha.socks
  have hagain : handWp onSpawn keys
      (invoke (.nativeWait cc pc allowedIPs ySocket yDev externalAddr sid))
      (fun _ h' => Hand.Done { h with socks := h.socks.tail } h') h :=
    ⟨⟨hsess, ha⟩, fun _ _ hp => hp⟩
  unfold nativeWait
  simp only [wp_bind, wp_hand, handPre]
  refine ⟨fun err => ⟨.inl hdev, ⟨hsess, failed_not_connected.elim⟩, ?_⟩, fun msg => ?_⟩
  · -- the socket stays behind, and it is on record
    exact
    { sess := rfl
      tuns := fun _ _ ht => ht
      devs := hclosed
      socks := fun hd => by simp [Hand.drop, Hand.close, Hand.withState, ha.state] at hd
      stranded := rfl
      settled := failed_not_connected.elim }
  cases msg with
  | nativeReady m =>
    by_cases hsid : m.sessionID = sid
    · simp only [hsid, ↓reduceIte, wp_bind, wp_pure]
      refine install_holds hsess hdev hsock ha.vacant
        (fun hc => absurd hc (by simp [ha.state, State.Connected])) hmine htun fun hcarry => ?_
      exact
      { sess := rfl
        tuns := fun _ _ ht => ht
        devs := hclosed
        socks := fun _ => hreleased
        stranded := rfl
        settled := fun _ => hcarry }
    · simp only [hsid, ↓reduceIte]
      exact hagain
  | nativeFailed m =>
    by_cases hsid : m.sessionID = sid
    · simp only [hsid, ↓reduceIte, wp_bind, wp_hand, handPre]
      refine ⟨.inl hdev, ⟨hsess, failed_not_connected.elim⟩, ?_⟩
      refine wp_mono (runYCloaked_holds hsess hclosed) fun _ h' hd => ?_
      exact hd.of rfl (fun _ _ ht => ht) hreleased rfl
    · simp only [hsid, ↓reduceIte]
      exact hagain
  | _ => exact hagain

theorem reportNative_holds
    (hstate : h.state = .nativeAttempting) (hvacant : h.Vacant) (hdevs : h.devs = [])
    (hsocks : h.socks = ySocket :: h.socks.tail) :
    handWp onSpawn keys (reportNative cfg cc pc allowedIPs ySocket externalAddr)
      (fun _ h' => Hand.Done { h with socks := h.socks.tail } h') h := by
  have hnc : ¬h.state.Connected := by simp [hstate, State.Connected]
  have hreleased : h.socks.erase ySocket = h.socks.tail := erase_of_eq_cons hsocks
  unfold reportNative
  simp only [wp_bind, wp_hand, handPre]
  intro t _
  refine ⟨by simp [hstate], ?_⟩
  apply preparePassiveDevice_holds
  · exact fun _ ht => congrArg some (Tun.session.inj ht)
  · intro dev err hfresh
    rw [Hand.strand_of_not_connected (show ¬((h.attach t).create dev _).state.Connected from hnc)]
    simp only [wp_bind, wp_hand, handPre, wp_pure]
    refine ⟨⟨hsess, failed_not_connected.elim⟩, ?_⟩
    exact
    { sess := rfl
      tuns := Hand.create_tuns hfresh _
      devs := by simp [Hand.attach, Hand.create, Hand.close, Hand.withState, hdevs]
      socks := fun _ => hreleased
      stranded := rfl
      settled := failed_not_connected.elim }
  · intro yDev hfresh _
    have hdev : yDev ∈ ((h.attach t).create yDev (.session t)).devs := List.mem_cons_self ..
    simp only [wp_bind, wp_hand, handPre, wp_call]
    refine fun sid => ⟨fun err => ?_, ⟨hsess, ?_⟩, fun _ h' hp => ?_⟩
    · rw [Hand.strand_of_not_connected (show ¬((h.attach t).create yDev _).state.Connected from hnc)]
      refine ⟨.inl hdev, ⟨hsess, failed_not_connected.elim⟩, ?_⟩
      exact
      { sess := rfl
        tuns := Hand.create_tuns hfresh _
        devs := by simp [Hand.attach, Hand.create, Hand.drop, Hand.close, Hand.withState, hdevs]
        socks := fun hd => by
          simp [Hand.attach, Hand.create, Hand.drop, Hand.close, Hand.withState, hstate] at hd
        stranded := rfl
        settled := failed_not_connected.elim }
    · exact
      { state := hstate
        vacant := hvacant
        devs := by simp [Hand.attach, Hand.create, hdevs]
        socks := hsocks
        attached := ⟨t, rfl, update_self ..⟩ }
    · exact hp.of rfl (Hand.create_tuns hfresh _) rfl rfl

omit hsess in
theorem decideCloaked_holds (onError : String → Prog (Except String Unit))
    (hsess : .addr pc.controlAddr = h.sess) (hdevs : h.devs = []) (hnc : ¬h.state.Connected)
    (hna : h.state ≠ .nativeAttempting)
    (herr : ∀ err, handWp onSpawn keys (onError err) (fun _ h' => h.Done h') h) :
    handWp onSpawn keys (decideCloaked cc pc allowedIPs reason onError)
      (fun _ h' => h.Done h') h := by
  unfold decideCloaked
  simp only [wp_bind, wp_hand, handPre, Hand.strand_of_not_connected hnc, Hand.drop_of_ne hna]
  exact ⟨herr, runYCloaked_holds hsess hdevs⟩

theorem giveUpNative_holds (hdevs : h.devs = []) (hsocks : h.socks = ySocket :: h.socks.tail) :
    handWp onSpawn keys (giveUpNative cc pc allowedIPs ySocket reason)
      (fun _ h' => Hand.Done { h with socks := h.socks.tail } h') h := by
  have hreleased : h.socks.erase ySocket = h.socks.tail := erase_of_eq_cons hsocks
  unfold giveUpNative
  simp only [wp_bind, wp_hand, handPre]
  refine ⟨⟨hsess, failed_not_connected.elim⟩, ?_⟩
  refine wp_mono (decideCloaked_holds _ hsess hdevs failed_not_connected (by simp [Hand.withState])
    fun err => ?_) fun _ h' hd => ?_
  · exact Hand.Done.refl hdevs failed_not_connected
  · exact hd.of rfl (fun _ _ ht => ht) hreleased rfl

theorem negotiateY_holds (hvacant : h.Vacant) (hdevs : h.devs = []) :
    handWp onSpawn keys (negotiateY cfg cc info xAddr pc hint) (fun _ h' => h.Done h') h := by
  have hattempting : ¬State.nativeAttempting.Connected := by decide
  unfold negotiateY
  simp only [wp_bind, wp_hand, handPre]
  rintro (err | allowedIPs)
  · simp only [wp_bind, wp_hand, handPre, wp_pure]
    exact ⟨⟨hsess, failed_not_connected.elim⟩, .failed hdevs⟩
  by_cases hhint : hint = .cloaked
  · simp only [hhint, ↓reduceIte, wp_bind, wp_hand, handPre]
    refine ⟨⟨hsess, probing_not_connected.elim⟩, ?_⟩
    refine wp_mono (decideCloaked_holds _ hsess hdevs probing_not_connected (by simp [Hand.withState])
      fun err => ?_) fun _ h' hd => hd.of rfl (fun _ _ ht => ht) rfl rfl
    simp only [wp_bind, wp_hand, handPre, wp_pure]
    exact ⟨⟨hsess, failed_not_connected.elim⟩, .failed hdevs⟩
  simp only [hhint, ↓reduceIte, wp_bind, wp_hand, handPre, wp_pure]
  refine ⟨fun err => ⟨⟨hsess, failed_not_connected.elim⟩, .failed hdevs⟩, fun ySocket => ?_⟩
  rintro (err | result)
  · exact giveUpNative_holds hsess hdevs rfl
  by_cases hcone : result.natClass = .cone
  · simp only [hcone, ↓reduceIte, wp_bind, wp_hand, handPre]
    refine ⟨⟨hsess, fun hc => absurd hc hattempting⟩, ?_⟩
    rintro (err | _)
    · simp only [wp_bind, wp_hand, handPre, wp_pure]
      refine ⟨⟨hsess, failed_not_connected.elim⟩, ?_⟩
      exact
      { sess := rfl
        tuns := fun _ _ ht => ht
        devs := hdevs
        socks := fun _ => by simp [Hand.withState]
        stranded := rfl
        settled := failed_not_connected.elim }
    · refine wp_mono (reportNative_holds hsess rfl ?_ hdevs
        rfl) fun _ h' hd => hd.of rfl (fun _ _ ht => ht) rfl rfl
      exact fun hr => hvacant (by simpa [Hand.withState] using hr)
  · simp only [hcone, ↓reduceIte]
    exact giveUpNative_holds hsess hdevs rfl

theorem runY_holds (hdevs : h.devs = []) :
    handWp onSpawn keys (runY cfg pc hint) (fun _ h' => h.Done h') h := by
  unfold runY deferring
  simp only [wp_bind, wp_hand, handPre]
  refine ⟨⟨hsess, probing_not_connected.elim⟩, ?_⟩
  have hfail : ∀ err : String, handWp onSpawn keys (do
        perform (.setState (.addr pc.controlAddr) .failed err)
        return (.error err : Except String Unit))
      (fun _ h' => h.Done h') (h.withState .probing) := by
    intro err
    simp only [wp_bind, wp_hand, handPre, wp_pure]
    refine ⟨⟨hsess, failed_not_connected.elim⟩, ?_⟩
    exact (Hand.Done.failed (h := h.withState .probing) hdevs).of rfl (fun _ _ ht => ht) rfl rfl
  refine connectXInfo_holds (by simp [Hand.withState]) ?_ fun err => ?_
  · rintro (err | ⟨cc, info, xAddr⟩)
    · exact hfail err
    · simp only [wp_bind, wp_hand, handPre, wp_pure]
      refine wp_mono (negotiateY_holds hsess Hand.withState_vacant
        hdevs) fun _ h' hd _ => hd.of rfl (fun _ _ ht => ht) rfl rfl
  · rw [Hand.strand_of_not_connected probing_not_connected]
    exact hfail err

theorem handoff_holds (hstate : h.state = .connectedCloaked) (hdevs : h.devs = [])
    (hsocks : h.socks = probeSocket :: h.socks.tail) :
    handWp onSpawn keys (handoff cfg cc pc allowedIPs probeSocket externalAddr)
      (h.Upgraded fun h' => h.Returned h' ∧ h.Verdict h') h := by
  have hreleased : h.socks.erase probeSocket = h.socks.tail := erase_of_eq_cons hsocks
  unfold handoff
  simp only [wp_bind, wp_hand, handPre]
  intro t ht
  refine ⟨by simp [hstate], ?_⟩
  apply preparePassiveDevice_holds
  · exact fun _ he => congrArg some (Tun.session.inj he)
  · intro dev err hfresh
    refine ⟨by simp, fun _ => ⟨?_, .stranded hstate⟩⟩
    exact
    { sess := rfl
      tuns := Hand.create_tuns hfresh _
      devs := by simp [Hand.attach, Hand.create, Hand.strand, Hand.close, hdevs]
      socks := fun _ => rfl }
  intro realDev hfresh hne
  have hdev : realDev ∈ ((h.attach t).create realDev (.session t)).devs := List.mem_cons_self ..
  have hclosed : ((h.attach t).create realDev (.session t)).devs.erase realDev = [] := by
    simp [Hand.attach, Hand.create, hdevs]
  have htuns : ∀ dev tun, h.tuns dev = some tun →
      ((h.attach t).create realDev (.session t)).tuns dev = some tun := Hand.create_tuns hfresh _
  have hsock : ∀ socket, some probeSocket = some socket → socket ∈ h.socks := by
    intro socket he
    exact Option.some.inj he ▸ mem_of_eq_cons hsocks
  simp only [wp_bind, wp_hand, handPre, wp_call, wp_pure]
  refine fun sid2 => ⟨fun err => ⟨.inl hdev, ?_⟩, fun start => ⟨hstate, ?_⟩⟩
  · have hna : ((h.attach t).create realDev (.session t)).strand.state ≠ .nativeAttempting := by
      simp [Hand.attach, Hand.create, Hand.strand, hstate]
    refine ⟨by simp, fun _ => ⟨?_, .stranded hstate⟩⟩
    exact { sess := rfl, tuns := htuns, devs := hclosed, socks := fun _ => rfl }
  rintro ready _ rfl
  cases ready with
  | true =>
    simp only [↓reduceIte, wp_bind, wp_pure]
    refine closeDevice_holds hsess ?_
    refine install_holds hsess hdev hsock (fun _ => rfl) (fun _ => rfl) (Hand.cleared_mine ht hne)
      (update_self ..) fun _ => ?_
    refine ⟨fun _ => ?_, by simp⟩
    exact { sess := rfl, tuns := htuns, devs := hclosed, socks := fun _ => hreleased }
  | false =>
    simp only [Bool.false_eq_true, ↓reduceIte, wp_bind, wp_hand, handPre, wp_call, wp_pure]
    refine ⟨.inl hdev, ⟨hsess, hclosed⟩, fun _ h' hd => ⟨by simp, fun _ => ?_⟩⟩
    have hdone : h.Done h' := hd.of rfl htuns rfl rfl
    exact ⟨hdone.toReturned, fun _ _ hs => iff_of_true hdone.settled (hdone.stranded.trans hs)⟩

theorem backgroundWait_holds (hp : h.Probing probeSocket probeDev) : handWp onSpawn keys
      (backgroundWait cfg cc pc allowedIPs probeSocket probeDev externalAddr sid deadline)
      (h.Upgraded (h.GaveUp probeDev)) h := by
  have hdrop : h.drop = h := Hand.drop_of_ne (by simp [hp.state])
  have hclosed : h.devs.erase probeDev = [] := by simp [hp.devs]
  have hstop : h.GaveUp probeDev h :=
    { sess := rfl
      tuns := fun _ _ ht => ht
      devs := hclosed
      socks := fun _ => rfl
      verdict := .refl }
  have hagain : handWp onSpawn keys
      (invoke (.backgroundWait cc pc allowedIPs probeSocket probeDev externalAddr sid deadline))
      (h.Upgraded (h.GaveUp probeDev)) h := ⟨⟨hsess, hp⟩, fun _ _ hq => hq⟩
  unfold backgroundWait
  simp only [wp_bind, wp_hand, handPre]
  intro t
  split
  · simp only [wp_bind, wp_hand, handPre, hdrop]
    refine ⟨fun err => ⟨by simp, fun _ => hstop⟩, fun msg => ?_⟩
    cases msg with
    | nativeReady m =>
      dsimp only
      split
      · simp only [wp_bind, wp_hand, handPre]
        rw [Hand.close_noop hp.noop, hclosed]
        refine ⟨.inr hp.noop, wp_mono (handoff_holds hsess hp.state rfl hp.socks)
          fun result h' hq => ⟨fun hr => ?_, fun hr => ?_⟩⟩
        · exact { hq.1 hr with }
        · obtain ⟨hret, hverdict⟩ := hq.2 hr
          exact { hret with devs := by simp [hret.devs], verdict := hverdict }
      · exact hagain
    | nativeFailed m =>
      dsimp only
      split
      · exact ⟨by simp, fun _ => hstop⟩
      · exact hagain
    | _ => exact hagain
  · exact ⟨by simp, fun _ => hstop⟩

theorem probeNative_holds (hp : h.Probing probeSocket probeDev) :
    handWp onSpawn keys (probeNative cfg cc pc allowedIPs probeSocket probeDev externalAddr)
      (h.Upgraded (h.GaveUp probeDev)) h := by
  have hna : h.strand.state ≠ .nativeAttempting := by simp [Hand.strand, hp.state]
  unfold probeNative
  simp only [wp_bind, wp_hand, handPre, wp_call, wp_pure, Hand.drop_of_ne hna]
  refine fun sid => ⟨fun err => ⟨by simp, fun _ => ?_⟩,
    fun start => ⟨⟨hsess, hp⟩, fun _ _ hq => hq⟩⟩
  exact
  { sess := rfl
    tuns := fun _ _ ht => ht
    devs := by simp [Hand.strand, hp.devs]
    socks := fun _ => rfl
    verdict := .strand }

theorem probeOn_holds (hstate : h.state = .connectedCloaked) (hdevs : h.devs = [])
    (hsocks : h.socks = probeSocket :: h.socks.tail) :
    handWp onSpawn keys (probeOn cfg cc info xAddr pc allowedIPs probeSocket)
      (h.Upgraded fun h' => h.Returned h' ∧ h.Verdict h') h := by
  have hstop : h.Returned h ∧ h.Verdict h := ⟨.refl hdevs, .refl⟩
  unfold probeOn deferring
  simp only [wp_bind, wp_hand, handPre]
  rintro (err | result)
  · exact ⟨by simp, fun _ => hstop⟩
  by_cases hcone : result.natClass = .cone
  · simp only [hcone, ↓reduceIte, wp_bind, wp_hand, handPre]
    rintro (err | _)
    · exact ⟨by simp, fun _ => hstop⟩
    simp only [wp_bind]
    apply preparePassiveDevice_holds
    · exact fun t ht => Tun.noConfusion ht
    · intro dev err hfresh
      have hnoop : (h.create dev .noop).strand.tuns dev = some .noop := update_self ..
      rw [Hand.close_noop hnoop]
      refine ⟨by simp, fun _ => ⟨?_, fun hc ha hs => ?_⟩⟩
      · exact
        { sess := rfl
          tuns := Hand.create_tuns hfresh _
          devs := by simp [Hand.create, Hand.strand, hdevs]
          socks := fun _ => rfl }
      · have hcarry := h.create_carrying hfresh .noop hc
        rw [Hand.strand_of_ahead (show (h.create dev .noop).handoff = .ahead from ha)]
        exact iff_of_true (fun _ => hcarry) hs
    · intro probeDev hfresh _
      have hprobing : (h.create probeDev .noop).Probing probeSocket probeDev :=
        { state := hstate
          devs := by simp [Hand.create, hdevs]
          socks := hsocks
          noop := update_self .. }
      simp only [wp_bind]
      refine wp_mono (probeNative_holds hsess hprobing) fun succeeded h' hq => ?_
      cases succeeded with
      | true =>
        have hret := hq.1 rfl
        refine ⟨fun _ => ?_, by simp⟩
        exact { hret with tuns := fun d τ ht => hret.tuns d τ (h.create_tuns hfresh _ d τ ht) }
      | false =>
        have hgave := hq.2 rfl
        have hnoop : h'.tuns probeDev = some .noop := hgave.tuns _ _ hprobing.noop
        simp only [Bool.false_eq_true, ↓reduceIte, wp_hand, handPre, wp_pure]
        rw [Hand.close_noop hnoop]
        refine ⟨.inr hnoop, by simp, fun _ => ⟨?_, fun hc ha hs => ?_⟩⟩
        · exact
          { sess := hgave.sess
            tuns := fun d τ ht => hgave.tuns d τ (h.create_tuns hfresh _ d τ ht)
            devs := hgave.devs
            socks := hgave.socks }
        · exact hgave.verdict (h.create_carrying hfresh _ hc) ha hs
  · simp only [hcone, ↓reduceIte]
    exact ⟨by simp, fun _ => hstop⟩

theorem upgradeOn_holds (hstate : h.state = .connectedCloaked) (hdevs : h.devs = []) :
    handWp onSpawn keys (upgradeOn cfg cc info xAddr pc)
      (fun result h' => h.Returned h' ∧ (result = false → h.Verdict h')) h := by
  have hstop : h.Returned h ∧ (false = false → h.Verdict h) := ⟨.refl hdevs, fun _ => .refl⟩
  unfold upgradeOn deferring
  simp only [wp_bind, wp_hand, handPre]
  rintro (err | allowedIPs)
  · exact hstop
  simp only [wp_bind, wp_hand, handPre]
  refine ⟨fun err => hstop, fun probeSocket => ?_⟩
  refine wp_mono (probeOn_holds hsess hstate hdevs rfl) fun succeeded h' hq => ?_
  cases succeeded with
  | true => exact ⟨{ hq.1 rfl with }, by simp⟩
  | false =>
    obtain ⟨hret, hverdict⟩ := hq.2 rfl
    simp only [Bool.false_eq_true, ↓reduceIte, wp_hand, handPre, wp_pure]
    refine ⟨{ hret with socks := fun hd => ?_ }, fun _ => hverdict⟩
    simp [hret.socks hd]

theorem attemptBackgroundNative_holds (hstate : h.state = .connectedCloaked) (hdevs : h.devs = []) :
    handWp onSpawn keys (attemptBackgroundNative cfg pc)
      (fun result h' => h.Returned h' ∧ (result = false → h.Verdict h')) h := by
  unfold attemptBackgroundNative deferring
  simp only [wp_bind]
  refine connectXInfo_holds (by simp [hstate]) ?_ fun err => ?_
  · rintro (err | ⟨cc, info, xAddr⟩)
    · exact ⟨.refl hdevs, fun _ => .refl⟩
    · simp only [wp_bind, wp_hand, handPre, wp_pure]
      exact wp_mono (upgradeOn_holds hsess hstate hdevs) fun _ _ hq _ => hq
  · exact ⟨{ Hand.Returned.refl hdevs with }, fun _ => .strand⟩

variable (hdevs : h.devs = [])

include hdevs

theorem reconnect_holds : handWp onSpawn keys (reconnect pc hint sup) (fun _ _ => True) h := by
  unfold reconnect
  exact ⟨⟨hsess, hdevs⟩, fun _ h' hd => ⟨⟨hsess.trans hd.sess.symm, hd.devs⟩, fun _ _ _ => trivial⟩⟩

theorem retryNative_holds :
    handWp onSpawn keys (retryNative cfg pc h.state sup) (fun _ _ => True) h := by
  have hagain : ∀ (sup' : Supervision) {h' : Hand}, h'.sess = h.sess → h'.devs = [] →
      handWp onSpawn keys (invoke (.supervise pc sup')) (fun _ _ => True) h' :=
    fun _ _ hs hd => ⟨⟨hsess.trans hs.symm, hd⟩, fun _ _ _ => trivial⟩
  unfold retryNative
  dsimp only
  split
  case isTrue hcond =>
      simp only [wp_bind, wp_hand, handPre]
      intro t
      split
      · simp only [wp_bind, wp_hand, handPre, wp_call]
        refine fun attempted => ⟨⟨hsess, hcond.1, hdevs⟩, fun result h' hq => ?_⟩
        cases result with
        | true => exact hagain _ hq.1.sess hq.1.devs
        | false => exact hagain _ hq.1.sess hq.1.devs
      · exact hagain sup rfl hdevs
  case isFalse => exact hagain sup rfl hdevs

theorem checkLiveness_holds :
    handWp onSpawn keys (checkLiveness cfg pc h.state sup) (fun _ _ => True) h := by
  unfold checkLiveness
  simp only [wp_bind, wp_hand, handPre]
  refine ⟨hsess, ?_⟩
  cases h.dev with
  | none =>
    simp only [wp_bind, wp_hand, handPre]
  | some dev =>
    simp only [wp_bind, wp_hand, handPre]
    intro reading t since
    split
    · simp only [wp_bind]
      exact closeDevice_holds hsess (reconnect_holds hsess hdevs)
    · exact retryNative_holds hsess hdevs

theorem supervise_holds : handWp onSpawn keys (supervise cfg pc sup) (fun _ _ => True) h := by
  unfold supervise
  simp only [wp_bind, wp_hand, handPre]
  refine ⟨trivial, fun _ ok => ?_, ?_⟩
  · cases ok with
    | false => exact ⟨⟨hsess, hdevs⟩, fun _ _ _ => trivial⟩
    | true =>
      simp only [wp_bind]
      exact closeDevice_holds hsess (reconnect_holds hsess hdevs)
  · have hcheck : handWp onSpawn keys (checkLiveness cfg pc h.state sup)
        (fun _ _ => True) h := checkLiveness_holds hsess hdevs
    refine ⟨hsess, ?_⟩
    cases hs : h.state with
    | connectedNative =>
      rw [hs] at hcheck
      exact hcheck
    | connectedCloaked =>
      rw [hs] at hcheck
      exact hcheck
    | failed => exact reconnect_holds hsess hdevs
    | idle => exact reconnect_holds hsess hdevs
    | probing => exact ⟨⟨hsess, hdevs⟩, fun _ _ _ => trivial⟩
    | nativeAttempting => exact ⟨⟨hsess, hdevs⟩, fun _ _ _ => trivial⟩

theorem superviseY_holds : handWp onSpawn keys (superviseY cfg pc) (fun _ _ => True) h := by
  unfold superviseY
  split
  · simp only [wp_bind, wp_hand, handPre]
    rintro (err | _)
    · exact ⟨⟨hsess, hdevs⟩, fun _ _ _ => trivial⟩
    · exact ⟨⟨hsess, hdevs⟩, fun _ _ _ => trivial⟩
  · exact ⟨⟨hsess, hdevs⟩, fun _ _ _ => trivial⟩

end

theorem loneY_holds {h : Hand} (cfg : Config) (pc : PeerConfig)
    (hsess : .addr pc.controlAddr = h.sess) (hdevs : h.devs = []) :
    handWp (fun _ h => h) (fun _ => .addr pc.controlAddr) (loneY cfg pc) (fun _ _ => True) h := by
  unfold loneY startPeers
  simp only [wp_bind, wp_hand, handPre, wp_call]
  refine fun lastMode => ⟨⟨hsess, hdevs⟩, ?_⟩
  rintro (err | _) h' hd
  · simp only [wp_bind, wp_hand, handPre]
    have hsess' : .addr pc.controlAddr = h'.sess := hsess.trans hd.sess.symm
    exact ⟨⟨hsess', hd.devs, hd.settled⟩, superviseY_holds hsess' hd.devs⟩
  · simp only [wp_bind, wp_hand, handPre]
    have hsess' : .addr pc.controlAddr = h'.sess := hsess.trans hd.sess.symm
    exact ⟨⟨hsess', hd.devs, hd.settled⟩, superviseY_holds hsess' hd.devs⟩

theorem hand_verified (x y : Config) (onSpawn : Nat → Hand → Hand) (keys : Nat → SessionKey) :
    Verified (bodies x y) (handMachine onSpawn) (handSpec keys) := by
  intro β p h hpre
  cases p with
  | serveX => exact hpre.elim
  | pollX => exact hpre.elim
  | runY pc hint => exact runY_holds hpre.1 hpre.2
  | nativeWait cc pc allowedIPs ySocket yDev externalAddr sid =>
    exact nativeWait_holds hpre.1 hpre.2
  | cloakedWait cc pc allowedIPs =>
    exact cloakedWait_holds hpre.1 hpre.2.1 hpre.2.2.1 hpre.2.2.2
  | pollY dev peer deadline => exact pollY_holds
  | attemptBackgroundNative pc =>
    exact attemptBackgroundNative_holds hpre.1 hpre.2.1 hpre.2.2
  | backgroundWait cc pc allowedIPs probeSocket probeDev externalAddr sid deadline =>
    exact backgroundWait_holds hpre.1 hpre.2
  | waitForNativeReady cc sid deadline => exact waitForNativeReady_holds hpre
  | supervise pc sup => exact supervise_holds hpre.1 hpre.2

end StarlingWg.Orchestrate
