import StarlingWg.Interaction.Handover
import StarlingWg.Orchestrate.Holding
import Mathlib.Data.List.Nodup

namespace StarlingWg.Orchestrate

open Control Interaction Function Option

-- The goroutines of Y: startY, which is none, and the supervisor of each peer.
abbrev Goroutine (y : Config) := Option (Fin y.peers.length)

def Goroutine.actor {y : Config} : Goroutine y → Actor
  | none => .main
  | some peer => .supervisor peer

abbrev goroutines (y : Config) (g : Goroutine y) : Machine sig YState :=
  yMachine g.actor

-- The session a peer is given. There is no peer after the last.
def Config.sessionKey (y : Config) (peer : Nat) : SessionKey :=
  match y.peers[peer]? with
  | some pc => .addr pc.controlAddr
  | none => .peer 0

def startup (y : Config) : Pool sig (Goroutine y) YState where
  threads
    | none => do
        let _ ← startY y
        return ()
    | some peer => supervisor y peer (y.peers.get peer)
  state := YState.init

-- The shared TUN delivers to this session of it, or the peer's own
-- supervisor took it away.
def YState.DeliversTo (s : YState) (peer : Nat) (t : TunId) : Prop :=
  s.active = some t ∨ s.detachedBy t = some (.supervisor peer)

-- Every Connected session has a device, on a TUN session that is delivered to
-- or was detached by the session's own supervisor.
def Delivering (y : Config) (s : YState) : Prop :=
  ∀ (peer : Nat) (pc : PeerConfig), y.peers[peer]? = some pc →
    (s.sessions (.addr pc.controlAddr)).state.Connected →
    ∃ d t, (s.sessions (.addr pc.controlAddr)).dev = some d ∧ (s.devices d).tun = .session t ∧
      s.DeliversTo peer t

-- The device of a Connected session is not taken from it, and attach finds
-- the shared TUN free or with the device of the attaching supervisor's session.
def undisturbed (y : Config) : Label sig (Goroutine y) YState → Bool
  | .act _ s (.takeDevice target) _ _ => !decide (s.sessions target).state.Connected
  | .act none s .attach _ _ => s.active.isNone
  | .act (some peer) s .attach _ _ => s.active.isNone || s.carries (y.sessionKey peer)
  | _ => true

def Goroutine.index {y : Config} (n : Nat) : Goroutine y → Nat
  | none => n
  | some peer => peer

def Op.spawns : {β : Type} → Op β → Option Nat
  | _, .spawn peer => some peer
  | _, _ => none

section

variable {y : Config} {i j : Nat}

theorem sessionKey_of_some {pc : PeerConfig} (hi : y.peers[i]? = some pc) :
    y.sessionKey i = .addr pc.controlAddr := by
  simp [Config.sessionKey, hi]

theorem sessionKey_inj (hnodup : (y.peers.map (·.controlAddr)).Nodup)
    (hi : i < y.peers.length) (hkey : y.sessionKey j = y.sessionKey i) : j = i := by
  have hsome : y.peers[i]? = some y.peers[i] := List.getElem?_eq_getElem hi
  rw [sessionKey_of_some hsome, Config.sessionKey] at hkey
  split at hkey
  case h_1 pc hj =>
      obtain ⟨hlt, rfl⟩ := List.getElem?_eq_some_iff.mp hj
      have haddr : (y.peers.map (·.controlAddr)).get ⟨j, by simpa using hlt⟩ =
          (y.peers.map (·.controlAddr)).get ⟨i, by simpa using hi⟩ := by
        simpa using SessionKey.addr.inj hkey
      exact congrArg Fin.val (hnodup.get_inj_iff.mp haddr)
  case h_2 => exact SessionKey.noConfusion hkey

theorem sessionKey_ne (hnodup : (y.peers.map (·.controlAddr)).Nodup) (hi : i ≤ y.peers.length)
    (hj : j ≤ y.peers.length) (hne : j ≠ i) : y.sessionKey j ≠ y.sessionKey i := by
  intro hkey
  by_cases hlt : i < y.peers.length
  · exact hne (sessionKey_inj hnodup hlt hkey)
  · exact hne (sessionKey_inj hnodup (by omega) hkey.symm).symm

end

structure Hand.Apart (h h₂ : Hand) : Prop where
  devs : ∀ d tun, h.tuns d = some tun → h₂.tuns d = none
  tuns : ∀ t, h.Knows t → ¬h₂.Knows t

theorem Hand.Apart.symm {h h₂ : Hand} (ha : h.Apart h₂) : h₂.Apart h where
  devs d tun ht := by
    cases hd : h.tuns d with
    | none => rfl
    | some τ => simp [ha.devs d τ hd] at ht
  tuns t hk hk' := ha.tuns t hk' hk

-- The hands of the peers, and of startY once it has no peer left. `n` of the
-- supervisors have been started, startY works for the next peer, and the
-- peers after it are untouched.
structure Shared (y : Config) (n : Nat) (s : YState) (hands : Nat → Hand) : Prop where
  bound : n ≤ y.peers.length
  started : ∀ i < y.peers.length, s.spawned i = decide (i < n)
  unstarted : ∀ i, n < i → hands i = { sess := y.sessionKey i }
  held : ∀ i ≤ y.peers.length, Held s (hands i)
  sess : ∀ i ≤ y.peers.length, (hands i).sess = y.sessionKey i
  apart : ∀ i ≤ y.peers.length, ∀ j ≤ y.peers.length, i ≠ j → (hands i).Apart (hands j)
  mine : ∀ i ≤ y.peers.length, ∀ t, (hands i).mine = some t → s.DeliversTo i t
  connected : ∀ i ≤ y.peers.length, (hands i).state.Connected →
    ∃ d t, (hands i).dev = some d ∧ (hands i).tuns d = some (.session t) ∧ s.DeliversTo i t

section

variable {y : Config} {n i : Nat} {s s' : YState} {hands : Nat → Hand} {h h₂ : Hand} {β : Type}
  {dev : DevId}

theorem Held.other (hj : Held s h₂) (who : Actor) {keys : Nat → SessionKey} {op : Op β} {reply : β}
    (hsess : h₂.sess ≠ h.sess) (hapart : ∀ d tun, h.tuns d = some tun → h₂.tuns d = none)
    (hh : Held s h) (hadm : yAdmits s op reply = true)
    (hgood : (handSpec keys).good h op reply (handEffect (fun _ h => h) h op reply)) :
    Held (yEffect who s op reply) h₂ := by
  -- what a session of its own is set to does not matter to the other
  have hsame : ∀ s' : YState, s'.sessions h₂.sess = s.sessions h₂.sess → s'.devices = s.devices →
      s'.devCount = s.devCount → s'.tunCount = s.tunCount → Held s' h₂ := by
    intro s' hs hd hdc htc
    exact hj.frame hs (fun _ _ => by rw [hd]) (fun _ _ _ _ => by rw [hd]) (Nat.le_of_eq hdc.symm)
      (Nat.le_of_eq htc.symm)
  cases op with
  | setState target state reason =>
    obtain ⟨rfl, -⟩ := hgood
    exact hsame _ (update_of_ne hsess ..) rfl rfl rfl
  | setDevice target dev extraCloser =>
    obtain ⟨rfl, -⟩ := hgood
    exact hsame _ (update_of_ne hsess ..) rfl rfl rfl
  | takeDevice target =>
    obtain rfl : target = h.sess := hgood
    exact hsame _ (update_of_ne hsess ..) rfl rfl rfl
  | attach =>
    exact hj.frame rfl (fun _ _ => rfl) (fun _ _ _ _ => rfl) (Nat.le_refl _) (Nat.le_succ _)
  | newDevice tun bind =>
    have hne : ∀ d, d < s.devCount → (s.openDevice tun bind).devices d = s.devices d :=
      fun d hd => update_of_ne (Nat.ne_of_lt hd) ..
    refine hj.frame rfl (fun d hd => congrArg Device.tun (hne d hd)) (fun d hd t ht => ?_)
      (Nat.le_succ _) (Nat.le_refl _)
    exact congrArg Device.closed (hne d (hj.tuns d _ ht).1)
  | closeDev dev =>
    obtain ⟨tun, hdev⟩ : ∃ tun, h.tuns dev = some tun := by
      rcases hgood with hmem | hnoop
      · exact hh.known dev (List.mem_append_right _ hmem)
      · exact ⟨_, hnoop⟩
    have hne : ∀ d, h₂.tuns d ≠ none → (s.closeDev who dev).devices d = s.devices d := by
      intro d hd
      refine update_of_ne ?_ ..
      rintro rfl
      exact hd (hapart d tun hdev)
    refine hj.frame rfl (fun d hd => ?_) (fun d hd t ht => ?_) (Nat.le_refl _) (Nat.le_refl _)
    · by_cases he : d = dev
      · simp [yEffect, YState.closeDev, he]
      · simp [yEffect, YState.closeDev, he]
    · exact congrArg Device.closed (hne d (by simp [ht]))
  | ipcSet dev conf =>
    cases reply with
    | error err => exact hj
    | ok _ => exact hj.configure dev conf
  | _ => first | exact { hj with } | (cases reply <;> exact { hj with })

theorem Shared.of (hs : Shared y n s hands) (hi : i ≤ n) (hself : Held s' h)
    (hsess : h.sess = (hands i).sess)
    (hothers : ∀ j ≤ y.peers.length, j ≠ i → Held s' (hands j)) (hspawned : s'.spawned = s.spawned)
    (hdevs : ∀ d tun, h.tuns d = some tun → (∃ τ, (hands i).tuns d = some τ) ∨ d = s.devCount)
    (hknows : ∀ t, h.Knows t → (hands i).Knows t ∨ t = s.tunCount)
    (hmine : ∀ t, h.mine = some t → s'.DeliversTo i t)
    (hconnected : h.state.Connected →
      ∃ d t, h.dev = some d ∧ h.tuns d = some (.session t) ∧ s'.DeliversTo i t)
    (hdelivers : ∀ j ≤ y.peers.length, j ≠ i → ∀ t, (hands j).Knows t → s.DeliversTo j t →
      s'.DeliversTo j t) : Shared y n s' (update hands i h) := by
  have hi' : i ≤ y.peers.length := Nat.le_trans hi hs.bound
  -- what is new to this hand is known to no other
  have hapart : ∀ j ≤ y.peers.length, j ≠ i → h.Apart (hands j) := by
    refine fun j hj hne => ⟨fun d tun ht => ?_, fun t ht hk => ?_⟩
    · rcases hdevs d tun ht with ⟨τ, hτ⟩ | rfl
      · exact (hs.apart i hi' j hj hne.symm).devs d τ hτ
      · exact (hs.held j hj).fresh_dev.1
    · rcases hknows t ht with hold | rfl
      · exact (hs.apart i hi' j hj hne.symm).tuns t hold hk
      · exact Nat.lt_irrefl _ ((hs.held j hj).attached _ hk)
  exact
  { bound := hs.bound
    started := fun j hj => hspawned ▸ hs.started j hj
    unstarted := fun j hj => by
      rw [update_of_ne (Nat.ne_of_gt (Nat.lt_of_le_of_lt hi hj))]
      exact hs.unstarted j hj
    held := fun j hj => by
      by_cases he : j = i
      · subst he
        simpa using hself
      · simpa [he] using hothers j hj he
    sess := fun j hj => by
      by_cases he : j = i
      · subst he
        simpa [hsess] using hs.sess j hj
      · simpa [he] using hs.sess j hj
    apart := fun j hj k hk hne => by
      by_cases hji : j = i
      · subst hji
        rw [update_self, update_of_ne hne.symm]
        exact hapart k hk hne.symm
      · rw [update_of_ne hji]
        by_cases hki : k = i
        · subst hki
          rw [update_self]
          exact (hapart j hj hji).symm
        · rw [update_of_ne hki]
          exact hs.apart j hj k hk hne
    mine := fun j hj t ht => by
      by_cases he : j = i
      · subst he
        exact hmine t (by simpa using ht)
      · have ht' : (hands j).mine = some t := by simpa [he] using ht
        exact hdelivers j hj he t (.inl ht') (hs.mine j hj t ht')
    connected := fun j hj hc => by
      by_cases he : j = i
      · subst he
        simpa using hconnected (by simpa using hc)
      · obtain ⟨d, t, hd, ht, hdel⟩ := hs.connected j hj (by simpa [he] using hc)
        rw [update_of_ne he]
        exact ⟨d, t, hd, ht, hdelivers j hj he t (.inr (.inr ⟨d, ht⟩)) hdel⟩ }

theorem Shared.quiet (hs : Shared y n s hands) (hi : i ≤ n) (hself : Held s' h)
    (hothers : ∀ j ≤ y.peers.length, j ≠ i → Held s' (hands j)) (hspawned : s'.spawned = s.spawned)
    (hactive : s'.active = s.active) (hdetached : s'.detachedBy = s.detachedBy)
    (hsess : h.sess = (hands i).sess) (htuns : h.tuns = (hands i).tuns)
    (hmine : h.mine = (hands i).mine) (htun : h.tun = (hands i).tun) (hconnected : h.state.Connected →
      ∃ d t, h.dev = some d ∧ h.tuns d = some (.session t) ∧ s.DeliversTo i t) :
    Shared y n s' (update hands i h) := by
  have hdelivers : ∀ j t, s.DeliversTo j t → s'.DeliversTo j t := by
    intro j t
    rw [YState.DeliversTo, YState.DeliversTo, hactive, hdetached]
    exact id
  refine hs.of hi hself hsess hothers hspawned (fun d tun ht => .inl ⟨tun, htuns ▸ ht⟩)
    (fun t ht => .inl ?_)
    (fun t ht => hdelivers i t (hs.mine i (Nat.le_trans hi hs.bound) t (hmine ▸ ht))) (fun hc => ?_)
    fun j _ _ t _ hd => hdelivers j t hd
  · rwa [Hand.Knows, hmine, htun, htuns] at ht
  · obtain ⟨d, t, hd, ht, hdel⟩ := hconnected hc
    exact ⟨d, t, hd, ht, hdelivers i t hdel⟩

theorem YState.DeliversTo.released {j : Nat} {t t₀ : TunId} (hd : s.DeliversTo j t) (who : Actor)
    (hactive : s.active = some t₀) (he : t ≠ t₀) : s.release who t = some (.supervisor j) := by
  have hdet : s.detachedBy t = some (.supervisor j) := by
    refine hd.resolve_left fun ha => he ?_
    exact Option.some.inj (ha.symm.trans hactive)
  simpa [YState.release, hactive, he] using hdet

theorem Shared.attach (hs : Shared y n s hands) (hi : i ≤ n) (who : Actor)
    (hothers : ∀ j ≤ y.peers.length, j ≠ i → Held (s.attach who) (hands j))
    (hfree : s.active = none ∨ who = .supervisor i ∧ s.carries (y.sessionKey i) = true) :
    Shared y n (s.attach who) (update hands i ((hands i).attach s.tunCount)) := by
  have hi' : i ≤ y.peers.length := Nat.le_trans hi hs.bound
  have hheld := hs.held i hi'
  -- the TUN is taken from nobody, or by the session's supervisor from its own device
  have hdelivers : ∀ j ≤ y.peers.length, ∀ t, (hands j).Knows t → s.DeliversTo j t →
      (s.attach who).DeliversTo j t := by
    intro j hj t hk hd
    rcases hfree with hnone | ⟨rfl, hcarries⟩
    · have hdet : s.detachedBy t = some (.supervisor j) :=
        hd.resolve_left (by simp [hnone])
      exact .inr (by simpa [YState.attach, YState.release, hnone] using hdet)
    · obtain ⟨t₀, hactive, hdev⟩ := (any_eq_true _ _).mp hcarries
      rw [← hs.sess i hi', hheld.dev, beq_iff_eq, map_eq_some_iff] at hdev
      obtain ⟨d, hd₀, htun⟩ := hdev
      obtain ⟨τ, hτ⟩ := hheld.known d (by simp [Hand.held, hd₀])
      obtain rfl : τ = .session t₀ := (hheld.tuns d τ hτ).2.symm.trans htun
      by_cases he : t = t₀
      · subst he
        have hij : j = i := by
          by_contra hne
          exact (hs.apart i hi' j hj (Ne.symm hne)).tuns t (.inr (.inr ⟨d, hτ⟩)) hk
        exact .inr (by simp [YState.attach, YState.release, hactive, hij])
      · exact .inr (hd.released _ hactive he)
  refine hs.of hi (hheld.attach who) rfl hothers rfl (fun d tun ht => .inl ⟨tun, ht⟩) ?_
    (fun t ht => .inl ht) (fun hc => ?_) fun j hj _ t hk hd => hdelivers j hj t hk hd
  · rintro t (ht | ht | ht)
    · exact .inr (Option.some.inj ht).symm
    · exact .inr (Option.some.inj ht).symm
    · exact .inl (.inr (.inr ht))
  · obtain ⟨d, t, hd, ht, hdel⟩ := hs.connected i hi' hc
    exact ⟨d, t, hd, ht, hdelivers i hi' t (.inr (.inr ⟨d, ht⟩)) hdel⟩

theorem Shared.create (hs : Shared y n s hands) (hi : i ≤ n) {tun : Tun} (bind : Bind)
    (hothers : ∀ j ≤ y.peers.length, j ≠ i → Held (s.openDevice tun bind) (hands j))
    (htun : ∀ t, tun = .session t → (hands i).tun = some t) :
    Shared y n (s.openDevice tun bind) (update hands i ((hands i).create s.devCount tun)) := by
  have hi' : i ≤ y.peers.length := Nat.le_trans hi hs.bound
  have hheld := hs.held i hi'
  refine hs.of hi (hheld.create bind htun) rfl hothers rfl (fun d τ ht => ?_) ?_
    (hs.mine i hi') (fun hc => ?_) fun _ _ _ _ _ hd => hd
  · by_cases he : d = s.devCount
    · exact .inr he
    · exact .inl ⟨τ, by simpa [Hand.create, he] using ht⟩
  · rintro t (ht | ht | ⟨d, ht⟩)
    · exact .inl (.inl ht)
    · refine .inl (.inr (.inl ?_))
      simp only [Hand.create] at ht
      split at ht
      · exact ht
      · simp at ht
    · by_cases he : d = s.devCount
      · have hnew : tun = .session t := by simpa [Hand.create, he] using ht
        exact .inl (.inr (.inl (htun t hnew)))
      · exact .inl (.inr (.inr ⟨d, by simpa [Hand.create, he] using ht⟩))
  · obtain ⟨d, t, hd, ht, hdel⟩ := hs.connected i hi' hc
    exact ⟨d, t, hd, (hands i).create_tuns hheld.fresh_dev.1 tun d _ ht, hdel⟩

theorem YState.DeliversTo.close {j : Nat} {t : TunId} (hd : s.DeliversTo j t) (who : Actor)
    (hne : (s.devices dev).tun ≠ .session t) : (s.closeDev who dev).DeliversTo j t := by
  simp only [YState.DeliversTo, YState.closeDev]
  by_cases hholds : s.holds dev = true
  · have hmap : s.active.map Tun.session = some (s.devices dev).tun := by
      have := (Bool.and_eq_true_iff.mp hholds).2
      exact eq_of_beq this
    obtain ⟨t₀, hactive, htun⟩ := map_eq_some_iff.mp hmap
    rw [if_pos hholds, if_pos hholds]
    exact .inr (hd.released who hactive fun he => hne (he ▸ htun.symm))
  · rw [if_neg hholds, if_neg hholds]
    exact hd

theorem Shared.close (hs : Shared y n s hands) (hi : i ≤ n) (who : Actor)
    (hothers : ∀ j ≤ y.peers.length, j ≠ i → Held (s.closeDev who dev) (hands j))
    (hdev : dev ∈ (hands i).devs ∨ (hands i).tuns dev = some .noop) :
    Shared y n (s.closeDev who dev) (update hands i ((hands i).close dev)) := by
  have hi' : i ≤ y.peers.length := Nat.le_trans hi hs.bound
  have hheld := hs.held i hi'
  obtain ⟨τ, hτ⟩ : ∃ τ, (hands i).tuns dev = some τ := by
    rcases hdev with hmem | hnoop
    · exact hheld.known dev (List.mem_append_right _ hmem)
    · exact ⟨_, hnoop⟩
  have htun : (s.devices dev).tun = τ := (hheld.tuns dev τ hτ).2
  refine hs.of hi (hheld.close who hdev) rfl hothers rfl (fun d tun ht => .inl ⟨tun, ht⟩) ?_
    (fun t ht => ?_) (fun hc => ?_) fun j hj hne t hk hd => ?_
  · rintro t (ht | ht | ht)
    · refine .inl (.inl ?_)
      simp only [Hand.close] at ht
      split at ht
      · simp at ht
      · exact ht
    · exact .inl (.inr (.inl ht))
    · exact .inl (.inr (.inr ht))
  · simp only [Hand.close] at ht
    split at ht
    case isTrue => simp at ht
    case isFalse hne =>
        refine (hs.mine i hi' t ht).close who fun he => hne ?_
        rw [hτ, ← htun, he, ht]
        rfl
  · obtain ⟨d, t, hd, ht, hdel⟩ := hs.connected i hi' hc
    refine ⟨d, t, hd, ht, hdel.close who fun he => ?_⟩
    -- otherwise the device closed would be the session's
    have hτt : (hands i).tuns dev = some (.session t) := by rw [hτ, ← htun, he]
    obtain rfl : dev = d := hheld.unique dev d t hτt ht
    have hmem : dev ∈ (hands i).devs := hdev.resolve_right (by simp [hτt])
    exact (List.nodup_append.mp hheld.nodup).2.2 dev (by simp [hd]) dev hmem rfl
  · refine hd.close who fun he => ?_
    have hτt : (hands i).tuns dev = some (.session t) := by rw [hτ, ← htun, he]
    exact (hs.apart i hi' j hj hne.symm).tuns t (.inr (.inr ⟨dev, hτt⟩)) hk

theorem Shared.step (hs : Shared y n s hands) (hnodup : (y.peers.map (·.controlAddr)).Nodup)
    {g : Goroutine y} (hg : g.index n ≤ n) {op : Op β} {reply : β}
    (hadm : yAdmits s op reply = true) (hop : op.spawns = none)
    (hquiet : undisturbed y (.act g s op reply (yEffect g.actor s op reply)) = true)
    (hgood : (handSpec y.sessionKey).good (hands (g.index n)) op reply
      (handEffect (fun _ h => h) (hands (g.index n)) op reply)) :
    Shared y n (yEffect g.actor s op reply) (update hands (g.index n)
        (handEffect (fun _ h => h) (hands (g.index n)) op reply)) := by
  have hi' : g.index n ≤ y.peers.length := Nat.le_trans hg hs.bound
  have hheld := hs.held (g.index n) hi'
  have hself := (hheld.step g.actor y.sessionKey hadm).2 hgood
  have hothers : ∀ j ≤ y.peers.length, j ≠ g.index n →
      Held (yEffect g.actor s op reply) (hands j) := by
    intro j hj hne
    refine (hs.held j hj).other g.actor ?_ (hs.apart _ hi' j hj hne.symm).devs hheld hadm hgood
    rw [hs.sess j hj, hs.sess _ hi']
    exact sessionKey_ne hnodup hi' hj hne
  cases op with
  | spawn peer => simp [Op.spawns] at hop
  | setState target state reason =>
    obtain ⟨rfl, hcarry⟩ := hgood
    refine hs.quiet hg hself hothers rfl rfl rfl rfl rfl rfl rfl fun hc => ?_
    obtain ⟨t, hmine, hdev⟩ := Hand.carrying_iff.mp (hcarry hc)
    obtain ⟨d, hd, ht⟩ := bind_eq_some_iff.mp hdev
    exact ⟨d, t, hd, ht, hs.mine _ hi' t hmine⟩
  | setDevice target dev extraCloser =>
    obtain ⟨rfl, ⟨d, hd, rfl⟩, -, -, hempty⟩ := hgood
    refine hs.quiet hg hself hothers rfl rfl rfl rfl rfl rfl rfl fun hc => ?_
    obtain ⟨d₀, -, hd₀, -⟩ := hs.connected _ hi' hc
    simp [hempty hc] at hd₀
  | takeDevice target =>
    obtain rfl : target = (hands (g.index n)).sess := hgood
    refine hs.quiet hg hself hothers rfl rfl rfl rfl rfl rfl rfl fun hc => ?_
    have hnot : ¬(s.sessions (hands (g.index n)).sess).state.Connected := by
      simpa [undisturbed] using hquiet
    rw [hheld.state] at hnot
    exact absurd hc hnot
  | attach =>
    obtain rfl : reply = s.tunCount := eq_of_beq hadm
    refine hs.attach hg g.actor hothers ?_
    cases g with
    | none => exact .inl (by simpa [undisturbed] using hquiet)
    | some peer =>
      have hfree : s.active = none ∨ s.carries (y.sessionKey peer) = true := by
        simpa [undisturbed] using hquiet
      exact hfree.imp_right fun hc => ⟨rfl, hc⟩
  | newDevice tun bind =>
    obtain rfl : reply = s.devCount := eq_of_beq hadm
    exact hs.create hg bind hothers hgood
  | closeDev dev => exact hs.close hg g.actor hothers hgood
  | _ =>
    first
    | exact hs.quiet hg hself hothers rfl rfl rfl rfl rfl rfl rfl (hs.connected _ hi')
    | (cases reply <;> exact hs.quiet hg hself hothers rfl rfl rfl rfl rfl rfl rfl (hs.connected _ hi'))

theorem Shared.spawn (hs : Shared y n s hands) (hn : n < y.peers.length) :
    Shared y (n + 1) { s with spawned := update s.spawned n true } hands :=
  { hs with
    bound := hn
    started := fun i hi => by
      by_cases he : i = n
      · simp [he]
      · have hiff : i < n + 1 ↔ i < n := by omega
        simpa [he, hiff] using hs.started i hi
    unstarted := fun i hi => hs.unstarted i (Nat.lt_of_succ_lt hi)
    held := fun i hi => { hs.held i hi with } }

theorem Shared.respawn (hs : Shared y n s hands) {spawned : Nat → Bool}
    (hsame : ∀ i < y.peers.length, spawned i = s.spawned i) :
    Shared y n { s with spawned := spawned } hands :=
  { hs with
    started := fun i hi => (hsame i hi).trans (hs.started i hi)
    held := fun i hi => { hs.held i hi with } }

theorem Shared.initial (y : Config) :
    Shared y 0 YState.init fun i => { sess := y.sessionKey i } where
  bound := Nat.zero_le _
  started _ _ := rfl
  unstarted _ _ := rfl
  held i _ := .initial _
  sess _ _ := rfl
  apart i _ j _ _ := ⟨fun d tun ht => absurd ht (by simp), fun t ht => by
    rcases ht with ht | ht | ⟨d, ht⟩ <;> simp at ht⟩
  mine i _ t ht := absurd ht (by simp)
  connected i _ hc := absurd hc (by simp [State.Connected])

theorem Shared.delivering (hs : Shared y n s hands) : Delivering y s := by
  intro peer pc hpc hc
  obtain ⟨hlt, -⟩ := List.getElem?_eq_some_iff.mp hpc
  have hheld := hs.held peer (Nat.le_of_lt hlt)
  have hkey : (hands peer).sess = .addr pc.controlAddr :=
    (hs.sess peer (Nat.le_of_lt hlt)).trans (sessionKey_of_some hpc)
  rw [← hkey, hheld.state] at hc
  obtain ⟨d, t, hd, ht, hdel⟩ := hs.connected peer (Nat.le_of_lt hlt) hc
  exact ⟨d, t, by rw [← hkey, hheld.dev, hd], (hheld.tuns d _ ht).2, hdel⟩

end

section

variable {y : Config}

-- startY begins the next peer with a new hand; after the last there is none.
def nextHand (y : Config) (peer : Nat) (h : Hand) : Hand :=
  if peer < y.peers.length then { sess := y.sessionKey (peer + 1) } else h

def handOf (y : Config) : Goroutine y → Machine sig Hand
  | none => handMachine (nextHand y)
  | some _ => handMachine fun _ h => h

def gate : Goroutine y → Op Unit
  | none => .sleep
  | some peer => .spawned peer

def ReadyFor (y : Config) (g : Goroutine y) (h : Hand) : Prop :=
  ∀ peer, g = some peer → h.sess = y.sessionKey peer ∧ h.devs = []

def Recorded (y : Config) (s : YState) (records : Goroutine y → Hand) : Prop :=
  ∃ n hands, Shared y n s hands ∧ ∀ g, records g = hands (g.index n)

variable {g : Goroutine y} {β : Type}

section

variable {n : Nat} {s : YState} {hands : Nat → Hand} (hs : Shared y n s hands)
include hs

theorem lt_of_awake {peer : Fin y.peers.length}
    (hp : awake (goroutines y) gate s (some peer) = true) : peer.val < n := by
  have hspawned : s.spawned peer = true := hp
  rw [hs.started peer peer.isLt] at hspawned
  exact of_decide_eq_true hspawned

theorem index_le_of_awake (hg : awake (goroutines y) gate s g = true) : g.index n ≤ n := by
  cases g with
  | none => exact Nat.le_refl n
  | some peer => exact Nat.le_of_lt (lt_of_awake hs hg)

theorem index_ne_of_awake {g' : Goroutine y} (hne : g' ≠ g)
    (hg : awake (goroutines y) gate s g = true) (hg' : awake (goroutines y) gate s g' = true) :
    g'.index n ≠ g.index n := by
  cases g with
  | none =>
    cases g' with
    | none => exact absurd rfl hne
    | some peer' => exact Nat.ne_of_lt (lt_of_awake hs hg')
  | some peer =>
    cases g' with
    | none => exact Nat.ne_of_gt (lt_of_awake hs hg)
    | some peer' => exact fun he => hne (congrArg some (Fin.ext he))

end

theorem yEffect_spawned (who : Actor) (s : YState) {op : Op β} (reply : β)
    (hop : op.spawns = none) : (yEffect who s op reply).spawned = s.spawned := by
  cases op with
  | spawn peer => simp [Op.spawns] at hop
  | _ => first | rfl | (cases reply <;> rfl)

theorem handOf_effect (g : Goroutine y) (h : Hand) {op : Op β} (reply : β)
    (hop : op.spawns = none) :
    (handOf y g).effect h op reply = handEffect (fun _ h => h) h op reply := by
  cases g with
  | none =>
    cases op with
    | spawn peer => simp [Op.spawns] at hop
    | _ => first | rfl | (cases reply <;> rfl)
  | some peer => rfl

theorem spawn_keeps (hnodup : (y.peers.map (·.controlAddr)).Nodup) {s : YState}
    {records : Goroutine y → Hand} {peer : Nat} (hr : Recorded y s records)
    (hg : awake (goroutines y) gate s g = true) (hkey : y.sessionKey peer = (records g).sess)
    (hdevs : (records g).devs = []) :
    ∃ records', Recorded y { s with spawned := update s.spawned peer true } records' ∧
      records' g = (handOf y g).effect (records g) (.spawn peer) () ∧
      (∀ other ≠ g, awake (goroutines y) gate s other = true →
        records' other = records other) ∧
      ∀ other : Fin y.peers.length, s.spawned other = false → peer = other →
        ReadyFor y (some other) (records' (some other)) := by
  obtain ⟨n, hands, hs, hrec⟩ := hr
  have hi' : g.index n ≤ y.peers.length := Nat.le_trans (index_le_of_awake hs hg) hs.bound
  rw [hrec g, hs.sess _ hi'] at hkey
  cases g with
  | none =>
    by_cases hn : n < y.peers.length
    · obtain rfl : peer = n := sessionKey_inj hnodup hn hkey
      refine ⟨fun g => hands (g.index (peer + 1)), ⟨_, hands, hs.spawn hn, fun _ => rfl⟩, ?_, ?_, ?_⟩
      · have hnext := hs.unstarted (peer + 1) (Nat.lt_succ_self peer)
        simpa [handOf, handMachine, handEffect, nextHand, hn, Goroutine.index] using hnext
      · intro other hne _
        cases other with
        | none => exact absurd rfl hne
        | some i => exact (hrec (some i)).symm
      · rintro other - rfl i hi
        cases hi
        rw [hrec none] at hdevs
        exact ⟨hs.sess _ hi', hdevs⟩
    · -- after the last peer there is no supervisor to start
      have hout : ¬peer < y.peers.length := fun hlt => by
        have hnp : n = peer := sessionKey_inj hnodup hlt hkey.symm
        exact hn (hnp ▸ hlt)
      have hsame : ∀ i < y.peers.length, update s.spawned peer true i = s.spawned i :=
        fun i hi => update_of_ne (by omega) ..
      refine ⟨records, ⟨n, hands, hs.respawn hsame, hrec⟩, ?_, fun _ _ _ => rfl, ?_⟩
      · simp [handOf, handMachine, handEffect, nextHand, hout]
      · rintro other - rfl
        exact absurd other.isLt hout
  | some i =>
    obtain rfl : peer = i := sessionKey_inj hnodup i.isLt hkey
    have hspawned : s.spawned i = true := hg
    refine ⟨records, ⟨n, hands, hs.respawn fun j _ => ?_, hrec⟩, rfl, fun _ _ _ => rfl, ?_⟩
    · by_cases he : j = i
      · simp [he, hspawned]
      · simp [he]
    · rintro other hfalse he
      rw [← he, hspawned] at hfalse
      exact Bool.noConfusion hfalse

theorem shared_handover (hnodup : (y.peers.map (·.controlAddr)).Nodup) :
    Handover (goroutines y) (handOf y) (handSpec y.sessionKey) gate
      (ReadyFor y) (fun label => undisturbed y label = true) (Recorded y) where
  admits := by
    rintro β s records g op reply ⟨n, hands, hs, hrec⟩ hg hadm
    have hi' := Nat.le_trans (index_le_of_awake hs hg) hs.bound
    have hstep := ((hs.held _ hi').step g.actor y.sessionKey hadm).1
    rw [hrec g]
    cases g with
    | none => exact hstep
    | some peer => exact hstep
  keeps := by
    intro β s records g op reply hr hg hadm hquiet hgood
    cases hop : op.spawns with
    | some peer =>
      cases op with
      | spawn peer =>
        obtain ⟨hkey, hdevs, -⟩ := hgood
        obtain ⟨records', hrec', hself, hothers, hready⟩ := spawn_keeps hnodup hr hg hkey hdevs
        refine ⟨records', hrec', hself, hothers, fun other hother => ?_, fun other hbefore hafter => ?_⟩
        · cases other with
          | none => rfl
          | some i =>
            have hi : s.spawned i = true := hother
            show update s.spawned peer true i = true
            by_cases he : i.val = peer
            · simp [he]
            · simpa [he] using hi
        · cases other with
          | none => exact Bool.noConfusion hbefore
          | some i =>
            have hi : s.spawned i = false := hbefore
            have hi' : update s.spawned peer true i = true := hafter
            refine hready i hi ?_
            by_contra he
            rw [update_of_ne (Ne.symm he), hi] at hi'
            exact Bool.noConfusion hi'
      | _ => simp [Op.spawns] at hop
    | none =>
      obtain ⟨n, hands, hs, hrec⟩ := hr
      rw [handOf_effect g _ reply hop, hrec g] at hgood
      rw [handOf_effect g _ reply hop, hrec g]
      have hstep := hs.step hnodup (index_le_of_awake hs hg) hadm hop hquiet hgood
      have hawake : ∀ other, awake (goroutines y) gate (yEffect g.actor s op reply) other =
          awake (goroutines y) gate s other
        | none => rfl
        | some peer => congrFun (yEffect_spawned g.actor s reply hop) peer
      refine ⟨_, ⟨n, _, hstep, fun _ => rfl⟩, update_self .., ?_, ?_, ?_⟩
      · intro other hne hother
        rw [hrec other]
        exact update_of_ne (index_ne_of_awake hs hne hg hother) ..
      · exact fun other hother => (hawake other).trans hother
      · intro other hbefore hafter
        exact absurd ((hawake other).symm.trans hafter) (by simp [hbefore])

theorem startPeers_holds (peers : List PeerConfig) (peer : Nat) (firstErr : Option String)
    {h : Hand} (hpeers : y.peers.drop peer = peers) (hsess : h.sess = y.sessionKey peer)
    (hdevs : h.devs = []) :
    handWp (nextHand y) y.sessionKey (startPeers peer peers firstErr) (fun _ _ => True) h := by
  induction peers generalizing peer firstErr h with
  | nil => trivial
  | cons pc rest ih =>
    have hpc : y.peers[peer]? = some pc := by
      rw [← List.head?_drop, hpeers]
      rfl
    have hlt : peer < y.peers.length := (List.getElem?_eq_some_iff.mp hpc).1
    have hrest : y.peers.drop (peer + 1) = rest := by
      rw [← List.tail_drop, hpeers]
      rfl
    have hkey : y.sessionKey peer = .addr pc.controlAddr := sessionKey_of_some hpc
    have hnext : ∀ h', nextHand y peer h' = { sess := y.sessionKey (peer + 1) } := fun h' =>
      if_pos hlt
    unfold startPeers
    simp only [wp_bind, wp_hand, handPre, wp_call]
    refine fun lastMode => ⟨⟨(hsess.trans hkey).symm, hdevs⟩, ?_⟩
    rintro (err | _) h' hd
    all_goals
      simp only [wp_bind, wp_hand, handPre, hnext]
      exact ⟨⟨(hd.sess.trans hsess).symm, hd.devs, hd.settled⟩, ih (peer + 1) _ hrest rfl rfl⟩

theorem startup_stands (y : Config) :
    ∃ records, (startup y).Stands (goroutines y) (handOf y) (handSpec y.sessionKey) gate
      (ReadyFor y) (Recorded y) records := by
  refine ⟨_, ⟨0, _, .initial y, fun _ => rfl⟩, fun g hg => ?_, fun g hg => ?_⟩
  · cases g with
    | none =>
      show handWp (nextHand y) _ (startY y >>= fun _ => pure ()) _ _
      rw [handWp, wp_bind]
      exact startPeers_holds y.peers 0 none rfl rfl rfl
    | some peer => exact Bool.noConfusion hg
  · cases g with
    | none => exact Bool.noConfusion hg
    | some peer =>
      refine ⟨.perform, fun h hready => ?_⟩
      obtain ⟨hsess, hdevs⟩ := hready peer rfl
      have hpc : y.peers[peer.val]? = some (y.peers.get peer) := by simp
      show handWp (fun _ h => h) _ (supervisor y peer (y.peers.get peer)) _ h
      unfold supervisor
      simp only [wp_bind, wp_hand, handPre]
      exact superviseY_holds (by rw [hsess, sessionKey_of_some hpc]) hdevs

end

theorem delivering_of_undisturbed (x y : Config) (hnodup : (y.peers.map (·.controlAddr)).Nodup)
    {labels : List (Label sig (Goroutine y) YState)} {pool : Pool sig (Goroutine y) YState}
    (hr : Pool.Steps (bodies x y) (goroutines y) (fun _ _ => False) (startup y) labels pool)
    (hquiet : ∀ label ∈ labels, undisturbed y label = true) : Delivering y pool.state := by
  have hverified : ∀ g : Goroutine y, Verified (bodies x y) (handOf y g) (handSpec y.sessionKey) := by
    intro g
    cases g with
    | none => exact hand_verified x y _ _
    | some peer => exact hand_verified x y _ _
  obtain ⟨⟨records, hstands⟩, -⟩ := hr.along (fun label => undisturbed y label = true)
    (fun _ => True)
    (fun pool => ∃ records, pool.Stands (goroutines y) (handOf y) (handSpec y.sessionKey) gate
      (ReadyFor y) (Recorded y) records) hquiet (startup_stands y)
    fun pool label next hl hstep ⟨records, hp⟩ =>
      ⟨hp.step (shared_handover hnodup) hverified hstep hl, trivial⟩
  obtain ⟨n, hands, hs, -⟩ := hstands.rel
  exact hs.delivering

def twoPeers : Config :=
  { sampleY with peers := [samplePeer, ⟨5, "203.0.113.2:51820", []⟩] }

def startsY (y : Config) (inbox : ConnId → List Message)
    (allowed : Label sig (Goroutine y) YState → Bool) (schedule : List (Goroutine y)) :
    Option (Pool sig (Goroutine y) YState) :=
  Pool.replay (bodies sampleX y) (goroutines y) (fun _ s => YOutcomes.scripted {} inbox s) allowed
    schedule (startup y)

theorem startsY_reaches (y : Config) (inbox : ConnId → List Message)
    (allowed : Label sig (Goroutine y) YState → Bool) (schedule : List (Goroutine y))
    (P : Pool sig (Goroutine y) YState → Bool)
    (h : (startsY y inbox allowed schedule).any P = true) :
    ∃ labels pool, Pool.Steps (bodies sampleX y) (goroutines y) (fun _ _ => False) (startup y)
        labels pool ∧ (∀ label ∈ labels, allowed label = true) ∧ P pool = true :=
  Pool.reaches_of_replay (fun _ _ => False) P h

-- Both supervisors run after startY: the first peer has failed and is tried
-- again, the second has its liveness checked.
theorem delivering_of_undisturbed_second : ∃ labels pool,
    Pool.Steps (bodies sampleX twoPeers) (goroutines twoPeers) (fun _ _ => False)
      (startup twoPeers) labels pool ∧
    (pool.state.sessions (.addr "203.0.113.2:51820")).state = .connectedNative ∧
    Delivering twoPeers pool.state := by
  obtain ⟨labels, pool, hr, hquiet, hp⟩ :=
    startsY_reaches twoPeers (fun c => if c = 1 then sampleInbox else []) (undisturbed twoPeers)
      (List.replicate 35 none ++ List.replicate 12 (some (1 : Fin 2)) ++
        List.replicate 12 (some (0 : Fin 2)))
      (fun pool => (pool.state.sessions (.addr "203.0.113.2:51820")).state == .connectedNative)
      (by decide)
  exact ⟨labels, pool, hr, eq_of_beq hp,
    delivering_of_undisturbed sampleX twoPeers (by decide) hr hquiet⟩

theorem second_peer_takes_tun : ∃ labels pool, twoPeers.validate = .ok () ∧
    Pool.Steps (bodies sampleX twoPeers) (goroutines twoPeers) (fun _ _ => False)
      (startup twoPeers) labels pool ∧ ¬Delivering twoPeers pool.state := by
  obtain ⟨labels, pool, hr, -, hp⟩ :=
    startsY_reaches twoPeers (fun _ => sampleInbox) (fun _ => true) (List.replicate 52 none)
      (fun pool => decide ((pool.state.sessions (.addr samplePeer.controlAddr)).state.Connected ∧
        (pool.state.sessions (.addr samplePeer.controlAddr)).dev = some 0 ∧
        (pool.state.devices 0).tun = .session 0 ∧ pool.state.active = some 1 ∧
        pool.state.detachedBy 0 = some .main)) (by decide)
  obtain ⟨hc, hdev, htun, hactive, hdet⟩ := of_decide_eq_true hp
  refine ⟨labels, pool, rfl, hr, fun hdel => ?_⟩
  obtain ⟨d, t, hd, ht, hto⟩ := hdel 0 samplePeer rfl hc
  obtain rfl : 0 = d := Option.some.inj (hdev.symm.trans hd)
  obtain rfl : 0 = t := Tun.session.inj (htun.symm.trans ht)
  rcases hto with ha | hb
  · simp [hactive] at ha
  · simp [hdet] at hb

end StarlingWg.Orchestrate
