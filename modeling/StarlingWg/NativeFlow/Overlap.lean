import StarlingWg.NativeFlow.Attempt
import Mathlib.Data.Fintype.Basic

namespace StarlingWg.NativeFlow

open Control Interaction Function Option
open Orchestrate (AttemptResult)

variable {ι : Type}

-- The shared native device under any number of attempts. The rest is
-- history: how far each attempt has come, which one called AddPeer last for a
-- key, which ones another AddPeer has overwritten while they were polling,
-- the same at the last handshake of a key, and whether the handshake that an
-- attempt saw last came after it had been overwritten.
structure Shared (ι : Type) where
  device : Device
  clock : Time
  phase : ι → Phase := fun _ => .waiting
  latest : Key → Option ι := fun _ => none
  overwritten : ι → Bool := fun _ => false
  stale : Key → ι → Bool := fun _ _ => false
  misled : ι → Bool := fun _ => false

def Op.configures : {β : Type} → Op β → Option Key
  | _, .removePeer pk => some pk
  | _, .addPeer pk _ _ => some pk
  | _, _ => none

section

variable [DecidableEq ι] (persistentKeepalive : Int) (attempts : ι → Attempt)

def Device.call (dev : Device) : {β : Type} → Op β → β → Device
  | _, .removePeer pk, reply => dev.configure (removePeerLines pk) reply
  | _, .addPeer pk endpoint allowedIPs, reply =>
    dev.configure (addPeerLines persistentKeepalive pk (some endpoint) allowedIPs) reply
  | _, _, _ => dev

-- An IpcGet that fails makes HandshakeTime report that the peer is not there.
def sharedAdmits (s : Shared ι) : {β : Type} → Op β → β → Bool
  | _, .removePeer pk, reply => mayReturn (removePeerLines pk) reply
  | _, .addPeer pk endpoint allowedIPs, reply =>
    mayReturn (addPeerLines persistentKeepalive pk (some endpoint) allowedIPs) reply
  | _, .handshakeTime pk, found => found == none || found == s.device.handshakeTime pk
  | _, .now, t => t == s.clock
  | _, _, _ => true

def Shared.latestAfter (s : Shared ι) (thread : ι) : {β : Type} → Op β → Key → Option ι
  | _, .addPeer pk _ _ => update s.latest pk (some thread)
  | _, _ => s.latest

def Shared.overwrittenAfter (s : Shared ι) (thread : ι) : {β : Type} → Op β → ι → Bool
  | _, .addPeer pk _ _ => fun i => s.overwritten i ||
      (decide (i ≠ thread) && decide ((attempts i).remotePub = pk) && decide (s.phase i).Open)
  | _, _ => s.overwritten

def Shared.misledAfter (s : Shared ι) (thread : ι) : {β : Type} → Op β → ι → Bool
  | _, .handshakeTime pk => update s.misled thread (s.stale pk thread)
  | _, _ => s.misled

def sharedMachine (thread : ι) : Machine sig (Shared ι) where
  admits := fun s {_} op reply => sharedAdmits persistentKeepalive s op reply
  effect := fun s {_} op reply =>
    { device := s.device.call persistentKeepalive op reply
      clock := s.clock
      phase := update s.phase thread ((s.phase thread).step op reply)
      latest := s.latestAfter thread op
      overwritten := s.overwrittenAfter attempts thread op
      stale := s.stale
      misled := s.misledAfter thread op }

def Shared.handshake (s : Shared ι) (pk : Key) : Shared ι :=
  match s.device.peers pk with
  | none => s
  | some _ =>
    { s with
      device := s.device.modify (some pk) fun p =>
        some { p with lastHandshakeNano := s.clock - unixEpoch }
      stale := update s.stale pk s.overwritten }

inductive Environment : Shared ι → Shared ι → Prop
  | tick (s : Shared ι) (t : Time) : Environment s { s with clock := t }
  | handshake (s : Shared ι) (pk : Key) : Environment s (s.handshake pk)

def launch (dev : Device) (clock : Time) : Pool sig ι (Shared ι) where
  threads i := (attempts i).program
  state := { device := dev, clock := clock }

-- The attempt that called AddPeer last for its key and succeeded has its peer
-- in place once the attempts for that key have returned or not begun, and no
-- attempt took for its own a handshake made after it was overwritten.
structure Intact (s : Shared ι) : Prop where
  kept : ∀ i result, s.latest (attempts i).remotePub = some i → s.phase i = .returned result →
    result.success = true → (∀ j, (attempts j).remotePub = (attempts i).remotePub →
      s.phase j = .waiting ∨ ∃ r, s.phase j = .returned r) →
    s.device.Dials (attempts i).remotePub (attempts i).externalAddr
  own : ∀ i result, s.phase i = .returned result → result.success = true → s.misled i = false

-- The peer of a key is removed or added only while no other attempt is
-- between its AddPeer and its return.
def Exclusive : Label sig ι (Shared ι) → Prop
  | .act thread s op _ _ => ∀ j, j ≠ thread → op.configures = some (attempts j).remotePub →
      ¬(s.phase j).Open
  | _ => True

instance [Fintype ι] (label : Label sig ι (Shared ι)) : Decidable (Exclusive attempts label) := by
  cases label <;> dsimp only [Exclusive] <;> infer_instance

end

section

variable {persistentKeepalive : Int} {attempts : ι → Attempt} {s : Shared ι} {thread : ι}

-- What the exclusion of other calls keeps true. A peer that is gone under the
-- attempt that succeeded last is gone because another one is about to add it.
structure Coherent (attempts : ι → Attempt) (s : Shared ι) : Prop where
  overwritten : ∀ i, s.overwritten i = false
  stale : ∀ pk i, s.stale pk i = false
  misled : ∀ i, s.misled i = false
  holder : ∀ i, (s.phase i).Open → s.latest (attempts i).remotePub = some i
  dials : ∀ i, (s.phase i).Open → (attempts i).remotePub ≠ s.device.publicKey →
    s.device.Dials (attempts i).remotePub (attempts i).externalAddr
  found : ∀ i, s.phase i = .opened true → (attempts i).remotePub ≠ s.device.publicKey
  kept : ∀ i result, s.phase i = .returned result → result.success = true →
    s.latest (attempts i).remotePub = some i →
    s.device.Dials (attempts i).remotePub (attempts i).externalAddr ∨
      ∃ j, (attempts j).remotePub = (attempts i).remotePub ∧ s.phase j = .cleared

theorem Coherent.intact (h : Coherent attempts s) : Intact attempts s where
  kept i result hlatest hphase hsuccess hall := by
    rcases h.kept i result hphase hsuccess hlatest with hd | ⟨j, hkey, hj⟩
    · exact hd
    · rcases hall j hkey with hw | ⟨r, hr⟩
      · simp [hj] at hw
      · simp [hj] at hr
  own i _ _ _ := h.misled i

structure Moved (attempts : ι → Attempt) (thread : ι) (s s' : Shared ι) : Prop where
  phase : ∀ i, i ≠ thread → s'.phase i = s.phase i
  publicKey : s'.device.publicKey = s.device.publicKey
  overwritten : ∀ i, s'.overwritten i = false
  stale : ∀ pk i, s'.stale pk i = false
  misled : ∀ i, s'.misled i = false
  dials : ∀ i, i ≠ thread → (s.phase i).Open →
    s.device.Dials (attempts i).remotePub (attempts i).externalAddr →
    s'.device.Dials (attempts i).remotePub (attempts i).externalAddr
  latest : ∀ i, i ≠ thread → (s.phase i).Open →
    s'.latest (attempts i).remotePub = s.latest (attempts i).remotePub
  kept : ∀ i, i ≠ thread → s'.latest (attempts i).remotePub = some i →
    s.latest (attempts i).remotePub = some i ∧
      (s.device.Dials (attempts i).remotePub (attempts i).externalAddr →
        s'.device.Dials (attempts i).remotePub (attempts i).externalAddr ∨
        (attempts thread).remotePub = (attempts i).remotePub ∧ s'.phase thread = .cleared) ∧
      ((attempts thread).remotePub = (attempts i).remotePub → s.phase thread = .cleared →
        s'.phase thread = .cleared)

theorem Moved.coherent {s' : Shared ι} (hm : Moved attempts thread s s') (h : Coherent attempts s)
    (holder : (s'.phase thread).Open → s'.latest (attempts thread).remotePub = some thread)
    (dials : (s'.phase thread).Open → (attempts thread).remotePub ≠ s.device.publicKey →
      s'.device.Dials (attempts thread).remotePub (attempts thread).externalAddr)
    (found : s'.phase thread = .opened true → (attempts thread).remotePub ≠ s.device.publicKey)
    (kept : ∀ result, s'.phase thread = .returned result → result.success = true →
      s'.device.Dials (attempts thread).remotePub (attempts thread).externalAddr) :
    Coherent attempts s' where
  overwritten := hm.overwritten
  stale := hm.stale
  misled := hm.misled
  holder i hi := by
    rcases eq_or_ne i thread with rfl | he
    · exact holder hi
    · rw [hm.phase i he] at hi
      exact (hm.latest i he hi).trans (h.holder i hi)
  dials i hi hkey := by
    rw [hm.publicKey] at hkey
    rcases eq_or_ne i thread with rfl | he
    · exact dials hi hkey
    · rw [hm.phase i he] at hi
      exact hm.dials i he hi (h.dials i hi hkey)
  found i hi := by
    rw [hm.publicKey]
    rcases eq_or_ne i thread with rfl | he
    · exact found hi
    · exact h.found i (hm.phase i he ▸ hi)
  kept i result hi hsuccess hlatest := by
    rcases eq_or_ne i thread with rfl | he
    · exact .inl (kept result hi hsuccess)
    · rw [hm.phase i he] at hi
      obtain ⟨hbefore, hdials, hcleared⟩ := hm.kept i he hlatest
      rcases h.kept i result hi hsuccess hbefore with hd | ⟨j, hkey, hj⟩
      · rcases hdials hd with hd' | ⟨hkey, hc⟩
        · exact .inl hd'
        · exact .inr ⟨thread, hkey, hc⟩
      · rcases eq_or_ne j thread with rfl | hjne
        · exact .inr ⟨j, hkey, hcleared hkey hj⟩
        · exact .inr ⟨j, hkey, (hm.phase j hjne).trans hj⟩

theorem Coherent.environment (h : Coherent attempts s) {s' : Shared ι} (he : Environment s s') :
    Coherent attempts s' := by
  cases he with
  | tick t => exact { h with }
  | handshake pk =>
    unfold Shared.handshake
    split
    · exact h
    · next peer hpeer =>
        have hne := s.device.ne_publicKey hpeer
        have hdials : ∀ key addr, s.device.Dials key addr → (s.device.modify (some pk) fun p =>
            some { p with lastHandshakeNano := s.clock - unixEpoch }).Dials key addr := by
          rintro key addr ⟨p, hp, hend⟩
          rcases eq_or_ne key pk with rfl | hkey
          · exact ⟨_, s.device.modify_self hne _, by simpa [hp] using hend⟩
          · exact ⟨p, (s.device.modify_of_ne hkey _).trans hp, hend⟩
        exact
          { overwritten := h.overwritten
            stale := fun key i => by
              rcases eq_or_ne key pk with rfl | hkey
              · simp [h.overwritten]
              · simp [update_of_ne hkey, h.stale]
            misled := h.misled
            holder := h.holder
            dials := fun i hi hk => hdials _ _ (h.dials i hi (by simpa using hk))
            found := fun i hi => by simpa using h.found i hi
            kept := fun i r hi hs hl => (h.kept i r hi hs hl).imp_left (hdials _ _) }

variable [DecidableEq ι]

theorem Coherent.moved (h : Coherent attempts s) {p : Phase} {misled : ι → Bool}
    (hmisled : ∀ i, misled i = false) (hcleared : s.phase thread = .cleared → p = .cleared) :
    Moved attempts thread s
      { s with phase := update s.phase thread p, misled := misled } where
  phase i he := update_of_ne he ..
  publicKey := rfl
  overwritten := h.overwritten
  stale := h.stale
  misled := hmisled
  dials _ _ _ hd := hd
  latest _ _ _ := rfl
  kept i he hlatest := ⟨hlatest, .inl, fun _ hc => by simpa using hcleared hc⟩

theorem Coherent.removePeer (h : Coherent attempts s) {reply : Except IpcFailure Unit}
    (hexcl : ∀ j, j ≠ thread → (attempts j).remotePub = (attempts thread).remotePub →
      ¬(s.phase j).Open)
    (hadm : mayReturn (removePeerLines (attempts thread).remotePub) reply = true)
    (hphase : s.phase thread = .waiting ∨ (s.phase thread).Open) :
    Coherent attempts { s with
      device := s.device.configure (removePeerLines (attempts thread).remotePub) reply
      phase := update s.phase thread ((s.phase thread).removed reply) } := by
  have hafter : ¬((s.phase thread).removed reply).Open ∧
      ∀ result, (s.phase thread).removed reply ≠ .returned result := by
    rcases hphase with hp | ⟨f, hp⟩
    · rw [hp]
      cases reply <;> simp [Phase.removed, Phase.Open]
    · rw [hp]
      simp [Phase.removed, Phase.Open]
  refine Moved.coherent (?_ : Moved attempts thread s _) h (fun hopen => ?_) (fun hopen => ?_)
    (fun hp => ?_) fun result hp => ?_
  · refine ⟨fun i he => update_of_ne he .., s.device.configure_publicKey .., h.overwritten,
      h.stale, h.misled, fun i he hopen hd =>
        hd.configured (fun hkey => hexcl i he hkey hopen) removePeerLines_names reply,
      fun _ _ _ => rfl, fun i he hlatest => ⟨hlatest, fun hd => ?_, fun _ hc => ?_⟩⟩
    · by_cases hkey : (attempts i).remotePub = (attempts thread).remotePub
      · -- an attempt that is polling holds its key, so this is a first RemovePeer
        have hwaiting : s.phase thread = .waiting := by
          refine hphase.resolve_right fun hopen => he ?_
          have hholder := h.holder thread hopen
          rw [← hkey] at hholder
          exact Option.some.inj (hlatest.symm.trans hholder)
        cases reply with
        | ok _ => exact .inr ⟨hkey.symm, by simp [hwaiting, Phase.removed]⟩
        | error err =>
          refine .inl ?_
          rw [hkey] at hd ⊢
          exact hd.removePeer_error (by simpa [mayReturn] using hadm)
      · exact .inl (hd.configured hkey removePeerLines_names reply)
    · rcases hphase with hp | ⟨f, hp⟩ <;> simp [hp] at hc
  · exact absurd (by simpa using hopen) hafter.1
  · exact absurd (by simpa using hopen) hafter.1
  · exact absurd ⟨true, by simpa using hp⟩ hafter.1
  · exact absurd (by simpa using hp) (hafter.2 result)

theorem Coherent.addPeer (h : Coherent attempts s) {reply : Except IpcFailure Unit}
    {allowedIPs : List Prefix} {overwritten : ι → Bool} (hover : ∀ i, overwritten i = false)
    (hexcl : ∀ j, j ≠ thread → (attempts j).remotePub = (attempts thread).remotePub →
      ¬(s.phase j).Open) :
    Coherent attempts { s with
      device := s.device.configure (addPeerLines persistentKeepalive (attempts thread).remotePub
        (some (attempts thread).externalAddr) allowedIPs) reply
      phase := update s.phase thread (.added reply)
      latest := update s.latest (attempts thread).remotePub (some thread)
      overwritten := overwritten } := by
  refine Moved.coherent (?_ : Moved attempts thread s _) h (fun _ => update_self ..)
    (fun hopen hne => ?_) (fun hp => ?_) fun result hp => ?_
  · refine ⟨fun i he => update_of_ne he .., s.device.configure_publicKey .., hover, h.stale,
      h.misled, fun i he hopen hd =>
        hd.configured (fun hkey => hexcl i he hkey hopen) addPeerLines_names reply,
      fun i he hopen => update_of_ne (fun hkey => hexcl i he hkey hopen) ..,
      fun i he hlatest => ?_⟩
    -- another attempt for this key is no longer the latest
    have hkey : (attempts i).remotePub ≠ (attempts thread).remotePub := by
      intro hkey
      simp only [hkey, update_self, Option.some.injEq] at hlatest
      exact he hlatest.symm
    simp only [update_of_ne hkey] at hlatest
    exact ⟨hlatest, fun hd => .inl (hd.configured hkey addPeerLines_names reply),
      fun hk => absurd hk.symm hkey⟩
  · cases reply with
    | ok _ => exact s.device.addPeer_dials hne ..
    | error err => simp [Phase.added, Phase.Open] at hopen
  · cases reply <;> simp [Phase.added] at hp
  · cases reply <;> simp [Phase.added] at hp

theorem Coherent.handshakeTime (h : Coherent attempts s) (hopen : (s.phase thread).Open)
    {found : Option Time}
    (hfound : found = none ∨ found = s.device.handshakeTime (attempts thread).remotePub) :
    Coherent attempts { s with
      phase := update s.phase thread ((s.phase thread).polled found.isSome)
      misled := update s.misled thread (s.stale (attempts thread).remotePub thread) } := by
  have hpolled : (s.phase thread).polled found.isSome = .opened found.isSome := if_pos hopen
  rw [hpolled]
  refine (h.moved ?_ ?_).coherent h (fun _ => h.holder thread hopen)
    (fun _ hne => h.dials thread hopen hne) (fun hp => ?_) (fun result hp => ?_)
  · intro i
    rcases eq_or_ne i thread with rfl | he
    · simp [h.stale]
    · simp [update_of_ne he, h.misled]
  · obtain ⟨f, hf⟩ := hopen
    simp [hf]
  · simp only [update_self, Phase.opened.injEq] at hp
    obtain ⟨t, ht⟩ := isSome_iff_exists.mp hp
    have hseen := hfound.resolve_left (by simp [ht])
    rw [ht] at hseen
    obtain ⟨peer, hpeer, -⟩ := map_eq_some_iff.mp hseen.symm
    exact s.device.ne_publicKey hpeer
  · simp at hp

theorem Coherent.returned (h : Coherent attempts s) {result : AttemptResult}
    (hcleared : s.phase thread ≠ .cleared)
    (hsuccess : result.success = true → s.phase thread = .opened true) :
    Coherent attempts { s with phase := update s.phase thread (.returned result) } := by
  refine (h.moved h.misled fun hc => absurd hc hcleared).coherent h (fun hopen => ?_)
    (fun hopen => ?_) (fun hp => ?_) (fun r hp hs => ?_)
  · simp [Phase.Open] at hopen
  · simp [Phase.Open] at hopen
  · simp at hp
  · simp only [update_self, Phase.returned.injEq] at hp
    have hfound := hsuccess (hp ▸ hs)
    exact h.dials thread ⟨true, hfound⟩ (h.found thread hfound)

theorem Coherent.step (h : Coherent attempts s) {β : Type} {op : Op β} {reply : β}
    (hexcl : ∀ j, j ≠ thread → op.configures = some (attempts j).remotePub → ¬(s.phase j).Open)
    (hadm : sharedAdmits persistentKeepalive s op reply = true)
    (hgood : (attemptSpec (attempts thread)).good (s.phase thread) op reply
      ((s.phase thread).step op reply)) :
    Coherent attempts ((sharedMachine persistentKeepalive attempts thread).effect s op reply) := by
  cases op with
  | removePeer pk =>
    obtain ⟨rfl, hphase⟩ := hgood
    exact h.removePeer (fun j hj hkey => hexcl j hj (congrArg some hkey.symm)) hadm hphase
  | addPeer pk endpoint allowedIPs =>
    obtain ⟨rfl, rfl, -⟩ := hgood
    have hother : ∀ j, j ≠ thread → (attempts j).remotePub = (attempts thread).remotePub →
        ¬(s.phase j).Open := fun j hj hkey => hexcl j hj (congrArg some hkey.symm)
    refine h.addPeer (fun i => ?_) hother
    simp only [Shared.overwrittenAfter, h.overwritten, Bool.false_or, Bool.and_eq_false_iff,
      decide_eq_false_iff_not]
    by_cases hi : i ≠ thread ∧ (attempts i).remotePub = (attempts thread).remotePub
    · exact .inr (hother i hi.1 hi.2)
    · exact .inl (by tauto)
  | handshakeTime pk =>
    obtain ⟨rfl, hopen⟩ := hgood
    exact h.handshakeTime hopen (by simpa [sharedAdmits] using hadm)
  | now | sleep =>
    have hsame : update s.phase thread (s.phase thread) = s.phase := update_eq_self ..
    simpa [sharedMachine, Device.call, Phase.step, Shared.latestAfter, Shared.overwrittenAfter,
      Shared.misledAfter, hsame] using h
  | returned result => exact h.returned hgood.1 hgood.2

theorem attempts_framed : Framed (sharedMachine persistentKeepalive attempts) Environment
    (fun thread s => s.phase thread) (fun _ => phaseMachine) where
  admits _ _ _ _ _ _ := rfl
  effect thread s _ op reply _ := update_self ..
  other thread s _ op reply _ viewer hne := update_of_ne hne ..
  quiet s s' he viewer := by
    cases he with
    | tick t => rfl
    | handshake pk =>
      unfold Shared.handshake
      split <;> rfl

end

section

variable [DecidableEq ι]

-- Attempts for one key must not overlap.
theorem intact_of_exclusive (persistentKeepalive : Int) (attempts : ι → Attempt) (dev : Device)
    (clock : Time) {labels : List (Label sig ι (Shared ι))} {pool : Pool sig ι (Shared ι)}
    (hr : Pool.Steps bodies (sharedMachine persistentKeepalive attempts) Environment
      (launch attempts dev clock) labels pool)
    (hexcl : ∀ label ∈ labels, Exclusive attempts label) : Intact attempts pool.state := by
  have hinit : Coherent attempts (launch attempts dev clock).state := by
    constructor <;> simp [launch, Phase.Open]
  -- the contracts of the attempts and the invariant go through the run together
  refine (hr.along (Exclusive attempts) (fun _ => True)
    (fun pool => pool.Meets (fun thread s => s.phase thread) (fun _ => phaseMachine)
      (fun thread => attemptSpec (attempts thread)) (fun _ _ => True) ∧
      Coherent attempts pool.state) hexcl ⟨fun _ => attempt_holds, hinit⟩ ?_).1.2.intact
  rintro pool label next hl hstep ⟨hmeets, hc⟩
  obtain ⟨hnext, hok⟩ := hmeets.step attempts_framed (fun _ => attempt_verified) hstep
  refine ⟨⟨hnext, ?_⟩, trivial⟩
  cases hstep with
  | @act β thread op rest reply ht hadm =>
    have hphase : ((sharedMachine persistentKeepalive attempts thread).effect pool.state op
        reply).phase thread = (pool.state.phase thread).step op reply :=
      update_self ..
    have hgood : (attemptSpec (attempts thread)).good (pool.state.phase thread) op reply
      (((sharedMachine persistentKeepalive attempts thread).effect pool.state op
        reply).phase thread) := hok
    exact hc.step hl hadm hgood
  | enter thread ht => exact hc
  | env he => exact hc.environment he

def sampleDevice : Device := ⟨2, fun _ => none, rfl⟩

def sampleAddr (reconnected : Bool) : AddrPort :=
  ⟨.v4 0xC0000201, if reconnected then 40001 else 40000⟩

def sampleAttempts (reconnected : Bool) : Attempt :=
  ⟨4, [], sampleAddr reconnected, second, second / 4⟩

def sampleStart : Time := unixEpoch + 1700000000 * second

def sampleReply (s : Shared Bool) : {β : Type} → Op β → Option β
  | _, .removePeer _ => some (.ok ())
  | _, .addPeer _ _ _ => some (.ok ())
  | _, .handshakeTime pk => some (s.device.handshakeTime pk)
  | _, .now => some s.clock
  | _, .sleep _ => some ()
  | _, .returned _ => some ()

inductive Move
  | handshake
  | tick (t : Time)

def Move.apply : Move → Shared Bool → Shared Bool
  | .handshake, s => s.handshake 4
  | .tick t, s => { s with clock := t }

theorem Move.environment (move : Move) (s : Shared Bool) : Environment s (move.apply s) := by
  cases move with
  | handshake => exact .handshake s 4
  | tick t => exact .tick s t

def plays (allowed : Label sig Bool (Shared Bool) → Bool) (parts : List (List Bool × Move)) :
    Option (Pool sig Bool (Shared Bool)) :=
  Pool.replays bodies (sharedMachine 0 sampleAttempts) (fun _ s => sampleReply s) allowed
    (parts.map fun part => (part.1, part.2.apply)) (launch sampleAttempts sampleDevice sampleStart)

theorem plays_reaches (allowed : Label sig Bool (Shared Bool) → Bool)
    (parts : List (List Bool × Move)) (P : Pool sig Bool (Shared Bool) → Bool)
    (h : (plays allowed parts).any P = true) :
    ∃ labels pool, Pool.Steps bodies (sharedMachine 0 sampleAttempts) Environment
        (launch sampleAttempts sampleDevice sampleStart) labels pool ∧
      (∀ label ∈ labels, allowed label = true) ∧ P pool = true := by
  refine Pool.reaches_of_replays (fun part hpart s => ?_) P h
  obtain ⟨⟨schedule, move⟩, -, rfl⟩ := List.mem_map.mp hpart
  exact move.environment s

theorem intact_of_exclusive_sequential : ∃ labels pool,
    Pool.Steps bodies (sharedMachine 0 sampleAttempts) Environment
      (launch sampleAttempts sampleDevice sampleStart) labels pool ∧
    pool.state.phase false = .returned ⟨false, "handshake-timeout"⟩ ∧
    pool.state.phase true = .returned ⟨true, ""⟩ ∧ Intact sampleAttempts pool.state := by
  obtain ⟨labels, pool, hr, hexcl, hp⟩ := plays_reaches
    (fun label => decide (Exclusive sampleAttempts label))
    [(List.replicate 7 false, .tick (sampleStart + second)),
      (List.replicate 4 false ++ List.replicate 4 true, .handshake),
      (List.replicate 3 true, .tick (sampleStart + second))]
    (fun pool => decide (pool.state.phase false = .returned ⟨false, "handshake-timeout"⟩ ∧
      pool.state.phase true = .returned ⟨true, ""⟩)) (by decide)
  obtain ⟨hfalse, htrue⟩ := of_decide_eq_true hp
  exact ⟨labels, pool, hr, hfalse, htrue, intact_of_exclusive 0 sampleAttempts sampleDevice
    sampleStart hr fun label hl => of_decide_eq_true (hexcl label hl)⟩

-- The first attempt is still waiting when the second succeeds. In one run its
-- cleanup removes the peer of the second; in the other it takes the handshake.
theorem overlapping_attempts_undo :
    (∃ labels pool, Pool.Steps bodies (sharedMachine 0 sampleAttempts) Environment
        (launch sampleAttempts sampleDevice sampleStart) labels pool ∧
      pool.state.latest 4 = some true ∧ pool.state.phase true = .returned ⟨true, ""⟩ ∧
      pool.state.phase false = .returned ⟨false, "handshake-timeout"⟩ ∧
      pool.state.device.peers 4 = none ∧ ¬Intact sampleAttempts pool.state) ∧
    ∃ labels pool, Pool.Steps bodies (sharedMachine 0 sampleAttempts) Environment
        (launch sampleAttempts sampleDevice sampleStart) labels pool ∧
      pool.state.phase false = .returned ⟨true, ""⟩ ∧ pool.state.misled false = true ∧
      ¬Intact sampleAttempts pool.state := by
  constructor
  · obtain ⟨labels, pool, hr, -, hp⟩ := plays_reaches (fun _ => true)
      [(List.replicate 7 false ++ List.replicate 4 true, .handshake),
        (List.replicate 3 true, .tick (sampleStart + second)),
        (List.replicate 4 false, .tick (sampleStart + second))]
      (fun pool => decide (pool.state.latest 4 = some true ∧
        pool.state.phase true = .returned ⟨true, ""⟩ ∧
        pool.state.phase false = .returned ⟨false, "handshake-timeout"⟩ ∧
        pool.state.device.peers 4 = none)) (by decide)
    obtain ⟨hlatest, htrue, hfalse, hpeer⟩ := of_decide_eq_true hp
    refine ⟨labels, pool, hr, hlatest, htrue, hfalse, hpeer, fun hintact => ?_⟩
    have hall : ∀ j, (sampleAttempts j).remotePub = (sampleAttempts true).remotePub →
        pool.state.phase j = .waiting ∨ ∃ r, pool.state.phase j = .returned r := by
      rintro (_ | _) -
      · exact .inr ⟨_, hfalse⟩
      · exact .inr ⟨_, htrue⟩
    obtain ⟨peer, hsome, -⟩ := hintact.kept true _ hlatest htrue rfl hall
    exact absurd (hpeer.symm.trans hsome) (by simp)
  · obtain ⟨labels, pool, hr, -, hp⟩ := plays_reaches (fun _ => true)
      [(List.replicate 4 false ++ List.replicate 4 true, .handshake),
        (List.replicate 3 false, .tick sampleStart)]
      (fun pool => decide (pool.state.phase false = .returned ⟨true, ""⟩ ∧
        pool.state.misled false = true)) (by decide)
    obtain ⟨hfalse, hmisled⟩ := of_decide_eq_true hp
    refine ⟨labels, pool, hr, hfalse, hmisled, fun hintact => ?_⟩
    simp [hintact.own false _ hfalse rfl] at hmisled

end

end StarlingWg.NativeFlow
