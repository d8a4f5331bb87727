import StarlingWg.Interaction.Pool
import StarlingWg.NativeFlow.SharedDevice
import StarlingWg.Orchestrate.YSide

namespace StarlingWg.Orchestrate

open Control Interaction Function Option
open NativeFlow (Time Device PeerLine addPeerLines truncate unixEpoch)

structure Fallback where
  c : ConnId
  sess : SessionKey
  remotePub : Key
  allowedIPs : List Prefix

variable {ι : Type}

-- The shared cloaked device under any number of calls, at a time after the
-- Unix epoch. The rest is history: when each call began, what its last poll
-- returned, and whether it has moved its session to Connected(Cloaked).
structure Cloaked (ι : Type) where
  device : Device
  clock : Time
  modern : unixEpoch < clock
  start : ι → Option Time := fun _ => none
  seen : ι → Option Nat := fun _ => none
  connected : ι → Bool := fun _ => false

section

-- The cloaked device is configured without a keepalive interval.
def Cloaked.addPeer (s : Cloaked ι) : {β : Type} → Op β → β → Device
  | _, .cloakedAddPeer pk allowedIPs, .ok _ => s.device.ipcSet (addPeerLines 0 pk none allowedIPs)
  | _, _, _ => s.device

def cloakedAdmits (s : Cloaked ι) : {β : Type} → Op β → β → Bool
  | _, .cloakedHandshakeTime pk, found =>
    found == none || found == (s.device.handshakeTime pk).map Int.toNat
  | _, .now, t => t == s.clock
  | _, .setState _ _ _, _ => true
  | _, .setDevice _ _ _, _ => true
  | _, .send _ _, _ => true
  | _, .resolvePublicHost _, _ => true
  | _, .cloakedAddPeer _ _, _ => true
  | _, .sleep, _ => true
  | _, _, _ => false

def seenAfter (seen : Option Nat) : {β : Type} → Op β → β → Option Nat
  | _, .cloakedHandshakeTime _, found => found
  | _, _, _ => seen

def Op.connects : {β : Type} → Op β → Bool
  | _, .setState _ .connectedCloaked _ => true
  | _, _ => false

variable [DecidableEq ι]

def cloakedMachine (thread : ι) : Machine sig (Cloaked ι) where
  admits := fun s {_} op reply => cloakedAdmits s op reply
  effect := fun s {_} op reply =>
    { s with
      device := s.addPeer op reply
      start := update s.start thread ((s.start thread).or (some s.clock))
      seen := update s.seen thread (seenAfter (s.seen thread) op reply)
      connected := update s.connected thread (s.connected thread || op.connects) }

def Cloaked.handshake (s : Cloaked ι) (pk : Key) : Cloaked ι :=
  match s.device.peers pk with
  | none => s
  | some _ =>
    { s with
      device := s.device.modify (some pk) fun p =>
        some { p with lastHandshakeNano := s.clock - unixEpoch } }

-- What happens between the calls: the clock advances, handshakes complete,
-- and an AddPeer that failed has applied some of its lines.
inductive CloakedEnvironment : Cloaked ι → Cloaked ι → Prop
  | tick (s : Cloaked ι) (t : Time) (h : s.clock ≤ t) :
      CloakedEnvironment s { s with clock := t, modern := Int.lt_of_lt_of_le s.modern h }
  | handshake (s : Cloaked ι) (pk : Key) : CloakedEnvironment s (s.handshake pk)
  | applied (s : Cloaked ι) (pk : Key) (allowedIPs : List Prefix) (n : Nat) : CloakedEnvironment s
        { s with device := s.device.ipcSet ((addPeerLines 0 pk none allowedIPs).take n) }

end

def Keeps (dev dev' : Device) : Prop :=
  ∀ pk, dev'.handshakeTime pk = dev.handshakeTime pk ∨
    dev.handshakeTime pk = none ∧ dev'.handshakeTime pk = some 0

theorem Keeps.refl (dev : Device) : Keeps dev dev :=
  fun _ => .inl rfl

theorem Keeps.trans {dev dev' dev'' : Device} (h : Keeps dev dev') (h' : Keeps dev' dev'') :
    Keeps dev dev'' := by
  intro pk
  rcases h pk with he | ⟨hnone, hzero⟩
  · rw [← he]
    exact h' pk
  · rcases h' pk with he' | ⟨hnone', -⟩
    · exact .inr ⟨hnone, he'.trans hzero⟩
    · simp [hzero] at hnone'

theorem keeps_modify (dev : Device) (pk : Option Key) (change : NativeFlow.Peer → NativeFlow.Peer)
    (hchange : ∀ p, (change p).lastHandshakeNano = p.lastHandshakeNano) :
    Keeps dev (dev.modify pk fun p => some (change p)) := by
  intro key
  cases pk with
  | none => exact .inl rfl
  | some pk =>
    by_cases hself : pk = dev.publicKey
    · exact .inl (by simp [Device.modify, hself])
    · rcases eq_or_ne key pk with rfl | hne
      · simp only [Device.handshakeTime, dev.modify_self hself]
        cases dev.peers key with
        | none => exact .inr ⟨rfl, by simp [hchange]⟩
        | some peer => exact .inl (by simp [hchange])
      · exact .inl (by simp only [Device.handshakeTime, dev.modify_of_ne hne])

theorem keeps_handlePeerLine (dev : Device) (peer : Option Key) {line : PeerLine}
    (hline : line ≠ .remove) : Keeps dev (dev.handlePeerLine peer line).1 := by
  cases line with
  | publicKey pk =>
    simp only [Device.handlePeerLine, Device.handlePublicKeyLine]
    split
    · exact .refl dev
    · exact keeps_modify dev (some pk) id fun _ => rfl
  | remove => exact absurd rfl hline
  | replaceAllowedIPs => exact .refl dev
  | endpoint addr => exact keeps_modify dev peer (fun p => { p with endpoint := some addr }) fun _ => rfl
  | persistentKeepaliveInterval seconds =>
    exact keeps_modify dev peer (fun p => { p with persistentKeepaliveInterval := seconds })
      fun _ => rfl
  | allowedIP cidr => exact .refl dev

theorem keeps_ipcSetFrom {lines : List PeerLine} (hl : PeerLine.remove ∉ lines) (dev : Device)
    (peer : Option Key) : Keeps dev (dev.ipcSetFrom peer lines) := by
  induction lines generalizing dev peer with
  | nil => exact .refl dev
  | cons line lines ih =>
    have hline : line ≠ .remove := fun h => hl (h ▸ List.mem_cons_self)
    exact (keeps_handlePeerLine dev peer hline).trans
      (ih (fun hm => hl (List.mem_cons_of_mem line hm)) _ _)

theorem remove_notMem_addPeerLines (pk : Key) (allowedIPs : List Prefix) :
    PeerLine.remove ∉ addPeerLines 0 pk none allowedIPs := by
  simp [addPeerLines]

theorem keeps_addPeer (s : Cloaked ι) {β : Type} (op : Op β) (reply : β) :
    Keeps s.device (s.addPeer op reply) := by
  cases op with
  | cloakedAddPeer pk allowedIPs =>
    cases reply with
    | error err => exact .refl _
    | ok _ => exact keeps_ipcSetFrom (remove_notMem_addPeerLines pk allowedIPs) _ _
  | _ => exact .refl _

def Recent (dev : Device) (pk : Key) (t₀ : Time) : Prop :=
  ∀ t, dev.handshakeTime pk = some t → t = 0 ∨ truncate t₀ ≤ t

def Handshaken (dev : Device) (pk : Key) : Prop :=
  ∃ t, dev.handshakeTime pk = some t ∧ t ≠ 0

theorem Recent.keeps {dev dev' : Device} {pk : Key} {t₀ : Time} (h : Recent dev pk t₀)
    (hk : Keeps dev dev') : Recent dev' pk t₀ := by
  intro t ht
  rcases hk pk with he | ⟨-, hzero⟩
  · exact h t (he ▸ ht)
  · exact .inl (Option.some.inj (ht.symm.trans hzero))

theorem Handshaken.keeps {dev dev' : Device} {pk : Key} (h : Handshaken dev pk)
    (hk : Keeps dev dev') : Handshaken dev' pk := by
  obtain ⟨t, ht, hne⟩ := h
  rcases hk pk with he | ⟨hnone, -⟩
  · exact ⟨t, he.trans ht, hne⟩
  · simp [ht] at hnone

theorem Cloaked.handshakeTime_handshake (s : Cloaked ι) (pk key : Key) :
    (s.handshake pk).device.handshakeTime key = s.device.handshakeTime key ∨
      (s.handshake pk).device.handshakeTime key = some s.clock := by
  unfold handshake
  split
  · exact .inl rfl
  · next peer hpeer =>
      rcases eq_or_ne key pk with rfl | hne
      · have hclock : s.clock - unixEpoch ≠ 0 := Int.ne_of_gt (Int.sub_pos_of_lt s.modern)
        refine .inr ?_
        simp only [Device.handshakeTime, s.device.modify_self (s.device.ne_publicKey hpeer), hpeer,
          map_some, if_neg hclock, Option.some.injEq]
        rw [Int.add_comm, Int.sub_add_cancel]
      · exact .inl (by simp only [Device.handshakeTime, s.device.modify_of_ne hne])

section

variable {x y : Config}

def Op.polls : {β : Type} → Op β → Option Key
  | _, .cloakedHandshakeTime pk => some pk
  | _, _ => none

-- One call by itself: what it has seen last, whatever the polls return.
def seenMachine : Machine sig (Option Nat) where
  admits := fun _ {_} _ _ => true
  effect := fun seen {_} op reply => seenAfter seen op reply

def pollSpec (remotePub : Key) : Spec sig (Option Nat) where
  good seen _ op _ _ := (∀ pk, op.polls = some pk → pk = remotePub) ∧
    (op.connects = true → ∃ n, seen = some (n + 1))
  pre
    | .pollX pk _, _ => pk = remotePub
    | _, _ => False
  post
    | .pollX _ _, _, found, seen => found = true → ∃ n, seen = some (n + 1)
    | _, _, _, _ => True

theorem pollSpec_other {remotePub : Key} {β : Type} {seen seen' : Option Nat} {op : Op β} {reply : β}
    (hpolls : op.polls = none) (hconnects : op.connects = false) :
    (pollSpec remotePub).good seen op reply seen' := by
  simp [pollSpec, hpolls, hconnects]

theorem pollX_meets_poll (remotePub : Key) (deadline : Int) (seen : Option Nat) :
    wp seenMachine (pollSpec remotePub) (pollX remotePub deadline)
      (fun found seen' => found = true → ∃ n, seen' = some (n + 1)) seen := by
  unfold pollX
  simp only [wp_bind, wp_act]
  intro t _
  refine ⟨pollSpec_other rfl rfl, ?_⟩
  split
  · simp only [wp_bind, wp_act]
    intro found _
    refine ⟨⟨fun pk hpk => (Option.some.inj hpk).symm, fun h => absurd h (by simp [Op.connects])⟩, ?_⟩
    split
    · exact fun _ => ⟨_, rfl⟩
    · simp only [wp_bind, wp_act, wp_call]
      intro _ _
      exact ⟨pollSpec_other rfl rfl, rfl, fun _ _ hpost => hpost⟩
  · simp

theorem poll_verified (remotePub : Key) :
    Verified (bodies x y) seenMachine (pollSpec remotePub) := by
  intro β proc seen hpre
  cases proc with
  | pollX pk deadline =>
    obtain rfl : pk = remotePub := hpre
    exact pollX_meets_poll pk deadline seen
  | _ => exact hpre.elim

theorem fallbackToCloaked_meets_poll (f : Fallback) (seen : Option Nat) :
    wp seenMachine (pollSpec f.remotePub)
      (fallbackToCloaked x f.c f.sess f.remotePub f.allowedIPs) (fun _ _ => True) seen := by
  unfold fallbackToCloaked
  refine fun _ _ => ⟨pollSpec_other rfl rfl, ?_⟩
  rintro (err | _) -
  · exact ⟨pollSpec_other rfl rfl, fun _ _ => ⟨pollSpec_other rfl rfl, trivial⟩⟩
  refine ⟨pollSpec_other rfl rfl, ?_⟩
  rintro (err | addr) -
  · exact ⟨pollSpec_other rfl rfl, fun _ _ => ⟨pollSpec_other rfl rfl, trivial⟩⟩
  refine ⟨pollSpec_other rfl rfl, ?_⟩
  rintro (err | _) -
  · exact ⟨pollSpec_other rfl rfl, fun _ _ => ⟨pollSpec_other rfl rfl, trivial⟩⟩
  refine ⟨pollSpec_other rfl rfl, ?_⟩
  refine fun _ _ => ⟨pollSpec_other rfl rfl, fun start _ => ⟨pollSpec_other rfl rfl, rfl, ?_⟩⟩
  intro found seen' hfound
  cases found with
  | true => exact fun _ _ => ⟨⟨fun pk hpk => absurd hpk (by simp [Op.polls]), fun _ => hfound rfl⟩, trivial⟩
  | false => exact fun _ _ => ⟨pollSpec_other rfl rfl, trivial⟩

end

section

variable [DecidableEq ι] {x y : Config} (calls : ι → Fallback)

-- Every session that a call moved to Connected(Cloaked) had its handshake in
-- the second of the start of that call or later.
def FreshlyConnected (s : Cloaked ι) : Prop :=
  ∀ i, s.connected i = true → ∃ t₀ t, s.start i = some t₀ ∧
    s.device.handshakeTime (calls i).remotePub = some t ∧ truncate t₀ ≤ t

-- When a call begins, no older handshake with its peer is on record.
def BeginsUnstale : Label sig ι (Cloaked ι) → Prop
  | .act thread s _ _ _ => s.start thread = none →
      Recent s.device (calls thread).remotePub s.clock
  | _ => True

structure Unstale (s : Cloaked ι) : Prop where
  begun : ∀ i t₀, s.start i = some t₀ → t₀ ≤ s.clock ∧ Recent s.device (calls i).remotePub t₀
  seen : ∀ i n, s.seen i = some (n + 1) → Handshaken s.device (calls i).remotePub
  connected : ∀ i, s.connected i = true →
    s.start i ≠ none ∧ Handshaken s.device (calls i).remotePub

variable {calls} {s : Cloaked ι}

omit [DecidableEq ι] in
theorem Unstale.freshlyConnected (h : Unstale calls s) : FreshlyConnected calls s := by
  intro i hi
  obtain ⟨hstart, t, ht, hne⟩ := h.connected i hi
  obtain ⟨t₀, ht₀⟩ := ne_none_iff_exists'.mp hstart
  exact ⟨t₀, t, ht₀, ht, ((h.begun i t₀ ht₀).2 t ht).resolve_left hne⟩

omit [DecidableEq ι] in
theorem truncate_le_self (t : Time) : truncate t ≤ t := by
  have hmod : 0 ≤ t % NativeFlow.second := Int.emod_nonneg t (by decide)
  exact Int.sub_le_self t hmod

omit [DecidableEq ι] in
theorem Unstale.keeps (h : Unstale calls s) {dev : Device} (hk : Keeps s.device dev) :
    Unstale calls { s with device := dev } where
  begun i t₀ hi := ⟨(h.begun i t₀ hi).1, (h.begun i t₀ hi).2.keeps hk⟩
  seen i n hi := (h.seen i n hi).keeps hk
  connected i hi := ⟨(h.connected i hi).1, (h.connected i hi).2.keeps hk⟩

omit [DecidableEq ι] in
theorem Unstale.environment (h : Unstale calls s) {s' : Cloaked ι} (he : CloakedEnvironment s s') :
    Unstale calls s' := by
  cases he with
  | tick t ht =>
    exact ⟨fun i t₀ hi => ⟨Int.le_trans (h.begun i t₀ hi).1 ht, (h.begun i t₀ hi).2⟩, h.seen, h.connected⟩
  | applied pk allowedIPs n =>
    refine h.keeps (keeps_ipcSetFrom (fun hm => ?_) s.device none)
    exact remove_notMem_addPeerLines pk allowedIPs (List.mem_of_mem_take hm)
  | handshake pk =>
    have hfields : (s.handshake pk).start = s.start ∧ (s.handshake pk).seen = s.seen ∧
        (s.handshake pk).connected = s.connected ∧ (s.handshake pk).clock = s.clock := by
      unfold Cloaked.handshake
      split <;> exact ⟨rfl, rfl, rfl, rfl⟩
    obtain ⟨hstart, hseen, hconnected, hclock⟩ := hfields
    have hshaken : ∀ key, Handshaken s.device key → Handshaken (s.handshake pk).device key := by
      rintro key ⟨t, ht, hne⟩
      rcases s.handshakeTime_handshake pk key with he | he
      · exact ⟨t, he.trans ht, hne⟩
      · exact ⟨s.clock, he, Int.ne_of_gt (Int.lt_trans (by decide : 0 < unixEpoch) s.modern)⟩
    refine ⟨fun i t₀ hi => ?_, fun i n hi => ?_, fun i hi => ?_⟩
    · obtain ⟨hle, hrecent⟩ := h.begun i t₀ (hstart ▸ hi)
      refine ⟨hclock ▸ hle, fun t ht => ?_⟩
      rcases s.handshakeTime_handshake pk (calls i).remotePub with he | he
      · exact hrecent t (he ▸ ht)
      · have ht' : t = s.clock := Option.some.inj (ht.symm.trans he)
        exact .inr (ht' ▸ Int.le_trans (truncate_le_self t₀) hle)
    · exact hshaken _ (h.seen i n (hseen ▸ hi))
    · obtain ⟨hbegun, hhand⟩ := h.connected i (hconnected ▸ hi)
      exact ⟨hstart ▸ hbegun, hshaken _ hhand⟩

omit [DecidableEq ι] in
theorem seenAfter_handshaken {thread : ι} (h : Unstale calls s) {β : Type} {op : Op β} {reply : β}
    (hadm : cloakedAdmits s op reply = true)
    (hpolls : ∀ pk, op.polls = some pk → pk = (calls thread).remotePub) {n : Nat}
    (hn : seenAfter (s.seen thread) op reply = some (n + 1)) :
    Handshaken s.device (calls thread).remotePub := by
  cases op with
  | cloakedHandshakeTime pk =>
    obtain rfl : pk = (calls thread).remotePub := hpolls pk rfl
    have hfound : reply = some (n + 1) := hn
    simp only [cloakedAdmits, hfound, Bool.or_eq_true, beq_iff_eq, reduceCtorEq, false_or] at hadm
    obtain ⟨t, ht, hnat⟩ := map_eq_some_iff.mp hadm.symm
    exact ⟨t, ht, by rintro rfl; simp at hnat⟩
  | _ => exact h.seen thread n hn

theorem Unstale.act (h : Unstale calls s) {thread : ι} {β : Type} {op : Op β} {reply : β}
    (hbegins : s.start thread = none → Recent s.device (calls thread).remotePub s.clock)
    (hadm : cloakedAdmits s op reply = true) {seen' : Option Nat}
    (hgood : (pollSpec (calls thread).remotePub).good (s.seen thread) op reply seen') :
    Unstale calls ((cloakedMachine thread).effect s op reply) := by
  have hk := keeps_addPeer s op reply
  refine ⟨fun i t₀ hi => ?_, fun i n hi => ?_, fun i hi => ?_⟩
  · -- the first operation of a call is its start
    rcases eq_or_ne i thread with rfl | hne
    · simp only [cloakedMachine, update_self] at hi
      cases hstart : s.start i with
      | none =>
        obtain rfl : s.clock = t₀ := by simpa [hstart] using hi
        exact ⟨Int.le_refl _, (hbegins hstart).keeps hk⟩
      | some t =>
        obtain rfl : t = t₀ := by simpa [hstart] using hi
        exact ⟨(h.begun i t hstart).1, (h.begun i t hstart).2.keeps hk⟩
    · simp only [cloakedMachine, update_of_ne hne] at hi
      exact ⟨(h.begun i t₀ hi).1, (h.begun i t₀ hi).2.keeps hk⟩
  · rcases eq_or_ne i thread with rfl | hne
    · simp only [cloakedMachine, update_self] at hi
      exact (seenAfter_handshaken h hadm hgood.1 hi).keeps hk
    · simp only [cloakedMachine, update_of_ne hne] at hi
      exact (h.seen i n hi).keeps hk
  · rcases eq_or_ne i thread with rfl | hne
    · refine ⟨by cases hs : s.start i <;> simp [cloakedMachine, hs], ?_⟩
      simp only [cloakedMachine, update_self, Bool.or_eq_true] at hi
      rcases hi with hi | hconnects
      · exact (h.connected i hi).2.keeps hk
      · obtain ⟨n, hn⟩ := hgood.2 hconnects
        exact (h.seen i n hn).keeps hk
    · simp only [cloakedMachine, update_of_ne hne] at hi ⊢
      exact ⟨(h.connected i hi).1, (h.connected i hi).2.keeps hk⟩

theorem cloaked_framed : Framed cloakedMachine CloakedEnvironment
    (fun (thread : ι) (s : Cloaked ι) => s.seen thread) fun _ => seenMachine where
  admits _ _ _ _ _ _ := rfl
  effect thread s _ op reply _ := by simp [cloakedMachine, seenMachine]
  other thread s _ op reply _ viewer hne := by simp [cloakedMachine, update_of_ne hne]
  quiet s s' he viewer := by
    cases he with
    | handshake pk => unfold Cloaked.handshake; split <;> rfl
    | _ => rfl

variable (x y calls)

def launchFallbacks (dev : Device) (clock : Time) (modern : unixEpoch < clock) :
    Pool sig ι (Cloaked ι) where
  threads i :=
    fallbackToCloaked x (calls i).c (calls i).sess (calls i).remotePub (calls i).allowedIPs
  state := { device := dev, clock := clock, modern := modern }

theorem fallbacks_freshlyConnected (dev : Device) (clock : Time) (modern : unixEpoch < clock)
    {labels : List (Label sig ι (Cloaked ι))} {last : Pool sig ι (Cloaked ι)}
    (hr : Pool.Steps (bodies x y) cloakedMachine CloakedEnvironment
      (launchFallbacks x calls dev clock modern) labels last)
    (hbegins : ∀ label ∈ labels, BeginsUnstale calls label) :
    FreshlyConnected calls last.state := by
  have hinit : Unstale calls (launchFallbacks x calls dev clock modern).state :=
    ⟨by simp [launchFallbacks], by simp [launchFallbacks], by simp [launchFallbacks]⟩
  have hmeets : (launchFallbacks x calls dev clock modern).Meets (fun thread s => s.seen thread)
      (fun _ => seenMachine) (fun i => pollSpec (calls i).remotePub) (fun _ _ => True) :=
    fun i => fallbackToCloaked_meets_poll (calls i) _
  refine (hr.along (BeginsUnstale calls) (fun _ => True)
    (fun pool => pool.Meets _ _ _ _ ∧ Unstale calls pool.state) hbegins ⟨hmeets, hinit⟩ ?_).1.2.freshlyConnected
  rintro pool label next hguard hs ⟨hm, hu⟩
  obtain ⟨hm', hok⟩ := hm.step cloaked_framed (fun i => poll_verified (calls i).remotePub) hs
  refine ⟨⟨hm', ?_⟩, trivial⟩
  cases hs with
  | act thread ht hadm => exact hu.act hguard hadm hok
  | enter thread ht => exact hu
  | env he => exact hu.environment he

end

def Cloaked.willing (s : Cloaked ι) : {β : Type} → Op β → Option β
  | _, .setState _ _ _ => some ()
  | _, .cloakedAddPeer _ _ => some (.ok ())
  | _, .resolvePublicHost _ => some (.ok (.v4 3405803777))
  | _, .send _ _ => some (.ok ())
  | _, .setDevice _ _ _ => some ()
  | _, .now => some s.clock
  | _, .cloakedHandshakeTime pk => some ((s.device.handshakeTime pk).map Int.toNat)
  | _, .sleep => some ()
  | _, _ => none

def sampleFallback : Unit → Fallback :=
  fun _ => ⟨0, .peer 4, 4, []⟩

def sampleClock : Time := unixEpoch + 100 * NativeFlow.second

def freshDevice : Device := .fresh 2

def usedDevice : Device :=
  ⟨2, fun pk => if pk = 4 then some { lastHandshakeNano := 1 } else none, by decide⟩

instance (dev : Device) (pk : Key) (t₀ : Time) : Decidable (Recent dev pk t₀) :=
  decidable_of_iff (∀ t ∈ dev.handshakeTime pk, t = 0 ∨ truncate t₀ ≤ t) Iff.rfl

instance (label : Label sig Unit (Cloaked Unit)) : Decidable (BeginsUnstale sampleFallback label) := by
  cases label <;> dsimp only [BeginsUnstale] <;> infer_instance

theorem fallback_reaches (dev : Device) (allowed : Label sig Unit (Cloaked Unit) → Bool)
    (parts : List (Nat × Key)) (P : Pool sig Unit (Cloaked Unit) → Bool)
    (h : (Pool.replays (bodies sampleX sampleY) cloakedMachine (fun _ s => s.willing) allowed
      (parts.map fun part => (List.replicate part.1 (), fun s => s.handshake part.2))
      (launchFallbacks sampleX sampleFallback dev sampleClock (by decide))).any P = true) :
    ∃ labels last, Pool.Steps (bodies sampleX sampleY) cloakedMachine CloakedEnvironment
      (launchFallbacks sampleX sampleFallback dev sampleClock (by decide)) labels last ∧
      (∀ label ∈ labels, allowed label = true) ∧ P last = true := by
  refine Pool.reaches_of_replays ?_ P h
  intro part hpart s
  obtain ⟨⟨n, pk⟩, -, rfl⟩ := List.mem_map.mp hpart
  exact .handshake s pk

theorem fallbacks_freshlyConnected_handshake : ∃ labels last,
    Pool.Steps (bodies sampleX sampleY) cloakedMachine CloakedEnvironment
      (launchFallbacks sampleX sampleFallback freshDevice sampleClock (by decide)) labels last ∧
    last.state.connected () = true ∧ FreshlyConnected sampleFallback last.state := by
  obtain ⟨labels, last, hr, hallowed, hconnected⟩ := fallback_reaches freshDevice
    (fun label => decide (BeginsUnstale sampleFallback label)) [(6, 4), (4, 4)]
    (fun pool => pool.state.connected ()) (by decide +kernel)
  exact ⟨labels, last, hr, hconnected, fallbacks_freshlyConnected sampleX sampleY sampleFallback
    freshDevice sampleClock (by decide) hr fun label hl => of_decide_eq_true (hallowed label hl)⟩

-- No handshake completes in this run: that of an earlier session counts.
theorem stale_handshake_connects : ∃ labels last,
    Pool.Steps (bodies sampleX sampleY) cloakedMachine CloakedEnvironment
      (launchFallbacks sampleX sampleFallback usedDevice sampleClock (by decide)) labels last ∧
    last.state.connected () = true ∧ last.state.start () = some sampleClock ∧
    last.state.device.handshakeTime 4 = some (unixEpoch + 1) ∧
    ¬FreshlyConnected sampleFallback last.state := by
  obtain ⟨labels, last, hr, -, hp⟩ := fallback_reaches usedDevice (fun _ => true) [(10, 5)]
    (fun pool => decide (pool.state.connected () = true ∧ pool.state.start () = some sampleClock ∧
      pool.state.device.handshakeTime 4 = some (unixEpoch + 1))) (by decide +kernel)
  obtain ⟨hconnected, hstart, htime⟩ := of_decide_eq_true hp
  refine ⟨labels, last, hr, hconnected, hstart, htime, fun hfresh => ?_⟩
  obtain ⟨t₀, t, ht₀, ht, hle⟩ := hfresh () hconnected
  obtain rfl : sampleClock = t₀ := Option.some.inj (hstart.symm.trans ht₀)
  obtain rfl : unixEpoch + 1 = t := Option.some.inj (htime.symm.trans ht)
  exact absurd hle (by decide)

end StarlingWg.Orchestrate
