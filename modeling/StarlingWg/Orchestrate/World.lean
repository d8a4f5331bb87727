import StarlingWg.Interaction.Pool
import StarlingWg.Orchestrate.XContract
import StarlingWg.Orchestrate.YContract

namespace StarlingWg.Orchestrate

open Control Interaction List Function

inductive Thread
  | y
  | handler (c : ConnId)
  deriving DecidableEq, Repr

-- One Y and one X. A connection carries messages from what one end has sent
-- to what the other has received; `broken` are those that have failed, and
-- `session` is X's session for this Y.
structure World where
  y : YState
  x : ConnId → XLocal
  broken : ConnId → Bool
  session : State × GoString

namespace World

def isOpen (w : World) (c : ConnId) : Bool :=
  !w.broken c && !(w.y.conns c).closed && !(w.x c).closed

end World

-- Recv returns the next message sent by the other end and otherwise blocks
-- until the connection is gone.
def yLink (w : World) : {β : Type} → Op β → β → Bool
  | _, .recv c, .ok msg => !w.broken c && !(w.y.conns c).closed &&
      decide ((w.y.conns c).received ++ [msg] <+: (w.x c).sent)
  | _, .recv c, .error _ => !w.isOpen c
  | _, .send c _, .ok _ => !w.broken c && !(w.y.conns c).closed
  | _, _, _ => true

def xLink (x y : Config) (c : ConnId) (w : World) : {β : Type} → Op β → β → Bool
  | _, .accept conn, auth => conn == c && decide (c < w.y.connCount) &&
      decide (auth ∈ x.authorizedPeers) && auth.publicKey == y.localPublicKey
  | _, .recv conn, .ok msg => conn == c && !w.broken c && !(w.x c).closed &&
      decide ((w.x c).received ++ [msg] <+: (w.y.conns c).sent)
  | _, .recv conn, .error _ => conn == c && !w.isOpen c
  | _, .send conn _, .ok _ => conn == c && !w.broken c && !(w.x c).closed
  | _, .send conn _, .error _ => conn == c
  | _, .closeConn conn, _ => conn == c
  | _, _, _ => true

def brokenAfter (broken : ConnId → Bool) : {β : Type} → Op β → β → ConnId → Bool
  | _, .send c _, .error _ => update broken c true
  | _, _, _ => broken

def sessionAfter (session : State × GoString) : {β : Type} → Op β → State × GoString
  | _, .setState _ state reason => (state, reason)
  | _, _ => session

def worldMachine (x y : Config) : Thread → Machine sig World
  | .y =>
    { admits := fun w _ op reply => yAdmits w.y op reply && yLink w op reply
      effect := fun w _ op reply =>
        { w with
          y := yEffect .main w.y op reply
          broken := brokenAfter w.broken op reply } }
  | .handler c =>
    { admits := fun w _ op reply => xAdmits (w.x c) op reply && xLink x y c w op reply
      effect := fun w _ op reply =>
        { w with
          x := update w.x c (xEffect (w.x c) op reply)
          broken := brokenAfter w.broken op reply
          session := sessionAfter w.session op } }

def World.Breaks (w w' : World) : Prop :=
  ∃ c, w' = { w with broken := update w.broken c true }

abbrev WorldPool := Pool sig Thread World

abbrev WorldLabel := Label sig Thread World

abbrev World.Runs (x y : Config) : WorldPool → List WorldLabel → WorldPool → Prop :=
  Pool.Steps (bodies x y) (worldMachine x y) World.Breaks

abbrev Local : Thread → Type
  | .y => YState
  | .handler _ => XLocal

def localView : (thread : Thread) → World → Local thread
  | .y, w => w.y
  | .handler c, w => w.x c

def localMachine : (thread : Thread) → Machine sig (Local thread)
  | .y => yMachine .main
  | .handler _ => xMachine

theorem world_framed (x y : Config) :
    Framed (worldMachine x y) World.Breaks localView localMachine where
  admits thread w β op reply hadm := by
    cases thread with
    | y => exact (Bool.and_eq_true_iff.mp hadm).1
    | handler c => exact (Bool.and_eq_true_iff.mp hadm).1
  effect thread w β op reply _ := by
    cases thread with
    | y => rfl
    | handler c => exact update_self ..
  other thread w β op reply _ viewer hne := by
    cases thread with
    | y =>
      cases viewer with
      | y => exact absurd rfl hne
      | handler c => rfl
    | handler c =>
      cases viewer with
      | y => rfl
      | handler c' =>
        have hc : c' ≠ c := fun h => hne (congrArg Thread.handler h)
        exact update_of_ne hc ..
  quiet w w' he viewer := by
    obtain ⟨c, rfl⟩ := he
    cases viewer <;> rfl

def Op.talks : {β : Type} → Op β → Bool
  | _, .dial _ _ => true
  | _, .send _ _ => true
  | _, .recv _ => true
  | _, .closeConn _ => true
  | _, _ => false

theorem yEffect_conns {β : Type} (who : Actor) (s : YState) {op : Op β} (reply : β)
    (h : op.talks = false) :
    (yEffect who s op reply).conns = s.conns ∧ (yEffect who s op reply).connCount = s.connCount := by
  cases op <;> first
    | exact ⟨rfl, rfl⟩
    | (cases reply <;> exact ⟨rfl, rfl⟩)
    | simp [Op.talks] at h

-- What has been received was sent, at either end. A handler whose Send
-- failed is on a failed connection; none runs before its connection is
-- dialled, and each serves this Y.
structure World.Linked (y : Config) (w : World) : Prop where
  down : ∀ c, (w.y.conns c).received <+: (w.x c).sent
  up : ∀ c, (w.x c).received <+: (w.y.conns c).sent
  failed : ∀ c, (w.x c).failed = true → w.broken c = true
  unborn : ∀ c, w.y.connCount ≤ c → (w.x c).started = false
  peer : ∀ c key, (w.x c).peer = some key → key = y.localPublicKey

section

variable {x y : Config} {w : World} {β : Type} {op : Op β} {reply : β}

theorem World.Linked.requests_le (h : w.Linked y) (c : ConnId) :
    requestCount (w.x c).received ≤ requestCount (w.y.conns c).sent :=
  (h.up c).sublist.countP_le

theorem World.Linked.readies_le (h : w.Linked y) (c : ConnId) :
    readyCount (w.y.conns c).received ≤ readyCount (w.x c).sent :=
  (h.down c).sublist.countP_le

theorem World.Linked.params_le (h : w.Linked y) (c : ConnId) :
    paramsCount (w.y.conns c).received ≤ paramsCount (w.x c).sent :=
  (h.down c).sublist.countP_le

theorem brokenAfter_mono (broken : ConnId → Bool) (op : Op β) (reply : β) {c : ConnId}
    (h : broken c = true) : brokenAfter broken op reply c = true := by
  unfold brokenAfter
  split
  · by_cases hc : c = ‹ConnId› <;> simp [update, hc, h]
  · exact h

variable {broken : ConnId → Bool}

theorem World.Linked.of_y (h : w.Linked y) {s : YState}
    (hreceived : ∀ c, (s.conns c).received <+: (w.x c).sent)
    (hsent : ∀ c, (w.x c).received <+: (s.conns c).sent) (hcount : w.y.connCount ≤ s.connCount)
    (hbroken : ∀ c, w.broken c = true → broken c = true) :
    World.Linked y { w with y := s, broken := broken } where
  down := hreceived
  up := hsent
  failed c hf := hbroken c (h.failed c hf)
  unborn c hc := h.unborn c (Nat.le_trans hcount hc)
  peer := h.peer

theorem World.Linked.update_y (h : w.Linked y) (c : ConnId) (f : ConnEnd → ConnEnd)
    (hreceived : (f (w.y.conns c)).received <+: (w.x c).sent)
    (hsent : (w.y.conns c).sent <+: (f (w.y.conns c)).sent)
    (hbroken : ∀ c, w.broken c = true → broken c = true) :
    World.Linked y { w with y := w.y.updateConn c f, broken := broken } := by
  refine h.of_y (fun c' => ?_) (fun c' => ?_) (Nat.le_refl _) hbroken
  all_goals
    by_cases hc : c' = c
    · subst hc
      simp only [YState.updateConn, update_self]
      first
        | exact hreceived
        | exact (h.up c').trans hsent
    · simp only [YState.updateConn, update_of_ne hc]
      first
        | exact h.down c'
        | exact h.up c'

theorem World.Linked.dial (h : w.Linked y) (hfresh : ∀ c, w.y.connCount ≤ c → w.y.conns c = {})
    {e : ConnEnd} (hreceived : e.received = []) :
    World.Linked y { w with y := w.y.withConn e } := by
  -- the handler of a connection that did not exist has received nothing
  have hnone : (w.x w.y.connCount).received = [] := by
    have hup := h.up w.y.connCount
    rw [hfresh _ (Nat.le_refl _)] at hup
    exact prefix_nil.mp hup
  refine h.of_y (fun c => ?_) (fun c => ?_) (Nat.le_succ _) (fun c hb => hb)
  all_goals
    by_cases hc : c = w.y.connCount
    · subst hc
      simp [YState.withConn, hreceived, hnone]
    · simp only [YState.withConn, update_of_ne hc]
      first
        | exact h.down c
        | exact h.up c

theorem World.Linked.step_y (h : w.Linked y) (hfresh : ∀ c, w.y.connCount ≤ c → w.y.conns c = {})
    (hadm : (worldMachine x y .y).admits w op reply = true) :
    ((worldMachine x y .y).effect w op reply).Linked y := by
  have hlink : yLink w op reply = true := (Bool.and_eq_true_iff.mp hadm).2
  by_cases htalks : op.talks = true
  · cases op with
    | dial controlAddr remote =>
      cases reply with
      | error err => exact h.dial hfresh rfl
      | ok conn => exact h.dial hfresh rfl
    | send c msg =>
      cases reply with
      | error err =>
        exact h.of_y h.down h.up (Nat.le_refl _) fun c' => brokenAfter_mono _ (.send c msg) _
      | ok _ =>
        refine h.update_y c (fun e => { e with sent := e.sent ++ [msg] }) ?_ ?_ fun c' hb => hb
        · exact h.down c
        · exact prefix_append _ _
    | recv c =>
      cases reply with
      | error err => exact { h with }
      | ok msg =>
        simp only [yLink, Bool.and_eq_true, decide_eq_true_eq] at hlink
        refine h.update_y c (fun e => { e with received := e.received ++ [msg] }) ?_ ?_
          fun c' hb => hb
        · exact hlink.2
        · exact prefix_rfl
    | closeConn c =>
      refine h.update_y c (fun e => { e with closed := true }) ?_ ?_ fun c' hb => hb
      · exact h.down c
      · exact prefix_rfl
    | _ => simp [Op.talks] at htalks
  · obtain ⟨hconns, hcount⟩ := yEffect_conns .main w.y reply (Bool.not_eq_true _ ▸ htalks)
    refine h.of_y ?_ ?_ (Nat.le_of_eq hcount.symm) fun c => brokenAfter_mono w.broken op reply
    · rw [hconns]
      exact h.down
    · rw [hconns]
      exact h.up

theorem World.Linked.of_x (h : w.Linked y) (c : ConnId) {l : XLocal} {session : State × GoString}
    (hsent : (w.x c).sent <+: l.sent) (hreceived : l.received <+: (w.y.conns c).sent)
    (hfailed : l.failed = true → broken c = true) (hunborn : w.y.connCount ≤ c → l.started = false)
    (hpeer : ∀ key, l.peer = some key → key = y.localPublicKey)
    (hbroken : ∀ c, w.broken c = true → broken c = true) :
    World.Linked y { w with x := update w.x c l, broken := broken, session := session } := by
  have hcases : ∀ c' (P : XLocal → Prop), (c' = c → P l) → (c' ≠ c → P (w.x c')) →
      P (update w.x c l c') := by
    intro c' P hself hother
    by_cases hc : c' = c
    · subst hc
      simpa using hself rfl
    · rw [update_of_ne hc]
      exact hother hc
  exact
  { down := fun c' => hcases c' (fun l => _ <+: l.sent) (fun hc => hc ▸ (h.down c).trans hsent)
      (fun _ => h.down c')
    up := fun c' => hcases c' (fun l => l.received <+: _) (fun hc => hc ▸ hreceived)
      (fun _ => h.up c')
    failed := fun c' => hcases c' (fun l => l.failed = true → broken c' = true)
      (fun hc => hc ▸ hfailed) (fun _ hf => hbroken c' (h.failed c' hf))
    unborn := fun c' => hcases c' (fun l => w.y.connCount ≤ c' → l.started = false)
      (fun hc => hc ▸ hunborn) (fun _ => h.unborn c')
    peer := fun c' => hcases c' (fun l => ∀ key, l.peer = some key → key = y.localPublicKey)
      (fun _ => hpeer) (fun _ => h.peer c') }

theorem World.Linked.step_x (h : w.Linked y) (c : ConnId)
    (hadm : (worldMachine x y (.handler c)).admits w op reply = true) :
    ((worldMachine x y (.handler c)).effect w op reply).Linked y := by
  have hlink : xLink x y c w op reply = true := (Bool.and_eq_true_iff.mp hadm).2
  cases op with
  | accept conn =>
    simp only [xLink, Bool.and_eq_true, decide_eq_true_eq, beq_iff_eq] at hlink
    refine h.of_x c prefix_rfl (h.up c) (h.failed c) (fun hc => ?_) (fun key hk => ?_)
      fun c' hb => hb
    · exact absurd hlink.1.1.2 (Nat.not_lt.mpr hc)
    · exact (Option.some.inj hk) ▸ hlink.2
  | send conn msg =>
    cases reply with
    | error err =>
      simp only [xLink, beq_iff_eq] at hlink
      refine h.of_x c prefix_rfl (h.up c) (fun _ => ?_) (h.unborn c) (h.peer c)
        fun c' => brokenAfter_mono _ (.send conn msg) _
      simp [brokenAfter, hlink]
    | ok _ =>
      refine h.of_x c ?_ ?_ ?_ ?_ ?_ fun c' hb => hb
      · exact prefix_append _ _
      · exact h.up c
      · exact h.failed c
      · exact h.unborn c
      · exact h.peer c
  | recv conn =>
    cases reply with
    | error err =>
      exact h.of_x c prefix_rfl (h.up c) (h.failed c) (h.unborn c) (h.peer c) fun c' hb => hb
    | ok msg =>
      simp only [xLink, Bool.and_eq_true, decide_eq_true_eq] at hlink
      refine h.of_x c ?_ ?_ ?_ ?_ ?_ fun c' hb => hb
      · exact prefix_rfl
      · exact hlink.2
      · exact h.failed c
      · exact h.unborn c
      · exact h.peer c
  | _ =>
    first
      | exact h.of_x c prefix_rfl (h.up c) (h.failed c) (h.unborn c) (h.peer c) fun c' hb => hb
      | (cases reply <;> exact h.of_x c prefix_rfl (h.up c) (h.failed c) (h.unborn c)
          (h.peer c) fun c' hb => hb)

theorem World.Linked.break (h : w.Linked y) {w' : World} (hb : w.Breaks w') : w'.Linked y := by
  obtain ⟨c, rfl⟩ := hb
  refine { h with failed := fun c' hf => ?_ }
  by_cases hc : c' = c
  · simp [hc]
  · simpa [update_of_ne hc] using h.failed c' hf

end

structure YState.Fresh (s : YState) : Prop where
  count : s.connCount = 0
  conns : ∀ c, s.conns c = {}

theorem YState.init_fresh : YState.init.Fresh :=
  ⟨rfl, fun _ => rfl⟩

-- Y runs `program`; X has a handler ready for every connection Y may dial.
def compose (x : Config) (program : Prog Unit) (s : YState) : WorldPool where
  threads
    | .y => program
    | .handler c => acceptX x c
  state := { y := s, x := fun _ => {}, broken := fun _ => false, session := (.idle, "") }

def worldSpec (x : Config) (sess : SessionKey) (upgrades : Prop) :
    (thread : Thread) → Spec sig (Local thread)
  | .y => ySpec sess upgrades
  | .handler _ => xSpec x

def worldGoal (x : Config) (goal : YState → Prop) : (thread : Thread) → Local thread → Prop
  | .y, s => goal s
  | .handler _, l => XInv x l ∧ XSettled l

theorem world_verified (x y : Config) (sess : SessionKey) (upgrades : Prop) (thread : Thread) :
    Verified (bodies x y) (localMachine thread) (worldSpec x sess upgrades thread) := by
  cases thread with
  | y => exact y_verified x y sess upgrades
  | handler c => exact x_verified x y

structure Composed (x y : Config) (sess : SessionKey) (upgrades : Prop) (goal : YState → Prop)
    (pool : WorldPool) : Prop where
  meets : pool.Meets localView localMachine (worldSpec x sess upgrades) (worldGoal x goal)
  linked : pool.state.Linked y
  fresh : ∀ c, pool.state.y.connCount ≤ c → pool.state.y.conns c = {}
  handlers : ∀ c, XInv x (pool.state.x c)

section

variable {x y : Config} {sess : SessionKey} {upgrades : Prop} {goal : YState → Prop}
variable {pool next : WorldPool} {label : WorldLabel}

theorem Composed.initial {program : Prog Unit} {s : YState} (hs : s.Fresh)
    (hwp : wp (yMachine .main) (ySpec sess upgrades) program (fun _ => goal) s) :
    Composed x y sess upgrades goal (compose x program s) where
  meets thread := by
    cases thread with
    | y => exact hwp
    | handler c => exact acceptX_meets x c
  linked :=
    { down := fun c => by simp [compose, hs.conns]
      up := fun c => by simp [compose]
      failed := fun c hf => by simp [compose] at hf
      unborn := fun c _ => rfl
      peer := fun c key hk => by simp [compose] at hk }
  fresh c _ := hs.conns c
  handlers c := .initial x false none

theorem Composed.step (h : Composed x y sess upgrades goal pool)
    (hs : Pool.Step (bodies x y) (worldMachine x y) World.Breaks pool label next) :
    Composed x y sess upgrades goal next ∧ label.Ok localView (worldSpec x sess upgrades) := by
  obtain ⟨hmeets, hok⟩ :=
    Pool.Meets.step (world_framed x y) (world_verified x y sess upgrades) hs h.meets
  refine ⟨?_, hok⟩
  cases hs with
  | @act β thread op rest reply ht hadm =>
    cases thread with
    | y =>
      have hinv : TalkInv sess _ := hok.1
      exact ⟨hmeets, h.linked.step_y h.fresh hadm, hinv.fresh, h.handlers⟩
    | handler c =>
      have hinv : XInv x _ := hok.1
      refine ⟨hmeets, h.linked.step_x c hadm, h.fresh, fun c' => ?_⟩
      by_cases hc : c' = c
      · exact hc ▸ hinv
      · have hother : ((worldMachine x y (.handler c)).effect pool.state op reply).x c' =
            pool.state.x c' := update_of_ne hc ..
        exact hother.symm ▸ h.handlers c'
  | @enter β thread proc rest ht => exact ⟨hmeets, h.linked, h.fresh, h.handlers⟩
  | @env w' he =>
    have hlinked := h.linked.break he
    obtain ⟨c, rfl⟩ := he
    exact ⟨hmeets, hlinked, h.fresh, h.handlers⟩

end

-- What the calls outside the model return in an otherwise uneventful run.
structure Outcomes where
  nat : NatClass
  attempt : AttemptResult
  addPeer : Except String Unit

def Outcomes.replyY (o : Outcomes) (w : World) : {β : Type} → Op β → Option β :=
  YOutcomes.reply { nat := o.nat }
    (fun c => nextMessage (w.x c).sent (w.y.conns c).received (w.isOpen c)) w.y

def Outcomes.replyX (o : Outcomes) (x y : Config) (c : ConnId) (w : World) :
    {β : Type} → Op β → Option β
  | _, .accept _ => x.authorizedPeers.find? fun auth => auth.publicKey == y.localPublicKey
  | _, .send _ _ => some (.ok ())
  | _, .recv _ => nextMessage (w.y.conns c).sent (w.x c).received (w.isOpen c)
  | _, .closeConn _ | _, .setState _ _ _ | _, .setDevice _ _ _ | _, .sleep => some ()
  | _, .parsePrefixes _ => some (.ok [])
  | _, .resolvePublicHost _ => some (.ok .invalid)
  | _, .attemptOnX _ _ _ => some o.attempt
  | _, .cloakedAddPeer _ _ => some o.addPeer
  | _, .cloakedHandshakeTime _ => some (some 1)
  | _, .now => some 0
  | _, _ => none

def Outcomes.reply (o : Outcomes) (x y : Config) : Thread → World → {β : Type} → Op β → Option β
  | .y, w, _, op => o.replyY w op
  | .handler c, w, _, op => o.replyX x y c w op

def turns (shifts : List (Thread × Nat)) : List Thread :=
  shifts.flatMap fun shift => List.replicate shift.2 shift.1

def Outcomes.play (o : Outcomes) (x y : Config) (allowed : WorldLabel → Bool)
    (schedule : List Thread) (first : WorldPool) : Option WorldPool :=
  Pool.replay (bodies x y) (worldMachine x y) (o.reply x y) allowed schedule first

theorem Outcomes.reaches (o : Outcomes) (x y : Config) (allowed : WorldLabel → Bool)
    (schedule : List Thread) (first : WorldPool) (P : WorldPool → Bool)
    (h : (o.play x y allowed schedule first).any P = true) :
    ∃ labels last, Pool.Steps (bodies x y) (worldMachine x y) World.Breaks first labels last ∧
      (∀ label ∈ labels, allowed label = true) ∧ P last = true :=
  Pool.reaches_of_replay World.Breaks P h

end StarlingWg.Orchestrate
