import StarlingWg.Interaction.Pool
import StarlingWg.Orchestrate.Config

namespace StarlingWg.Orchestrate.Events

open Control
open Interaction
open Function (update_of_ne update_self update_eq_self)

inductive Mode
  | native
  | cloaked
  deriving DecidableEq, Repr

-- The empty string is `none`.
def modeForState : State → Option Mode
  | .connectedNative => some .native
  | .connectedCloaked => some .cloaked
  | _ => none

inductive EventKind
  | connected
  | disconnected
  deriving DecidableEq, Repr

structure Event where
  kind : EventKind
  sessionKey : GoString
  mode : Option Mode
  reason : GoString
  deriving DecidableEq, Repr

structure Change where
  prev : State
  next : State
  reason : GoString
  deriving DecidableEq, Repr

def sessionEvent (key : GoString) (change : Change) : Option Event :=
  match modeForState change.next with
  | some mode => some ⟨.connected, key, some mode, change.reason⟩
  | none =>
    if modeForState change.prev ≠ none then some ⟨.disconnected, key, none, change.reason⟩
    else none

-- The part of setState under the lock, with the state it replaced and whether
-- anything changed; and one event offered to the channel, which takes it or
-- is full.
inductive EventOp : Type → Type
  | update (st : State) (reason : GoString) : EventOp (State × Bool)
  | emit (event : Event) : EventOp Bool

def sig : Signature where
  Op := EventOp
  Proc _ := Empty

def perform {β : Type} (op : EventOp β) : Program sig β :=
  @Program.act sig β op

def emitSessionEvent (key : GoString) (change : Change) : Program sig Unit :=
  match sessionEvent key change with
  | some event => do
      let _ ← perform (.emit event)
  | none => return

def setState (key : GoString) (st : State) (reason : GoString) : Program sig Unit := do
  let (prev, changed) ← perform (.update st reason)
  if changed then emitSessionEvent key ⟨prev, st, reason⟩

def handler (key : GoString) : List (State × GoString) → Program sig Unit
  | [] => return
  | (st, reason) :: calls => do
      setState key st reason
      handler key calls

section

-- One session and the events of its key. `changes` are its actual changes, and
-- `pending` is the event that a call has yet to emit.
structure World (ι : Type) where
  state : State
  reason : GoString
  events : List Event
  changes : List Change
  pending : ι → Option Event

variable {ι : Type} [DecidableEq ι]

def World.changed (w : World ι) (st : State) (reason : GoString) : Bool :=
  w.state ≠ st ∨ w.reason ≠ reason

def World.update (w : World ι) (key : GoString) (i : ι) (st : State) (reason : GoString) :
    World ι :=
  let change : Change := ⟨w.state, st, reason⟩
  { w with
    state := st
    reason := reason
    changes := if w.changed st reason then w.changes ++ [change] else w.changes
    pending := Function.update w.pending i
      (if w.changed st reason then sessionEvent key change else none) }

def World.emit (w : World ι) (i : ι) (event : Event) (taken : Bool) : World ι :=
  { w with
    events := if taken then w.events ++ [event] else w.events
    pending := Function.update w.pending i none }

def machine (key : GoString) (i : ι) : Machine sig (World ι) where
  admits w _ op reply :=
    match (op : EventOp _), reply with
    | .update st reason, reply => reply == (w.state, w.changed st reason)
    | .emit _, _ => true
  effect w _ op reply :=
    match (op : EventOp _), reply with
    | .update st reason, _ => w.update key i st reason
    | .emit event, taken => w.emit i event taken

def noBodies : Bodies sig := fun proc => nomatch proc

def launch (key : GoString) (calls : ι → List (State × GoString)) : Pool sig ι (World ι) where
  threads i := handler key (calls i)
  state := ⟨.idle, ⟨[]⟩, [], [], fun _ => none⟩

abbrev Runs (key : GoString) (calls : ι → List (State × GoString)) :
    List (Label sig ι (World ι)) → Pool sig ι (World ι) → Prop :=
  Pool.Steps noBodies (machine key) (fun _ _ => False) (launch key calls)

def Taken : Label sig ι (World ι) → Prop
  | .act _ _ op reply _ =>
    match (op : EventOp _), reply with
    | .emit _, taken => taken = true
    | .update _ _, _ => True
  | _ => True

-- A change that makes an event finds no other event still to be emitted.
def Serial : Label sig ι (World ι) → Prop
  | .act i w op _ w' =>
    match (op : EventOp _) with
    | .update _ _ => w'.pending i ≠ none → ∀ j, j ≠ i → w.pending j = none
    | .emit _ => True
  | _ => True

def Told (events : List Event) (state : State) : Prop :=
  match modeForState state, events.getLast? with
  | some mode, some event => event.kind = .connected ∧ event.mode = some mode
  | some _, none => False
  | none, some event => event.kind = .disconnected
  | none, none => True

structure Agrees (key : GoString) (w : World ι) : Prop where
  told : Told w.events w.state
  order : w.events = w.changes.filterMap (sessionEvent key)

end

section

def alone (key : GoString) : Machine sig (Option Event) where
  admits _ _ _ _ := true
  effect _ _ op reply :=
    match (op : EventOp _), reply with
    | .update st reason, (prev, changed) =>
      if changed then sessionEvent key ⟨prev, st, reason⟩ else none
    | .emit _, _ => none

def spec : Spec sig (Option Event) where
  good pending _ op _ _ :=
    match (op : EventOp _) with
    | .update _ _ => pending = none
    | .emit event => pending = some event
  pre _ _ := False
  post _ _ _ _ := True

theorem setState_meets (key : GoString) (st : State) (reason : GoString) :
    wp (alone key) spec (setState key st reason) (fun _ pending => pending = none) none := by
  simp only [setState, wp_bind]
  rintro ⟨prev, changed⟩ -
  refine ⟨rfl, ?_⟩
  cases changed with
  | false => rfl
  | true =>
    change wp _ _ (emitSessionEvent key ⟨prev, st, reason⟩) _ (sessionEvent key ⟨prev, st, reason⟩)
    unfold emitSessionEvent
    cases sessionEvent key ⟨prev, st, reason⟩ with
    | none => rfl
    | some event => exact fun _ _ => ⟨rfl, rfl⟩

theorem handler_meets (key : GoString) (calls : List (State × GoString)) :
    wp (alone key) spec (handler key calls) (fun _ pending => pending = none) none := by
  induction calls with
  | nil => rfl
  | cons call calls ih =>
    simp only [handler, wp_bind]
    refine wp_mono (setState_meets key call.1 call.2) fun _ pending hp => ?_
    rw [hp]
    exact ih

variable {ι : Type} [DecidableEq ι]

theorem framed (key : GoString) :
    Framed (machine key) (fun _ _ => False) (fun (i : ι) w => w.pending i) (fun _ => alone key) where
  admits _ _ _ _ _ _ := rfl
  effect i w _ op reply hadm := by
    cases op with
    | update st reason =>
      obtain rfl : reply = (w.state, w.changed st reason) := by simpa [machine] using hadm
      exact update_self ..
    | emit event => exact update_self ..
  other i w _ op reply _ j hj := by
    cases op with
    | update st reason => exact update_of_ne hj ..
    | emit event => exact update_of_ne hj ..
  quiet _ _ h := h.elim

end

section

variable {ι : Type} [DecidableEq ι] {key : GoString}

theorem Told.change {events : List Event} {state : State} (h : Told events state) (st : State)
    (reason : GoString) :
    Told (events ++ (sessionEvent key ⟨state, st, reason⟩).toList) st := by
  unfold Told sessionEvent
  cases hst : modeForState st with
  | some mode => simp
  | none =>
    cases hs : modeForState state with
    | some mode => simp
    | none =>
      unfold Told at h
      rw [hs] at h
      simpa using h

structure Following (key : GoString) (w : World ι) : Prop where
  told : Told (w.changes.filterMap (sessionEvent key)) w.state
  order : ((∀ i, w.pending i = none) ∧ w.events = w.changes.filterMap (sessionEvent key)) ∨
    ∃ i event, w.pending i = some event ∧ (∀ j, j ≠ i → w.pending j = none) ∧
      w.events ++ [event] = w.changes.filterMap (sessionEvent key)

theorem filterMap_snoc (changes : List Change) (change : Change) :
    (changes ++ [change]).filterMap (sessionEvent key) =
      changes.filterMap (sessionEvent key) ++ (sessionEvent key change).toList := by
  cases h : sessionEvent key change <;> simp [h]

theorem Following.update {w : World ι} (hw : Following key w) {i : ι} {st : State}
    {reason : GoString} (hi : w.pending i = none)
    (hserial : (w.update key i st reason).pending i ≠ none → ∀ j, j ≠ i → w.pending j = none) :
    Following key (w.update key i st reason) := by
  simp only [World.update, update_self] at hserial
  cases hc : w.changed st reason with
  | false =>
    have hst : w.state = st := by
      simp only [World.changed, decide_eq_false_iff_not, not_or, ne_eq, not_not] at hc
      exact hc.1
    have hpending : Function.update w.pending i none = w.pending := by
      rw [← hi, update_eq_self]
    simp only [World.update, hc, Bool.false_eq_true, if_false, hpending]
    exact ⟨hst ▸ hw.told, hw.order⟩
  | true =>
    simp only [hc, if_true] at hserial
    simp only [World.update, hc, if_true]
    refine ⟨?_, ?_⟩
    · rw [filterMap_snoc]
      exact hw.told.change st reason
    · simp only [filterMap_snoc]
      cases he : sessionEvent key ⟨w.state, st, reason⟩ with
      | none =>
        have hpending : Function.update w.pending i none = w.pending := by
          rw [← hi, update_eq_self]
        simpa [hpending] using hw.order
      | some event =>
        -- nothing else is pending, so the events so far are complete
        have hothers := hserial (by simp [he])
        have hnone : ∀ j, w.pending j = none := fun j => by
          by_cases hj : j = i
          · rw [hj, hi]
          · exact hothers j hj
        have hevents : w.events = w.changes.filterMap (sessionEvent key) := by
          rcases hw.order with ⟨-, h⟩ | ⟨j, event', hj, -⟩
          · exact h
          · simp [hnone j] at hj
        refine .inr ⟨i, event, update_self .., fun j hj => ?_, ?_⟩
        · rw [update_of_ne hj, hnone j]
        · rw [hevents]
          rfl

theorem Following.emit {w : World ι} (hw : Following key w) {i : ι} {event : Event}
    (hi : w.pending i = some event) : Following key (w.emit i event true) := by
  refine ⟨hw.told, .inl ?_⟩
  rcases hw.order with ⟨hnone, -⟩ | ⟨j, event', hj, hothers, hevents⟩
  · simp [hnone i] at hi
  · obtain rfl : j = i := by
      by_contra hne
      simp [hothers i (Ne.symm hne)] at hi
    obtain rfl : event' = event := Option.some.inj (hj.symm.trans hi)
    refine ⟨fun k => ?_, by simpa [World.emit] using hevents⟩
    by_cases hk : k = j
    · rw [hk]
      exact update_self ..
    · exact (update_of_ne hk ..).trans (hothers k hk)

theorem noBodies_verified : Verified noBodies (alone key) spec := fun _ _ h => h.elim

theorem Following.step {pool next : Pool sig ι (World ι)} {label : Label sig ι (World ι)}
    (hstep : Pool.Step noBodies (machine key) (fun _ _ => False) pool label next)
    (htaken : Taken label) (hserial : Serial label)
    (hok : label.Ok (fun i w => w.pending i) (fun _ => spec)) (hw : Following key pool.state) :
    Following key next.state := by
  cases hstep with
  | @act β i op rest reply _ _ =>
    cases op with
    | update st reason => exact hw.update hok hserial
    | emit event =>
      obtain rfl : reply = true := htaken
      exact hw.emit hok
  | @enter _ _ proc => exact Empty.elim proc
  | env h => exact h.elim

-- OnEvent is called after the lock is released.
theorem events_agree_of_serial {calls : ι → List (State × GoString)}
    {labels : List (Label sig ι (World ι))} {last : Pool sig ι (World ι)}
    (hr : Runs key calls labels last) (htaken : ∀ label ∈ labels, Taken label)
    (hserial : ∀ label ∈ labels, Serial label) (hdone : ∀ i, last.threads i = .done ()) :
    Agrees key last.state := by
  have hinv := hr.along (fun label => Taken label ∧ Serial label) (fun _ => True)
    (fun pool => pool.Meets (fun (i : ι) (w : World ι) => w.pending i) (fun _ => alone key)
      (fun _ => spec) (fun _ pending => pending = none) ∧ Following key pool.state)
    (fun label hl => ⟨htaken label hl, hserial label hl⟩)
    ⟨fun i => handler_meets key (calls i), trivial, .inl ⟨fun _ => rfl, rfl⟩⟩
    fun pool label next hg hstep ⟨hm, hf⟩ => by
      obtain ⟨hm', hok⟩ := Pool.Meets.step (framed key) (fun _ => noBodies_verified) hstep hm
      exact ⟨⟨hm', hf.step hstep hg.1 hg.2 hok⟩, trivial⟩
  obtain ⟨hmeets, hfollow⟩ := hinv.1
  have hnone : ∀ i, last.state.pending i = none := fun i => by
    have hi := hmeets i
    rw [hdone i] at hi
    exact hi
  rcases hfollow.order with ⟨-, hevents⟩ | ⟨i, event, hi, -⟩
  · exact ⟨hevents ▸ hfollow.told, hevents⟩
  · simp [hnone i] at hi

end

def sampleCalls (i : Fin 2) : List (State × GoString) :=
  if i = 0 then [(.connectedNative, ⟨[]⟩)] else [(.failed, ⟨[]⟩)]

def sampleReply (w : World (Fin 2)) : {β : Type} → EventOp β → Option β
  | _, .update st reason => some (w.state, w.changed st reason)
  | _, .emit _ => some true

def takenLabel : Label sig (Fin 2) (World (Fin 2)) → Bool
  | .act _ _ op reply _ =>
    match (op : EventOp _), reply with
    | .emit _, taken => taken
    | .update _ _, _ => true
  | _ => true

theorem taken_of_takenLabel {label : Label sig (Fin 2) (World (Fin 2))}
    (h : takenLabel label = true) : Taken label := by
  cases label with
  | @act β i w op reply w' =>
    cases op with
    | update st reason => trivial
    | emit event => exact h
  | _ => trivial

def serialLabel : Label sig (Fin 2) (World (Fin 2)) → Bool
  | .act i w op _ w' =>
    match (op : EventOp _) with
    | .update _ _ => decide (w'.pending i ≠ none → ∀ j, j ≠ i → w.pending j = none)
    | .emit _ => true
  | _ => true

theorem serial_of_serialLabel {label : Label sig (Fin 2) (World (Fin 2))}
    (h : serialLabel label = true) : Serial label := by
  cases label with
  | @act β i w op reply w' =>
    cases op with
    | update st reason =>
      have hserial : w'.pending i ≠ none → ∀ j, j ≠ i → w.pending j = none := of_decide_eq_true h
      exact hserial
    | emit event => trivial
  | _ => trivial

def isDone {α : Type} : Program sig α → Bool
  | .done _ => true
  | _ => false

theorem eq_done {program : Program sig Unit} (h : isDone program = true) : program = .done () := by
  cases program with
  | done value => rfl
  | perform op next => cases h
  | invoke proc next => cases h

theorem sample_reaches (allowed : Label sig (Fin 2) (World (Fin 2)) → Bool) (schedule : List (Fin 2))
    (P : World (Fin 2) → Bool)
    (h : (Pool.replay noBodies (machine ⟨[]⟩) (fun _ w {_} op => sampleReply w op)
      (fun label => takenLabel label && allowed label) schedule (launch ⟨[]⟩ sampleCalls)).any
      (fun last => decide (∀ i, isDone (last.threads i) = true) && P last.state) = true) :
    ∃ labels last, Runs ⟨[]⟩ sampleCalls labels last ∧ (∀ label ∈ labels, Taken label) ∧
      (∀ label ∈ labels, allowed label = true) ∧ (∀ i, last.threads i = .done ()) ∧
      P last.state = true := by
  obtain ⟨labels, last, hr, hl, hp⟩ := Pool.reaches_of_replay (fun _ _ => False) _ h
  obtain ⟨hdone, hp⟩ := Bool.and_eq_true_iff.mp hp
  have hboth : ∀ label ∈ labels, takenLabel label = true ∧ allowed label = true := fun label hlabel =>
    Bool.and_eq_true_iff.mp (hl label hlabel)
  exact ⟨labels, last, hr, fun label hlabel => taken_of_takenLabel (hboth label hlabel).1,
    fun label hlabel => (hboth label hlabel).2, fun i => eq_done (of_decide_eq_true hdone i), hp⟩

theorem events_out_of_order :
    ∃ labels last, Runs ⟨[]⟩ sampleCalls labels last ∧ (∀ label ∈ labels, Taken label) ∧
      (∀ i, last.threads i = .done ()) ∧ last.state.state = .failed ∧
      last.state.events.map Event.kind = [.disconnected, .connected] ∧
      ¬Agrees ⟨[]⟩ last.state := by
  obtain ⟨labels, last, hr, htaken, -, hdone, hp⟩ := sample_reaches (fun _ => true) [0, 1, 1, 0]
    (fun w => decide (w.state = .failed ∧ w.events.map Event.kind = [.disconnected, .connected]))
    (by decide +kernel)
  obtain ⟨hstate, hevents⟩ := of_decide_eq_true hp
  refine ⟨labels, last, hr, htaken, hdone, hstate, hevents, fun hagrees => ?_⟩
  have htold := hagrees.told
  have hlast : last.state.events.getLast?.map Event.kind = some .connected := by
    rw [← List.getLast?_map, hevents]
    rfl
  obtain ⟨event, hevent, hkind⟩ := Option.map_eq_some_iff.mp hlast
  rw [Told, hstate, hevent] at htold
  exact absurd (hkind.symm.trans htold) (by decide)

theorem events_agree_of_serial_sample :
    ∃ labels last, Runs ⟨[]⟩ sampleCalls labels last ∧
      last.state.events.map Event.kind = [.connected, .disconnected] ∧
      Agrees ⟨[]⟩ last.state := by
  obtain ⟨labels, last, hr, htaken, hserial, hdone, hp⟩ := sample_reaches serialLabel [0, 0, 1, 1]
    (fun w => decide (w.events.map Event.kind = [.connected, .disconnected])) (by decide +kernel)
  exact ⟨labels, last, hr, of_decide_eq_true hp, events_agree_of_serial hr htaken
    (fun label hlabel => serial_of_serialLabel (hserial label hlabel)) hdone⟩

end StarlingWg.Orchestrate.Events
