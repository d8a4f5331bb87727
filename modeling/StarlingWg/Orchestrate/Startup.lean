import StarlingWg.Orchestrate.Config
import Mathlib.Data.List.Basic

namespace StarlingWg.Orchestrate

inductive Panic
  | nilDereference
  | closeOfClosedChannel
  deriving DecidableEq, Repr

-- natprobe.Responder: its socket and its done channel.
structure Responder where
  listening : Bool := true
  done : Bool := false
  deriving DecidableEq, Repr

def Responder.close (r : Responder) : Except Panic Responder :=
  if r.done then .error .closeOfClosedChannel else .ok ⟨false, true⟩

-- A value of the interface nativeflow.SharedDevice: nil, a nil
-- *xshared.SharedDevice, one with its device, or what the caller supplied.
inductive DataPlane
  | nil
  | nilPointer
  | shared (up : Bool)
  | supplied (up : Bool)
  deriving DecidableEq, Repr

def DataPlane.close : DataPlane → Except Panic DataPlane
  | .nil => .error .nilDereference
  | .nilPointer => .error .nilDereference
  | .shared _ => .ok (.shared false)
  | .supplied _ => .ok (.supplied false)

inductive InterfaceEvent
  | up (cloaked : Bool)
  | down (cloaked : Bool)
  deriving DecidableEq, Repr

-- The fields of an Orchestrator that startX and Stop use, as NewOrchestrator
-- leaves them. A listener is the one of the control channel, open or closed.
structure Orchestrator where
  probeA : Option Responder := none
  probeB : Option Responder := none
  ctrlListener : Option Bool := none
  native : DataPlane := .nil
  cloaked : DataPlane := .nil
  events : List InterfaceEvent := []
  deriving DecidableEq, Repr

namespace Orchestrator

def emit (o : Orchestrator) (ev : InterfaceEvent) : Orchestrator :=
  if o.events.length < 32 then { o with events := o.events ++ [ev] } else o

def closeProbe : Option Responder → Except Panic (Option Responder)
  | none => .ok none
  | some r => r.close.map some

def closeNative (o : Orchestrator) : Except Panic Orchestrator :=
  if o.native = .nil then .ok o
  else o.native.close.map fun native => { o with native := native }.emit (.down false)

def closeCloaked (o : Orchestrator) : Except Panic Orchestrator :=
  if o.cloaked = .nil then .ok o
  else o.cloaked.close.map fun cloaked => { o with cloaked := cloaked }.emit (.down true)

-- Before the control listener is up there are no sessions to close.
def stop (o : Orchestrator) : Except Panic Orchestrator := do
  let probeA ← closeProbe o.probeA
  let probeB ← closeProbe o.probeB
  let o := { o with
    probeA := probeA, probeB := probeB, ctrlListener := o.ctrlListener.map fun _ => false }
  let o ← o.closeNative
  o.closeCloaked

end Orchestrator

inductive StartPoint
  | probeA
  | probeB
  | native
  | cloaked
  | listen
  deriving DecidableEq, Repr

-- xshared.New closes its device before it returns an error. The nil pointer
-- it then returns is stored in the interface.
def newShared (failure : Option String) : DataPlane :=
  if failure.isSome then .nilPointer else .shared true

def listenX (failure : Option String) (o : Orchestrator) :
    Except Panic (Orchestrator × Option String) := do
  let o := (o.emit (.up false)).emit (.up true)
  match failure with
  | some err =>
    let o ← o.stop
    return (o, some ("orchestrate: listen on ControlListenAddr: " ++ err))
  | none => return ({ o with ctrlListener := some true }, none)

def startCloaked (cfg : Config) (fails : StartPoint → Option String) (o : Orchestrator) :
    Except Panic (Orchestrator × Option String) := do
  if cfg.hasCloakedDataPlane then
    listenX (fails .listen) { o with cloaked := .supplied true }
  else
    let o := { o with cloaked := newShared (fails .cloaked) }
    match fails .cloaked with
    | some err =>
      let o ← o.stop
      return (o, some ("orchestrate: bring up shared cloaked Device: " ++ err))
    | none => listenX (fails .listen) o

def startNative (cfg : Config) (fails : StartPoint → Option String) (o : Orchestrator) :
    Except Panic (Orchestrator × Option String) := do
  if cfg.hasNativeDataPlane then
    startCloaked cfg fails { o with native := .supplied true }
  else
    let o := { o with native := newShared (fails .native) }
    match fails .native with
    | some err =>
      let probeA ← Orchestrator.closeProbe o.probeA
      let probeB ← Orchestrator.closeProbe o.probeB
      return ({ o with probeA := probeA, probeB := probeB },
        some ("orchestrate: bring up shared native Device: " ++ err))
    | none => startCloaked cfg fails o

-- What startX leaves, with the error it returns. `fails` gives the error of
-- each call that would fail.
def startX (cfg : Config) (fails : StartPoint → Option String) :
    Except Panic (Orchestrator × Option String) := do
  match fails .probeA with
  | some err => return ({}, some ("orchestrate: start NAT probe responder A: " ++ err))
  | none =>
    match fails .probeB with
    | some err =>
      let probeA ← Orchestrator.closeProbe (some {})
      return ({ probeA := probeA }, some ("orchestrate: start NAT probe responder B: " ++ err))
    | none => startNative cfg fails { probeA := some {}, probeB := some {} }

section

def failurePoint (cfg : Config) (fails : StartPoint → Option String) : Option StartPoint :=
  if (fails .probeA).isSome then some .probeA
  else if (fails .probeB).isSome then some .probeB
  else if !cfg.hasNativeDataPlane && (fails .native).isSome then some .native
  else if !cfg.hasCloakedDataPlane && (fails .cloaked).isSome then some .cloaked
  else if (fails .listen).isSome then some .listen
  else none

structure Orchestrator.Closed (o : Orchestrator) : Prop where
  probeA : ∀ r, o.probeA = some r → r.listening = false
  probeB : ∀ r, o.probeB = some r → r.listening = false
  ctrlListener : o.ctrlListener ≠ some true
  native : o.native ≠ .shared true
  cloaked : o.cloaked ≠ .shared true

def CleanFailure (cfg : Config) (fails : StartPoint → Option String) : Prop :=
  ∃ o err, startX cfg fails = .ok (o, some err) ∧ o.Closed ∧ ∃ o', o.stop = .ok o'

variable {cfg : Config} {fails : StartPoint → Option String} {o o' : Orchestrator} {err : String}
  {r : Responder}

theorem Orchestrator.stop_of_done (hr : o.probeA = some r)
    (hdone : r.done = true) : o.stop = .error .closeOfClosedChannel := by
  simp only [stop, hr, closeProbe, Responder.close, hdone, if_true]
  rfl

theorem Orchestrator.closeProbe_ok {probe probe' : Option Responder}
    (h : closeProbe probe = .ok probe') (hr : probe = some r) :
    probe' = some ⟨false, true⟩ := by
  subst hr
  simp only [closeProbe, Responder.close] at h
  split at h
  · cases h
  · exact (Except.ok.inj h).symm

@[simp] theorem Orchestrator.emit_probeA (o : Orchestrator) (ev : InterfaceEvent) :
    (o.emit ev).probeA = o.probeA := by
  unfold emit
  split <;> rfl

theorem Orchestrator.map_emit_probeA {close : Except Panic DataPlane}
    {put : DataPlane → Orchestrator} {ev : InterfaceEvent}
    (h : (close.map fun d => (put d).emit ev) = .ok o') (hput : ∀ d, (put d).probeA = o.probeA) :
    o'.probeA = o.probeA := by
  cases close with
  | error panic => cases h
  | ok d => rw [← Except.ok.inj h, emit_probeA, hput]

theorem Orchestrator.closeNative_probeA (h : o.closeNative = .ok o') : o'.probeA = o.probeA := by
  unfold closeNative at h
  split at h
  · rw [Except.ok.inj h]
  · exact map_emit_probeA h fun _ => rfl

theorem Orchestrator.closeCloaked_probeA (h : o.closeCloaked = .ok o') : o'.probeA = o.probeA := by
  unfold closeCloaked at h
  split at h
  · rw [Except.ok.inj h]
  · exact map_emit_probeA h fun _ => rfl

theorem Orchestrator.stop_done (h : o.stop = .ok o') (hr : o.probeA = some r) :
    o'.probeA = some ⟨false, true⟩ := by
  unfold stop at h
  cases hA : closeProbe o.probeA with
  | error panic => rw [hA] at h; cases h
  | ok probeA =>
    cases hB : closeProbe o.probeB with
    | error panic => rw [hA, hB] at h; cases h
    | ok probeB =>
      rw [hA, hB] at h
      simp only [bind, Except.bind] at h
      split at h
      · cases h
      · next o₁ hnative =>
          rw [closeCloaked_probeA h, closeNative_probeA hnative]
          exact closeProbe_ok hA hr

theorem listenX_done {failure : Option String} (h : listenX failure o = .ok (o', some err))
    (hr : o.probeA = some r) : o'.probeA = some ⟨false, true⟩ := by
  unfold listenX at h
  cases failure with
  | none => simp [pure, Except.pure] at h
  | some cause =>
    simp only [bind, Except.bind] at h
    split at h
    · cases h
    · next o₁ hstop =>
        cases h
        exact Orchestrator.stop_done hstop (by simpa using hr)

theorem startCloaked_done (h : startCloaked cfg fails o = .ok (o', some err)) (hr : o.probeA = some r) :
    o'.probeA = some ⟨false, true⟩ := by
  unfold startCloaked at h
  split at h
  · exact listenX_done h hr
  · simp only [bind, Except.bind] at h
    split at h
    · split at h
      · cases h
      · next o₁ hstop =>
          cases h
          exact Orchestrator.stop_done hstop hr
    · exact listenX_done h hr

theorem startNative_done (h : startNative cfg fails o = .ok (o', some err)) (hr : o.probeA = some r) :
    o'.probeA = some ⟨false, true⟩ := by
  unfold startNative at h
  split at h
  · exact startCloaked_done h hr
  · simp only [bind, Except.bind] at h
    split at h
    · split at h
      · cases h
      · next probeA hA =>
          split at h
          · cases h
          · cases h
            exact Orchestrator.closeProbe_ok hA hr
    · exact startCloaked_done h hr

theorem startX_done (hA : fails .probeA = none) (h : startX cfg fails = .ok (o, some err)) :
    o.probeA = some ⟨false, true⟩ := by
  simp only [startX, hA] at h
  split at h
  · cases h
    rfl
  · exact startNative_done h rfl

theorem failurePoint_probeA_iff :
    failurePoint cfg fails = some .probeA ↔ (fails .probeA).isSome = true := by
  unfold failurePoint
  split
  · next hA => simp [hA]
  · next hA =>
      refine ⟨fun h => ?_, fun h => absurd h hA⟩
      split_ifs at h <;> simp at h

-- After a later failure, Stop panics.
theorem cleanFailure_iff (cfg : Config) (fails : StartPoint → Option String) :
    CleanFailure cfg fails ↔ failurePoint cfg fails = some .probeA := by
  constructor
  · rintro ⟨o, err, hstart, -, o', hstop⟩
    cases hA : fails .probeA with
    | some cause => exact failurePoint_probeA_iff.mpr (by simp [hA])
    | none =>
      have hdone := startX_done hA hstart
      rw [Orchestrator.stop_of_done hdone rfl] at hstop
      cases hstop
  · intro hpoint
    obtain ⟨cause, hcause⟩ := Option.isSome_iff_exists.mp (failurePoint_probeA_iff.mp hpoint)
    refine ⟨{}, "orchestrate: start NAT probe responder A: " ++ cause, ?_, ?_, {}, rfl⟩
    · simp only [startX, hcause]
      rfl
    · exact ⟨by simp, by simp, by simp, by simp, by simp⟩

def failAt (point : StartPoint) : StartPoint → Option String :=
  fun p => if p = point then some "failed" else none

-- Stop closes a closed channel, or Start calls a method of a nil pointer.
theorem failed_start_unclean : sampleX.validate = .ok () ∧
    (∃ o err, startX sampleX (failAt .probeB) = .ok (o, some err) ∧
      o.stop = .error .closeOfClosedChannel) ∧
    (∃ o err, startX sampleX (failAt .native) = .ok (o, some err) ∧
      o.stop = .error .closeOfClosedChannel) ∧
    startX sampleX (failAt .cloaked) = .error .nilDereference ∧
    ∃ o err, startX sampleX (failAt .listen) = .ok (o, some err) ∧
      o.stop = .error .closeOfClosedChannel :=
  ⟨rfl, ⟨_, _, rfl, rfl⟩, ⟨_, _, rfl, rfl⟩, rfl, ⟨_, _, rfl, rfl⟩⟩

end

end StarlingWg.Orchestrate
