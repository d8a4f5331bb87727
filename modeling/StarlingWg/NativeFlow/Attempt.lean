import StarlingWg.Interaction.Pool
import StarlingWg.Interaction.Refinement
import StarlingWg.NativeFlow.SharedDevice
import StarlingWg.Orchestrate.Effects

namespace StarlingWg.NativeFlow

open Control Interaction
open Orchestrate (AttemptResult)

inductive Op : Type → Type
  | removePeer (pk : Key) : Op (Except IpcFailure Unit)
  | addPeer (pk : Key) (endpoint : AddrPort) (allowedIPs : List Prefix) :
      Op (Except IpcFailure Unit)
  | handshakeTime (pk : Key) : Op (Option Time)
  | now : Op Time
  | sleep (duration : Int) : Op Unit
  | returned (result : AttemptResult) : Op Unit

inductive Proc : Type → Type
  | poll (remotePub : Key) (attemptFloor deadline : Time) (pollInterval : Int) : Proc Bool

abbrev sig : Signature where
  Op := Op
  Proc := Proc

abbrev Prog (α : Type) := Program sig α

abbrev perform {β : Type} (op : Op β) : Prog β := Program.act op

abbrev invoke {β : Type} (proc : Proc β) : Prog β := Program.call proc

-- The wait for the handshake. It reports whether one was seen before the deadline.
def poll (remotePub : Key) (attemptFloor deadline : Time) (pollInterval : Int) : Prog Bool := do
  let t ← perform .now
  if t < deadline then
    let found ← perform (.handshakeTime remotePub)
    if found.any fun t => attemptFloor ≤ t then
      return true
    perform (.sleep pollInterval)
    invoke (.poll remotePub attemptFloor deadline pollInterval)
  else
    return false

def bodies : Bodies sig
  | _, .poll remotePub attemptFloor deadline pollInterval =>
    poll remotePub attemptFloor deadline pollInterval

def attemptOnX (remotePub : Key) (allowedIPs : List Prefix) (externalAddr : AddrPort)
    (timeout pollInterval : Int) : Prog AttemptResult := do
  match ← perform (.removePeer remotePub) with
  | .error err => return ⟨false, "remove-stale-peer-failed: " ++ err.text⟩
  | .ok _ =>
    let attemptStart ← perform .now
    let attemptFloor := truncate attemptStart
    match ← perform (.addPeer remotePub externalAddr allowedIPs) with
    | .error err => return ⟨false, "add-peer-failed: " ++ err.text⟩
    | .ok _ =>
      let deadline := attemptStart + timeout
      if ← invoke (.poll remotePub attemptFloor deadline pollInterval) then
        return ⟨true, ""⟩
      match ← perform (.removePeer remotePub) with
      | .error err => return ⟨false, "handshake-timeout (cleanup also failed: " ++ err.text ++ ")"⟩
      | .ok _ => return ⟨false, "handshake-timeout"⟩

structure Attempt where
  remotePub : Key
  allowedIPs : List Prefix
  externalAddr : AddrPort
  timeout : Int
  pollInterval : Int

def Attempt.program (a : Attempt) : Prog Unit := do
  let result ← attemptOnX a.remotePub a.allowedIPs a.externalAddr a.timeout a.pollInterval
  perform (.returned result)

-- How far an attempt has come: its peer not yet removed; removed and not yet
-- added again; added, and whether the last poll found it; given up; returned.
inductive Phase
  | waiting
  | cleared
  | opened (found : Bool)
  | failing
  | returned (result : AttemptResult)
  deriving DecidableEq, Repr

def Phase.Open (p : Phase) : Prop :=
  ∃ found, p = .opened found

instance (p : Phase) : Decidable p.Open :=
  match p with
  | .opened found => .isTrue ⟨found, rfl⟩
  | .waiting | .cleared | .failing | .returned _ => .isFalse (by simp [Phase.Open])

def Phase.removed : Phase → Except IpcFailure Unit → Phase
  | .waiting, .ok _ => .cleared
  | .opened _, _ => .failing
  | p, _ => p

def Phase.added : Except IpcFailure Unit → Phase
  | .ok _ => .opened false
  | .error _ => .failing

def Phase.polled (p : Phase) (found : Bool) : Phase :=
  if p.Open then .opened found else p

def Phase.step (p : Phase) : {β : Type} → Op β → β → Phase
  | _, .removePeer _, reply => p.removed reply
  | _, .addPeer _ _ _, reply => .added reply
  | _, .handshakeTime _, found => p.polled found.isSome
  | _, .now, _ => p
  | _, .sleep _, _ => p
  | _, .returned result, _ => .returned result

def phaseMachine : Machine sig Phase where
  admits := fun _ {_} _ _ => true
  effect := fun p {_} op reply => p.step op reply

-- An attempt removes its peer before adding it and again when it gives up,
-- polls in between, and reports success only when the last poll found the peer.
def attemptSpec (a : Attempt) : Spec sig Phase where
  good p _ op _ _ := match op with
    | .removePeer pk => pk = a.remotePub ∧ (p = .waiting ∨ p.Open)
    | .addPeer pk endpoint _ => pk = a.remotePub ∧ endpoint = a.externalAddr ∧ p = .cleared
    | .handshakeTime pk => pk = a.remotePub ∧ p.Open
    | .returned result => p ≠ .cleared ∧ (result.success = true → p = .opened true)
    | _ => True
  pre
    | .poll remotePub _ _ _, p => remotePub = a.remotePub ∧ p.Open
  post
    | .poll _ _ _ _, _, result, p' => p'.Open ∧ (result = true → p' = .opened true)

section

variable {a : Attempt}

theorem poll_holds {attemptFloor deadline : Time} {pollInterval : Int} {p : Phase} (hp : p.Open) :
    wp phaseMachine (attemptSpec a) (poll a.remotePub attemptFloor deadline pollInterval)
      (fun result p' => p'.Open ∧ (result = true → p' = .opened true)) p := by
  obtain ⟨found, rfl⟩ := hp
  unfold poll
  simp only [wp_bind, wp_act]
  refine fun t _ => ⟨trivial, ?_⟩
  split
  · simp only [wp_bind, wp_act]
    refine fun seen _ => ⟨⟨rfl, found, rfl⟩, ?_⟩
    cases seen with
    | none => exact fun _ _ => ⟨trivial, ⟨rfl, false, rfl⟩, fun _ _ h => h⟩
    | some t =>
      split
      · exact ⟨⟨true, rfl⟩, fun _ => rfl⟩
      · exact fun _ _ => ⟨trivial, ⟨rfl, true, rfl⟩, fun _ _ h => h⟩
  · exact ⟨⟨found, rfl⟩, fun h => Bool.noConfusion h⟩

theorem attempt_verified : Verified bodies phaseMachine (attemptSpec a) := by
  intro β proc p hpre
  cases proc with
  | poll remotePub attemptFloor deadline pollInterval =>
    obtain ⟨rfl, hopen⟩ := hpre
    exact poll_holds hopen

theorem attempt_holds : wp phaseMachine (attemptSpec a) a.program (fun _ _ => True) .waiting := by
  unfold Attempt.program attemptOnX
  rintro (err | _) -
  · refine ⟨⟨rfl, .inl rfl⟩, fun _ _ => ⟨⟨?_, by simp⟩, trivial⟩⟩
    simp [phaseMachine, Phase.step, Phase.removed, Phase.added]
  refine ⟨⟨rfl, .inl rfl⟩, ?_⟩
  refine fun attemptStart _ => ⟨trivial, ?_⟩
  rintro (err | _) -
  · refine ⟨⟨rfl, rfl, rfl⟩, fun _ _ => ⟨⟨?_, by simp⟩, trivial⟩⟩
    simp [phaseMachine, Phase.step, Phase.removed, Phase.added]
  refine ⟨⟨rfl, rfl, rfl⟩, ?_⟩
  refine ⟨⟨rfl, false, rfl⟩, ?_⟩
  rintro (_ | _) p ⟨⟨found, rfl⟩, hfound⟩
  · dsimp only
    rintro (err | _) -
    · exact ⟨⟨rfl, .inr ⟨found, rfl⟩⟩,
        fun _ _ => ⟨⟨by simp [phaseMachine, Phase.step, Phase.removed, Phase.added], by simp⟩, trivial⟩⟩
    · exact ⟨⟨rfl, .inr ⟨found, rfl⟩⟩,
        fun _ _ => ⟨⟨by simp [phaseMachine, Phase.step, Phase.removed, Phase.added], by simp⟩, trivial⟩⟩
  · exact fun _ _ => ⟨⟨by simp, fun _ => hfound rfl⟩, trivial⟩

end

end StarlingWg.NativeFlow
