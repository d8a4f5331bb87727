import StarlingWg.Orchestrate.XMachine
import StarlingWg.Orchestrate.YMachine

namespace StarlingWg.Orchestrate

open Control

def isRequest : Message → Bool
  | .nativeEndpointReport _ => true
  | .modeDecision m => m.mode == ModeCloaked
  | _ => false

def isReady : Message → Bool
  | .nativeReady _ => true
  | _ => false

def isParams : Message → Bool
  | .cloakedParams _ => true
  | _ => false

def reported : Message → Option SessionID
  | .nativeEndpointReport m => some m.sessionID
  | _ => none

def answered : Message → Option SessionID
  | .nativeReady m => some m.sessionID
  | .nativeFailed m => some m.sessionID
  | _ => none

abbrev requestCount (messages : List Message) : Nat := messages.countP isRequest

abbrev readyCount (messages : List Message) : Nat := messages.countP isReady

abbrev paramsCount (messages : List Message) : Nat := messages.countP isParams

@[simp] theorem filterMap_singleton {β : Type} (f : Message → Option β) (msg : Message) :
    [msg].filterMap f = (f msg).toList := rfl

theorem countP_snoc (p : Message → Bool) (messages : List Message) (msg : Message) :
    (messages ++ [msg]).countP p = messages.countP p + (p msg).toNat := by
  cases h : p msg <;> simp [List.countP_append, h]

-- A NativeFailed has been sent and its CloakedParams have not.
def owedStep (owing : Bool) : Message → Bool
  | .nativeFailed _ => true
  | .cloakedParams _ => false
  | _ => owing

def owed (messages : List Message) : Bool := messages.foldl owedStep false

@[simp] theorem owed_snoc (messages : List Message) (msg : Message) :
    owed (messages ++ [msg]) = owedStep (owed messages) msg := by
  simp [owed]

def Waiting (e : ConnEnd) : Prop :=
  e.received.length < 2 ∨
  (∃ m, .nativeEndpointReport m ∈ e.sent ∧ ∀ r ∈ e.received, answered r ≠ some m.sessionID) ∨
  owed e.received = true ∨
  (paramsCount e.received = 0 ∧ ∃ m, .modeDecision m ∈ e.sent ∧ m.mode = ModeCloaked)

-- A Connected session of Y rests on the newest connection at the time: X
-- has answered every request made there with NativeReady, or has answered
-- the only one with CloakedParams.
structure Backed (state : State) (since : Nat) (conns : ConnId → ConnEnd) : Prop where
  since_pos : state.Connected → 0 < since
  native : state = .connectedNative → 0 < requestCount (conns (since - 1)).sent ∧
    requestCount (conns (since - 1)).sent ≤ readyCount (conns (since - 1)).received
  cloaked : state = .connectedCloaked → requestCount (conns (since - 1)).sent ≤ 1 ∧
    0 < paramsCount (conns (since - 1)).received

variable {state : State} {since : Nat} {conns : ConnId → ConnEnd}

theorem Backed.of_not_connected (h : ¬state.Connected) : Backed state since conns where
  since_pos hc := absurd hc h
  native hc := absurd (.inl hc) h
  cloaked hc := absurd (.inr hc) h

theorem Backed.update {c : ConnId} {e : ConnEnd} (h : Backed state since conns)
    (hc : state.Connected → since - 1 ≠ c) : Backed state since (Function.update conns c e) where
  since_pos := h.since_pos
  native hn := by
    rw [Function.update_of_ne (hc (.inl hn))]
    exact h.native hn
  cloaked hn := by
    rw [Function.update_of_ne (hc (.inr hn))]
    exact h.cloaked hn

theorem Backed.close (h : Backed state since conns) (c : ConnId) :
    Backed state since (Function.update conns c { conns c with closed := true }) := by
  by_cases hc : since - 1 = c
  · subst hc
    exact
    { since_pos := h.since_pos
      native := fun hn => by simpa using h.native hn
      cloaked := fun hn => by simpa using h.cloaked hn }
  · exact h.update fun _ => hc

end StarlingWg.Orchestrate
