import StarlingWg.Orchestrate.XSide

namespace StarlingWg.Orchestrate

open Control Interaction

-- What one handleXConn goroutine has done so far: its end of the connection,
-- whether a Send has failed, the native attempts it made with their results,
-- the keys it added to the cloaked device, whether AddPeer or
-- resolvePublicHost failed, and the state it last gave the session.
structure XLocal where
  started : Bool := false
  peer : Option Key := none
  sent : List Message := []
  received : List Message := []
  closed : Bool := false
  failed : Bool := false
  attempts : List (AddrPort × AttemptResult) := []
  added : List Key := []
  refused : Bool := false
  wrote : Option (State × GoString) := none

def xAdmits (_ : XLocal) : {β : Type} → Op β → β → Bool
  | _, .accept _, _ | _, .send _ _, _ | _, .recv _, _ | _, .closeConn _, _ | _, .setState _ _ _, _
  | _, .setDevice _ _ _, _ | _, .parsePrefixes _, _ | _, .resolvePublicHost _, _
  | _, .attemptOnX _ _ _, _ | _, .cloakedAddPeer _ _, _ | _, .cloakedHandshakeTime _, _
  | _, .now, _ | _, .sleep, _ => true
  | _, _, _ => false

def xEffect (l : XLocal) : {β : Type} → Op β → β → XLocal
  | _, .accept _, auth => { l with started := true, peer := some auth.publicKey }
  | _, .send _ msg, .ok _ => { l with sent := l.sent ++ [msg] }
  | _, .send _ _, .error _ => { l with failed := true }
  | _, .recv _, .ok msg => { l with received := l.received ++ [msg] }
  | _, .closeConn _, _ => { l with closed := true }
  | _, .setState _ state reason, _ => { l with wrote := some (state, reason) }
  | _, .resolvePublicHost _, .error _ => { l with refused := true }
  | _, .attemptOnX _ _ externalAddr, res => { l with attempts := l.attempts ++ [(externalAddr, res)] }
  | _, .cloakedAddPeer remotePub _, .ok _ => { l with added := l.added ++ [remotePub] }
  | _, .cloakedAddPeer _ _, .error _ => { l with refused := true }
  | _, _, _ => l

def xMachine : Machine sig XLocal where
  admits l := xAdmits l
  effect l := xEffect l

@[simp] def xEvery (l : XLocal) : {β : Type} → Op β → (β → XLocal → Prop) → Prop
  | _, .accept _, P => ∀ auth, P auth { l with started := true, peer := some auth.publicKey }
  | _, .send _ msg, P =>
    (∀ err, P (.error err) { l with failed := true }) ∧ P (.ok ()) { l with sent := l.sent ++ [msg] }
  | _, .recv _, P =>
    (∀ err, P (.error err) l) ∧ ∀ msg, P (.ok msg) { l with received := l.received ++ [msg] }
  | _, .closeConn _, P => P () { l with closed := true }
  | _, .setState _ state reason, P => P () { l with wrote := some (state, reason) }
  | _, .setDevice _ _ _, P => P () l
  | _, .resolvePublicHost _, P =>
    (∀ err, P (.error err) { l with refused := true }) ∧ ∀ addr, P (.ok addr) l
  | _, .attemptOnX _ _ externalAddr, P =>
    ∀ res, P res { l with attempts := l.attempts ++ [(externalAddr, res)] }
  | _, .cloakedAddPeer remotePub _, P => (∀ err, P (.error err) { l with refused := true }) ∧
    P (.ok ()) { l with added := l.added ++ [remotePub] }
  | _, .sleep, P => P () l
  | _, .parsePrefixes _, P | _, .cloakedHandshakeTime _, P | _, .now, P => ∀ reply, P reply l
  | _, _, _ => True

theorem wp_x {spec : Spec sig XLocal} {l : XLocal} {β : Type} {op : Op β} {Q : β → XLocal → Prop} :
    wp xMachine spec (perform op) Q l ↔
      xEvery l op fun reply l' => spec.good l op reply l' ∧ Q reply l' := by
  constructor
  · intro h
    cases op with
    | send | cloakedAddPeer => exact ⟨fun err => h (.error err) rfl, h (.ok ()) rfl⟩
    | recv | resolvePublicHost => exact ⟨fun err => h (.error err) rfl, fun value => h (.ok value) rfl⟩
    | closeConn | setState | setDevice | sleep => exact h () rfl
    | accept | attemptOnX | parsePrefixes | cloakedHandshakeTime | now => exact fun reply => h reply rfl
    | _ => trivial
  · intro h reply hadm
    cases op with
    | send | cloakedAddPeer =>
      rcases reply with err | _
      · exact h.1 err
      · exact h.2
    | recv | resolvePublicHost =>
      rcases reply with err | value
      · exact h.1 err
      · exact h.2 value
    | closeConn | setState | setDevice | sleep => exact h
    | accept | attemptOnX | parsePrefixes | cloakedHandshakeTime | now => exact h reply
    | _ => exact Bool.noConfusion hadm

end StarlingWg.Orchestrate
