import StarlingWg.Orchestrate.YSide
import Mathlib.Logic.Function.Basic

namespace StarlingWg.Orchestrate

open Control Interaction Function

-- Who closes or supersedes a session of the shared TUN: startY itself or the
-- supervisor of a peer.
inductive Actor
  | main
  | supervisor (peer : Nat)
  deriving DecidableEq, Repr

-- Session of session.go. `since` counts the control connections dialled
-- when the state was last set.
structure Session where
  state : State := .idle
  reason : GoString := ""
  dev : Option DevId := none
  extraCloser : Option SockId := none
  since : Nat := 0

structure Device where
  tun : Tun := .noop
  bind : Bind := .default
  conf : List UapiLine := []
  closed : Bool := false

structure ConnEnd where
  sent : List Message := []
  received : List Message := []
  closed : Bool := false

structure YState where
  sessions : SessionKey → Session
  active : Option TunId
  tunCount : Nat
  detachedBy : TunId → Option Actor
  devices : DevId → Device
  devCount : Nat
  sockOpen : SockId → Bool
  sockCount : Nat
  conns : ConnId → ConnEnd
  connCount : Nat
  spawned : Nat → Bool

namespace YState

def init : YState where
  sessions _ := {}
  active := none
  tunCount := 0
  detachedBy _ := none
  devices _ := {}
  devCount := 0
  sockOpen _ := false
  sockCount := 0
  conns _ := {}
  connCount := 0
  spawned _ := false

def updateSession (s : YState) (sess : SessionKey) (f : Session → Session) : YState :=
  { s with sessions := update s.sessions sess (f (s.sessions sess)) }

abbrev setState (s : YState) (sess : SessionKey) (state : State) (reason : GoString) : YState :=
  s.updateSession sess fun v => { v with state := state, reason := reason, since := s.connCount }

def updateDevice (s : YState) (dev : DevId) (f : Device → Device) : YState :=
  { s with devices := update s.devices dev (f (s.devices dev)) }

def updateConn (s : YState) (conn : ConnId) (f : ConnEnd → ConnEnd) : YState :=
  { s with conns := update s.conns conn (f (s.conns conn)) }

abbrev receive (s : YState) (conn : ConnId) (messages : List Message) : YState :=
  s.updateConn conn fun e => { e with received := e.received ++ messages }

abbrev send (s : YState) (conn : ConnId) (msg : Message) : YState :=
  s.updateConn conn fun e => { e with sent := e.sent ++ [msg] }

-- Who last took sharedTUN.active from each session, once `who` takes it
-- from the present one.
def release (who : Actor) (s : YState) : TunId → Option Actor :=
  match s.active with
  | none => s.detachedBy
  | some tun => update s.detachedBy tun (some who)

-- sharedTUN.attach: the new session becomes the active one whatever was
-- active before.
def attach (who : Actor) (s : YState) : YState :=
  { s with
    active := some s.tunCount
    detachedBy := s.release who
    tunCount := s.tunCount + 1 }

-- Closing the device takes the shared TUN from it. tunSession.Close acts
-- once, and only if its session is still the active one.
def holds (s : YState) (dev : DevId) : Bool :=
  !(s.devices dev).closed && s.active.map Tun.session == some (s.devices dev).tun

def closeDev (who : Actor) (s : YState) (dev : DevId) : YState :=
  { s with
    active := if s.holds dev then none else s.active
    detachedBy := if s.holds dev then s.release who else s.detachedBy
    devices := update s.devices dev { s.devices dev with closed := true } }

def withConn (s : YState) (e : ConnEnd) : YState :=
  { s with
    conns := update s.conns s.connCount e
    connCount := s.connCount + 1 }

def openSocket (s : YState) : YState :=
  { s with
    sockOpen := update s.sockOpen s.sockCount true
    sockCount := s.sockCount + 1 }

def closeSocket (s : YState) (socket : SockId) : YState :=
  { s with sockOpen := update s.sockOpen socket false }

def openDevice (s : YState) (tun : Tun) (bind : Bind) : YState :=
  { s with
    devices := update s.devices s.devCount { tun := tun, bind := bind }
    devCount := s.devCount + 1 }

end YState

-- The replies of a call the model does not compute are arbitrary. The calls
-- of the X side are not admitted.
def yAdmits (s : YState) : {β : Type} → Op β → β → Bool
  | _, .dial _ _, .ok conn => conn == s.connCount
  | _, .getState sess, state => state == (s.sessions sess).state
  | _, .takeDevice sess, taken => taken == ((s.sessions sess).dev, (s.sessions sess).extraCloser)
  | _, .getDevice sess, dev => dev == (s.sessions sess).dev
  | _, .singleFamilyUDP _, .ok socket => socket == s.sockCount
  | _, .attach, tun => tun == s.tunCount
  | _, .newDevice _ _, dev => dev == s.devCount
  | _, .select netChange, .netChange _ => netChange
  | _, .spawned peer, _ => s.spawned peer
  | _, .accept _, _ | _, .resolvePublicHost _, _ | _, .attemptOnX _ _ _, _
  | _, .cloakedAddPeer _ _, _ | _, .cloakedHandshakeTime _, _ => false
  | _, _, _ => true

-- A dial that fails may have reached X all the same, so it uses up a
-- connection, closed at this end.
def yEffect (who : Actor) (s : YState) : {β : Type} → Op β → β → YState
  | _, .dial _ _, .ok _ => s.withConn {}
  | _, .dial _ _, .error _ => s.withConn { closed := true }
  | _, .send conn msg, .ok _ => s.send conn msg
  | _, .recv conn, .ok msg => s.receive conn [msg]
  | _, .closeConn conn, _ => s.updateConn conn fun e => { e with closed := true }
  | _, .setState sess state reason, _ => s.setState sess state reason
  | _, .setDevice sess dev extraCloser, _ =>
    s.updateSession sess fun v => { v with dev := dev, extraCloser := extraCloser }
  | _, .takeDevice sess, _ => s.updateSession sess fun v => { v with dev := none, extraCloser := none }
  | _, .singleFamilyUDP _, .ok _ => s.openSocket
  | _, .closeSocket socket, _ => s.closeSocket socket
  | _, .attach, _ => s.attach who
  | _, .newDevice tun bind, _ => s.openDevice tun bind
  | _, .ipcSet dev conf, .ok _ => s.updateDevice dev fun d => { d with conf := d.conf ++ conf }
  | _, .closeDev dev, _ => s.closeDev who dev
  | _, .spawn peer, _ => { s with spawned := update s.spawned peer true }
  | _, _, _ => s

def yMachine (who : Actor) : Machine sig YState where
  admits s := yAdmits s
  effect s := yEffect who s

section

@[simp] def yEvery (who : Actor) (s : YState) : {β : Type} → Op β → (β → YState → Prop) → Prop
  | _, .dial _ _, P =>
    (∀ err, P (.error err) (s.withConn { closed := true })) ∧ P (.ok s.connCount) (s.withConn {})
  | _, .send conn msg, P => (∀ err, P (.error err) s) ∧ P (.ok ()) (s.send conn msg)
  | _, .recv conn, P => (∀ err, P (.error err) s) ∧ ∀ msg, P (.ok msg) (s.receive conn [msg])
  | _, .closeConn conn, P => P () (s.updateConn conn fun e => { e with closed := true })
  | _, .setState sess state reason, P => P () (s.setState sess state reason)
  | _, .getState sess, P => P (s.sessions sess).state s
  | _, .setDevice sess dev extraCloser, P =>
    P () (s.updateSession sess fun v => { v with dev := dev, extraCloser := extraCloser })
  | _, .takeDevice sess, P => P ((s.sessions sess).dev, (s.sessions sess).extraCloser)
    (s.updateSession sess fun v => { v with dev := none, extraCloser := none })
  | _, .getDevice sess, P => P (s.sessions sess).dev s
  | _, .singleFamilyUDP _, P => (∀ err, P (.error err) s) ∧ P (.ok s.sockCount) s.openSocket
  | _, .closeSocket socket, P => P () (s.closeSocket socket)
  | _, .attach, P => P s.tunCount (s.attach who)
  | _, .newDevice tun bind, P => P s.devCount (s.openDevice tun bind)
  | _, .ipcSet dev conf, P => (∀ err, P (.error err) s) ∧
    P (.ok ()) (s.updateDevice dev fun d => { d with conf := d.conf ++ conf })
  | _, .closeDev dev, P => P () (s.closeDev who dev)
  | _, .select netChange, P =>
    P .ctxDone s ∧ (netChange = true → ∀ ok, P (.netChange ok) s) ∧ P .liveness s
  | _, .spawn peer, P => P () { s with spawned := update s.spawned peer true }
  | _, .spawned peer, P => s.spawned peer = true → P () s
  | _, .nilDevice, _ | _, .accept _, _ | _, .resolvePublicHost _, _ | _, .attemptOnX _ _ _, _
  | _, .cloakedAddPeer _ _, _ | _, .cloakedHandshakeTime _, _ => True
  | _, .up _, P | _, .parsePrefixes _, P | _, .resolveX _, P | _, .characterize _ _ _, P
  | _, .punch _ _, P | _, .handshakeTime _ _, P | _, .rxBytes _ _, P | _, .randomSessionID, P
  | _, .now, P | _, .sleep, P | _, .loadSession _, P | _, .saveSession _ _ _, P
  | _, .subscribe, P => ∀ reply, P reply s

variable {who : Actor} {spec : Spec sig YState} {s : YState}

theorem wp_y {β : Type} {op : Op β} {Q : β → YState → Prop} :
    wp (yMachine who) spec (perform op) Q s ↔
      yEvery who s op fun reply s' => spec.good s op reply s' ∧ Q reply s' := by
  constructor
  · intro h
    cases op with
    | dial | singleFamilyUDP =>
      exact ⟨fun err => h (.error err) rfl, h (.ok _) (beq_self_eq_true _)⟩
    | send | ipcSet => exact ⟨fun err => h (.error err) rfl, h (.ok ()) rfl⟩
    | recv => exact ⟨fun err => h (.error err) rfl, fun msg => h (.ok msg) rfl⟩
    | closeConn | setState | setDevice | closeSocket | closeDev | spawn => exact h () rfl
    | getState | takeDevice | getDevice | attach | newDevice => exact h _ (beq_self_eq_true _)
    | select => exact ⟨h .ctxDone rfl, fun hn ok => h (.netChange ok) hn, h .liveness rfl⟩
    | spawned => exact h ()
    | nilDevice | accept | resolvePublicHost | attemptOnX | cloakedAddPeer | cloakedHandshakeTime =>
      trivial
    | _ => exact fun reply => h reply rfl
  · intro h reply hadm
    cases op with
    | dial | singleFamilyUDP =>
      rcases reply with err | value
      · exact h.1 err
      · obtain rfl := beq_iff_eq.mp hadm
        exact h.2
    | send | ipcSet =>
      rcases reply with err | _
      · exact h.1 err
      · exact h.2
    | recv =>
      rcases reply with err | msg
      · exact h.1 err
      · exact h.2 msg
    | closeConn | setState | setDevice | closeSocket | closeDev | spawn => exact h
    | getState | takeDevice | getDevice | attach | newDevice =>
      obtain rfl := beq_iff_eq.mp hadm
      exact h
    | select =>
      rcases reply with _ | ok | _
      · exact h.1
      · exact h.2.1 hadm ok
      · exact h.2.2
    | spawned => exact h hadm
    | nilDevice => exact reply.elim
    | accept | resolvePublicHost | attemptOnX | cloakedAddPeer | cloakedHandshakeTime =>
      exact Bool.noConfusion hadm
    | _ => exact h reply

end

structure YOutcomes where
  nat : NatClass := .cone
  ipcSet : DevId → Except String Unit := fun _ => .ok ()
  wakeup : Wakeup := .liveness

def nextMessage (sent received : List Message) (isOpen : Bool) : Option (Except String Message) :=
  match sent[received.length]? with
  | some msg => some (.ok msg)
  | none => if isOpen then none else some (.error "EOF")

def YOutcomes.reply (o : YOutcomes) (recv : ConnId → Option (Except String Message)) (s : YState) :
    {β : Type} → Op β → Option β
  | _, .dial _ _ => some (.ok s.connCount)
  | _, .send _ _ => some (.ok ())
  | _, .recv c => recv c
  | _, .getState sess => some (s.sessions sess).state
  | _, .takeDevice sess => some ((s.sessions sess).dev, (s.sessions sess).extraCloser)
  | _, .getDevice sess => some (s.sessions sess).dev
  | _, .parsePrefixes _ => some (.ok [])
  | _, .resolveX _ => some (.ok .invalid)
  | _, .singleFamilyUDP _ => some (.ok s.sockCount)
  | _, .characterize _ _ _ => some (.ok ⟨o.nat, ⟨.invalid, 0⟩⟩)
  | _, .punch _ _ => some (.ok ())
  | _, .attach => some s.tunCount
  | _, .newDevice _ _ => some s.devCount
  | _, .ipcSet dev _ => some (o.ipcSet dev)
  | _, .up _ => some (.ok ())
  | _, .handshakeTime _ _ => some (some 1)
  | _, .rxBytes _ _ => some (some 0)
  | _, .randomSessionID => some 0
  | _, .now => some 0
  | _, .loadSession _ => some none
  | _, .subscribe => some (.error "")
  | _, .select _ => some o.wakeup
  | _, .closeConn _ | _, .setState _ _ _ | _, .setDevice _ _ _ | _, .closeSocket _ | _, .closeDev _
  | _, .sleep | _, .saveSession _ _ _ | _, .spawn _ | _, .spawned _ => some ()
  | _, _ => none

def YOutcomes.scripted (o : YOutcomes) (inbox : ConnId → List Message) (s : YState) :
    {β : Type} → Op β → Option β :=
  o.reply (fun c => nextMessage (inbox c) (s.conns c).received false) s

def YOutcomes.play {α : Type} (o : YOutcomes) (x y : Config) (inbox : ConnId → List Message)
    (who : Actor) (program : Prog α) (s : YState) :
    Option (List (Event sig YState) × α × YState) :=
  replay (bodies x y) (yMachine who) (o.scripted inbox) 200 program s

theorem YOutcomes.runs {α : Type} (o : YOutcomes) (x y : Config) (inbox : ConnId → List Message)
    (who : Actor) (program : Prog α) (s : YState)
    (P : List (Event sig YState) × α × YState → Bool)
    (h : (o.play x y inbox who program s).any P = true) :
    ∃ trace value s', Run (bodies x y) (yMachine who) program s trace value s' ∧
      P (trace, value, s') = true :=
  run_of_replay P h

def sampleInbox : List Message :=
  [.hello ⟨RoleX, sampleX.localPublicKey, 1⟩, .xInfo ⟨3478, 3479, 51821, 51822⟩, .nativeReady ⟨0⟩]

end StarlingWg.Orchestrate
