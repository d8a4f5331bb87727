import StarlingWg.Interaction.Program
import StarlingWg.Orchestrate.Obfuscation

namespace StarlingWg.Orchestrate

open Control Interaction

-- A session is named by the peer's ControlAddr on Y and by Y's key on X.
inductive SessionKey
  | addr (controlAddr : String)
  | peer (key : Key)
  deriving DecidableEq, Repr

-- What a device reads from: a session of the shared TUN, or nativeflow.NewNoopTUN.
inductive Tun
  | session (id : TunId)
  | noop
  deriving DecidableEq, Repr

-- What a device sends through: a PreboundBind around a socket it does not
-- own, or conn.NewDefaultBind, which owns its own.
inductive Bind
  | prebound (socket : SockId)
  | default
  deriving DecidableEq, Repr

inductive NatClass
  | unknown
  | cone
  | symmetric
  deriving DecidableEq, Repr

structure NatResult where
  natClass : NatClass
  externalAddr : AddrPort
  deriving DecidableEq, Repr

structure AttemptResult where
  success : Bool
  reason : String
  deriving DecidableEq, Repr

-- What the select of superviseY can take.
inductive Wakeup
  | ctxDone
  | netChange (ok : Bool)
  | liveness
  deriving DecidableEq, Repr

-- The calls of package orchestrate that act on the world. Errors are their
-- texts; a time is in nanoseconds and a handshake time is zero when none has
-- completed. `accept` hands over what X knows of the peer that dialled;
-- calling a method of a nil device never returns.
inductive Op : Type → Type
  | accept (conn : ConnId) : Op PeerAuthorization
  | dial (controlAddr : String) (remote : Key) : Op (Except String ConnId)
  | send (conn : ConnId) (msg : Message) : Op (Except String Unit)
  | recv (conn : ConnId) : Op (Except String Message)
  | closeConn (conn : ConnId) : Op Unit
  | setState (sess : SessionKey) (state : State) (reason : GoString) : Op Unit
  | getState (sess : SessionKey) : Op State
  | setDevice (sess : SessionKey) (dev : Option DevId) (extraCloser : Option SockId) : Op Unit
  | takeDevice (sess : SessionKey) : Op (Option DevId × Option SockId)
  | getDevice (sess : SessionKey) : Op (Option DevId)
  | parsePrefixes (cidrs : List String) : Op (Except String (List Prefix))
  | resolveX (controlAddr : String) : Op (Except String Addr)
  | resolvePublicHost (host : String) : Op (Except String Addr)
  | singleFamilyUDP (addr : Addr) : Op (Except String SockId)
  | closeSocket (socket : SockId) : Op Unit
  | characterize (socket : SockId) (portA portB : AddrPort) : Op (Except String NatResult)
  | punch (socket : SockId) (xNativeAddr : AddrPort) : Op (Except String Unit)
  | attach : Op TunId
  | newDevice (tun : Tun) (bind : Bind) : Op DevId
  | ipcSet (dev : DevId) (conf : List UapiLine) : Op (Except String Unit)
  | up (dev : DevId) : Op (Except String Unit)
  | closeDev (dev : DevId) : Op Unit
  | handshakeTime (dev : DevId) (peer : Key) : Op (Option Nat)
  | rxBytes (dev : DevId) (peer : Key) : Op (Option Nat)
  | nilDevice : Op Empty
  | randomSessionID : Op SessionID
  | now : Op Int
  | sleep : Op Unit
  | loadSession (key : String) : Op (Option String)
  | saveSession (key mode : String) (externalAddr : Option AddrPort) : Op Unit
  | subscribe : Op (Except String Unit)
  | select (netChange : Bool) : Op Wakeup
  | spawn (peer : Nat) : Op Unit
  | spawned (peer : Nat) : Op Unit
  | attemptOnX (remotePub : Key) (allowedIPs : List Prefix) (externalAddr : AddrPort) :
      Op AttemptResult
  | cloakedAddPeer (remotePub : Key) (allowedIPs : List Prefix) : Op (Except String Unit)
  | cloakedHandshakeTime (remotePub : Key) : Op (Option Nat)

-- The locals superviseY carries round its loop. A zero time.Time is none.
structure Supervision where
  netChange : Bool
  lastBgAttempt : Option Int
  lastDev : Option DevId
  lastRx : Nat
  lastProgress : Option Int

-- The functions whose return matters and the loops of the others, each with
-- the variables in scope at its head.
inductive Proc : Type → Type
  | serveX (c : ConnId) (sess : SessionKey) (remotePub : Key) (allowedIPs : List Prefix) : Proc Unit
  | pollX (remotePub : Key) (deadline : Int) : Proc Bool
  | runY (pc : PeerConfig) (hint : ModeHint) : Proc (Except String Unit)
  | nativeWait (cc : ConnId) (pc : PeerConfig) (allowedIPs : List Prefix) (ySocket : SockId)
      (yDev : DevId) (externalAddr : AddrPort) (sid : SessionID) : Proc (Except String Unit)
  | cloakedWait (cc : ConnId) (pc : PeerConfig) (allowedIPs : List Prefix) :
      Proc (Except String Unit)
  | pollY (dev : DevId) (peer : Key) (deadline : Int) : Proc Bool
  | attemptBackgroundNative (pc : PeerConfig) : Proc Bool
  | backgroundWait (cc : ConnId) (pc : PeerConfig) (allowedIPs : List Prefix)
      (probeSocket : SockId) (probeDev : DevId) (externalAddr : AddrPort) (sid : SessionID)
      (deadline : Int) : Proc Bool
  | waitForNativeReady (cc : ConnId) (sid : SessionID) (deadline : Int) : Proc Bool
  | supervise (pc : PeerConfig) (sup : Supervision) : Proc Unit

abbrev sig : Signature where
  Op := Op
  Proc := Proc

abbrev Prog (α : Type) := Program sig α

abbrev perform {β : Type} (op : Op β) : Prog β := Program.act op

abbrev invoke {β : Type} (proc : Proc β) : Prog β := Program.call proc

-- A deferred call: it runs when the body is done, whatever the body returned.
def deferring {α : Type} (cleanup : α → Prog Unit) (body : Prog α) : Prog α := do
  let result ← body
  cleanup result
  return result

end StarlingWg.Orchestrate
