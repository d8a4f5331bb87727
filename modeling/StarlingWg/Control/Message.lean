import Mathlib.Data.Nat.Notation
import StarlingWg.Bytes

namespace StarlingWg.Control

-- netip.Addr; a zone belongs to an IPv6 address only.
inductive Addr
  | invalid
  | v4 (bits : BitVec 32)
  | v6 (bits : BitVec 128) (zone : String)
  deriving DecidableEq, Repr

-- A Go string is any sequence of bytes.
structure GoString where
  bytes : Bytes
  deriving DecidableEq, Repr

def GoString.ofString (text : String) : GoString :=
  ⟨text.toUTF8.data.toList⟩

instance : Coe String GoString :=
  ⟨GoString.ofString⟩

structure AddrPort where
  addr : Addr
  port : UInt16
  deriving DecidableEq, Repr

structure Prefix where
  addr : Addr
  bits : Nat
  deriving DecidableEq, Repr

abbrev Key := BitVec 256

abbrev SessionID := BitVec 128

abbrev Role := UInt8

def RoleX : Role := 0

def RoleY : Role := 1

-- Any byte can arrive as a mode.
abbrev Mode := UInt8

def ModeCloaked : Mode := 2

structure Hello where
  role : Role
  wgPublicKey : Key
  protocolVersion : UInt8
  deriving DecidableEq, Repr

structure XInfo where
  probePortA : UInt16
  probePortB : UInt16
  nativeListenPort : UInt16
  cloakedListenPort : UInt16
  deriving DecidableEq, Repr

structure NATProbeRequest where
  probeID : UInt64
  port : UInt16
  deriving DecidableEq, Repr

structure NATProbeResponse where
  probeID : UInt64
  observedAddr : AddrPort
  deriving DecidableEq, Repr

structure NativeEndpointReport where
  sessionID : SessionID
  externalAddr : AddrPort
  deriving DecidableEq, Repr

structure NativeReady where
  sessionID : SessionID
  deriving DecidableEq, Repr

structure NativeFailed where
  sessionID : SessionID
  reason : GoString
  deriving DecidableEq, Repr

structure ModeDecision where
  sessionID : SessionID
  mode : Mode
  reason : GoString
  deriving DecidableEq, Repr

structure CloakedParams where
  s1 : UInt32
  s2 : UInt32
  s3 : UInt32
  s4 : UInt32
  h1Lo : UInt32
  h1Hi : UInt32
  h2Lo : UInt32
  h2Hi : UInt32
  h3Lo : UInt32
  h3Hi : UInt32
  h4Lo : UInt32
  h4Hi : UInt32
  headerProtectionKey : Key
  hasHeaderProtection : Bool
  listenEndpoint : AddrPort
  deriving DecidableEq, Repr

inductive Message
  | hello (m : Hello)
  | xInfo (m : XInfo)
  | natProbeRequest (m : NATProbeRequest)
  | natProbeResponse (m : NATProbeResponse)
  | nativeEndpointReport (m : NativeEndpointReport)
  | nativeReady (m : NativeReady)
  | nativeFailed (m : NativeFailed)
  | modeDecision (m : ModeDecision)
  | cloakedParams (m : CloakedParams)
  | ping (nonce : UInt64)
  | pong (nonce : UInt64)
  | bye (reason : GoString)
  deriving DecidableEq, Repr

end StarlingWg.Control
