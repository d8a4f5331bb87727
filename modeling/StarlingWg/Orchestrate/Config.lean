import StarlingWg.Control.Message

namespace StarlingWg.Orchestrate

open Control

inductive State
  | idle
  | probing
  | nativeAttempting
  | connectedNative
  | connectedCloaked
  | failed
  deriving DecidableEq, Repr

def State.Connected (state : State) : Prop :=
  state = .connectedNative ∨ state = .connectedCloaked

instance (state : State) : Decidable state.Connected :=
  inferInstanceAs (Decidable (_ ∨ _))

inductive Role
  | x
  | y
  deriving DecidableEq, Repr

inductive ModeHint
  | none
  | cloaked
  deriving DecidableEq, Repr

structure ObfuscationProfile where
  jc : UInt32
  jmin : UInt32
  jmax : UInt32
  s1 : UInt32
  s2 : UInt32
  s3 : UInt32
  s4 : UInt32
  h1Lo : UInt32
  h1Hi : UInt32
  h2Lo : UInt32
  h2Hi : UInt32
  h3Lo : UInt32
  h3Hi : UInt32
  h4Lo : UInt32
  h4Hi : UInt32
  hasHeaderProtectionKey : Bool
  headerProtectionKey : Key
  i1 : GoString
  i2 : GoString
  i3 : GoString
  i4 : GoString
  i5 : GoString
  contentPaddingAdditionLo : UInt32
  contentPaddingAdditionHi : UInt32
  deriving DecidableEq, Repr

structure PeerConfig where
  remotePublicKey : Key
  controlAddr : String
  allowedIPs : List String
  deriving DecidableEq, Repr

structure PeerAuthorization where
  publicKey : Key
  allowedIPs : List String
  deriving DecidableEq, Repr

-- Object identities: a control connection, a device, a UDP socket and a
-- session of the shared TUN.
abbrev ConnId := Nat

abbrev DevId := Nat

abbrev SockId := Nat

abbrev TunId := Nat

-- Interfaces that are only compared with nil are Booleans; durations are
-- in nanoseconds. `nativeDevice` and `cloakedDevice` are what Device() of the
-- two shared devices returns.
structure Config where
  role : Role
  localPrivateKey : Key
  localPublicKey : Key
  controlListenAddr : String
  publicHost : String
  probePortA : UInt16
  probePortB : UInt16
  nativeListenPort : UInt16
  cloakedListenPort : UInt16
  obfuscationProfile : ObfuscationProfile
  authorizedPeers : List PeerAuthorization
  hasNativeTUN : Bool
  hasCloakedTUN : Bool
  hasNativeDataPlane : Bool
  hasCloakedDataPlane : Bool
  nativeDevice : Option DevId
  cloakedDevice : Option DevId
  peers : List PeerConfig
  hasYTUN : Bool
  nativeHandshakeTimeout : Int
  cloakedHandshakeTimeout : Int
  hasNetworkChange : Bool
  staleAfter : Int
  backgroundNativeRetryInterval : Int
  hasLogger : Bool

namespace Config

def second : Int := 1000000000

def staleAfterOrDefault (c : Config) : Int :=
  if 0 < c.staleAfter then c.staleAfter else 30 * second

def backgroundNativeRetryIntervalOrDefault (c : Config) : Int :=
  if c.backgroundNativeRetryInterval ≠ 0 then c.backgroundNativeRetryInterval else 120 * second

def validateX (c : Config) : Except String Unit := do
  if c.controlListenAddr = "" then
    throw "orchestrate: RoleX requires ControlListenAddr"
  if c.publicHost = "" then
    throw "orchestrate: RoleX requires PublicHost"
  if c.probePortA = 0 ∨ c.probePortB = 0 then
    throw "orchestrate: RoleX requires ProbePortA and ProbePortB"
  if c.probePortA = c.probePortB then
    throw "orchestrate: ProbePortA and ProbePortB must differ"
  if c.nativeListenPort = 0 then
    throw "orchestrate: RoleX requires NativeListenPort"
  if c.cloakedListenPort = 0 then
    throw "orchestrate: RoleX requires CloakedListenPort"
  if c.nativeListenPort = c.cloakedListenPort then
    throw "orchestrate: NativeListenPort and CloakedListenPort must differ"
  if ¬c.hasNativeTUN ∧ ¬c.hasNativeDataPlane then
    throw "orchestrate: RoleX requires NativeTUN or NativeDataPlane"
  if ¬c.hasCloakedTUN ∧ ¬c.hasCloakedDataPlane then
    throw "orchestrate: RoleX requires CloakedTUN or CloakedDataPlane"

def validatePeers : Nat → List PeerConfig → Except String Unit
  | _, [] => pure ()
  | i, p :: rest =>
    if p.controlAddr = "" then
      throw ("orchestrate: Peers[" ++ toString i ++ "] missing ControlAddr")
    else validatePeers (i + 1) rest

def validateY (c : Config) : Except String Unit := do
  if c.peers.length = 0 then
    throw "orchestrate: RoleY requires at least one entry in Peers"
  validatePeers 0 c.peers
  if ¬c.hasYTUN then
    throw "orchestrate: RoleY requires YTUN"

def validate (c : Config) : Except String Unit := do
  if ¬c.hasLogger then
    throw "orchestrate: Config.Logger must not be nil"
  match c.role with
  | .x => c.validateX
  | .y => c.validateY
  if c.nativeHandshakeTimeout ≤ 0 then
    throw "orchestrate: NativeHandshakeTimeout must be positive"
  if c.cloakedHandshakeTimeout ≤ 0 then
    throw "orchestrate: CloakedHandshakeTimeout must be positive"

end Config

def sampleProfile : ObfuscationProfile :=
  ⟨0, 0, 0, 15, 30, 45, 60, 5, 6, 7, 8, 9, 10, 11, 12, true, 1, "", "", "", "", "", 0, 0⟩

def sampleX : Config :=
  ⟨.x, 1, 2, ":51820", "203.0.113.1", 3478, 3479, 51821, 51822, sampleProfile, [⟨4, []⟩],
    true, true, false, false, none, none, [], false, 1000000000, 1000000000, false, 0, 0, true⟩

def samplePeer : PeerConfig := ⟨2, "203.0.113.1:51820", []⟩

def sampleY : Config :=
  ⟨.y, 3, 4, "", "", 0, 0, 0, 0, sampleProfile, [], false, false, false, false, none, none,
    [samplePeer], true, 1000000000, 1000000000, false, 0, 0, true⟩

end StarlingWg.Orchestrate
