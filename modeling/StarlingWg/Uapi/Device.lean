import StarlingWg.Device.Obf
import StarlingWg.Device.Text
import StarlingWg.Routing.Table

namespace StarlingWg.Uapi

open Function
open Control (Key)
open StarlingWg.Device (Settings IpcSetDevice IpcCode IpcError Cause UintRange ObfChain)
open Routing (Table Network Prefix)

-- Curve25519, and the texts of endpoints and prefixes. `E` is the endpoint
-- type of the bind.
structure Platform (E : Type) where
  publicKey : Key → Key
  scalarMult : Key → Key → Key
  parseEndpoint : List Char → Option E
  dstToString : E → List Char
  parsePrefix : List Char → Option Prefix
  prefixString : Network → List Char
  fields : List Char → List (List Char)

abbrev PeerId := Nat

structure Peer (E : Type) where
  remoteStatic : Key := 0
  precomputedStaticStatic : Key := 0
  presharedKey : Key := 0
  endpoint : Option E := none
  disableRoaming : Bool := false
  isRunning : Bool := false
  persistentKeepaliveInterval : UintRange := ⟨0, 0⟩
  lastHandshakeNano : Int := 0
  txBytes : UInt64 := 0
  rxBytes : UInt64 := 0

structure IPackets where
  i1 : Option ObfChain := none
  i2 : Option ObfChain := none
  i3 : Option ObfChain := none
  i4 : Option ObfChain := none
  i5 : Option ObfChain := none
  deriving DecidableEq, Repr

inductive DeviceState
  | down
  | up
  | closed
  deriving DecidableEq, Repr

-- The Peer objects are numbered in the order of their creation. Those that
-- are not in the map stay as they are when they are dropped.
structure Device (E : Type) where
  settings : Settings
  ipackets : IPackets
  privateKey : Key
  publicKey : Key
  port : UInt16
  fwmark : UInt32
  brokenRoaming : Bool
  state : DeviceState
  keyMap : List (Key × PeerId)
  peers : PeerId → Peer E
  allocated : PeerId
  allowedips : Table PeerId

-- The order in which a range over a map takes its entries.
structure Ranging where
  visit : List (Key × PeerId) → List (Key × PeerId)
  perm : ∀ entries, (visit entries).Perm entries

-- What the bind answers during a line, and how ranges go.
structure Answers where
  close : Option String
  openBind : Except String UInt16
  routeListener : Option String
  setMark : Option String
  range : Ranging

structure Line where
  text : List Char
  answers : Answers

structure Input where
  lines : List Line
  readError : Bool

-- The peer that the lines configure since the last public_key line.
structure IpcSetPeer where
  peer : PeerId
  dummy : Bool
  created : Bool
  pkaOn : Bool
  deriving DecidableEq, Repr

def maxPeers : Nat := 2 ^ 16

-- The bytes of a key stand from the most significant one:
-- sk[0] &= 248, sk[31] = (sk[31] & 127) | 64.
def clamp (sk : Key) : Key :=
  sk &&& ~~~((7 : Key) <<< 248) &&& ~~~((1 : Key) <<< 7) ||| (1 : Key) <<< 6

def fromMaybeZeroHex (src : List Char) : Except Cause Key := do
  let key ← Device.loadExactHex src
  return if key = 0 then key else clamp key

-- The secret is returned also with an error; it is zero then.
def Platform.sharedSecret {E : Type} (p : Platform E) (sk pk : Key) : Key × Option String :=
  let ss := p.scalarMult sk pk
  (ss, if ss = 0 then some "invalid public key" else none)

namespace Device

variable {E : Type} (p : Platform E) (d : Device E)

def modifyPeer (id : PeerId) (change : Peer E → Peer E) : Device E :=
  { d with peers := update d.peers id (change (d.peers id)) }

def allocate (peer : Peer E) : Device E :=
  { d with peers := update d.peers d.allocated peer, allocated := d.allocated + 1 }

def lookupPeer (pk : Key) : Option PeerId :=
  d.keyMap.lookup pk

-- Peer.Stop, as far as the peer says that it runs.
def stop (id : PeerId) : Device E :=
  d.modifyPeer id fun peer => { peer with isRunning := false }

def start (id : PeerId) : Device E :=
  d.modifyPeer id fun peer => { peer with isRunning := true }

def removePeerLocked (peer : PeerId) (key : Key) : Device E :=
  let stopped := { d with allowedips := d.allowedips.removeByPeer peer }.stop peer
  { stopped with keyMap := d.keyMap.filter fun entry => entry.1 ≠ key }

def removePeer (key : Key) : Device E :=
  match d.lookupPeer key with
  | some peer => d.removePeerLocked peer key
  | none => d

def removeAllPeers (range : Ranging) : Device E :=
  { (range.visit d.keyMap).foldl (fun d entry => d.removePeerLocked entry.2 entry.1) d with
    keyMap := [] }

def newPeer (pk : Key) : Except String (Device E × PeerId) :=
  if d.state = .closed then .error "device closed"
  else if maxPeers ≤ d.keyMap.length then .error "too many peers"
  else if (d.lookupPeer pk).isSome then .error "adding existing peer"
  else
    let peer : Peer E :=
      { remoteStatic := pk
        precomputedStaticStatic := (p.sharedSecret d.privateKey pk).1 }
    .ok ({ d.allocate peer with keyMap := d.keyMap ++ [(pk, d.allocated)] }, d.allocated)

-- The cookie checker and the keypairs are not part of the model.
def setPrivateKey (range : Ranging) (sk : Key) : Device E :=
  if sk = d.privateKey then d
  else
    let publicKey := p.publicKey sk
    let removed := (range.visit d.keyMap).foldl (fun d entry =>
      if (d.peers entry.2).remoteStatic = publicKey then d.removePeerLocked entry.2 entry.1 else d) d
    let updated := { removed with privateKey := sk, publicKey := publicKey }
    (range.visit updated.keyMap).foldl (fun d entry => d.modifyPeer entry.2 fun peer =>
      { peer with precomputedStaticStatic := (p.sharedSecret sk peer.remoteStatic).1 }) updated

-- A port that could not be opened is forgotten.
def bindUpdate (a : Answers) : Device E × Option String :=
  match a.close with
  | some err => (d, some err)
  | none =>
    if d.state ≠ .up then (d, none)
    else match a.openBind with
    | .error err => ({ d with port := 0 }, some err)
    | .ok port =>
      match a.routeListener with
      | some err => ({ d with port := 0 }, some err)
      | none => ({ d with port := port }, if d.fwmark = 0 then none else a.setMark)

def bindSetMark (a : Answers) (mark : UInt32) : Device E × Option String :=
  if d.fwmark = mark then (d, none)
  else ({ d with fwmark := mark }, if d.state = .up then a.setMark else none)

def startAll : Device E :=
  d.keyMap.foldl (fun d entry => d.start entry.2) d

def stopAll : Device E :=
  d.keyMap.foldl (fun d entry => d.stop entry.2) d

def up (a : Answers) : Device E :=
  match d.state with
  | .closed | .up => d
  | .down =>
    match { d with state := .up }.bindUpdate a with
    | (d, none) => d.startAll
    | (d, some _) => { d with state := .down }.stopAll

def down : Device E :=
  match d.state with
  | .closed | .down => d
  | .up => { d with state := .down }.stopAll

def close (range : Ranging) : Device E :=
  match d.state with
  | .closed => d
  | .up | .down => { d with state := .closed }.stopAll.removeAllPeers range

section

abbrev Outcome (E : Type) := (Device E × IpcSetDevice) × Option IpcError

variable (staged : IpcSetDevice)

def storeIPacket (value : List Char) (context : String) (store : Option ObfChain → IPackets) :
    Outcome E :=
  match Device.newObfChain p.fields value with
  | .error err => ((d, staged), some ⟨.invalid, context, some (.other err)⟩)
  | .ok chain => (({ d with ipackets := store chain }, staged), none)

def handleDeviceLine (key : String) (value : List Char) (a : Answers) : Outcome E :=
  let i := d.ipackets
  match key with
  | "private_key" =>
    match Device.fails "failed to set private_key" (fromMaybeZeroHex value) with
    | .error err => ((d, staged), some err)
    | .ok sk => ((d.setPrivateKey p a.range sk, staged), none)
  | "listen_port" =>
    match Device.fails "failed to parse listen_port" (Device.parseUint 16 value) with
    | .error err => ((d, staged), some err)
    | .ok port =>
      let (d, err) := { d with port := .ofNat port }.bindUpdate a
      ((d, staged), err.map fun text =>
        ⟨.portInUse, "failed to set listen_port", some (.other text)⟩)
  | "fwmark" =>
    match Device.fails "invalid fwmark" (Device.parseUint 32 value) with
    | .error err => ((d, staged), some err)
    | .ok mark =>
      let (d, err) := d.bindSetMark a (.ofNat mark)
      ((d, staged), err.map fun text =>
        ⟨.portInUse, "failed to update fwmark", some (.other text)⟩)
  | "replace_peers" =>
    if String.ofList value ≠ "true" then
      ((d, staged), some
        ⟨.invalid, "failed to set replace_peers, invalid value: " ++ String.ofList value, none⟩)
    else ((d.removeAllPeers a.range, staged), none)
  | "i1" => d.storeIPacket p staged value "failed to parse I1" fun chain => { i with i1 := chain }
  | "i2" => d.storeIPacket p staged value "failed to parse I2" fun chain => { i with i2 := chain }
  | "i3" => d.storeIPacket p staged value "failed to parse I3" fun chain => { i with i3 := chain }
  | "i4" => d.storeIPacket p staged value "failed to parse I4" fun chain => { i with i4 := chain }
  | "i5" => d.storeIPacket p staged value "failed to parse I5" fun chain => { i with i5 := chain }
  | _ =>
    match StarlingWg.Device.handleDeviceLine (d.settings, staged) key value (.ok ()) with
    | .error err => ((d, staged), some err)
    | .ok (settings, staged) => (({ d with settings := settings }, staged), none)

-- The flag about keepalives stays from one peer to the next.
def handlePublicKeyLine (last : Option IpcSetPeer) (value : List Char) :
    Device E × Except IpcError IpcSetPeer :=
  let pkaOn := last.elim false IpcSetPeer.pkaOn
  match Device.fails "failed to get peer by public key" (Device.loadExactHex value) with
  | .error err => (d, .error err)
  | .ok publicKey =>
    if d.publicKey = publicKey then (d.allocate {}, .ok ⟨d.allocated, true, false, pkaOn⟩)
    else match d.lookupPeer publicKey with
    | some peer => (d, .ok ⟨peer, false, false, pkaOn⟩)
    | none =>
      match d.newPeer p publicKey with
      | .error err => (d, .error ⟨.invalid, "failed to create new peer", some (.other err)⟩)
      | .ok (d, peer) => (d, .ok ⟨peer, false, true, pkaOn⟩)

-- The peer is gone, and a new one that nobody else has takes its place.
def discard (peer : IpcSetPeer) : Device E × IpcSetPeer :=
  (d.allocate {}, { peer with peer := d.allocated, dummy := true })

def handlePeerLine (peer : IpcSetPeer) (key : String) (value : List Char) :
    (Device E × IpcSetPeer) × Option IpcError :=
  match key with
  | "update_only" =>
    if String.ofList value ≠ "true" then
      ((d, peer), some
        ⟨.invalid, "failed to set update only, invalid value: " ++ String.ofList value, none⟩)
    else if peer.created && !peer.dummy then
      ((d.removePeer (d.peers peer.peer).remoteStatic).discard peer, none)
    else ((d, peer), none)
  | "remove" =>
    if String.ofList value ≠ "true" then
      ((d, peer), some
        ⟨.invalid, "failed to set remove, invalid value: " ++ String.ofList value, none⟩)
    else if peer.dummy then (d.discard peer, none)
    else ((d.removePeer (d.peers peer.peer).remoteStatic).discard peer, none)
  | "preshared_key" =>
    match Device.fails "failed to set preshared key" (Device.loadExactHex value) with
    | .error err => ((d, peer), some err)
    | .ok psk => ((d.modifyPeer peer.peer fun q => { q with presharedKey := psk }, peer), none)
  | "endpoint" =>
    match p.parseEndpoint value with
    | none => ((d, peer), some
        ⟨.invalid, "failed to set endpoint " ++ String.ofList value, some .malformed⟩)
    | some endpoint =>
      ((d.modifyPeer peer.peer fun q => { q with endpoint := some endpoint }, peer), none)
  | "persistent_keepalive_interval" =>
    match Device.fails "failed to set persistent keepalive interval" (UintRange.fromString value) with
    | .error err => ((d, peer), some err)
    | .ok rang =>
      let old := (d.peers peer.peer).persistentKeepaliveInterval
      ((d.modifyPeer peer.peer fun q => { q with persistentKeepaliveInterval := rang },
        { peer with pkaOn := old = ⟨0, 0⟩ ∧ rang ≠ ⟨0, 0⟩ }), none)
  | "replace_allowed_ips" =>
    if String.ofList value ≠ "true" then
      ((d, peer), some
        ⟨.invalid, "failed to replace allowedips, invalid value: " ++ String.ofList value, none⟩)
    else if peer.dummy then ((d, peer), none)
    else (({ d with allowedips := d.allowedips.removeByPeer peer.peer }, peer), none)
  | "allowed_ip" =>
    let (add, value) := match value with
      | '-' :: rest => (false, rest)
      | _ => (true, value)
    match p.parsePrefix value with
    | none => ((d, peer), some ⟨.invalid, "failed to set allowed ip", some .malformed⟩)
    | some pre =>
      if peer.dummy then ((d, peer), none)
      else if add then
        (({ d with allowedips := d.allowedips.insert pre peer.peer }, peer), none)
      else (({ d with allowedips := d.allowedips.remove pre peer.peer }, peer), none)
  | "protocol_version" =>
    if String.ofList value ≠ "1" then
      ((d, peer), some ⟨.invalid, "invalid protocol version: " ++ String.ofList value, none⟩)
    else ((d, peer), none)
  | _ => ((d, peer), some ⟨.invalid, "invalid UAPI peer key: " ++ key, none⟩)

-- The packets that a started peer sends are not part of the model.
def handlePostConfig : Option IpcSetPeer → Device E
  | none => d
  | some peer =>
    if peer.dummy then d
    else
      let d := if peer.created then
        d.modifyPeer peer.peer fun q =>
          { q with disableRoaming := d.brokenRoaming && q.endpoint.isSome }
        else d
      if d.state = .up then d.start peer.peer else d

end

def finish (staged : IpcSetDevice) (peer : Option IpcSetPeer) (readError : Bool) :
    Device E × Option IpcError :=
  match staged.mergeWithDevice d.settings with
  | (settings, .error text) =>
    ({ d with settings := settings }, some
      ⟨.invalid, "failed to merge with device", some (.other text)⟩)
  | (settings, .ok _) =>
    ({ d with settings := settings }.handlePostConfig peer,
      if readError then some ⟨.io, "failed to read input", none⟩ else none)

-- One round of the loop of IpcSetOperation: it goes on, or it returns. There is
-- no peer as long as the lines configure the device.
def lineStep (staged : IpcSetDevice) (peer : Option IpcSetPeer) (line : Line) :
    (Device E × IpcSetDevice × Option IpcSetPeer) ⊕ (Device E × Option IpcError) :=
  if line.text = [] then .inr (d.finish staged peer false)
  else match Device.cut line.text with
  | none => .inr (d, some ⟨.protocol, "failed to parse line " ++ String.ofList line.text, none⟩)
  | some (key, value) =>
    if String.ofList key = "public_key" then
      match (d.handlePostConfig peer).handlePublicKeyLine p peer value with
      | (d, .error err) => .inr (d, some err)
      | (d, .ok peer) => .inl (d, staged, some peer)
    else match peer with
    | none =>
      match d.handleDeviceLine p staged (String.ofList key) value line.answers with
      | ((d, _), some err) => .inr (d, some err)
      | ((d, staged), none) => .inl (d, staged, none)
    | some peer =>
      match d.handlePeerLine p peer (String.ofList key) value with
      | ((d, _), some err) => .inr (d, some err)
      | ((d, peer), none) => .inl (d, staged, some peer)

def ipcSetLines (readError : Bool) (d : Device E) (staged : IpcSetDevice) (peer : Option IpcSetPeer) :
    List Line → Device E × Option IpcError
  | [] => d.finish staged peer readError
  | line :: lines =>
    match d.lineStep p staged peer line with
    | .inr result => result
    | .inl (d, staged, peer) => ipcSetLines readError d staged peer lines

def ipcSetOperation (input : Input) : Device E × Option IpcError :=
  ipcSetLines p input.readError d (.fromDevice d.settings) none input.lines

end Device

def newDevice (E : Type) : Device E where
  settings := Device.newDevice
  ipackets := {}
  privateKey := 0
  publicKey := 0
  port := 0
  fwmark := 0
  brokenRoaming := false
  state := .down
  keyMap := []
  peers := fun _ => {}
  allocated := 0
  allowedips := .empty

inductive Call
  | ipcSet (input : Input)
  | removePeer (key : Key)
  | removeAllPeers (range : Ranging)
  | up (a : Answers)
  | down
  | close (range : Ranging)

variable {E : Type} (p : Platform E)

def Device.call (d : Device E) : Call → Device E
  | .ipcSet input => (d.ipcSetOperation p input).1
  | .removePeer key => d.removePeer key
  | .removeAllPeers range => d.removeAllPeers range
  | .up a => d.up a
  | .down => d.down
  | .close range => d.close range

def Device.run (calls : List Call) : Device E :=
  calls.foldl (Device.call p) (newDevice E)

end StarlingWg.Uapi
