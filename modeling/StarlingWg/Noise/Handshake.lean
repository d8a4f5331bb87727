import StarlingWg.Noise.Primitives
import Mathlib.Logic.Function.Basic

namespace StarlingWg.Noise

open Function


inductive HandshakeState
  | zeroed
  | initiationCreated
  | initiationConsumed
  | responseCreated
  | responseConsumed
  deriving DecidableEq, Repr

def messageInitiationType : BitVec 32 := 1

def messageResponseType : BitVec 32 := 2

-- The index that stands for none in a handshake is 0.
abbrev Index := BitVec 32

structure MessageInitiation (B : Type) where
  type : BitVec 32
  sender : Index
  ephemeral : B
  static : B
  timestamp : B
  deriving DecidableEq

structure MessageResponse (B : Type) where
  type : BitVec 32
  sender : Index
  receiver : Index
  ephemeral : B
  empty : B
  deriving DecidableEq

structure Handshake (B : Type) where
  state : HandshakeState
  hash : B
  chainKey : B
  presharedKey : B
  localEphemeral : B
  localIndex : Index
  remoteIndex : Index
  remoteStatic : B
  remoteEphemeral : B
  precomputedStaticStatic : B
  lastTimestamp : Timestamp
  lastInitiationConsumption : Int
  deriving DecidableEq

-- A Keypair object. Two objects with the same fields have different ids.
structure Keypair (B : Type) where
  id : Nat
  send : B
  receive : B
  isInitiator : Bool
  localIndex : Index
  remoteIndex : Index
  deriving DecidableEq

structure Keypairs (B : Type) where
  previous : Option (Keypair B) := none
  current : Option (Keypair B) := none
  next : Option (Keypair B) := none
  deriving DecidableEq

structure Peer (B : Type) where
  handshake : Handshake B
  keypairs : Keypairs B := {}
  isRunning : Bool := true

-- A handshake is named by the peer it is part of.
structure IndexTableEntry (B ι : Type) where
  peer : ι
  handshake : Option ι
  keypair : Option (Keypair B)
  deriving DecidableEq

abbrev IndexTable (B ι : Type) := Index → Option (IndexTableEntry B ι)

namespace IndexTable

variable {B ι : Type}

def delete (table : IndexTable B ι) (index : Index) : IndexTable B ι :=
  update table index none

def swapIndexForKeypair (table : IndexTable B ι) (index : Index) (keypair : Keypair B) :
    IndexTable B ι :=
  match table index with
  | none => table
  | some entry => update table index (some ⟨entry.peer, none, some keypair⟩)

-- The loop ends with the first random index that is not in use.
def newIndexForHandshake (table : IndexTable B ι) (draws : List Index) : Option Index :=
  draws.find? fun index => (table index).isNone

def insertHandshake (table : IndexTable B ι) (index : Index) (peer : ι) : IndexTable B ι :=
  update table index (some ⟨peer, some peer, none⟩)

def deleteKeypair (table : IndexTable B ι) : Option (Keypair B) → IndexTable B ι
  | none => table
  | some key => table.delete key.localIndex

end IndexTable

-- The rotation at the end of BeginSymmetricSession: the slots, and the table
-- without the keypairs that have left them.
def Keypairs.rotate {B ι : Type} (keypairs : Keypairs B) (keypair : Keypair B)
    (table : IndexTable B ι) : Keypairs B × IndexTable B ι :=
  let { previous, current, next } := keypairs
  if keypair.isInitiator then
    if next.isSome then
      ({ previous := next, current := some keypair, next := none },
        (table.deleteKeypair current).deleteKeypair previous)
    else
      ({ previous := current, current := some keypair, next := none }, table.deleteKeypair previous)
  else
    ({ previous := none, current := current, next := some keypair },
      (table.deleteKeypair next).deleteKeypair previous)

structure Device (B ι : Type) where
  privateKey : B
  publicKey : B
  lookupPeer : B → Option ι
  peers : ι → Peer B
  indexTable : IndexTable B ι := fun _ => none
  -- the id of the next Keypair object
  allocated : Nat := 0
  clock : Int := 0

structure Random (B : Type) where
  ephemeral : B
  draws : List Index
  msgType : BitVec 32

inductive NoiseError
  | invalidPublicKey
  | notConsumed
  | invalidState (state : HandshakeState)
  deriving DecidableEq, Repr

section

variable {B : Type} [DecidableEq B] (c : Crypto B)

-- A peer that NewPeer has added, with the preshared key of the configuration.
-- The zero time is 0.
def newPeer (privateKey pk presharedKey : B) : Peer B where
  handshake :=
    { state := .zeroed
      hash := c.zero
      chainKey := c.zero
      presharedKey := presharedKey
      localEphemeral := c.zero
      localIndex := 0
      remoteIndex := 0
      remoteStatic := pk
      remoteEphemeral := c.zero
      precomputedStaticStatic := c.scalarMult privateKey pk
      lastTimestamp := 0
      lastInitiationConsumption := 0 }

def Handshake.clear (h : Handshake B) : Handshake B :=
  { h with
    localEphemeral := c.zero
    remoteEphemeral := c.zero
    chainKey := c.zero
    hash := c.zero
    localIndex := 0
    state := .zeroed }

def Handshake.mixHash (h : Handshake B) (data : B) : Handshake B :=
  { h with hash := c.mixHash h.hash data }

def Handshake.mixKey (h : Handshake B) (data : B) : Handshake B :=
  { h with chainKey := c.kdf1 h.chainKey data }

def Handshake.assign (h : Handshake B) (index : Index) : Handshake B :=
  { h with localIndex := index }

-- The cryptographic part of CreateMessageInitiation: the handshake it leaves,
-- also when it fails, and the ephemeral, static and timestamp fields.
def Handshake.initiate (h : Handshake B) (static ephemeral : B) (timestamp : Timestamp) :
    Handshake B × Option (B × B × B) :=
  let h := { h with
    hash := c.initialHash, chainKey := c.initialChainKey, localEphemeral := ephemeral }
  let h := h.mixHash c h.remoteStatic
  let msgEphemeral := c.publicKey h.localEphemeral
  let h := h.mixKey c msgEphemeral
  let h := h.mixHash c msgEphemeral
  match c.sharedSecret h.localEphemeral h.remoteStatic with
  | none => (h, none)
  | some ss =>
    let (chainKey, key) := c.kdf2 h.chainKey ss
    let h := { h with chainKey := chainKey }
    let msgStatic := c.aeadSeal key static h.hash
    let h := h.mixHash c msgStatic
    if h.precomputedStaticStatic = c.zero then (h, none)
    else
      let (chainKey, key) := c.kdf2 h.chainKey h.precomputedStaticStatic
      let h := { h with chainKey := chainKey }
      let msgTimestamp := c.aeadSeal key (c.stamp timestamp) h.hash
      (h.mixHash c msgTimestamp, some (msgEphemeral, msgStatic, msgTimestamp))

-- The cryptographic part of CreateMessageResponse: the handshake it leaves,
-- also when it fails, and the ephemeral and empty fields.
def Handshake.respond (h : Handshake B) (ephemeral : B) : Handshake B × Option (B × B) :=
  let h := { h with localEphemeral := ephemeral }
  let msgEphemeral := c.publicKey h.localEphemeral
  let h := h.mixHash c msgEphemeral
  let h := h.mixKey c msgEphemeral
  match c.sharedSecret h.localEphemeral h.remoteEphemeral with
  | none => (h, none)
  | some ss =>
    let h := h.mixKey c ss
    match c.sharedSecret h.localEphemeral h.remoteStatic with
    | none => (h, none)
    | some ss =>
      let h := h.mixKey c ss
      let (chainKey, tau, key) := c.kdf3 h.chainKey h.presharedKey
      let h := { h with chainKey := chainKey }
      let h := h.mixHash c tau
      let msgEmpty := c.aeadSeal key c.empty h.hash
      ((h.mixHash c msgEmpty), some (msgEphemeral, msgEmpty))

-- The read-locked part of ConsumeMessageResponse: the new hash and chain key.
def Handshake.checkResponse (h : Handshake B) (privateKey : B) (msg : MessageResponse B) :
    Option (B × B) :=
  if h.state ≠ .initiationCreated then none
  else do
    let hash := c.mixHash h.hash msg.ephemeral
    let chainKey := c.kdf1 h.chainKey msg.ephemeral
    let ss ← c.sharedSecret h.localEphemeral msg.ephemeral
    let chainKey := c.kdf1 chainKey ss
    let ss ← c.sharedSecret privateKey msg.ephemeral
    let chainKey := c.kdf1 chainKey ss
    let (chainKey, tau, key) := c.kdf3 chainKey h.presharedKey
    let hash := c.mixHash hash tau
    let _ ← c.aeadOpen key msg.empty hash
    return (c.mixHash hash msg.empty, chainKey)

def Handshake.deriveKeys (h : Handshake B) : Option (B × B × Bool) :=
  match h.state with
  | .responseConsumed =>
    let (sendKey, recvKey) := c.kdf2 h.chainKey c.empty
    some (sendKey, recvKey, true)
  | .responseCreated =>
    let (recvKey, sendKey) := c.kdf2 h.chainKey c.empty
    some (sendKey, recvKey, false)
  | _ => none

def Handshake.finish (h : Handshake B) : Handshake B :=
  { h with
    chainKey := c.zero
    hash := c.zero
    localEphemeral := c.zero
    state := .zeroed
    localIndex := 0 }

end

namespace Device

variable {B ι : Type} [DecidableEq B] [DecidableEq ι] (c : Crypto B) (dev : Device B ι)

def store (peer : ι) (p : Peer B) (table : IndexTable B ι) : Device B ι :=
  { dev with peers := update dev.peers peer p, indexTable := table }

def storeHandshake (peer : ι) (h : Handshake B) (table : IndexTable B ι) : Device B ι :=
  dev.store peer { dev.peers peer with handshake := h } table

def allocate : Device B ι :=
  { dev with allocated := dev.allocated + 1 }

def handshake (peer : ι) : Handshake B :=
  (dev.peers peer).handshake

def keypairs (peer : ι) : Keypairs B :=
  (dev.peers peer).keypairs

-- None while every index drawn so far is in use. The index is assigned
-- before the timestamp field goes into the hash, which does not depend on it.
def createMessageInitiation (peer : ι) (random : Random B) (timestamp : Timestamp) :
    Option (Device B ι × Except NoiseError (MessageInitiation B)) :=
  match (dev.handshake peer).initiate c dev.publicKey random.ephemeral timestamp with
  | (h, none) => some (dev.storeHandshake peer h dev.indexTable, .error .invalidPublicKey)
  | (h, some (ephemeral, static, msgTimestamp)) =>
    let table := dev.indexTable.delete h.localIndex
    match table.newIndexForHandshake random.draws with
    | none => none
    | some sender =>
      let h := { h with localIndex := sender, state := .initiationCreated }
      some (dev.storeHandshake peer h (table.insertHandshake sender peer),
        .ok ⟨random.msgType, sender, ephemeral, static, msgTimestamp⟩)

def handshakeInitationRate : Int := 20000000

-- What the read-locked part of ConsumeMessageInitiation hands to the commit.
structure Initiated (B ι : Type) where
  peer : ι
  hash : B
  chainKey : B
  timestamp : Timestamp
  deriving DecidableEq

def checkInitiation (msg : MessageInitiation B) : Option (Initiated B ι) :=
  if msg.type ≠ messageInitiationType then none
  else do
    let hash := c.mixHash c.initialHash dev.publicKey
    let hash := c.mixHash hash msg.ephemeral
    let chainKey := c.kdf1 c.initialChainKey msg.ephemeral
    let ss ← c.sharedSecret dev.privateKey msg.ephemeral
    let (chainKey, key) := c.kdf2 chainKey ss
    let peerPK ← c.aeadOpen key msg.static hash
    let hash := c.mixHash hash msg.static
    let peer ← dev.lookupPeer peerPK
    if !(dev.peers peer).isRunning then none
    else
      let h := dev.handshake peer
      if h.precomputedStaticStatic = c.zero then none
      else
        let (chainKey, key) := c.kdf2 chainKey h.precomputedStaticStatic
        let plain ← c.aeadOpen key msg.timestamp hash
        let timestamp := c.readStamp plain
        let hash := c.mixHash hash msg.timestamp
        let replay := !Timestamp.after timestamp h.lastTimestamp
        let flood : Bool := dev.clock - h.lastInitiationConsumption ≤ handshakeInitationRate
        if replay || flood then none else return ⟨peer, hash, chainKey, timestamp⟩

def commitInitiation (msg : MessageInitiation B) (checked : Initiated B ι) : Device B ι :=
  let h := dev.handshake checked.peer
  let h := { h with
    hash := checked.hash
    chainKey := checked.chainKey
    remoteIndex := msg.sender
    remoteEphemeral := msg.ephemeral
    lastTimestamp :=
      if Timestamp.after checked.timestamp h.lastTimestamp then checked.timestamp
      else h.lastTimestamp
    lastInitiationConsumption :=
      if h.lastInitiationConsumption < dev.clock then dev.clock else h.lastInitiationConsumption
    state := .initiationConsumed }
  dev.storeHandshake checked.peer h dev.indexTable

def consumeMessageInitiation (msg : MessageInitiation B) : Device B ι × Option ι :=
  match dev.checkInitiation c msg with
  | none => (dev, none)
  | some checked => (dev.commitInitiation msg checked, some checked.peer)

def createMessageResponse (peer : ι) (random : Random B) :
    Option (Device B ι × Except NoiseError (MessageResponse B)) :=
  let h := dev.handshake peer
  if h.state ≠ .initiationConsumed then some (dev, .error .notConsumed)
  else
    let table := dev.indexTable.delete h.localIndex
    match table.newIndexForHandshake random.draws with
    | none => none
    | some sender =>
      let table := table.insertHandshake sender peer
      match (h.assign sender).respond c random.ephemeral with
      | (h, none) => some (dev.storeHandshake peer h table, .error .invalidPublicKey)
      | (h, some (ephemeral, empty)) =>
        some (dev.storeHandshake peer { h with state := .responseCreated } table,
          .ok ⟨random.msgType, sender, h.remoteIndex, ephemeral, empty⟩)

def commitResponse (handshake : ι) (msg : MessageResponse B) (hash chainKey : B) : Device B ι :=
  let h := { dev.handshake handshake with
    hash := hash
    chainKey := chainKey
    remoteIndex := msg.sender
    state := .responseConsumed }
  dev.storeHandshake handshake h dev.indexTable

def consumeMessageResponse (msg : MessageResponse B) : Device B ι × Option ι :=
  if msg.type ≠ messageResponseType then (dev, none)
  else match dev.indexTable msg.receiver with
  | none => (dev, none)
  | some lookup => match lookup.handshake with
    | none => (dev, none)
    | some handshake =>
      match (dev.handshake handshake).checkResponse c dev.privateKey msg with
      | none => (dev, none)
      | some (hash, chainKey) =>
        (dev.commitResponse handshake msg hash chainKey, some lookup.peer)

def deriveKeypair (peer : ι) : Option (Keypair B) :=
  let h := dev.handshake peer
  (h.deriveKeys c).map fun (sendKey, recvKey, isInitiator) =>
    ⟨dev.allocated, sendKey, recvKey, isInitiator, h.localIndex, h.remoteIndex⟩

def beginSymmetricSession (peer : ι) : Device B ι × Except NoiseError Unit :=
  let h := dev.handshake peer
  match dev.deriveKeypair c peer with
  | none => (dev, .error (.invalidState h.state))
  | some keypair =>
    let table := dev.indexTable.swapIndexForKeypair h.localIndex keypair
    let (keypairs, table) := (dev.keypairs peer).rotate keypair table
    let p := { dev.peers peer with handshake := h.finish c, keypairs := keypairs }
    ((dev.store peer p table).allocate, .ok ())

-- The pointers are compared, so the ids decide.
def receivedWithKeypair (peer : ι) (received : Option (Keypair B)) : Device B ι × Bool :=
  let keypairs := dev.keypairs peer
  if keypairs.next.map Keypair.id ≠ received.map Keypair.id then (dev, false)
  else
    let p := { dev.peers peer with
      keypairs := { previous := keypairs.current, current := keypairs.next, next := none } }
    (dev.store peer p (dev.indexTable.deleteKeypair keypairs.previous), true)

-- Without the counters of the keypairs.
def expireCurrentKeypairs (peer : ι) : Device B ι :=
  let h := dev.handshake peer
  dev.storeHandshake peer (h.clear c) (dev.indexTable.delete h.localIndex)

def zeroAndFlushAll (peer : ι) : Device B ι :=
  let keypairs := dev.keypairs peer
  let h := dev.handshake peer
  let table := dev.indexTable.deleteKeypair keypairs.previous
  let table := table.deleteKeypair keypairs.current
  let table := table.deleteKeypair keypairs.next
  let p := { dev.peers peer with handshake := h.clear c, keypairs := {} }
  dev.store peer p (table.delete h.localIndex)

end Device

end StarlingWg.Noise
