import StarlingWg.Pointers.Tree

namespace StarlingWg.Routing

open Function
open Pointers (Place Links)

inductive Family
  | ipv4
  | ipv6
  deriving DecidableEq

def Family.width : Family → Nat
  | .ipv4 => 32
  | .ipv6 => 128

-- The bytes of an address in network order, as one bit string.
abbrev Address (f : Family) := BitVec f.width

def byteAt {f : Family} (ip : Address f) (i : Nat) : BitVec 8 :=
  ip.extractLsb' (f.width - 8 * (i + 1)) 8

def leadingZeros {w : Nat} (x : BitVec w) : Nat :=
  (List.range w).findIdx fun i => x.getMsbD i

-- The two branches of `commonBits`, for slices of four and of sixteen bytes.
def commonBits4 (ip1 ip2 : BitVec 32) : Nat :=
  leadingZeros (ip1 ^^^ ip2)

def commonBits16 (ip1 ip2 : BitVec 128) : Nat :=
  let x := ip1.extractLsb' 64 64 ^^^ ip2.extractLsb' 64 64
  if x ≠ 0#64 then leadingZeros x
  else 64 + leadingZeros (ip1.extractLsb' 0 64 ^^^ ip2.extractLsb' 0 64)

def commonBits : {f : Family} → Address f → Address f → Nat
  | .ipv4, ip1, ip2 => commonBits4 ip1 ip2
  | .ipv6, ip1, ip2 => commonBits16 ip1 ip2

def mask {f : Family} (ip : Address f) (cidr : Nat) : Address f :=
  ip &&& (BitVec.allOnes f.width <<< (f.width - cidr))

abbrev NodeId := Nat

-- `parentBit` is the address of a pointer variable; `parentBitType` is the
-- index of that variable in the child array it belongs to, or 2 for a root.
structure ParentIndirection where
  parentBit : Option (Place NodeId) := none
  parentBitType : Nat := 0

structure TrieEntry (P : Type) (f : Family) where
  peer : Option P := none
  child : Bool → Option NodeId := fun _ => none
  parent : ParentIndirection := {}
  cidr : Nat := 0
  bitAtByte : Nat := 0
  bitAtShift : Nat := 0
  bits : Address f := 0
  perPeerElem : Bool := false

variable {P : Type} {f : Family}

def TrieEntry.literal (peer : Option P) (parent : ParentIndirection) (ip : Address f)
    (cidr : Nat) : TrieEntry P f where
  peer := peer
  parent := parent
  bits := ip
  cidr := cidr
  bitAtByte := cidr / 8
  bitAtShift := 7 - cidr % 8

-- There is no result where the source would index past the end of `ip`.
def TrieEntry.choose (node : TrieEntry P f) (ip : Address f) : Option Bool :=
  if node.bitAtByte < f.width / 8 then
    some ((byteAt ip node.bitAtByte >>> node.bitAtShift) &&& 1 == 1)
  else none

-- The nodes of one address family, the variable that points to the first of
-- them, and the lists of entries that the peers keep, which hold the nodes of
-- both families. A node that was never allocated reads as the zero value.
structure Heap (P : Type) (f : Family) where
  root : Option NodeId := none
  nodes : NodeId → TrieEntry P f := fun _ => {}
  allocated : NodeId := 0
  trieEntries : P → List (Family × NodeId) := fun _ => []

namespace Heap

def modify (heap : Heap P f) (node : NodeId) (g : TrieEntry P f → TrieEntry P f) : Heap P f :=
  { heap with nodes := update heap.nodes node (g (heap.nodes node)) }

def store (heap : Heap P f) : Place NodeId → Option NodeId → Heap P f
  | .root, value => { heap with root := value }
  | .child node bit, value =>
    heap.modify node fun entry => { entry with child := update entry.child bit value }

def setParent (heap : Heap P f) (node : NodeId) (parent : ParentIndirection) : Heap P f :=
  heap.modify node fun entry => { entry with parent := parent }

def setPeer (heap : Heap P f) (node : NodeId) (peer : Option P) : Heap P f :=
  heap.modify node fun entry => { entry with peer := peer }

def allocate (heap : Heap P f) (entry : TrieEntry P f) : Heap P f :=
  { heap with
    nodes := update heap.nodes heap.allocated entry
    allocated := heap.allocated + 1 }

def maskSelf (heap : Heap P f) (node : NodeId) : Heap P f :=
  heap.modify node fun entry => { entry with bits := mask entry.bits entry.cidr }

def zeroizePointers (heap : Heap P f) (node : NodeId) : Heap P f :=
  heap.modify node fun entry =>
    { entry with peer := none, child := fun _ => none, parent.parentBit := none }

section

variable [DecidableEq P]

def setElem (heap : Heap P f) (node : NodeId) (perPeerElem : Bool) : Heap P f :=
  heap.modify node fun entry => { entry with perPeerElem := perPeerElem }

def setEntries (heap : Heap P f) (peer : P) (entries : List (Family × NodeId)) : Heap P f :=
  { heap with trieEntries := update heap.trieEntries peer entries }

def addToPeerEntries (heap : Heap P f) (node : NodeId) : Option (Heap P f) := do
  let peer ← (heap.nodes node).peer
  return (heap.setEntries peer (heap.trieEntries peer ++ [(f, node)])).setElem node true

def removeFromPeerEntries (heap : Heap P f) (node : NodeId) : Option (Heap P f) :=
  if (heap.nodes node).perPeerElem then do
    let peer ← (heap.nodes node).peer
    return (heap.setEntries peer ((heap.trieEntries peer).erase (f, node))).setElem node false
  else some heap

end

-- The loop of `nodePlacement`; `fuel` bounds the nodes it may visit.
def nodePlacementLoop (heap : Heap P f) (ip : Address f) (cidr : Nat) :
    Nat → Option NodeId → Option NodeId → Option (Option NodeId × Bool)
  | _, none, parent => some (parent, false)
  | 0, some _, _ => none
  | fuel + 1, some node, parent =>
    let entry := heap.nodes node
    if entry.cidr ≤ cidr ∧ entry.cidr ≤ commonBits entry.bits ip then
      if entry.cidr = cidr then some (some node, true)
      else do
        let bit ← entry.choose ip
        nodePlacementLoop heap ip cidr fuel (entry.child bit) (some node)
    else some (parent, false)

def nodePlacement (heap : Heap P f) (node : Option NodeId) (ip : Address f) (cidr : Nat) :
    Option (Option NodeId × Bool) :=
  heap.nodePlacementLoop ip cidr (f.width + 1) node none

-- m.parent = parentIndirection{&node.child[bit], bit}; node.child[bit] = m
def link (heap : Heap P f) (node : NodeId) (bit : Bool) (m : NodeId) : Heap P f :=
  (heap.setParent m ⟨some (.child node bit), bit.toNat⟩).store (.child node bit) (some m)

-- The end of `insert`, where the node takes the place below `parent`, or at
-- the root if there is no parent.
def attach (heap : Heap P f) (parent : Option NodeId) (node : NodeId) : Option (Heap P f) :=
  match parent with
  | none => some ((heap.setParent node ⟨some .root, 2⟩).store .root (some node))
  | some parent => do
      let bit ← (heap.nodes parent).choose (heap.nodes node).bits
      return heap.link parent bit node

-- The end of `insert`, where a node without a peer joins `down` and the new node.
def insertBranch (heap : Heap P f) (parent : Option NodeId) (newNode down : NodeId) (cidr : Nat) :
    Option (Heap P f) := do
  let node := heap.allocated
  let heap := heap.allocate (.literal none {} (heap.nodes newNode).bits cidr)
  let heap := heap.maskSelf node
  let bit ← (heap.nodes node).choose (heap.nodes down).bits
  let heap := heap.link node bit down
  let bit ← (heap.nodes node).choose (heap.nodes newNode).bits
  let heap := heap.link node bit newNode
  heap.attach parent node

-- The part of `insert` after `down` is known not to be nil.
def insertAbove (heap : Heap P f) (parent : Option NodeId) (newNode down : NodeId)
    (ip : Address f) (cidr : Nat) : Option (Heap P f) := do
  let common := commonBits (heap.nodes down).bits ip
  let cidr := if common < cidr then common else cidr
  if (heap.nodes newNode).cidr = cidr then
    let bit ← (heap.nodes newNode).choose (heap.nodes down).bits
    (heap.link newNode bit down).attach parent newNode
  else heap.insertBranch parent newNode down cidr

variable [DecidableEq P]

def insert (heap : Heap P f) (ip : Address f) (cidr : Nat) (peer : P) : Option (Heap P f) :=
  match heap.root with
  | none => do
      let node := heap.allocated
      let heap := heap.allocate (.literal (some peer) ⟨some .root, 2⟩ ip cidr)
      let heap := heap.maskSelf node
      let heap ← heap.addToPeerEntries node
      return heap.store .root (some node)
  | some top => do
      let (node, exact) ← heap.nodePlacement (some top) ip cidr
      if exact then
        let node ← node
        let heap ← heap.removeFromPeerEntries node
        (heap.setPeer node (some peer)).addToPeerEntries node
      else
        let newNode := heap.allocated
        let heap := heap.allocate (.literal (some peer) {} ip cidr)
        let heap := heap.maskSelf newNode
        let heap ← heap.addToPeerEntries newNode
        -- The node shares the slice `ip`, which is masked from here on.
        let ip := (heap.nodes newNode).bits
        match node with
        | none => heap.insertAbove none newNode top ip cidr
        | some parent =>
          let bit ← (heap.nodes parent).choose ip
          match (heap.nodes parent).child bit with
          | none => return heap.link parent bit newNode
          | some down => heap.insertAbove (some parent) newNode down ip cidr

def lookupLoop (heap : Heap P f) (ip : Address f) :
    Nat → Option NodeId → Option P → Option (Option P)
  | _, none, found => some found
  | 0, some _, _ => none
  | fuel + 1, some node, found =>
    let entry := heap.nodes node
    if entry.cidr ≤ commonBits entry.bits ip then
      let found := if entry.peer.isSome then entry.peer else found
      if entry.bitAtByte = f.width / 8 then some found
      else do
        let bit ← entry.choose ip
        lookupLoop heap ip fuel (entry.child bit) found
    else some found

def lookup (heap : Heap P f) (ip : Address f) : Option (Option P) :=
  heap.lookupLoop ip (f.width + 1) heap.root none

-- if child != nil { child.parent = parent }; *parent.parentBit = child
def replace (heap : Heap P f) (parent : ParentIndirection) (child : Option NodeId) :
    Option (Heap P f) := do
  let heap := match child with
    | some child => heap.setParent child parent
    | none => heap
  let place ← parent.parentBit
  return heap.store place child

-- The node that a child field belongs to, as `remove` computes it from the
-- address of the field and the index it believes the field to have.
def container : Place NodeId → Nat → Option NodeId
  | .child node bit, parentBitType => if bit.toNat = parentBitType then some node else none
  | .root, _ => none

-- The end of `remove`, for a node that had no children and is below another node.
def removeLeaf (heap : Heap P f) (node : NodeId) : Option (Heap P f) := do
  let entry := heap.nodes node
  let place ← entry.parent.parentBit
  let parent ← container place entry.parent.parentBitType
  if (heap.nodes parent).peer.isSome then
    return heap.zeroizePointers node
  let heap ← heap.replace (heap.nodes parent).parent
    ((heap.nodes parent).child (entry.parent.parentBitType ^^^ 1 == 1))
  return (heap.zeroizePointers node).zeroizePointers parent

def remove (heap : Heap P f) (node : NodeId) : Option (Heap P f) := do
  let heap ← heap.removeFromPeerEntries node
  let heap := heap.setPeer node none
  let entry := heap.nodes node
  if (entry.child false).isSome ∧ (entry.child true).isSome then
    return heap
  let bit := (entry.child false).isNone
  let heap ← heap.replace entry.parent (entry.child bit)
  let entry := heap.nodes node
  if (entry.child false).isSome ∨ (entry.child true).isSome ∨ 1 < entry.parent.parentBitType then
    return heap.zeroizePointers node
  heap.removeLeaf node

end Heap

structure Trie (P : Type) (f : Family) where
  root : Option NodeId := none
  nodes : NodeId → TrieEntry P f := fun _ => {}
  allocated : NodeId := 0

structure AllowedIPs (P : Type) where
  trie : (f : Family) → Trie P f := fun _ => {}
  trieEntries : P → List (Family × NodeId) := fun _ => []

-- A prefix with valid bits; the bits of the address beyond them are arbitrary.
structure Prefix where
  family : Family
  addr : Address family
  bits : Nat
  valid : bits ≤ family.width

namespace AllowedIPs

def heap (table : AllowedIPs P) (f : Family) : Heap P f :=
  { table.trie f with trieEntries := table.trieEntries }

def write (table : AllowedIPs P) (heap : Heap P f) : AllowedIPs P where
  trie := update table.trie f ⟨heap.root, heap.nodes, heap.allocated⟩
  trieEntries := heap.trieEntries

def lookup (table : AllowedIPs P) (ip : Address f) : Option (Option P) :=
  (table.heap f).lookup ip

variable [DecidableEq P]

def insert (table : AllowedIPs P) (pre : Prefix) (peer : P) : Option (AllowedIPs P) := do
  let heap ← (table.heap pre.family).insert pre.addr pre.bits peer
  return table.write heap

def remove (table : AllowedIPs P) (pre : Prefix) (peer : P) : Option (AllowedIPs P) := do
  let heap := table.heap pre.family
  let (node, exact) ← heap.nodePlacement heap.root pre.addr pre.bits
  match node, exact with
  | some node, true =>
    if (heap.nodes node).peer = some peer then
      let heap ← heap.remove node
      return table.write heap
    else return table
  | _, _ => return table

-- The loop of `RemoveByPeer`; the next element is read before this one goes.
def removeByPeerLoop (peer : P) :
    Nat → AllowedIPs P → Option (Family × NodeId) → Option (AllowedIPs P)
  | _, table, none => some table
  | 0, _, some _ => none
  | fuel + 1, table, some elem => do
      let next := ((table.trieEntries peer).dropWhile (· ≠ elem)).tail.head?
      let heap ← (table.heap elem.1).remove elem.2
      removeByPeerLoop peer fuel (table.write heap) next

def removeByPeer (table : AllowedIPs P) (peer : P) : Option (AllowedIPs P) :=
  removeByPeerLoop peer (table.trieEntries peer).length table (table.trieEntries peer).head?

end AllowedIPs

inductive Call (P : Type)
  | insert (pre : Prefix) (peer : P)
  | remove (pre : Prefix) (peer : P)
  | removeByPeer (peer : P)

def AllowedIPs.call [DecidableEq P] (table : AllowedIPs P) : Call P → Option (AllowedIPs P)
  | .insert pre peer => table.insert pre peer
  | .remove pre peer => table.remove pre peer
  | .removeByPeer peer => table.removeByPeer peer

def AllowedIPs.replay [DecidableEq P] (table : AllowedIPs P) (calls : List (Call P)) :
    Option (AllowedIPs P) :=
  calls.foldlM AllowedIPs.call table

end StarlingWg.Routing
