import Mathlib.Data.Nat.Notation

namespace StarlingWg.Noise

-- A TAI64N label; its twelve bytes compare as a big-endian number.
abbrev Timestamp := BitVec 96

def Timestamp.after (t1 t2 : Timestamp) : Bool :=
  t2 < t1

-- The primitives over byte strings. Every AEAD call uses the zero nonce.
structure Crypto (B : Type) where
  zero : B
  empty : B
  initialChainKey : B
  wgIdentifier : B
  publicKey : B → B
  scalarMult : B → B → B
  mixHash : B → B → B
  kdf1 : B → B → B
  kdf2 : B → B → B × B
  kdf3 : B → B → B × B × B
  aeadSeal : (key plain ad : B) → B
  aeadOpen : (key cipher ad : B) → Option B
  stamp : Timestamp → B
  readStamp : B → Timestamp

-- HMAC1 and HMAC2, and the one-byte strings that the KDFs append.
structure Hmac (B : Type) where
  hmac1 : (key in0 : B) → B
  hmac2 : (key in0 in1 : B) → B
  one : B
  two : B
  three : B

namespace Hmac

variable {B : Type} (m : Hmac B)

def kdf1 (key input : B) : B :=
  m.hmac1 (m.hmac1 key input) m.one

def kdf2 (key input : B) : B × B :=
  let prk := m.hmac1 key input
  let t0 := m.hmac1 prk m.one
  let t1 := m.hmac2 prk t0 m.two
  (t0, t1)

def kdf3 (key input : B) : B × B × B :=
  let prk := m.hmac1 key input
  let t0 := m.hmac1 prk m.one
  let t1 := m.hmac2 prk t0 m.two
  let t2 := m.hmac2 prk t1 m.three
  (t0, t1, t2)

end Hmac

section

variable {B : Type} [DecidableEq B] (c : Crypto B)

def Crypto.initialHash : B :=
  c.mixHash c.initialChainKey c.wgIdentifier

def Crypto.sharedSecret (sk pk : B) : Option B :=
  let ss := c.scalarMult sk pk
  if ss = c.zero then none else some ss

end

section

variable {B : Type} [DecidableEq B] {c : Crypto B}

structure Crypto.Honest (c : Crypto B) : Prop where
  dh : ∀ a b, c.scalarMult a (c.publicKey b) = c.scalarMult b (c.publicKey a)
  nonzero : ∀ a b, c.scalarMult a (c.publicKey b) ≠ c.zero
  aead : ∀ key plain ad, c.aeadOpen key (c.aeadSeal key plain ad) ad = some plain
  stamp : ∀ t, c.readStamp (c.stamp t) = t

-- The KDFs are those of an HMAC without collisions. One byte 1, and a hash
-- followed by a byte 2, are different inputs.
structure Crypto.Ideal (c : Crypto B) (m : Hmac B) : Prop where
  kdf1 : c.kdf1 = m.kdf1
  kdf2 : c.kdf2 = m.kdf2
  kdf3 : c.kdf3 = m.kdf3
  hmac1 : ∀ key input key' input', m.hmac1 key input = m.hmac1 key' input' →
    key = key' ∧ input = input'
  hmac2 : ∀ key t key' t', m.hmac2 key t m.two = m.hmac2 key' t' m.two → key = key'
  disjoint : ∀ key key' t, m.hmac1 key m.one ≠ m.hmac2 key' t m.two
  initial : ∀ key, m.hmac1 key m.one ≠ c.initialChainKey

theorem Crypto.Honest.sharedSecret (h : c.Honest) (a b : B) :
    c.sharedSecret a (c.publicKey b) = some (c.scalarMult a (c.publicKey b)) :=
  if_neg (h.nonzero a b)

end

-- Byte strings as terms. Shared secrets of keys that are no atoms are all the
-- same, which keeps the exchange commutative.
inductive Term
  | atom (n : Nat)
  | pub (key : Term)
  | secret (a b : Nat)
  | hash (state data : Term)
  | hmac1 (key in0 : Term)
  | hmac2 (key in0 in1 : Term)
  | sealed (key plain ad : Term)
  | stamp (t : Timestamp)
  deriving DecidableEq

namespace Term

def hmac : Hmac Term where
  hmac1 := .hmac1
  hmac2 := .hmac2
  one := .atom 4
  two := .atom 5
  three := .atom 6

def scalarMult : Term → Term → Term
  | .atom a, .pub (.atom b) => .secret (min a b) (max a b)
  | _, _ => .secret 0 0

def aeadOpen (key cipher ad : Term) : Option Term :=
  match cipher with
  | .sealed key' plain ad' => if key' = key ∧ ad' = ad then some plain else none
  | _ => none

def readStamp : Term → Timestamp
  | .stamp t => t
  | _ => 0

def crypto : Crypto Term where
  zero := .atom 0
  empty := .atom 1
  initialChainKey := .atom 2
  wgIdentifier := .atom 3
  publicKey := .pub
  scalarMult := scalarMult
  mixHash := .hash
  kdf1 := hmac.kdf1
  kdf2 := hmac.kdf2
  kdf3 := hmac.kdf3
  aeadSeal := .sealed
  aeadOpen := aeadOpen
  stamp := .stamp
  readStamp := readStamp

theorem scalarMult_comm (a b : Term) : scalarMult a (.pub b) = scalarMult b (.pub a) := by
  cases a with
  | atom n =>
    cases b with
    | atom k => simp only [scalarMult, Nat.min_comm, Nat.max_comm]
    | _ => rfl
  | _ => cases b <;> rfl

theorem crypto_honest : crypto.Honest where
  dh := scalarMult_comm
  nonzero a b := by
    show scalarMult a (.pub b) ≠ .atom 0
    unfold scalarMult
    split <;> simp
  aead key plain ad := by simp [crypto, aeadOpen]
  stamp t := rfl

theorem crypto_ideal : crypto.Ideal hmac where
  kdf1 := rfl
  kdf2 := rfl
  kdf3 := rfl
  hmac1 key input key' input' h := by simpa [hmac] using h
  hmac2 key t key' t' h := by
    have hsame : key = key' ∧ t = t' := by simpa [hmac] using h
    exact hsame.1
  disjoint key key' t := by simp [hmac]
  initial key := by simp [hmac, crypto]

end Term

end StarlingWg.Noise
