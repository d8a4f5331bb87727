import StarlingWg.Control.Stream
import StarlingWg.Interaction.Program
import StarlingWg.Noise.Primitives

namespace StarlingWg.Control

open Wire List
open Interaction

-- Nanoseconds since the epoch, an int64.
abbrev Nanos := BitVec 64

-- time.Time.After
def Nanos.after (t u : Nanos) : Bool :=
  u.toInt < t.toInt

-- The primitives of the control channel over byte strings. Every AEAD call
-- uses the zero nonce.
structure Suite (B : Type) where
  zero : B
  empty : B
  initialChainKey : B
  initialHash : B
  publicKey : B → B
  scalarMult : B → B → B
  mixHash : B → B → B
  hmac : Noise.Hmac B
  aeadSeal : (key ad plain : B) → B
  aeadOpen : (key ad cipher : B) → Option B
  putTime : Nanos → B
  time : B → Nanos
  len : B → Nat

@[ext] structure Msg1 (B : Type) where
  ephemeral : B
  staticCipher : B
  timestampCipher : B
  deriving DecidableEq

@[ext] structure Msg2 (B : Type) where
  ephemeral : B
  emptyCipher : B
  deriving DecidableEq

def KeySize : Nat := 32

def msg1Size : Nat := KeySize + (KeySize + 16) + (8 + 16)

def msg2Size : Nat := KeySize + 16

structure HandshakeResult (B : Type) where
  remoteStatic : B
  sendKey : B
  recvKey : B
  deriving DecidableEq

inductive Exchange
  | es
  | ss
  | ee
  | se
  deriving DecidableEq

inductive HandshakeError (B : Type)
  | generateEphemeral (err : String)
  | dh (exchange : Exchange)
  | msg1Length (n : Nat)
  | writeMsg1 (err : String)
  | readMsg2 (err : ReadError)
  | msg2Authentication
  | readMsg1 (err : ReadError)
  | staticDecrypt
  | unknownPeer
  | timestampDecrypt
  | replayed (remote : B)
  | writeMsg2 (err : String)
  | remoteMismatch
  deriving DecidableEq

abbrev Outcome (B : Type) :=
  Except (HandshakeError B) (HandshakeResult B)

section

variable {B : Type} [DecidableEq B] (c : Suite B)

def Suite.sharedSecret (exchange : Exchange) (sk pk : B) : Except (HandshakeError B) B :=
  let ss := c.scalarMult sk pk
  if ss = c.zero then .error (.dh exchange) else .ok ss

structure Transcript (B : Type) where
  h : B
  ck : B
  deriving DecidableEq

def Suite.begin : Transcript B :=
  ⟨c.initialHash, c.initialChainKey⟩

def Transcript.mixHash (t : Transcript B) (data : B) : Transcript B :=
  { t with h := c.mixHash t.h data }

-- kdf2(&ck, &key, ck, secret)
def Transcript.mixKey (t : Transcript B) (secret : B) : Transcript B × B :=
  let (ck, key) := c.hmac.kdf2 t.ck secret
  ({ t with ck := ck }, key)

structure Initiation (B : Type) where
  ePriv : B
  ePub : B
  staticCipher : B
  key : B
  transcript : Transcript B

def startInitiation (localPriv localPub remoteStatic ePriv : B) :
    Except (HandshakeError B) (Initiation B) := do
  let ePub := c.publicKey ePriv
  let t := (c.begin.mixHash c remoteStatic).mixHash c ePub
  let es ← c.sharedSecret .es ePriv remoteStatic
  let (t, key) := t.mixKey c es
  let staticCipher := c.aeadSeal key t.h localPub
  let t := t.mixHash c staticCipher
  let ss ← c.sharedSecret .ss localPriv remoteStatic
  let (t, key) := t.mixKey c ss
  return ⟨ePriv, ePub, staticCipher, key, t⟩

def Initiation.sealTimestamp (i : Initiation B) (now : Nanos) : Msg1 B × Transcript B :=
  let timestampCipher := c.aeadSeal i.key i.transcript.h (c.putTime now)
  (⟨i.ePub, i.staticCipher, timestampCipher⟩, i.transcript.mixHash c timestampCipher)

def Msg1.length (m : Msg1 B) : Nat :=
  c.len m.ephemeral + c.len m.staticCipher + c.len m.timestampCipher

def finishInitiation (localPriv remoteStatic ePriv : B) (t : Transcript B) (m : Msg2 B) :
    Except (HandshakeError B) (HandshakeResult B) := do
  let t := t.mixHash c m.ephemeral
  let ee ← c.sharedSecret .ee ePriv m.ephemeral
  let (t, _) := t.mixKey c ee
  let se ← c.sharedSecret .se localPriv m.ephemeral
  let (t, key) := t.mixKey c se
  match c.aeadOpen key t.h m.emptyCipher with
  | none => throw .msg2Authentication
  | some _ =>
    let (sendKey, recvKey) := c.hmac.kdf2 t.ck c.empty
    return ⟨remoteStatic, sendKey, recvKey⟩

-- What the responder has after both ciphertexts of the first message opened.
-- The static plaintext has the size of a key and the other that of a time,
-- since the sizes of their ciphertexts are fixed.
structure Opened (B : Type) where
  ie : B
  remoteStatic : B
  ts : Nanos
  transcript : Transcript B

def openMsg1 (localPriv : B) (isKnownPeer : B → Bool) (m : Msg1 B) :
    Except (HandshakeError B) (Opened B) := do
  let localPub := c.publicKey localPriv
  let t := (c.begin.mixHash c localPub).mixHash c m.ephemeral
  let es ← c.sharedSecret .es localPriv m.ephemeral
  let (t, key) := t.mixKey c es
  match c.aeadOpen key t.h m.staticCipher with
  | none => throw .staticDecrypt
  | some remoteStatic =>
    let t := t.mixHash c m.staticCipher
    if !isKnownPeer remoteStatic then throw .unknownPeer
    let ss ← c.sharedSecret .ss localPriv remoteStatic
    let (t, key) := t.mixKey c ss
    match c.aeadOpen key t.h m.timestampCipher with
    | none => throw .timestampDecrypt
    | some tsPlain =>
      return ⟨m.ephemeral, remoteStatic, c.time tsPlain, t.mixHash c m.timestampCipher⟩

def sealMsg2 (o : Opened B) (rePriv : B) : Except (HandshakeError B) (Msg2 B × Transcript B) := do
  let rePub := c.publicKey rePriv
  let t := o.transcript.mixHash c rePub
  let ee ← c.sharedSecret .ee rePriv o.ie
  let (t, _) := t.mixKey c ee
  let se ← c.sharedSecret .se rePriv o.remoteStatic
  let (t, key) := t.mixKey c se
  let emptyCipher := c.aeadSeal key t.h c.empty
  return (⟨rePub, emptyCipher⟩, t.mixHash c emptyCipher)

def respond (o : Opened B) (t : Transcript B) : HandshakeResult B :=
  let (recvKey, sendKey) := c.hmac.kdf2 t.ck c.empty
  ⟨o.remoteStatic, sendKey, recvKey⟩

end

-- Both sides' computations in closed form: a hash of everything that was
-- mixed in, and a chaining key of every secret.
section

variable {B : Type} (c : Suite B)

def Suite.transcript (data : List B) : B :=
  data.foldl c.mixHash c.initialHash

def Suite.chain (secrets : List B) : B :=
  secrets.foldl (fun ck secret => (c.hmac.kdf2 ck secret).1) c.initialChainKey

def Suite.messageKey (secrets : List B) (last : B) : B :=
  (c.hmac.kdf2 (c.chain secrets) last).2

theorem Suite.kdf2_chain (secrets : List B) (last : B) :
    (c.hmac.kdf2 (c.chain secrets) last).1 = c.chain (secrets ++ [last]) := by
  simp [Suite.chain]

def Suite.at (data secrets : List B) : Transcript B :=
  ⟨c.transcript data, c.chain secrets⟩

theorem Suite.begin_eq : c.begin = c.at [] [] := rfl

theorem Suite.mixHash_at (data secrets : List B) (last : B) :
    (c.at data secrets).mixHash c last = c.at (data ++ [last]) secrets := by
  simp [Suite.at, Transcript.mixHash, Suite.transcript]

theorem Suite.mixKey_at (data secrets : List B) (last : B) : (c.at data secrets).mixKey c last =
      (c.at data (secrets ++ [last]), c.messageKey secrets last) := by
  simp [Suite.at, Transcript.mixKey, Suite.messageKey, c.kdf2_chain]

def Suite.initiation (localPriv localPub remoteStatic ePriv : B) : Initiation B :=
  let es := c.scalarMult ePriv remoteStatic
  let ss := c.scalarMult localPriv remoteStatic
  let ePub := c.publicKey ePriv
  let staticCipher := c.aeadSeal (c.messageKey [] es) (c.transcript [remoteStatic, ePub]) localPub
  ⟨ePriv, ePub, staticCipher, c.messageKey [es] ss,
    c.at [remoteStatic, ePub, staticCipher] [es, ss]⟩

theorem Suite.sealTimestamp_transcript (localPriv localPub remoteStatic ePriv : B) (now : Nanos) :
    let i := c.initiation localPriv localPub remoteStatic ePriv
    let m := (i.sealTimestamp c now).1
    (i.sealTimestamp c now).2 =
      c.at [remoteStatic, m.ephemeral, m.staticCipher, m.timestampCipher]
        [c.scalarMult ePriv remoteStatic, c.scalarMult localPriv remoteStatic] :=
  c.mixHash_at _ _ _

variable [DecidableEq B] {α : Type} {localPriv remoteStatic ePriv : B} {data secrets : List B}
  {m : Msg2 B} {isKnownPeer : B → Bool} {o : Opened B}

theorem Suite.sharedSecret_bind (exchange : Exchange) (sk pk : B)
    (rest : B → Except (HandshakeError B) α) (value : α) :
    (c.sharedSecret exchange sk pk >>= rest) = .ok value ↔
      c.scalarMult sk pk ≠ c.zero ∧ rest (c.scalarMult sk pk) = .ok value := by
  unfold Suite.sharedSecret
  by_cases hz : c.scalarMult sk pk = c.zero
  · simp [hz, bind, Except.bind]
  · simp [hz, bind, Except.bind]

theorem Suite.sharedSecret_bind_error {exchange : Exchange} {sk pk : B}
    {rest : B → Except (HandshakeError B) α} {err : HandshakeError B}
    (h : (c.sharedSecret exchange sk pk >>= rest) = .error err) :
    err = .dh exchange ∨ rest (c.scalarMult sk pk) = .error err := by
  unfold Suite.sharedSecret at h
  by_cases hz : c.scalarMult sk pk = c.zero
  · left
    simpa [hz, bind, Except.bind, eq_comm] using h
  · right
    simpa [hz, bind, Except.bind] using h

theorem startInitiation_eq_ok {localPub : B} {i : Initiation B} :
    startInitiation c localPriv localPub remoteStatic ePriv = .ok i ↔
      c.scalarMult ePriv remoteStatic ≠ c.zero ∧ c.scalarMult localPriv remoteStatic ≠ c.zero ∧
      c.initiation localPriv localPub remoteStatic ePriv = i := by
  simp only [startInitiation, c.sharedSecret_bind, c.begin_eq, c.mixHash_at, c.mixKey_at]
  simp [pure, Except.pure, Suite.initiation, Suite.at]

theorem finishInitiation_eq_ok {result : HandshakeResult B} :
    finishInitiation c localPriv remoteStatic ePriv (c.at data secrets) m = .ok result ↔
      let ee := c.scalarMult ePriv m.ephemeral
      let se := c.scalarMult localPriv m.ephemeral
      let keys := c.hmac.kdf2 (c.chain (secrets ++ [ee, se])) c.empty
      ee ≠ c.zero ∧ se ≠ c.zero ∧
      (c.aeadOpen (c.messageKey (secrets ++ [ee]) se) (c.transcript (data ++ [m.ephemeral]))
        m.emptyCipher).isSome ∧
      result = ⟨remoteStatic, keys.1, keys.2⟩ := by
  simp only [finishInitiation, c.sharedSecret_bind, c.mixHash_at, c.mixKey_at]
  rw [show (c.at (data ++ [m.ephemeral]) ((secrets ++ [c.scalarMult ePriv m.ephemeral]) ++
    [c.scalarMult localPriv m.ephemeral])).h = c.transcript (data ++ [m.ephemeral]) from rfl]
  cases c.aeadOpen (c.messageKey (secrets ++ [c.scalarMult ePriv m.ephemeral])
      (c.scalarMult localPriv m.ephemeral)) (c.transcript (data ++ [m.ephemeral])) m.emptyCipher with
  | none => simp [throw, throwThe, MonadExceptOf.throw]
  | some plain => simp [pure, Except.pure, Suite.at, eq_comm]

theorem openMsg1_eq_ok {m : Msg1 B} : openMsg1 c localPriv isKnownPeer m = .ok o ↔
      let localPub := c.publicKey localPriv
      let es := c.scalarMult localPriv m.ephemeral
      let ss := c.scalarMult localPriv o.remoteStatic
      es ≠ c.zero ∧
      c.aeadOpen (c.messageKey [] es) (c.transcript [localPub, m.ephemeral]) m.staticCipher =
        some o.remoteStatic ∧
      isKnownPeer o.remoteStatic = true ∧ ss ≠ c.zero ∧
      (∃ tsPlain, c.aeadOpen (c.messageKey [es] ss)
        (c.transcript [localPub, m.ephemeral, m.staticCipher]) m.timestampCipher = some tsPlain ∧
        o.ts = c.time tsPlain) ∧
      o.ie = m.ephemeral ∧
      o.transcript = c.at [localPub, m.ephemeral, m.staticCipher, m.timestampCipher] [es, ss] := by
  obtain ⟨ie, remote, ts, t⟩ := o
  simp only [openMsg1, c.sharedSecret_bind, c.begin_eq, c.mixHash_at, c.mixKey_at, nil_append,
    cons_append]
  refine and_congr_right fun _ => ?_
  simp only [Suite.at]
  cases c.aeadOpen (c.messageKey [] (c.scalarMult localPriv m.ephemeral))
      (c.transcript [c.publicKey localPriv, m.ephemeral]) m.staticCipher with
  | none => simp [throw, throwThe, MonadExceptOf.throw]
  | some remoteStatic =>
    rw [Option.some.injEq]
    by_cases hknown : isKnownPeer remoteStatic = true
    · simp only [hknown, Bool.not_true, Bool.false_eq_true, ↓reduceIte, c.sharedSecret_bind]
      cases hopen : c.aeadOpen (c.messageKey [c.scalarMult localPriv m.ephemeral]
          (c.scalarMult localPriv remoteStatic))
          (c.transcript [c.publicKey localPriv, m.ephemeral, m.staticCipher])
          m.timestampCipher with
      | none =>
        simp only [throw, throwThe, MonadExceptOf.throw, reduceCtorEq, and_false, false_iff]
        rintro ⟨rfl, -, -, ⟨tsPlain, hsome, -⟩, -⟩
        simp [hopen] at hsome
      | some tsPlain =>
        constructor
        · rintro ⟨hz, hok⟩
          cases hok
          exact ⟨rfl, hknown, hz, ⟨tsPlain, hopen, rfl⟩, rfl, rfl⟩
        · rintro ⟨rfl, -, hz, ⟨tsPlain', hsome, rfl⟩, rfl, rfl⟩
          obtain rfl : tsPlain = tsPlain' := Option.some.inj (hopen.symm.trans hsome)
          exact ⟨hz, rfl⟩
    · rw [Bool.not_eq_true] at hknown
      simp only [hknown, Bool.not_false, ↓reduceIte]
      constructor
      · rintro ⟨⟩
      · rintro ⟨rfl, hyes, -⟩
        simp [hknown] at hyes

theorem sealMsg2_eq_ok {rePriv : B} {t : Transcript B} (ho : o.transcript = c.at data secrets) :
    sealMsg2 c o rePriv = .ok (m, t) ↔
      let rePub := c.publicKey rePriv
      let ee := c.scalarMult rePriv o.ie
      let se := c.scalarMult rePriv o.remoteStatic
      let emptyCipher := c.aeadSeal (c.messageKey (secrets ++ [ee]) se)
        (c.transcript (data ++ [rePub])) c.empty
      ee ≠ c.zero ∧ se ≠ c.zero ∧ m = ⟨rePub, emptyCipher⟩ ∧
      t = c.at (data ++ [rePub, emptyCipher]) (secrets ++ [ee, se]) := by
  simp only [sealMsg2, c.sharedSecret_bind, ho, c.mixHash_at, c.mixKey_at]
  simp [pure, Except.pure, Suite.at, eq_comm]

structure Suite.Honest (c : Suite B) : Prop where
  dh : ∀ a b, c.scalarMult a (c.publicKey b) = c.scalarMult b (c.publicKey a)
  nonzero : ∀ a b, c.scalarMult a (c.publicKey b) ≠ c.zero
  aead : ∀ key ad plain, c.aeadOpen key ad (c.aeadSeal key ad plain) = some plain
  time : ∀ t, c.time (c.putTime t) = t

theorem Suite.Honest.agree {c : Suite B} (hc : c.Honest) (a b x y : B) (now : Nanos)
    (hknown : isKnownPeer (c.publicKey a) = true) :
    let i := c.initiation a (c.publicKey a) (c.publicKey b) x
    let (m1, t1) := i.sealTimestamp c now
    startInitiation c a (c.publicKey a) (c.publicKey b) x = .ok i ∧
    ∃ o m2 t2 key ad, openMsg1 c b isKnownPeer m1 = .ok o ∧ o.remoteStatic = c.publicKey a ∧
      o.ts = now ∧ sealMsg2 c o y = .ok (m2, t2) ∧
      m2 = ⟨c.publicKey y, c.aeadSeal key ad c.empty⟩ ∧
      ∃ sendKey recvKey, respond c o t2 = ⟨c.publicKey a, recvKey, sendKey⟩ ∧
        finishInitiation c a (c.publicKey b) x t1 m2 = .ok ⟨c.publicKey b, sendKey, recvKey⟩ := by
  let es := c.scalarMult x (c.publicKey b)
  let ss := c.scalarMult a (c.publicKey b)
  let ee := c.scalarMult x (c.publicKey y)
  let se := c.scalarMult a (c.publicKey y)
  let m1 := ((c.initiation a (c.publicKey a) (c.publicKey b) x).sealTimestamp c now).1
  let data := [c.publicKey b, c.publicKey x, m1.staticCipher, m1.timestampCipher]
  let o : Opened B := ⟨c.publicKey x, c.publicKey a, now, c.at data [es, ss]⟩
  let cipher := c.aeadSeal (c.messageKey [es, ss, ee] se) (c.transcript (data ++ [c.publicKey y]))
    c.empty
  let keys := c.hmac.kdf2 (c.chain [es, ss, ee, se]) c.empty
  have hes : c.scalarMult b m1.ephemeral = es := hc.dh b x
  have hss : c.scalarMult b o.remoteStatic = ss := hc.dh b a
  have hee : c.scalarMult y o.ie = ee := hc.dh y x
  have hse : c.scalarMult y o.remoteStatic = se := hc.dh y a
  have hopen : openMsg1 c b isKnownPeer m1 = .ok o := by
    refine (openMsg1_eq_ok c).mpr ⟨hc.nonzero b x, ?_, hknown, hc.nonzero b a,
      ⟨c.putTime now, ?_, (hc.time now).symm⟩, rfl, ?_⟩
    · rw [hes]
      exact hc.aead _ _ _
    · rw [hes, hss]
      exact hc.aead _ _ _
    · rw [hes, hss]
      rfl
  have hseal : sealMsg2 c o y =
      .ok (⟨c.publicKey y, cipher⟩, c.at (data ++ [c.publicKey y, cipher]) [es, ss, ee, se]) := by
    refine (sealMsg2_eq_ok c rfl).mpr ⟨hc.nonzero y x, hc.nonzero y a, ?_, ?_⟩
    · rw [hee, hse]
      rfl
    · rw [hee, hse]
      rfl
  have hfinish : finishInitiation c a (c.publicKey b) x (c.at data [es, ss])
      ⟨c.publicKey y, cipher⟩ = .ok ⟨c.publicKey b, keys.1, keys.2⟩ := by
    refine (finishInitiation_eq_ok c).mpr ⟨hc.nonzero x y, hc.nonzero a y, ?_, rfl⟩
    exact Option.isSome_iff_exists.mpr ⟨_, hc.aead _ _ _⟩
  exact ⟨(startInitiation_eq_ok c).mpr ⟨hc.nonzero x b, hc.nonzero a b, rfl⟩, o, _, _, _, _, hopen,
    rfl, rfl, hseal, rfl, _, _, rfl, hfinish⟩

end

section

-- What a handshake does besides computing; `returned` hands its result to
-- the caller.
inductive HandshakeOp (B : Type) : Type → Type
  | generatePrivateKey : HandshakeOp B (Except String B)
  | now : HandshakeOp B Nanos
  | writeMsg1 (m : Msg1 B) : HandshakeOp B (Except String Unit)
  | readMsg2 : HandshakeOp B (Except ReadError (Msg2 B))
  | readMsg1 : HandshakeOp B (Except ReadError (Msg1 B))
  | checkReplay (remote : B) (ts : Nanos) : HandshakeOp B Bool
  | writeMsg2 (m : Msg2 B) : HandshakeOp B (Except String Unit)
  | close : HandshakeOp B Unit
  | returned (result : Outcome B) : HandshakeOp B Unit

def handshakes (B : Type) : Signature where
  Op := HandshakeOp B
  Proc _ := Empty

variable {B : Type} [DecidableEq B] (c : Suite B)

def perform {β : Type} (op : HandshakeOp B β) : Program (handshakes B) β :=
  @Program.act (handshakes B) β op

def initiatorHandshake (localPriv localPub remoteStatic : B) :
    Program (handshakes B) (Outcome B) := do
  match ← perform .generatePrivateKey with
  | .error err => return .error (.generateEphemeral err)
  | .ok ePriv =>
    match startInitiation c localPriv localPub remoteStatic ePriv with
    | .error err => return .error err
    | .ok i =>
      let now ← perform .now
      let (msg1, t) := i.sealTimestamp c now
      if msg1.length c ≠ msg1Size then return .error (.msg1Length (msg1.length c))
      match ← perform (.writeMsg1 msg1) with
      | .error err => return .error (.writeMsg1 err)
      | .ok () =>
        match ← perform .readMsg2 with
        | .error err => return .error (.readMsg2 err)
        | .ok msg2 => return finishInitiation c localPriv remoteStatic i.ePriv t msg2

def responderHandshake (localPriv : B) (isKnownPeer : B → Bool) :
    Program (handshakes B) (Outcome B) := do
  match ← perform .readMsg1 with
  | .error err => return .error (.readMsg1 err)
  | .ok msg1 =>
    match openMsg1 c localPriv isKnownPeer msg1 with
    | .error err => return .error err
    | .ok o =>
      if !(← perform (.checkReplay o.remoteStatic o.ts)) then
        return .error (.replayed o.remoteStatic)
      match ← perform .generatePrivateKey with
      | .error err => return .error (.generateEphemeral err)
      | .ok rePriv =>
        match sealMsg2 c o rePriv with
        | .error err => return .error err
        | .ok (msg2, t) =>
          match ← perform (.writeMsg2 msg2) with
          | .error err => return .error (.writeMsg2 err)
          | .ok () => return .ok (respond c o t)

def refuse (err : HandshakeError B) : Program (handshakes B) Unit := do
  perform .close
  perform (.returned (.error err))

-- Endpoint.Accept; newConn cannot fail, since the keys have the cipher's size.
def accept (localPriv : B) (isKnownPeer : B → Bool) : Program (handshakes B) Unit := do
  match ← responderHandshake c localPriv isKnownPeer with
  | .error err => refuse err
  | .ok hr => perform (.returned (.ok hr))

def handshakeOverConn (localPriv remoteStatic : B) : Program (handshakes B) Unit := do
  let localPub := c.publicKey localPriv
  match ← initiatorHandshake c localPriv localPub remoteStatic with
  | .error err => refuse err
  | .ok hr =>
    if hr.remoteStatic ≠ remoteStatic then refuse .remoteMismatch
    else perform (.returned (.ok hr))

end

structure Primitives where
  hash : Bytes → Bytes
  hmac : (key data : Bytes) → Bytes
  scalarBaseMult : Bytes → Bytes
  scalarMult : Bytes → Bytes → Bytes
  aeadSeal : (key ad plain : Bytes) → Bytes
  aeadOpen : (key ad cipher : Bytes) → Option Bytes
  keySize : ∀ sk, (scalarBaseMult sk).length = KeySize
  overhead : ∀ key ad plain, (aeadSeal key ad plain).length = plain.length + 16

def protocolName : GoString :=
  GoString.ofString "OrchestrateControl_IK_25519_ChaChaPoly_BLAKE2s_v1"

def Primitives.suite (p : Primitives) : Suite Bytes where
  zero := List.replicate KeySize 0
  empty := []
  initialChainKey := p.hash protocolName.bytes
  initialHash := p.hash (p.hash protocolName.bytes)
  publicKey := p.scalarBaseMult
  scalarMult := p.scalarMult
  mixHash h data := p.hash (h ++ data)
  hmac := ⟨p.hmac, fun key in0 in1 => p.hmac key (in0 ++ in1), [1], [2], [3]⟩
  aeadSeal := p.aeadSeal
  aeadOpen := p.aeadOpen
  putTime t := beBytes 8 t.toNat
  time bytes := .ofNat 64 (beNat bytes)
  len := List.length

def Msg1.bytes (m : Msg1 Bytes) : Bytes :=
  m.ephemeral ++ m.staticCipher ++ m.timestampCipher

def Msg1.ofBytes (bytes : Bytes) : Msg1 Bytes :=
  ⟨bytes.take KeySize, (bytes.drop KeySize).take (KeySize + 16), bytes.drop (KeySize + KeySize + 16)⟩

def Msg2.bytes (m : Msg2 Bytes) : Bytes :=
  m.ephemeral ++ m.emptyCipher

def Msg2.ofBytes (bytes : Bytes) : Msg2 Bytes :=
  ⟨bytes.take KeySize, bytes.drop KeySize⟩

structure Surroundings where
  ephemeral : Except String Bytes
  now : Nanos
  write : WriteError
  checkReplay : Bytes → Nanos → Bool

structure Side where
  nc : Incoming
  written : Bytes

def Side.write (side : Side) (bytes : Bytes) : WriteError → Except String Unit × Side
  | none => (.ok (), { side with written := side.written ++ bytes })
  | some (n, err) => (.error err, { side with written := side.written ++ bytes.take n })

def Side.read {M : Type} (side : Side) (n : Nat) (ofBytes : Bytes → M) :
    Except ReadError M × Side :=
  let (result, nc) := side.nc.readFull n
  (result.map ofBytes, { side with nc := nc })

def Surroundings.handle (env : Surroundings) (side : Side) {β : Type} :
    HandshakeOp Bytes β → β × Side
  | .generatePrivateKey => (env.ephemeral, side)
  | .now => (env.now, side)
  | .writeMsg1 m => side.write m.bytes env.write
  | .readMsg2 => side.read msg2Size Msg2.ofBytes
  | .readMsg1 => side.read msg1Size Msg1.ofBytes
  | .checkReplay remote ts => (env.checkReplay remote ts, side)
  | .writeMsg2 m => side.write m.bytes env.write
  | .close => ((), side)
  | .returned _ => ((), side)

instance (β : Type) : IsEmpty ((handshakes Bytes).Proc β) :=
  inferInstanceAs (IsEmpty Empty)

def Surroundings.interpret (env : Surroundings) {α : Type}
    (program : Program (handshakes Bytes) α) (side : Side) : α × Side :=
  program.interpret (fun side {_} op => env.handle side op) side

def Surroundings.run (env : Surroundings) (nc : Incoming)
    (program : Program (handshakes Bytes) (Outcome Bytes)) :
    Outcome Bytes × Side :=
  env.interpret program ⟨nc, []⟩

section

variable (env : Surroundings) (side : Side) {α β : Type}

theorem Surroundings.interpret_pure (value : α) :
    env.interpret (pure value) side = (value, side) := rfl

theorem Surroundings.interpret_perform (op : HandshakeOp Bytes β) :
    env.interpret (perform op) side = env.handle side op := rfl

theorem Surroundings.interpret_bind (program : Program (handshakes Bytes) α)
    (rest : α → Program (handshakes Bytes) β) :
    env.interpret (program >>= rest) side =
      env.interpret (rest (env.interpret program side).1) (env.interpret program side).2 :=
  Program.interpret_bind program rest

end

theorem Msg1.ofBytes_bytes {m : Msg1 Bytes} (he : m.ephemeral.length = KeySize)
    (hs : m.staticCipher.length = KeySize + 16) : Msg1.ofBytes m.bytes = m := by
  obtain ⟨e, sc, tc⟩ := m
  simp only [Msg1.ofBytes, Msg1.bytes, Msg1.mk.injEq, append_assoc]
  refine ⟨take_left' he, ?_, ?_⟩
  · rw [drop_left' he, take_left' hs]
  · rw [← append_assoc]
    apply drop_left'
    rw [length_append, he, hs]
    rfl

theorem Msg2.ofBytes_bytes {m : Msg2 Bytes} (he : m.ephemeral.length = KeySize) :
    Msg2.ofBytes m.bytes = m := by
  simp only [Msg2.ofBytes, Msg2.bytes, take_left' he, drop_left' he]

theorem Side.read_of_bytes {M : Type} {nc : Incoming} {bytes rest : Bytes} {n : Nat}
    (written : Bytes) (ofBytes : Bytes → M) (h : nc.bytes = bytes ++ rest)
    (hn : bytes.length = n) :
    ∃ nc', Side.read ⟨nc, written⟩ n ofBytes = (.ok (ofBytes bytes), ⟨nc', written⟩) := by
  obtain ⟨nc', hread, -⟩ := Incoming.readFull_of_bytes h
  refine ⟨nc', ?_⟩
  rw [← hn]
  simp only [Side.read, hread]
  rfl

section

structure Primitives.Honest (p : Primitives) : Prop where
  dh : ∀ a b, p.scalarMult a (p.scalarBaseMult b) = p.scalarMult b (p.scalarBaseMult a)
  nonzero : ∀ a b, p.scalarMult a (p.scalarBaseMult b) ≠ List.replicate KeySize 0
  aead : ∀ key ad plain, p.aeadOpen key ad (p.aeadSeal key ad plain) = some plain

variable {p : Primitives} {env : Surroundings} {nc : Incoming}

theorem Primitives.Honest.suite (hp : p.Honest) : p.suite.Honest where
  dh := hp.dh
  nonzero := hp.nonzero
  aead := hp.aead
  time := ofNat_beNat (by decide)

theorem Primitives.initiation_length (a b x : Bytes) (now : Nanos) :
    let i := p.suite.initiation a (p.scalarBaseMult a) b x
    let m := (i.sealTimestamp p.suite now).1
    m.ephemeral.length = KeySize ∧ m.staticCipher.length = KeySize + 16 ∧
      m.timestampCipher.length = 8 + 16 :=
  ⟨p.keySize x, (p.overhead _ _ _).trans (congrArg (· + 16) (p.keySize a)),
    (p.overhead _ _ _).trans (congrArg (· + 16) (beBytes_length 8 now.toNat))⟩

variable {a aPub b e rest : Bytes} {i : Initiation Bytes}

theorem initiator_run (he : env.ephemeral = .ok e) (hw : env.write = none)
    (hi : startInitiation p.suite a aPub b e = .ok i)
    (hlen : (i.sealTimestamp p.suite env.now).1.length p.suite = msg1Size) :
    env.run nc (initiatorHandshake p.suite a aPub b) =
      let (msg1, t) := i.sealTimestamp p.suite env.now
      let (reply, side) := Side.read ⟨nc, msg1.bytes⟩ msg2Size Msg2.ofBytes
      (match reply with
        | .error err => .error (.readMsg2 err)
        | .ok m => finishInitiation p.suite a b i.ePriv t m, side) := by
  simp only [Surroundings.run, initiatorHandshake, env.interpret_bind, env.interpret_perform,
    Surroundings.handle, he, hi, hw, hlen, Side.write, ne_eq, not_true_eq_false, if_false,
    nil_append]
  cases (Side.read ⟨nc, (i.sealTimestamp p.suite env.now).1.bytes⟩ msg2Size Msg2.ofBytes).1 with
  | error err => rfl
  | ok m => rfl

theorem initiator_finish {m : Msg2 Bytes} (he : env.ephemeral = .ok e)
    (hw : env.write = none) (hi : startInitiation p.suite a aPub b e = .ok i)
    (hlen : (i.sealTimestamp p.suite env.now).1.length p.suite = msg1Size)
    (hnc : nc.bytes = m.bytes ++ rest) (hm : m.bytes.length = msg2Size)
    (hof : Msg2.ofBytes m.bytes = m) :
    (env.run nc (initiatorHandshake p.suite a aPub b)).1 =
      finishInitiation p.suite a b i.ePriv (i.sealTimestamp p.suite env.now).2 m := by
  obtain ⟨nc', hread⟩ := Side.read_of_bytes (i.sealTimestamp p.suite env.now).1.bytes Msg2.ofBytes
    hnc hm
  rw [initiator_run he hw hi hlen]
  simp only [hread, hof]

theorem responder_run {known : Bytes → Bool} {m : Msg1 Bytes} {o : Opened Bytes}
    {m2 : Msg2 Bytes} {t : Transcript Bytes} (he : env.ephemeral = .ok e)
    (hw : env.write = none) (hnc : nc.bytes = m.bytes ++ rest) (hm : m.bytes.length = msg1Size)
    (hof : Msg1.ofBytes m.bytes = m) (ho : openMsg1 p.suite b known m = .ok o)
    (hfresh : env.checkReplay o.remoteStatic o.ts = true)
    (hs : sealMsg2 p.suite o e = .ok (m2, t)) :
    (env.run nc (responderHandshake p.suite b known)).1 = .ok (respond p.suite o t) ∧
    (env.run nc (responderHandshake p.suite b known)).2.written = m2.bytes := by
  obtain ⟨nc', hread⟩ := Side.read_of_bytes [] Msg1.ofBytes hnc hm
  simp only [Surroundings.run, responderHandshake, env.interpret_bind, env.interpret_perform,
    env.interpret_pure, Surroundings.handle, hread, hof, ho, hfresh, he, hs, hw, Side.write,
    Bool.not_true, Bool.false_eq_true, if_false, nil_append, and_self]

-- However the bytes arrive in reads.
theorem handshake_agreement (hp : p.Honest) (a b x y : Bytes) {envI envR : Surroundings}
    (hx : envI.ephemeral = .ok x) (hy : envR.ephemeral = .ok y) (hwI : envI.write = none)
    (hwR : envR.write = none) {isKnownPeer : Bytes → Bool}
    (hknown : isKnownPeer (p.scalarBaseMult a) = true)
    (hfresh : envR.checkReplay (p.scalarBaseMult a) envI.now = true) {ncI ncR : Incoming}
    {restI restR : Bytes} :
    let initiator := envI.run ncI
      (initiatorHandshake p.suite a (p.scalarBaseMult a) (p.scalarBaseMult b))
    let responder := envR.run ncR (responderHandshake p.suite b isKnownPeer)
    ncR.bytes = initiator.2.written ++ restR → ncI.bytes = responder.2.written ++ restI →
    ∃ sendKey recvKey, initiator.1 = .ok ⟨p.scalarBaseMult b, sendKey, recvKey⟩ ∧
      responder.1 = .ok ⟨p.scalarBaseMult a, recvKey, sendKey⟩ := by
  intro initiator responder hR hI
  obtain ⟨hstart, o, m2, t2, key, ad, hopen, hremote, hts, hseal, rfl, sendKey, recvKey, hrespond,
    hfinish⟩ := hp.suite.agree a b x y envI.now hknown
  obtain ⟨he, hs, ht⟩ := p.initiation_length a (p.scalarBaseMult b) x envI.now
  have hlen : ((p.suite.initiation a (p.scalarBaseMult a) (p.scalarBaseMult b) x).sealTimestamp
      p.suite envI.now).1.bytes.length = msg1Size := by
    rw [Msg1.bytes, length_append, length_append, he, hs, ht]
    rfl
  have hlen' := hlen
  rw [Msg1.bytes, length_append, length_append] at hlen'
  have hwritten : initiator.2.written = Msg1.bytes _ :=
    congrArg (·.2.written) (initiator_run hx hwI hstart hlen')
  rw [hwritten] at hR
  obtain ⟨hok, hsent⟩ := responder_run hy hwR hR hlen (Msg1.ofBytes_bytes he hs) hopen
    (by rw [hremote, hts]; exact hfresh) hseal
  have hlen2 : (Msg2.bytes ⟨p.suite.publicKey y, p.suite.aeadSeal key ad p.suite.empty⟩).length =
      msg2Size := by
    rw [Msg2.bytes, length_append]
    exact congrArg₂ (· + ·) (p.keySize y) (p.overhead key ad [])
  have hresult := initiator_finish hx hwI hstart hlen' (hI.trans (congrArg (· ++ restI) hsent)) hlen2
    (Msg2.ofBytes_bytes (p.keySize y))
  exact ⟨sendKey, recvKey, hresult.trans hfinish, hok.trans (congrArg _ hrespond)⟩

def toySum (data : Bytes) : UInt8 :=
  data.foldl (· + ·) 0

def toyPrimitives : Primitives where
  hash data := [toySum data]
  hmac key data := [toySum key + 3 * toySum data]
  scalarBaseMult sk := (sk ++ List.replicate KeySize 0).take KeySize
  scalarMult sk pk := 1 :: List.zipWith (· + ·) ((sk ++ List.replicate KeySize 0).take KeySize) pk
  aeadSeal key ad plain := plain ++ List.replicate 15 0 ++ [toySum key + toySum ad]
  aeadOpen key ad cipher :=
    if cipher.getLast? = some (toySum key + toySum ad) then some (cipher.take (cipher.length - 16))
    else none
  keySize sk := by simp
  overhead key ad plain := by simp

theorem toyPrimitives_honest : toyPrimitives.Honest where
  dh a b := congrArg (1 :: ·) (zipWith_comm_of_comm fun a b => UInt8.add_comm a b)
  nonzero a b := by
    intro h
    have hlen := congrArg List.length h
    simp [toyPrimitives, KeySize] at hlen
  aead key ad plain := by simp [toyPrimitives]

def toySurroundings (ephemeral : UInt8) : Surroundings where
  ephemeral := .ok [ephemeral]
  now := 5
  write := none
  checkReplay _ _ := true

def toyMsg1 : Bytes :=
  ((toySurroundings 3).run ⟨[], .eof⟩ (initiatorHandshake toyPrimitives.suite [1]
    (toyPrimitives.scalarBaseMult [1]) (toyPrimitives.scalarBaseMult [2]))).2.written

def toyMsg2 : Bytes :=
  ((toySurroundings 4).run ⟨[toyMsg1], .eof⟩
    (responderHandshake toyPrimitives.suite [2] fun _ => true)).2.written

theorem handshake_agreement_toy :
    ∃ sendKey recvKey, ((toySurroundings 3).run ⟨[toyMsg2.take 7, toyMsg2.drop 7], .eof⟩
        (initiatorHandshake toyPrimitives.suite [1] (toyPrimitives.scalarBaseMult [1])
          (toyPrimitives.scalarBaseMult [2]))).1 =
        .ok ⟨toyPrimitives.scalarBaseMult [2], sendKey, recvKey⟩ ∧
      ((toySurroundings 4).run ⟨[toyMsg1.take 40, toyMsg1.drop 40], .eof⟩
        (responderHandshake toyPrimitives.suite [2] fun _ => true)).1 =
        .ok ⟨toyPrimitives.scalarBaseMult [1], recvKey, sendKey⟩ :=
  @handshake_agreement toyPrimitives toyPrimitives_honest [1] [2] [3] [4] (toySurroundings 3)
    (toySurroundings 4) rfl rfl rfl rfl (fun _ => true) rfl rfl _ _ [] [] (by decide +kernel)
    (by decide +kernel)

end

end StarlingWg.Control
