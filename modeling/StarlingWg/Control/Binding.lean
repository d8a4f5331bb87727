import StarlingWg.Control.Sessions
import StarlingWg.Symbolic.Deduction

namespace StarlingWg.Control

open Interaction Function Option
open Symbolic

section

-- Only a name is a private key; the zero secret stands for any other.
def scalarMult : Term → Term → Term
  | .name x, t => t.raise x
  | _, _ => .atom 0

def timeOf : Term → Nanos
  | .number n => .ofNat 64 n
  | _ => 0

def lengthOf : Term → Nat
  | .sealed _ _ plain => lengthOf plain + 16
  | .number _ => 8
  | .atom 1 => 0
  | _ => KeySize

def symbolic : Suite Term where
  zero := .atom 0
  empty := .atom 1
  initialChainKey := .atom 2
  initialHash := .atom 3
  publicKey sk := scalarMult sk .generator
  scalarMult := scalarMult
  mixHash := .hash
  hmac := ⟨.hmac1, .hmac2, .atom 4, .atom 5, .atom 6⟩
  aeadSeal := .sealed
  aeadOpen := Term.aeadOpen
  putTime t := .number t.toNat
  time := timeOf
  len := lengthOf

theorem symbolic_chain_snoc (secrets : List Term) (last : Term) :
    symbolic.chain (secrets ++ [last]) =
      .hmac1 (.hmac1 (symbolic.chain secrets) last) (.atom 4) := by
  rw [← symbolic.kdf2_chain]
  rfl

theorem symbolic_messageKey (secrets : List Term) (last : Term) : symbolic.messageKey secrets last =
      .hmac2 (.hmac1 (symbolic.chain secrets) last)
        (.hmac1 (.hmac1 (symbolic.chain secrets) last) (.atom 4)) (.atom 5) := rfl

variable {l l' : List Term} {s : Term}

theorem symbolic_chain_inj (h : symbolic.chain l = symbolic.chain l') : l = l' :=
  foldl_inj (fun _ _ _ _ heq => by simpa [symbolic, Noise.Hmac.kdf2] using heq)
    (fun _ _ heq => by simp [symbolic, Noise.Hmac.kdf2] at heq) h

theorem symbolic_messageKey_inj {s' : Term}
    (h : symbolic.messageKey l s = symbolic.messageKey l' s') : l = l' ∧ s = s' := by
  rw [symbolic_messageKey, symbolic_messageKey] at h
  simp only [Term.hmac2.injEq, Term.hmac1.injEq, and_true] at h
  exact ⟨symbolic_chain_inj h.1.1, h.1.2⟩

variable {own : ℕ → Prop} {issued : Term → Prop}

theorem safe_chain (h : Safe own issued (symbolic.chain l)) : ∀ s ∈ l, Safe own issued s := by
  induction l using List.reverseRecOn with
  | nil => simp
  | append_singleton l s ih =>
    rw [symbolic_chain_snoc] at h
    intro t ht
    rcases List.mem_append.mp ht with ht | ht
    · exact ih h.1.1 t ht
    · rw [List.mem_singleton.mp ht]
      exact h.1.2

theorem safe_publicKey (x : ℕ) : Safe own issued (symbolic.publicKey (.name x)) :=
  .publicKey x

end

section

variable {ι ε : Type} (own : ℕ → Prop)

def World.OnWire (w : World Term ι ε) (t : Term) : Prop :=
  ∃ i, t ∈ (w.records i).wire

-- The man in the middle: private keys are names of others, and a message that
-- is read consists of what could be made out of everything on the wire.
def Deliverable (w : World Term ι ε) : {β : Type} → HandshakeOp Term β → β → Prop
  | _, .generatePrivateKey, .ok key => ∃ x, key = .name x ∧ ¬own x
  | _, .readMsg1, .ok m => ∀ t ∈ m.fields, Knows own w.OnWire t
  | _, .readMsg2, .ok m => ∀ t ∈ m.fields, Knows own w.OnWire t
  | _, _, _ => True

def Attackable : SessionLabel Term ι ε → Prop
  | .act _ w op reply _ => Deliverable own w op reply
  | _ => True

structure HonestParties (endpoints : ε → Endpoint Term) (sessions : ι → Session Term ε) : Prop where
  dial : ∀ i localPriv remoteStatic, sessions i = .dial localPriv remoteStatic →
    ∃ x, localPriv = .name x ∧ ¬own x
  endpoint : ∀ e, ∃ x, (endpoints e).localPriv = .name x ∧ ¬own x

def World.Issued (w : World Term ι ε) (t : Term) : Prop :=
  ∃ i, (∃ m, (w.records i).wrote1 = some m ∧ (t = m.staticCipher ∨ t = m.timestampCipher)) ∨
    ∃ m, (w.records i).sent2 = some m ∧ t = m.emptyCipher

variable {r : Record Term} {pool : SessionPool Term ι ε}

theorem Dialing.ciphers {localPriv remoteStatic : Term}
    (h : Dialing symbolic localPriv remoteStatic r) {m : Msg1 Term} (hm : r.wrote1 = some m) :
    ∃ x now, r.ephemeral = some x ∧ m.ephemeral = symbolic.publicKey x ∧
      let es := scalarMult x remoteStatic
      let ss := scalarMult localPriv remoteStatic
      m.staticCipher = .sealed (symbolic.messageKey [] es)
        (symbolic.transcript [remoteStatic, m.ephemeral]) (symbolic.publicKey localPriv) ∧
      m.timestampCipher = .sealed (symbolic.messageKey [es] ss)
        (symbolic.transcript [remoteStatic, m.ephemeral, m.staticCipher]) (symbolic.putTime now) := by
  obtain ⟨x, i, now, hx, hi, rfl, -⟩ := h.wrote m hm
  obtain ⟨-, -, rfl⟩ := (startInitiation_eq_ok symbolic).mp hi
  exact ⟨x, now, hx, rfl, rfl, rfl⟩

theorem Accepting.cipher {endpoint : Endpoint Term} (h : Accepting symbolic endpoint r)
    {m2 : Msg2 Term} (hm2 : r.sent2 = some m2) :
    ∃ m o y t, r.read1 = some m ∧ openMsg1 symbolic endpoint.localPriv endpoint.isKnown m = .ok o ∧
      r.ephemeral = some y ∧ sealMsg2 symbolic o y = .ok (m2, t) ∧
      (∀ outcome, r.result = some outcome → outcome = .ok (respond symbolic o t)) ∧
      m2.ephemeral = symbolic.publicKey y ∧
      let es := scalarMult endpoint.localPriv m.ephemeral
      let ss := scalarMult endpoint.localPriv o.remoteStatic
      let ee := scalarMult y m.ephemeral
      let se := scalarMult y o.remoteStatic
      m.staticCipher = .sealed (symbolic.messageKey [] es)
        (symbolic.transcript [symbolic.publicKey endpoint.localPriv, m.ephemeral]) o.remoteStatic ∧
      m2.emptyCipher = .sealed (symbolic.messageKey [es, ss, ee] se)
        (symbolic.transcript [symbolic.publicKey endpoint.localPriv, m.ephemeral, m.staticCipher,
          m.timestampCipher, m2.ephemeral]) symbolic.empty ∧
      t.ck = symbolic.chain [es, ss, ee, se] := by
  obtain ⟨m, o, y, t, hm, ho, -, hy, hseal, hres⟩ := h.sent m2 hm2
  obtain ⟨-, hstatic, -, -, -, hie, ht⟩ := (openMsg1_eq_ok symbolic).mp ho
  obtain ⟨-, -, rfl, rfl⟩ := (sealMsg2_eq_ok symbolic ht).mp hseal
  simp only [hie] at hseal hres ⊢
  exact ⟨m, o, y, _, hm, ho, hy, hseal, hres, rfl, Term.aeadOpen_eq_some.mp hstatic, rfl, rfl⟩

variable {own} {endpoints : ε → Endpoint Term} {sessions : ι → Session Term ε}

structure Attacked (own : ℕ → Prop) (endpoints : ε → Endpoint Term) (sessions : ι → Session Term ε)
    (pool : SessionPool Term ι ε) : Prop where
  sound : Sound symbolic endpoints sessions pool
  named : ∀ i key, (pool.state.records i).ephemeral = some key → ∃ x, key = .name x
  heard : ∀ i m, (pool.state.records i).read2 = some m →
    Safe own pool.state.Issued m.emptyCipher

theorem Attacked.wire_safe (ha : Attacked own endpoints sessions pool) (t : Term)
    (ht : pool.state.OnWire t) : Safe own pool.state.Issued t := by
  obtain ⟨i, ht⟩ := ht
  have hcons := ha.sound.consistent i
  cases hs : sessions i with
  | dial localPriv remoteStatic =>
    rw [hs] at hcons
    obtain ⟨m, hm, hfield⟩ := hcons.wire t ht
    obtain ⟨key, now, hkey, hephemeral, hstatic, htime⟩ := hcons.ciphers hm
    simp only [Msg1.fields, List.mem_cons, List.not_mem_nil, or_false] at hfield
    rcases hfield with rfl | rfl | rfl
    · obtain ⟨x, rfl⟩ := ha.named i key hkey
      rw [hephemeral]
      exact safe_publicKey x
    · rw [hstatic]
      exact .inr ⟨i, .inl ⟨m, hm, .inl hstatic.symm⟩⟩
    · rw [htime]
      exact .inr ⟨i, .inl ⟨m, hm, .inr htime.symm⟩⟩
  | accept e =>
    rw [hs] at hcons
    rcases hcons.wire t ht with ⟨key, hkey, rfl⟩ | ⟨m2, hm2, rfl⟩
    · obtain ⟨x, rfl⟩ := ha.named i key hkey
      exact safe_publicKey x
    · obtain ⟨m, o, y, t, -, -, -, -, -, -, -, hcipher, -⟩ := hcons.cipher hm2
      rw [hcipher]
      exact .inr ⟨i, .inr ⟨m2, hm2, hcipher.symm⟩⟩

theorem Attacked.issued_safe (hp : HonestParties own endpoints sessions)
    (ha : Attacked own endpoints sessions pool) (key ad plain : Term)
    (h : pool.state.Issued (.sealed key ad plain)) : Safe own pool.state.Issued plain := by
  obtain ⟨i, ⟨m, hm, hcipher⟩ | ⟨m2, hm2, hcipher⟩⟩ := h
  · have hcons := ha.sound.consistent i
    cases hs : sessions i with
    | dial localPriv remoteStatic =>
      rw [hs] at hcons
      obtain ⟨key', now, -, -, hstatic, htime⟩ := hcons.ciphers hm
      rcases hcipher with h | h
      · rw [hstatic] at h
        cases h
        obtain ⟨x, rfl, -⟩ := hp.dial i localPriv remoteStatic hs
        exact safe_publicKey x
      · rw [htime] at h
        cases h
        exact trivial
    | accept e =>
      rw [hs] at hcons
      cases hcons.silent.symm.trans hm
  · have hcons := ha.sound.consistent i
    cases hs : sessions i with
    | dial localPriv remoteStatic =>
      rw [hs] at hcons
      cases hcons.silent.symm.trans hm2
    | accept e =>
      rw [hs] at hcons
      obtain ⟨m, o, y, t, -, -, -, -, -, -, -, hempty, -⟩ := hcons.cipher hm2
      rw [hempty] at hcipher
      cases hcipher
      exact trivial

section

variable {w : World Term ι ε} {r : Record Term} {β : Type} {op : HandshakeOp Term β} {reply : β}

theorem Record.perform_ephemeral (hd : Deliverable own w op reply)
    (hr : ∀ key, r.ephemeral = some key → ∃ x, key = .name x) (key : Term)
    (h : (r.perform op reply).ephemeral = some key) : ∃ x, key = .name x := by
  cases op with
  | generatePrivateKey =>
    cases reply with
    | error err => cases h
    | ok key' =>
      cases h
      obtain ⟨x, hx, -⟩ := hd
      exact ⟨x, hx⟩
  | writeMsg1 m => cases reply <;> exact hr key h
  | writeMsg2 m => cases reply <;> exact hr key h
  | _ => exact hr key h

theorem Record.perform_read2 (hd : Deliverable own w op reply) {m : Msg2 Term}
    (h : (r.perform op reply).read2 = some m) :
    r.read2 = some m ∨ Knows own w.OnWire m.emptyCipher := by
  cases op with
  | readMsg2 =>
    cases reply with
    | error err => cases h
    | ok m' =>
      cases h
      exact .inr (hd m.emptyCipher (by simp [Msg2.fields]))
  | writeMsg1 m => cases reply <;> exact .inl h
  | writeMsg2 m => cases reply <;> exact .inl h
  | _ => exact .inl h

theorem Record.perform_keeps {session : Session Term ε}
    (hg : (spec symbolic endpoints session).good r (op : (handshakes Term).Op β) reply
      (r.perform op reply)) :
    (∀ m, r.wrote1 = some m → (r.perform op reply).wrote1 = some m) ∧
      ∀ m, r.sent2 = some m → (r.perform op reply).sent2 = some m := by
  obtain ⟨-, hg⟩ := hg
  cases op with
  | writeMsg1 m =>
    constructor
    · intro m' hm'
      cases hg.2.symm.trans hm'
    · intro m' hm'
      cases hg.1.symm.trans hm'
  | writeMsg2 m =>
    constructor
    · intro m' hm'
      cases reply <;> exact hm'
    · intro m' hm'
      cases hg.1.symm.trans hm'
  | _ => exact ⟨fun _ h => h, fun _ h => h⟩

end

variable [DecidableEq ι] [DecidableEq ε] {pool next : SessionPool Term ι ε}
  {label : SessionLabel Term ι ε}

theorem Sound.issued_mono (hs : Sound symbolic endpoints sessions pool)
    (hstep : Pool.Step noBodies (machine sessions) (fun _ _ => False) pool label next) (t : Term)
    (h : pool.state.Issued t) : next.state.Issued t := by
  cases hstep with
  | @act β j op rest reply ht _ =>
    obtain ⟨i, h⟩ := h
    refine ⟨i, ?_⟩
    simp only [machine_effect_records]
    by_cases hi : i = j
    · subst hi
      obtain ⟨hwrote, hsent⟩ := Record.perform_keeps (hs.good ht reply)
      rw [update_self]
      exact h.imp (fun ⟨m, hm, h⟩ => ⟨m, hwrote m hm, h⟩) fun ⟨m, hm, h⟩ => ⟨m, hsent m hm, h⟩
    · rwa [update_of_ne hi]
  | @enter _ _ proc => exact Empty.elim proc
  | env h => exact h.elim

theorem Attacked.step (hp : HonestParties own endpoints sessions) (hl : Attackable own label)
    (hstep : Pool.Step noBodies (machine sessions) (fun _ _ => False) pool label next)
    (ha : Attacked own endpoints sessions pool) : Attacked own endpoints sessions next := by
  have hmono := ha.sound.issued_mono hstep
  refine ⟨ha.sound.step hstep, fun i key hkey => ?_, fun i m hm => ?_⟩
  · cases hstep with
    | @act β j op rest reply _ _ =>
      simp only [machine_effect_records] at hkey
      by_cases hi : i = j
      · subst hi
        rw [update_self] at hkey
        exact Record.perform_ephemeral hl (ha.named i) key hkey
      · rw [update_of_ne hi] at hkey
        exact ha.named i key hkey
    | @enter _ _ proc => exact Empty.elim proc
    | env h => exact h.elim
  · refine Safe.mono hmono ?_
    cases hstep with
    | @act β j op rest reply _ _ =>
      simp only [machine_effect_records] at hm
      by_cases hi : i = j
      · subst hi
        rw [update_self] at hm
        rcases Record.perform_read2 hl hm with hread | hknows
        · exact ha.heard i m hread
        · exact .of_knows ha.wire_safe (ha.issued_safe hp) hknows
      · rw [update_of_ne hi] at hm
        exact ha.heard i m hm
    | @enter _ _ proc => exact Empty.elim proc
    | env h => exact h.elim

theorem Dialing.returned {localPriv remoteStatic : Term} {r : Record Term}
    (h : Dialing symbolic localPriv remoteStatic r) {result : HandshakeResult Term}
    (hres : r.result = some (.ok result)) :
    ∃ m1 m2 key plain, r.wrote1 = some m1 ∧ r.read2 = some m2 ∧
      let es := scalarMult key remoteStatic
      let ss := scalarMult localPriv remoteStatic
      let ee := scalarMult key m2.ephemeral
      let se := scalarMult localPriv m2.ephemeral
      let keys := symbolic.hmac.kdf2 (symbolic.chain [es, ss, ee, se]) symbolic.empty
      m1.staticCipher = .sealed (symbolic.messageKey [] es)
        (symbolic.transcript [remoteStatic, m1.ephemeral]) (symbolic.publicKey localPriv) ∧
      m2.emptyCipher = .sealed (symbolic.messageKey [es, ss, ee] se)
        (symbolic.transcript [remoteStatic, m1.ephemeral, m1.staticCipher, m1.timestampCipher,
          m2.ephemeral]) plain ∧
      result.sendKey = keys.1 ∧ result.recvKey = keys.2 := by
  obtain ⟨m1, hm1⟩ := isSome_iff_exists.mp (h.result result hres)
  obtain ⟨key, i, now, -, hi, hm, hfinish⟩ := h.wrote m1 hm1
  obtain ⟨-, -, rfl⟩ := (startInitiation_eq_ok symbolic).mp hi
  obtain ⟨m2, hm2, hfinish⟩ := hfinish result hres
  rw [symbolic.sealTimestamp_transcript, ← hm] at hfinish
  obtain ⟨-, -, hopen, rfl⟩ := (finishInitiation_eq_ok symbolic).mp hfinish
  obtain ⟨plain, hplain⟩ := isSome_iff_exists.mp hopen
  refine ⟨m1, m2, key, plain, hm1, hm2, ?_, Term.aeadOpen_eq_some.mp hplain, rfl, rfl⟩
  rw [hm]
  rfl

-- Under attack: the responder answered in the very same transcript.
theorem transcript_binding {labels : List (SessionLabel Term ι ε)}
    {last : SessionPool Term ι ε} (hp : HonestParties own endpoints sessions)
    (hr : Runs symbolic endpoints sessions labels last)
    (hl : ∀ label ∈ labels, Attackable own label) {i : ι} {localPriv : Term} {b : ℕ} (hb : ¬own b)
    (hi : sessions i = .dial localPriv (symbolic.publicKey (.name b)))
    {result : HandshakeResult Term} (hres : (last.state.records i).result = some (.ok result)) :
    ∃ m1 m2 j e, (last.state.records i).wrote1 = some m1 ∧
      (last.state.records i).read2 = some m2 ∧ sessions j = .accept e ∧
      (endpoints e).localPriv = .name b ∧ (last.state.records j).read1 = some m1 ∧
      (last.state.records j).sent2 = some m2 ∧
      Returns last j ⟨symbolic.publicKey localPriv, result.recvKey, result.sendKey⟩ := by
  have ha : Attacked own endpoints sessions last :=
    (hr.along (Attackable own) (fun _ => True) (Attacked own endpoints sessions) hl
      ⟨.launch, by simp [launch], by simp [launch]⟩
      fun _ _ _ hlabel hstep ha => ⟨ha.step hp hlabel hstep, trivial⟩).1
  obtain ⟨a, rfl, hna⟩ := hp.dial i localPriv _ hi
  have hdial := ha.sound.consistent i
  rw [hi] at hdial
  obtain ⟨m1, m2, key, plain, hm1, hm2, hstatic, hcipher, hsend, hrecv⟩ := hdial.returned hres
  have hheard := ha.heard i m2 hm2
  rw [hcipher] at hheard
  rcases hheard with ⟨hkey, -⟩ | hissued
  · -- the key would have to be known, and with it the secret of the two static keys
    exact (not_safe_shared (t := .generator) hna hb
      (safe_chain hkey.1.1 (scalarMult (.name a) (symbolic.publicKey (.name b))) (by simp))).elim
  rw [← hcipher] at hissued
  obtain ⟨j, ⟨m, hm, hsame⟩ | ⟨m2', hm2', hsame⟩⟩ := hissued
  · -- the ciphertexts of a first message are sealed under fewer secrets
    exfalso
    have hcons := ha.sound.consistent j
    cases hj : sessions j with
    | dial localPriv' remoteStatic' =>
      rw [hj] at hcons
      obtain ⟨key', now, -, -, hstatic', htime'⟩ := hcons.ciphers hm
      rcases hsame with hsame | hsame
      · rw [hcipher, hstatic'] at hsame
        simpa using congrArg List.length (symbolic_messageKey_inj (Term.sealed.inj hsame).1).1
      · rw [hcipher, htime'] at hsame
        simpa using congrArg List.length (symbolic_messageKey_inj (Term.sealed.inj hsame).1).1
    | accept e =>
      rw [hj] at hcons
      cases hcons.silent.symm.trans hm
  · have hcons := ha.sound.consistent j
    cases hj : sessions j with
    | dial localPriv' remoteStatic' =>
      rw [hj] at hcons
      cases hcons.silent.symm.trans hm2'
    | accept e =>
      rw [hj] at hcons
      obtain ⟨m, o, y, t, hm, ho, hy, hseal, -, -, hopened, hcipher', hck⟩ := hcons.cipher hm2'
      obtain ⟨b', hb', -⟩ := hp.endpoint e
      have hsealed := Term.sealed.inj (hcipher.symm.trans (hsame.trans hcipher'))
      obtain ⟨hsecrets, hse⟩ := symbolic_messageKey_inj hsealed.1
      have hdata := foldl_inj (fun _ _ _ _ heq => by simpa [symbolic] using heq)
        (fun _ _ heq => by simp [symbolic] at heq) hsealed.2.1
      simp only [List.cons.injEq, and_true] at hsecrets hdata
      obtain ⟨hes, hss, hee⟩ := hsecrets
      obtain ⟨hpub, he, hs, ht, hre⟩ := hdata
      obtain rfl : m = m1 := Msg1.ext he.symm hs.symm ht.symm
      obtain rfl : m2' = m2 := Msg2.ext hre.symm hsame.symm
      obtain rfl : b' = b := by
        simpa [symbolic, scalarMult, Term.raise_generator] using
          (congrArg symbolic.publicKey hb').symm.trans hpub.symm
      have hremote : o.remoteStatic = symbolic.publicKey (.name a) :=
        (Term.sealed.inj (hopened.symm.trans hstatic)).2.2
      refine ⟨m, m2', j, e, hm1, hm2, hj, hb', hm, hm2', ?_⟩
      have hreturns := ha.sound.returns hj hm ho hy hseal hm2'
      rw [respond, hck, ← hes, ← hss, ← hee, ← hse, hremote] at hreturns
      rw [hsend, hrecv]
      exact hreturns

end

def relayEndpoint (_ : Unit) : Endpoint Term :=
  ⟨.name 2, fun _ => true⟩

def relaySessions : Bool → Session Term Unit
  | false => .dial (.name 1) (symbolic.publicKey (.name 2))
  | true => .accept ()

def relayReply (i : Bool) (w : World Term Bool Unit) : {β : Type} → HandshakeOp Term β → Option β
  | _, .generatePrivateKey => some (.ok (.name (cond i 4 3)))
  | _, .now => some 5
  | _, .writeMsg1 _ => some (.ok ())
  | _, .readMsg2 => (w.records true).sent2.map .ok
  | _, .readMsg1 => (w.records false).wrote1.map .ok
  | _, .checkReplay remote ts => some (checkReplay (w.lastSeen ()) remote ts).1
  | _, .writeMsg2 _ => some (.ok ())
  | _, .close => some ()
  | _, .returned _ => some ()

def relayed (w : World Term Bool Unit) : {β : Type} → HandshakeOp Term β → β → Bool
  | _, .generatePrivateKey, .ok key => key = .name 3 ∨ key = .name 4
  | _, .readMsg1, .ok m => ∀ t ∈ m.fields, t ∈ (w.records false).wire
  | _, .readMsg2, .ok m => ∀ t ∈ m.fields, t ∈ (w.records true).wire
  | _, _, _ => true

def relayedLabel : SessionLabel Term Bool Unit → Bool
  | .act _ w op reply _ => relayed w op reply
  | _ => true

theorem attackable_of_relayed {label : SessionLabel Term Bool Unit}
    (h : relayedLabel label = true) : Attackable (100 ≤ ·) label := by
  cases label with
  | @act β i w op reply w' =>
    cases op with
    | generatePrivateKey =>
      cases reply with
      | error err => trivial
      | ok key =>
        rcases of_decide_eq_true h with rfl | rfl
        · exact ⟨3, rfl, by decide⟩
        · exact ⟨4, rfl, by decide⟩
    | readMsg1 =>
      cases reply with
      | error err => trivial
      | ok m => exact fun t ht => .seen ⟨false, of_decide_eq_true h t ht⟩
    | readMsg2 =>
      cases reply with
      | error err => trivial
      | ok m => exact fun t ht => .seen ⟨true, of_decide_eq_true h t ht⟩
    | _ => trivial
  | _ => trivial

theorem relay_honest : HonestParties (100 ≤ ·) relayEndpoint relaySessions where
  dial i localPriv remoteStatic h := by
    cases i with
    | false =>
      cases h
      exact ⟨1, rfl, by decide⟩
    | true => cases h
  endpoint _ := ⟨2, rfl, by decide⟩

theorem transcript_binding_relay :
    ∃ labels last result, Runs symbolic relayEndpoint relaySessions labels last ∧
      (last.state.records false).result = some (.ok result) ∧
      ∃ m1 m2 j e, (last.state.records false).wrote1 = some m1 ∧
        (last.state.records false).read2 = some m2 ∧ relaySessions j = .accept e ∧
        (relayEndpoint e).localPriv = .name 2 ∧ (last.state.records j).read1 = some m1 ∧
        (last.state.records j).sent2 = some m2 ∧
        Returns last j ⟨symbolic.publicKey (.name 1), result.recvKey, result.sendKey⟩ := by
  have hrun : (Pool.replay noBodies (machine relaySessions) (fun i w {_} op => relayReply i w op)
      relayedLabel
      [false, false, false, true, true, true, true, false, false]
      (launch symbolic relayEndpoint relaySessions)).any
      (fun last => (last.state.records false).result.any Except.toBool) = true := by
    decide +kernel
  obtain ⟨labels, last, hr, hl, hp⟩ := Pool.reaches_of_replay (fun _ _ => False) _ hrun
  obtain ⟨outcome, hout, hok⟩ := (any_eq_true _ _).mp hp
  cases outcome with
  | error err => cases hok
  | ok result =>
    exact ⟨labels, last, result, hr, hout, transcript_binding relay_honest hr
      (fun label hlabel => attackable_of_relayed (hl label hlabel)) (by decide) rfl hout⟩

end StarlingWg.Control
