import Mathlib.Data.List.Pairwise
import StarlingWg.Control.Handshake
import StarlingWg.Interaction.Pool

namespace StarlingWg.Control

open Wire List Function Option
open Interaction

section

def Msg1.fields {B : Type} (m : Msg1 B) : List B :=
  [m.ephemeral, m.staticCipher, m.timestampCipher]

def Msg2.fields {B : Type} (m : Msg2 B) : List B :=
  [m.ephemeral, m.emptyCipher]

-- What one session has done so far. `wire` are the fields of its messages
-- that have left it.
structure Record (B : Type) where
  ephemeral : Option B := none
  wrote1 : Option (Msg1 B) := none
  read2 : Option (Msg2 B) := none
  read1 : Option (Msg1 B) := none
  checked : Option (B × Nanos × Bool) := none
  sent2 : Option (Msg2 B) := none
  wire : List B := []
  result : Option (Outcome B) := none

-- A message whose write fails has not left with its last field.
def Record.perform {B : Type} (r : Record B) {β : Type} : HandshakeOp B β → β → Record B
  | .generatePrivateKey, reply => { r with ephemeral := reply.toOption }
  | .now, _ => r
  | .writeMsg1 m, .ok _ => { r with wrote1 := some m, wire := m.fields }
  | .writeMsg1 m, .error _ => { r with wrote1 := some m, wire := m.fields.dropLast }
  | .readMsg2, reply => { r with read2 := reply.toOption }
  | .readMsg1, reply => { r with read1 := reply.toOption }
  | .checkReplay remote ts, reply => { r with checked := some (remote, ts, reply) }
  | .writeMsg2 m, .ok _ => { r with sent2 := some m, wire := m.fields }
  | .writeMsg2 m, .error _ => { r with wire := m.fields.dropLast }
  | .close, _ => r
  | .returned outcome, _ => { r with result := some outcome }

def HandshakeOp.isCheck {B β : Type} : HandshakeOp B β → Bool
  | .checkReplay _ _ => true
  | _ => false

structure Endpoint (B : Type) where
  localPriv : B
  isKnown : B → Bool

inductive Session (B ε : Type)
  | dial (localPriv remoteStatic : B)
  | accept (endpoint : ε)

structure Acceptance (B ι : Type) where
  session : ι
  remote : B
  ts : Nanos
  deriving DecidableEq

-- The sessions, and of each endpoint its map and what checkReplay has
-- returned true for, in that order.
structure World (B ι ε : Type) where
  records : ι → Record B
  lastSeen : ε → B → Option Nanos
  accepted : ε → List (Acceptance B ι)

abbrev SessionPool (B ι ε : Type) := Pool (handshakes B) ι (World B ι ε)

abbrev SessionLabel (B ι ε : Type) := Label (handshakes B) ι (World B ι ε)

variable {B ι ε : Type} [DecidableEq B] [DecidableEq ι] [DecidableEq ε]

-- Endpoint.checkReplay, whose lock is held all the time.
def checkReplay (lastSeen : B → Option Nanos) (remote : B) (ts : Nanos) :
    Bool × (B → Option Nanos) :=
  match lastSeen remote with
  | some last =>
    if !ts.after last then (false, lastSeen)
    else (true, update lastSeen remote (some ts))
  | none => (true, update lastSeen remote (some ts))

def World.record (w : World B ι ε) (i : ι) {β : Type} (op : HandshakeOp B β) (reply : β) :
    World B ι ε :=
  { w with records := update w.records i ((w.records i).perform op reply) }

def World.check (w : World B ι ε) (e : ε) (i : ι) (remote : B) (ts : Nanos) (reply : Bool) :
    World B ι ε :=
  { w with
    lastSeen := update w.lastSeen e (checkReplay (w.lastSeen e) remote ts).2
    accepted :=
      if reply then update w.accepted e (w.accepted e ++ [⟨i, remote, ts⟩])
      else w.accepted }

-- Only an accepting session calls checkReplay; everything else it does is
-- between itself and its connection.
def machine (sessions : ι → Session B ε) (i : ι) : Machine (handshakes B) (World B ι ε) where
  admits w _ op reply :=
    match sessions i, (op : HandshakeOp B _), reply with
    | .accept e, .checkReplay remote ts, reply =>
      reply == (checkReplay (w.lastSeen e) remote ts).1
    | .dial _ _, .checkReplay _ _, _ => false
    | _, _, _ => true
  effect w _ op reply :=
    match sessions i, (op : HandshakeOp B _), reply with
    | .accept e, .checkReplay remote ts, reply =>
      (w.check e i remote ts reply).record i (.checkReplay remote ts) reply
    | _, op, reply => w.record i op reply

variable (c : Suite B)

def Session.program (endpoints : ε → Endpoint B) : Session B ε → Program (handshakes B) Unit
  | .dial localPriv remoteStatic => handshakeOverConn c localPriv remoteStatic
  | .accept e => Control.accept c (endpoints e).localPriv (endpoints e).isKnown

def launch (endpoints : ε → Endpoint B) (sessions : ι → Session B ε) :
    SessionPool B ι ε where
  threads i := (sessions i).program c endpoints
  state := ⟨fun _ => {}, fun _ _ => none, fun _ => []⟩

def noBodies : Bodies (handshakes B) := fun proc => nomatch proc

abbrev Runs (endpoints : ε → Endpoint B) (sessions : ι → Session B ε) :
    List (SessionLabel B ι ε) → SessionPool B ι ε → Prop :=
  Pool.Steps noBodies (machine sessions) (fun _ _ => False) (launch c endpoints sessions)

end

section

variable {B ι ε : Type} [DecidableEq B]

def alone (B : Type) : Machine (handshakes B) (Record B) where
  admits _ _ _ _ := true
  effect r _ op reply := r.perform (op : HandshakeOp B _) reply

theorem machine_effect_records [DecidableEq ι] [DecidableEq ε] (sessions : ι → Session B ε) (i : ι)
    (w : World B ι ε) {β : Type} (op : (handshakes B).Op β) (reply : β) :
    ((machine sessions i).effect w op reply).records =
      update w.records i ((w.records i).perform (op : HandshakeOp B β) reply) := by
  simp only [machine]
  split
  · rfl
  · rfl

theorem framed [DecidableEq ι] [DecidableEq ε] (sessions : ι → Session B ε) :
    Framed (machine sessions) (fun _ _ => False) (fun i w => w.records i) (fun _ => alone B) where
  admits _ _ _ _ _ _ := rfl
  effect i w _ op reply _ := by
    rw [machine_effect_records, update_self]
    rfl
  other i w _ op reply _ j hj := by
    rw [machine_effect_records, update_of_ne hj]
  quiet _ _ h := h.elim

variable (c : Suite B)

-- The errors before checkReplay: the message could not be read, does not
-- authenticate, or comes from a key that is not known.
def HandshakeError.early : HandshakeError B → Bool
  | .readMsg1 _ => true
  | .dh .es => true
  | .staticDecrypt => true
  | .unknownPeer => true
  | .dh .ss => true
  | .timestampDecrypt => true
  | _ => false

structure Dialing (localPriv remoteStatic : B) (r : Record B) : Prop where
  wrote : ∀ m, r.wrote1 = some m → ∃ x i now, r.ephemeral = some x ∧
    startInitiation c localPriv (c.publicKey localPriv) remoteStatic x = .ok i ∧
    m = (i.sealTimestamp c now).1 ∧
    ∀ hr, r.result = some (.ok hr) → ∃ m2, r.read2 = some m2 ∧
      finishInitiation c localPriv remoteStatic i.ePriv (i.sealTimestamp c now).2 m2 = .ok hr
  wire : ∀ b ∈ r.wire, ∃ m, r.wrote1 = some m ∧ b ∈ m.fields
  result : ∀ hr, r.result = some (.ok hr) → r.wrote1.isSome
  silent : r.sent2 = none

structure Accepting (endpoint : Endpoint B) (r : Record B) : Prop where
  checked : ∀ remote ts reply, r.checked = some (remote, ts, reply) → ∃ m o, r.read1 = some m ∧
    openMsg1 c endpoint.localPriv endpoint.isKnown m = .ok o ∧ o.remoteStatic = remote ∧ o.ts = ts
  sent : ∀ m2, r.sent2 = some m2 → ∃ m o y t, r.read1 = some m ∧
    openMsg1 c endpoint.localPriv endpoint.isKnown m = .ok o ∧
    r.checked = some (o.remoteStatic, o.ts, true) ∧ r.ephemeral = some y ∧
    sealMsg2 c o y = .ok (m2, t) ∧ ∀ outcome, r.result = some outcome → outcome = .ok (respond c o t)
  wire : ∀ b ∈ r.wire, (∃ y, r.ephemeral = some y ∧ b = c.publicKey y) ∨
    ∃ m2, r.sent2 = some m2 ∧ b = m2.emptyCipher
  result : ∀ hr, r.result = some (.ok hr) → r.sent2.isSome
  early : ∀ err, r.result = some (.error err) → err.early = true → r.checked = none
  silent : r.wrote1 = none

def Session.Consistent (endpoints : ε → Endpoint B) : Session B ε → Record B → Prop
  | .dial localPriv remoteStatic, r => Dialing c localPriv remoteStatic r
  | .accept e, r => Accepting c (endpoints e) r

-- A message is written once, and after the second one is out a responder
-- only returns.
def spec (endpoints : ε → Endpoint B) (session : Session B ε) : Spec (handshakes B) (Record B) where
  good r _ op _ r' :=
    session.Consistent c endpoints r' ∧
      match (op : HandshakeOp B _) with
      | .returned _ => True
      | .writeMsg1 _ => r.sent2 = none ∧ r.wrote1 = none
      | _ => r.sent2 = none ∧ r.result = none
  pre _ _ := False
  post _ _ _ _ := True

abbrev Ends (endpoints : ε → Endpoint B) (session : Session B ε) (program : Program (handshakes B) Unit)
    (r : Record B) : Prop :=
  wp (alone B) (spec c endpoints session) program (fun _ r => r.result.isSome) r

section

variable {endpoints : ε → Endpoint B} {session : Session B ε} {r : Record B}

theorem wp_perform {β : Type} (op : HandshakeOp B β) (Q : β → Record B → Prop) :
    wp (alone B) (spec c endpoints session) (perform op) Q r =
      ∀ reply, (spec c endpoints session).good r (op : (handshakes B).Op β) reply
        (r.perform op reply) ∧ Q reply (r.perform op reply) := by
  show (∀ reply, true = true → _) = _
  simp only [forall_const]
  rfl

theorem refuse_meets {err : HandshakeError B} (hsent : r.sent2 = none) (hresult : r.result = none)
    (hr : session.Consistent c endpoints r)
    (hr' : session.Consistent c endpoints { r with result := some (.error err) }) :
    Ends c endpoints session (refuse err) r := by
  simp only [refuse, wp_bind, wp_perform]
  intro _
  refine ⟨⟨hr, hsent, hresult⟩, fun _ => ⟨⟨hr', trivial⟩, rfl⟩⟩

end

section

variable {localPriv remoteStatic : B} {r : Record B}

theorem Dialing.of_unwritten (hw : r.wrote1 = none) (hwire : r.wire = []) (hs : r.sent2 = none)
    (hres : ∀ hr, r.result ≠ some (.ok hr)) : Dialing c localPriv remoteStatic r where
  wrote m hm := by simp [hw] at hm
  wire b hb := by simp [hwire] at hb
  result hr h := absurd h (hres hr)
  silent := hs

theorem Dialing.of_written {x : B} {i : Initiation B} {now : Nanos} (hx : r.ephemeral = some x)
    (hi : startInitiation c localPriv (c.publicKey localPriv) remoteStatic x = .ok i)
    (hw : r.wrote1 = some (i.sealTimestamp c now).1)
    (hwire : r.wire ⊆ (i.sealTimestamp c now).1.fields) (hs : r.sent2 = none)
    (hres : ∀ hr, r.result = some (.ok hr) → ∃ m2, r.read2 = some m2 ∧
      finishInitiation c localPriv remoteStatic i.ePriv (i.sealTimestamp c now).2 m2 = .ok hr) :
    Dialing c localPriv remoteStatic r where
  wrote m hm := ⟨x, i, now, hx, hi, Option.some.inj (hm.symm.trans hw), hres⟩
  wire b hb := ⟨_, hw, hwire hb⟩
  result _ _ := by rw [hw]; rfl
  silent := hs

end

theorem dial_meets (endpoints : ε → Endpoint B) (localPriv remoteStatic : B) :
    Ends c endpoints (.dial localPriv remoteStatic) (handshakeOverConn c localPriv remoteStatic) {} := by
  -- without a message on the wire, every outcome is an error
  have hquiet : ∀ e : Option B, Dialing c localPriv remoteStatic { ephemeral := e } := fun _ =>
    .of_unwritten c rfl rfl rfl (by simp)
  have hrefuse : ∀ (e : Option B) (err : HandshakeError B),
      Ends c endpoints (.dial localPriv remoteStatic) (refuse err) { ephemeral := e } := fun e _ =>
    refuse_meets c rfl rfl (hquiet e) (.of_unwritten c rfl rfl rfl (by simp))
  simp only [handshakeOverConn, initiatorHandshake, wp_bind, wp_perform]
  rintro (err | x)
  · exact ⟨⟨hquiet none, rfl, rfl⟩, hrefuse none _⟩
  refine ⟨⟨hquiet (some x), rfl, rfl⟩, ?_⟩
  cases hi : startInitiation c localPriv (c.publicKey localPriv) remoteStatic x with
  | error err =>
    simp only [hi]
    exact hrefuse (some x) err
  | ok i =>
    simp only [hi, wp_bind, wp_perform]
    intro now
    refine ⟨⟨hquiet (some x), rfl, rfl⟩, ?_⟩
    split
    · exact hrefuse (some x) _
    -- from here on the first message is on the wire, perhaps without its last field
    have hout : ∀ r : Record B, r.ephemeral = some x → r.wrote1 = some (i.sealTimestamp c now).1 →
        r.wire ⊆ (i.sealTimestamp c now).1.fields → r.sent2 = none → (∀ hr, r.result ≠ some (.ok hr)) →
        Dialing c localPriv remoteStatic r := fun r hx hw hwire hs hres =>
      .of_written c hx hi hw hwire hs fun hr h => absurd h (hres hr)
    simp only [wp_bind, wp_perform]
    rintro (err | _)
    · exact ⟨⟨hout _ rfl rfl (dropLast_subset _) rfl (by simp [Record.perform]), rfl, rfl⟩,
        refuse_meets c rfl rfl (hout _ rfl rfl (dropLast_subset _) rfl (by simp [Record.perform]))
          (hout _ rfl rfl (dropLast_subset _) rfl (by simp))⟩
    refine ⟨⟨hout _ rfl rfl (List.Subset.refl _) rfl (by simp [Record.perform]), rfl, rfl⟩, ?_⟩
    simp only [wp_bind, wp_perform]
    intro reply
    refine ⟨⟨hout _ rfl rfl (List.Subset.refl _) rfl (by simp [Record.perform]), rfl, rfl⟩, ?_⟩
    have hfail : ∀ err, Ends c endpoints (.dial localPriv remoteStatic) (refuse err)
        ⟨some x, some (i.sealTimestamp c now).1, reply.toOption, none, none, none,
          (i.sealTimestamp c now).1.fields, none⟩ := fun err =>
      refuse_meets c rfl rfl (hout _ rfl rfl (List.Subset.refl _) rfl (by simp))
        (hout _ rfl rfl (List.Subset.refl _) rfl (by simp))
    rcases reply with err | m2
    · exact hfail _
    simp only [wp_pure]
    cases hf : finishInitiation c localPriv remoteStatic i.ePriv (i.sealTimestamp c now).2 m2 with
    | error err => exact hfail err
    | ok hr =>
      simp only
      split
      · exact hfail _
      · rw [wp_perform]
        intro _
        refine ⟨⟨.of_written c rfl hi rfl (List.Subset.refl _) rfl fun hr' h => ⟨m2, rfl, ?_⟩,
          trivial⟩, rfl⟩
        have hsame : hr = hr' := by simpa [Record.perform] using h
        rw [hf, hsame]

section

variable {endpoint : Endpoint B} {r : Record B} {m : Msg1 B} {o : Opened B} {y : B} {m2 : Msg2 B}
  {t : Transcript B}

theorem sealMsg2_error_late {err : HandshakeError B} (h : sealMsg2 c o y = .error err) :
    err.early = false := by
  unfold sealMsg2 at h
  rcases c.sharedSecret_bind_error h with rfl | h
  · rfl
  rcases c.sharedSecret_bind_error h with rfl | h
  · rfl
  cases h

theorem sealMsg2_ephemeral (h : sealMsg2 c o y = .ok (m2, t)) : m2.ephemeral = c.publicKey y := by
  obtain ⟨-, h⟩ := (c.sharedSecret_bind _ _ _ _ _).mp h
  obtain ⟨-, h⟩ := (c.sharedSecret_bind _ _ _ _ _).mp h
  cases h
  rfl

theorem Accepting.of_unchecked (hc : r.checked = none) (hs : r.sent2 = none) (hw : r.wire = [])
    (hw1 : r.wrote1 = none) (hres : ∀ hr, r.result ≠ some (.ok hr)) : Accepting c endpoint r where
  checked _ _ _ h := by simp [hc] at h
  sent _ h := by simp [hs] at h
  wire _ h := by simp [hw] at h
  result hr h := absurd h (hres hr)
  early _ _ _ := hc
  silent := hw1

theorem Accepting.of_checked {reply : Bool} (hm : r.read1 = some m)
    (ho : openMsg1 c endpoint.localPriv endpoint.isKnown m = .ok o)
    (hc : r.checked = some (o.remoteStatic, o.ts, reply)) (hs : r.sent2 = none)
    (hw : ∀ b ∈ r.wire, ∃ y, r.ephemeral = some y ∧ b = c.publicKey y) (hw1 : r.wrote1 = none)
    (hres : ∀ outcome, r.result = some outcome → ∃ err, outcome = .error err ∧ err.early = false) :
    Accepting c endpoint r where
  checked remote ts reply' h := by
    rw [hc] at h
    cases h
    exact ⟨m, o, hm, ho, rfl, rfl⟩
  sent _ h := by simp [hs] at h
  wire b hb := .inl (hw b hb)
  result hr h := by
    obtain ⟨err, herr, -⟩ := hres _ h
    cases herr
  early err h hearly := by
    obtain ⟨err', herr, hlate⟩ := hres _ h
    cases herr
    simp [hlate] at hearly
  silent := hw1

theorem Accepting.of_sent (hm : r.read1 = some m)
    (ho : openMsg1 c endpoint.localPriv endpoint.isKnown m = .ok o)
    (hc : r.checked = some (o.remoteStatic, o.ts, true)) (hy : r.ephemeral = some y)
    (hseal : sealMsg2 c o y = .ok (m2, t)) (hs : r.sent2 = some m2) (hw : r.wire = m2.fields)
    (hw1 : r.wrote1 = none)
    (hres : ∀ outcome, r.result = some outcome → outcome = .ok (respond c o t)) :
    Accepting c endpoint r where
  checked remote ts reply h := by
    rw [hc] at h
    cases h
    exact ⟨m, o, hm, ho, rfl, rfl⟩
  sent m2' h := by
    cases hs.symm.trans h
    exact ⟨m, o, y, t, hm, ho, hc, hy, hseal, hres⟩
  wire b hb := by
    rw [hw, Msg2.fields, mem_pair, sealMsg2_ephemeral c hseal] at hb
    exact hb.imp (fun h => ⟨y, hy, h⟩) fun h => ⟨m2, hs, h⟩
  result _ _ := by rw [hs]; rfl
  early err h _ := by cases hres _ h
  silent := hw1

end

theorem accept_meets (endpoints : ε → Endpoint B) (e : ε) :
    Ends c endpoints (.accept e) (accept c (endpoints e).localPriv (endpoints e).isKnown) {} := by
  simp only [accept, responderHandshake, wp_bind, wp_perform]
  intro reply
  have hunchecked : ∀ result : Option (Outcome B), (∀ hr, result ≠ some (.ok hr)) →
      Accepting c (endpoints e) { read1 := reply.toOption, result := result } := fun _ hres =>
    .of_unchecked c rfl rfl rfl rfl hres
  have hearly : ∀ err, Ends c endpoints (.accept e) (refuse err) { read1 := reply.toOption } := fun _ =>
    refuse_meets c rfl rfl (hunchecked none (by simp)) (hunchecked _ (by simp))
  refine ⟨⟨hunchecked none (by simp), rfl, rfl⟩, ?_⟩
  rcases reply with err | m
  · exact hearly _
  cases ho : openMsg1 c (endpoints e).localPriv (endpoints e).isKnown m with
  | error err =>
    simp only [ho]
    exact hearly err
  | ok o =>
    simp only [ho, wp_bind, wp_perform]
    intro fresh
    -- until the second message is out, the last thing that may leave is the ephemeral key
    have hlate : ∀ (y : Option B) (wire : List B) (result : Option (Outcome B)),
        (∀ b ∈ wire, ∃ x, y = some x ∧ b = c.publicKey x) →
        (∀ outcome, result = some outcome → ∃ err, outcome = .error err ∧ err.early = false) →
        Accepting c (endpoints e) ⟨y, none, none, some m, some (o.remoteStatic, o.ts, fresh), none,
          wire, result⟩ := fun _ _ _ hwire hres => .of_checked c rfl ho rfl rfl hwire rfl hres
    have hrefuse : ∀ (y : Option B) (wire : List B) (err : HandshakeError B),
        (∀ b ∈ wire, ∃ x, y = some x ∧ b = c.publicKey x) → err.early = false →
        Ends c endpoints (.accept e) (refuse err)
          ⟨y, none, none, some m, some (o.remoteStatic, o.ts, fresh), none, wire, none⟩ :=
      fun y wire err hwire herr => refuse_meets c rfl rfl (hlate y wire none hwire (by simp))
        (hlate y wire _ hwire fun _ h => ⟨err, (Option.some.inj h).symm, herr⟩)
    refine ⟨⟨hlate none [] none (by simp) (by simp), rfl, rfl⟩, ?_⟩
    cases fresh with
    | false => exact hrefuse none [] _ (by simp) rfl
    | true =>
      simp only [Bool.not_true, Bool.false_eq_true, if_false, wp_bind, wp_perform]
      rintro (err | y)
      · exact ⟨⟨hlate none [] none (by simp) (by simp), rfl, rfl⟩, hrefuse none [] _ (by simp) rfl⟩
      refine ⟨⟨hlate (some y) [] none (by simp) (by simp), rfl, rfl⟩, ?_⟩
      cases hseal : sealMsg2 c o y with
      | error err =>
        simp only [hseal]
        exact hrefuse (some y) [] err (by simp) (sealMsg2_error_late c hseal)
      | ok sent =>
        obtain ⟨m2, t⟩ := sent
        simp only [hseal, wp_bind, wp_perform]
        rintro (err | _)
        · have hkey : ∀ b ∈ m2.fields.dropLast, ∃ x, some y = some x ∧ b = c.publicKey x := by
            simp [Msg2.fields, sealMsg2_ephemeral c hseal]
          exact ⟨⟨hlate (some y) _ none hkey (by simp), rfl, rfl⟩, hrefuse (some y) _ _ hkey rfl⟩
        · refine ⟨⟨.of_sent c rfl ho rfl rfl hseal rfl rfl rfl (by simp [Record.perform]), rfl,
            rfl⟩, ?_⟩
          simp only [wp_pure, wp_perform]
          intro _
          exact ⟨⟨.of_sent c rfl ho rfl rfl hseal rfl rfl rfl (by simp [Record.perform]), trivial⟩,
            rfl⟩

end

section

variable {B ι ε : Type} [DecidableEq B] {c : Suite B} {endpoints : ε → Endpoint B}
  {sessions : ι → Session B ε}

-- What holds between any two steps: every session will end as it should, and
-- its record fits what it has done.
structure Sound (c : Suite B) (endpoints : ε → Endpoint B) (sessions : ι → Session B ε)
    (pool : SessionPool B ι ε) : Prop where
  meets : pool.Meets (fun i w => w.records i) (fun _ => alone B)
    (fun i => spec c endpoints (sessions i)) (fun _ r => r.result.isSome)
  consistent : ∀ i, (sessions i).Consistent c endpoints (pool.state.records i)

variable {pool : SessionPool B ι ε} {i : ι} {β : Type} {m2 : Msg2 B} {y : B}
  {t : Transcript B}

theorem Sound.good (hs : Sound c endpoints sessions pool) {op : (handshakes B).Op β}
    {next : β → Program (handshakes B) Unit} (ht : pool.threads i = .perform op next) (reply : β) :
    (spec c endpoints (sessions i)).good (pool.state.records i) op reply
      ((pool.state.records i).perform op reply) := by
  have hmeets := hs.meets i
  rw [ht] at hmeets
  exact (hmeets reply rfl).1

def Returns (pool : SessionPool B ι ε) (i : ι) (result : HandshakeResult B) :
    Prop :=
  (∃ next, pool.threads i = .perform (HandshakeOp.returned (.ok result)) next) ∨
    (pool.state.records i).result = some (.ok result)

omit [DecidableEq B] in
theorem HandshakeOp.nonempty (op : HandshakeOp B β) : Nonempty β := by
  cases op with
  | generatePrivateKey => exact ⟨.error ""⟩
  | now => exact ⟨0⟩
  | writeMsg1 m => exact ⟨.ok ()⟩
  | readMsg2 => exact ⟨.error .eof⟩
  | readMsg1 => exact ⟨.error .eof⟩
  | checkReplay remote ts => exact ⟨true⟩
  | writeMsg2 m => exact ⟨.ok ()⟩
  | close => exact ⟨()⟩
  | returned result => exact ⟨()⟩

theorem Accepting.outcome_eq {endpoint : Endpoint B} {r : Record B} (h : Accepting c endpoint r)
    {m : Msg1 B} {o : Opened B} {outcome : Outcome B} (hm : r.read1 = some m)
    (ho : openMsg1 c endpoint.localPriv endpoint.isKnown m = .ok o) (hy : r.ephemeral = some y)
    (hseal : sealMsg2 c o y = .ok (m2, t)) (hm2 : r.sent2 = some m2)
    (hres : r.result = some outcome) : outcome = .ok (respond c o t) := by
  obtain ⟨m', o', y', t', hm', ho', -, hy', hseal', hres'⟩ := h.sent m2 hm2
  cases hm.symm.trans hm'
  cases ho.symm.trans ho'
  cases hy.symm.trans hy'
  cases hseal.symm.trans hseal'
  exact hres' outcome hres

theorem Sound.returns (hs : Sound c endpoints sessions pool) {e : ε} (hi : sessions i = .accept e)
    {m : Msg1 B} {o : Opened B} (hm : (pool.state.records i).read1 = some m)
    (ho : openMsg1 c (endpoints e).localPriv (endpoints e).isKnown m = .ok o)
    (hy : (pool.state.records i).ephemeral = some y) (hseal : sealMsg2 c o y = .ok (m2, t))
    (hm2 : (pool.state.records i).sent2 = some m2) : Returns pool i (respond c o t) := by
  have hcons := hs.consistent i
  rw [hi] at hcons
  cases hres : (pool.state.records i).result with
  | some outcome => exact .inr (hcons.outcome_eq hm ho hy hseal hm2 hres ▸ hres)
  | none =>
    left
    cases ht : pool.threads i with
    | done value =>
      have hdone := hs.meets i
      rw [ht] at hdone
      simp [wp, hres] at hdone
    | @perform β op next =>
      obtain ⟨reply⟩ := HandshakeOp.nonempty op
      have hgood := hs.good ht reply
      rw [hi] at hgood
      cases op with
      | returned outcome =>
        have hout := hgood.1.outcome_eq hm ho hy hseal hm2 rfl
        exact ⟨next, by rw [hout]⟩
      | writeMsg1 m' => cases hgood.2.1.symm.trans hm2
      | _ => cases hgood.2.1.symm.trans hm2
    | invoke proc next => exact Empty.elim proc

theorem Session.meets (session : Session B ε) :
    Ends c endpoints session (session.program c endpoints) {} := by
  cases session with
  | dial localPriv remoteStatic => exact dial_meets c endpoints localPriv remoteStatic
  | accept e => exact accept_meets c endpoints e

theorem Session.consistent_empty (session : Session B ε) : session.Consistent c endpoints {} := by
  cases session with
  | dial localPriv remoteStatic => exact Dialing.of_unwritten c rfl rfl rfl (by simp)
  | accept e => exact Accepting.of_unchecked c rfl rfl rfl rfl (by simp)

theorem Sound.launch : Sound c endpoints sessions (launch c endpoints sessions) where
  meets i := (sessions i).meets
  consistent i := (sessions i).consistent_empty

theorem noBodies_verified (session : Session B ε) :
    Verified noBodies (alone B) (spec c endpoints session) := fun _ _ h => h.elim

variable [DecidableEq ι] [DecidableEq ε]

theorem Sound.step {next : SessionPool B ι ε}
    {label : SessionLabel B ι ε} (hs : Sound c endpoints sessions pool)
    (hstep : Pool.Step noBodies (machine sessions) (fun _ _ => False) pool label next) :
    Sound c endpoints sessions next := by
  obtain ⟨hmeets, hok⟩ := Pool.Meets.step (framed sessions)
    (fun i => noBodies_verified (sessions i)) hstep hs.meets
  refine ⟨hmeets, fun i => ?_⟩
  cases hstep with
  | @act β j op rest reply _ _ =>
    by_cases hi : i = j
    · subst hi
      exact hok.1
    · rw [machine_effect_records, update_of_ne hi]
      exact hs.consistent i
  | @enter _ _ proc => exact Empty.elim proc
  | env h => exact h.elim

end

section

variable {B ι ε : Type} [DecidableEq B] {lastSeen : B → Option Nanos} {remote : B} {ts : Nanos}
  {i : ι} {β : Type}

theorem checkReplay_true (h : (checkReplay lastSeen remote ts).1 = true) :
    (checkReplay lastSeen remote ts).2 = update lastSeen remote (some ts) ∧
      ∀ last, lastSeen remote = some last → last.toInt < ts.toInt := by
  unfold checkReplay at h ⊢
  cases hl : lastSeen remote with
  | none => simp
  | some last =>
    by_cases ha : ts.after last = true
    · have hlt : last.toInt < ts.toInt := of_decide_eq_true ha
      simpa [ha] using hlt
    · simp [hl, ha] at h

theorem checkReplay_false (h : (checkReplay lastSeen remote ts).1 = false) :
    (checkReplay lastSeen remote ts).2 = lastSeen := by
  unfold checkReplay at h ⊢
  cases hl : lastSeen remote with
  | none => simp [hl] at h
  | some last =>
    by_cases ha : ts.after last = true
    · simp [hl, ha] at h
    · simp [ha]

structure Watched (lastSeen : B → Option Nanos) (accepted : List (Acceptance B ι)) : Prop where
  ordered : accepted.Pairwise fun a b => a.remote = b.remote → a.ts.toInt < b.ts.toInt
  seen : ∀ a ∈ accepted, ∃ last, lastSeen a.remote = some last ∧ a.ts.toInt ≤ last.toInt

theorem Watched.accept {accepted : List (Acceptance B ι)} (hw : Watched lastSeen accepted)
    (h : (checkReplay lastSeen remote ts).1 = true) :
    Watched (checkReplay lastSeen remote ts).2 (accepted ++ [⟨i, remote, ts⟩]) := by
  obtain ⟨hmap, hnewer⟩ := checkReplay_true h
  rw [hmap]
  constructor
  · rw [pairwise_append]
    refine ⟨hw.ordered, pairwise_singleton _ _, fun a ha b hb hremote => ?_⟩
    obtain rfl := mem_singleton.mp hb
    obtain ⟨last, hlast, hle⟩ := hw.seen a ha
    rw [hremote] at hlast
    have hlt := hnewer last hlast
    simp only
    omega
  · intro a ha
    rcases mem_append.mp ha with ha | ha
    · obtain ⟨last, hlast, hle⟩ := hw.seen a ha
      by_cases hremote : a.remote = remote
      · have hlt := hnewer last (hremote ▸ hlast)
        exact ⟨ts, by rw [hremote, update_self], by omega⟩
      · exact ⟨last, by rw [update_of_ne hremote, hlast], hle⟩
    · rw [mem_singleton.mp ha]
      exact ⟨ts, update_self .., Int.le_refl _⟩

omit [DecidableEq B] in
theorem Record.perform_checked (r : Record B) {op : HandshakeOp B β} (reply : β)
    (hop : op.isCheck = false) : (r.perform op reply).checked = r.checked := by
  cases op with
  | checkReplay remote ts => cases hop
  | writeMsg1 m => cases reply <;> rfl
  | writeMsg2 m => cases reply <;> rfl
  | _ => rfl

variable [DecidableEq ι] [DecidableEq ε]

theorem machine_effect_other (sessions : ι → Session B ε) (i : ι) (w : World B ι ε)
    {op : HandshakeOp B β} (reply : β) (hop : op.isCheck = false) :
    (machine sessions i).effect w (op : (handshakes B).Op β) reply = w.record i op reply := by
  cases op with
  | checkReplay remote ts => cases hop
  | _ => cases h : sessions i <;> simp only [machine, h]

structure World.Watched (sessions : ι → Session B ε) (w : World B ι ε) : Prop where
  endpoints : ∀ e, Control.Watched (w.lastSeen e) (w.accepted e)
  told : ∀ i e remote ts, sessions i = .accept e →
    (w.records i).checked = some (remote, ts, true) → ⟨i, remote, ts⟩ ∈ w.accepted e

section

variable {sessions : ι → Session B ε} {w : World B ι ε} {i : ι}

omit [DecidableEq B] [DecidableEq ε] in
theorem World.Watched.other (hw : w.Watched sessions) {β : Type} {op : HandshakeOp B β} (reply : β)
    (hop : op.isCheck = false) : (w.record i op reply).Watched sessions where
  endpoints := hw.endpoints
  told j e remote ts hj hc := by
    refine hw.told j e remote ts hj (Eq.trans ?_ hc)
    by_cases h : j = i
    · subst h
      simp only [World.record, update_self]
      exact ((w.records j).perform_checked reply hop).symm
    · simp only [World.record, update_of_ne h]

omit [DecidableEq ι] in
theorem World.mem_check (w : World B ι ε) (e : ε) (i : ι) (remote : B) (ts : Nanos) (reply : Bool)
    {e' : ε} {a : Acceptance B ι} (h : a ∈ w.accepted e') :
    a ∈ (w.check e i remote ts reply).accepted e' := by
  cases reply with
  | false => exact h
  | true =>
    simp only [World.check, if_true]
    by_cases he : e' = e
    · subst he
      rw [update_self]
      exact mem_append_left _ h
    · rwa [update_of_ne he]

theorem World.Watched.check (hw : w.Watched sessions) {e : ε} {remote : B} {ts : Nanos}
    {reply : Bool} (hs : sessions i = .accept e)
    (hreply : reply = (checkReplay (w.lastSeen e) remote ts).1) :
    ((w.check e i remote ts reply).record i (.checkReplay remote ts) reply).Watched sessions where
  endpoints e' := by
    simp only [World.record, World.check]
    by_cases he : e' = e
    · subst he
      cases reply with
      | false =>
        rw [checkReplay_false hreply.symm, update_eq_self]
        exact hw.endpoints e'
      | true =>
        simp only [if_true, update_self]
        exact (hw.endpoints e').accept hreply.symm
    · cases reply with
      | false =>
        rw [update_of_ne he]
        exact hw.endpoints e'
      | true =>
        simp only [if_true, update_of_ne he]
        exact hw.endpoints e'
  told j e' remote' ts' hj hc := by
    by_cases h : j = i
    · subst h
      simp only [World.record, update_self, Record.perform, Option.some.injEq, Prod.mk.injEq] at hc
      obtain ⟨rfl, rfl, rfl⟩ := hc
      cases hs.symm.trans hj
      simp [World.record, World.check]
    · simp only [World.record, update_of_ne h] at hc
      exact w.mem_check e i remote ts reply (hw.told j e' remote' ts' hj hc)

theorem World.Watched.step {pool next : SessionPool B ι ε}
    {label : SessionLabel B ι ε} (hw : pool.state.Watched sessions)
    (hstep : Pool.Step noBodies (machine sessions) (fun _ _ => False) pool label next) :
    next.state.Watched sessions := by
  cases hstep with
  | @act β j op rest reply _ hadm =>
    cases hop : HandshakeOp.isCheck op with
    | false =>
      rw [machine_effect_other sessions j pool.state reply hop]
      exact hw.other reply hop
    | true =>
      cases op with
      | checkReplay remote ts =>
        cases hs : sessions j with
        | dial localPriv remoteStatic => simp [machine, hs] at hadm
        | accept e =>
          have hnext := hw.check hs (by simpa [machine, hs] using hadm)
          simpa [machine, hs] using hnext
      | _ => cases hop
  | @enter _ _ proc => exact Empty.elim proc
  | env h => exact h.elim

end

variable {c : Suite B} {endpoints : ε → Endpoint B} {sessions : ι → Session B ε}
  {labels : List (SessionLabel B ι ε)}
  {last : SessionPool B ι ε}

theorem Runs.sound (hr : Runs c endpoints sessions labels last) : Sound c endpoints sessions last :=
  (hr.along (fun _ => True) (fun _ => True) (Sound c endpoints sessions) (fun _ _ => trivial)
    Sound.launch fun _ _ _ _ hstep hs => ⟨hs.step hstep, trivial⟩).1

theorem Runs.watched (hr : Runs c endpoints sessions labels last) : last.state.Watched sessions :=
  (hr.along (fun _ => True) (fun _ => True) (fun pool => pool.state.Watched sessions)
    (fun _ _ => trivial) ⟨fun _ => ⟨.nil, by simp [launch]⟩, by simp [launch]⟩
    fun _ _ _ _ hstep hw => ⟨hw.step hstep, trivial⟩).1

def LeavesLastSeen (i : ι) : SessionLabel B ι ε → Prop
  | .act j w _ _ w' => j = i → w'.lastSeen = w.lastSeen
  | _ => True

-- The induction runs backwards: a session that ends unchecked has never been.
theorem Runs.unchecked (hr : Runs c endpoints sessions labels last) {i : ι}
    (hi : (last.state.records i).checked = none) : ∀ label ∈ labels, LeavesLastSeen i label := by
  refine hr.back _ (fun w => (w.records i).checked = none) hi fun pool label next hstep hnone => ?_
  cases hstep with
  | @act β j op rest reply _ hadm =>
    change (((machine sessions j).effect pool.state op reply).records i).checked = none at hnone
    rw [machine_effect_records] at hnone
    by_cases h : i = j
    · subst h
      rw [update_self] at hnone
      cases hop : HandshakeOp.isCheck op with
      | false =>
        rw [(pool.state.records i).perform_checked reply hop] at hnone
        exact ⟨hnone, fun _ => by rw [machine_effect_other sessions i pool.state reply hop]; rfl⟩
      | true =>
        cases op with
        | checkReplay remote ts => cases hnone
        | _ => cases hop
    · rw [update_of_ne h] at hnone
      exact ⟨hnone, fun hj => absurd hj.symm h⟩
  | @enter _ _ proc => exact Empty.elim proc
  | env h => exact h.elim

theorem Runs.told (hr : Runs c endpoints sessions labels last) {i : ι} {e : ε} {m : Msg1 B}
    {result : HandshakeResult B} (hi : sessions i = .accept e)
    (hm : (last.state.records i).read1 = some m)
    (hres : (last.state.records i).result = some (.ok result)) :
    ∃ o, openMsg1 c (endpoints e).localPriv (endpoints e).isKnown m = .ok o ∧
      ⟨i, o.remoteStatic, o.ts⟩ ∈ last.state.accepted e := by
  have hcons := hr.sound.consistent i
  rw [hi] at hcons
  obtain ⟨m2, hm2⟩ := isSome_iff_exists.mp (hcons.result result hres)
  obtain ⟨m', o, y, t, hm', ho, hchecked, -⟩ := hcons.sent m2 hm2
  cases hm.symm.trans hm'
  exact ⟨o, ho, hr.watched.told i e _ _ hi hchecked⟩

-- Over any interleaving of the sessions.
theorem accept_replay_protected (hr : Runs c endpoints sessions labels last) :
    (∀ e remote, (((last.state.accepted e).filter (·.remote = remote)).map (·.ts.toInt)).Pairwise
      (· < ·)) ∧
    (∀ e i j m resultI resultJ, sessions i = .accept e → sessions j = .accept e →
      (last.state.records i).read1 = some m → (last.state.records j).read1 = some m →
      (last.state.records i).result = some (.ok resultI) →
      (last.state.records j).result = some (.ok resultJ) → i = j) ∧
    ∀ e i err, sessions i = .accept e → (last.state.records i).result = some (.error err) →
      err.early = true → ∀ label ∈ labels, LeavesLastSeen i label := by
  refine ⟨fun e remote => ?_, fun e i j m resultI resultJ hi hj hmi hmj hri hrj => ?_,
    fun e i err hi hres hearly => ?_⟩
  · have hordered := (hr.watched.endpoints e).ordered
    rw [pairwise_map, pairwise_filter]
    exact hordered.imp fun h ha hb =>
      h ((of_decide_eq_true ha).trans (of_decide_eq_true hb).symm)
  · -- both were told so for the same key and timestamp
    obtain ⟨o, ho, hini⟩ := hr.told hi hmi hri
    obtain ⟨o', ho', hinj⟩ := hr.told hj hmj hrj
    cases ho.symm.trans ho'
    have hnodup : ((last.state.accepted e).map fun a => (a.remote, a.ts)).Nodup := by
      refine pairwise_map.mpr ((hr.watched.endpoints e).ordered.imp fun h heq => ?_)
      obtain ⟨hremote, hts⟩ := Prod.mk.inj heq
      exact absurd (h hremote) (by rw [hts]; exact Int.lt_irrefl _)
    have hsame := inj_on_of_nodup_map hnodup hini hinj rfl
    exact congrArg Acceptance.session hsame
  · have hcons := hr.sound.consistent i
    rw [hi] at hcons
    exact hr.unchecked (hcons.early err hres hearly)

def toyReply (w : World Bytes (Fin 2) Unit) : {β : Type} → HandshakeOp Bytes β → Option β
  | _, .generatePrivateKey => some (.ok [4])
  | _, .now => some 5
  | _, .writeMsg1 _ => some (.ok ())
  | _, .readMsg2 => none
  | _, .readMsg1 => some (.ok (Msg1.ofBytes toyMsg1))
  | _, .checkReplay remote ts => some (checkReplay (w.lastSeen ()) remote ts).1
  | _, .writeMsg2 _ => some (.ok ())
  | _, .close => some ()
  | _, .returned _ => some ()

def toyEndpoint (_ : Unit) : Endpoint Bytes :=
  ⟨[2], fun _ => true⟩

theorem accept_replay_protected_toy :
    ∃ labels last, Runs toyPrimitives.suite toyEndpoint (fun _ : Fin 2 => .accept ()) labels last ∧
      (∀ i, (last.state.records i).read1 = some (Msg1.ofBytes toyMsg1)) ∧
      (last.state.records 0).result.any Except.toBool = true ∧
      ∀ result, (last.state.records 1).result ≠ some (.ok result) := by
  have hrun : (Pool.replay noBodies (machine fun _ : Fin 2 => .accept ())
      (fun _ w {_} op => toyReply w op) (fun _ => true) [1, 0, 0, 1, 0, 0, 0]
      (launch toyPrimitives.suite toyEndpoint fun _ => .accept ())).any
      (fun last => decide (∀ i, (last.state.records i).read1 = some (Msg1.ofBytes toyMsg1)) &&
        (last.state.records 0).result.any Except.toBool) = true := by
    decide +kernel
  obtain ⟨labels, last, hr, -, hp⟩ := Pool.reaches_of_replay (fun _ _ => False) _ hrun
  obtain ⟨hread, hok⟩ := Bool.and_eq_true_iff.mp hp
  have hread' := of_decide_eq_true hread
  refine ⟨labels, last, hr, hread', hok, fun result hres => ?_⟩
  obtain ⟨outcome, hout, hok'⟩ := (any_eq_true _ _).mp hok
  cases outcome with
  | error err => cases hok'
  | ok result' =>
    exact absurd ((accept_replay_protected hr).2.1 () 0 1 _ _ _ rfl rfl (hread' 0) (hread' 1) hout
      hres) (by decide)

end

end StarlingWg.Control
