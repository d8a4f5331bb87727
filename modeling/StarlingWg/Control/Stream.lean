import Mathlib.Data.List.Nodup
import StarlingWg.Control.Codec

namespace StarlingWg.Control

open Wire Message List

def maxFrameSize : Nat := 64 * 1024

-- One direction's cipher. Nothing is passed as additional data.
structure AEAD where
  aeadSeal : (nonce plain : Bytes) → Bytes
  aeadOpen : (nonce cipher : Bytes) → Option Bytes
  overhead : ∀ nonce plain, (aeadSeal nonce plain).length = plain.length + 16

structure Conn where
  sendAEAD : AEAD
  recvAEAD : AEAD
  sendCtr : UInt64
  recvCtr : UInt64

def newConn (sendAEAD recvAEAD : AEAD) : Conn :=
  ⟨sendAEAD, recvAEAD, 0, 0⟩

def nonceFromCounter (ctr : UInt64) : Bytes :=
  List.replicate 4 0 ++ beBytes 8 ctr.toNat

-- How a call of Write fails: after how many bytes and with which error.
abbrev WriteError := Option (Nat × String)

structure Writes where
  length : WriteError
  frame : WriteError
  deriving DecidableEq, Repr

structure Sent where
  conn : Conn
  nonce : Bytes
  plain : Bytes
  written : Bytes
  result : Except String Unit

def Message.plain (m : Message) : Bytes :=
  m.type :: m.encodeBody

def Conn.send (c : Conn) (m : Message) (writes : Writes) : Sent :=
  let nonce := nonceFromCounter c.sendCtr
  let ct := c.sendAEAD.aeadSeal nonce m.plain
  let lenBuf := putU32 (.ofNat ct.length)
  let sent := Sent.mk { c with sendCtr := c.sendCtr + 1 } nonce m.plain
  match writes.length, writes.frame with
  | some (n, err), _ => sent (lenBuf.take n) (.error ("control: write frame length: " ++ err))
  | none, some (n, err) => sent (lenBuf ++ ct.take n) (.error ("control: write frame: " ++ err))
  | none, none => sent (lenBuf ++ ct) (.ok ())

def Conn.sends (c : Conn) : List (Message × Writes) → List Sent
  | [] => []
  | (m, writes) :: calls => c.send m writes :: (c.send m writes).conn.sends calls

section

variable (c : Conn) (m : Message) (writes : Writes)

@[simp] theorem send_conn : (c.send m writes).conn = { c with sendCtr := c.sendCtr + 1 } := by
  unfold Conn.send
  split <;> rfl

@[simp] theorem send_nonce : (c.send m writes).nonce = nonceFromCounter c.sendCtr := by
  unfold Conn.send
  split <;> rfl

@[simp] theorem send_plain : (c.send m writes).plain = m.plain := by
  unfold Conn.send
  split <;> rfl

variable {c m writes}

theorem send_written (h : (c.send m writes).result = .ok ()) : (c.send m writes).written =
      putU32 (.ofNat (c.sendAEAD.aeadSeal (nonceFromCounter c.sendCtr) m.plain).length) ++
        c.sendAEAD.aeadSeal (nonceFromCounter c.sendCtr) m.plain := by
  unfold Conn.send at h ⊢
  split
  · next hw => simp [hw] at h
  · next hw hf => simp [hw, hf] at h
  · rfl

end

section

inductive RecvError
  | read (err : ReadError)
  | frameTooLarge
  | readFrame (err : ReadError)
  | authenticationFailed
  | emptyFrame
  | decode (text : String)
  deriving DecidableEq, Repr

def Conn.openFrame (c : Conn) (ct : Bytes) : Except RecvError Message :=
  match c.recvAEAD.aeadOpen (nonceFromCounter c.recvCtr) ct with
  | none => .error .authenticationFailed
  | some [] => .error .emptyFrame
  | some (t :: body) => (decodeBody t body).mapError .decode

def Conn.recv (c : Conn) (nc : Incoming) : Conn × Incoming × Except RecvError Message :=
  match nc.readFull 4 with
  | (.error err, nc) => (c, nc, .error (.read err))
  | (.ok lenBuf, nc) =>
    if maxFrameSize < beNat lenBuf then (c, nc, .error .frameTooLarge)
    else match nc.readFull (beNat lenBuf) with
    | (.error err, nc) => (c, nc, .error (.readFrame err))
    | (.ok ct, nc) => ({ c with recvCtr := c.recvCtr + 1 }, nc, c.openFrame ct)

-- A number of calls of Recv: the messages before the first error, and the error.
def Conn.recvs (c : Conn) (nc : Incoming) : Nat → List Message × Option RecvError
  | 0 => ([], none)
  | n + 1 =>
    match c.recv nc with
    | (_, _, .error err) => ([], some err)
    | (c, nc, .ok m) => (m :: (c.recvs nc n).1, (c.recvs nc n).2)

variable {c c' : Conn} {nc nc' : Incoming} {m : Message}

theorem recv_ok (h : c.recv nc = (c', nc', .ok m)) :
    ∃ lenBuf ct, lenBuf.length = 4 ∧ beNat lenBuf = ct.length ∧ ct.length ≤ maxFrameSize ∧
      nc.bytes = lenBuf ++ (ct ++ nc'.bytes) ∧ c' = { c with recvCtr := c.recvCtr + 1 } ∧
      c.openFrame ct = .ok m := by
  unfold Conn.recv at h
  split at h
  · simp at h
  next lenBuf nc₁ hlength =>
  obtain ⟨hfour, hbytes₁⟩ := Incoming.readFull_ok hlength
  split at h
  · simp at h
  next hmax =>
  split at h
  · simp at h
  next ct nc₂ hframe =>
  obtain ⟨hlen, hbytes₂⟩ := Incoming.readFull_ok hframe
  simp only [Prod.mk.injEq] at h
  obtain ⟨rfl, rfl, hopen⟩ := h
  refine ⟨lenBuf, ct, hfour, hlen.symm, by omega, ?_, rfl, hopen⟩
  rw [hbytes₁, hbytes₂]

theorem recv_of_bytes {ct rest : Bytes} (hlen : ct.length ≤ maxFrameSize)
    (h : nc.bytes = putU32 (.ofNat ct.length) ++ (ct ++ rest)) :
    ∃ nc', c.recv nc = ({ c with recvCtr := c.recvCtr + 1 }, nc', c.openFrame ct) ∧
      nc'.bytes = rest := by
  obtain ⟨nc₁, hlength, hbytes₁⟩ := Incoming.readFull_of_bytes h
  obtain ⟨nc₂, hframe, hbytes₂⟩ := Incoming.readFull_of_bytes hbytes₁
  have hfour : (putU32 (.ofNat ct.length)).length = 4 := beBytes_length _ _
  have hnat : beNat (putU32 (.ofNat ct.length)) = ct.length := by
    rw [putU32, beNat_beBytes (UInt32.toNat_lt _), UInt32.toNat_ofNat_of_lt']
    rw [UInt32.size]
    unfold maxFrameSize at hlen
    omega
  rw [hfour] at hlength
  refine ⟨nc₂, ?_, hbytes₂⟩
  unfold Conn.recv
  rw [hlength]
  dsimp only
  rw [hnat, if_neg (by omega), hframe]

theorem openFrame_ok {ct : Bytes} (h : c.openFrame ct = .ok m) :
    ∃ t body, c.recvAEAD.aeadOpen (nonceFromCounter c.recvCtr) ct = some (t :: body) ∧
      decodeBody t body = .ok m := by
  unfold Conn.openFrame at h
  split at h
  · simp at h
  · simp at h
  next t body hopen =>
  refine ⟨t, body, hopen, ?_⟩
  cases hbody : decodeBody t body with
  | error err => simp [hbody, Except.mapError] at h
  | ok value => simpa [hbody, Except.mapError] using h

theorem openFrame_plain {ct : Bytes}
    (h : c.recvAEAD.aeadOpen (nonceFromCounter c.recvCtr) ct = some m.plain) :
    c.openFrame ct = .ok m.received := by
  unfold Conn.openFrame
  rw [h, plain]
  dsimp only
  rw [decodeBody_encodeBody]
  rfl

end

section

structure Message.Deliverable (m : Message) : Prop where
  survives : m.Survives
  frame : m.plain.length + 16 ≤ maxFrameSize

theorem Message.Survives.plain_length {m : Message} (h : m.Survives) : m.plain.length < 65600 := by
  have hstring : ∀ s : GoString, s.Survives → (putString s).length < 65538 := by
    intro s hs
    have hlen : s.bytes.length < 65536 := hs
    rw [putString, length_append, putU16, beBytes_length]
    omega
  have hlonger : ∀ ap : AddrPort, (putAddrPort ap).length ≤ 19 := by
    intro ap
    rw [putAddrPort, length_append, putU16, beBytes_length]
    cases ap.addr <;> simp [putAddr, Addr.as16]
  rw [plain, length_cons]
  cases m with
  | natProbeResponse m =>
    have := hlonger m.observedAddr
    simp only [encodeBody, length_append, putU64, beBytes_length]
    omega
  | nativeEndpointReport m =>
    have := hlonger m.externalAddr
    simp only [encodeBody, length_append, putSessionID, beBytes_length]
    omega
  | nativeFailed m =>
    have := hstring m.reason h
    simp only [encodeBody, length_append, putSessionID, beBytes_length]
    omega
  | modeDecision m =>
    have := hstring m.reason h
    simp only [encodeBody, length_append, putSessionID, beBytes_length, length_singleton]
    omega
  | cloakedParams m =>
    have := hlonger m.listenEndpoint
    simp only [encodeBody, CloakedParams.encodeBody, length_append, length_cons,
      putU32, putKey, keySize, beBytes_length]
    omega
  | bye reason =>
    have := hstring reason h
    simp only [encodeBody]
    omega
  | hello _ | xInfo _ | natProbeRequest _ | nativeReady _ | ping _ | pong _ =>
    simp [encodeBody, putU16, putU64, putKey, putSessionID, keySize]

variable {c r : Conn} {calls : List (Message × Writes)} {nc : Incoming} {rest : Bytes}

theorem recvs_deliverable (hsent : ∀ s ∈ c.sends calls, s.result = .ok ())
    (hbytes : nc.bytes = (c.sends calls).flatMap Sent.written ++ rest)
    (h : r.recvs nc calls.length = (calls.map Prod.fst, none)) :
    ∀ call ∈ calls, call.1.Deliverable := by
  induction calls generalizing c r nc with
  | nil => simp
  | cons call calls ih =>
    obtain ⟨m, writes⟩ := call
    simp only [Conn.sends, forall_mem_cons, flatMap_cons] at hsent hbytes
    rw [send_written hsent.1, append_assoc, append_assoc] at hbytes
    generalize hct : c.sendAEAD.aeadSeal (nonceFromCounter c.sendCtr) m.plain = ct at hbytes
    have hctlen : ct.length = m.plain.length + 16 := hct ▸ c.sendAEAD.overhead _ _
    simp only [length_cons, Conn.recvs, map_cons] at h
    split at h
    · simp at h
    next r' nc' m' hrecv =>
    simp only [Prod.mk.injEq, List.cons.injEq] at h
    obtain ⟨⟨rfl, hms⟩, herr⟩ := h
    obtain ⟨lenBuf, got, hfour, hnat, hmax, hread, -, hopen⟩ := recv_ok hrecv
    obtain ⟨t, body, -, hdecode⟩ := openFrame_ok hopen
    have hsurvives := decodeBody_survives hdecode
    have hplain := hsurvives.plain_length
    -- the length has not been cut, so the frame that was read is the one sent
    obtain ⟨hlenBuf, htail⟩ := append_inj (hread.symm.trans hbytes)
      (by rw [hfour, putU32, beBytes_length])
    have hgot : got.length = ct.length := by
      rw [← hnat, hlenBuf, putU32, beNat_beBytes (UInt32.toNat_lt _), UInt32.toNat_ofNat_of_lt']
      rw [UInt32.size]
      omega
    obtain ⟨-, hnext⟩ := append_inj htail hgot
    have hframe : m'.plain.length + 16 ≤ maxFrameSize := by omega
    refine forall_mem_cons.mpr ⟨⟨hsurvives, hframe⟩, ?_⟩
    exact ih hsent.2 hnext (Prod.ext hms herr)

theorem recvs_of_deliverable (haead : r.recvAEAD = c.sendAEAD) (hctr : r.recvCtr = c.sendCtr)
    (hopens : ∀ nonce plain, c.sendAEAD.aeadOpen nonce (c.sendAEAD.aeadSeal nonce plain) = some plain)
    (hsent : ∀ s ∈ c.sends calls, s.result = .ok ())
    (hbytes : nc.bytes = (c.sends calls).flatMap Sent.written ++ rest)
    (h : ∀ call ∈ calls, call.1.Deliverable) :
    r.recvs nc calls.length = (calls.map Prod.fst, none) := by
  induction calls generalizing c r nc with
  | nil => rfl
  | cons call calls ih =>
    obtain ⟨m, writes⟩ := call
    simp only [Conn.sends, forall_mem_cons, flatMap_cons] at hsent hbytes h
    rw [send_written hsent.1, append_assoc, append_assoc] at hbytes
    obtain ⟨⟨hsurvives, hframe⟩, hrest⟩ := h
    obtain ⟨nc', hrecv, hnext⟩ := recv_of_bytes (c := r)
      (by rw [c.sendAEAD.overhead]; exact hframe) hbytes
    have hopen : r.openFrame (c.sendAEAD.aeadSeal (nonceFromCounter c.sendCtr) m.plain) = .ok m := by
      rw [← hsurvives.received]
      apply openFrame_plain
      rw [haead, hctr, hsurvives.received]
      exact hopens _ _
    have htail := ih (c := (c.send m writes).conn) (r := { r with recvCtr := r.recvCtr + 1 })
      (by simpa using haead) (by simp [hctr]) (by simpa using hopens) hsent.2 hnext hrest
    simp only [length_cons, Conn.recvs, hrecv, hopen, htail, map_cons]

theorem recvs_eq_sent_iff (aead : AEAD)
    (hopens : ∀ nonce plain, aead.aeadOpen nonce (aead.aeadSeal nonce plain) = some plain)
    (back forth : AEAD) (calls : List (Message × Writes))
    (hsent : ∀ s ∈ (newConn aead back).sends calls, s.result = .ok ()) :
    (∀ (nc : Incoming) (rest : Bytes),
      nc.bytes = ((newConn aead back).sends calls).flatMap Sent.written ++ rest →
      (newConn forth aead).recvs nc calls.length = (calls.map Prod.fst, none)) ↔
    ∀ call ∈ calls, call.1.Deliverable := by
  constructor
  · intro h
    have hbytes : (Incoming.mk [((newConn aead back).sends calls).flatMap Sent.written] .eof).bytes =
        ((newConn aead back).sends calls).flatMap Sent.written ++ [] := by
      simp [Incoming.bytes]
    exact recvs_deliverable hsent hbytes (h _ _ hbytes)
  · intro h nc rest hbytes
    exact recvs_of_deliverable rfl rfl hopens hsent hbytes h

def transparent : AEAD where
  aeadSeal _ plain := plain ++ List.replicate 16 0
  aeadOpen _ cipher := some (cipher.take (cipher.length - 16))
  overhead _ plain := by simp

def reports : List (Message × Writes) :=
  [(.nativeEndpointReport ⟨1, ⟨.v4 3405803777, 51820⟩⟩, ⟨none, none⟩),
    (.nativeEndpointReport ⟨2, ⟨.v6 1 "", 51821⟩⟩, ⟨none, none⟩)]

theorem reports_survive : ∀ call ∈ reports, call.1.Survives := by
  simp [reports, Message.Survives, Addr.Survives]

theorem recvs_eq_sent_iff_reports :
    let sender := newConn transparent transparent
    (∀ s ∈ sender.sends reports, s.result = .ok ()) ∧
    ∀ (nc : Incoming) (rest : Bytes), nc.bytes = (sender.sends reports).flatMap Sent.written ++ rest →
      (newConn transparent transparent).recvs nc 2 = (reports.map Prod.fst, none) :=
  have hsent : ∀ s ∈ (newConn transparent transparent).sends reports, s.result = .ok () := by decide
  ⟨hsent, (recvs_eq_sent_iff transparent (fun _ _ => by simp [transparent]) _ _ reports hsent).mpr
    fun call hcall => ⟨reports_survive call hcall, by revert call; decide⟩⟩

-- The zone of an address is lost on the way, and a long reason makes a frame
-- that the receiver refuses.
theorem sent_not_received :
    let report : Message := .nativeEndpointReport ⟨1, ⟨.v6 1 "eth0", 51820⟩⟩
    let failed : Message := .nativeFailed ⟨1, ⟨List.replicate 65502 0⟩⟩
    let sender := newConn transparent transparent
    ∀ m ∈ [report, failed], (sender.send m ⟨none, none⟩).result = .ok () ∧
      ∀ nc : Incoming, nc.bytes = (sender.send m ⟨none, none⟩).written →
        (newConn transparent transparent).recvs nc 1 ≠ ([m], none) := by
  intro report failed sender m hm
  refine ⟨rfl, fun nc hbytes hrecvs => ?_⟩
  have hsent : ∀ s ∈ sender.sends [(m, ⟨none, none⟩)], s.result = .ok () := by
    intro s hs
    rw [mem_singleton.mp hs]
    rfl
  have hwritten : nc.bytes = (sender.sends [(m, ⟨none, none⟩)]).flatMap Sent.written ++ [] := by
    simpa [Conn.sends] using hbytes
  obtain ⟨hsurvives, hframe⟩ := recvs_deliverable hsent hwritten hrecvs _ mem_cons_self
  simp only [mem_cons, not_mem_nil, or_false] at hm
  rcases hm with rfl | rfl
  · exact absurd hsurvives (by decide : "eth0" ≠ "")
  · simp only [failed, plain, encodeBody, putSessionID, putString, putU16, length_cons,
      length_append, beBytes_length, length_replicate] at hframe
    exact absurd hframe (by decide)

end

section

def AEAD.Authentic (aead : AEAD) (log : List (Bytes × Bytes)) : Prop :=
  ∀ nonce cipher plain, aead.aeadOpen nonce cipher = some plain →
    (nonce, plain) ∈ log ∧ cipher = aead.aeadSeal nonce plain

def Sent.record (s : Sent) : Bytes × Bytes :=
  (s.nonce, s.plain)

theorem nonceFromCounter_inj {a b : UInt64} (h : nonceFromCounter a = nonceFromCounter b) : a = b := by
  have hbytes := append_cancel_left h
  have hnat := congrArg beNat hbytes
  rw [beNat_beBytes a.toNat_lt, beNat_beBytes b.toNat_lt] at hnat
  exact UInt64.toNat_inj.mp hnat

variable {c r : Conn} {calls : List (Message × Writes)}

theorem sends_records (c : Conn) (calls : List (Message × Writes)) :
    (c.sends calls).map Sent.record = calls.mapIdx fun i call =>
      (nonceFromCounter (c.sendCtr + .ofNat i), call.1.plain) := by
  induction calls generalizing c with
  | nil => rfl
  | cons call calls ih =>
    obtain ⟨m, writes⟩ := call
    have hnext : ∀ i, c.sendCtr + 1 + UInt64.ofNat i = c.sendCtr + UInt64.ofNat (i + 1) := by
      intro i
      rw [UInt64.ofNat_add, UInt64.add_assoc, UInt64.add_comm 1]
      rfl
    simp only [Conn.sends, map_cons, mapIdx_cons, ih, Sent.record, send_nonce, send_plain,
      send_conn, hnext]
    simp

theorem record_of_counter {k : Nat} {plain : Bytes} (hlen : calls.length < 2 ^ 64)
    (hk : k ≤ calls.length) (hzero : c.sendCtr = 0)
    (h : (nonceFromCounter (.ofNat k), plain) ∈ (c.sends calls).map Sent.record) :
    ∃ call, calls[k]? = some call ∧ plain = call.1.plain := by
  rw [sends_records, mem_mapIdx] at h
  obtain ⟨i, hi, heq⟩ := h
  simp only [Prod.mk.injEq, hzero, UInt64.zero_add] at heq
  have hsame := congrArg UInt64.toNat (nonceFromCounter_inj heq.1)
  rw [UInt64.toNat_ofNat_of_lt' (by rw [UInt64.size]; omega),
    UInt64.toNat_ofNat_of_lt' (by rw [UInt64.size]; omega)] at hsame
  subst hsame
  exact ⟨calls[i], List.getElem?_eq_getElem hi, heq.2.symm⟩

theorem sends_nonces_nodup (hlen : calls.length < 2 ^ 64) (hzero : c.sendCtr = 0) :
    ((c.sends calls).map Sent.nonce).Nodup := by
  have hnonces : (c.sends calls).map Sent.nonce =
      (List.range calls.length).map fun i => nonceFromCounter (.ofNat i) := by
    have hrecords := congrArg (List.map Prod.fst) (sends_records c calls)
    rw [map_map] at hrecords
    refine hrecords.trans ?_
    apply ext_getElem?
    intro i
    by_cases hi : i < calls.length
    · simp [hzero, hi]
    · simp [hi]
  rw [hnonces]
  refine List.Nodup.map_on ?_ nodup_range
  intro i hi j hj hij
  have hsame := congrArg UInt64.toNat (nonceFromCounter_inj hij)
  rw [mem_range] at hi hj
  rwa [UInt64.toNat_ofNat_of_lt' (by rw [UInt64.size]; omega),
    UInt64.toNat_ofNat_of_lt' (by rw [UInt64.size]; omega)] at hsame

theorem recvs_prefix_from {k : Nat} (hlen : calls.length < 2 ^ 64) (hk : k ≤ calls.length)
    (hzero : c.sendCtr = 0) (hctr : r.recvCtr = .ofNat k)
    (hauth : r.recvAEAD.Authentic ((c.sends calls).map Sent.record))
    (h : ∀ call ∈ calls, call.1.Survives) (nc : Incoming) (n : Nat) :
    (r.recvs nc n).1 <+: (calls.drop k).map Prod.fst := by
  induction n generalizing k r nc with
  | zero => exact nil_prefix
  | succ n ih =>
    unfold Conn.recvs
    split
    · exact nil_prefix
    next r' nc' m hrecv =>
    obtain ⟨lenBuf, ct, -, -, -, -, rfl, hopen⟩ := recv_ok hrecv
    obtain ⟨t, body, hplain, hdecode⟩ := openFrame_ok hopen
    have hrecord := (hauth _ _ _ hplain).1
    rw [hctr] at hrecord
    obtain ⟨call, hcall, heq⟩ := record_of_counter hlen hk hzero hrecord
    obtain ⟨hk', hget⟩ := List.getElem?_eq_some_iff.mp hcall
    have hm : m = call.1 := by
      obtain ⟨rfl, rfl⟩ := List.cons.inj heq
      have hsame := hdecode.symm.trans (decodeBody_encodeBody call.1)
      rw [Except.ok.inj hsame]
      exact (h call (mem_of_getElem? hcall)).received
    have hnext : r.recvCtr + 1 = .ofNat (k + 1) := by
      rw [hctr, UInt64.ofNat_add]
      rfl
    rw [drop_eq_getElem_cons hk', hget, map_cons, hm, cons_prefix_cons]
    exact ⟨rfl, ih (r := { r with recvCtr := r.recvCtr + 1 }) hk' hnext hauth nc'⟩

-- Whatever bytes arrive.
theorem recvs_prefix (aead back forth : AEAD) (calls : List (Message × Writes))
    (hlen : calls.length < 2 ^ 64) (h : ∀ call ∈ calls, call.1.Survives)
    (hauth : aead.Authentic (((newConn aead back).sends calls).map Sent.record)) :
    (∀ (nc : Incoming) (n : Nat), ((newConn forth aead).recvs nc n).1 <+: calls.map Prod.fst) ∧
    (((newConn aead back).sends calls).map Sent.nonce).Nodup := by
  refine ⟨fun nc n => ?_, sends_nonces_nodup hlen rfl⟩
  exact recvs_prefix_from hlen (Nat.zero_le _) rfl rfl hauth h nc n

def recording (log : List (Bytes × Bytes)) : AEAD where
  aeadSeal nonce plain := plain ++ (nonce ++ List.replicate 16 0).take 16
  aeadOpen nonce cipher :=
    (log.find? fun entry => entry.1 = nonce ∧
      cipher = entry.2 ++ (nonce ++ List.replicate 16 0).take 16).map Prod.snd
  overhead nonce plain := by simp

theorem recording_authentic (log : List (Bytes × Bytes)) : (recording log).Authentic log := by
  intro nonce cipher plain h
  obtain ⟨entry, hfind, hplain⟩ := Option.map_eq_some_iff.mp h
  have hmem := mem_of_find?_eq_some hfind
  have hfound := List.find?_some hfind
  simp only [decide_eq_true_eq] at hfound
  obtain ⟨rfl, rfl⟩ := hfound
  subst hplain
  exact ⟨hmem, rfl⟩

theorem recvs_prefix_reports :
    let aead := recording [(nonceFromCounter 0, reports[0].1.plain), (nonceFromCounter 1, reports[1].1.plain)]
    (∀ (nc : Incoming) (n : Nat), ((newConn aead aead).recvs nc n).1 <+: reports.map Prod.fst) ∧
    (((newConn aead aead).sends reports).map Sent.nonce).Nodup :=
  recvs_prefix _ _ _ reports (by decide) reports_survive (recording_authentic _)

-- An attacker that only passes the frame on makes the receiver return an
-- address that nobody has sent.
theorem zone_lost_in_transit :
    let report : Message := .nativeEndpointReport ⟨1, ⟨.v6 1 "eth0", 51820⟩⟩
    let aead := recording [(nonceFromCounter 0, report.plain)]
    let sender := newConn aead aead
    aead.Authentic ((sender.sends [(report, ⟨none, none⟩)]).map Sent.record) ∧
      report.plain.length + 16 ≤ maxFrameSize ∧
      ∃ nc : Incoming, ¬((newConn aead aead).recvs nc 1).1 <+: [report] := by
  intro report aead sender
  refine ⟨recording_authentic _, by decide, ⟨[(sender.send report ⟨none, none⟩).written], .eof⟩, ?_⟩
  decide +kernel

end

end StarlingWg.Control
