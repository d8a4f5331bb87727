import StarlingWg.Device.Burst

namespace StarlingWg.Conn

open StarlingWg.Device List Option

def idealBatchSize : Nat := 128

def maxPayloadLen (is6 : Bool) : Nat := if is6 then 65535 - 8 else 65535 - 20 - 8

def udpSegmentMaxDatagrams : Nat := 64

structure Buf where
  bytes : Bytes
  capacity : Nat
  fits : bytes.length ≤ capacity

-- make([]byte, n) has no room behind it.
def Buf.made (bytes : Bytes) : Buf := ⟨bytes, bytes.length, Nat.le_refl _⟩

-- An entry of the message vector: its buffer, and the segment size in its
-- control data.
structure Message where
  bytes : Bytes
  capacity : Nat
  gso : Option UInt16

def Message.ofBuf (buf : Buf) : Message := ⟨buf.bytes, buf.capacity, none⟩

def Message.setGSO (msg : Message) (gsoSize : Nat) : Message := { msg with gso := some (.ofNat gsoSize) }

-- The rounds of coalesceMessages from the second buffer on. `done` are the
-- messages before msgs[base]. None is an index out of range.
def coalesceLoop (vector maxPayload : Nat) (done : List Message) (base : Message)
    (gsoSize dgramCnt : Nat) (endBatch : Bool) : List Buf → Option (List Message)
  | [] => some (done ++ [base])
  | buf :: bufs =>
    let msgLen := buf.bytes.length
    let baseLenBefore := base.bytes.length
    let freeBaseCap := base.capacity - baseLenBefore
    if msgLen + baseLenBefore ≤ maxPayload ∧ msgLen ≤ gsoSize ∧ msgLen ≤ freeBaseCap ∧
        dgramCnt < udpSegmentMaxDatagrams ∧ endBatch = false then
      let grown := { base with bytes := base.bytes ++ buf.bytes }
      let grown := if bufs.isEmpty then grown.setGSO gsoSize else grown
      coalesceLoop vector maxPayload done grown gsoSize (dgramCnt + 1) (msgLen < gsoSize) bufs
    else
      let closed := if 1 < dgramCnt then base.setGSO gsoSize else base
      if done.length + 1 < vector then
        coalesceLoop vector maxPayload (done ++ [closed]) (.ofBuf buf) msgLen 1 false bufs
      else none

def coalesceMessages (vector : Nat) (is6 : Bool) : List Buf → Option (List Message)
  | [] => some []
  | buf :: bufs =>
    if 0 < vector then
      coalesceLoop vector (maxPayloadLen is6) [] (.ofBuf buf) buf.bytes.length 1 false bufs
    else none

def plainMessages (vector : Nat) (i : Nat) : List Buf → Option (List Message)
  | [] => some []
  | buf :: bufs =>
    if i < vector then (plainMessages vector (i + 1) bufs).map (Message.ofBuf buf :: ·) else none

structure Family where
  blackhole : Bool
  isOpen : Bool
  txOffload : Bool

structure StdNetBind where
  ipv4 : Family
  ipv6 : Family

def StdNetBind.family (s : StdNetBind) (is6 : Bool) : Family := if is6 then s.ipv6 else s.ipv4

def StdNetBind.disableTxOffload (s : StdNetBind) (is6 : Bool) : StdNetBind :=
  if is6 then { s with ipv6 := { s.ipv6 with txOffload := false } }
  else { s with ipv4 := { s.ipv4 with txOffload := false } }

inductive Written
  | ok
  | shouldDisableUDPGSO
  | failed
  deriving DecidableEq

inductive Reply
  | ok
  | noAddressFamily
  | sent (written : Written)
  | gsoDisabled (retry : Written)

-- `write true` is the retry without offload.
def StdNetBind.send (s : StdNetBind) (is6 : Bool) (write : Bool → List Message → Written)
    (bufs : List Buf) : Option (StdNetBind × Reply) :=
  let family := s.family is6
  if family.blackhole then some (s, .ok)
  else if !family.isOpen then some (s, .noAddressFamily)
  else if family.txOffload then
    match coalesceMessages idealBatchSize is6 bufs with
    | none => none
    | some msgs =>
      if write false msgs = .shouldDisableUDPGSO then
        (plainMessages idealBatchSize 0 bufs).map fun msgs =>
          (s.disableTxOffload is6, .gsoDisabled (write true msgs))
      else some (s, .sent (write false msgs))
  else (plainMessages idealBatchSize 0 bufs).map fun msgs => (s, .sent (write false msgs))

section

variable {vector : Nat} {bufs : List Buf}

theorem isSome_coalesceLoop {maxPayload gsoSize dgramCnt : Nat} {done : List Message} {base : Message}
    {endBatch : Bool} (h : done.length + 1 + bufs.length ≤ vector) :
    (coalesceLoop vector maxPayload done base gsoSize dgramCnt endBatch bufs).isSome := by
  induction bufs generalizing done base gsoSize dgramCnt endBatch with
  | nil => rfl
  | cons buf bufs ih =>
    rw [length_cons] at h
    rw [coalesceLoop]
    split
    · exact ih (by omega)
    · rw [if_pos (by omega)]
      exact ih (by rw [length_append, length_singleton]; omega)

theorem isSome_coalesceMessages (is6 : Bool) (h : bufs.length ≤ vector) :
    (coalesceMessages vector is6 bufs).isSome := by
  cases bufs with
  | nil => rfl
  | cons buf bufs =>
    rw [length_cons] at h
    rw [coalesceMessages, if_pos (by omega)]
    exact isSome_coalesceLoop (by rw [length_nil]; omega)

theorem isSome_plainMessages {i : Nat} (hi : i ≤ vector) :
    (plainMessages vector i bufs).isSome ↔ i + bufs.length ≤ vector := by
  induction bufs generalizing i with
  | nil => simpa [plainMessages] using hi
  | cons buf bufs ih =>
    rw [plainMessages, length_cons]
    split
    next hlt =>
      rw [isSome_map, ih (by omega)]
      omega
    next hlt => simp; omega

theorem isSome_send {s : StdNetBind} {is6 : Bool} {write : Bool → List Message → Written}
    (h : bufs.length ≤ idealBatchSize) : (s.send is6 write bufs).isSome := by
  have hplain : (plainMessages idealBatchSize 0 bufs).isSome :=
    (isSome_plainMessages (Nat.zero_le _)).mpr (by omega)
  obtain ⟨plain, hplain⟩ := isSome_iff_exists.mp hplain
  obtain ⟨msgs, hmsgs⟩ := isSome_iff_exists.mp (isSome_coalesceMessages is6 h)
  unfold StdNetBind.send
  rw [hplain, hmsgs]
  dsimp only
  split
  · rfl
  split
  · rfl
  split
  · split <;> rfl
  · rfl

end

-- Without offload, one buffer more indexes past the message vector.
theorem burst_fits (maxAlloc : Nat) (env : Nat → Nat → Surroundings) (ipackets : List (Option ObfChain))
    (junk : Junk) (fastrandn : Nat → UInt32) (random : Nat → Nat → UInt8) (initiation : Bytes)
    (bufs : List Bytes)
    (h : sendBuffer maxAlloc env ipackets (junkPackets junk fastrandn random) initiation = some bufs)
    (s : StdNetBind) (is6 : Bool) (write : Bool → List Message → Written) :
    let count := (ipackets.filter Option.isSome).length + junk.count.toNat + 1
    (count ≤ idealBatchSize → (s.send is6 write (bufs.map Buf.made)).isSome) ∧
    (s.family is6 = ⟨false, true, false⟩ →
      ((s.send is6 write (bufs.map Buf.made)).isSome ↔ count ≤ idealBatchSize)) := by
  have hcount := length_sendBuffer h
  rw [length_junkPackets] at hcount
  rw [← hcount]
  refine ⟨fun hfits => isSome_send (by simpa using hfits), fun hfamily => ?_⟩
  rw [StdNetBind.send, hfamily]
  simp only [Bool.false_eq_true, if_false, Bool.not_true, isSome_map]
  rw [isSome_plainMessages (Nat.zero_le _), length_map, Nat.zero_add]

theorem burst_fits_three :
    ((⟨⟨false, true, true⟩, ⟨false, true, true⟩⟩ : StdNetBind).send false (fun _ _ => .ok)
      ([[7], [7], [1, 2, 3]].map Buf.made)).isSome :=
  (burst_fits 100 (fun _ _ => ⟨fun _ => 0, 0⟩) [none] ⟨2, 1, 1⟩ (fun _ => 0) (fun _ _ => 7) [1, 2, 3]
    [[7], [7], [1, 2, 3]] rfl ⟨⟨false, true, true⟩, ⟨false, true, true⟩⟩ false fun _ _ => .ok).1 (by decide)

theorem burst_overruns :
    let run := ipcSetOperation newDevice
      ⟨[⟨"jc=200".toList, .ok ()⟩, ⟨"jmin=1".toList, .ok ()⟩, ⟨"jmax=1".toList, .ok ()⟩], false⟩
    let bufs := (junkPackets run.1.junk (fun _ => 0) fun _ _ => 0) ++ [List.replicate 148 0]
    run.2.isOk = true ∧
    sendBuffer (2 ^ 47) (fun _ _ => ⟨fun _ => 0, 0⟩) [] (junkPackets run.1.junk (fun _ => 0) fun _ _ => 0)
      (List.replicate 148 0) = some bufs ∧
    ∀ offload : Bool, ((⟨⟨false, true, offload⟩, ⟨false, true, offload⟩⟩ : StdNetBind).send false
      (fun _ _ => .ok) (bufs.map Buf.made)).isSome = false := by
  decide +kernel

end StarlingWg.Conn
