import StarlingWg.Buffer.Lines
import StarlingWg.Uapi.RoundTrip

namespace StarlingWg.Uapi

open Buffer List
open StarlingWg.Device (IpcSetDevice IpcCode IpcError maxScanTokenSize dropCR unlines)

-- ipc.IpcErrorIO and its kin.
def errorCode : IpcCode → Int
  | .io => -5
  | .protocol => -71
  | .invalid => -22
  | .portInUse => -98
  | .unknown => -55

def status (err : Option IpcError) : List Char :=
  "errno=".toList ++ signed (err.elim 0 fun e => errorCode e.code) ++ "\n\n".toList

-- bufio's startBufSize.
def startBufSize : Nat := 4096

theorem startBufSize_pos : 0 < startBufSize := by decide

theorem startBufSize_le : startBufSize ≤ maxScanTokenSize := by decide

namespace Device

variable {E : Type} (p : Platform E)

-- IpcSetOperation on a reader: the scanner is its own, and what it has read
-- ahead of the operation's last line is gone with it.
def ipcSetScanning : Nat → (Nat → Answers) → Device E → IpcSetDevice → Option IpcSetPeer →
    Scanner Char → List (List Char) → (Device E × Option IpcError) × List (List Char)
  | 0, _, d, staged, peer, _, stream => (d.finish staged peer false, stream)
  | rounds + 1, answer, d, staged, peer, scanner, stream =>
    match scanner.scan '\n' startBufSize maxScanTokenSize (stream.flatten.length + 1) stream with
    | .stop tooLong stream => (d.finish staged peer tooLong, stream)
    | .line text scanner stream =>
      match d.lineStep p staged peer ⟨dropCR text, answer 0⟩ with
      | .inr result => (result, stream)
      | .inl (d, staged, peer) =>
        ipcSetScanning rounds (fun i => answer (i + 1)) d staged peer scanner stream

-- The device and the replies after the connection. `answers` says what the
-- surroundings answer to each line of each operation.
def ipcHandleLoop : Nat → (Nat → Nat → Answers) → Device E → List (List Char) →
    Device E × List (List Char)
  | 0, _, d, _ => (d, [])
  | rounds + 1, answers, d, stream =>
    let next (reply : List Char) (d : Device E) (stream : List (List Char)) :=
      let (d, replies) := ipcHandleLoop rounds (fun i => answers (i + 1)) d stream
      (d, reply :: replies)
    match readString '\n' stream with
    | none => (d, [])
    | some (op, stream) =>
      if op = "set=1\n".toList then
        let ((d, err), stream) := d.ipcSetScanning p (stream.flatten.length + 1) (answers 0)
          (.fromDevice d.settings) none {} stream
        next (status err) d stream
      else if op = "get=1\n".toList then
        match readByte stream with
        | none => (d, [])
        | some (nextByte, stream) =>
          if nextByte ≠ '\n' then
            next (status (some ⟨.invalid, "trailing character in UAPI get: " ++
              String.singleton nextByte, none⟩)) d stream
          else next (d.ipcGetOperation p (answers 0 0).range ++ status none) d stream
      else (d, [])

def ipcHandle (answers : Nat → Nat → Answers) (d : Device E) (reads : List (List Char)) :
    Device E × List (List Char) :=
  d.ipcHandleLoop p (reads.flatten.length + 1) answers reads

end Device

inductive Operation
  | get
  | set (lines : List (List Char))

namespace Operation

variable {E : Type} (p : Platform E)

def text : Operation → List Char
  | .get => "get=1\n\n".toList
  | .set lines => "set=1\n".toList ++ unlines (lines ++ [[]])

theorem length_text (lines : List (List Char)) :
    (Operation.set lines).text.length = 6 + (unlines (lines ++ [[]])).length :=
  length_append

def WellFormed : Operation → Prop
  | .get => True
  | .set lines => ∀ line ∈ lines, '=' ∈ line ∧ '\n' ∉ line

def run (answer : Nat → Answers) (d : Device E) : Operation → Device E × Option IpcError × List Char
  | .get => (d, none, d.ipcGetOperation p (answer 0).range ++ status none)
  | .set lines =>
    let (d, err) := d.ipcSetOperation p
      ⟨(lines ++ [[]]).mapIdx fun i line => ⟨dropCR line, answer i⟩, false⟩
    (d, err, status err)

def runs (answers : Nat → Nat → Answers) (d : Device E) : List Operation → Device E × List (List Char)
  | [] => (d, [])
  | op :: ops =>
    let (d, _, reply) := op.run p (answers 0) d
    let (d, replies) := runs (fun i => answers (i + 1)) d ops
    (d, reply :: replies)

-- The reads of a set have no bytes of another operation. A line fits the
-- scanner, and a refused operation comes in one read.
structure Arrives (answer : Nat → Answers) (d : Device E) (lines : List (List Char))
    (reads : List (List Char)) : Prop where
  whole : reads.flatten = (set lines).text
  short : ∀ line ∈ lines, line.length < maxScanTokenSize
  refused : ((set lines).run p answer d).2.1 = none ∨
    reads = [(set lines).text] ∧ (set lines).text.length ≤ startBufSize

-- What comes behind a get may come with it.
def Delivered (answers : Nat → Nat → Answers) (d : Device E) : List Operation → List (List Char) → Prop
  | [], reads => reads = []
  | .get :: ops, reads => get.text <+: reads.flatten ∧
      Delivered (fun i => answers (i + 1)) d ops (skip get.text.length reads)
  | .set lines :: ops, reads => ∃ own later, reads = own ++ later ∧ Arrives p (answers 0) d lines own ∧
      Delivered (fun i => answers (i + 1)) ((set lines).run p (answers 0) d).1 ops later

def separately (answers : Nat → Nat → Answers) (d : Device E) :
    List Operation → Device E × List (List Char)
  | [] => (d, [])
  | op :: ops =>
    let (d, replies) := d.ipcHandle p answers [op.text]
    let (d, later) := separately (fun i => answers (i + 1)) d ops
    (d, replies ++ later)

end Operation

namespace Device

section

variable {E : Type} {p : Platform E} {answer : Nat → Answers} {d : Device E} {staged : IpcSetDevice}
  {peer : Option IpcSetPeer}

theorem dropCR_ne_nil {line : List Char} (h : '=' ∈ line) : dropCR line ≠ [] := by
  intro hnil
  unfold dropCR at hnil
  split at hnil
  · next hlast =>
      obtain ⟨init, rfl⟩ := List.getLast?_eq_some_iff.mp hlast
      simp_all
  · simp_all

theorem ipcSetScanning_lines {lines own later : List (List Char)} {s : Scanner Char}
    (hs : s.Valid maxScanTokenSize) (h : s.data ++ own.flatten = unlines (lines ++ [[]]))
    (hne : [] ∉ own) (hlines : ∀ line ∈ lines, '=' ∈ line ∧ '\n' ∉ line)
    (hshort : ∀ line ∈ lines, line.length < maxScanTokenSize) {rounds : Nat}
    (hrounds : lines.length < rounds)
    (hrefused : (ipcSetLines p false d staged peer
        ((lines ++ [[]]).mapIdx fun i line => ⟨dropCR line, answer i⟩)).2 = none ∨ own = [] ∨
      s.size = 0 ∧ own.length ≤ 1 ∧ own.flatten.length ≤ startBufSize) :
    ipcSetScanning p rounds answer d staged peer s (own ++ later) =
      (ipcSetLines p false d staged peer
        ((lines ++ [[]]).mapIdx fun i line => ⟨dropCR line, answer i⟩), later) := by
  -- the scanner has the fuel for what has arrived, whatever follows it
  have hbytes (own : List (List Char)) :
      own.flatten.length < (own ++ later).flatten.length + 1 := by
    rw [flatten_append, length_append]
    omega
  induction lines generalizing rounds answer d staged peer s own with
  | nil =>
    obtain ⟨rounds, rfl⟩ := Nat.exists_eq_add_one.mpr hrounds
    obtain ⟨s', own', hscan, -, hrest, hne', -⟩ := Scanner.scan_line later hs
      startBufSize_pos startBufSize_le not_mem_nil (by decide) h hne (hbytes own)
    obtain rfl := eq_nil_of_flatten (append_eq_nil_iff.mp hrest).2 hne'
    rw [ipcSetScanning, hscan]
    rfl
  | cons line lines ih =>
    obtain ⟨rounds, rfl⟩ := Nat.exists_eq_add_one.mpr (Nat.zero_lt_of_lt hrounds)
    rw [forall_mem_cons] at hlines hshort
    have htext : s.data ++ own.flatten = line ++ '\n' :: unlines (lines ++ [[]]) := by
      rw [h]
      simp [unlines]
    obtain ⟨s', own', hscan, hs', hrest, hne', hle, hfresh⟩ := Scanner.scan_line later hs
      startBufSize_pos startBufSize_le hlines.1.2 hshort.1 htext hne (hbytes own)
    have hnone : own = [] ∨ s.size = 0 ∧ own.length ≤ 1 ∧ own.flatten.length ≤ startBufSize →
        own' = [] := by
      rintro (rfl | ⟨h0, h1, h2⟩)
      · exact eq_nil_of_length_eq_zero (Nat.le_zero.mp hle)
      · exact hfresh h0 h1 h2
    rw [cons_append, mapIdx_cons, ipcSetLines] at hrefused ⊢
    rw [ipcSetScanning, hscan]
    dsimp only
    cases hstep : d.lineStep p staged peer ⟨dropCR line, answer 0⟩ with
    | inr result =>
      rw [hstep] at hrefused
      rw [hnone (hrefused.resolve_left (lineStep_error (dropCR_ne_nil hlines.1.1) hstep))]
      rfl
    | inl next =>
      rw [hstep] at hrefused
      exact ih hs' hrest hne' hlines.2 hshort.2 (Nat.lt_of_succ_lt_succ hrounds)
        (hrefused.imp_right fun hown => .inl (hnone hown))

end

section

variable {E : Type} {p : Platform E} {answers : Nat → Nat → Answers} {d : Device E}
  {ops : List Operation} {reads : List (List Char)}

theorem length_le_unlines (lines : List (List Char)) : lines.length ≤ (unlines lines).length := by
  induction lines with
  | nil => exact Nat.le_refl _
  | cons line lines ih =>
    have hcons : unlines (line :: lines) = line ++ ['\n'] ++ unlines lines := rfl
    rw [hcons, length_append, length_append, length_cons, length_singleton]
    omega

theorem ipcHandleLoop_get (hne : [] ∉ reads) (h : Operation.get.text <+: reads.flatten) (rounds : Nat) :
    d.ipcHandleLoop p (rounds + 1) answers reads =
      let rest := d.ipcHandleLoop p rounds (fun i => answers (i + 1)) (skip Operation.get.text.length reads)
      (rest.1, (Operation.get.run p (answers 0) d).2.2 :: rest.2) := by
  obtain ⟨rest, hrest⟩ := h
  have hread : readString '\n' reads = some ("get=1\n".toList, skip 6 reads) := by
    have hline := readString_line [] (by decide)
      (show reads.flatten = "get=1".toList ++ '\n' :: '\n' :: rest from hrest.symm) hne
    rwa [append_nil, append_nil] at hline
  have hbyte : readByte (skip 6 reads) = some ('\n', skip 7 reads) := by
    rw [← skip_skip 1 6]
    refine readByte_skip (nil_notMem_skip 6 hne) (?_ : _ = _ :: rest)
    rw [flatten_skip, ← hrest]
    rfl
  rw [ipcHandleLoop, hread]
  dsimp only
  rw [if_neg (by decide), if_pos rfl, hbyte]
  rfl

theorem ipcHandleLoop_set {lines own : List (List Char)} (hop : (Operation.set lines).WellFormed)
    (hne : [] ∉ own) (h : Operation.Arrives p (answers 0) d lines own) (rounds : Nat)
    (later : List (List Char)) :
    d.ipcHandleLoop p (rounds + 1) answers (own ++ later) =
      let run := (Operation.set lines).run p (answers 0) d
      let rest := run.1.ipcHandleLoop p rounds (fun i => answers (i + 1)) later
      (rest.1, run.2.2 :: rest.2) := by
  have htext : own.flatten = "set=1".toList ++ '\n' :: unlines (lines ++ [[]]) := h.whole
  have hread : readString '\n' (own ++ later) = some ("set=1\n".toList, skip 6 own ++ later) :=
    readString_line later (by decide) htext hne
  have hflat : (skip 6 own).flatten = unlines (lines ++ [[]]) := by
    rw [flatten_skip, htext]
    rfl
  have hrounds : lines.length < (skip 6 own ++ later).flatten.length + 1 := by
    rw [flatten_append, length_append, hflat]
    have := length_le_unlines (lines ++ [[]])
    rw [length_append] at this
    omega
  have hfresh : own = [(Operation.set lines).text] ∧
      (Operation.set lines).text.length ≤ startBufSize →
      ({} : Scanner Char).size = 0 ∧ (skip 6 own).length ≤ 1 ∧
        (skip 6 own).flatten.length ≤ startBufSize := by
    rintro ⟨rfl, hsize⟩
    rw [Operation.length_text] at hsize
    exact ⟨rfl, length_skip_le 6, hflat ▸ Nat.le_of_add_left_le hsize⟩
  have hnew : ({} : Scanner Char).Valid maxScanTokenSize := ⟨Nat.le_refl _, Nat.zero_le _⟩
  rw [ipcHandleLoop, hread]
  dsimp only
  rw [if_pos rfl, ipcSetScanning_lines hnew hflat (nil_notMem_skip 6 hne) hop h.short hrounds
    (h.refused.imp_right fun hone => .inr (hfresh hone))]
  rfl

theorem ipcHandleLoop_delivered (hne : [] ∉ reads) (hwell : ∀ op ∈ ops, op.WellFormed)
    (h : Operation.Delivered p answers d ops reads) {rounds : Nat} (hrounds : ops.length ≤ rounds) :
    d.ipcHandleLoop p rounds answers reads = Operation.runs p answers d ops := by
  induction ops generalizing answers d rounds reads with
  | nil =>
    obtain rfl : reads = [] := h
    cases rounds <;> rfl
  | cons op ops ih =>
    obtain ⟨rounds, rfl⟩ := Nat.exists_eq_add_one.mpr (Nat.zero_lt_of_lt hrounds)
    rw [forall_mem_cons] at hwell
    have hrest := Nat.le_of_succ_le_succ hrounds
    cases op with
    | get =>
      rw [ipcHandleLoop_get hne h.1]
      dsimp only
      rw [ih (nil_notMem_skip _ hne) hwell.2 h.2 hrest]
      rfl
    | set lines =>
      obtain ⟨own, later, rfl, harrives, h⟩ := h
      rw [mem_append, not_or] at hne
      rw [ipcHandleLoop_set hwell.1 hne.1 harrives]
      dsimp only
      rw [ih hne.2 hwell.2 h hrest]
      rfl

theorem length_le_bytes (h : Operation.Delivered p answers d ops reads) :
    ops.length ≤ reads.flatten.length := by
  induction ops generalizing answers d reads with
  | nil => exact Nat.zero_le _
  | cons op ops ih =>
    rw [length_cons]
    cases op with
    | get =>
      have hprefix := h.1.length_le
      have hrest := ih h.2
      rw [flatten_skip, length_drop] at hrest
      have : Operation.get.text.length = 7 := rfl
      omega
    | set lines =>
      obtain ⟨own, later, rfl, harrives, h⟩ := h
      have hrest := ih h
      rw [flatten_append, length_append, harrives.whole, Operation.length_text]
      omega

theorem ipcHandle_delivered (hne : [] ∉ reads) (hwell : ∀ op ∈ ops, op.WellFormed)
    (h : Operation.Delivered p answers d ops reads) :
    d.ipcHandle p answers reads = Operation.runs p answers d ops :=
  ipcHandleLoop_delivered hne hwell h (Nat.le_succ_of_le (length_le_bytes h))

theorem delivered_single {op : Operation} (h : Operation.Delivered p answers d (op :: ops) reads) :
    Operation.Delivered p answers d [op] [op.text] ∧ ∃ later,
      Operation.Delivered p (fun i => answers (i + 1)) (op.run p (answers 0) d).1 ops later := by
  cases op with
  | get => exact ⟨⟨⟨[], rfl⟩, rfl⟩, _, h.2⟩
  | set lines =>
    obtain ⟨own, later, rfl, harrives, h⟩ := h
    refine ⟨⟨[_], [], rfl, ⟨append_nil _, harrives.short, ?_⟩, rfl⟩, later, h⟩
    exact harrives.refused.imp_right fun hone => ⟨rfl, hone.2⟩

theorem separately_delivered (hwell : ∀ op ∈ ops, op.WellFormed)
    (h : Operation.Delivered p answers d ops reads) :
    Operation.separately p answers d ops = Operation.runs p answers d ops := by
  induction ops generalizing answers d reads with
  | nil => rfl
  | cons op ops ih =>
    rw [forall_mem_cons] at hwell
    obtain ⟨hsingle, later, h⟩ := delivered_single h
    have htext : [] ∉ [op.text] := by cases op <;> simp [Operation.text]
    rw [Operation.separately, ipcHandle_delivered htext (forall_mem_singleton.mpr hwell.1) hsingle]
    dsimp only [Operation.runs]
    rw [ih hwell.2 h]
    rfl

-- The scanner of a set takes what has come with it, so each set is alone in
-- its reads; a get leaves the rest of a read to the operations behind it.
theorem ipcHandle_independent_of_reads (p : Platform E) (answers : Nat → Nat → Answers) (d : Device E)
    (ops : List Operation) (reads : List (List Char)) (hne : [] ∉ reads)
    (hwell : ∀ op ∈ ops, op.WellFormed) (h : Operation.Delivered p answers d ops reads) :
    d.ipcHandle p answers reads = Operation.runs p answers d ops ∧
    Operation.separately p answers d ops = Operation.runs p answers d ops :=
  ⟨ipcHandle_delivered hne hwell h, separately_delivered hwell h⟩

theorem ipcHandle_independent_of_reads_two :
    let answers : Nat → Nat → Answers := fun _ _ => .calm
    let ops : List Operation := [.set ["jc=3".toList], .get, .get, .set []]
    (newDevice Unit).ipcHandle samplePlatform answers
        ["set=1\njc".toList, "=3\n\n".toList, "get=".toList, "1\n\nget=1\n\nset=1\n\n".toList] =
      Operation.runs samplePlatform answers (newDevice Unit) ops := by
  intro answers ops
  refine (ipcHandle_independent_of_reads samplePlatform answers (newDevice Unit) ops _ (by decide)
    (by simp [ops, Operation.WellFormed]) ⟨["set=1\njc".toList, "=3\n\n".toList], _, rfl, ?_, ?_⟩).1
  · exact ⟨rfl, by decide +kernel, .inl (by decide +kernel)⟩
  · exact ⟨by decide, by decide, ["set=1\n\n".toList], [], rfl, ⟨rfl, by decide, .inl (by decide +kernel)⟩, rfl⟩

-- A get that comes with the end of a set is lost in the scanner, and the rest
-- of a refused set is taken for an operation.
theorem set_reads_ahead :
    let answers : Nat → Nat → Answers := fun _ _ => .calm
    let replies (reads : List (List Char)) :=
      ((newDevice Unit).ipcHandle samplePlatform answers reads).2.length
    let due (ops : List Operation) := (Operation.runs samplePlatform answers (newDevice Unit) ops).2.length
    replies ["set=1\n\nget=1\n\n".toList] = 1 ∧ due [.set [], .get] = 2 ∧
    replies ["set=1\njc=x\n".toList, "\n".toList, "get=1\n\n".toList] = 1 ∧
      due [.set ["jc=x".toList], .get] = 2 := by
  decide +kernel

end

end Device

end StarlingWg.Uapi
