import StarlingWg.Device.Config

namespace StarlingWg.Device

open List

-- bufio.MaxScanTokenSize.
def maxScanTokenSize : Nat := 64 * 1024

def dropCR (line : List Char) : List Char :=
  if line.getLast? = some '\r' then line.dropLast else line

-- bufio.ScanLines over what stands between the newlines. A line that fills the
-- buffer ends the scan with an error; after the last newline there is no line.
def scan : List (List Char) → List (List Char) × Bool
  | [] => ([], false)
  | [last] =>
    if last = [] then ([], false)
    else if maxScanTokenSize ≤ last.length then ([], true)
    else ([dropCR last], false)
  | line :: rest =>
    if maxScanTokenSize ≤ line.length then ([], true)
    else (dropCR line :: (scan rest).1, (scan rest).2)

-- A text is a sequence of bytes, each of which stands as the character of its code.
def scanLines (text : List Char) : List (List Char) × Bool :=
  scan (text.splitOn '\n')

def ipcSet (device : Settings) (outside : List Char → Except IpcError Unit) (text : List Char) :
    Settings × Except IpcError Unit :=
  ipcSetOperation device
    ⟨(scanLines text).1.map fun line => ⟨line, outside line⟩, (scanLines text).2⟩

def unlines (lines : List (List Char)) : List Char :=
  lines.flatMap fun line => line ++ ['\n']

theorem splitOn_unlines {lines : List (List Char)} (h : ∀ line ∈ lines, '\n' ∉ line) :
    (unlines lines).splitOn '\n' = lines ++ [[]] := by
  induction lines with
  | nil => rfl
  | cons line lines ih =>
    rw [forall_mem_cons] at h
    have hne : ∀ c ∈ line, (c == '\n') = false := by
      intro c hc
      rw [beq_eq_false_iff_ne]
      rintro rfl
      exact h.1 hc
    rw [unlines, flatMap_cons, append_assoc, List.splitOn, singleton_append,
      splitOnP_append_cons_of_forall_mem hne _ (by decide)]
    exact congrArg (line :: ·) (ih h.2)

theorem scan_lines (lines : List (List Char)) : scan (lines ++ [[]]) =
    if ∀ line ∈ lines, line.length < maxScanTokenSize then (lines.map dropCR, false)
    else ((lines.takeWhile fun line => line.length < maxScanTokenSize).map dropCR, true) := by
  induction lines with
  | nil => rfl
  | cons line lines ih =>
    have hstep : scan (line :: lines ++ [[]]) =
        if maxScanTokenSize ≤ line.length then ([], true)
        else (dropCR line :: (scan (lines ++ [[]])).1, (scan (lines ++ [[]])).2) := by
      cases lines <;> rfl
    rw [hstep]
    by_cases hline : line.length < maxScanTokenSize
    · rw [if_neg (Nat.not_le.mpr hline), ih]
      simp only [forall_mem_cons, hline, true_and, takeWhile_cons, decide_true, ↓reduceIte,
        map_cons]
      split <;> rfl
    · rw [if_pos (Nat.not_lt.mp hline)]
      simp [hline]

structure Entry where
  key : String
  value : List Char
  outside : Except IpcError Unit

def Entry.line (e : Entry) : Line :=
  ⟨e.key.toList ++ '=' :: e.value, e.outside⟩

structure Entry.Proper (e : Entry) : Prop where
  key : '=' ∉ e.key.toList
  device : e.key ≠ "public_key"

def stageLines (staged : Staged) : List Entry → Except IpcError Staged
  | [] => .ok staged
  | e :: rest =>
    match handleDeviceLine staged e.key e.value e.outside with
    | .error err => .error err
    | .ok next => stageLines next rest

theorem cut_append {key value : List Char} (h : '=' ∉ key) :
    cut (key ++ '=' :: value) = some (key, value) := by
  induction key with
  | nil => rfl
  | cons c key ih =>
    rw [mem_cons, not_or] at h
    have hc : c ≠ '=' := fun heq => h.1 heq.symm
    rw [cons_append, cut, ih h.2]
    · rfl
    · exact hc

section

variable {e : Entry} {readError : Bool} {staged next : Staged} {lines : List Line}

theorem ipcSetLines_entry (h : e.Proper)
    (hline : handleDeviceLine staged e.key e.value e.outside = .ok next) :
    ipcSetLines readError staged true (e.line :: lines) = ipcSetLines readError next true lines := by
  have htext : e.line.text ≠ [] := by simp [Entry.line]
  rw [ipcSetLines, if_neg htext]
  simp only [Entry.line, cut_append h.key, String.ofList_toList, if_neg h.device, ↓reduceIte, hline]

theorem ipcSetLines_entry_error {err : IpcError} (h : e.Proper)
    (hline : handleDeviceLine staged e.key e.value e.outside = .error err) :
    ipcSetLines readError staged true (e.line :: lines) = (staged.1, .error err) := by
  have htext : e.line.text ≠ [] := by simp [Entry.line]
  rw [ipcSetLines, if_neg htext]
  simp only [Entry.line, cut_append h.key, String.ofList_toList, if_neg h.device, ↓reduceIte, hline]

end

theorem ipcSetLines_of_staged {entries : List Entry} {staged next : Staged} (readError : Bool)
    (h : ∀ e ∈ entries, e.Proper) (hstage : stageLines staged entries = .ok next) :
    ipcSetLines readError staged true (entries.map Entry.line) = finish next readError := by
  induction entries generalizing staged with
  | nil =>
    rw [← Except.ok.inj hstage]
    rfl
  | cons e entries ih =>
    rw [forall_mem_cons] at h
    unfold stageLines at hstage
    split at hstage
    · simp at hstage
    · next mid hline =>
        rw [map_cons, ipcSetLines_entry h.1 hline]
        exact ih h.2 hstage

theorem staged_of_ipcSetLines {entries : List Entry} {staged : Staged} {readError : Bool}
    (h : ∀ e ∈ entries, e.Proper)
    (hok : (ipcSetLines readError staged true (entries.map Entry.line)).2 = .ok ()) :
    ∃ next, stageLines staged entries = .ok next := by
  induction entries generalizing staged with
  | nil => exact ⟨staged, rfl⟩
  | cons e entries ih =>
    rw [forall_mem_cons] at h
    rw [map_cons] at hok
    unfold stageLines
    split
    · next err hline =>
        rw [ipcSetLines_entry_error h.1 hline] at hok
        simp at hok
    · next mid hline =>
        rw [ipcSetLines_entry h.1 hline] at hok
        exact ih h.2 hok

section

def sharedKeys : List String :=
  ["s1", "s2", "s3", "s4", "h1", "h2", "h3", "h4", "header_protection_key"]

variable {staged next other : Staged} {key : String} {value : List Char}
  {outside : Except IpcError Unit}

theorem handleDeviceLine_unshared (hkey : key ∉ sharedKeys)
    (h : handleDeviceLine staged key value outside = .ok next) : next.2 = staged.2 := by
  unfold handleDeviceLine at h
  split at h
  -- the lines about the rest of the device
  iterate 9
    · cases outside with
      | error err => simp [Except.map] at h
      | ok _ => rw [← Except.ok.inj h]
  iterate 3
    · obtain ⟨n, -, hnext⟩ := bind_ok h
      exact (congrArg Prod.snd (Except.ok.inj hnext)).symm
  iterate 9 exact absurd (by decide) hkey
  iterate 6
    · obtain ⟨r, -, hnext⟩ := bind_ok h
      exact (congrArg Prod.snd (Except.ok.inj hnext)).symm
  · simp at h

theorem handleDeviceLine_shared (outside' : Except IpcError Unit) (hkey : key ∈ sharedKeys)
    (hother : other.2 = staged.2) (h : handleDeviceLine staged key value outside = .ok next) :
    ∃ next', handleDeviceLine other key value outside' = .ok next' ∧ next'.2 = next.2 := by
  obtain ⟨device, d⟩ := staged
  obtain ⟨device', d'⟩ := other
  obtain rfl : d' = d := hother
  simp only [sharedKeys, mem_cons, not_mem_nil, or_false] at hkey
  rcases hkey with rfl | rfl | rfl | rfl | rfl | rfl | rfl | rfl | rfl <;>
  · obtain ⟨v, hv, hnext⟩ := bind_ok h
    rw [← Except.ok.inj hnext]
    exact ⟨_, congrArg (· >>= _) hv, rfl⟩

theorem stageLines_shared {entries : List Entry} (answer : Entry → Except IpcError Unit)
    (hother : other.2 = staged.2) (h : stageLines staged entries = .ok next) :
    ∃ next', stageLines other ((entries.filter fun e => e.key ∈ sharedKeys).map fun e =>
      { e with outside := answer e }) = .ok next' ∧ next'.2 = next.2 := by
  induction entries generalizing staged other with
  | nil =>
    rw [← Except.ok.inj h]
    exact ⟨other, rfl, hother⟩
  | cons e entries ih =>
    unfold stageLines at h
    split at h
    · simp at h
    next mid hline =>
    by_cases hkey : e.key ∈ sharedKeys
    · obtain ⟨mid', hline', hmid⟩ := handleDeviceLine_shared (answer e) hkey hother hline
      obtain ⟨next', hstage, hnext⟩ := ih hmid h
      refine ⟨next', ?_, hnext⟩
      rw [filter_cons_of_pos (by simpa using hkey), map_cons, stageLines]
      rw [hline']
      exact hstage
    · rw [filter_cons_of_neg (by simpa using hkey)]
      exact ih (hother.trans (handleDeviceLine_unshared hkey hline).symm) h

theorem mergeWithDevice_ok {d : IpcSetDevice} {device device' : Settings}
    (h : d.mergeWithDevice device = (device', .ok ())) :
    device'.headers = d.headers ∧ device'.paddings = d.paddings ∧
      device'.headerProtectionKey = d.headerProtectionKey ∧
      ∀ fresh, (d.mergeWithDevice fresh).2 = .ok () := by
  unfold IpcSetDevice.mergeWithDevice at h ⊢
  split at h
  · simp at h
  next hoverlap =>
  split at h
  · simp at h
  next hpaddings =>
  obtain ⟨rfl, -⟩ := Prod.mk.inj h
  refine ⟨rfl, rfl, rfl, fun fresh => ?_⟩
  rw [if_neg hoverlap]

theorem finish_ok {readError : Bool} (h : (finish staged readError).2 = .ok ()) :
    readError = false ∧ ∃ device, staged.2.mergeWithDevice staged.1 = (device, .ok ()) ∧
      (finish staged readError).1 = device := by
  unfold finish at h ⊢
  split at h
  · next device _ hmerge =>
      cases readError with
      | true => simp at h
      | false =>
        rw [hmerge]
        exact ⟨rfl, device, rfl, rfl⟩
  · simp at h

theorem finish_shared {readError : Bool} (h : (finish staged readError).2 = .ok ())
    (hother : other.2 = staged.2) :
    (finish other false).2 = .ok () ∧
      (finish other false).1.headers = (finish staged readError).1.headers ∧
      (finish other false).1.paddings = (finish staged readError).1.paddings ∧
      (finish other false).1.headerProtectionKey =
        (finish staged readError).1.headerProtectionKey := by
  obtain ⟨-, device, hmerge, hdevice⟩ := finish_ok h
  obtain ⟨hheaders, hpaddings, hkey, hall⟩ := mergeWithDevice_ok hmerge
  obtain ⟨device', hmerge'⟩ : ∃ device', other.2.mergeWithDevice other.1 = (device', .ok ()) :=
    ⟨_, Prod.ext rfl (hother ▸ hall other.1)⟩
  obtain ⟨hheaders', hpaddings', hkey', -⟩ := mergeWithDevice_ok hmerge'
  have hfinish : finish other false = (device', .ok ()) := by
    unfold finish
    rw [hmerge']
    rfl
  rw [hfinish, hdevice, hheaders, hpaddings, hkey, hheaders', hpaddings', hkey', hother]
  exact ⟨rfl, rfl, rfl, rfl⟩

end

end StarlingWg.Device
