import Mathlib.Data.List.TakeWhile

namespace StarlingWg.Buffer

open List

variable {α : Type}

-- A stream as a buffered reader has it: what is left of the read before, and
-- what each coming read finds. No piece is empty.
def push (rest : List α) (stream : List (List α)) : List (List α) :=
  if rest = [] then stream else rest :: stream

-- bufio.Reader.Read.
def readSome (room : Nat) : List (List α) → Option (List α × List (List α))
  | [] => none
  | piece :: stream => some (piece.take room, push (piece.drop room) stream)

def readByte : List (List α) → Option (α × List (List α))
  | [] => none
  | [] :: stream => readByte stream
  | (byte :: rest) :: stream => some (byte, push rest stream)

def readString [DecidableEq α] (delim : α) : List (List α) → Option (List α × List (List α))
  | [] => none
  | piece :: stream =>
    match piece.dropWhile (· ≠ delim) with
    | [] => (readString delim stream).map fun found => (piece ++ found.1, found.2)
    | _ :: rest => some (piece.takeWhile (· ≠ delim) ++ [delim], push rest stream)

-- The stream without its first bytes.
def skip : Nat → List (List α) → List (List α)
  | _, [] => []
  | n, piece :: stream =>
    if piece.length ≤ n then skip (n - piece.length) stream else piece.drop n :: stream

-- bufio.Scanner: the size of its buffer, and the unread bytes from `start` on.
structure Scanner (α : Type) where
  size : Nat := 0
  start : Nat := 0
  data : List α := []

inductive Scanned (α : Type)
  | line (text : List α) (scanner : Scanner α) (stream : List (List α))
  | stop (tooLong : Bool) (stream : List (List α))

namespace Scanner

def room (s : Scanner α) : Nat :=
  s.size - (s.start + s.data.length)

def shift (s : Scanner α) : Scanner α :=
  if 0 < s.start ∧ (s.start + s.data.length = s.size ∨ s.size / 2 < s.start) then
    { s with start := 0 }
  else s

def grow (first limit : Nat) (s : Scanner α) : Option (Scanner α) :=
  if s.start + s.data.length = s.size then
    if limit ≤ s.size then none
    else some ⟨min (if s.size = 0 then first else s.size * 2) limit, 0, s.data⟩
  else some s

-- bufio.Scanner.Scan: every round but the last reads from the stream, so as
-- many rounds as there are bytes are enough.
def scan [DecidableEq α] (delim : α) (first limit : Nat) : Nat → Scanner α → List (List α) → Scanned α
  | 0, _, stream => .stop false stream
  | rounds + 1, s, stream =>
    match s.data.dropWhile (· ≠ delim) with
    | _ :: rest =>
      let text := s.data.takeWhile (· ≠ delim)
      .line text { s with start := s.start + text.length + 1, data := rest } stream
    | [] =>
      match s.shift.grow first limit with
      | none => .stop true stream
      | some s =>
        match readSome s.room stream with
        | some (got, stream) => scan delim first limit rounds { s with data := s.data ++ got } stream
        | none =>
          if s.data = [] then .stop false stream
          else .line s.data { s with start := s.start + s.data.length, data := [] } stream

structure Valid (limit : Nat) (s : Scanner α) : Prop where
  fits : s.start + s.data.length ≤ s.size
  size : s.size ≤ limit

end Scanner

section

variable {rest : List α} {stream later : List (List α)}

theorem flatten_push : (push rest stream).flatten = rest ++ stream.flatten := by
  unfold push
  split <;> simp_all

theorem push_append : push rest (stream ++ later) = push rest stream ++ later := by
  unfold push
  split <;> rfl

theorem nil_notMem_push (h : [] ∉ stream) : [] ∉ push rest stream := by
  unfold push
  split
  · exact h
  · next hrest => simpa [h] using Ne.symm hrest

theorem length_push_le : (push rest stream).length ≤ stream.length + 1 := by
  unfold push
  split <;> simp

theorem eq_nil_of_flatten (h : stream.flatten = []) (hne : [] ∉ stream) : stream = [] := by
  cases stream with
  | nil => rfl
  | cons piece stream => simp_all

theorem flatten_skip (n : Nat) : (skip n stream).flatten = stream.flatten.drop n := by
  fun_induction skip n stream with
  | case1 => simp
  | case2 n piece stream hle ih => rw [ih, flatten_cons, drop_append, drop_of_length_le hle, nil_append]
  | case3 n piece stream hlt =>
    rw [flatten_cons, flatten_cons, drop_append, Nat.sub_eq_zero_of_le (by omega), drop_zero]

theorem nil_notMem_skip (n : Nat) (h : [] ∉ stream) : [] ∉ skip n stream := by
  fun_induction skip n stream with
  | case1 => exact h
  | case2 n piece stream hle ih => exact ih fun hmem => h (mem_cons_of_mem _ hmem)
  | case3 n piece stream hlt =>
    rw [mem_cons, not_or] at h ⊢
    exact ⟨fun hnil => hlt (drop_eq_nil_iff.mp hnil.symm), h.2⟩

theorem length_skip_le (n : Nat) : (skip n stream).length ≤ stream.length := by
  fun_induction skip n stream with
  | case1 => exact Nat.le_refl _
  | case2 n piece stream hle ih => exact Nat.le_succ_of_le ih
  | case3 n piece stream hlt => exact Nat.le_refl _

theorem skip_zero (h : [] ∉ stream) : skip 0 stream = stream := by
  cases stream with
  | nil => rfl
  | cons piece stream =>
    rw [mem_cons, not_or] at h
    rw [skip, if_neg fun hle => h.1 (eq_nil_of_length_eq_zero (Nat.le_zero.mp hle)).symm, drop_zero]

theorem skip_skip (m n : Nat) : skip m (skip n stream) = skip (n + m) stream := by
  fun_induction skip n stream with
  | case1 => rfl
  | case2 n piece stream hle ih => rw [ih, skip, if_pos (by omega), Nat.sub_add_comm hle]
  | case3 n piece stream hlt =>
    rw [skip, skip, length_drop]
    by_cases hle : piece.length ≤ n + m
    · rw [if_pos (by omega), if_pos hle, show m - (piece.length - n) = n + m - piece.length by omega]
    · rw [if_neg (by omega), if_neg hle, drop_drop]

theorem readByte_skip {byte : α} (hne : [] ∉ stream) (h : stream.flatten = byte :: rest) :
    readByte stream = some (byte, skip 1 stream) := by
  rcases stream with _ | ⟨_ | ⟨first, _ | ⟨second, piece⟩⟩, stream⟩
  · cases h
  · exact absurd mem_cons_self hne
  · cases h
    have hstream : skip 0 stream = stream := skip_zero fun hmem => hne (mem_cons_of_mem _ hmem)
    exact congrArg (fun stream => some (byte, stream)) hstream.symm
  · cases h
    rfl

end

section

variable {delim : α} {text rest : List α} {own : List (List α)}

theorem delim_or_part {data more : List α} (h : data ++ more = text ++ delim :: rest) :
    (∃ tail, data = text ++ delim :: tail ∧ tail ++ more = rest) ∨
      ∃ tail, text = data ++ tail ∧ more = tail ++ delim :: rest := by
  rcases append_eq_append_iff.mp h with ⟨tail, hleft, hright⟩ | ⟨tail, hleft, hright⟩
  · exact .inr ⟨tail, hleft, hright⟩
  · cases tail with
    | nil => exact .inr ⟨[], by simpa using hleft.symm, by simpa using hright.symm⟩
    | cons c tail =>
      rw [cons_append, List.cons.injEq] at hright
      obtain ⟨rfl, hright⟩ := hright
      exact .inl ⟨tail, hleft, hright.symm⟩

variable [DecidableEq α]

theorem span_delim (h : delim ∉ text) : (text ++ delim :: rest).takeWhile (· ≠ delim) = text ∧
      (text ++ delim :: rest).dropWhile (· ≠ delim) = delim :: rest := by
  have hall : ∀ a ∈ text, decide (a ≠ delim) = true := by
    intro a ha
    rw [decide_eq_true_eq]
    rintro rfl
    exact h ha
  rw [takeWhile_append_of_pos hall, dropWhile_append_of_pos hall]
  simp

theorem dropWhile_part (htext : delim ∉ text) : text.dropWhile (· ≠ delim) = [] := by
  rw [dropWhile_eq_nil_iff]
  intro a ha
  rw [decide_eq_true_eq]
  rintro rfl
  exact htext ha

theorem readString_line (later : List (List α)) (htext : delim ∉ text)
    (h : own.flatten = text ++ delim :: rest) (hne : [] ∉ own) :
    readString delim (own ++ later) = some (text ++ [delim], skip (text.length + 1) own ++ later) := by
  induction own generalizing text with
  | nil => simp at h
  | cons piece own ih =>
    rw [mem_cons, not_or] at hne
    rcases delim_or_part h with ⟨tail, rfl, htail⟩ | ⟨tail, rfl, hmore⟩
    · have hskip : skip (text.length + 1) ((text ++ delim :: tail) :: own) = push tail own := by
        cases tail with
        | nil => simp [skip, push, skip_zero hne.2]
        | cons c tail => simp [skip, push]
      rw [cons_append, readString, (span_delim htext).1, (span_delim htext).2, hskip, ← push_append]
    · rw [mem_append, not_or] at htext
      rw [cons_append, readString, dropWhile_part htext.1, ih htext.2 hmore hne.2]
      simp [skip, Nat.add_assoc]

end

namespace Scanner

variable {first limit : Nat} {s : Scanner α} {delim : α} {text rest : List α} {own : List (List α)}

theorem Valid.room (h : s.Valid limit) (hfirst : 0 < first) (hdata : s.data.length < limit) :
    ∃ s' : Scanner α, s.shift.grow first limit = some s' ∧ s'.Valid limit ∧ s'.data = s.data ∧
      0 < s'.room ∧ (s.size = 0 → first ≤ limit → s'.room = first) := by
  have hfits := h.fits
  have hsize := h.size
  obtain ⟨hs, hstart⟩ : s.shift.data = s.data ∧ s.shift.size = s.size ∧
      s.shift.start + s.data.length ≤ s.size ∧
      (s.shift.start + s.data.length = s.size → s.shift.start = 0) := by
    unfold Scanner.shift
    split
    · exact ⟨rfl, rfl, by dsimp only; omega, fun _ => rfl⟩
    · exact ⟨rfl, rfl, hfits, fun _ => by omega⟩
  obtain ⟨hsz, hle, hzero⟩ := hstart
  unfold grow
  rw [hs, hsz]
  split
  · next hfull =>
      rw [if_neg (by omega)]
      refine ⟨_, rfl, ⟨?_, Nat.min_le_right ..⟩, rfl, ?_, fun h0 hl => ?_⟩
      · dsimp only
        split <;> omega
      · dsimp only [Scanner.room]
        split <;> omega
      · dsimp only [Scanner.room]
        rw [if_pos h0]
        omega
  · exact ⟨_, rfl, ⟨by rw [hs, hsz]; exact hle, by rw [hsz]; exact hsize⟩, hs,
      by unfold Scanner.room; rw [hs, hsz]; omega, fun h0 _ => by omega⟩

theorem scan_line [DecidableEq α] (later : List (List α)) (hs : s.Valid limit) (hfirst : 0 < first)
    (hlimit : first ≤ limit)
    (htext : delim ∉ text) (hshort : text.length < limit)
    (h : s.data ++ own.flatten = text ++ delim :: rest) (hne : [] ∉ own) {rounds : Nat}
    (hrounds : own.flatten.length < rounds) :
    ∃ s' own', s.scan delim first limit rounds (own ++ later) = .line text s' (own' ++ later) ∧
      s'.Valid limit ∧ s'.data ++ own'.flatten = rest ∧ [] ∉ own' ∧ own'.length ≤ own.length ∧
      (s.size = 0 → own.length ≤ 1 → own.flatten.length ≤ first → own' = []) := by
  induction rounds generalizing s own with
  | zero => exact absurd hrounds (Nat.not_lt_zero _)
  | succ rounds ih =>
    rw [scan]
    rcases delim_or_part h with ⟨tail, hdata, htail⟩ | ⟨tail, rfl, hmore⟩
    · -- the line is in the buffer
      have hlen : s.data.length = text.length + tail.length + 1 := by
        rw [hdata, length_append, length_cons]
        omega
      have hfits := hs.fits
      rw [hdata, (span_delim htext).1, (span_delim htext).2]
      exact ⟨_, own, rfl, ⟨by dsimp only; omega, hs.size⟩, htail, hne, Nat.le_refl _,
        fun h0 => by omega⟩
    · cases own with
      | nil => simp at hmore
      | cons piece own =>
        rw [mem_append, not_or] at htext
        rw [mem_cons, not_or] at hne
        rw [length_append] at hshort
        obtain ⟨s', hgrow, hs', hdata, hroom, hfresh⟩ := hs.room hfirst (by omega)
        have hpiece : 0 < piece.length := length_pos_iff.mpr (Ne.symm hne.1)
        rw [dropWhile_part htext.1, hgrow, cons_append]
        dsimp only [readSome]
        rw [push_append]
        have hflat : (push (piece.drop s'.room) own).flatten =
            piece.drop s'.room ++ own.flatten := flatten_push
        have hnext : ({ s' with data := s'.data ++ piece.take s'.room } : Scanner α).Valid limit := by
          refine ⟨?_, hs'.size⟩
          have hfits := hs'.fits
          simp only [Scanner.room, length_append, length_take]
          omega
        have hdelim : s'.data ++ piece.take s'.room ++ (push (piece.drop s'.room) own).flatten =
            s.data ++ tail ++ delim :: rest := by
          rw [hflat, ← append_assoc, append_assoc s'.data, take_append_drop, hdata, append_assoc]
          exact h
        have hlen := congrArg List.length hflat
        rw [length_append, length_drop] at hlen
        rw [flatten_cons, length_append] at hrounds
        obtain ⟨s'', own', hscan, hvalid, hrest, hne', hle, -⟩ :=
          ih hnext hdelim (nil_notMem_push hne.2) (by omega)
        refine ⟨s'', own', hscan, hvalid, hrest, hne', hle.trans length_push_le, fun h0 h1 hf => ?_⟩
        have hown : own = [] := eq_nil_of_length_eq_zero (by simpa using h1)
        subst hown
        rw [hfresh h0 hlimit, push, if_pos (drop_eq_nil_of_le (by simpa using hf))] at hle
        exact eq_nil_of_length_eq_zero (Nat.le_zero.mp hle)

end Scanner

end StarlingWg.Buffer
