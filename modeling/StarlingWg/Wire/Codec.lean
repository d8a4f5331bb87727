import Mathlib.Algebra.Group.Nat.Defs
import StarlingWg.Bytes

namespace StarlingWg.Wire

open List

-- A number in a fixed number of bytes, the most significant one first.
def beBytes : Nat → Nat → Bytes
  | 0, _ => []
  | width + 1, n => beBytes width (n / 256) ++ [.ofNat n]

def beNat (bytes : Bytes) : Nat :=
  bytes.foldl (fun n b => n * 256 + b.toNat) 0

@[simp] theorem beBytes_length (width n : Nat) : (beBytes width n).length = width := by
  induction width generalizing n with
  | zero => rfl
  | succ width ih => simp [beBytes, ih]

theorem beNat_snoc (bytes : Bytes) (b : UInt8) :
    beNat (bytes ++ [b]) = beNat bytes * 256 + b.toNat := by
  simp [beNat]

theorem beNat_beBytes {width n : Nat} (h : n < 256 ^ width) : beNat (beBytes width n) = n := by
  induction width generalizing n with
  | zero =>
    show 0 = n
    omega
  | succ width ih =>
    have hdiv : n / 256 < 256 ^ width := by
      omega
    rw [beBytes, beNat_snoc, ih hdiv, UInt8.toNat_ofNat']
    omega

theorem ofNat_beNat {width bits : Nat} (hbits : 2 ^ bits = 256 ^ width) (v : BitVec bits) :
    BitVec.ofNat bits (beNat (beBytes width v.toNat)) = v := by
  rw [beNat_beBytes (hbits ▸ v.isLt), BitVec.ofNat_toNat, BitVec.setWidth_eq]

-- A decoder takes what it needs from the front of the bytes.
abbrev Decoder (ε α : Type) := StateT Bytes (Except ε) α

namespace Decoder

variable {ε α β : Type}

def take (n : Nat) (err : ε) : Decoder ε Bytes := fun bytes =>
  if bytes.length < n then .error err else .ok (bytes.take n, bytes.drop n)

-- The decoder reads `a` from these bytes and leaves whatever follows them.
def Reads (d : Decoder ε α) (bytes : Bytes) (a : α) : Prop :=
  ∀ rest, d (bytes ++ rest) = .ok (a, rest)

-- It leaves the last of these bytes as well.
def Leaves (d : Decoder ε α) (bytes : Bytes) (a : α) (left : Bytes) : Prop :=
  ∀ rest, d (bytes ++ rest) = .ok (a, left ++ rest)

def Finds (d : Decoder ε α) (bytes : Bytes) (a : α) : Prop :=
  ∃ rest, d bytes = .ok (a, rest)

variable {d : Decoder ε α} {bytes left : Bytes} {a : α}

theorem Reads.take {n : Nat} (err : ε) (h : bytes.length = n) : Reads (take n err) bytes bytes := by
  intro rest
  have hlen : ¬(bytes ++ rest).length < n := by
    rw [length_append]
    omega
  rw [Decoder.take, if_neg hlen, take_left' h, drop_left' h]

theorem Reads.leaves (h : Reads d bytes a) : Leaves d bytes a [] := h

theorem Leaves.finds (h : Leaves d bytes a left) : Finds d bytes a :=
  ⟨left, by simpa using h []⟩

theorem bind_apply (f : α → Decoder ε β) (bytes : Bytes) :
    (d >>= f) bytes = (d bytes).bind fun p => f p.1 p.2 := rfl

variable {f : α → Decoder ε β} {more : Bytes} {b : β}

theorem Reads.bind_leaves (h : Reads d bytes a)
    (hf : Leaves (f a) more b left) : Leaves (d >>= f) (bytes ++ more) b left := by
  intro rest
  rw [bind_apply, append_assoc, h]
  exact hf rest

theorem Reads.bind (h : Reads d bytes a)
    (hf : Reads (f a) more b) : Reads (d >>= f) (bytes ++ more) b :=
  h.bind_leaves hf.leaves

theorem Leaves.map (h : Leaves d bytes a left) (f : α → β) :
    Leaves (d >>= fun a => pure (f a)) bytes (f a) left := by
  intro rest
  rw [bind_apply, h]
  rfl

theorem Reads.map (h : Reads d bytes a) (f : α → β) :
    Reads (d >>= fun a => pure (f a)) bytes (f a) :=
  h.leaves.map f

-- Every value that the decoder returns is a good one.
def Returns (d : Decoder ε α) (good : α → Prop) : Prop :=
  ∀ bytes a rest, d bytes = .ok (a, rest) → good a

variable {good : α → Prop} {fine : β → Prop}

theorem Returns.pure (h : good a) : Returns (Pure.pure a : Decoder ε α) good := by
  intro bytes value rest hok
  have hvalue : a = value := congrArg Prod.fst (Except.ok.inj hok)
  rwa [← hvalue]

theorem Returns.throw (err : ε) : Returns (throw err : Decoder ε α) good := by
  intro bytes value rest hok
  exact absurd hok (by simp [MonadExcept.throw, throwThe, MonadExceptOf.throw, StateT.lift, Bind.bind,
    Except.bind])

theorem Returns.take (n : Nat) (err : ε) : Returns (take n err) fun bytes => bytes.length = n := by
  intro bytes taken rest hok
  unfold Decoder.take at hok
  split at hok
  · simp at hok
  · next hlen =>
      have htaken : bytes.take n = taken := congrArg Prod.fst (Except.ok.inj hok)
      rw [← htaken]
      exact length_take_of_le (Nat.not_lt.mp hlen)

theorem Returns.bind (h : Returns d good)
    (hf : ∀ a, good a → Returns (f a) fine) : Returns (d >>= f) fine := by
  intro bytes value rest hok
  rw [bind_apply] at hok
  cases hd : d bytes with
  | error err =>
    rw [hd] at hok
    exact absurd hok (by simp [Except.bind])
  | ok p =>
    rw [hd] at hok
    exact hf p.1 (h bytes p.1 p.2 hd) p.2 value rest hok

theorem Returns.skip (hf : ∀ a, Returns (f a) fine) : Returns (d >>= f) fine :=
  have hany : Returns d fun _ => True := fun _ _ _ _ => trivial
  hany.bind fun a _ => hf a

-- What is read from some bytes is also read when more of them follow.
def Steady (d : Decoder ε α) : Prop :=
  ∀ bytes a rest more, d bytes = .ok (a, rest) → d (bytes ++ more) = .ok (a, rest ++ more)

theorem Steady.pure (a : α) : Steady (Pure.pure a : Decoder ε α) := by
  intro bytes value rest more hok
  cases hok
  rfl

theorem Steady.throw (err : ε) : Steady (throw err : Decoder ε α) := by
  intro bytes value rest more hok
  exact absurd hok (by simp [MonadExcept.throw, throwThe, MonadExceptOf.throw, StateT.lift, Bind.bind,
    Except.bind])

theorem Steady.take (n : Nat) (err : ε) : Steady (take n err) := by
  intro bytes value rest more hok
  by_cases hlen : bytes.length < n
  · rw [Decoder.take, if_pos hlen] at hok
    cases hok
  · rw [Decoder.take, if_neg hlen] at hok
    cases hok
    have hle := Nat.not_lt.mp hlen
    have hmore : ¬(bytes ++ more).length < n := by
      rw [length_append]
      omega
    rw [Decoder.take, if_neg hmore, take_append_of_le_length hle, drop_append_of_le_length hle]

theorem Steady.bind (h : Steady d) (hf : ∀ a, Steady (f a)) : Steady (d >>= f) := by
  intro bytes value rest more hok
  rw [bind_apply] at hok ⊢
  cases hd : d bytes with
  | error err =>
    rw [hd] at hok
    cases hok
  | ok p =>
    rw [hd] at hok
    rw [h bytes p.1 p.2 more hd]
    exact hf p.1 p.2 value rest more hok

theorem Steady.rejects (h : Steady d) (hread : Reads d bytes a) {short : Bytes}
    (hsplit : bytes = short ++ more) (hmore : more ≠ []) : ∃ err, d short = .error err := by
  cases hd : d short with
  | error err => exact ⟨err, rfl⟩
  | ok p =>
    have hlong := h short p.1 p.2 more hd
    have hall := hread []
    rw [append_nil, hsplit, hlong] at hall
    have hleft : p.2 ++ more = [] := congrArg Prod.snd (Except.ok.inj hall)
    exact absurd (append_eq_nil_iff.mp hleft).2 hmore

section

-- A decoder of slice expressions: the error is none where an index is out of
-- range, and the error that is returned otherwise.
abbrev Checked (ε α : Type) := Decoder (Option ε) α

def need (n : Nat) (err : ε) : Checked ε Unit := fun bytes =>
  if bytes.length < n then .error (some err) else .ok ((), bytes)

-- Both b[:n] and b[n:]. Go lets b[:n] reach up to the capacity; here the length
-- is the bound.
def cut (n : Nat) : Checked ε Bytes := fun bytes =>
  if n ≤ bytes.length then .ok (bytes.take n, bytes.drop n) else .error none

def byte : Checked ε UInt8 := do
  let b ← cut 1
  return b.headD 0

-- The checked decoder does the same and is never out of range.
def InRange (c : Checked ε α) (d : Decoder ε α) : Prop :=
  ∀ bytes, c bytes = (d bytes).mapError some

variable {n : Nat} {taken : Bytes} {err : ε} {f : Bytes → Decoder ε β}

theorem cut_bind (h : n ≤ taken.length) (f : Bytes → Checked ε β) (rest : Bytes) :
    (cut n >>= f) (taken ++ rest) = f (taken.take n) (taken.drop n ++ rest) := by
  have hle : n ≤ (taken ++ rest).length := by
    rw [length_append]
    omega
  rw [bind_apply, cut, if_pos hle, take_append_of_le_length h, drop_append_of_le_length h]
  rfl

theorem byte_bind (h : 1 ≤ taken.length) (f : UInt8 → Checked ε β) (rest : Bytes) :
    (byte >>= f) (taken ++ rest) = f (taken.headD 0) (taken.drop 1 ++ rest) := by
  have hhead : (taken.take 1).headD 0 = taken.headD 0 := by
    cases taken with
    | nil => rfl
    | cons b bs => rfl
  have hcut := cut_bind h (fun b => f (b.headD 0)) rest
  rw [hhead] at hcut
  rw [byte, bind_assoc]
  exact hcut

theorem InRange.pure (a : α) : InRange (ε := ε) (Pure.pure a) (Pure.pure a) := fun _ => rfl

theorem InRange.bind {c : Checked ε α} {k : α → Checked ε β} {f : α → Decoder ε β}
    (h : InRange c d) (hk : ∀ a, InRange (k a) (f a)) : InRange (c >>= k) (d >>= f) := by
  intro bytes
  rw [bind_apply, bind_apply, h]
  cases d bytes with
  | error err => rfl
  | ok p => exact hk p.1 p.2

theorem InRange.need {c : Checked ε β}
    (h : ∀ taken rest, taken.length = n → c (taken ++ rest) = (f taken rest).mapError some) :
    InRange (need n err >>= fun _ => c) (Decoder.take n err >>= f) := by
  intro bytes
  rw [bind_apply, bind_apply, Decoder.need, Decoder.take]
  by_cases hlen : bytes.length < n
  · rw [if_pos hlen, if_pos hlen]
    rfl
  · rw [if_neg hlen, if_neg hlen]
    have htaken := h (bytes.take n) (bytes.drop n) (length_take_of_le (Nat.not_lt.mp hlen))
    rwa [take_append_drop] at htaken

theorem InRange.take {k : Bytes → Checked ε β} (hk : ∀ b, InRange (k b) (f b)) :
    InRange (Decoder.need n err >>= fun _ => cut n >>= k) (Decoder.take n err >>= f) := by
  refine .need fun taken rest hlen => ?_
  have hle := Nat.le_of_eq hlen
  rw [cut_bind (Nat.le_of_eq hlen.symm), take_of_length_le hle, drop_of_length_le hle]
  exact hk taken rest

end

end Decoder

-- How a read of a connection ends that finds no byte.
inductive ReadError
  | eof
  | unexpectedEOF
  | other (text : String)
  deriving DecidableEq, Repr

-- What arrives on a connection: the pieces in which Read returns it, and what
-- it reports after them.
structure Incoming where
  pieces : List Bytes
  ending : ReadError
  deriving DecidableEq, Repr

namespace Incoming

def bytes (nc : Incoming) : Bytes :=
  nc.pieces.flatten

-- The loop of io.ReadAtLeast, with whether a byte has been read. What a piece
-- has more than the buffer takes stays for the next read.
def readLoop (ending : ReadError) : Nat → Bool → List Bytes → Except ReadError Bytes × List Bytes
  | 0, _, pieces => (.ok [], pieces)
  | _ + 1, started, [] => (.error (if started && ending = .eof then .unexpectedEOF else ending), [])
  | n + 1, started, piece :: pieces =>
    if n + 1 ≤ piece.length then
      (.ok (piece.take (n + 1)), piece.drop (n + 1) :: pieces)
    else
      let (result, rest) := readLoop ending (n + 1 - piece.length) (started || piece ≠ []) pieces
      (result.map (piece ++ ·), rest)

-- io.ReadFull for a buffer of n bytes.
def readFull (nc : Incoming) (n : Nat) : Except ReadError Bytes × Incoming :=
  let (result, pieces) := readLoop nc.ending n false nc.pieces
  (result, { nc with pieces := pieces })

variable {n : Nat} {pieces : List Bytes} {nc : Incoming}

theorem readLoop_ok {ending : ReadError} {started : Bool} {rest : List Bytes}
    {bytes : Bytes} (h : readLoop ending n started pieces = (.ok bytes, rest)) :
    bytes.length = n ∧ pieces.flatten = bytes ++ rest.flatten := by
  induction pieces generalizing n started bytes with
  | nil =>
    cases n with
    | zero =>
      cases h
      simp
    | succ n => simp [readLoop] at h
  | cons piece pieces ih =>
    cases n with
    | zero =>
      cases h
      simp
    | succ n =>
      rw [readLoop] at h
      split at h
      · next hle =>
          cases h
          refine ⟨length_take_of_le hle, ?_⟩
          rw [flatten_cons, flatten_cons, ← append_assoc, take_append_drop]
      · next hlt =>
          generalize hloop : readLoop ending (n + 1 - piece.length) (started || piece ≠ [])
            pieces = found at h
          obtain ⟨result, left⟩ := found
          cases result with
          | error err => simp [Except.map] at h
          | ok more =>
            cases h
            obtain ⟨hlen, hflat⟩ := ih hloop
            rw [length_append, flatten_cons, hflat, append_assoc]
            exact ⟨by omega, rfl⟩

theorem readLoop_enough (ending : ReadError) (started : Bool) (h : n ≤ pieces.flatten.length) :
    ∃ bytes rest, readLoop ending n started pieces = (.ok bytes, rest) := by
  induction pieces generalizing n started with
  | nil =>
    have hn : n = 0 := by simpa using h
    subst hn
    exact ⟨[], [], rfl⟩
  | cons piece pieces ih =>
    cases n with
    | zero => exact ⟨[], piece :: pieces, rfl⟩
    | succ n =>
      rw [readLoop]
      split
      · exact ⟨_, _, rfl⟩
      · rw [flatten_cons, length_append] at h
        obtain ⟨more, rest, hloop⟩ := ih (n := n + 1 - piece.length)
          (started || piece ≠ []) (by omega)
        rw [hloop]
        exact ⟨piece ++ more, rest, rfl⟩

theorem readFull_ok {nc' : Incoming} {bytes : Bytes} (h : nc.readFull n = (.ok bytes, nc')) :
    bytes.length = n ∧ nc.bytes = bytes ++ nc'.bytes := by
  rw [readFull] at h
  generalize hloop : readLoop nc.ending n false nc.pieces = found at h
  obtain ⟨result, rest⟩ := found
  cases h
  exact readLoop_ok hloop

theorem readFull_of_bytes {bytes rest : Bytes} (h : nc.bytes = bytes ++ rest) :
    ∃ nc', nc.readFull bytes.length = (.ok bytes, nc') ∧ nc'.bytes = rest := by
  have henough : bytes.length ≤ nc.pieces.flatten.length := by
    rw [← Incoming.bytes, h, length_append]
    omega
  obtain ⟨got, pieces, hloop⟩ := readLoop_enough nc.ending false henough
  obtain ⟨hlen, hflat⟩ := readLoop_ok hloop
  have hsplit : bytes ++ rest = got ++ pieces.flatten := h.symm.trans hflat
  obtain ⟨hbytes, hrest⟩ := append_inj hsplit hlen.symm
  refine ⟨{ nc with pieces := pieces }, ?_, hrest.symm⟩
  rw [readFull, hloop, hbytes]

end Incoming

end StarlingWg.Wire
