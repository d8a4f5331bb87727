import Mathlib.Algebra.Order.BigOperators.Group.List
import StarlingWg.Buffer.Slice
import StarlingWg.Device.Obf
import StarlingWg.EndAround.Bytes

namespace StarlingWg.Device

open Buffer EndAround ObfChain List

def wrapInt (n : Int) : Int := n.bmod (2 ^ 64)

theorem wrapInt_of_lt {n : Int} (h0 : 0 ≤ n) (h : n < 2 ^ 63) : wrapInt n = n :=
  Int.bmod_eq_of_le (by omega) (by omega)

def encodeStd : List Char :=
  "ABCDEFGHIJKLMNOPQRSTUVWXYZabcdefghijklmnopqrstuvwxyz0123456789+/".toList

def sextet (n : Nat) : UInt8 := .ofNat (encodeStd.getD (n % 64) 'A').toNat

-- base64.RawStdEncoding.
def rawStdEncode : Bytes → Bytes
  | [] => []
  | [b0] =>
    let val := b0.toNat * 65536
    [sextet (val / 262144), sextet (val / 4096)]
  | [b0, b1] =>
    let val := b0.toNat * 65536 + b1.toNat * 256
    [sextet (val / 262144), sextet (val / 4096), sextet (val / 64)]
  | b0 :: b1 :: b2 :: rest =>
    let val := b0.toNat * 65536 + b1.toNat * 256 + b2.toNat
    sextet (val / 262144) :: sextet (val / 4096) :: sextet (val / 64) :: sextet val ::
      rawStdEncode rest

theorem length_rawStdEncode (src : Bytes) :
    (rawStdEncode src).length = src.length / 3 * 4 + (src.length % 3 * 8 + 5) / 6 := by
  induction src using rawStdEncode.induct with
  | case1 => rfl
  | case2 b0 => simp [rawStdEncode]
  | case3 b0 b1 => simp [rawStdEncode]
  | case4 b0 b1 b2 rest ih =>
    simp only [rawStdEncode, length_cons, ih]
    omega

def encodedLen (n : Int) : Int := wrapInt (wrapInt (n / 3 * 4) + (n % 3 * 8 + 5) / 6)

-- What rand.Read and time.Now give while an element writes.
structure Surroundings where
  random : Nat → UInt8
  unix : Nat

def chars52 : List Char := "abcdefghijklmnopqrstuvwxyzABCDEFGHIJKLMNOPQRSTUVWXYZ".toList

def digits10 : List Char := "0123456789".toList

def charOf (table : List Char) (b : UInt8) : UInt8 :=
  .ofNat (table.getD (b.toNat % table.length) 'a').toNat

def randomBytes (env : Surroundings) (length : Int) : Bytes :=
  (List.range length.toNat).map env.random

-- The loop of dataSizeObf, from the last byte to the first. None is a panic.
def putSize (srcLen : Nat) (dst : Bytes) : Nat → Option Bytes
  | 0 => some dst
  | i + 1 =>
    if i < dst.length then putSize (srcLen / 256) (dst.set i (.ofNat srcLen)) i else none

namespace Obf

def obfuscatedLen (srcLen : Int) : Obf → Int
  | .bytes content => content.length
  | .timestamp => 4
  | .rand length | .randChar length | .randDigits length | .dataSize length => length
  | .data => srcLen
  | .dataString => encodedLen srcLen

-- dst[:length] filled by rand.Read.
def fill (env : Surroundings) (dst : Bytes) (length : Int) (char : UInt8 → UInt8) :
    Option Bytes :=
  if 0 ≤ length ∧ length ≤ dst.length then some (copyAt dst 0 ((randomBytes env length).map char))
  else none

def obfuscate (env : Surroundings) (dst src : Bytes) : Obf → Option Bytes
  | .bytes content => some (copyAt dst 0 (content.take dst.length))
  | .timestamp => if 4 ≤ dst.length then some (copyAt dst 0 (toBig 4 env.unix)) else none
  | .rand length => fill env dst length id
  | .randChar length => fill env dst length (charOf chars52)
  | .randDigits length => fill env dst length (charOf digits10)
  | .data => some (copyAt dst 0 (src.take dst.length))
  | .dataString =>
    if (rawStdEncode src).length ≤ dst.length then some (copyAt dst 0 (rawStdEncode src)) else none
  | .dataSize length => putSize src.length dst length.toNat

def size (srcLen : Nat) : Obf → Int
  | .dataString => srcLen / 3 * 4 + (srcLen % 3 * 8 + 5) / 6
  | o => o.obfuscatedLen srcLen

def part (env : Surroundings) (src : Bytes) : Obf → Bytes
  | .bytes content => content
  | .timestamp => toBig 4 env.unix
  | .rand length => randomBytes env length
  | .randChar length => (randomBytes env length).map (charOf chars52)
  | .randDigits length => (randomBytes env length).map (charOf digits10)
  | .data => src
  | .dataString => rawStdEncode src
  | .dataSize length => toBig length.toNat src.length

end Obf

namespace ObfChain

def obfuscatedLen (chain : ObfChain) (n : Int) : Int :=
  chain.obfs.foldl (fun total o => wrapInt (total + o.obfuscatedLen n)) 0

-- The loop of Obfuscate. A slice out of range is a panic.
def obfuscateFrom (env : Nat → Surroundings) (src : Bytes) (i : Nat) (written : Int)
    (dst : Bytes) : List Obf → Option Bytes
  | [] => some dst
  | o :: obfs =>
    let stop := wrapInt (written + o.obfuscatedLen src.length)
    if 0 ≤ written ∧ written ≤ stop ∧ stop ≤ dst.length then
      match o.obfuscate (env i) (slice dst written.toNat (stop - written).toNat) src with
      | none => none
      | some bytes => obfuscateFrom env src (i + 1) stop (copyAt dst written.toNat bytes) obfs
    else none

def obfuscate (chain : ObfChain) (env : Nat → Surroundings) (dst src : Bytes) :
    Option Bytes :=
  obfuscateFrom env src 0 0 dst chain.obfs

-- What SendHandshakeInitiation makes of a chain. make panics on a length
-- that is negative or above the limit of the platform.
def packet (maxAlloc : Nat) (env : Nat → Surroundings) (chain : ObfChain) : Option Bytes :=
  let length := chain.obfuscatedLen 0
  if 0 ≤ length ∧ length ≤ maxAlloc then chain.obfuscate env (List.replicate length.toNat 0) []
  else none

def partsFrom (env : Nat → Surroundings) (src : Bytes) (i : Nat) : List Obf → List Bytes
  | [] => []
  | o :: obfs => o.part (env i) src :: partsFrom env src (i + 1) obfs

def parts (chain : ObfChain) (env : Nat → Surroundings) (src : Bytes) : List Bytes :=
  partsFrom env src 0 chain.obfs

end ObfChain

structure Sized (srcLen : Nat) (obfs : List Obf) (total : Nat) : Prop where
  nonneg : ∀ o ∈ obfs, 0 ≤ o.size srcLen
  sum : (obfs.map (Obf.size srcLen)).sum = total

section

variable {env : Surroundings} {src dst : Bytes} {o : Obf}

theorem putSize_eq {srcLen i : Nat} (h : i ≤ dst.length) :
    putSize srcLen dst i = some (toBig i srcLen ++ dst.drop i) := by
  induction i generalizing srcLen dst with
  | zero => rfl
  | succ i ih =>
    have hdrop : (dst.set i (.ofNat srcLen)).drop i = .ofNat srcLen :: dst.drop (i + 1) := by
      rw [drop_eq_getElem_cons (by rw [length_set]; omega)]
      simp [drop_set_of_lt]
    rw [putSize, if_pos (by omega), ih (by simp; omega), hdrop]
    simp [toBig, toLittle]

theorem copyAt_full {bytes : Bytes} (h : dst.length = bytes.length) :
    copyAt dst 0 bytes = bytes := by
  rw [copyAt_zero (by omega), ← h, drop_length, append_nil]

theorem obfuscatedLen_eq {n : Nat} (h : o.size n < 2 ^ 63) : o.obfuscatedLen n = o.size n := by
  cases o with
  | dataString =>
    simp only [Obf.size] at h
    rw [Obf.obfuscatedLen, encodedLen, @wrapInt_of_lt (n / 3 * 4) (by omega) (by omega),
      wrapInt_of_lt (by omega) (by omega), Obf.size]
  | bytes | timestamp | rand | randChar | randDigits | data | dataSize => rfl

theorem length_part (env : Surroundings) (h : 0 ≤ o.size src.length) :
    ((o.part env src).length : Int) = o.size src.length := by
  cases o with
  | bytes | data => rfl
  | timestamp => simp [Obf.part, Obf.size, Obf.obfuscatedLen]
  | dataString => simp [Obf.part, Obf.size, length_rawStdEncode]
  | rand length | randChar length | randDigits length | dataSize length =>
    simpa [Obf.part, Obf.size, Obf.obfuscatedLen, randomBytes] using h

theorem fill_eq {length : Int} {char : UInt8 → UInt8} (h : (dst.length : Int) = length) :
    Obf.fill env dst length char = some ((randomBytes env length).map char) := by
  rw [Obf.fill, if_pos (by omega), copyAt_full (by simp [randomBytes]; omega)]

theorem obfuscate_eq_part (h : (dst.length : Int) = o.size src.length) :
    o.obfuscate env dst src = some (o.part env src) := by
  have hpart : dst.length = (o.part env src).length := by
    have := length_part env (by omega : 0 ≤ o.size src.length)
    omega
  cases o with
  | bytes content | data =>
    simp only [Obf.part] at hpart
    rw [Obf.obfuscate, hpart, take_length, copyAt_full hpart, Obf.part]
  | timestamp =>
    simp only [Obf.part, length_toBig] at hpart
    rw [Obf.obfuscate, if_pos (by omega), copyAt_full (by simpa using hpart), Obf.part]
  | dataString =>
    simp only [Obf.part] at hpart
    rw [Obf.obfuscate, if_pos (by omega), copyAt_full hpart, Obf.part]
  | rand length => exact (fill_eq h).trans (congrArg some (map_id _))
  | randChar length => exact fill_eq h
  | randDigits length => exact fill_eq h
  | dataSize length =>
    simp only [Obf.part, length_toBig] at hpart
    rw [Obf.obfuscate, putSize_eq (by omega), ← hpart, drop_length, append_nil, hpart, Obf.part]

end

section

variable {env : Nat → Surroundings} {src : Bytes} {obfs : List Obf} {total : Nat}

theorem Sized.cons {srcLen : Nat} {o : Obf} (h : Sized srcLen (o :: obfs) total) :
    ∃ size rest : Nat, o.size srcLen = size ∧ total = size + rest ∧ Sized srcLen obfs rest := by
  have hsum := h.sum
  rw [map_cons, sum_cons] at hsum
  have ho := h.nonneg o mem_cons_self
  have hobfs : 0 ≤ (obfs.map (Obf.size srcLen)).sum :=
    sum_nonneg fun size hsize => by
      obtain ⟨o', ho', rfl⟩ := mem_map.mp hsize
      exact h.nonneg o' (mem_cons_of_mem o ho')
  refine ⟨(o.size srcLen).toNat, (obfs.map (Obf.size srcLen)).sum.toNat, by omega, by omega, ?_, by omega⟩
  exact fun o' ho' => h.nonneg o' (mem_cons_of_mem o ho')

theorem foldl_wrapInt (f : Obf → Int) (start : Int) :
    obfs.foldl (fun total o => wrapInt (total + f o)) (wrapInt start) =
      wrapInt (start + (obfs.map f).sum) := by
  induction obfs generalizing start with
  | nil => simp
  | cons o obfs ih =>
    have hstep : wrapInt (wrapInt start + f o) = wrapInt (start + f o) := Int.bmod_add_bmod
    rw [foldl_cons, hstep, ih, map_cons, sum_cons, Int.add_assoc]

theorem ObfChain.obfuscatedLen_sum (chain : ObfChain) (n : Int) :
    chain.obfuscatedLen n = wrapInt (chain.obfs.map (Obf.obfuscatedLen n)).sum := by
  rw [← Int.zero_add (List.sum _), ← foldl_wrapInt]
  rfl

theorem length_partsFrom (h : Sized src.length obfs total) (i : Nat) :
    (partsFrom env src i obfs).flatten.length = total := by
  induction obfs generalizing total i with
  | nil =>
    have := h.sum
    simp only [map_nil, sum_nil] at this
    simp only [partsFrom, flatten_nil, length_nil]
    omega
  | cons o obfs ih =>
    obtain ⟨size, rest, hsize, rfl, hrest⟩ := h.cons
    have hpart := length_part (env i) (by omega : 0 ≤ o.size src.length)
    rw [partsFrom, flatten_cons, length_append, ih hrest]
    omega

-- The loop has written `done`; what is left takes the rest of the buffer.
theorem obfuscateFrom_eq (h : Sized src.length obfs total) (i : Nat) {done rest : Bytes}
    (hrest : rest.length = total) (hfits : done.length + total < 2 ^ 63) :
    obfuscateFrom env src i done.length (done ++ rest) obfs =
      some (done ++ (partsFrom env src i obfs).flatten) := by
  induction obfs generalizing total i done rest with
  | nil =>
    have := h.sum
    simp only [map_nil, sum_nil] at this
    rw [eq_nil_of_length_eq_zero (by omega : rest.length = 0)]
    rfl
  | cons o obfs ih =>
    obtain ⟨size, left, hsize, rfl, hleft⟩ := h.cons
    have hstop : wrapInt (done.length + o.obfuscatedLen src.length) = (done.length + size : Nat) := by
      rw [obfuscatedLen_eq (by omega), hsize, wrapInt_of_lt (by omega) (by omega)]
      omega
    have hslice : slice (done ++ rest) done.length size = rest.take size := by
      simp [slice]
    have hpart := length_part (env i) (by omega : 0 ≤ o.size src.length)
    have hlength : (o.part (env i) src).length = size := by omega
    have hcopy : copyAt (done ++ rest) (done.length + 0) (o.part (env i) src) =
        (done ++ o.part (env i) src) ++ rest.drop size := by
      rw [copyAt_append_right, copyAt_zero (by omega), append_assoc, hlength]
    have hnext : obfuscateFrom env src (i + 1) (done ++ o.part (env i) src).length
        ((done ++ o.part (env i) src) ++ rest.drop size) obfs = _ :=
      ih hleft (i + 1) (by rw [length_drop]; omega) (by rw [length_append]; omega)
    rw [length_append, hlength] at hnext
    rw [Nat.add_zero] at hcopy
    rw [obfuscateFrom]
    simp only [hstop, Int.toNat_natCast]
    rw [if_pos (by simp only [length_append]; omega),
      show ((done.length + size : Nat) - (done.length : Nat) : Int).toNat = size by omega, hslice,
      obfuscate_eq_part (by rw [length_take]; omega)]
    simp only [hcopy, hnext]
    rw [partsFrom, flatten_cons, append_assoc]

theorem obfuscatedLen_sized {chain : ObfChain} (h : Sized src.length chain.obfs total)
    (hfits : total < 2 ^ 63) : chain.obfuscatedLen src.length = total := by
  have hsum := h.sum
  have hmap : chain.obfs.map (Obf.obfuscatedLen src.length) = chain.obfs.map (Obf.size src.length) := by
    refine map_congr_left fun o ho => obfuscatedLen_eq ?_
    have hle := single_le_sum (forall_mem_map.mpr h.nonneg) _ (mem_map_of_mem ho)
    omega
  rw [chain.obfuscatedLen_sum, hmap, hsum, wrapInt_of_lt (by omega) (by omega)]

theorem obfuscate_sized {chain : ObfChain} (h : Sized src.length chain.obfs total)
    (hfits : total < 2 ^ 63) {dst : Bytes} (hdst : dst.length = total) :
    chain.obfuscate env dst src = some (chain.parts env src).flatten := by
  have hloop : obfuscateFrom env src 0 ([] : Bytes).length ([] ++ dst) chain.obfs = _ :=
    obfuscateFrom_eq h 0 hdst (by simpa using hfits)
  exact hloop

-- A part of negative length, or a sum that wraps, ends the loop.
theorem sized_of_obfuscateFrom
    (hrange : ∀ o ∈ obfs, -2 ^ 63 ≤ o.size src.length ∧ o.size src.length < 2 ^ 63)
    {i : Nat} {written : Int} {dst bytes : Bytes} (hdst : (dst.length : Int) < 2 ^ 63)
    (h : obfuscateFrom env src i written dst obfs = some bytes) (hwritten : written ≤ dst.length) :
    ∃ total : Nat, Sized src.length obfs total ∧ written + total ≤ dst.length := by
  induction obfs generalizing i written dst with
  | nil => exact ⟨0, ⟨by simp, rfl⟩, by simpa using hwritten⟩
  | cons o obfs ih =>
    obtain ⟨ho, hobfs⟩ := forall_mem_cons.mp hrange
    rw [obfuscateFrom, obfuscatedLen_eq ho.2] at h
    split at h
    · next hslice =>
      split at h
      · cases h
      · have hstop : wrapInt (written + o.size src.length) = written + o.size src.length := by
          have hwrap := Int.bmod_def (written + o.size src.length) (2 ^ 64)
          simp only [wrapInt] at hslice ⊢
          omega
        obtain ⟨total, hsized, hle⟩ := ih hobfs (by simpa using hdst) h (by simpa using hslice.2.2)
        rw [hstop, length_copyAt] at hle
        refine ⟨(o.size src.length).toNat + total, ⟨?_, ?_⟩, by omega⟩
        · exact forall_mem_cons.mpr ⟨by omega, hsized.nonneg⟩
        · rw [map_cons, sum_cons, hsized.sum]
          omega
    · cases h

end

structure Covers (maxAlloc : Nat) (chain : ObfChain) (src : Bytes) : Prop where
  nonneg : 0 ≤ chain.obfuscatedLen src.length
  exactly : ∀ env (dst : Bytes), dst.length = chain.obfuscatedLen src.length →
    chain.obfuscate env dst src = some (chain.parts env src).flatten ∧
      (chain.parts env src).flatten.length = dst.length
  packet : src = [] → ∀ env, chain.packet maxAlloc env = some (chain.parts env []).flatten

-- The parts of a chain cover the buffer exactly when no length is negative and
-- their sum is an int that can be allocated.
theorem obfuscation_covers (maxAlloc : Nat) (chain : ObfChain) (src : Bytes)
    (hrange : ∀ o ∈ chain.obfs, -2 ^ 63 ≤ o.size src.length ∧ o.size src.length < 2 ^ 63) :
    Covers maxAlloc chain src ↔ ∃ total : Nat, Sized src.length chain.obfs total ∧ total < 2 ^ 63 ∧
      (src = [] → total ≤ maxAlloc) := by
  constructor
  · intro hc
    obtain ⟨length, hlength⟩ := Int.eq_ofNat_of_zero_le hc.nonneg
    have hlt : (length : Int) < 2 ^ 63 := by
      rw [← hlength, chain.obfuscatedLen_sum]
      exact Int.bmod_lt (by decide)
    have hdst : (List.replicate length (0 : UInt8)).length = chain.obfuscatedLen src.length := by
      simp [hlength]
    obtain ⟨hsome, -⟩ := hc.exactly (fun _ => ⟨fun _ => 0, 0⟩) _ hdst
    obtain ⟨total, hsized, hle⟩ := sized_of_obfuscateFrom hrange (by simpa using hlt) hsome (by simp)
    have hfits : total < 2 ^ 63 := by
      simp only [length_replicate] at hle
      omega
    refine ⟨total, hsized, hfits, fun hsrc => ?_⟩
    subst hsrc
    have hpacket := hc.packet rfl fun _ => ⟨fun _ => 0, 0⟩
    have hzero : chain.obfuscatedLen 0 = total := obfuscatedLen_sized hsized hfits
    simp only [packet, hzero] at hpacket
    split at hpacket
    · omega
    · cases hpacket
  · rintro ⟨total, hsized, hfits, hmax⟩
    have hlength := obfuscatedLen_sized hsized hfits
    refine ⟨by omega, fun env dst hdst => ?_, ?_⟩
    · exact ⟨obfuscate_sized hsized hfits (by omega), (length_partsFrom hsized 0).trans (by omega)⟩
    · rintro rfl env
      have hzero : chain.obfuscatedLen 0 = total := hlength
      have hle := hmax rfl
      simp only [packet, hzero]
      rw [if_pos (by omega)]
      exact obfuscate_sized hsized hfits (by simp)

theorem obfuscation_covers_tags :
    let chain : ObfChain := ⟨[], [.bytes [1, 2], .data, .dataString, .dataSize 2]⟩
    Covers 1 chain [7, 7] ∧ chain.obfuscate (fun _ => ⟨fun _ => 0, 0⟩) (List.replicate 9 9) [7, 7] =
      some [1, 2, 7, 7, 66, 119, 99, 0, 2] :=
  have hcovers := (obfuscation_covers 1 ⟨[], [.bytes [1, 2], .data, .dataString, .dataSize 2]⟩ [7, 7]
    (by decide)).mpr ⟨9, ⟨by decide, by decide⟩, by decide, by decide⟩
  ⟨hcovers, (hcovers.exactly (fun _ => ⟨fun _ => 0, 0⟩) (List.replicate 9 9) (by decide)).1⟩

theorem negative_length_accepted :
    let fields := fun tag : List Char => (tag.splitOnP (· = ' ')).filter fun word => !word.isEmpty
    ∃ chain, newObfChain fields "<r -5>".toList = .ok (some chain) ∧
      chain.obfuscatedLen 0 = -5 ∧ chain.packet (2 ^ 47) (fun _ => ⟨fun _ => 0, 0⟩) = none :=
  ⟨⟨"<r -5>".toList, [.rand (-5)]⟩, by decide, by decide, by decide⟩

end StarlingWg.Device
