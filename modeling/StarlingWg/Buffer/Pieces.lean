import Mathlib.Tactic.Ring
import StarlingWg.Buffer.Slice

namespace StarlingWg.Buffer

open List

variable {α : Type} {size : Nat}

def pieceCount (size n : Nat) : Nat :=
  (n + size - 1) / size

def pieces (size : Nat) (l : List α) : List (List α) :=
  (List.range (pieceCount size l.length)).map fun i => slice l (i * size) size

theorem pieceCount_eq_zero (hsize : 0 < size) : pieceCount size 0 = 0 := by
  rw [pieceCount, Nat.div_eq_zero_iff]
  omega

theorem pieceCount_pos (hsize : 0 < size) {n : Nat} (hn : 0 < n) :
    pieceCount size n = pieceCount size (n - size) + 1 := by
  rw [pieceCount, pieceCount, ← Nat.add_div_right _ hsize]
  rcases Nat.le_total size n with hle | hle
  · congr 1
    omega
  · have hfirst : (n + size - 1) / size = 1 := by
      apply Nat.div_eq_of_lt_le
      · omega
      · omega
    have hnone : (n - size + size - 1 + size) / size = 1 := by
      apply Nat.div_eq_of_lt_le
      · omega
      · omega
    rw [hfirst, hnone]

theorem lt_pieceCount_iff (hsize : 0 < size) {i n : Nat} : i < pieceCount size n ↔ i * size < n := by
  rw [pieceCount, ← Nat.succ_le_iff, Nat.le_div_iff_mul_le hsize, Nat.succ_mul]
  omega

theorem pieces_cons (hsize : 0 < size) {l : List α} (hl : l ≠ []) :
    pieces size l = l.take size :: pieces size (l.drop size) := by
  have hlength : 0 < l.length := length_pos_of_ne_nil hl
  rw [pieces, pieceCount_pos hsize hlength, range_succ_eq_map, map_cons, map_map, pieces,
    length_drop]
  congr 1
  · rw [slice, Nat.zero_mul, drop_zero]
  · apply map_congr_left
    intro i _
    simp only [Function.comp, slice, drop_drop, Nat.succ_mul]
    rw [Nat.add_comm size]

theorem pieces_nil (hsize : 0 < size) : pieces size ([] : List α) = [] := by
  rw [pieces, length_nil, pieceCount_eq_zero hsize, range_zero, map_nil]

theorem flatten_pieces (hsize : 0 < size) (l : List α) : (pieces size l).flatten = l := by
  induction hn : l.length using Nat.strong_induction_on generalizing l with
  | h n ih =>
    by_cases hl : l = []
    · rw [hl, pieces_nil hsize, flatten_nil]
    · have hpos : 0 < l.length := length_pos_of_ne_nil hl
      rw [pieces_cons hsize hl, flatten_cons,
        ih (l.drop size).length (by rw [length_drop]; omega) (l.drop size) rfl,
        take_append_drop]

end StarlingWg.Buffer
