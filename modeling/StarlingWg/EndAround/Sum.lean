import Mathlib.Data.Nat.ModEq

namespace StarlingWg.EndAround

variable {M n m k n' m' : Nat}

-- The same number in end-around arithmetic: equal modulo M, where 0 stays
-- apart from the other multiples of M.
structure Same (M n m : Nat) : Prop where
  modEq : n ≡ m [MOD M]
  zero : n = 0 ↔ m = 0

namespace Same

theorem refl (M n : Nat) : Same M n n :=
  ⟨.refl n, .rfl⟩

theorem of_eq (h : n = m) : Same M n m :=
  h ▸ refl M n

theorem symm (h : Same M n m) : Same M m n :=
  ⟨h.modEq.symm, h.zero.symm⟩

theorem trans (h : Same M n m) (h' : Same M m k) : Same M n k :=
  ⟨h.modEq.trans h'.modEq, h.zero.trans h'.zero⟩

theorem add (h : Same M n m) (h' : Same M n' m') : Same M (n + n') (m + m') :=
  ⟨h.modEq.add h'.modEq, by rw [Nat.add_eq_zero_iff, Nat.add_eq_zero_iff, h.zero, h'.zero]⟩

theorem mul_left (h : Same M n m) (k : Nat) : Same M (k * n) (k * m) :=
  ⟨h.modEq.mul_left k, by rw [Nat.mul_eq_zero, Nat.mul_eq_zero, h.zero]⟩

theorem of_dvd (h : Same M n m) (hk : k ∣ M) : Same k n m :=
  ⟨h.modEq.of_dvd hk, h.zero⟩

theorem eq_of_le (h : Same M n m) (hn : n ≤ M) (hm : m ≤ M) : n = m := by
  by_cases hzero : n = 0
  · rw [hzero, h.zero.mp hzero]
  · have hzero' : m ≠ 0 := fun hm0 => hzero (h.zero.mpr hm0)
    have hpred : n - 1 ≡ m - 1 [MOD M] := by
      apply Nat.ModEq.add_right_cancel' 1
      rw [Nat.sub_add_cancel (by omega), Nat.sub_add_cancel (by omega)]
      exact h.modEq
    have := hpred.eq_of_lt_of_lt (by omega) (by omega)
    omega

theorem wrap (M n : Nat) : Same M ((M + 1) * n) n := by
  refine ⟨?_, by simp⟩
  rw [Nat.add_mul, Nat.one_mul]
  exact (Nat.modEq_zero_iff_dvd.mpr (Nat.dvd_mul_right M n)).add_right n |>.trans (by rw [Nat.zero_add])

theorem carry (M n : Nat) : Same M (n / (M + 1) + n % (M + 1)) n := by
  have hsum := (wrap M (n / (M + 1))).symm.add (refl M (n % (M + 1)))
  rwa [Nat.div_add_mod] at hsum

end Same

theorem carry_le (hn : n ≤ 2 * M) : n / (M + 1) + n % (M + 1) ≤ M := by
  have hsplit := Nat.div_add_mod n (M + 1)
  rcases Nat.lt_or_ge n (M + 1) with hlt | hge
  · rw [Nat.div_eq_of_lt hlt, Nat.mod_eq_of_lt hlt]
    omega
  · have hdiv : n / (M + 1) = 1 := by
      apply Nat.div_eq_of_lt_le
      · omega
      · omega
    rw [hdiv] at hsplit ⊢
    omega

theorem carry_lt (hM : M ≠ 0) (hn : M < n) : n / (M + 1) + n % (M + 1) < n := by
  have hsplit := Nat.div_add_mod n (M + 1)
  have hpos : 0 < n / (M + 1) := Nat.div_pos hn (Nat.succ_pos M)
  have hgrow : 0 < M * (n / (M + 1)) := Nat.mul_pos (by omega) hpos
  rw [Nat.add_mul, Nat.one_mul] at hsplit
  omega

def fold (M n : Nat) : Nat :=
  if n ≤ M ∨ M = 0 then n else fold M (n / (M + 1) + n % (M + 1))
termination_by n
decreasing_by exact carry_lt (by omega) (by omega)

theorem fold_same (M n : Nat) : Same M (fold M n) n := by
  fun_induction fold M n with
  | case1 n h => exact .refl M n
  | case2 n h ih => exact ih.trans (.carry M n)

theorem fold_le (hM : M ≠ 0) (n : Nat) : fold M n ≤ M := by
  fun_induction fold M n with
  | case1 n h => omega
  | case2 n h ih => exact ih

theorem Same.eq_fold (h : Same M n m) (hM : M ≠ 0) (hn : n ≤ M) : n = fold M m :=
  (h.trans (fold_same M m).symm).eq_of_le hn (fold_le hM m)

theorem fold_complement (hM : M ≠ 0) (n : Nat) : fold M (n + (M - fold M n)) = M := by
  have hsame : Same M M (n + (M - fold M n)) := by
    have hsum := (fold_same M n).add (.refl M (M - fold M n))
    rwa [Nat.add_sub_cancel' (fold_le hM n)] at hsum
  exact (hsame.eq_fold hM (Nat.le_refl M)).symm

end StarlingWg.EndAround
