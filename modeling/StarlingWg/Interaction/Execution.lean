import Mathlib.Logic.Function.Iterate
import Mathlib.Tactic.ByContra

namespace StarlingWg.Interaction

variable {S : Type} {Step : S → S → Prop} {run : Nat → S}

-- An execution that takes a step whenever one is possible and stays where it
-- is when none is.
def Complete (Step : S → S → Prop) (run : Nat → S) : Prop :=
  ∀ k, Step (run k) (run (k + 1)) ∨ (∀ s, ¬Step (run k) s) ∧ run (k + 1) = run k

theorem exists_complete (Step : S → S → Prop) (first : S) :
    ∃ run : Nat → S, run 0 = first ∧ Complete Step run := by
  classical
  let next : S → S := fun s => if h : ∃ s', Step s s' then h.choose else s
  refine ⟨fun k => next^[k] first, rfl, fun k => ?_⟩
  simp only [Function.iterate_succ_apply']
  by_cases h : ∃ s', Step (next^[k] first) s'
  · left
    simp only [next, dif_pos h]
    exact h.choose_spec
  · right
    refine ⟨fun s' hs => h ⟨s', hs⟩, ?_⟩
    simp only [next, dif_neg h]

theorem Complete.invariant (hr : Complete Step run) {Inv : S → Prop} (hinit : Inv (run 0))
    (hstep : ∀ s s', Inv s → Step s s' → Inv s') (k : Nat) : Inv (run k) := by
  induction k with
  | zero => exact hinit
  | succ k ih =>
    rcases hr k with hs | ⟨-, hstay⟩
    · exact hstep _ _ ih hs
    · rw [hstay]
      exact ih

-- Short of the goal some step is possible, and every step reaches the goal or
-- comes closer to it.
theorem Complete.reaches (hr : Complete Step run) (Inv Goal : S → Prop) (distance : S → Nat)
    (hstep : ∀ s, Inv s → ¬Goal s → (∃ s', Step s s') ∧
      ∀ s', Step s s' → Goal s' ∨ Inv s' ∧ distance s' < distance s)
    {j : Nat} (hinv : Inv (run j)) : ∃ k, Goal (run k) := by
  generalize hd : distance (run j) = d
  induction d using Nat.strongRecOn generalizing j with
  | _ d ih =>
    by_cases hgoal : Goal (run j)
    · exact ⟨j, hgoal⟩
    obtain ⟨⟨s', hs'⟩, hall⟩ := hstep _ hinv hgoal
    rcases hr j with hs | ⟨hstuck, -⟩
    · rcases hall _ hs with hg | ⟨hi, hlt⟩
      · exact ⟨j + 1, hg⟩
      · exact ih _ (hd ▸ hlt) hi rfl
    · exact absurd hs' (hstuck s')

end StarlingWg.Interaction
