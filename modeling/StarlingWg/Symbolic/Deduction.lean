import Mathlib.Data.List.Induction
import Mathlib.Data.Multiset.AddSub
import Mathlib.Data.Nat.Notation

namespace StarlingWg.Symbolic

-- Byte strings as terms of a free algebra. Names are private keys; a power
-- is a base with the names it has been raised to, in no order, and its base
-- is no power itself when it was made by `raise`.
inductive Term
  | atom (n : ℕ)
  | number (n : ℕ)
  | name (x : ℕ)
  | power (base : Term) (scalars : Multiset ℕ)
  | hash (state data : Term)
  | hmac1 (key in0 : Term)
  | hmac2 (key in0 in1 : Term)
  | sealed (key ad plain : Term)

namespace Term

-- The derived instance does not reduce where two scalars are swapped.
def same : Term → Term → Bool
  | .atom n, .atom m => n = m
  | .number n, .number m => n = m
  | .name x, .name y => x = y
  | .power base scalars, .power base' scalars' => base.same base' && decide (scalars = scalars')
  | .hash state data, .hash state' data' => state.same state' && data.same data'
  | .hmac1 key in0, .hmac1 key' in0' => key.same key' && in0.same in0'
  | .hmac2 key in0 in1, .hmac2 key' in0' in1' => key.same key' && (in0.same in0' && in1.same in1')
  | .sealed key ad plain, .sealed key' ad' plain' =>
    key.same key' && (ad.same ad' && plain.same plain')
  | _, _ => false

theorem same_iff {s t : Term} : s.same t = true ↔ s = t := by
  induction s generalizing t with
  | atom n => cases t <;> simp [same]
  | number n => cases t <;> simp [same]
  | name x => cases t <;> simp [same]
  | power base scalars ih => cases t <;> simp [same, ih]
  | hash state data ihs ihd => cases t <;> simp [same, ihs, ihd]
  | hmac1 key in0 ihk ihi => cases t <;> simp [same, ihk, ihi]
  | hmac2 key in0 in1 ihk ih0 ih1 => cases t <;> simp [same, ihk, ih0, ih1]
  | sealed key ad plain ihk iha ihp => cases t <;> simp [same, ihk, iha, ihp]

instance : DecidableEq Term := fun _ _ => decidable_of_iff _ same_iff

def raise (x : ℕ) : Term → Term
  | .power base scalars => .power base (x ::ₘ scalars)
  | t => .power t {x}

def generator : Term := .atom 9

theorem raise_generator (x : ℕ) : raise x generator = .power generator {x} := rfl

def aeadOpen (key ad cipher : Term) : Option Term :=
  match cipher with
  | .sealed key' ad' plain => if key' = key ∧ ad' = ad then some plain else none
  | _ => none

theorem aeadOpen_eq_some {key ad cipher plain : Term} :
    aeadOpen key ad cipher = some plain ↔ cipher = .sealed key ad plain := by
  cases cipher with
  | sealed key' ad' plain' =>
    simp only [aeadOpen, Option.ite_none_right_eq_some, Option.some.injEq, sealed.injEq]
    constructor
    · rintro ⟨⟨rfl, rfl⟩, rfl⟩
      exact ⟨rfl, rfl, rfl⟩
    · rintro ⟨rfl, rfl, rfl⟩
      exact ⟨⟨rfl, rfl⟩, rfl⟩
  | _ => simp [aeadOpen]

end Term

section

variable {α β : Type}

theorem foldl_inj {mix : α → β → α} {first : α}
    (hmix : ∀ x y x' y', mix x y = mix x' y' → x = x' ∧ y = y') (hfirst : ∀ x y, mix x y ≠ first)
    {l l' : List β} (h : l.foldl mix first = l'.foldl mix first) : l = l' := by
  induction l using List.reverseRecOn generalizing l' with
  | nil =>
    cases l' using List.reverseRecOn with
    | nil => rfl
    | append_singleton l' y' =>
      rw [List.foldl_concat] at h
      exact absurd h.symm (hfirst _ _)
  | append_singleton l y ih =>
    cases l' using List.reverseRecOn with
    | nil =>
      rw [List.foldl_concat] at h
      exact absurd h (hfirst _ _)
    | append_singleton l' y' =>
      rw [List.foldl_concat, List.foldl_concat] at h
      obtain ⟨hl, hy⟩ := hmix _ _ _ _ h
      rw [ih hl, hy]

end

-- What can be made out of the terms that were seen and the names that are
-- one's own. Public keys are known, whoever has the name.
inductive Knows (own : ℕ → Prop) (seen : Term → Prop) : Term → Prop
  | seen {t : Term} : seen t → Knows own seen t
  | atom (n : ℕ) : Knows own seen (.atom n)
  | number (n : ℕ) : Knows own seen (.number n)
  | own {x : ℕ} : own x → Knows own seen (.name x)
  | publicKey (x : ℕ) : Knows own seen (.raise x .generator)
  | raise {x : ℕ} {t : Term} : own x → Knows own seen t → Knows own seen (.raise x t)
  | hash {state data : Term} : Knows own seen state → Knows own seen data →
      Knows own seen (.hash state data)
  | hmac1 {key in0 : Term} : Knows own seen key → Knows own seen in0 →
      Knows own seen (.hmac1 key in0)
  | hmac2 {key in0 in1 : Term} : Knows own seen key → Knows own seen in0 → Knows own seen in1 →
      Knows own seen (.hmac2 key in0 in1)
  | encrypt {key ad plain : Term} : Knows own seen key → Knows own seen ad → Knows own seen plain →
      Knows own seen (.sealed key ad plain)
  | decrypt {key ad plain : Term} : Knows own seen (.sealed key ad plain) → Knows own seen key →
      Knows own seen plain

section

variable (own : ℕ → Prop) (issued : Term → Prop)

-- A bound on what can be known: no name of another, no power with two names
-- of others, and no sealed term that was not issued, unless it can be sealed.
def Safe : Term → Prop
  | .atom _ => True
  | .number _ => True
  | .name x => own x
  | .power base scalars => Safe base ∧ ∀ x y, {x, y} ≤ scalars → own x ∨ own y
  | .hash state data => Safe state ∧ Safe data
  | .hmac1 key in0 => Safe key ∧ Safe in0
  | .hmac2 key in0 in1 => Safe key ∧ Safe in0 ∧ Safe in1
  | .sealed key ad plain => (Safe key ∧ Safe ad ∧ Safe plain) ∨ issued (.sealed key ad plain)

variable {own issued}

theorem Safe.mono {issued' : Term → Prop} (hmono : ∀ t, issued t → issued' t) {t : Term}
    (h : Safe own issued t) : Safe own issued' t := by
  induction t with
  | atom n => trivial
  | number n => trivial
  | name x => exact h
  | power base scalars ih => exact ⟨ih h.1, h.2⟩
  | hash state data ihs ihd => exact ⟨ihs h.1, ihd h.2⟩
  | hmac1 key in0 ihk ihi => exact ⟨ihk h.1, ihi h.2⟩
  | hmac2 key in0 in1 ihk ih0 ih1 => exact ⟨ihk h.1, ih0 h.2.1, ih1 h.2.2⟩
  | sealed key ad plain ihk iha ihp =>
    exact h.imp (fun hs => ⟨ihk hs.1, iha hs.2.1, ihp hs.2.2⟩) (hmono _)

theorem pair_not_le_singleton (x y z : ℕ) : ¬({x, y} : Multiset ℕ) ≤ {z} := by
  intro h
  have hcard := Multiset.card_le_card h
  simp at hcard

theorem Safe.publicKey (x : ℕ) : Safe own issued (.raise x .generator) :=
  ⟨trivial, fun y z h => absurd h (pair_not_le_singleton y z x)⟩

theorem Safe.raise {x : ℕ} {t : Term} (hx : own x) (h : Safe own issued t) :
    Safe own issued (.raise x t) := by
  cases t with
  | power base scalars =>
    refine ⟨h.1, fun y z hle => ?_⟩
    by_cases hy : x = y
    · exact .inl (hy ▸ hx)
    by_cases hz : x = z
    · exact .inr (hz ▸ hx)
    have hnot : x ∉ ({y, z} : Multiset ℕ) := by simp [hy, hz]
    exact h.2 y z ((Multiset.le_cons_of_notMem hnot).mp hle)
  | _ => exact ⟨h, fun y z hle => absurd hle (pair_not_le_singleton y z x)⟩

theorem not_safe_shared {x y : ℕ} (hx : ¬own x) (hy : ¬own y) {t : Term} :
    ¬Safe own issued (.raise x (.raise y t)) := by
  have hpair : ∀ scalars : Multiset ℕ, ({x, y} : Multiset ℕ) ≤ x ::ₘ y ::ₘ scalars := fun scalars =>
    Multiset.cons_le_cons x (Multiset.cons_le_cons y (Multiset.zero_le scalars))
  intro h
  cases t with
  | power base scalars => exact (h.2 x y (hpair scalars)).elim hx hy
  | _ => exact (h.2 x y (hpair 0)).elim hx hy

theorem Safe.of_knows {seen : Term → Prop} (hseen : ∀ t, seen t → Safe own issued t)
    (hissued : ∀ key ad plain, issued (.sealed key ad plain) → Safe own issued plain) {t : Term}
    (h : Knows own seen t) : Safe own issued t := by
  induction h with
  | seen h => exact hseen _ h
  | atom n => trivial
  | number n => trivial
  | own h => exact h
  | publicKey x => exact .publicKey x
  | raise hx _ ih => exact ih.raise hx
  | hash _ _ ihs ihd => exact ⟨ihs, ihd⟩
  | hmac1 _ _ ihk ihi => exact ⟨ihk, ihi⟩
  | hmac2 _ _ _ ihk ih0 ih1 => exact ⟨ihk, ih0, ih1⟩
  | encrypt _ _ _ ihk iha ihp => exact .inl ⟨ihk, iha, ihp⟩
  | decrypt _ _ ihc _ => exact ihc.elim (fun h => h.2.2) (hissued _ _ _)

end

end StarlingWg.Symbolic
