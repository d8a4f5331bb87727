import Mathlib.Data.Finset.Card
import Mathlib.Logic.Function.Basic
import Mathlib.Logic.Relation

namespace StarlingWg.Ratelimiter

open Function Relation

-- The table lock. An Allow that stored an entry holds it at the send and past
-- it; the other sections under it are steps of their own.
inductive Lock (τ : Type)
  | free
  | sending (t : τ)
  | leaving (t : τ)
  deriving DecidableEq

-- The garbage collection: at the select, with a tick in hand and waiting for
-- the lock, and back from cleanup.
inductive Collector
  | selecting
  | locking
  | cleaned (empty : Bool)
  | returned
  deriving DecidableEq

-- missed is the address that an Allow did not find.
structure State (α τ : Type) where
  table : Finset α
  missed : τ → Option α
  lock : Lock τ
  collector : Collector
  ticking : Bool
  closed : Bool

variable {α τ : Type}

def State.init : State α τ := ⟨∅, fun _ => none, .free, .selecting, false, false⟩

-- An address that is found changes nothing here, and which entries a cleanup
-- keeps is a matter of their times. A stopped ticker has no tick left.
inductive Step [DecidableEq α] [DecidableEq τ] (guard : State α τ → α → Prop) : State α τ → State α τ → Prop
  | lookup {s t ip} : s.lock = .free → s.missed t = none → ip ∉ s.table →
    Step guard s { s with missed := update s.missed t (some ip) }
  | store {s t ip} : s.lock = .free → s.missed t = some ip → guard s ip →
    Step guard s { s with
      table := insert ip s.table
      missed := update s.missed t none
      lock := if (insert ip s.table).card = 1 then .sending t else .leaving t }
  | receive {s t} : s.lock = .sending t → s.collector = .selecting → s.closed = false →
    Step guard s { s with lock := .leaving t, ticking := true }
  | unlock {s t} : s.lock = .leaving t → Step guard s { s with lock := .free }
  | tick {s} : s.collector = .selecting → s.ticking = true →
    Step guard s { s with collector := .locking }
  | cleanup {s kept} : s.lock = .free → s.collector = .locking → kept ⊆ s.table →
    Step guard s { s with table := kept, collector := .cleaned (kept = ∅) }
  | resume {s empty} : s.collector = .cleaned empty →
    Step guard s { s with collector := .selecting, ticking := s.ticking && !empty }
  | close {s} : s.lock = .free → s.closed = false → Step guard s { s with closed := true }
  | stop {s} : s.collector = .selecting → s.closed = true →
    Step guard s { s with collector := .returned, ticking := false }

def Reachable [DecidableEq α] [DecidableEq τ] (guard : State α τ → α → Prop) (s : State α τ) : Prop :=
  ReflTransGen (Step guard) .init s

-- No Allow stores the only address of the table once more, and none stores a
-- first one after Close.
def Careful (s : State α τ) (ip : α) : Prop :=
  s.table ≠ {ip} ∧ (s.table = ∅ → s.closed = false)

-- A tick is in hand only while the table has an entry, and the ticker is off,
-- or about to be, while it has none or its first is at the send.
structure State.Sound (s : State α τ) : Prop where
  locking : s.collector = .locking → s.table ≠ ∅
  quiet : s.table = ∅ ∨ (∃ t, s.lock = .sending t) → s.ticking = false ∨ s.collector = .cleaned true
  sending : ∀ t, s.lock = .sending t → s.table ≠ ∅ ∧ s.collector ≠ .locking ∧ s.closed = false

theorem State.Sound.init : (State.init : State α τ).Sound :=
  ⟨fun h => (by cases h), fun _ => .inl rfl, fun t h => by cases h⟩

variable [DecidableEq α]

theorem Careful.empty {s : State α τ} {ip : α} (h : Careful s ip) (hcard : (insert ip s.table).card = 1) :
    s.table = ∅ := by
  obtain ⟨x, hx⟩ := Finset.card_eq_one.mp hcard
  have hip : ip = x := Finset.mem_singleton.mp (hx ▸ Finset.mem_insert_self ip s.table)
  have hsub : s.table ⊆ {ip} := by
    rw [hip, ← hx]
    exact Finset.subset_insert ip s.table
  exact (Finset.subset_singleton_iff.mp hsub).resolve_right h.1

variable [DecidableEq τ]

theorem State.Sound.step {s s' : State α τ} (h : s.Sound) (hstep : Step Careful s s') : s'.Sound := by
  obtain ⟨hlocking, hquiet, hsending⟩ := h
  cases hstep with
  | lookup hfree hnone hmem => exact ⟨hlocking, hquiet, hsending⟩
  | @store t ip hfree hmissed hguard =>
    refine ⟨fun _ => Finset.insert_ne_empty ip _, ?_, ?_⟩
    · rintro (hnone | ⟨u, hu⟩)
      · exact absurd hnone (Finset.insert_ne_empty ip _)
      · dsimp only at hu
        split at hu
        · next hcard => exact hquiet (.inl (hguard.empty hcard))
        · cases hu
    · intro u hu
      dsimp only at hu
      split at hu
      · next hcard =>
          have hnone := hguard.empty hcard
          exact ⟨Finset.insert_ne_empty ip _, fun hl => hlocking hl hnone, hguard.2 hnone⟩
      · cases hu
  | @receive t hsend hselect hopen =>
    refine ⟨hlocking, ?_, fun u hu => by cases hu⟩
    rintro (hnone | ⟨u, hu⟩)
    · exact absurd hnone (hsending t hsend).1
    · cases hu
  | unlock hleave =>
    refine ⟨hlocking, ?_, fun u hu => by cases hu⟩
    rintro (hnone | ⟨u, hu⟩)
    · exact hquiet (.inl hnone)
    · cases hu
  | tick hselect htick =>
    -- the ticker is on and the collector has not just cleaned
    have hbusy : ¬(s.ticking = false ∨ s.collector = .cleaned true) := by simp [htick, hselect]
    refine ⟨fun _ hnone => hbusy (hquiet (.inl hnone)), fun h => absurd (hquiet h) hbusy, ?_⟩
    exact fun t ht => absurd (hquiet (.inr ⟨t, ht⟩)) hbusy
  | cleanup hfree hlock hkept =>
    refine ⟨fun hl => (by cases hl), ?_, fun t ht => (by simp [hfree] at ht)⟩
    rintro (hnone | ⟨t, ht⟩)
    · exact .inr (by simpa using hnone)
    · simp [hfree] at ht
  | @resume empty hcleaned =>
    refine ⟨fun hl => (by cases hl), fun h => .inl ?_,
      fun t ht => ⟨(hsending t ht).1, by simp, (hsending t ht).2.2⟩⟩
    rcases hquiet h with hoff | hon
    · simp [hoff]
    · rw [hcleaned] at hon
      cases hon
      simp
  | close hfree hopen =>
    exact ⟨hlocking, hquiet, fun t ht => by simp [hfree] at ht⟩
  | stop hselect hclosed =>
    refine ⟨fun hl => (by cases hl), fun _ => .inl rfl, fun t ht => ?_⟩
    simp [(hsending t ht).2.2] at hclosed

theorem Reachable.sound {s : State α τ} (h : Reachable Careful s) : s.Sound := by
  induction h with
  | refl => exact .init
  | tail _ hstep ih => exact ih.step hstep

def State.Safe (s : State α τ) : Prop :=
  ∀ t, s.lock = .sending t → s.collector ≠ .locking ∧ s.closed = false

theorem allow_safe_of_careful {s : State α τ} (h : Reachable Careful s) : s.Safe :=
  fun t ht => (h.sound.sending t ht).2

-- One worker is at the send of the first address, another stores beside it
-- while the collector has a tick in hand, and the first stores after Close.
theorem allow_safe_through_close :
    ∃ s₁ s₂ s₃ : State Nat Bool, (Reachable Careful s₁ ∧ s₁.lock = .sending false ∧ s₁.Safe) ∧
      (Reachable Careful s₂ ∧ s₂.table = {8, 7} ∧ s₂.collector = .locking ∧ s₂.Safe) ∧
      Reachable Careful s₃ ∧ s₃.table = {9, 8} ∧ s₃.closed = true ∧ s₃.Safe := by
  have hfirst : Reachable (Careful (α := Nat) (τ := Bool)) _ :=
    .tail (.tail (.tail .refl (.lookup (t := false) rfl rfl (Finset.notMem_empty 7)))
      (.lookup (t := true) rfl rfl (Finset.notMem_empty 8)))
      (.store (t := false) rfl rfl ⟨by decide, fun _ => rfl⟩)
  have hticked := hfirst.tail (.receive rfl rfl rfl) |>.tail (.unlock rfl) |>.tail (.tick rfl rfl) |>.tail
    (.store (t := true) rfl rfl ⟨by decide, fun _ => rfl⟩)
  have hclosed := hticked.tail (.unlock rfl) |>.tail
    (.cleanup rfl rfl (by decide : {8} ⊆ ({8, 7} : Finset Nat))) |>.tail (.resume rfl) |>.tail (.close rfl rfl) |>.tail
    (.lookup (t := false) rfl rfl (by decide : 9 ∉ ({8} : Finset Nat))) |>.tail
    (.store (t := false) rfl rfl ⟨by decide, fun h => absurd h (by decide)⟩)
  exact ⟨_, _, _, ⟨hfirst, rfl, allow_safe_of_careful hfirst⟩,
    ⟨hticked, rfl, rfl, allow_safe_of_careful hticked⟩, hclosed, rfl, rfl,
    allow_safe_of_careful hclosed⟩

theorem allow_blocks_and_panics : (∃ s : State Nat Bool, Reachable (fun _ _ => True) s ∧
      s.lock = .sending true ∧ s.collector = .locking) ∧
    ∃ s : State Nat Bool, Reachable (fun _ _ => True) s ∧ s.lock = .sending true ∧ s.closed = true := by
  have hlookup : ∀ (s : State Nat Bool) t, s.lock = .free → s.missed t = none → s.table = ∅ →
      Step (fun _ _ => True) s { s with missed := update s.missed t (some 7) } :=
    fun s t hfree hnone hempty => .lookup hfree hnone (hempty ▸ Finset.notMem_empty 7)
  constructor
  · have hfirst : Reachable (fun _ _ => True) _ :=
      .tail (.tail (.tail .refl (hlookup .init false rfl rfl rfl)) (hlookup _ true rfl rfl rfl))
        (.store (t := false) rfl rfl trivial)
    have hticking := hfirst.tail (.receive rfl rfl rfl) |>.tail (.unlock rfl) |>.tail (.tick rfl rfl)
    exact ⟨_, hticking.tail (.store (t := true) rfl rfl trivial), rfl, rfl⟩
  · have hclosed : Reachable (fun _ _ => True) _ :=
      .tail (.tail .refl (hlookup .init true rfl rfl rfl)) (.close rfl rfl)
    exact ⟨_, hclosed.tail (.store (t := true) rfl rfl trivial), rfl, rfl⟩

end StarlingWg.Ratelimiter
