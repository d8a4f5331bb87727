import Mathlib.Data.List.Nodup
import Mathlib.Logic.Function.Basic

namespace StarlingWg.Interaction

open List Function

variable {τ B : Type}

-- Items that were issued once each and are on their way into a queue: every
-- thread holds some, the others are in the queue.
structure Ledger (Issued : B → Prop) (held : τ → List B) (queue : List B) : Prop where
  queue_issued : ∀ b ∈ queue, Issued b
  held_issued : ∀ t, ∀ b ∈ held t, Issued b
  queue_nodup : queue.Nodup
  held_nodup : ∀ t, (held t).Nodup
  apart : ∀ t u, t ≠ u → (held t).Disjoint (held u)
  waiting : ∀ t, (held t).Disjoint queue

namespace Ledger

variable {Issued Issued' : B → Prop} {held : τ → List B} {queue : List B} {t : τ}

theorem mono (h : Ledger Issued held queue) (himp : ∀ b, Issued b → Issued' b) :
    Ledger Issued' held queue :=
  { h with
    queue_issued := fun b hb => himp b (h.queue_issued b hb)
    held_issued := fun t b hb => himp b (h.held_issued t b hb) }

variable [DecidableEq τ]

theorem replace (h : Ledger Issued held queue) {items : List B}
    (hissued : ∀ b ∈ items, Issued b) (hnodup : items.Nodup)
    (hothers : ∀ u, u ≠ t → items.Disjoint (held u)) (hqueue : items.Disjoint queue) :
    Ledger Issued (update held t items) queue where
  queue_issued := h.queue_issued
  queue_nodup := h.queue_nodup
  held_issued := (forall_update_iff held (p := fun _ l => ∀ b ∈ l, Issued b)).mpr
    ⟨hissued, fun u _ => h.held_issued u⟩
  held_nodup := (forall_update_iff held (p := fun _ l => l.Nodup)).mpr
    ⟨hnodup, fun u _ => h.held_nodup u⟩
  apart u v huv := by
    by_cases hu : u = t
    · rw [hu, update_self, update_of_ne (hu ▸ huv.symm)]
      exact hothers v (hu ▸ huv.symm)
    · rw [update_of_ne hu]
      by_cases hv : v = t
      · rw [hv, update_self]
        exact disjoint_symm (hothers u hu)
      · rw [update_of_ne hv]
        exact h.apart u v huv
  waiting := (forall_update_iff held (p := fun _ l => l.Disjoint queue)).mpr
    ⟨hqueue, fun u _ => h.waiting u⟩

theorem drop (h : Ledger Issued held queue) : Ledger Issued (update held t []) queue :=
  h.replace (by simp) .nil (by simp) (by simp)

theorem issue (h : Ledger Issued held queue) {b : B} (hfresh : ¬Issued b)
    (himp : ∀ b, Issued b → Issued' b) (hb : Issued' b) :
    Ledger Issued' (update held t (held t ++ [b])) queue := by
  have hnot : ∀ u, b ∉ held u := fun u hm => hfresh (h.held_issued u b hm)
  refine (h.mono himp).replace ?_ ?_ ?_ ?_
  · intro c hc
    rcases mem_append.mp hc with hc | hc
    · exact himp c (h.held_issued t c hc)
    · rwa [mem_singleton.mp hc]
  · exact (h.held_nodup t).append (nodup_singleton b) (by simpa using hnot t)
  · intro u hu
    rw [disjoint_append_left]
    exact ⟨h.apart t u hu.symm, by simpa using hnot u⟩
  · rw [disjoint_append_left]
    exact ⟨h.waiting t, by simpa using fun hm => hfresh (h.queue_issued b hm)⟩

theorem enqueue (h : Ledger Issued held queue) :
    Ledger Issued (update held t []) (queue ++ held t) where
  queue_issued b hb := by
    rcases mem_append.mp hb with hb | hb
    · exact h.queue_issued b hb
    · exact h.held_issued t b hb
  queue_nodup := h.queue_nodup.append (h.held_nodup t) (disjoint_symm (h.waiting t))
  held_issued := h.drop.held_issued
  held_nodup := h.drop.held_nodup
  apart := h.drop.apart
  waiting u := by
    by_cases hu : u = t
    · simp [hu]
    · rw [update_of_ne hu, disjoint_append_right]
      exact ⟨h.waiting u, h.apart u t hu⟩

end Ledger

end StarlingWg.Interaction
