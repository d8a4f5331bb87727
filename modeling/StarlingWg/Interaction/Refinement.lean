import StarlingWg.Interaction.Program

namespace StarlingWg.Interaction

open List

variable {sig : Signature} {α S H : Type}

-- Whatever the first machine does in an allowed event, the second admits; and
-- when the contract calls it good there, the states stay related.
structure Simulates (m : Machine sig S) (m' : Machine sig H) (spec : Spec sig H)
    (Allowed : Event sig S → Prop) (Rel : S → H → Prop) : Prop where
  admits : ∀ {β : Type} {s : S} {h : H} {op : sig.Op β} {reply : β}, Rel s h →
    m.admits s op reply = true → Allowed (.act s op reply (m.effect s op reply)) →
    m'.admits h op reply = true
  keeps : ∀ {β : Type} {s : S} {h : H} {op : sig.Op β} {reply : β}, Rel s h →
    m.admits s op reply = true → Allowed (.act s op reply (m.effect s op reply)) →
    spec.good h op reply (m'.effect h op reply) → Rel (m.effect s op reply) (m'.effect h op reply)

def Event.Refines (spec : Spec sig H) (Rel : S → H → Prop) : Event sig S → Prop
  | .act s op reply s' => ∃ h h', Rel s h ∧ Rel s' h' ∧ spec.good h op reply h'
  | .ret s proc result s' =>
    ∃ h h', Rel s h ∧ Rel s' h' ∧ spec.pre proc h ∧ spec.post proc h result h'

section

variable {bodies : Bodies sig} {m : Machine sig S} {m' : Machine sig H} {spec : Spec sig H}
variable {Allowed : Event sig S → Prop} {Rel : S → H → Prop} {program : Program sig α} {s s' : S}
  {trace : List (Event sig S)} {h : H} {Q : α → H → Prop}

-- A program verified against the second machine keeps its contract when it
-- runs on the first. The induction is on the run, so a loop is unrolled as
-- often as it was executed.
theorem Run.refines (hsim : Simulates m m' spec Allowed Rel) (hv : Verified bodies m' spec)
    {value : α} (hr : Run bodies m program s trace value s') (hall : ∀ event ∈ trace, Allowed event)
    (hrel : Rel s h) (hw : wp m' spec program Q h) :
    ∃ h', Rel s' h' ∧ Q value h' ∧ ∀ event ∈ trace, event.Refines spec Rel := by
  induction hr generalizing h with
  | done => exact ⟨h, hrel, hw, by simp⟩
  | perform hadm _ ih =>
    rw [forall_mem_cons] at hall
    obtain ⟨hgood, hnext⟩ := hw _ (hsim.admits hrel hadm hall.1)
    have hkept := hsim.keeps hrel hadm hall.1 hgood
    obtain ⟨h', hrel', hq, hev⟩ := ih hall.2 hkept hnext
    exact ⟨h', hrel', hq, forall_mem_cons.mpr ⟨⟨_, _, hrel, hkept, hgood⟩, hev⟩⟩
  | invoke _ _ ihb ihn =>
    rw [forall_mem_append, forall_mem_cons] at hall
    obtain ⟨h₁, hrel₁, hpost, hinner⟩ := ihb hall.1 hrel (hv _ _ hw.1)
    obtain ⟨h', hrel', hq, houter⟩ := ihn hall.2.2 hrel₁ (hw.2 _ _ hpost)
    refine ⟨h', hrel', hq, ?_⟩
    rw [forall_mem_append, forall_mem_cons]
    exact ⟨hinner, ⟨h, h₁, hrel, hrel₁, hw.1, hpost⟩, houter⟩

theorem Partial.refines (hsim : Simulates m m' spec Allowed Rel) (hv : Verified bodies m' spec)
    (hr : Partial bodies m program s trace s') (hall : ∀ event ∈ trace, Allowed event)
    (hrel : Rel s h) (hw : wp m' spec program Q h) : ∀ event ∈ trace, event.Refines spec Rel := by
  induction hr generalizing h with
  | stop => simp
  | perform hadm _ ih =>
    rw [forall_mem_cons] at hall ⊢
    obtain ⟨hgood, hnext⟩ := hw _ (hsim.admits hrel hadm hall.1)
    have hkept := hsim.keeps hrel hadm hall.1 hgood
    exact ⟨⟨_, _, hrel, hkept, hgood⟩, ih hall.2 hkept hnext⟩
  | enter _ ih => exact ih hall hrel (hv _ _ hw.1)
  | invoke hb _ ihn =>
    rw [forall_mem_append, forall_mem_cons] at hall ⊢
    obtain ⟨h₁, hrel₁, hpost, hinner⟩ := hb.refines hsim hv hall.1 hrel (hv _ _ hw.1)
    exact ⟨hinner, ⟨h, h₁, hrel, hrel₁, hw.1, hpost⟩, ihn hall.2.2 hrel₁ (hw.2 _ _ hpost)⟩

end

section

variable {bodies : Bodies sig} {m : Machine sig S} {spec : Spec sig S}

theorem Simulates.self : Simulates m m spec (fun _ => True) Eq where
  admits hrel hadm _ := hrel ▸ hadm
  keeps hrel _ _ _ := hrel ▸ rfl

theorem Event.Refines.ok {event : Event sig S} (h : event.Refines spec Eq) : event.Ok spec := by
  cases event with
  | act =>
    obtain ⟨_, _, rfl, rfl, hgood⟩ := h
    exact hgood
  | ret =>
    obtain ⟨_, _, rfl, rfl, hret⟩ := h
    exact hret

variable {program : Program sig α} {s s' : S} {trace : List (Event sig S)} {Q : α → S → Prop}

theorem Run.sound (hv : Verified bodies m spec) {value : α}
    (hr : Run bodies m program s trace value s') (hw : wp m spec program Q s) :
    Q value s' ∧ ∀ event ∈ trace, event.Ok spec := by
  obtain ⟨_, rfl, hq, hev⟩ := hr.refines .self hv (fun _ _ => trivial) rfl hw
  exact ⟨hq, fun event he => (hev event he).ok⟩

theorem Partial.sound (hv : Verified bodies m spec) (hr : Partial bodies m program s trace s')
    (hw : wp m spec program Q s) : ∀ event ∈ trace, event.Ok spec :=
  fun event he => (hr.refines .self hv (fun _ _ => trivial) rfl hw event he).ok

end

def Event.marked (flag : S → {β : Type} → sig.Op β → β → Bool) : Event sig S → Bool
  | .act s op reply _ => flag s op reply
  | .ret _ _ _ _ => false

section

variable {R : Type} (note : R → {β : Type} → sig.Op β → β → R)

-- A history variable: what `note` makes of the operations so far.
def Machine.record (m : Machine sig S) : Machine sig (S × R) where
  admits s _ op reply := m.admits s.1 op reply
  effect s _ op reply := (m.effect s.1 op reply, note s.2 op reply)

def Event.noted (r : R) : Event sig S → R
  | .act _ op reply _ => note r op reply
  | .ret _ _ _ _ => r

theorem Run.recorded {bodies : Bodies sig} {m : Machine sig S} {program : Program sig α} {s s' : S}
    {trace : List (Event sig S)} {value : α} (hr : Run bodies m program s trace value s') (r : R) :
    ∃ trace', Run bodies (m.record note) program (s, r) trace' value
      (s', trace.foldl (Event.noted note) r) := by
  induction hr generalizing r with
  | done => exact ⟨[], .done⟩
  | @perform _ _ op next s s' reply trace value hadm _ ih =>
    obtain ⟨trace', hr'⟩ := ih (note r op reply)
    exact ⟨_, .perform hadm hr'⟩
  | invoke _ _ ihb ihn =>
    obtain ⟨inner, hinner⟩ := ihb r
    obtain ⟨outer, houter⟩ := ihn _
    rw [foldl_append]
    exact ⟨_, .invoke hinner houter⟩

end

end StarlingWg.Interaction
