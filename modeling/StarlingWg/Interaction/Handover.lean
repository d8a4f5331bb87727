import StarlingWg.Interaction.Pool

namespace StarlingWg.Interaction

open Function

variable {sig : Signature} {α ι S H : Type} [DecidableEq ι]

-- The program has ended or can do nothing but pass `gate`.
inductive Program.Waits (gate : sig.Op Unit) : Program sig α → Prop
  | done {value : α} : Program.Waits gate (.done value)
  | perform {next : Unit → Program sig α} : Program.Waits gate (.perform gate next)

def awake (m : ι → Machine sig S) (gate : ι → sig.Op Unit) (s : S) (thread : ι) : Bool :=
  (m thread).admits s (gate thread) ()

-- Threads that each keep a record of the shared state, which their contract
-- is about. A thread sleeps until its gate opens, and the record it then
-- takes over has to be one it is ready for.
structure Handover (m : ι → Machine sig S) (own : ι → Machine sig H) (spec : Spec sig H)
    (gate : ι → sig.Op Unit) (Ready : ι → H → Prop) (Allowed : Label sig ι S → Prop)
    (Rel : S → (ι → H) → Prop) : Prop where
  admits : ∀ {β : Type} {s : S} {records : ι → H} {thread : ι} {op : sig.Op β} {reply : β},
    Rel s records → awake m gate s thread = true → (m thread).admits s op reply = true →
    (own thread).admits (records thread) op reply = true
  keeps : ∀ {β : Type} {s : S} {records : ι → H} {thread : ι} {op : sig.Op β} {reply : β},
    Rel s records → awake m gate s thread = true → (m thread).admits s op reply = true →
    Allowed (.act thread s op reply ((m thread).effect s op reply)) →
    spec.good (records thread) op reply ((own thread).effect (records thread) op reply) →
    ∃ records', Rel ((m thread).effect s op reply) records' ∧
      records' thread = (own thread).effect (records thread) op reply ∧
      (∀ other ≠ thread, awake m gate s other = true → records' other = records other) ∧
      (∀ other, awake m gate s other = true →
        awake m gate ((m thread).effect s op reply) other = true) ∧
      ∀ other, awake m gate s other = false →
        awake m gate ((m thread).effect s op reply) other = true → Ready other (records' other)

-- Every thread that is awake is verified from its record on, and every other
-- from any record it is ready for.
structure Pool.Stands (m : ι → Machine sig S) (own : ι → Machine sig H) (spec : Spec sig H)
    (gate : ι → sig.Op Unit) (Ready : ι → H → Prop) (Rel : S → (ι → H) → Prop)
    (records : ι → H) (pool : Pool sig ι S) : Prop where
  rel : Rel pool.state records
  working : ∀ thread, awake m gate pool.state thread = true →
    wp (own thread) spec (pool.threads thread) (fun _ _ => True) (records thread)
  waiting : ∀ thread, awake m gate pool.state thread = false →
    (pool.threads thread).Waits (gate thread) ∧
    ∀ h, Ready thread h → wp (own thread) spec (pool.threads thread) (fun _ _ => True) h

section

variable {bodies : Bodies sig} {m : ι → Machine sig S} {own : ι → Machine sig H}
variable {spec : Spec sig H} {gate : ι → sig.Op Unit} {Ready : ι → H → Prop}
variable {Allowed : Label sig ι S → Prop} {Rel : S → (ι → H) → Prop} {records : ι → H}
variable {pool next : Pool sig ι S} {label : Label sig ι S}

omit [DecidableEq ι] in
theorem Pool.Stands.awake_of_waits (hp : pool.Stands m own spec gate Ready Rel records) {thread : ι}
    (h : (pool.threads thread).Waits (gate thread) → awake m gate pool.state thread = true) :
    awake m gate pool.state thread = true := by
  by_contra hasleep
  exact hasleep (h (hp.waiting thread (Bool.eq_false_iff.mpr hasleep)).1)

theorem Pool.Stands.step (hh : Handover m own spec gate Ready Allowed Rel)
    (hv : ∀ thread, Verified bodies (own thread) spec)
    (hs : Pool.Step bodies m (fun _ _ => False) pool label next) (hl : Allowed label)
    (hp : pool.Stands m own spec gate Ready Rel records) :
    ∃ records', next.Stands m own spec gate Ready Rel records' := by
  cases hs with
  | @act β thread op rest reply ht hadm =>
    have hawake := hp.awake_of_waits fun hwaits => by
      rw [ht] at hwaits
      cases hwaits
      exact hadm
    have hown := hp.working thread hawake
    rw [ht] at hown
    obtain ⟨hgood, hnext⟩ := hown reply (hh.admits hp.rel hawake hadm)
    obtain ⟨records', hrel, hself, hothers, hstay, hready⟩ :=
      hh.keeps hp.rel hawake hadm hl hgood
    refine ⟨records', hrel, fun other hother => ?_, fun other hother => ?_⟩
    · by_cases he : other = thread
      · subst he
        simpa [hself] using hnext
      · simp only [update_of_ne he]
        cases hbefore : awake m gate pool.state other with
        | true =>
          rw [hothers other he hbefore]
          exact hp.working other hbefore
        | false => exact (hp.waiting other hbefore).2 _ (hready other hbefore hother)
    · have hbefore : awake m gate pool.state other = false := by
        by_contra hb
        rw [Bool.not_eq_false] at hb
        exact absurd ((hstay other hb).symm.trans hother) (by simp)
      have he : other ≠ thread := by
        rintro rfl
        exact absurd (hawake.symm.trans hbefore) (by simp)
      simp only [update_of_ne he]
      exact hp.waiting other hbefore
  | @enter β thread proc rest ht =>
    have hawake := hp.awake_of_waits fun hwaits => by
      rw [ht] at hwaits
      cases hwaits
    have hown := hp.working thread hawake
    rw [ht] at hown
    refine ⟨records, hp.rel, fun other hother => ?_, fun other hother => ?_⟩
    · by_cases he : other = thread
      · subst he
        simp only [update_self, wp_bind_eq]
        exact wp_mono (hv _ _ _ hown.1) fun result h' hpost => hown.2 result h' hpost
      · simp only [update_of_ne he]
        exact hp.working other hother
    · have he : other ≠ thread := by
        rintro rfl
        exact absurd (hawake.symm.trans hother) (by simp)
      simp only [update_of_ne he]
      exact hp.waiting other hother
  | env he => exact he.elim

end

end StarlingWg.Interaction
