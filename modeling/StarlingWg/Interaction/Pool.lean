import StarlingWg.Interaction.Program
import Mathlib.Logic.Function.Basic

namespace StarlingWg.Interaction

open List Function Option

-- Threads over one shared state. A thread that has not been started is one
-- whose first operation is not admitted yet.
structure Pool (sig : Signature) (ι S : Type) where
  threads : ι → Program sig Unit
  state : S

inductive Label (sig : Signature) (ι S : Type)
  | act {β : Type} (thread : ι) (before : S) (op : sig.Op β) (reply : β) (after : S)
  | enter {β : Type} (thread : ι) (proc : sig.Proc β)
  | env (before after : S)

variable {sig : Signature} {ι S : Type} [DecidableEq ι]

inductive Pool.Step (bodies : Bodies sig) (m : ι → Machine sig S) (env : S → S → Prop) :
    Pool sig ι S → Label sig ι S → Pool sig ι S → Prop
  | act {pool : Pool sig ι S} {β : Type} (thread : ι) {op : sig.Op β}
      {next : β → Program sig Unit} {reply : β} :
      pool.threads thread = .perform op next → (m thread).admits pool.state op reply = true →
      Pool.Step bodies m env pool
        (.act thread pool.state op reply ((m thread).effect pool.state op reply))
        ⟨update pool.threads thread (next reply), (m thread).effect pool.state op reply⟩
  | enter {pool : Pool sig ι S} {β : Type} (thread : ι) {proc : sig.Proc β}
      {next : β → Program sig Unit} :
      pool.threads thread = .invoke proc next →
      Pool.Step bodies m env pool (.enter thread proc)
        ⟨update pool.threads thread ((bodies proc).bind next), pool.state⟩
  | env {pool : Pool sig ι S} {s' : S} :
      env pool.state s' → Pool.Step bodies m env pool (.env pool.state s') ⟨pool.threads, s'⟩

inductive Pool.Steps (bodies : Bodies sig) (m : ι → Machine sig S) (env : S → S → Prop) :
    Pool sig ι S → List (Label sig ι S) → Pool sig ι S → Prop
  | nil {pool : Pool sig ι S} : Pool.Steps bodies m env pool [] pool
  | snoc {first pool last : Pool sig ι S} {labels : List (Label sig ι S)} {label : Label sig ι S} :
      Pool.Steps bodies m env first labels pool → Pool.Step bodies m env pool label last →
      Pool.Steps bodies m env first (labels ++ [label]) last

section

variable {bodies : Bodies sig} {m : ι → Machine sig S} {env : S → S → Prop}
  {first last : Pool sig ι S} {labels : List (Label sig ι S)}

-- An invariant that every guarded step keeps holds at the end of a guarded
-- run, and what it says of one label holds of every label.
theorem Pool.Steps.along (hr : Pool.Steps bodies m env first labels last)
    (Guard P : Label sig ι S → Prop) (Inv : Pool sig ι S → Prop)
    (hg : ∀ label ∈ labels, Guard label) (hinit : Inv first)
    (hstep : ∀ pool label next, Guard label → Pool.Step bodies m env pool label next →
      Inv pool → Inv next ∧ P label) : Inv last ∧ ∀ label ∈ labels, P label := by
  induction hr with
  | nil => exact ⟨hinit, by simp⟩
  | snoc _ hs ih =>
    rw [forall_mem_append, forall_mem_singleton] at hg
    obtain ⟨hinv, hall⟩ := ih hg.1
    obtain ⟨hnext, hp⟩ := hstep _ _ _ hg.2 hs hinv
    exact ⟨hnext, forall_mem_append.mpr ⟨hall, forall_mem_singleton.mpr hp⟩⟩

theorem Pool.Steps.back (hr : Pool.Steps bodies m env first labels last) (P : Label sig ι S → Prop)
    (R : S → Prop) (hlast : R last.state)
    (hstep : ∀ pool label next, Pool.Step bodies m env pool label next →
      R next.state → R pool.state ∧ P label) : ∀ label ∈ labels, P label := by
  induction hr with
  | nil => simp
  | snoc _ hs ih =>
    obtain ⟨hpool, hp⟩ := hstep _ _ _ hs hlast
    exact forall_mem_append.mpr ⟨ih hpool, forall_mem_singleton.mpr hp⟩

variable {L : ι → Type}

-- Each thread works on its own part of the state: its operations act there as
-- its own machine says, and nothing else moves it.
structure Framed (m : ι → Machine sig S) (env : S → S → Prop)
    (view : (thread : ι) → S → L thread) (own : (thread : ι) → Machine sig (L thread)) :
    Prop where
  admits : ∀ thread s {β : Type} (op : sig.Op β) (reply : β), (m thread).admits s op reply = true →
    (own thread).admits (view thread s) op reply = true
  effect : ∀ thread s {β : Type} (op : sig.Op β) (reply : β), (m thread).admits s op reply = true →
    view thread ((m thread).effect s op reply) = (own thread).effect (view thread s) op reply
  other : ∀ thread s {β : Type} (op : sig.Op β) (reply : β),
    (m thread).admits s op reply = true → ∀ viewer, viewer ≠ thread →
    view viewer ((m thread).effect s op reply) = view viewer s
  quiet : ∀ s s', env s s' → ∀ viewer, view viewer s' = view viewer s

def Pool.Meets (view : (thread : ι) → S → L thread) (own : (thread : ι) → Machine sig (L thread))
    (spec : (thread : ι) → Spec sig (L thread)) (goal : (thread : ι) → L thread → Prop)
    (pool : Pool sig ι S) : Prop :=
  ∀ thread, wp (own thread) (spec thread) (pool.threads thread) (fun _ => goal thread)
    (view thread pool.state)

def Label.Ok (view : (thread : ι) → S → L thread) (spec : (thread : ι) → Spec sig (L thread)) :
    Label sig ι S → Prop
  | .act thread s op reply s' => (spec thread).good (view thread s) op reply (view thread s')
  | .enter _ _ => True
  | .env _ _ => True

theorem Pool.Meets.step {view : (thread : ι) → S → L thread}
    {own : (thread : ι) → Machine sig (L thread)} {spec : (thread : ι) → Spec sig (L thread)}
    {goal : (thread : ι) → L thread → Prop} (hf : Framed m env view own)
    (hv : ∀ thread, Verified bodies (own thread) (spec thread))
    {pool next : Pool sig ι S} {label : Label sig ι S} (hs : Pool.Step bodies m env pool label next)
    (hm : pool.Meets view own spec goal) :
    next.Meets view own spec goal ∧ label.Ok view spec := by
  cases hs with
  | @act β thread op rest reply ht hadm =>
    have hown := hm thread
    rw [ht] at hown
    obtain ⟨hgood, hnext⟩ := hown reply (hf.admits thread _ op reply hadm)
    rw [← hf.effect thread _ op reply hadm] at hgood hnext
    refine ⟨fun viewer => ?_, hgood⟩
    by_cases he : viewer = thread
    · subst he
      simpa using hnext
    · simpa [update_of_ne he, hf.other thread _ op reply hadm viewer he] using hm viewer
  | @enter β thread proc rest ht =>
    have hown := hm thread
    rw [ht] at hown
    refine ⟨fun viewer => ?_, trivial⟩
    by_cases he : viewer = thread
    · subst he
      simp only [update_self, wp_bind_eq]
      exact wp_mono (hv _ _ _ hown.1) (fun result s' hp => hown.2 result s' hp)
    · simpa [update_of_ne he] using hm viewer
  | @env s' he =>
    refine ⟨fun viewer => ?_, trivial⟩
    simpa [hf.quiet _ _ he viewer] using hm viewer

end

-- Runs the threads a schedule names, one step each, with the replies a
-- chooser picks; none when a step is not possible or its label not allowed.
def Pool.replay (bodies : Bodies sig) (m : ι → Machine sig S)
    (choose : ι → S → {β : Type} → sig.Op β → Option β) (allowed : Label sig ι S → Bool) :
    List ι → Pool sig ι S → Option (Pool sig ι S)
  | [], pool => some pool
  | thread :: schedule, pool =>
    match pool.threads thread with
    | .done _ => none
    | .perform op next =>
      match choose thread pool.state op with
      | none => none
      | some reply =>
        if (m thread).admits pool.state op reply = true ∧
            allowed (.act thread pool.state op reply
              ((m thread).effect pool.state op reply)) = true then
          Pool.replay bodies m choose allowed schedule ⟨update pool.threads thread (next reply),
              (m thread).effect pool.state op reply⟩
        else none
    | .invoke proc next =>
      if allowed (.enter thread proc) = true then
        Pool.replay bodies m choose allowed schedule
          ⟨update pool.threads thread ((bodies proc).bind next), pool.state⟩
      else none

def Pool.replays (bodies : Bodies sig) (m : ι → Machine sig S)
    (choose : ι → S → {β : Type} → sig.Op β → Option β) (allowed : Label sig ι S → Bool) :
    List (List ι × (S → S)) → Pool sig ι S → Option (Pool sig ι S)
  | [], pool => some pool
  | (schedule, move) :: parts, pool =>
    match Pool.replay bodies m choose allowed schedule pool with
    | none => none
    | some next =>
      if allowed (.env next.state (move next.state)) = true then
        Pool.replays bodies m choose allowed parts ⟨next.threads, move next.state⟩
      else none

section

variable {bodies : Bodies sig} {m : ι → Machine sig S} {env : S → S → Prop}
variable {choose : ι → S → {β : Type} → sig.Op β → Option β} {allowed : Label sig ι S → Bool}
variable {first pool last : Pool sig ι S} {labels : List (Label sig ι S)}
variable {parts : List (List ι × (S → S))}

theorem Pool.replay_sound {schedule : List ι} (hr : Pool.Steps bodies m env first labels pool)
    (hl : ∀ label ∈ labels, allowed label = true)
    (h : Pool.replay bodies m choose allowed schedule pool = some last) :
    ∃ labels', Pool.Steps bodies m env first labels' last ∧
      ∀ label ∈ labels', allowed label = true := by
  induction schedule generalizing pool labels with
  | nil =>
    simp only [Pool.replay, Option.some.injEq] at h
    exact ⟨labels, h ▸ hr, hl⟩
  | cons thread schedule ih =>
    have hsnoc : ∀ {label : Label sig ι S}, allowed label = true →
        ∀ l ∈ labels ++ [label], allowed l = true :=
      fun hlabel => forall_mem_append.mpr ⟨hl, forall_mem_singleton.mpr hlabel⟩
    simp only [Pool.replay] at h
    split at h
    · simp at h
    · next ht =>
        split at h
        · simp at h
        · split at h
          · next hadm => exact ih (.snoc hr (.act thread ht hadm.1)) (hsnoc hadm.2) h
          · simp at h
    · next ht =>
        split at h
        · next hlabel => exact ih (.snoc hr (.enter thread ht)) (hsnoc hlabel) h
        · simp at h

theorem Pool.replays_sound (henv : ∀ part ∈ parts, ∀ s, env s (part.2 s))
    (hr : Pool.Steps bodies m env first labels pool) (hl : ∀ label ∈ labels, allowed label = true)
    (h : Pool.replays bodies m choose allowed parts pool = some last) :
    ∃ labels', Pool.Steps bodies m env first labels' last ∧
      ∀ label ∈ labels', allowed label = true := by
  induction parts generalizing pool labels with
  | nil =>
    simp only [Pool.replays, Option.some.injEq] at h
    exact ⟨labels, h ▸ hr, hl⟩
  | cons part parts ih =>
    simp only [Pool.replays] at h
    split at h
    · simp at h
    · next next hnext =>
        split at h
        · next hallowed =>
            obtain ⟨labels', hr', hl'⟩ := Pool.replay_sound hr hl hnext
            rw [forall_mem_cons] at henv
            exact ih henv.2 (.snoc hr' (.env (henv.1 next.state)))
              (forall_mem_append.mpr ⟨hl', forall_mem_singleton.mpr hallowed⟩) h
        · simp at h

theorem Pool.reaches_of_replays (henv : ∀ part ∈ parts, ∀ s, env s (part.2 s))
    (P : Pool sig ι S → Bool)
    (h : (Pool.replays bodies m choose allowed parts first).any P = true) :
    ∃ labels last, Pool.Steps bodies m env first labels last ∧
      (∀ label ∈ labels, allowed label = true) ∧ P last = true := by
  obtain ⟨last, hlast, hp⟩ := (any_eq_true _ _).mp h
  obtain ⟨labels, hr, hl⟩ := Pool.replays_sound henv .nil (by simp) hlast
  exact ⟨labels, last, hr, hl, hp⟩

theorem Pool.reaches_of_replay (env : S → S → Prop) {schedule : List ι} (P : Pool sig ι S → Bool)
    (h : (Pool.replay bodies m choose allowed schedule first).any P = true) :
    ∃ labels last, Pool.Steps bodies m env first labels last ∧
      (∀ label ∈ labels, allowed label = true) ∧ P last = true := by
  obtain ⟨last, hlast, hp⟩ := (any_eq_true _ _).mp h
  obtain ⟨labels, hr, hl⟩ := Pool.replay_sound .nil (by simp) hlast
  exact ⟨labels, last, hr, hl, hp⟩

end

end StarlingWg.Interaction
