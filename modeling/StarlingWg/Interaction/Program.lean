import Mathlib.Logic.IsEmpty.Basic
import Mathlib.Logic.Relation

namespace StarlingWg.Interaction

-- The operations a program may perform, each with the type of its reply, and
-- the procedures it may invoke, each with the type of its result.
structure Signature where
  Op : Type → Type
  Proc : Type → Type

-- A loop is a procedure that invokes itself, so a program stays a finite tree.
inductive Program (sig : Signature) (α : Type) : Type 1
  | done (value : α)
  | perform {β : Type} (op : sig.Op β) (next : β → Program sig α)
  | invoke {β : Type} (proc : sig.Proc β) (next : β → Program sig α)

variable {sig : Signature} {α β S : Type}

namespace Program

def bind : Program sig α → (α → Program sig β) → Program sig β
  | .done value, rest => rest value
  | .perform op next, rest => .perform op fun reply => (next reply).bind rest
  | .invoke proc next, rest => .invoke proc fun result => (next result).bind rest

instance : Monad (Program sig) where
  pure := .done
  bind := bind

def act (op : sig.Op β) : Program sig β :=
  .perform op .done

def call (proc : sig.Proc β) : Program sig β :=
  .invoke proc .done

-- The run of a program without procedures in surroundings that have one
-- answer to each operation.
def interpret [∀ β, IsEmpty (sig.Proc β)] (handle : S → {β : Type} → sig.Op β → β × S) :
    Program sig α → S → α × S
  | .done value, s => (value, s)
  | .perform op next, s => (next (handle s op).1).interpret handle (handle s op).2
  | .invoke proc _, _ => isEmptyElim proc

section

variable [∀ β, IsEmpty (sig.Proc β)] {handle : S → {β : Type} → sig.Op β → β × S} {s : S}

@[simp] theorem interpret_pure (value : α) :
    (pure value : Program sig α).interpret handle s = (value, s) := rfl

@[simp] theorem interpret_act (op : sig.Op β) : (act op).interpret handle s = handle s op := rfl

@[simp] theorem interpret_bind (program : Program sig α) (rest : α → Program sig β) :
    (program >>= rest).interpret handle s =
      (rest (program.interpret handle s).1).interpret handle (program.interpret handle s).2 := by
  induction program generalizing s with
  | done value => rfl
  | perform op next ih => exact ih (handle s op).1
  | invoke proc next _ => exact isEmptyElim proc

end

end Program

-- Which replies an operation may get in a state, and the state it leaves
-- with each of them.
structure Machine (sig : Signature) (S : Type) where
  admits : S → {β : Type} → sig.Op β → β → Bool
  effect : S → {β : Type} → sig.Op β → β → S

abbrev Bodies (sig : Signature) :=
  {β : Type} → sig.Proc β → Program sig β

inductive Event (sig : Signature) (S : Type)
  | act {β : Type} (before : S) (op : sig.Op β) (reply : β) (after : S)
  | ret {β : Type} (before : S) (proc : sig.Proc β) (result : β) (after : S)

-- A finished run, with every operation it performed and every procedure
-- that returned in it, in order.
inductive Run (bodies : Bodies sig) (m : Machine sig S) :
    {α : Type} → Program sig α → S → List (Event sig S) → α → S → Prop
  | done {α : Type} {value : α} {s : S} : Run bodies m (.done value) s [] value s
  | perform {α β : Type} {op : sig.Op β} {next : β → Program sig α} {s s' : S}
      {reply : β} {trace : List (Event sig S)} {value : α} :
      m.admits s op reply = true → Run bodies m (next reply) (m.effect s op reply) trace value s' →
      Run bodies m (.perform op next) s (.act s op reply (m.effect s op reply) :: trace) value s'
  | invoke {α β : Type} {proc : sig.Proc β} {next : β → Program sig α} {s s' s'' : S}
      {result : β} {inner outer : List (Event sig S)} {value : α} :
      Run bodies m (bodies proc) s inner result s' →
      Run bodies m (next result) s' outer value s'' →
      Run bodies m (.invoke proc next) s (inner ++ .ret s proc result s' :: outer) value s''

-- A run stopped at any point, also inside a procedure that has not returned.
inductive Partial (bodies : Bodies sig) (m : Machine sig S) :
    {α : Type} → Program sig α → S → List (Event sig S) → S → Prop
  | stop {α : Type} {program : Program sig α} {s : S} : Partial bodies m program s [] s
  | perform {α β : Type} {op : sig.Op β} {next : β → Program sig α} {s s' : S}
      {reply : β} {trace : List (Event sig S)} :
      m.admits s op reply = true → Partial bodies m (next reply) (m.effect s op reply) trace s' →
      Partial bodies m (.perform op next) s (.act s op reply (m.effect s op reply) :: trace) s'
  | enter {α β : Type} {proc : sig.Proc β} {next : β → Program sig α} {s s' : S}
      {trace : List (Event sig S)} :
      Partial bodies m (bodies proc) s trace s' →
      Partial bodies m (.invoke proc next) s trace s'
  | invoke {α β : Type} {proc : sig.Proc β} {next : β → Program sig α} {s s' s'' : S}
      {result : β} {inner outer : List (Event sig S)} :
      Run bodies m (bodies proc) s inner result s' →
      Partial bodies m (next result) s' outer s'' →
      Partial bodies m (.invoke proc next) s (inner ++ .ret s proc result s' :: outer) s''

theorem Run.stopped {bodies : Bodies sig} {m : Machine sig S} {program : Program sig α} {s s' : S}
    {trace : List (Event sig S)} {value : α} (hr : Run bodies m program s trace value s') :
    Partial bodies m program s trace s' := by
  induction hr with
  | done => exact .stop
  | perform hadm _ ih => exact .perform hadm ih
  | invoke hb _ _ ihn => exact .invoke hb ihn

-- `good` is asserted of every operation performed; `pre` and `post` are the
-- contracts of the procedures, with the state at entry in `post`.
structure Spec (sig : Signature) (S : Type) where
  good : S → {β : Type} → sig.Op β → β → S → Prop
  pre : {β : Type} → sig.Proc β → S → Prop
  post : {β : Type} → sig.Proc β → S → β → S → Prop

-- Weakest precondition for partial correctness; a procedure is used through its contract.
def wp (m : Machine sig S) (spec : Spec sig S) : Program sig α → (α → S → Prop) → S → Prop
  | .done value, Q, s => Q value s
  | .perform op next, Q, s =>
    ∀ reply, m.admits s op reply = true →
      spec.good s op reply (m.effect s op reply) ∧ wp m spec (next reply) Q (m.effect s op reply)
  | .invoke proc next, Q, s =>
    spec.pre proc s ∧ ∀ result s', spec.post proc s result s' → wp m spec (next result) Q s'

section

variable {m : Machine sig S} {spec : Spec sig S}

@[simp] theorem wp_pure (value : α) (Q : α → S → Prop) (s : S) :
    wp m spec (pure value : Program sig α) Q s = Q value s := rfl

theorem wp_act (op : sig.Op β) (Q : β → S → Prop) (s : S) : wp m spec (Program.act op) Q s =
      ∀ reply, m.admits s op reply = true →
        spec.good s op reply (m.effect s op reply) ∧ Q reply (m.effect s op reply) := rfl

@[simp] theorem wp_call (proc : sig.Proc β) (Q : β → S → Prop) (s : S) :
    wp m spec (Program.call proc) Q s =
      (spec.pre proc s ∧ ∀ result s', spec.post proc s result s' → Q result s') := rfl

theorem wp_bind_eq (program : Program sig α) (rest : α → Program sig β) (Q : β → S → Prop) (s : S) :
    wp m spec (program.bind rest) Q s =
      wp m spec program (fun value s' => wp m spec (rest value) Q s') s := by
  induction program generalizing s with
  | done value => rfl
  | perform op next ih => simp only [Program.bind, wp, ih]
  | invoke proc next ih => simp only [Program.bind, wp, ih]

@[simp] theorem wp_bind (program : Program sig α) (rest : α → Program sig β)
    (Q : β → S → Prop) (s : S) :
    wp m spec (program >>= rest) Q s =
      wp m spec program (fun value s' => wp m spec (rest value) Q s') s :=
  wp_bind_eq program rest Q s

theorem wp_mono {program : Program sig α} {Q R : α → S → Prop} {s : S}
    (h : wp m spec program Q s) (hqr : ∀ value s', Q value s' → R value s') :
    wp m spec program R s := by
  induction program generalizing s with
  | done value => exact hqr value s h
  | perform op next ih =>
    intro reply hadm
    exact ⟨(h reply hadm).1, ih reply (h reply hadm).2⟩
  | invoke proc next ih =>
    exact ⟨h.1, fun result s' hp => ih result (h.2 result s' hp)⟩

end

def Event.Ok (spec : Spec sig S) : Event sig S → Prop
  | .act s op reply s' => spec.good s op reply s'
  | .ret s proc result s' => spec.pre proc s ∧ spec.post proc s result s'

def Verified (bodies : Bodies sig) (m : Machine sig S) (spec : Spec sig S) : Prop :=
  ∀ {β : Type} (proc : sig.Proc β) s, spec.pre proc s →
    wp m spec (bodies proc) (spec.post proc s) s

-- Runs a program with the replies a chooser picks; none when the chooser
-- has no reply, picks one that is not admitted, or the fuel runs out.
def replay (bodies : Bodies sig) (m : Machine sig S)
    (choose : S → {β : Type} → sig.Op β → Option β) :
    Nat → {α : Type} → Program sig α → S → Option (List (Event sig S) × α × S)
  | 0, _, _, _ => none
  | _ + 1, _, .done value, s => some ([], value, s)
  | fuel + 1, _, .perform op next, s =>
    match choose s op with
    | none => none
    | some reply =>
      if m.admits s op reply = true then
        match replay bodies m choose fuel (next reply) (m.effect s op reply) with
        | none => none
        | some (trace, value, s') =>
          some (.act s op reply (m.effect s op reply) :: trace, value, s')
      else none
  | fuel + 1, _, .invoke proc next, s =>
    match replay bodies m choose fuel (bodies proc) s with
    | none => none
    | some (inner, result, s') =>
      match replay bodies m choose fuel (next result) s' with
      | none => none
      | some (outer, value, s'') => some (inner ++ .ret s proc result s' :: outer, value, s'')

variable {bodies : Bodies sig} {choose : S → {β : Type} → sig.Op β → Option β} {fuel : Nat}
  {program : Program sig α}

theorem replay_sound {m : Machine sig S} {s s' : S} {trace : List (Event sig S)} {value : α}
    (h : replay bodies m choose fuel program s = some (trace, value, s')) :
    Run bodies m program s trace value s' := by
  induction fuel generalizing α program s s' trace value with
  | zero => simp [replay] at h
  | succ fuel ih =>
    cases program with
    | done v =>
      cases h
      exact .done
    | perform op next =>
      simp only [replay] at h
      split at h
      · simp at h
      · split at h
        · next hadm =>
            split at h
            · simp at h
            · next hrest =>
                cases h
                exact .perform hadm (ih hrest)
        · simp at h
    | invoke proc next =>
      simp only [replay] at h
      split at h
      · simp at h
      · next hinner =>
          split at h
          · simp at h
          · next houter =>
              cases h
              exact .invoke (ih hinner) (ih houter)

theorem run_of_replay {m : Machine sig S} {s : S} (P : List (Event sig S) × α × S → Bool)
    (h : (replay bodies m choose fuel program s).any P = true) :
    ∃ trace value s', Run bodies m program s trace value s' ∧ P (trace, value, s') = true := by
  obtain ⟨⟨trace, value, s'⟩, hreplay, hp⟩ := (Option.any_eq_true _ _).mp h
  exact ⟨trace, value, s', replay_sound hreplay, hp⟩

end StarlingWg.Interaction
