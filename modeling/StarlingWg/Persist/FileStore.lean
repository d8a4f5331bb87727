import StarlingWg.Interaction.Pool
import StarlingWg.Orchestrate.Rendering

namespace StarlingWg.Persist

open Control Function
open Interaction
open Orchestrate (hexEncodeToString)

abbrev Name := List Char

def path (key : GoString) : Name :=
  hexEncodeToString key.bytes ++ ".json".toList

def tmpPath (key : GoString) : Name :=
  path key ++ ".tmp".toList

theorem digitChar_inj : ∀ d < 16, ∀ e < 16, Nat.digitChar d = Nat.digitChar e → d = e := by
  decide

theorem hexEncodeToString_inj {xs ys : Bytes} (h : hexEncodeToString xs = hexEncodeToString ys) :
    xs = ys := by
  induction xs generalizing ys with
  | nil =>
    cases ys with
    | nil => rfl
    | cons y ys => simp [hexEncodeToString] at h
  | cons x xs ih =>
    cases ys with
    | nil => simp [hexEncodeToString] at h
    | cons y ys =>
      simp only [hexEncodeToString, List.flatMap_cons, List.cons_append, List.nil_append,
        List.cons.injEq] at h
      have hx := x.toNat_lt
      have hy := y.toNat_lt
      have hhigh := digitChar_inj _ (by omega) _ (by omega) h.1
      have hlow := digitChar_inj _ (by omega) _ (by omega) h.2.1
      have hxy : x = y := UInt8.toNat_inj.mp (by omega)
      rw [hxy, ih h.2.2]

theorem path_inj {key key' : GoString} (h : path key = path key') : key = key' := by
  have hbytes := hexEncodeToString_inj (List.append_cancel_right h)
  cases key
  cases key'
  simpa using hbytes

theorem tmpPath_inj {key key' : GoString} (h : tmpPath key = tmpPath key') : key = key' :=
  path_inj (List.append_cancel_right h)

theorem path_ne_tmpPath (key key' : GoString) : path key ≠ tmpPath key' := by
  intro h
  have hlast := congrArg List.getLast? h
  simp [path, tmpPath] at hlast

inductive FileError
  | notExist
  | other (err : String)
  deriving DecidableEq, Repr

inductive Call
  | save (key : GoString) (data : Bytes)
  | load (key : GoString)
  | delete (key : GoString)
  deriving DecidableEq

inductive Outcome
  | saved (err : Option String)
  | loaded (result : Except String (Option Bytes))
  | deleted (err : Option String)
  deriving DecidableEq

-- The system calls. `create` is open with O_CREATE and O_TRUNC; the position of
-- a file is an argument, since every open has its own.
inductive FileOp : Type → Type
  | create (name : Name) : FileOp (Except String Nat)
  | write (fd offset : Nat) (data : Bytes) : FileOp (Except String Nat)
  | close (fd : Nat) : FileOp (Except String Unit)
  | rename (old new : Name) : FileOp (Except String Unit)
  | remove (name : Name) : FileOp (Except FileError Unit)
  | openFile (name : Name) : FileOp (Except FileError Nat)
  | read (fd offset : Nat) : FileOp (Except String Bytes)
  | returned (outcome : Outcome) : FileOp Unit

inductive FileProc : Type → Type
  | writeAll (fd offset : Nat) (rest : Bytes) : FileProc (Except String Unit)
  | readAll (fd : Nat) (got : Bytes) : FileProc (Except FileError Bytes)

def sig : Signature where
  Op := FileOp
  Proc := FileProc

def perform {β : Type} (op : FileOp β) : Program sig β :=
  @Program.act sig β op

def invoke {β : Type} (proc : FileProc β) : Program sig β :=
  @Program.call sig β proc

-- File.Write goes on until all is written; os.ReadFile until there is nothing
-- more.
def body {β : Type} : FileProc β → Program sig β
  | .writeAll fd offset rest =>
    if rest = [] then return .ok ()
    else do
      match ← perform (.write fd offset rest) with
      | .error err => return .error err
      | .ok 0 => return .error "unexpected EOF"
      | .ok n => invoke (.writeAll fd (offset + n) (rest.drop n))
  | .readAll fd got => do
      match ← perform (.read fd got.length) with
      | .error err => return .error (.other err)
      | .ok [] => return .ok got
      | .ok piece => invoke (.readAll fd (got ++ piece))

def bodies : Bodies sig := fun proc => body proc

def writeFile (name : Name) (data : Bytes) : Program sig (Except String Unit) := do
  match ← perform (.create name) with
  | .error err => return .error err
  | .ok fd =>
    let wrote ← invoke (.writeAll fd 0 data)
    let closed ← perform (.close fd)
    match wrote with
    | .error err => return .error err
    | .ok () => return closed

def readFile (name : Name) : Program sig (Except FileError Bytes) := do
  match ← perform (.openFile name) with
  | .error err => return .error err
  | .ok fd => invoke (.readAll fd [])

def save (key : GoString) (data : Bytes) : Program sig (Option String) := do
  let final := path key
  let tmp := tmpPath key
  match ← writeFile tmp data with
  | .error err => return some ("persist: write temp file: " ++ err)
  | .ok () =>
    match ← perform (.rename tmp final) with
    | .error err =>
      let _ ← perform (.remove tmp)
      return some ("persist: rename into place: " ++ err)
    | .ok () => return none

def load (key : GoString) : Program sig (Except String (Option Bytes)) := do
  match ← readFile (path key) with
  | .error .notExist => return .ok none
  | .error (.other err) => return .error ("persist: read file: " ++ err)
  | .ok data => return .ok (some data)

def delete (key : GoString) : Program sig (Option String) := do
  match ← perform (.remove (path key)) with
  | .error .notExist => return none
  | .error (.other err) => return some ("persist: remove file: " ++ err)
  | .ok () => return none

def Call.program : Call → Program sig Unit
  | .save key data => do
      let err ← Persist.save key data
      perform (.returned (.saved err))
  | .load key => do
      let result ← Persist.load key
      perform (.returned (.loaded result))
  | .delete key => do
      let err ← Persist.delete key
      perform (.returned (.deleted err))

section

-- How far a call is: a temporary file that it writes and has not renamed yet,
-- or a file that it reads, with what it has got and whether that is all.
inductive Progress
  | idle
  | writing (fd offset : Nat)
  | reading (fd : Nat) (got : Bytes) (eof : Bool)
  deriving DecidableEq

def Progress.advance (p : Progress) {β : Type} : FileOp β → β → Progress
  | .create _, .ok fd => .writing fd 0
  | .write fd offset _, .ok n => .writing fd (offset + n)
  | .rename _ _, _ => .idle
  | .openFile _, .ok fd => .reading fd [] false
  | .read _ _, .ok piece =>
    match p with
    | .reading fd got _ => .reading fd (got ++ piece) (piece = [])
    | p => p
  | .returned _, _ => .idle
  | _, _ => p

-- A directory of names and the files they stand for. A process that is killed
-- takes its calls with it; those of later processes wait for their epoch.
structure World (ι : Type) where
  names : Name → Option Nat
  files : Nat → Bytes
  next : Nat
  epoch : Nat
  progress : ι → Progress
  results : ι → Option Outcome

-- Bytes between the end of a file and a write behind it are zero.
def writeAt (content : Bytes) (offset : Nat) (data : Bytes) : Bytes :=
  content.take offset ++ List.replicate (offset - content.length) 0 ++ data ++
    content.drop (offset + data.length)

variable {ι : Type} [DecidableEq ι]

def World.create (w : World ι) (name : Name) : World ι :=
  match w.names name with
  | some fd => { w with files := update w.files fd [] }
  | none =>
    { w with
      names := update w.names name (some w.next)
      files := update w.files w.next []
      next := w.next + 1 }

def World.target (w : World ι) (name : Name) : Nat :=
  (w.names name).getD w.next

def World.perform (w : World ι) (i : ι) {β : Type} : FileOp β → β → World ι
  | .create name, .ok _ => w.create name
  | .write fd offset data, .ok n =>
    { w with files := update w.files fd (writeAt (w.files fd) offset (data.take n)) }
  | .rename old new, .ok _ =>
    { w with names := update (update w.names new (w.names old)) old none }
  | .remove name, .ok _ => { w with names := update w.names name none }
  | .returned outcome, _ => { w with results := update w.results i (some outcome) }
  | _, _ => w

def World.admits (w : World ι) {β : Type} : FileOp β → β → Bool
  | .create name, .ok fd => fd = w.target name
  | .write _ _ data, .ok n => n ≤ data.length
  | .rename old _, .ok _ => (w.names old).isSome
  | .remove name, .ok _ => (w.names name).isSome
  | .remove name, .error .notExist => w.names name = none
  | .openFile name, .ok fd => w.names name = some fd
  | .openFile name, .error .notExist => w.names name = none
  | .read fd offset, .ok piece =>
    piece = ((w.files fd).drop offset).take piece.length ∧
      (piece = [] → (w.files fd).length ≤ offset)
  | _, _ => true

def machine (epochs : ι → Nat) (i : ι) : Machine sig (World ι) where
  admits w _ op reply := decide (epochs i = w.epoch) && w.admits (op : FileOp _) reply
  effect w _ op reply :=
    { w.perform i (op : FileOp _) reply with
      progress := update w.progress i ((w.progress i).advance (op : FileOp _) reply) }

-- The process is killed, and the next one starts.
def Killed (w w' : World ι) : Prop :=
  w' = { w with epoch := w.epoch + 1 }

def launch (calls : ι → Call) : Pool sig ι (World ι) where
  threads i := (calls i).program
  state := ⟨fun _ => none, fun _ => [], 0, 0, fun _ => .idle, fun _ => none⟩

abbrev Runs (calls : ι → Call) (epochs : ι → Nat) :
    List (Label sig ι (World ι)) → Pool sig ι (World ι) → Prop :=
  Pool.Steps bodies (machine epochs) Killed (launch calls)

end

end StarlingWg.Persist
