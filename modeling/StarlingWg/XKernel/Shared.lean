import StarlingWg.Interaction.Refinement
import StarlingWg.Control.Message

namespace StarlingWg.XKernel

open Control Interaction List

structure Config where
  interface : String
  privateKey : Key
  listenPort : UInt16
  jc : Int
  jmin : Int
  jmax : Int
  s1 : Int
  s2 : Int
  s3 : Int
  s4 : Int
  h1 : Int
  h2 : Int
  h3 : Int
  h4 : Int
  persistentKeepalive : Int
  awgBinary : String
  deriving DecidableEq, Repr

structure SharedDevice where
  iface : String
  awgBin : String
  keepalive : Int
  deriving DecidableEq, Repr

-- The command lines New and Close run. The arguments of `awg set` come in
-- pairs after the name of the interface.
inductive Command
  | linkDel (iface : String)
  | linkAdd (iface : String)
  | awgSet (bin iface : String) (args : List (String × String))
  | linkUp (iface : String)
  deriving DecidableEq, Repr

inductive Op : Type → Type
  | run (command : Command) : Op (Except String Unit)
  | writeTempKey (key : Key) : Op (Except String String)
  | removeFile (name : String) : Op Unit

inductive Proc : Type → Type

abbrev sig : Signature where
  Op := Op
  Proc := Proc

abbrev Prog (α : Type) := Program sig α

abbrev perform {β : Type} (op : Op β) : Prog β := Program.act op

def bodies : Bodies sig := fun proc => nomatch proc

def appendIfNonZero (args : List (String × String)) (flag : String) (v : Int) :
    List (String × String) :=
  if v = 0 then args else args ++ [(flag, toString v)]

def setArgs (cfg : Config) (keyFile : String) : List (String × String) :=
  let args := [("private-key", keyFile), ("listen-port", toString cfg.listenPort.toNat)]
  let args := appendIfNonZero args "jc" cfg.jc
  let args := appendIfNonZero args "jmin" cfg.jmin
  let args := appendIfNonZero args "jmax" cfg.jmax
  let args := appendIfNonZero args "s1" cfg.s1
  let args := appendIfNonZero args "s2" cfg.s2
  let args := appendIfNonZero args "s3" cfg.s3
  let args := appendIfNonZero args "s4" cfg.s4
  let args := appendIfNonZero args "h1" cfg.h1
  let args := appendIfNonZero args "h2" cfg.h2
  let args := appendIfNonZero args "h3" cfg.h3
  appendIfNonZero args "h4" cfg.h4

-- The part of New that runs while the key file exists.
def configure (cfg : Config) (awgBin keyFile : String) : Prog (Except String SharedDevice) := do
  match ← perform (.run (.awgSet awgBin cfg.interface (setArgs cfg keyFile))) with
  | .error err =>
    let _ ← perform (.run (.linkDel cfg.interface))
    return .error ("xkernel: configure interface " ++ cfg.interface ++ ": " ++ err)
  | .ok _ =>
    match ← perform (.run (.linkUp cfg.interface)) with
    | .error err =>
      let _ ← perform (.run (.linkDel cfg.interface))
      return .error ("xkernel: bring up interface " ++ cfg.interface ++ ": " ++ err)
    | .ok _ => return .ok ⟨cfg.interface, awgBin, cfg.persistentKeepalive⟩

-- New, once an old interface of the name is out of the way.
def create (cfg : Config) (awgBin : String) : Prog (Except String SharedDevice) := do
  match ← perform (.run (.linkAdd cfg.interface)) with
  | .error err => return .error ("xkernel: create interface " ++ cfg.interface ++ ": " ++ err)
  | .ok _ =>
    match ← perform (.writeTempKey cfg.privateKey) with
    -- the interface that was added stays
    | .error err => return .error ("xkernel: write private key: " ++ err)
    | .ok keyFile =>
      let dev ← configure cfg awgBin keyFile
      perform (.removeFile keyFile)
      return dev

def new (cfg : Config) : Prog (Except String SharedDevice) := do
  if cfg.interface = "" then
    return .error "xkernel: Interface must not be empty"
  else
    let awgBin := if cfg.awgBinary = "" then "awg" else cfg.awgBinary
    -- the error of this command is ignored
    let _ ← perform (.run (.linkDel cfg.interface))
    create cfg awgBin

def close (dev : SharedDevice) : Prog (Except String Unit) := do
  match ← perform (.run (.linkDel dev.iface)) with
  | .error err => return .error ("xkernel: delete interface " ++ dev.iface ++ ": " ++ err)
  | .ok _ => return .ok ()

-- A network interface of type amneziawg. A setting that was never given has
-- the kernel's default.
structure Interface where
  settings : List (String × String) := []
  up : Bool := false
  deriving DecidableEq, Repr

abbrev Kernel := String → Option Interface

namespace Kernel

def setting (k : Kernel) (iface flag : String) : Option String :=
  (k iface).bind fun i => i.settings.lookup flag

def update (k : Kernel) (iface : String) (i : Option Interface) : Kernel :=
  fun name => if name = iface then i else k name

def exec (k : Kernel) : Command → Kernel
  | .linkDel iface => k.update iface none
  | .linkAdd iface => k.update iface (some {})
  | .awgSet _ iface args =>
    k.update iface ((k iface).map fun i => { i with settings := args ++ i.settings })
  | .linkUp iface => k.update iface ((k iface).map fun i => { i with up := true })

-- Any command may fail, and must when the interface is not as it needs it.
def permits (k : Kernel) : Command → Bool
  | .linkAdd iface => (k iface).isNone
  | .linkDel iface => (k iface).isSome
  | .awgSet _ iface _ => (k iface).isSome
  | .linkUp iface => (k iface).isSome

@[simp] theorem update_self (k : Kernel) (iface : String) (i : Option Interface) :
    k.update iface i iface = i := by
  simp [update]

end Kernel

-- A failing `awg set` may have applied some of its settings; New deletes the
-- interface then, so that nobody reads them.
def kernelMachine : Machine sig Kernel where
  admits k _ op reply := match op, reply with
    | .run command, .ok _ => k.permits command
    | _, _ => true
  effect k _ op reply := match op, reply with
    | .run command, .ok _ => k.exec command
    | _, _ => k

section

variable {spec : Spec sig Kernel} {k : Kernel}

@[simp] theorem wp_run {command : Command} {Q : Except String Unit → Kernel → Prop} :
    wp kernelMachine spec (perform (.run command)) Q k ↔
      (∀ err, spec.good k (.run command) (.error err) k ∧ Q (.error err) k) ∧
      (k.permits command = true → spec.good k (.run command) (.ok ()) (k.exec command) ∧
        Q (.ok ()) (k.exec command)) := by
  constructor
  · intro h
    exact ⟨fun err => h (.error err) rfl, fun hp => h (.ok ()) hp⟩
  · rintro ⟨herr, hok⟩ (err | _) hadm
    · exact herr err
    · exact hok hadm

@[simp] theorem wp_writeTempKey {key : Key} {Q : Except String String → Kernel → Prop} :
    wp kernelMachine spec (perform (.writeTempKey key)) Q k ↔
      ∀ reply, spec.good k (.writeTempKey key) reply k ∧ Q reply k :=
  ⟨fun h reply => h reply rfl, fun h reply _ => h reply⟩

@[simp] theorem wp_removeFile {name : String} {Q : Unit → Kernel → Prop} :
    wp kernelMachine spec (perform (.removeFile name)) Q k ↔
      spec.good k (.removeFile name) () k ∧ Q () k :=
  ⟨fun h => h () rfl, fun h _ _ => h⟩

end

def anySpec : Spec sig Kernel where
  good _ _ _ _ _ := True
  pre proc _ := nomatch proc
  post proc _ _ _ := nomatch proc

theorem any_verified : Verified bodies kernelMachine anySpec :=
  fun proc => nomatch proc

def Configured (cfg : Config) (k : Kernel) : Prop :=
  ∃ keyFile, k cfg.interface = some ⟨setArgs cfg keyFile, true⟩

theorem configure_configured (cfg : Config) (awgBin keyFile : String) (k : Kernel)
    (hnew : k cfg.interface = some {}) :
    wp kernelMachine anySpec (configure cfg awgBin keyFile)
      (fun result k' => ∀ dev, result = .ok dev → Configured cfg k') k := by
  unfold configure
  simp only [wp_bind, wp_run]
  refine ⟨fun err => ⟨trivial, ?_⟩, fun _ => ⟨trivial, fun err => ⟨trivial, ?_⟩, fun _ => ⟨trivial, ?_⟩⟩⟩
  · simp [anySpec]
  · simp [anySpec]
  · intro _ _
    exact ⟨keyFile, by simp [Kernel.exec, hnew]⟩

theorem create_configured (cfg : Config) (awgBin : String) (k : Kernel) :
    wp kernelMachine anySpec (create cfg awgBin)
      (fun result k' => ∀ dev, result = .ok dev → Configured cfg k') k := by
  unfold create
  simp only [wp_bind, wp_run, wp_writeTempKey]
  refine ⟨fun err => ⟨trivial, by simp⟩, fun _ => ⟨trivial, ?_⟩⟩
  -- the command succeeds only with a new interface
  have hadded : k.exec (.linkAdd cfg.interface) cfg.interface = some {} := by
    simp [Kernel.exec]
  rintro (err | keyFile)
  · exact ⟨trivial, by simp⟩
  · refine ⟨trivial, ?_⟩
    simp only [wp_bind, wp_removeFile]
    refine wp_mono (configure_configured cfg awgBin keyFile _ hadded) ?_
    intro result k' hresult
    exact ⟨trivial, hresult⟩

theorem new_configured (cfg : Config) (k : Kernel) : wp kernelMachine anySpec (new cfg)
      (fun result k' => ∀ dev, result = .ok dev → Configured cfg k') k := by
  unfold new
  split
  · simp
  · simp only [wp_bind, wp_run]
    have hcreate := create_configured cfg (if cfg.awgBinary = "" then "awg" else cfg.awgBinary)
    exact ⟨fun err => ⟨trivial, hcreate k⟩, fun _ => ⟨trivial, hcreate _⟩⟩

def given (v : Int) : Option String :=
  if v = 0 then none else some (toString v)

theorem lookup_appendIfNonZero (args : List (String × String)) (name flag : String) (v : Int) :
    (appendIfNonZero args flag v).lookup name =
      (args.lookup name).or (if name = flag then given v else none) := by
  unfold appendIfNonZero given
  by_cases hv : v = 0
  · simp [hv]
  · by_cases hname : name = flag
    · simp [hv, hname, lookup_append]
    · simp [hv, hname, lookup_append, lookup_cons, beq_eq_false_iff_ne.mpr hname]

-- The parameters both ends of a cloaked tunnel must agree on.
def Config.shared (cfg : Config) : List (String × Int) :=
  [("s1", cfg.s1), ("s2", cfg.s2), ("s3", cfg.s3), ("s4", cfg.s4),
    ("h1", cfg.h1), ("h2", cfg.h2), ("h3", cfg.h3), ("h4", cfg.h4)]

theorem Configured.setting {cfg : Config} {k : Kernel} (h : Configured cfg k) {flag : String}
    {v : Int} (hv : (flag, v) ∈ cfg.shared) : k.setting cfg.interface flag = given v := by
  obtain ⟨keyFile, hk⟩ := h
  simp only [Kernel.setting, hk, Option.bind_some, setArgs]
  simp only [Config.shared, mem_cons, Prod.mk.injEq, not_mem_nil, or_false] at hv
  rcases hv with ⟨rfl, rfl⟩ | ⟨rfl, rfl⟩ | ⟨rfl, rfl⟩ | ⟨rfl, rfl⟩ | ⟨rfl, rfl⟩ | ⟨rfl, rfl⟩ |
    ⟨rfl, rfl⟩ | ⟨rfl, rfl⟩ <;>
    simp [lookup_appendIfNonZero, lookup_cons]

end StarlingWg.XKernel
