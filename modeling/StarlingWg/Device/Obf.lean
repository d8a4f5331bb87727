import StarlingWg.Device.Config

namespace StarlingWg.Device

inductive Obf
  | bytes (data : Bytes)
  | timestamp
  | rand (length : Int)
  | randChar (length : Int)
  | randDigits (length : Int)
  | data
  | dataString
  | dataSize (length : Int)
  deriving DecidableEq, Repr

structure ObfChain where
  spec : List Char
  obfs : List Obf
  deriving DecidableEq, Repr

-- strconv.Atoi for an int of 64 bits.
def atoi (str : List Char) : Except String Int :=
  let (negative, digits) := match str with
    | '-' :: rest => (true, rest)
    | '+' :: rest => (false, rest)
    | _ => (false, str)
  if digits = [] ∨ digits.any (fun c => !c.isDigit) then .error "invalid syntax"
  else
    let n := digits.foldl (fun n c => n * 10 + (c.toNat - '0'.toNat)) 0
    if negative then
      if 2 ^ 63 < n then .error "value out of range" else .ok (-n)
    else if 2 ^ 63 ≤ n then .error "value out of range" else .ok n

def hexBytes : List Nat → Bytes
  | high :: low :: rest => UInt8.ofNat (high * 16 + low) :: hexBytes rest
  | _ => []

def newBytesObf (val : List Char) : Except String Obf :=
  let val := match val with
    | '0' :: 'x' :: rest => rest
    | _ => val
  if val = [] then .error "empty argument"
  else if val.length % 2 ≠ 0 then .error "odd amount of symbols"
  else match val.mapM hexDigit with
  | none => .error "invalid byte"
  | some digits => .ok (.bytes (hexBytes digits))

def newRandObf (val : List Char) : Except String Obf :=
  (atoi val).map .rand

def newRandCharObf (val : List Char) : Except String Obf :=
  (atoi val).map .randChar

def newRandDigitsObf (val : List Char) : Except String Obf :=
  (atoi val).map .randDigits

def newDataSizeObf (val : List Char) : Except String Obf :=
  (atoi val).map .dataSize

def obfBuilders : List (String × (List Char → Except String Obf)) :=
  [("b", newBytesObf), ("t", fun _ => .ok .timestamp), ("r", newRandObf), ("rc", newRandCharObf),
    ("rd", newRandDigitsObf), ("d", fun _ => .ok .data), ("ds", fun _ => .ok .dataString),
    ("dz", newDataSizeObf)]

-- What stands between each '<' and the next '>'.
def obfTags : Option (List Char) → List Char → Except String (List (List Char))
  | none, [] => .ok []
  | some _, [] => .error "missing enclosing >"
  | none, c :: rest => if c = '<' then obfTags (some []) rest else obfTags none rest
  | some tag, c :: rest =>
    if c = '>' then (obfTags none rest).map (tag.reverse :: ·) else obfTags (some (c :: tag)) rest

-- `fields` is strings.Fields.
def buildTag (fields : List Char → List (List Char)) (tag : List Char) : Except String Obf :=
  match fields tag with
  | [] => .error "empty tag"
  | key :: rest =>
    match obfBuilders.lookup (String.ofList key) with
    | none => .error ("unknown tag <" ++ String.ofList key ++ ">")
    | some builder =>
      match builder (rest.headD []) with
      | .error err => .error ("failed to build <" ++ String.ofList key ++ ">: " ++ err)
      | .ok obf => .ok obf

-- The errors of all tags are joined; a chain without any tag is nil.
def newObfChain (fields : List Char → List (List Char)) (spec : List Char) :
    Except String (Option ObfChain) :=
  match obfTags none spec with
  | .error err => .error err
  | .ok tags =>
    let built := tags.map (buildTag fields)
    let errs := built.filterMap fun
      | .error err => some err
      | .ok _ => none
    let obfs := built.filterMap Except.toOption
    if errs ≠ [] then .error ("\n".intercalate errs)
    else if obfs = [] then .ok none
    else .ok (some ⟨spec, obfs⟩)

theorem newObfChain_spec {fields : List Char → List (List Char)} {spec : List Char} {chain : ObfChain}
    (h : newObfChain fields spec = .ok (some chain)) : chain.spec = spec := by
  unfold newObfChain at h
  split at h
  · cases h
  · dsimp only at h
    split at h
    · cases h
    · split at h
      · cases h
      · cases h
        rfl

end StarlingWg.Device
