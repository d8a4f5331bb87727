import Mathlib.Algebra.Group.Nat.Defs
import StarlingWg.Control.Message

namespace StarlingWg.Device

open Control

inductive IpcCode
  | io
  | protocol
  | invalid
  | portInUse
  | unknown
  deriving DecidableEq, Repr

inductive Cause
  | malformed
  | outOfRange
  | wrongFormat
  | wrongRange
  | notHex
  | wrongLength
  | other (text : String)
  deriving DecidableEq, Repr

structure IpcError where
  code : IpcCode
  context : String
  cause : Option Cause := none
  deriving DecidableEq, Repr

-- strconv.ParseUint in base 10: the first character that is not a digit or
-- takes the value over the limit decides.
def parseDigits (limit : Nat) : Nat → List Char → Except Cause Nat
  | n, [] => .ok n
  | n, c :: cs =>
    if c.isDigit then
      let next := n * 10 + (c.toNat - '0'.toNat)
      if limit ≤ next then .error .outOfRange else parseDigits limit next cs
    else .error .malformed

def parseUint (bitSize : Nat) : List Char → Except Cause Nat
  | [] => .error .malformed
  | cs => parseDigits (2 ^ bitSize) 0 cs

def hexDigit (c : Char) : Option Nat :=
  if c.isDigit then some (c.toNat - '0'.toNat)
  else if 'a' ≤ c ∧ c ≤ 'f' then some (c.toNat - 'a'.toNat + 10)
  else if 'A' ≤ c ∧ c ≤ 'F' then some (c.toNat - 'A'.toNat + 10)
  else none

def loadExactHex (cs : List Char) : Except Cause Key :=
  match cs.mapM hexDigit with
  | none => .error .notHex
  | some digits =>
    if digits.length % 2 = 1 then .error .notHex
    else if digits.length ≠ 64 then .error .wrongLength
    else .ok (BitVec.ofNat 256 (digits.foldl (fun n d => n * 16 + d) 0))

-- The source packs the two bounds into one uint64.
structure UintRange where
  lo : UInt32
  hi : UInt32
  deriving DecidableEq, Repr

namespace UintRange

def fromUint32 (lo hi : UInt32) : UintRange := ⟨lo, hi⟩

def fromString (str : List Char) : Except Cause UintRange :=
  match str.splitOn '-' with
  | [part] => do
      let lo ← parseUint 32 part
      return fromUint32 (.ofNat lo) (.ofNat lo)
  | [first, second] => do
      let lo ← parseUint 32 first
      let hi ← parseUint 32 second
      if hi < lo then
        throw .wrongRange
      return fromUint32 (.ofNat lo) (.ofNat hi)
  | _ => .error .wrongFormat

def contains (r : UintRange) (num : UInt32) : Bool :=
  r.lo ≤ num && num ≤ r.hi

def overlap (r right : UintRange) : Bool :=
  r.lo ≤ right.hi && right.lo ≤ r.hi

def WellFormed (r : UintRange) : Prop :=
  r.lo ≤ r.hi

instance (r : UintRange) : Decidable r.WellFormed :=
  inferInstanceAs (Decidable (_ ≤ _))

end UintRange

structure Headers where
  init : UintRange
  response : UintRange
  cookie : UintRange
  transport : UintRange
  deriving DecidableEq, Repr

structure Paddings where
  init : UInt32
  response : UInt32
  cookie : UInt32
  transport : UInt32
  deriving DecidableEq, Repr

structure Junk where
  count : UInt32 := 0
  min : UInt32 := 0
  max : UInt32 := 0
  deriving DecidableEq, Repr

structure Timings where
  rekeyAfterTimeSec : UintRange := ⟨0, 0⟩
  rekeyTimeoutSec : UintRange := ⟨0, 0⟩
  rejectAfterTimeSec : UintRange := ⟨0, 0⟩
  keepaliveTimeoutSec : UintRange := ⟨0, 0⟩
  maxHandshakeAttemps : UintRange := ⟨0, 0⟩
  deriving DecidableEq, Repr

structure Settings where
  headers : Headers
  paddings : Paddings
  headerProtectionKey : Key
  junk : Junk
  contentPaddingAddition : UintRange
  timings : Timings
  deriving DecidableEq, Repr

def headerCipherNonceSize : UInt32 := 12

def messageInitiationType : UInt32 := 1

def messageResponseType : UInt32 := 2

def messageCookieReplyType : UInt32 := 3

def messageTransportType : UInt32 := 4

def newDevice : Settings where
  headers :=
    { init := .fromUint32 messageInitiationType messageInitiationType
      response := .fromUint32 messageResponseType messageResponseType
      cookie := .fromUint32 messageCookieReplyType messageCookieReplyType
      transport := .fromUint32 messageTransportType messageTransportType }
  paddings := ⟨0, 0, 0, 0⟩
  headerProtectionKey := 0
  junk := {}
  contentPaddingAddition := ⟨0, 0⟩
  timings := {}

structure IpcSetDevice where
  headers : Headers
  paddings : Paddings
  headerProtectionKey : Key
  deriving DecidableEq, Repr

def IpcSetDevice.fromDevice (device : Settings) : IpcSetDevice where
  headers := device.headers
  paddings := device.paddings
  headerProtectionKey := device.headerProtectionKey

def Headers.list (h : Headers) : List UintRange :=
  [h.init, h.response, h.cookie, h.transport]

def Paddings.list (p : Paddings) : List UInt32 :=
  [p.init, p.response, p.cookie, p.transport]

def anyOverlap : List UintRange → Bool
  | [] => false
  | left :: rest => rest.any left.overlap || anyOverlap rest

-- The headers are stored before the paddings are checked.
def IpcSetDevice.mergeWithDevice (d : IpcSetDevice) (device : Settings) :
    Settings × Except String Unit :=
  if anyOverlap d.headers.list then
    (device, .error "headers must not overlap")
  else
    let stored := { device with headers := d.headers }
    match (if d.headerProtectionKey = 0 then none
      else d.paddings.list.findIdx? fun padding => padding < headerCipherNonceSize) with
    | some i =>
      (stored, .error ("S" ++ toString i ++ " must be more then 12 to use headerProtection"))
    | none =>
      ({ stored with
        paddings := d.paddings
        headerProtectionKey := d.headerProtectionKey }, .ok ())

-- A line of the input, and what the rest of the device answers to it where
-- it is about the rest: keys, sockets, I1-I5 and peers.
structure Line where
  text : List Char
  outside : Except IpcError Unit

def fails {α : Type} (context : String) : Except Cause α → Except IpcError α
  | .ok value => .ok value
  | .error cause => .error ⟨.invalid, context, some cause⟩

abbrev Staged := Settings × IpcSetDevice

def storeUint32 (value : List Char) (context : String) (store : UInt32 → Staged) :
    Except IpcError Staged := do
  let n ← fails context (parseUint 32 value)
  return store (.ofNat n)

def storePadding (value : List Char) (context : String) (store : UInt32 → Staged) :
    Except IpcError Staged := do
  let padding ← fails context (parseUint 16 value)
  return store (.ofNat padding)

def storeRange (value : List Char) (context : String) (store : UintRange → Staged) :
    Except IpcError Staged := do
  let rang ← fails context (UintRange.fromString value)
  return store rang

def withPaddings (staged : Staged) (paddings : Paddings) : Staged :=
  (staged.1, { staged.2 with paddings := paddings })

def withHeaders (staged : Staged) (headers : Headers) : Staged :=
  (staged.1, { staged.2 with headers := headers })

def withTimings (staged : Staged) (timings : Timings) : Staged :=
  ({ staged.1 with timings := timings }, staged.2)

def withJunk (staged : Staged) (junk : Junk) : Staged :=
  ({ staged.1 with junk := junk }, staged.2)

def handleDeviceLine (staged : Staged) (key : String) (value : List Char)
    (outside : Except IpcError Unit) : Except IpcError Staged :=
  let paddings := staged.2.paddings
  let headers := staged.2.headers
  let timings := staged.1.timings
  let junk := staged.1.junk
  match key with
  | "private_key" | "listen_port" | "fwmark" | "replace_peers" | "i1" | "i2" | "i3" | "i4" | "i5" =>
    outside.map fun _ => staged
  | "jc" => storeUint32 value "failed to parse jc" fun n => withJunk staged { junk with count := n }
  | "jmin" => storeUint32 value "failed to parse jmin" fun n => withJunk staged { junk with min := n }
  | "jmax" => storeUint32 value "failed to parse jmax" fun n => withJunk staged { junk with max := n }
  | "s1" => storePadding value "failed to parse s1" fun n =>
    withPaddings staged { paddings with init := n }
  | "s2" => storePadding value "failed to parse s2" fun n =>
    withPaddings staged { paddings with response := n }
  | "s3" => storePadding value "failed to parse s3" fun n =>
    withPaddings staged { paddings with cookie := n }
  | "s4" => storePadding value "failed to parse s4" fun n =>
    withPaddings staged { paddings with transport := n }
  | "h1" => storeRange value "failed to parse H1" fun r => withHeaders staged { headers with init := r }
  | "h2" => storeRange value "failed to parse H2" fun r =>
    withHeaders staged { headers with response := r }
  | "h3" => storeRange value "failed to parse H3" fun r =>
    withHeaders staged { headers with cookie := r }
  | "h4" => storeRange value "failed to parse H4" fun r =>
    withHeaders staged { headers with transport := r }
  | "header_protection_key" => do
      let key ← fails "failed to set header_protection_key" (loadExactHex value)
      return (staged.1, { staged.2 with headerProtectionKey := key })
  | "content_padding_addition" => storeRange value "failed to parse content_padding_addition" fun r =>
    ({ staged.1 with contentPaddingAddition := r }, staged.2)
  | "rekey_after_time" => storeRange value "failed to parse rekey after time" fun r =>
    withTimings staged { timings with rekeyAfterTimeSec := r }
  | "rekey_timeout" => storeRange value "failed to parse rekey timeout" fun r =>
    withTimings staged { timings with rekeyTimeoutSec := r }
  | "reject_after_time" => storeRange value "failed to parse reject after time" fun r =>
    withTimings staged { timings with rejectAfterTimeSec := r }
  | "keepalive_timeout" => storeRange value "failed to parse keepalive timeout" fun r =>
    withTimings staged { timings with keepaliveTimeoutSec := r }
  | "max_handshake_attempts" => storeRange value "failed to parse max handshake attempts" fun r =>
    withTimings staged { timings with maxHandshakeAttemps := r }
  | _ => .error ⟨.invalid, "invalid UAPI device key: " ++ key, none⟩

-- strings.Cut at the first '='.
def cut : List Char → Option (List Char × List Char)
  | [] => none
  | '=' :: value => some ([], value)
  | c :: rest => (cut rest).map fun (key, value) => (c :: key, value)

def finish (staged : Staged) (readError : Bool) : Settings × Except IpcError Unit :=
  match staged.2.mergeWithDevice staged.1 with
  | (device, .ok _) =>
    (device, if readError then .error ⟨.io, "failed to read input", none⟩ else .ok ())
  | (device, .error text) =>
    (device, .error ⟨.invalid, "failed to merge with device", some (.other text)⟩)

structure Input where
  lines : List Line
  readError : Bool

-- The loop over the lines. A blank line ends the operation and nothing is
-- read after it; after the first public_key line the rest are about peers.
def ipcSetLines (readError : Bool) (staged : Staged) (deviceConfig : Bool) :
    List Line → Settings × Except IpcError Unit
  | [] => finish staged readError
  | line :: lines =>
    if line.text = [] then finish staged false
    else match cut line.text with
    | none => (staged.1, .error ⟨.protocol, "failed to parse line " ++ String.ofList line.text, none⟩)
    | some (key, value) =>
      if String.ofList key = "public_key" then
        match line.outside with
        | .error err => (staged.1, .error err)
        | .ok _ => ipcSetLines readError staged false lines
      else if deviceConfig then
        match handleDeviceLine staged (String.ofList key) value line.outside with
        | .error err => (staged.1, .error err)
        | .ok next => ipcSetLines readError next true lines
      else
        match line.outside with
        | .error err => (staged.1, .error err)
        | .ok _ => ipcSetLines readError staged false lines

def ipcSetOperation (device : Settings) (input : Input) : Settings × Except IpcError Unit :=
  ipcSetLines input.readError (device, .fromDevice device) true input.lines

def ipcSets (device : Settings) : List Input → Settings
  | [] => device
  | input :: inputs => ipcSets (ipcSetOperation device input).1 inputs

-- What the slicing in the send and receive paths relies on.
structure Valid (headers : Headers) (paddings : Paddings) (key : Key) : Prop where
  wellFormed : ∀ r ∈ headers.list, r.WellFormed
  disjoint : headers.list.Pairwise fun left right => left.overlap right = false
  shielded : key ≠ 0 → ∀ padding ∈ paddings.list, headerCipherNonceSize ≤ padding

def Settings.Valid (device : Settings) : Prop :=
  Device.Valid device.headers device.paddings device.headerProtectionKey

theorem newDevice_valid : newDevice.Valid := by
  constructor <;> decide

theorem anyOverlap_eq_false {headers : List UintRange} (h : anyOverlap headers = false) :
    headers.Pairwise fun left right => left.overlap right = false := by
  induction headers with
  | nil => exact .nil
  | cons left rest ih =>
    simp only [anyOverlap, Bool.or_eq_false_iff, List.any_eq_false, Bool.not_eq_true] at h
    exact .cons h.1 (ih h.2)

theorem parseDigits_lt {limit n value : Nat} {cs : List Char} (hn : n < limit)
    (h : parseDigits limit n cs = .ok value) : value < limit := by
  induction cs generalizing n with
  | nil =>
    simp only [parseDigits, Except.ok.injEq] at h
    omega
  | cons c cs ih =>
    simp only [parseDigits] at h
    split at h
    · split at h
      · simp at h
      · exact ih (by omega) h
    · simp at h

theorem parseUint_lt {bitSize value : Nat} {cs : List Char}
    (h : parseUint bitSize cs = .ok value) : value < 2 ^ bitSize := by
  unfold parseUint at h
  split at h
  · simp at h
  · exact parseDigits_lt (Nat.two_pow_pos bitSize) h

theorem bind_ok {ε α β : Type} {x : Except ε α} {f : α → Except ε β} {b : β}
    (h : x >>= f = .ok b) : ∃ a, x = .ok a ∧ f a = .ok b := by
  cases x with
  | error err => exact absurd h (by simp [bind, Except.bind])
  | ok a => exact ⟨a, rfl, h⟩

theorem fails_ok {α : Type} {context : String} {x : Except Cause α} {value : α}
    (h : fails context x = .ok value) : x = .ok value := by
  cases x with
  | error cause => simp [fails] at h
  | ok a => simpa [fails] using h

theorem UintRange.fromString_wellFormed {str : List Char} {r : UintRange}
    (h : UintRange.fromString str = .ok r) : r.WellFormed := by
  unfold fromString at h
  split at h
  · obtain ⟨lo, -, hr⟩ := bind_ok h
    rw [← Except.ok.inj hr]
    exact UInt32.le_refl _
  · obtain ⟨lo, hlo, h⟩ := bind_ok h
    obtain ⟨hi, hhi, h⟩ := bind_ok h
    split at h
    · simp [throw, throwThe, MonadExceptOf.throw, bind, Except.bind] at h
    · next hle =>
        have hr : UintRange.fromUint32 (.ofNat lo) (.ofNat hi) = r := Except.ok.inj h
        rw [← hr]
        show UInt32.ofNat lo ≤ UInt32.ofNat hi
        rw [UInt32.le_iff_toNat_le, UInt32.toNat_ofNat_of_lt' (parseUint_lt hlo),
          UInt32.toNat_ofNat_of_lt' (parseUint_lt hhi)]
        omega
  · simp at h

def Settings.ranges (s : Settings) : List UintRange :=
  [s.contentPaddingAddition, s.timings.rekeyAfterTimeSec, s.timings.rekeyTimeoutSec,
    s.timings.rejectAfterTimeSec, s.timings.keepaliveTimeoutSec, s.timings.maxHandshakeAttemps]

-- What a device line can do: it leaves the merged values of the device alone,
-- and what it stages or stores is well formed and fits 16 bits.
structure Stages (staged next : Staged) : Prop where
  headers : next.1.headers = staged.1.headers
  paddings : next.1.paddings = staged.1.paddings
  key : next.1.headerProtectionKey = staged.1.headerProtectionKey
  ranges : ∀ r ∈ next.2.headers.list, r.WellFormed ∨ r ∈ staged.2.headers.list
  sizes : ∀ padding ∈ next.2.paddings.list, padding < 65536 ∨ padding ∈ staged.2.paddings.list
  stored : ∀ r ∈ next.1.ranges, r.WellFormed ∨ r ∈ staged.1.ranges

section

variable {staged next : Staged} {value : List Char} {context : String}

theorem Stages.unstaged (h1 : next.1.headers = staged.1.headers)
    (h2 : next.1.paddings = staged.1.paddings)
    (h3 : next.1.headerProtectionKey = staged.1.headerProtectionKey)
    (h4 : next.2.headers = staged.2.headers) (h5 : next.2.paddings = staged.2.paddings)
    (h6 : ∀ r ∈ next.1.ranges, r.WellFormed ∨ r ∈ staged.1.ranges) : Stages staged next :=
  ⟨h1, h2, h3, fun _ hr => .inr (h4 ▸ hr), fun _ hp => .inr (h5 ▸ hp), h6⟩

theorem storeUint32_ok {store : UInt32 → Staged} (h : storeUint32 value context store = .ok next) :
    next = store (((parseUint 32 value).toOption.map UInt32.ofNat).getD 0) := by
  obtain ⟨n, hn, hnext⟩ := bind_ok h
  rw [← Except.ok.inj hnext, fails_ok hn]
  rfl

theorem storePadding_ok {store : UInt32 → Staged} (h : storePadding value context store = .ok next) :
    ∃ n : UInt32, n < 65536 ∧ next = store n := by
  obtain ⟨n, hn, hnext⟩ := bind_ok h
  refine ⟨_, ?_, (Except.ok.inj hnext).symm⟩
  have hlt := parseUint_lt (fails_ok hn)
  rw [UInt32.lt_iff_toNat_lt, UInt32.toNat_ofNat_of_lt' (by rw [UInt32.size]; omega)]
  exact hlt

theorem storeRange_ok {store : UintRange → Staged} (h : storeRange value context store = .ok next) :
    ∃ r : UintRange, r.WellFormed ∧ next = store r := by
  obtain ⟨r, hr, hnext⟩ := bind_ok h
  exact ⟨r, UintRange.fromString_wellFormed (fails_ok hr), (Except.ok.inj hnext).symm⟩

theorem Stages.withHeaders {headers : Headers}
    (h : ∀ r ∈ headers.list, r.WellFormed ∨ r ∈ staged.2.headers.list) :
    Stages staged (withHeaders staged headers) :=
  ⟨rfl, rfl, rfl, h, fun _ => .inr, fun _ => .inr⟩

theorem Stages.withPaddings {paddings : Paddings}
    (h : ∀ padding ∈ paddings.list, padding < 65536 ∨ padding ∈ staged.2.paddings.list) :
    Stages staged (withPaddings staged paddings) :=
  ⟨rfl, rfl, rfl, fun _ => .inr, h, fun _ => .inr⟩

theorem handleDeviceLine_stages {key : String} {outside : Except IpcError Unit}
    (h : handleDeviceLine staged key value outside = .ok next) : Stages staged next := by
  unfold handleDeviceLine at h
  split at h
  -- the lines about the rest of the device
  iterate 9
    · cases outside with
      | error err => simp [Except.map] at h
      | ok _ =>
        rw [← Except.ok.inj h]
        exact .unstaged rfl rfl rfl rfl rfl fun _ => .inr
  -- jc, jmin and jmax
  iterate 3
    · rw [storeUint32_ok h]
      exact .unstaged rfl rfl rfl rfl rfl fun _ => .inr
  -- s1 to s4
  iterate 4
    · obtain ⟨n, hn, rfl⟩ := storePadding_ok h
      exact .withPaddings (by simp [Paddings.list, hn])
  -- h1 to h4
  iterate 4
    · obtain ⟨r, hr, rfl⟩ := storeRange_ok h
      exact .withHeaders (by simp [Headers.list, hr])
  · obtain ⟨key, -, hnext⟩ := bind_ok h
    rw [← Except.ok.inj hnext]
    exact .unstaged rfl rfl rfl rfl rfl fun _ => .inr
  -- content_padding_addition and the timings
  iterate 6
    · obtain ⟨r, hr, rfl⟩ := storeRange_ok h
      exact .unstaged rfl rfl rfl rfl rfl (by simp [Settings.ranges, withTimings, hr])
  · simp at h

end

structure Ready (staged : Staged) : Prop where
  device : staged.1.Valid
  headers : ∀ r ∈ staged.2.headers.list, r.WellFormed

theorem Ready.of_stages {staged next : Staged} (h : Ready staged) (hs : Stages staged next) :
    Ready next := by
  refine ⟨?_, fun r hr => (hs.ranges r hr).elim id (h.headers r)⟩
  unfold Settings.Valid
  rw [hs.headers, hs.paddings, hs.key]
  exact h.device

-- The headers of a merge that fails at the paddings are in the device already.
theorem Ready.merge {staged : Staged} (h : Ready staged) :
    (staged.2.mergeWithDevice staged.1).1.Valid := by
  unfold IpcSetDevice.mergeWithDevice
  split
  · exact h.device
  · next hoverlap =>
      have hdisjoint := anyOverlap_eq_false (Bool.eq_false_iff.mpr hoverlap)
      split
      · exact ⟨h.headers, hdisjoint, h.device.shielded⟩
      · next hnone =>
          refine ⟨h.headers, hdisjoint, fun hkey padding hp => ?_⟩
          rw [if_neg hkey, List.findIdx?_eq_none_iff] at hnone
          exact UInt32.not_lt.mp (by simpa using hnone padding hp)

theorem finish_device (staged : Staged) (readError : Bool) :
    (finish staged readError).1 = (staged.2.mergeWithDevice staged.1).1 := by
  unfold finish
  split <;> simp_all

theorem ipcSetLines_holds {P : Staged → Prop} {Q : Settings → Prop}
    (hstep : ∀ {staged next}, P staged → Stages staged next → P next)
    (hdevice : ∀ {staged}, P staged → Q staged.1)
    (hmerge : ∀ {staged}, P staged → Q (staged.2.mergeWithDevice staged.1).1)
    {readError : Bool} {lines : List Line} {staged : Staged} {deviceConfig : Bool} (h : P staged) :
    Q (ipcSetLines readError staged deviceConfig lines).1 := by
  induction lines generalizing staged deviceConfig with
  | nil => exact finish_device staged readError ▸ hmerge h
  | cons line lines ih =>
    unfold Device.ipcSetLines
    split
    · exact finish_device staged false ▸ hmerge h
    split
    · exact hdevice h
    split
    · split
      · exact hdevice h
      · exact ih h
    split
    · split
      · exact hdevice h
      · next hline => exact ih (hstep h (handleDeviceLine_stages hline))
    · split
      · exact hdevice h
      · exact ih h

theorem ipcSets_valid_of {device : Settings} (h : device.Valid) (inputs : List Input) :
    (ipcSets device inputs).Valid := by
  induction inputs generalizing device with
  | nil => exact h
  | cons input inputs ih =>
    exact ih (ipcSetLines_holds Ready.of_stages Ready.device Ready.merge ⟨h, h.wellFormed⟩)

-- Failed operations included.
theorem ipcSets_valid (inputs : List Input) : (ipcSets newDevice inputs).Valid :=
  ipcSets_valid_of newDevice_valid inputs

section

variable {d : IpcSetDevice} {device : Settings}

theorem mergeWithDevice_error {text : String} (h : (d.mergeWithDevice device).2 = .error text) :
    (d.mergeWithDevice device).1 =
      if anyOverlap d.headers.list then device else { device with headers := d.headers } := by
  unfold IpcSetDevice.mergeWithDevice at h ⊢
  by_cases hoverlap : anyOverlap d.headers.list = true
  · rw [if_pos hoverlap, if_pos hoverlap]
  · rw [if_neg hoverlap] at h
    rw [if_neg hoverlap, if_neg hoverlap]
    split at h
    · rfl
    · cases h

-- The headers are stored before the last check.
theorem mergeWithDevice_unchanged_iff {text : String}
    (h : (d.mergeWithDevice device).2 = .error text) :
    (d.mergeWithDevice device).1 = device ↔
      anyOverlap d.headers.list = true ∨ d.headers = device.headers := by
  rw [mergeWithDevice_error h]
  by_cases hoverlap : anyOverlap d.headers.list = true
  · simp only [hoverlap, if_true, true_or]
  · rw [if_neg hoverlap, or_iff_right hoverlap]
    exact ⟨fun heq => congrArg Settings.headers heq, fun heq => by rw [heq]⟩

theorem mergeWithDevice_unchanged_own :
    let staged : IpcSetDevice := ⟨newDevice.headers, ⟨0, 0, 0, 0⟩, 1⟩
    (staged.mergeWithDevice newDevice).1 = newDevice := by
  apply (mergeWithDevice_unchanged_iff (d := ⟨newDevice.headers, ⟨0, 0, 0, 0⟩, 1⟩) ?_).mpr
  · exact .inr rfl
  · exact "S0 must be more then 12 to use headerProtection"
  · rfl

theorem mergeWithDevice_half_applied :
    let staged : IpcSetDevice := ⟨{ newDevice.headers with init := ⟨5, 5⟩ }, ⟨0, 0, 0, 0⟩, 1⟩
    (staged.mergeWithDevice newDevice).2 =
        .error "S0 must be more then 12 to use headerProtection" ∧
      (staged.mergeWithDevice newDevice).1.headers.init = ⟨5, 5⟩ ∧
      newDevice.headers.init = ⟨1, 1⟩ ∧
      (staged.mergeWithDevice newDevice).1.headerProtectionKey = 0 :=
  ⟨rfl, rfl, rfl, rfl⟩

end

end StarlingWg.Device
