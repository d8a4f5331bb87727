import StarlingWg.Uapi.Device
import StarlingWg.Uapi.Ranges

namespace StarlingWg.Uapi

open List Function
open Control (Key putKey keyOf)
open StarlingWg.Device (Settings UintRange Junk Paddings Headers Timings ObfChain cut maxScanTokenSize scanLines unlines)
open Orchestrate (decimal rangeString hexEncodeToString)
open Wire (beNat)

section

abbrev Entry := String × List Char

def Entry.text (e : Entry) : List Char :=
  e.1.toList ++ '=' :: e.2

def keyf (name : String) (key : Key) : Entry :=
  (name, hexEncodeToString (putKey key))

def rangef (name : String) (r : UintRange) : Entry :=
  (name, rangeString r.lo r.hi)

def sendIf (condition : Bool) (e : Entry) : List Entry :=
  if condition then [e] else []

def signed (n : Int) : List Char :=
  if n < 0 then '-' :: decimal n.natAbs else decimal n.natAbs

def junkEntries (junk : Junk) : List Entry :=
  sendIf (junk.count ≠ 0) ("jc", decimal junk.count.toNat) ++
  sendIf (junk.min ≠ 0) ("jmin", decimal junk.min.toNat) ++
  sendIf (junk.max ≠ 0) ("jmax", decimal junk.max.toNat)

def paddingEntries (paddings : Paddings) : List Entry :=
  sendIf (paddings.init ≠ 0) ("s1", decimal paddings.init.toNat) ++
  sendIf (paddings.response ≠ 0) ("s2", decimal paddings.response.toNat) ++
  sendIf (paddings.cookie ≠ 0) ("s3", decimal paddings.cookie.toNat) ++
  sendIf (paddings.transport ≠ 0) ("s4", decimal paddings.transport.toNat)

def headerEntries (headers : Headers) : List Entry :=
  sendIf (headers.init ≠ ⟨0, 0⟩) (rangef "h1" headers.init) ++
  sendIf (headers.response ≠ ⟨0, 0⟩) (rangef "h2" headers.response) ++
  sendIf (headers.cookie ≠ ⟨0, 0⟩) (rangef "h3" headers.cookie) ++
  sendIf (headers.transport ≠ ⟨0, 0⟩) (rangef "h4" headers.transport)

def ipacketEntry (name : String) (ipacket : Option ObfChain) : List Entry :=
  ipacket.toList.map fun chain => (name, chain.spec)

def ipacketEntries (i : IPackets) : List Entry :=
  ipacketEntry "i1" i.i1 ++ ipacketEntry "i2" i.i2 ++ ipacketEntry "i3" i.i3 ++
  ipacketEntry "i4" i.i4 ++ ipacketEntry "i5" i.i5

def timingEntries (timings : Timings) : List Entry :=
  sendIf (timings.rekeyAfterTimeSec ≠ ⟨0, 0⟩) (rangef "rekey_after_time" timings.rekeyAfterTimeSec) ++
  sendIf (timings.rekeyTimeoutSec ≠ ⟨0, 0⟩) (rangef "rekey_timeout" timings.rekeyTimeoutSec) ++
  sendIf (timings.rejectAfterTimeSec ≠ ⟨0, 0⟩)
    (rangef "reject_after_time" timings.rejectAfterTimeSec) ++
  sendIf (timings.keepaliveTimeoutSec ≠ ⟨0, 0⟩)
    (rangef "keepalive_timeout" timings.keepaliveTimeoutSec) ++
  sendIf (timings.maxHandshakeAttemps ≠ ⟨0, 0⟩)
    (rangef "max_handshake_attempts" timings.maxHandshakeAttemps)

variable {E : Type} (p : Platform E) (range : Ranging) (d : Device E)

def Device.deviceEntries : List Entry :=
  sendIf (d.privateKey ≠ 0) (keyf "private_key" d.privateKey) ++
  sendIf (d.port ≠ 0) ("listen_port", decimal d.port.toNat) ++
  sendIf (d.fwmark ≠ 0) ("fwmark", decimal d.fwmark.toNat) ++
  junkEntries d.settings.junk ++ paddingEntries d.settings.paddings ++
  headerEntries d.settings.headers ++ ipacketEntries d.ipackets ++
  sendIf (d.settings.headerProtectionKey ≠ 0)
    (keyf "header_protection_key" d.settings.headerProtectionKey) ++
  sendIf (d.settings.contentPaddingAddition ≠ ⟨0, 0⟩)
    (rangef "content_padding_addition" d.settings.contentPaddingAddition) ++
  timingEntries d.settings.timings

def nanosPerSecond : Int := 1000000000

def Device.peerEntries (id : PeerId) : List Entry :=
  let peer := d.peers id
  [keyf "public_key" peer.remoteStatic, keyf "preshared_key" peer.presharedKey,
    ("protocol_version", "1".toList)] ++
  peer.endpoint.toList.map (fun endpoint => ("endpoint", p.dstToString endpoint)) ++
  [("last_handshake_time_sec", signed (peer.lastHandshakeNano.tdiv nanosPerSecond)),
    ("last_handshake_time_nsec", signed (peer.lastHandshakeNano.tmod nanosPerSecond)),
    ("tx_bytes", decimal peer.txBytes.toNat), ("rx_bytes", decimal peer.rxBytes.toNat)] ++
  sendIf (peer.persistentKeepaliveInterval ≠ ⟨0, 0⟩)
    (rangef "persistent_keepalive_interval" peer.persistentKeepaliveInterval) ++
  (d.allowedips.entriesForPeer id).map fun network => ("allowed_ip", p.prefixString network)

def Device.entries : List Entry :=
  d.deviceEntries ++ (range.visit d.keyMap).flatMap fun entry => d.peerEntries p entry.2

def Device.ipcGetOperation : List Char :=
  unlines ((d.entries p range).map Entry.text)

end

section

-- Lines that say how the device is and do not configure it.
def reported : List String :=
  ["listen_port", "protocol_version", "last_handshake_time_sec", "last_handshake_time_nsec",
    "tx_bytes", "rx_bytes"]

def settable (line : List Char) : Bool :=
  match cut line with
  | none => false
  | some (key, _) => String.ofList key ∉ reported

def settableText (text : List Char) : List Char :=
  unlines ((text.splitOn '\n').filter settable)

def Input.Reads (input : Input) (text : List Char) : Prop :=
  scanLines text = (input.lines.map Line.text, input.readError)

def Input.ofText (a : Answers) (text : List Char) : Input where
  lines := (scanLines text).1.map fun line => ⟨line, a⟩
  readError := (scanLines text).2

theorem Input.ofText_reads (a : Answers) (text : List Char) : (Input.ofText a text).Reads text := by
  simp [Input.Reads, Input.ofText, comp_def]

def Entry.settable (e : Entry) : Bool :=
  e.1 ∉ reported

structure Entry.Clean (e : Entry) : Prop where
  equals : '=' ∉ e.1.toList
  newline : '\n' ∉ e.text

variable {entries : List Entry}

theorem settableText_entries (h : ∀ e ∈ entries, e.Clean) :
    settableText (unlines (entries.map Entry.text)) =
      unlines ((entries.filter Entry.settable).map Entry.text) := by
  have hlines : ∀ line ∈ entries.map Entry.text, '\n' ∉ line := by
    intro line hl
    obtain ⟨e, he, rfl⟩ := mem_map.mp hl
    exact (h e he).newline
  have hkeep : ∀ e ∈ entries, (Uapi.settable ∘ Entry.text) e = e.settable := by
    intro e he
    rw [comp_apply, Uapi.settable, Entry.text, Device.cut_append (h e he).equals]
    simp [Entry.settable]
  rw [settableText, Device.splitOn_unlines hlines, filter_append, filter_map, filter_congr hkeep]
  simp [Uapi.settable, cut]

-- A line that the scanner returns as it was written.
structure Entry.Readable (e : Entry) : Prop extends Entry.Clean e where
  length : e.text.length < maxScanTokenSize
  last : e.2.getLast? ≠ some '\r'

theorem scanLines_entries (h : ∀ e ∈ entries, e.Readable) :
    scanLines (unlines (entries.map Entry.text)) = (entries.map Entry.text, false) := by
  have hlines : ∀ line ∈ entries.map Entry.text, '\n' ∉ line ∧
      line.length < maxScanTokenSize ∧ Device.dropCR line = line := by
    intro line hl
    obtain ⟨e, he, rfl⟩ := mem_map.mp hl
    refine ⟨(h e he).newline, (h e he).length, ?_⟩
    rw [Entry.text, Orchestrate.dropCR_append, Device.dropCR, if_neg (h e he).last]
  rw [scanLines, Device.splitOn_unlines fun line hl => (hlines line hl).1, Device.scan_lines,
    if_pos fun line hl => (hlines line hl).2.1]
  rw [map_congr_left fun line hl => (hlines line hl).2.2, map_id']

end

theorem hexDigit_digitChar : ∀ d < 16, Device.hexDigit (Nat.digitChar d) = some d := by
  decide

def nibbles (bytes : Bytes) : List Nat :=
  bytes.flatMap fun b => [b.toNat / 16, b.toNat % 16]

theorem mapM_hexDigit (bytes : Bytes) :
    (hexEncodeToString bytes).mapM Device.hexDigit = some (nibbles bytes) := by
  induction bytes with
  | nil => rfl
  | cons b bytes ih =>
    have hb := b.toNat_lt
    have hhigh := hexDigit_digitChar (b.toNat / 16) (by omega)
    have hlow := hexDigit_digitChar (b.toNat % 16) (by omega)
    rw [hexEncodeToString] at ih
    simp [hexEncodeToString, nibbles, mapM_cons, hhigh, hlow, ih]

theorem nibbles_length (bytes : Bytes) : (nibbles bytes).length = 2 * bytes.length := by
  induction bytes with
  | nil => rfl
  | cons b bytes ih =>
    simp only [nibbles, flatMap_cons, length_append, length_cons, length_nil] at ih ⊢
    omega

theorem nibbles_value (bytes : Bytes) (n : Nat) : (nibbles bytes).foldl (fun n d => n * 16 + d) n =
      bytes.foldl (fun n b => n * 256 + b.toNat) n := by
  induction bytes generalizing n with
  | nil => rfl
  | cons b bytes ih =>
    have hstep : (n * 16 + b.toNat / 16) * 16 + b.toNat % 16 = n * 256 + b.toNat := by omega
    simp only [nibbles, flatMap_cons, cons_append, nil_append, foldl_cons, hstep] at ih ⊢
    exact ih _

theorem loadExactHex_key (key : Key) : Device.loadExactHex (hexEncodeToString (putKey key)) = .ok key := by
  have hlength : (nibbles (putKey key)).length = 64 := by
    rw [nibbles_length, putKey, Wire.beBytes_length]
    rfl
  unfold Device.loadExactHex
  rw [mapM_hexDigit]
  simp only [hlength]
  rw [if_neg (by decide), if_neg (by decide), nibbles_value]
  exact congrArg Except.ok (Control.keyOf_putKey key)

theorem clamp_clamp (sk : Key) : clamp (clamp sk) = clamp sk := by
  unfold clamp
  ext i hi
  simp only [BitVec.getElem_or, BitVec.getElem_and, BitVec.getElem_not]
  cases sk[i] <;> cases ((7 : Key) <<< 248)[i] <;> cases ((1 : Key) <<< 7)[i] <;>
    cases ((1 : Key) <<< 6)[i] <;> rfl

section

def ipacketNames : List String :=
  ["i1", "i2", "i3", "i4", "i5"]

def deviceNames : List String :=
  ["private_key", "listen_port", "fwmark", "jc", "jmin", "jmax", "s1", "s2", "s3", "s4", "h1", "h2",
    "h3", "h4"] ++ ipacketNames ++ ["header_protection_key", "content_padding_addition",
    "rekey_after_time", "rekey_timeout", "reject_after_time", "keepalive_timeout",
    "max_handshake_attempts"]

-- The names of the lines that are written here and by the callers of a device.
def lineNames : List String :=
  deviceNames ++ ["public_key", "preshared_key", "protocol_version", "endpoint",
    "last_handshake_time_sec", "last_handshake_time_nsec", "tx_bytes", "rx_bytes",
    "persistent_keepalive_interval", "allowed_ip", "replace_allowed_ips", "remove"]

variable {name : String} {value : List Char}

theorem clean_of_value (hname : name ∈ lineNames) (hvalue : '\n' ∉ value) :
    Entry.Clean (name, value) := by
  have hplain : ∀ name ∈ lineNames, '=' ∉ name.toList ∧ '\n' ∉ name.toList := by decide +kernel
  refine ⟨(hplain name hname).1, ?_⟩
  simp only [Entry.text, mem_append, mem_cons, not_or]
  exact ⟨(hplain name hname).2, by decide, hvalue⟩

theorem readable_of_value (hname : name ∈ lineNames) (hvalue : '\n' ∉ value)
    (hlength : name.toList.length + 1 + value.length < maxScanTokenSize)
    (hlast : value.getLast? ≠ some '\r') : Entry.Readable (name, value) := by
  refine ⟨clean_of_value hname hvalue, ?_, hlast⟩
  simp only [Entry.text, length_append, length_cons]
  omega

theorem lineNames_length : ∀ name ∈ lineNames, name.toList.length < 32 := by
  decide +kernel

theorem readable_of_short (hname : name ∈ lineNames) (hnewline : '\n' ∉ value)
    (hreturn : '\r' ∉ value) (hlength : value.length < 128) : Entry.Readable (name, value) := by
  refine readable_of_value hname hnewline ?_ fun hlast => hreturn (mem_of_getLast? hlast)
  have hshort := lineNames_length name hname
  simp only [maxScanTokenSize]
  omega

theorem decimal_length {n : Nat} (hn : n < 2 ^ 32) : (decimal n).length ≤ 10 :=
  Nat.toDigits_length 10 n 10 (by decide) (Nat.lt_trans hn (by decide))

theorem readable_decimal (hname : name ∈ lineNames) {n : Nat} (hn : n < 2 ^ 32) :
    Entry.Readable (name, decimal n) := by
  have hlength := decimal_length hn
  exact readable_of_short hname (Orchestrate.not_mem_decimal (by decide))
    (Orchestrate.not_mem_decimal (by decide)) (by omega)

theorem readable_rangef (hname : name ∈ lineNames) (r : UintRange) : (rangef name r).Readable := by
  have hlo := decimal_length r.lo.toNat_lt
  have hhi := decimal_length r.hi.toNat_lt
  refine readable_of_short hname (Orchestrate.newline_not_mem_rangeString _ _) ?_ ?_
  · unfold rangeString
    split
    · exact Orchestrate.not_mem_decimal (by decide)
    · rw [mem_append, mem_cons, not_or, not_or]
      exact ⟨Orchestrate.not_mem_decimal (by decide), by decide, Orchestrate.not_mem_decimal (by decide)⟩
  · unfold rangeString
    split
    · omega
    · rw [length_append, length_cons]
      omega

theorem digitChar_ne : ∀ d < 16, Nat.digitChar d ≠ '\r' := by
  decide

theorem return_not_mem_hex (bytes : Bytes) : '\r' ∉ hexEncodeToString bytes := by
  intro h
  obtain ⟨b, -, hb⟩ := mem_flatMap.mp h
  have hlt := b.toNat_lt
  rw [mem_cons, mem_singleton] at hb
  rcases hb with hb | hb
  · exact digitChar_ne _ (by omega) hb.symm
  · exact digitChar_ne _ (by omega) hb.symm

theorem readable_keyf (hname : name ∈ lineNames) (key : Key) : (keyf name key).Readable := by
  refine readable_of_short hname (Orchestrate.newline_not_mem_hex _) (return_not_mem_hex _) ?_
  have hlength : (hexEncodeToString (putKey key)).length = 64 := by
    rw [hexEncodeToString, length_flatMap]
    simp [putKey, Wire.beBytes_length, Control.keySize]
  rw [hlength]
  decide

theorem forall_mem_sendIf {c : Bool} {e : Entry} {P : Entry → Prop} (h : P e) :
    ∀ x ∈ sendIf c e, P x := by
  intro x hx
  unfold sendIf at hx
  split at hx
  · rw [mem_singleton.mp hx]
    exact h
  · cases hx

end

end StarlingWg.Uapi
