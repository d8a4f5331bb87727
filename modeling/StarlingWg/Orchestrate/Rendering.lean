import Mathlib.Data.List.Basic
import StarlingWg.Control.Codec
import StarlingWg.Device.Text
import StarlingWg.Orchestrate.Obfuscation

namespace StarlingWg.Orchestrate

open Control StarlingWg.Device Wire UapiLine List

def decimal (n : Nat) : List Char :=
  Nat.toDigits 10 n

def rangeString (lo hi : UInt32) : List Char :=
  if lo = hi then decimal lo.toNat else decimal lo.toNat ++ '-' :: decimal hi.toNat

def hexEncodeToString (bytes : Bytes) : List Char :=
  bytes.flatMap fun b => [Nat.digitChar (b.toNat / 16), Nat.digitChar (b.toNat % 16)]

-- A byte stands as the character of its code.
def GoString.chars (s : GoString) : List Char :=
  s.bytes.map fun b => Char.ofNat b.toNat

-- The key and the value of a device line. The lines about peers are none.
def UapiLine.deviceEntry : UapiLine → Option (String × List Char)
  | .privateKey key => some ("private_key", hexEncodeToString (putKey key))
  | .listenPort port => some ("listen_port", decimal port)
  | .jc count => some ("jc", decimal count.toNat)
  | .jmin size => some ("jmin", decimal size.toNat)
  | .jmax size => some ("jmax", decimal size.toNat)
  | .s1 padding => some ("s1", decimal padding.toNat)
  | .s2 padding => some ("s2", decimal padding.toNat)
  | .s3 padding => some ("s3", decimal padding.toNat)
  | .s4 padding => some ("s4", decimal padding.toNat)
  | .h1 lo hi => some ("h1", rangeString lo hi)
  | .h2 lo hi => some ("h2", rangeString lo hi)
  | .h3 lo hi => some ("h3", rangeString lo hi)
  | .h4 lo hi => some ("h4", rangeString lo hi)
  | .headerProtectionKey key => some ("header_protection_key", hexEncodeToString (putKey key))
  | .i index chain => some (String.ofList ('i' :: decimal index), GoString.chars chain)
  | .contentPaddingAddition lo hi => some ("content_padding_addition", rangeString lo hi)
  | .publicKey _ | .endpoint _ | .persistentKeepaliveInterval _ | .replaceAllowedIPs
  | .allowedIP _ => none

def deviceEntries (conf : List UapiLine) : List (String × List Char) :=
  conf.filterMap deviceEntry

def uapiText (conf : List UapiLine) : List Char :=
  unlines ((deviceEntries conf).map fun (key, value) => key.toList ++ '=' :: value)

section

variable {n : Nat} {c : Char} {value : List Char} {line : UapiLine} {key : String}

theorem mem_decimal (h : c ∈ decimal n) : c.isDigit = true :=
  Nat.isDigit_of_mem_toDigits (by decide) (by decide) h

theorem not_mem_decimal (hc : c.isDigit = false) : c ∉ decimal n := by
  intro h
  rw [mem_decimal h] at hc
  exact absurd hc (by decide)

theorem newline_not_mem_rangeString (lo hi : UInt32) : '\n' ∉ rangeString lo hi := by
  unfold rangeString
  split
  · exact not_mem_decimal (by decide)
  · rw [mem_append, mem_cons, not_or, not_or]
    exact ⟨not_mem_decimal (by decide), by decide, not_mem_decimal (by decide)⟩

theorem newline_not_mem_hex (bytes : Bytes) : '\n' ∉ hexEncodeToString bytes := by
  have hdigit : ∀ d < 16, '\n' ≠ Nat.digitChar d := by decide
  simp only [hexEncodeToString, mem_flatMap, mem_cons, not_mem_nil, or_false, not_exists,
    not_and, not_or]
  intro b _
  have hb := b.toNat_lt
  exact ⟨hdigit _ (by omega), hdigit _ (by omega)⟩

theorem newline_not_mem_chars {s : GoString} (h : (10 : UInt8) ∉ s.bytes) :
    '\n' ∉ GoString.chars s := by
  intro hmem
  obtain ⟨b, hb, hchar⟩ := mem_map.mp hmem
  have hlt := b.toNat_lt
  have hvalid : b.toNat.isValidChar := .inl (by omega)
  have hten : b.toNat = 10 := by
    have hnat := congrArg Char.toNat hchar
    rwa [Char.ofNat, dif_pos hvalid] at hnat
  have heq : b = 10 := UInt8.toNat_inj.mp hten
  exact h (heq ▸ hb)

theorem newline_not_mem_line {key : List Char} (hkey : '\n' ∉ key) (hvalue : '\n' ∉ value) :
    '\n' ∉ key ++ '=' :: value := by
  rw [mem_append, mem_cons, not_or, not_or]
  exact ⟨hkey, by decide, hvalue⟩

def UapiLine.Clean (line : UapiLine) : Prop :=
  ∀ index chain, line = .i index chain → (10 : UInt8) ∉ chain.bytes

structure WellKeyed (key : String) (value : List Char) : Prop where
  equals : '=' ∉ key.toList
  newline : '\n' ∉ key.toList ++ '=' :: value
  device : key ≠ "public_key"

theorem UapiLine.deviceEntry_wellKeyed (hclean : line.Clean)
    (h : line.deviceEntry = some (key, value)) : WellKeyed key value := by
  cases line with
  | i index chain =>
    cases h
    have hkey : ∀ c : Char, c.isDigit = false → c ≠ 'i' →
        c ∉ (String.ofList ('i' :: decimal index)).toList := by
      intro c hdigit hi
      rw [String.toList_ofList, mem_cons, not_or]
      exact ⟨hi, not_mem_decimal hdigit⟩
    refine ⟨hkey _ (by decide) (by decide), ?_, ?_⟩
    · exact newline_not_mem_line (hkey _ (by decide) (by decide))
        (newline_not_mem_chars (hclean index chain rfl))
    · intro hkey
      have hlist := congrArg String.toList hkey
      rw [String.toList_ofList] at hlist
      exact absurd (List.cons.inj hlist).1 (by decide)
  | privateKey _ | headerProtectionKey _ =>
    cases h
    exact ⟨by decide, newline_not_mem_line (by decide) (newline_not_mem_hex _), by decide⟩
  | h1 _ _ | h2 _ _ | h3 _ _ | h4 _ _ | contentPaddingAddition _ _ =>
    cases h
    exact ⟨by decide, newline_not_mem_line (by decide) (newline_not_mem_rangeString _ _), by decide⟩
  | listenPort _ | jc _ | jmin _ | jmax _ | s1 _ | s2 _ | s3 _ | s4 _ =>
    cases h
    exact ⟨by decide, newline_not_mem_line (by decide) (not_mem_decimal (by decide)), by decide⟩
  | publicKey _ | endpoint _ | persistentKeepaliveInterval _ | replaceAllowedIPs | allowedIP _ =>
    simp [deviceEntry] at h

theorem UapiLine.deviceEntry_shared
    (h : line.deviceEntry = some (key, value)) : key ∈ sharedKeys ↔ line.shared = true := by
  cases line with
  | i index chain =>
    cases h
    refine iff_of_false ?_ (by simp [shared])
    have hhead : ∀ key ∈ sharedKeys, key.toList.head? ≠ some 'i' := by decide
    intro hmem
    exact hhead _ hmem (by rw [String.toList_ofList]; rfl)
  | publicKey _ | endpoint _ | persistentKeepaliveInterval _ | replaceAllowedIPs | allowedIP _ =>
    simp [deviceEntry] at h
  | privateKey _ | listenPort _ | jc _ | jmin _ | jmax _ | s1 _ | s2 _ | s3 _ | s4 _ | h1 _ _ | h2 _ _
  | h3 _ _ | h4 _ _ | headerProtectionKey _ | contentPaddingAddition _ _ =>
    cases h
    simp [sharedKeys, shared]

theorem deviceEntries_shared (conf : List UapiLine) : deviceEntries (conf.filter shared) =
      (deviceEntries conf).filter fun e => e.1 ∈ sharedKeys := by
  induction conf with
  | nil => rfl
  | cons line conf ih =>
    cases hentry : line.deviceEntry with
    | none =>
      by_cases hshared : line.shared = true
      · rw [filter_cons_of_pos hshared]
        simpa [deviceEntries, hentry] using ih
      · rw [filter_cons_of_neg hshared]
        simpa [deviceEntries, hentry] using ih
    | some e =>
      obtain ⟨key, value⟩ := e
      have hiff := deviceEntry_shared hentry
      by_cases hshared : line.shared = true
      · rw [filter_cons_of_pos hshared]
        simpa [deviceEntries, hentry, hiff.mpr hshared] using ih
      · have hkey : key ∉ sharedKeys := fun hmem => hshared (hiff.mp hmem)
        rw [filter_cons_of_neg hshared]
        simpa [deviceEntries, hentry, hkey] using ih

end

section

variable (outside : List Char → Except IpcError Unit)

theorem dropCR_append (key value : List Char) :
    dropCR (key ++ '=' :: value) = key ++ '=' :: dropCR value := by
  unfold dropCR
  cases value with
  | nil => simp
  | cons c value =>
    have hlast : (key ++ '=' :: c :: value).getLast? = (c :: value).getLast? := by
      simp [List.getLast?_append, List.getLast?_cons]
    rw [hlast, dropLast_append_cons]
    split <;> rfl

def readEntry (e : String × List Char) : Entry :=
  ⟨e.1, dropCR e.2, outside (e.1.toList ++ '=' :: dropCR e.2)⟩

def fitsBuffer (e : String × List Char) : Bool :=
  (e.1.toList ++ '=' :: e.2).length < maxScanTokenSize

variable {conf : List UapiLine}

theorem readEntry_proper (hclean : ∀ line ∈ conf, line.Clean) {e : String × List Char}
    (he : e ∈ deviceEntries conf) : (readEntry outside e).Proper := by
  obtain ⟨line, hline, hentry⟩ := mem_filterMap.mp he
  have hkeyed := deviceEntry_wellKeyed (hclean line hline) hentry
  exact ⟨hkeyed.equals, hkeyed.device⟩

theorem ipcSet_uapiText (hclean : ∀ line ∈ conf, line.Clean) (device : Settings) :
    ipcSet device outside (uapiText conf) =
      if (deviceEntries conf).all fitsBuffer then
        ipcSetLines false (device, .fromDevice device) true
          (((deviceEntries conf).map (readEntry outside)).map Entry.line)
      else
        ipcSetLines true (device, .fromDevice device) true
          ((((deviceEntries conf).takeWhile fitsBuffer).map (readEntry outside)).map Entry.line) := by
  have hnewline : ∀ text ∈ (deviceEntries conf).map fun e => e.1.toList ++ '=' :: e.2,
      '\n' ∉ text := by
    intro text htext
    obtain ⟨e, he, rfl⟩ := mem_map.mp htext
    obtain ⟨line, hline, hentry⟩ := mem_filterMap.mp he
    exact (deviceEntry_wellKeyed (hclean line hline) hentry).newline
  have hread : ∀ entries : List (String × List Char),
      ((entries.map fun e => e.1.toList ++ '=' :: e.2).map dropCR).map
        (fun line => (⟨line, outside line⟩ : Line)) =
      (entries.map (readEntry outside)).map Entry.line := by
    intro entries
    simp only [map_map]
    refine map_congr_left fun e _ => ?_
    simp [readEntry, Entry.line, dropCR_append]
  rw [ipcSet, scanLines, uapiText, splitOn_unlines hnewline, scan_lines, ipcSetOperation]
  by_cases hall : (deviceEntries conf).all fitsBuffer
  · have hshort : ∀ text ∈ (deviceEntries conf).map fun e => e.1.toList ++ '=' :: e.2,
        text.length < maxScanTokenSize := by
      intro text htext
      obtain ⟨e, he, rfl⟩ := mem_map.mp htext
      simpa [fitsBuffer] using all_eq_true.mp hall e he
    rw [if_pos hshort, if_pos hall, hread]
  · have hlong : ¬∀ text ∈ (deviceEntries conf).map fun e => e.1.toList ++ '=' :: e.2,
        text.length < maxScanTokenSize := by
      intro hshort
      refine hall (all_eq_true.mpr fun e he => ?_)
      simpa [fitsBuffer] using hshort _ (mem_map.mpr ⟨e, he, rfl⟩)
    rw [if_neg hlong, if_neg hall, takeWhile_map, hread]
    rfl

theorem accepted_staged (hclean : ∀ line ∈ conf, line.Clean) {device : Settings}
    (h : (ipcSet device outside (uapiText conf)).2 = .ok ()) :
    (deviceEntries conf).all fitsBuffer ∧ ∃ next,
      stageLines (device, .fromDevice device) ((deviceEntries conf).map (readEntry outside)) = .ok next ∧
      ipcSet device outside (uapiText conf) = finish next false := by
  have hproper : ∀ entries, entries ⊆ deviceEntries conf →
      ∀ e ∈ entries.map (readEntry outside), e.Proper := by
    intro entries hsub e he
    obtain ⟨pair, hpair, rfl⟩ := mem_map.mp he
    exact readEntry_proper outside hclean (hsub hpair)
  rw [ipcSet_uapiText outside hclean] at h ⊢
  by_cases hall : (deviceEntries conf).all fitsBuffer
  · rw [if_pos hall] at h ⊢
    have hlines := hproper _ (List.Subset.refl _)
    obtain ⟨next, hnext⟩ := staged_of_ipcSetLines hlines h
    exact ⟨hall, next, hnext, ipcSetLines_of_staged false hlines hnext⟩
  · rw [if_neg hall] at h
    have hlines := hproper _ (takeWhile_subset fitsBuffer)
    obtain ⟨next, hnext⟩ := staged_of_ipcSetLines hlines h
    rw [ipcSetLines_of_staged true hlines hnext] at h
    exact absurd (finish_ok h).1 (by decide)

end

structure SameWire (left right : Settings) : Prop where
  headers : left.headers = right.headers
  paddings : left.paddings = right.paddings
  headerProtectionKey : left.headerProtectionKey = right.headerProtectionKey

theorem ipcSet_shared {conf : List UapiLine} (hclean : ∀ line ∈ conf, line.Clean)
    {outside : List Char → Except IpcError Unit} (outside' : List Char → Except IpcError Unit)
    (h : (ipcSet newDevice outside (uapiText conf)).2 = .ok ()) :
    (ipcSet newDevice outside' (uapiText (conf.filter shared))).2 = .ok () ∧
      SameWire (ipcSet newDevice outside' (uapiText (conf.filter shared))).1
        (ipcSet newDevice outside (uapiText conf)).1 := by
  obtain ⟨hall, next, hstage, hresult⟩ := accepted_staged outside hclean h
  have hclean' : ∀ line ∈ conf.filter shared, line.Clean :=
    fun line hline => hclean line (mem_filter.mp hline).1
  have hshort : (deviceEntries (conf.filter shared)).all fitsBuffer := by
    rw [deviceEntries_shared, all_eq_true]
    exact fun e he => all_eq_true.mp hall e (mem_filter.mp he).1
  obtain ⟨next', hstage', hnext⟩ := stageLines_shared
    (fun e => outside' (e.key.toList ++ '=' :: e.value)) (rfl : (newDevice, _).2 = _) hstage
  have hentries : (((deviceEntries conf).map (readEntry outside)).filter
      fun e => e.key ∈ sharedKeys).map (fun e =>
        { e with outside := outside' (e.key.toList ++ '=' :: e.value) }) =
      (deviceEntries (conf.filter shared)).map (readEntry outside') := by
    rw [deviceEntries_shared, filter_map, map_map]
    rfl
  rw [hentries] at hstage'
  have hresult' : ipcSet newDevice outside' (uapiText (conf.filter shared)) =
      finish next' false := by
    rw [ipcSet_uapiText outside' hclean', if_pos hshort]
    refine ipcSetLines_of_staged false (fun e he => ?_) hstage'
    obtain ⟨pair, hpair, rfl⟩ := mem_map.mp he
    exact readEntry_proper outside' hclean' hpair
  rw [hresult] at h ⊢
  rw [hresult']
  obtain ⟨hok, hheaders, hpaddings, hkey⟩ := finish_shared h hnext
  exact ⟨hok, hheaders, hpaddings, hkey⟩

theorem mem_lineUnless {absent : Bool} {line x : UapiLine} (h : x ∈ lineUnless absent line) :
    x = line := by
  cases absent with
  | true => simp [lineUnless] at h
  | false => simpa [lineUnless] using h

theorem uapi_clean {p : ObfuscationProfile}
    (h : ∀ chain ∈ [p.i1, p.i2, p.i3, p.i4, p.i5], (10 : UInt8) ∉ chain.bytes) :
    ∀ line ∈ p.uapi, line.Clean := by
  intro line hline index chain heq
  subst heq
  refine h chain ?_
  delta ObfuscationProfile.uapi at hline
  simp only [mem_append, or_assoc] at hline
  rcases hline with hl | hl | hl | hl | hl | hl | hl | hl | hl | hl | hl | hl | hl | hl | hl | hl | hl |
    hl
  iterate 12 exact absurd (mem_lineUnless hl) (by simp)
  iterate 5
    · have hsame := (i.inj (mem_lineUnless hl)).2
      simp [hsame]
  · exact absurd (mem_lineUnless hl) (by simp)

-- From the profile of X over the wire to the device of Y.
theorem cloaked_params_agree (p : ObfuscationProfile)
    (hnewline : ∀ chain ∈ [p.i1, p.i2, p.i3, p.i4, p.i5], (10 : UInt8) ∉ chain.bytes)
    (outside outside' : List Char → Except IpcError Unit)
    (haccepted : (ipcSet newDevice outside (uapiText p.uapi)).2 = .ok ()) (endpoint : AddrPort) :
    ∃ m, decodeBody (Message.cloakedParams (p.toWireParams endpoint)).type
        (Message.cloakedParams (p.toWireParams endpoint)).encodeBody = .ok (.cloakedParams m) ∧
      (ipcSet newDevice outside' (uapiText (cloakedParamsUAPI m))).2 = .ok () ∧
      SameWire (ipcSet newDevice outside' (uapiText (cloakedParamsUAPI m))).1
        (ipcSet newDevice outside (uapiText p.uapi)).1 := by
  have hagree := ipcSet_shared (uapi_clean hnewline) outside' haccepted
  rw [uapi_shared p endpoint] at hagree
  exact ⟨_, decodeBody_encodeBody _, hagree⟩

theorem cloaked_params_agree_shielded :
    let p : ObfuscationProfile :=
      { jc := 4, jmin := 40, jmax := 70, s1 := 15, s2 := 18, s3 := 20, s4 := 23
        h1Lo := 5, h1Hi := 10, h2Lo := 11, h2Hi := 11, h3Lo := 0, h3Hi := 0, h4Lo := 12, h4Hi := 4294967295
        hasHeaderProtectionKey := true, headerProtectionKey := 1
        i1 := "<b 0xc7>", i2 := "", i3 := "", i4 := "", i5 := ""
        contentPaddingAdditionLo := 0, contentPaddingAdditionHi := 0 }
    let outside : List Char → Except IpcError Unit := fun _ => .ok ()
    ∃ m, decodeBody 9 (p.toWireParams ⟨.v4 1, 443⟩).encodeBody = .ok (.cloakedParams m) ∧
      (ipcSet newDevice outside (uapiText (cloakedParamsUAPI m))).2 = .ok () ∧
      SameWire (ipcSet newDevice outside (uapiText (cloakedParamsUAPI m))).1
        (ipcSet newDevice outside (uapiText p.uapi)).1 :=
  cloaked_params_agree _ (by decide) _ _ (by decide +kernel) _

end StarlingWg.Orchestrate
