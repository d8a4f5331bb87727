import StarlingWg.Uapi.RestorePeers

namespace StarlingWg.Uapi

open List
open Control (Key putKey)
open StarlingWg.Device (Settings IpcSetDevice UintRange Junk Paddings Headers Timings ObfChain)
open Orchestrate (decimal rangeString hexEncodeToString not_mem_decimal)
open Routing (Network Prefix Table)

variable {E : Type} {p : Platform E}

section

-- The configurations that the lines of a get operation tell apart: a header
-- range of zero is left out, and the reader keeps its default then; a device
-- without a private key takes the zero key for its own; the scanner drops a
-- carriage return at the end of a line, and gives up on long lines.
structure Device.Restorable (p : Platform E) (d : Device E) : Prop where
  headers : ∀ r ∈ d.settings.headers.list, r ≠ ⟨0, 0⟩
  zeroKey : d.privateKey = 0 → d.lookupPeer 0 = none
  specs : ∀ chain, some chain ∈ d.ipackets.list → chain.spec.getLast? ≠ some '\r'
  endpoints : ∀ k id x, d.lookupPeer k = some id → (d.peers id).endpoint = some x →
    (Entry.text ("endpoint", p.dstToString x)).length < Device.maxScanTokenSize

variable {d : Device E} {id : PeerId}

theorem forall_deviceEntries {P : Entry → Prop}
    (hdecimal : ∀ name ∈ deviceNames, ∀ n < 2 ^ 32, P (name, decimal n))
    (hrange : ∀ name ∈ deviceNames, ∀ r, P (rangef name r))
    (hkey : ∀ name ∈ deviceNames, ∀ k, P (keyf name k))
    (hchain : ∀ name ∈ ipacketNames, ∀ chain, some chain ∈ d.ipackets.list → P (name, chain.spec)) :
    ∀ e ∈ d.deviceEntries, P e := by
  have hipacket : ∀ name ∈ ipacketNames, ∀ ipacket ∈ d.ipackets.list,
      ∀ e ∈ ipacketEntry name ipacket, P e := by
    intro name hname ipacket hi e he
    obtain ⟨chain, hc, rfl⟩ := mem_map.mp he
    exact hchain name hname chain (Option.mem_toList.mp hc ▸ hi)
  simp only [Device.deviceEntries, junkEntries, paddingEntries, headerEntries, ipacketEntries,
    timingEntries, forall_mem_append]
  and_intros
  · exact forall_mem_sendIf (hkey _ (by decide) _)
  · exact forall_mem_sendIf (hdecimal _ (by decide) _ (Nat.lt_trans d.port.toNat_lt (by decide)))
  iterate 8 exact forall_mem_sendIf (hdecimal _ (by decide) _ (UInt32.toNat_lt _))
  iterate 4 exact forall_mem_sendIf (hrange _ (by decide) _)
  iterate 5 exact hipacket _ (by decide) _ (by simp [IPackets.list])
  · exact forall_mem_sendIf (hkey _ (by decide) _)
  iterate 6 exact forall_mem_sendIf (hrange _ (by decide) _)

theorem deviceEntries_readable (hd : d.Storable p) (h : d.Restorable p) :
    ∀ e ∈ d.deviceEntries, e.Readable := by
  have hline : ∀ name ∈ deviceNames, name ∈ lineNames := fun _ => mem_append_left _
  have hipacket : ∀ name ∈ ipacketNames, name ∈ lineNames ∧ name.toList.length = 2 := by decide
  refine forall_deviceEntries (fun name hname _ hn => readable_decimal (hline name hname) hn)
    (fun name hname => readable_rangef (hline name hname))
    (fun name hname => readable_keyf (hline name hname)) fun name hname chain hc => ?_
  obtain ⟨hname, htwo⟩ := hipacket name hname
  have hkept := hd.chains chain hc
  have hlength := hkept.length
  exact readable_of_value hname hkept.newline (by omega) (h.specs chain hc)

theorem ownPeerEntries_readable (hp : p.Lawful) (hd : (d.peers id).Storable p)
    (hlength : ∀ x, (d.peers id).endpoint = some x →
      (Entry.text ("endpoint", p.dstToString x)).length < Device.maxScanTokenSize) :
    ∀ e ∈ d.ownPeerEntries p id, e.Readable := by
  simp only [Device.ownPeerEntries, forall_mem_append, forall_mem_singleton, forall_mem_map]
  refine ⟨⟨⟨readable_keyf (by decide) _, fun x hx => ?_⟩,
    forall_mem_sendIf (readable_rangef (by decide) _)⟩, fun network hmem => ?_⟩
  · have hsome := Option.mem_toList.mp hx
    obtain ⟨text, hnewline, hparse⟩ := hd.endpoint x hsome
    exact ⟨clean_of_value (by decide) (hp.newline text x hparse hnewline), hlength x hsome, hp.last x⟩
  · obtain ⟨hmasked, hcidr⟩ := Table.masked_of_mem hmem
    have hw := hp.network network hmasked hcidr
    have hshort := hw.length
    refine readable_of_value (by decide) hw.newline ?_ hw.last
    simp only [Device.maxScanTokenSize]
    change 10 + 1 + _ < _
    omega

theorem newline_not_mem_signed (n : Int) : '\n' ∉ signed n := by
  unfold signed
  split
  · rw [mem_cons, not_or]
    exact ⟨by decide, not_mem_decimal (by decide)⟩
  · exact not_mem_decimal (by decide)

theorem peerEntries_clean (hown : ∀ e ∈ d.ownPeerEntries p id, e.Readable) :
    ∀ e ∈ d.peerEntries p id, e.Clean := by
  simp only [Device.ownPeerEntries, forall_mem_append] at hown
  obtain ⟨⟨⟨hpsk, hendpoint⟩, hkeepalive⟩, hallowed⟩ := hown
  simp only [Device.peerEntries, forall_mem_append, forall_mem_cons]
  have hnone : ∀ e ∈ ([] : List Entry), e.Clean := fun e he => by cases he
  refine ⟨⟨⟨⟨⟨(readable_keyf (by decide) _).toClean, ?_, ?_, hnone⟩, fun e he => ?_⟩, ?_, ?_, ?_, ?_,
    hnone⟩, fun e he => ?_⟩, fun e he => ?_⟩
  · exact (readable_keyf (by decide) _).toClean
  · exact clean_of_value (by decide) (by decide)
  · exact (hendpoint e he).toClean
  · exact clean_of_value (by decide) (newline_not_mem_signed _)
  · exact clean_of_value (by decide) (newline_not_mem_signed _)
  · exact clean_of_value (by decide) (not_mem_decimal (by decide))
  · exact clean_of_value (by decide) (not_mem_decimal (by decide))
  · exact (hkeepalive e he).toClean
  · exact (hallowed e he).toClean

theorem filter_sendIf (c : Bool) (e : Entry) :
    (sendIf c e).filter Entry.settable = if e.settable then sendIf c e else [] := by
  cases c <;> cases h : e.settable <;> simp [sendIf, h]

theorem filter_named {α : Type} (name : String) (hname : name ∉ reported) (value : α → List Char)
    (xs : List α) : (xs.map fun x => (name, value x)).filter Entry.settable =
      xs.map fun x => (name, value x) := by
  rw [filter_eq_self]
  intro e he
  obtain ⟨x, -, rfl⟩ := mem_map.mp he
  simpa [Entry.settable] using hname

theorem filter_deviceEntries (d : Device E) : d.deviceEntries.filter Entry.settable = d.ownEntries := by
  have hchain : ∀ {name}, name ∉ reported → ∀ ipacket : Option ObfChain,
      (ipacketEntry name ipacket).filter Entry.settable = ipacketEntry name ipacket :=
    fun hname ipacket => filter_named _ hname ObfChain.spec ipacket.toList
  have hkeep : ∀ {name} (c : Bool) (value : List Char), name ∉ reported →
      (sendIf c (name, value)).filter Entry.settable = sendIf c (name, value) := by
    intro name c value hname
    rw [filter_sendIf, if_pos (by simpa [Entry.settable] using hname)]
  have hport : ∀ c value, (sendIf c ("listen_port", value)).filter Entry.settable =
      sendIf ((0 : UInt16) ≠ 0) ("listen_port", decimal (0 : UInt16).toNat) := by
    intro c value
    rw [filter_sendIf, if_neg (by simp [Entry.settable, reported])]
    rfl
  simp only [Device.deviceEntries, Device.ownEntries, junkEntries, paddingEntries, headerEntries,
    ipacketEntries, timingEntries, keyf, rangef, filter_append, hport]
  repeat rw [hkeep _ _ (by decide)]
  repeat rw [hchain (by decide)]

theorem filter_peerEntries (d : Device E) (id : PeerId) :
    (d.peerEntries p id).filter Entry.settable =
      keyf "public_key" (d.peers id).remoteStatic :: d.ownPeerEntries p id := by
  have hendpoint := filter_named "endpoint" (by decide) p.dstToString (d.peers id).endpoint.toList
  have hallowed := filter_named "allowed_ip" (by decide) p.prefixString
    (d.allowedips.entriesForPeer id)
  simp only [Device.peerEntries, Device.ownPeerEntries, filter_append, hendpoint, hallowed,
    filter_sendIf]
  simp [Entry.settable, reported, keyf, rangef]

theorem filter_entries (hm : d.Mapped) (range : Ranging) :
    (d.entries p range).filter Entry.settable = d.ownEntries ++
      (range.visit d.keyMap).flatMap fun e => keyf "public_key" e.1 :: d.ownPeerEntries p e.2 := by
  have hblock : ∀ e ∈ range.visit d.keyMap, (d.peerEntries p e.2).filter Entry.settable =
      keyf "public_key" e.1 :: d.ownPeerEntries p e.2 := by
    intro e he
    have hmem : (e.1, e.2) ∈ d.keyMap := (range.perm d.keyMap).mem_iff.mp he
    rw [filter_peerEntries, hm.remoteStatic e.1 e.2 hmem]
  rw [Device.entries, filter_append, filter_deviceEntries, filter_flatMap, flatMap_congr hblock]

end

section

variable {d : Device E}

theorem ownEntries_named (d : Device E) : ∀ e ∈ d.ownEntries, e.1 ≠ "public_key" := by
  have hname : ∀ name ∈ deviceNames, name ≠ "public_key" := by decide
  have hipacket : ∀ name ∈ ipacketNames, name ≠ "public_key" := by decide
  exact forall_deviceEntries (fun name hn _ _ => hname name hn) (fun name hn _ => hname name hn)
    (fun name hn _ => hname name hn) fun name hn _ _ => hipacket name hn

structure Device.SameConfiguration (d d' : Device E) : Prop where
  settings : d'.settings = d.settings
  ipackets : d'.ipackets = d.ipackets
  privateKey : d'.privateKey = d.privateKey
  fwmark : d'.fwmark = d.fwmark
  keys : ∀ k, (d'.lookupPeer k).isSome = (d.lookupPeer k).isSome
  peers : ∀ k id id', d.lookupPeer k = some id → d'.lookupPeer k = some id' → SamePeer d id d' id'

theorem unmerged_sound (d : Device E) : (d.unmerged p).Sound p :=
  ⟨⟨.nil, .nil, by simp [Device.unmerged, newDevice], by simp [Device.unmerged, newDevice],
    fun _ _ hn => absurd hn Table.mem_empty, by simp [Device.unmerged, newDevice]⟩,
    by simp [Device.unmerged, newDevice], by simp [Device.unmerged, newDevice]⟩

theorem feeds_entries (hp : p.Lawful) (hd : d.Storable p) (hs : Parsed d.settings) (hm : d.Sound p)
    (h : d.Restorable p) (range : Ranging) :
    ∃ r : Reading E, Feeds (Accepts p) ⟨newDevice E, .fromDevice Device.newDevice, none⟩
        ((d.entries p range).filter Entry.settable) r ∧
      Restored p d (d.unmerged p) (range.visit d.keyMap) r.device ∧
      r.staged = .fromDevice d.settings := by
  let reading (st : Stage E) : Reading E := ⟨st.1, st.2, none⟩
  have hdevice : Feeds (Accepts p) _ _ _ :=
    (feeds_ownEntries hd hs h.headers).lift (g := reading) fun e he st st' hstore => by
      have hmem : e ∈ d.deviceEntries := by
        rw [← filter_deviceEntries] at he
        exact mem_of_mem_filter he
      exact hstore.accepts (deviceEntries_readable hd h e hmem).equals (ownEntries_named d e he)
  have hperm := range.perm d.keyMap
  have hkeys : (([] ++ range.visit d.keyMap).map Prod.fst).Nodup := (hperm.map _).nodup_iff.mpr hm.keys
  have hsize : ([] ++ range.visit d.keyMap).length ≤ maxPeers := hperm.length_eq.trans_le hm.size
  have hother : ∀ e ∈ range.visit d.keyMap, (d.unmerged p).publicKey ≠ e.1 := by
    intro e he heq
    have hmem : (e.1, e.2) ∈ d.keyMap := hperm.mem_iff.mp he
    by_cases hzero : d.privateKey = 0
    · rw [Device.unmerged, if_pos hzero] at heq
      rw [← heq] at hmem
      have hlookup := hm.toMapped.lookupPeer hmem
      rw [h.zeroKey hzero] at hlookup
      cases hlookup
    · rw [Device.unmerged, if_neg hzero, ← (hd.key.resolve_left hzero).2] at heq
      exact hm.notOwn e.1 e.2 hmem heq.symm
  have hstart : Restored p d (d.unmerged p) [] (d.unmerged p) :=
    ⟨⟨rfl, rfl, rfl, rfl, rfl, rfl⟩, unmerged_sound d, rfl, fun _ _ _ hk => by cases hk⟩
  obtain ⟨r, hpeers, hr, hstaged⟩ := Restored.run hp hd hm.toMapped
    (r := ⟨d.unmerged p, .fromDevice d.settings, none⟩) hstart rfl hkeys
    (fun e he => hperm.mem_iff.mp he) hsize hother
  rw [filter_entries hm.toMapped range]
  exact ⟨r, hdevice.append hpeers, hr, hstaged⟩

theorem entries_readable (hp : p.Lawful) (hd : d.Storable p) (hm : d.Sound p) (h : d.Restorable p)
    (range : Ranging) : (∀ e ∈ d.entries p range, e.Clean) ∧
      ∀ e ∈ (d.entries p range).filter Entry.settable, e.Readable := by
  have hown : ∀ e ∈ range.visit d.keyMap, ∀ x ∈ d.ownPeerEntries p e.2, x.Readable := by
    intro e he
    have hmem : (e.1, e.2) ∈ d.keyMap := (range.perm d.keyMap).mem_iff.mp he
    exact ownPeerEntries_readable hp (hd.peers e.2)
      fun x hx => h.endpoints e.1 e.2 x (hm.toMapped.lookupPeer hmem) hx
  have hdevice := deviceEntries_readable hd h
  constructor
  · rw [Device.entries, forall_mem_append, forall_mem_flatMap]
    exact ⟨fun e he => (hdevice e he).toClean, fun e he => peerEntries_clean (hown e he)⟩
  · rw [filter_entries hm.toMapped, forall_mem_append, forall_mem_flatMap, ← filter_deviceEntries]
    refine ⟨fun e he => hdevice e (mem_of_mem_filter he), fun e he => ?_⟩
    rw [forall_mem_cons]
    exact ⟨readable_keyf (by decide) _, hown e he⟩

theorem lookupPeer_isSome {k : Key} : (d.lookupPeer k).isSome ↔ k ∈ d.keyMap.map Prod.fst := by
  rw [Device.lookupPeer, lookup_isSome_iff]
  constructor
  · rintro ⟨e, hmem, heq⟩
    rw [beq_iff_eq.mp heq]
    exact mem_map_of_mem hmem
  · intro hk
    obtain ⟨e, hmem, rfl⟩ := mem_map.mp hk
    exact ⟨e, hmem, beq_self_eq_true _⟩

theorem Restored.same {f base : Device E} {done : List (Key × PeerId)}
    (hdone : done.Perm d.keyMap) (h : Restored p d base done f) (hsettings : base.settings = d.settings)
    (hipackets : base.ipackets = d.ipackets) (hkey : base.privateKey = d.privateKey)
    (hmark : base.fwmark = d.fwmark) : d.SameConfiguration f := by
  refine ⟨h.own.settings.trans hsettings, h.own.ipackets.trans hipackets,
    h.own.privateKey.trans hkey, h.own.fwmark.trans hmark, fun k => ?_, fun k id id' hk hk' => ?_⟩
  · have hkeys : k ∈ f.keyMap.map Prod.fst ↔ k ∈ d.keyMap.map Prod.fst := by
      rw [h.keys]
      exact (hdone.map _).mem_iff
    rw [Bool.eq_iff_iff, lookupPeer_isSome, lookupPeer_isSome, hkeys]
  · exact h.peers k id id' (hdone.mem_iff.mpr (Device.mem_of_lookupPeer hk))
      (Device.mem_of_lookupPeer hk')

-- A new device set to what get prints is configured the same.
theorem ipcSet_ipcGet (hp : p.Lawful) {calls : List Call} (hcalls : ∀ c ∈ calls, Device.Call.Textual c)
    (h : (Device.run p calls).Restorable p) (range : Ranging) {input : Input}
    (hinput : input.Reads (settableText ((Device.run p calls).ipcGetOperation p range))) :
    ((newDevice E).ipcSetOperation p input).2 = none ∧
      (Device.run p calls).SameConfiguration ((newDevice E).ipcSetOperation p input).1 := by
  obtain ⟨hd, hs⟩ := Device.run_storable (p := p) hcalls
  have hm := Device.run_sound (p := p) calls
  generalize Device.run p calls = d at *
  obtain ⟨hclean, hreadable⟩ := entries_readable hp hd hm h range
  rw [Device.ipcGetOperation, settableText_entries hclean, Input.Reads,
    scanLines_entries hreadable, Prod.mk.injEq] at hinput
  obtain ⟨r, hfeed, hr, hstaged⟩ := feeds_entries hp hd hs hm h range
  have hmerge : r.staged.mergeWithDevice r.device.settings = (d.settings, .ok ()) := by
    rw [hstaged, hr.own.settings]
    exact merge_fromDevice hs.valid rfl rfl rfl
  have hmerged : Restored p d { d.unmerged p with settings := d.settings } (range.visit d.keyMap)
      { r.device with settings := d.settings } := by
    exact ⟨{ hr.own with settings := rfl }, hr.sound.frame (.same rfl rfl rfl rfl rfl rfl), hr.keys,
      fun k id id' hk hk' => { hr.peers k id id' hk hk' with }⟩
  have hset : (newDevice E).ipcSetOperation p input =
      ({ r.device with settings := d.settings }.handlePostConfig r.peer, none) := by
    rw [Device.ipcSetOperation, ← hinput.2]
    refine (ipcSetLines_of_feeds hfeed hinput.1.symm false).trans ?_
    simp only [Device.finish, hmerge]
    rfl
  rw [hset]
  exact ⟨rfl, (hmerged.postConfig rfl r.peer).same (range.perm d.keyMap) rfl rfl rfl rfl⟩

end

def Ranging.inOrder : Ranging :=
  ⟨id, fun _ => .refl _⟩

def Answers.calm : Answers :=
  ⟨none, .ok 51820, none, none, .inOrder⟩

def sampleBits (f : Routing.Family) (text : List Char) : Option Prefix :=
  match text.splitOn '/' with
  | [first, second] =>
    match Device.parseUint f.width first, Device.parseUint 8 second with
    | .ok addr, .ok bits =>
      if h : bits ≤ f.width then some ⟨f, BitVec.ofNat f.width addr, bits, h⟩ else none
    | _, _ => none
  | _ => none

def sampleMark : Routing.Family → Char
  | .ipv4 => '4'
  | .ipv6 => '6'

def sampleParse : List Char → Option Prefix
  | [] => none
  | c :: rest =>
    if c = sampleMark .ipv4 then sampleBits .ipv4 rest
    else if c = sampleMark .ipv6 then sampleBits .ipv6 rest
    else none

def sampleString (network : Network) : List Char :=
  sampleMark network.family :: (decimal network.bits.toNat ++ '/' :: decimal network.cidr)

def sampleEndpoint : List Char :=
  "192.0.2.1:51820".toList

def samplePlatform : Platform Unit where
  publicKey sk := sk + 1
  scalarMult sk pk := sk * pk
  parseEndpoint text := if text = sampleEndpoint then some () else none
  dstToString _ := sampleEndpoint
  parsePrefix := sampleParse
  prefixString := sampleString
  fields text := (text.splitOn ' ').filter (· ≠ [])

theorem sampleParse_sampleString (pre : Prefix) :
    sampleParse (sampleString ⟨pre.family, pre.addr, pre.bits⟩) = some pre := by
  obtain ⟨f, addr, bits, valid⟩ := pre
  have hwidth : f.width ≤ 128 := by cases f <;> decide
  have haddr : Device.parseUint f.width (decimal addr.toNat) = .ok addr.toNat :=
    parseUint_decimal addr.isLt
  have hbits : Device.parseUint 8 (decimal bits) = .ok bits := parseUint_decimal (by omega)
  have hread : sampleBits f (decimal addr.toNat ++ '/' :: decimal bits) = some ⟨f, addr, bits, valid⟩ := by
    simp only [sampleBits, (decimal_spec _).splitOn_pair (show '/'.isDigit = false by decide) (decimal_spec _),
      haddr, hbits, dif_pos valid, BitVec.ofNat_toNat, BitVec.setWidth_eq]
  have hmark : sampleMark .ipv6 ≠ sampleMark .ipv4 := by decide
  cases f with
  | ipv4 => rw [sampleString, sampleParse, if_pos rfl, hread]
  | ipv6 => rw [sampleString, sampleParse, if_neg hmark, if_pos rfl, hread]

theorem sampleString_plain (network : Network) {c : Char} (hc : c.isDigit = false) (hslash : c ≠ '/') :
    c ∉ sampleString network := by
  have hmark : ∀ f, c ≠ sampleMark f := by
    rintro (_ | _) rfl <;> revert hc <;> decide
  simp only [sampleString, mem_cons, mem_append, not_or]
  exact ⟨hmark _, not_mem_decimal hc, hslash, not_mem_decimal hc⟩

theorem sampleString_length {network : Network} (hcidr : network.cidr ≤ network.family.width) :
    (sampleString network).length < 64 := by
  have hwidth : network.family.width ≤ 128 := by cases network.family <;> decide
  have hbits : network.bits.toNat < 10 ^ 39 :=
    Nat.lt_trans (Nat.lt_of_lt_of_le network.bits.isLt (Nat.pow_le_pow_right (by decide) hwidth))
      (by decide)
  have haddr : (decimal network.bits.toNat).length ≤ 39 := Nat.toDigits_length 10 _ 39 (by decide) hbits
  have hlength : (decimal network.cidr).length ≤ 3 :=
    Nat.toDigits_length 10 _ 3 (by decide) (by omega)
  simp only [sampleString, length_cons, length_append]
  omega

theorem samplePlatform_writes {network : Network}
    (hmasked : Routing.mask network.bits network.cidr = network.bits)
    (hcidr : network.cidr ≤ network.family.width) : samplePlatform.Writes network where
  parse := by
    let pre : Prefix := ⟨network.family, network.bits, network.cidr, hcidr⟩
    refine ⟨pre, sampleParse_sampleString pre, ?_⟩
    rw [Prefix.masked, hmasked]
  sign h := sampleString_plain network (by decide) (by decide) (mem_of_mem_head? h)
  newline := sampleString_plain network (by decide) (by decide)
  last h := sampleString_plain network (by decide) (by decide) (mem_of_getLast? h)
  length := sampleString_length hcidr

theorem samplePlatform_endpoint (x : Unit) :
    samplePlatform.parseEndpoint (samplePlatform.dstToString x) = some x := by
  show (if sampleEndpoint = sampleEndpoint then some () else none) = _
  rw [if_pos rfl]

theorem samplePlatform_lawful : samplePlatform.Lawful := by
  refine ⟨fun _ x _ => samplePlatform_endpoint x, fun _ _ _ _ => ?_, fun _ => ?_,
    fun network => samplePlatform_writes⟩
  · show '\n' ∉ sampleEndpoint
    decide
  · show sampleEndpoint.getLast? ≠ some '\r'
    decide

def sampleEntries : List Entry :=
  [keyf "private_key" (clamp 1), ("fwmark", "7".toList), ("s1", "20".toList), ("s2", "20".toList),
    ("s3", "20".toList), ("s4", "20".toList), ("h1", "5-9".toList), keyf "header_protection_key" 2,
    keyf "public_key" 3, ("endpoint", sampleEndpoint),
    ("persistent_keepalive_interval", "25".toList), ("allowed_ip", "4167772160/8".toList),
    keyf "public_key" 4, ("allowed_ip", "42886729729/32".toList)]

def sampleCalls : List Call :=
  [.ipcSet (.ofText .calm (Device.unlines (sampleEntries.map Entry.text)))]

abbrev sampleRestored (calls : List Call) : Device Unit × Option Device.IpcError :=
  (newDevice Unit).ipcSetOperation samplePlatform (.ofText .calm (settableText
    ((Device.run samplePlatform calls).ipcGetOperation samplePlatform .inOrder)))

theorem ofText_textual (text : List Char) :
    ∀ c ∈ [Call.ipcSet (.ofText .calm text)], Device.Call.Textual c := by
  intro c hc
  rw [mem_singleton.mp hc]
  exact ⟨text, Input.ofText_reads .calm text⟩

theorem sampleCalls_restorable :
    (Device.run samplePlatform sampleCalls).Restorable samplePlatform := by
  have hkey : (Device.run samplePlatform sampleCalls).privateKey ≠ 0 := by decide +kernel
  have hspecs : (Device.run samplePlatform sampleCalls).ipackets = {} := by decide +kernel
  have hendpoint : (Entry.text ("endpoint", sampleEndpoint)).length < Device.maxScanTokenSize := by
    decide
  refine ⟨by decide +kernel, fun hzero => absurd hzero hkey, fun chain hc => ?_,
    fun _ _ _ _ _ => hendpoint⟩
  simp [hspecs, IPackets.list] at hc

theorem ipcSet_ipcGet_sample :
    samplePlatform.Lawful ∧ (Device.run samplePlatform sampleCalls).Restorable samplePlatform ∧
    (sampleRestored sampleCalls).2 = none ∧
    (Device.run samplePlatform sampleCalls).SameConfiguration (sampleRestored sampleCalls).1 :=
  ⟨samplePlatform_lawful, sampleCalls_restorable,
    ipcSet_ipcGet samplePlatform_lawful (ofText_textual _) sampleCalls_restorable .inOrder
      (Input.ofText_reads .calm _)⟩

def zeroHeader : List Char :=
  "h1=0\n".toList

theorem zero_header_lost :
    let calls := [Call.ipcSet (.ofText .calm zeroHeader)]
    samplePlatform.Lawful ∧ (∀ c ∈ calls, Device.Call.Textual c) ∧
    ((newDevice Unit).ipcSetOperation samplePlatform (.ofText .calm zeroHeader)).2 = none ∧
    (sampleRestored calls).2 = none ∧
    (Device.run samplePlatform calls).settings.headers.init = ⟨0, 0⟩ ∧
    (sampleRestored calls).1.settings.headers.init = ⟨1, 1⟩ := by
  refine ⟨samplePlatform_lawful, ofText_textual zeroHeader, ?_⟩
  decide +kernel

end StarlingWg.Uapi
