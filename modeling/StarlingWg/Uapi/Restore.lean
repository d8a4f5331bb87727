import StarlingWg.Uapi.Storable

namespace StarlingWg.Uapi

open List
open Control (Key putKey)
open StarlingWg.Device (Settings IpcSetDevice UintRange Junk Paddings Headers Timings ObfChain Staged)
open Orchestrate (decimal rangeString hexEncodeToString)
open Routing (Network)

variable {E : Type} {p : Platform E}

section

def Feeds {σ : Type} (takes : σ → Entry → σ → Prop) : σ → List Entry → σ → Prop
  | st, [], st' => st' = st
  | st, e :: entries, st' => ∃ mid, takes st e mid ∧ Feeds takes mid entries st'

variable {σ : Type} {takes : σ → Entry → σ → Prop} {st mid st' : σ} {entries entries' : List Entry}
  {e : Entry}

theorem Feeds.append (h : Feeds takes st entries mid) (h' : Feeds takes mid entries' st') :
    Feeds takes st (entries ++ entries') st' := by
  induction entries generalizing st with
  | nil =>
    obtain rfl : mid = st := h
    exact h'
  | cons e entries ih =>
    obtain ⟨next, htake, hrest⟩ := h
    exact ⟨next, htake, ih hrest⟩

theorem Feeds.single (h : takes st e st') : Feeds takes st [e] st' :=
  ⟨st', h, rfl⟩

-- A line that is left out would have stored what is there already.
theorem Feeds.sendIf {c : Bool} (hsent : c = true → takes st e st') (hleft : c = false → st' = st) :
    Feeds takes st (sendIf c e) st' := by
  cases c with
  | true => exact .single (hsent rfl)
  | false => exact hleft rfl

theorem Feeds.toList {α : Type} {value : Option α} {entry : α → Entry}
    (hsent : ∀ x, value = some x → takes st (entry x) st') (hleft : value = none → st' = st) :
    Feeds takes st (value.toList.map entry) st' := by
  cases value with
  | none => exact hleft rfl
  | some x => exact .single (hsent x rfl)

theorem Feeds.lift {τ : Type} {takes' : τ → Entry → τ → Prop} {g : σ → τ}
    (hg : ∀ e ∈ entries, ∀ st st', takes st e st' → takes' (g st) e (g st'))
    (h : Feeds takes st entries st') : Feeds takes' (g st) entries (g st') := by
  induction entries generalizing st with
  | nil => exact congrArg g h
  | cons e entries ih =>
    rw [forall_mem_cons] at hg
    obtain ⟨next, htake, hrest⟩ := h
    exact ⟨g next, hg.1 st next htake, ih hg.2 hrest⟩

end

section

abbrev Stage (E : Type) := Device E × IpcSetDevice

-- A device line is accepted, whatever the bind answers.
def Stores (p : Platform E) (st : Stage E) (e : Entry) (st' : Stage E) : Prop :=
  ∀ a, st.1.handleDeviceLine p st.2 e.1 e.2 a = (st', none)

-- The keys that are not about the settings.
def ownKeys : List String :=
  ["private_key", "listen_port", "fwmark", "replace_peers", "i1", "i2", "i3", "i4", "i5"]

variable {f : Device E} {s s' : IpcSetDevice} {settings : Settings} {key : String}
  {value : List Char}

theorem Stores.setting (hkey : key ∉ ownKeys)
    (h : StarlingWg.Device.handleDeviceLine (f.settings, s) key value (.ok ()) = .ok (settings, s')) :
    Stores p (f, s) (key, value) ({ f with settings := settings }, s') := by
  intro a
  unfold Device.handleDeviceLine
  dsimp only
  split
  iterate 9
    · exact absurd (by decide) hkey
  · rw [h]

theorem Feeds.setting {c : Bool} (hkey : key ∉ ownKeys) (hsent : c = true →
      StarlingWg.Device.handleDeviceLine (f.settings, s) key value (.ok ()) = .ok (settings, s'))
    (hleft : c = false → settings = f.settings ∧ s' = s) :
    Feeds (Stores p) (f, s) (Uapi.sendIf c (key, value)) ({ f with settings := settings }, s') := by
  refine .sendIf (fun hc => .setting hkey (hsent hc)) fun hc => ?_
  obtain ⟨rfl, rfl⟩ := hleft hc
  rfl

theorem anyOverlap_of_disjoint {headers : List UintRange}
    (h : headers.Pairwise fun left right => left.overlap right = false) :
    Device.anyOverlap headers = false := by
  induction h with
  | nil => rfl
  | cons hleft _ ih =>
    simp only [Device.anyOverlap, Bool.or_eq_false_iff, any_eq_false, Bool.not_eq_true]
    exact ⟨hleft, ih⟩

-- The staged values are those of a device already, so that the merge accepts them.
theorem merge_fromDevice {s base : Settings} (hs : s.Valid) (hjunk : base.junk = s.junk)
    (hcontent : base.contentPaddingAddition = s.contentPaddingAddition)
    (htimings : base.timings = s.timings) :
    (IpcSetDevice.fromDevice s).mergeWithDevice base = (s, .ok ()) := by
  have hoverlap : Device.anyOverlap s.headers.list = false := anyOverlap_of_disjoint hs.disjoint
  obtain ⟨headers, paddings, key, junk, content, timings⟩ := s
  subst hjunk hcontent htimings
  unfold IpcSetDevice.mergeWithDevice
  rw [if_neg (by rw [Bool.not_eq_true]; exact hoverlap)]
  split
  · next i hi =>
      -- a padding that is too small for the key
      split at hi
      · cases hi
      · next hkey =>
          obtain ⟨hlt, hsmall, -⟩ := List.findIdx?_eq_some_iff_getElem.mp hi
          exact absurd (of_decide_eq_true hsmall)
            (UInt32.not_lt.mpr (hs.shielded hkey _ (getElem_mem hlt)))
  · rfl

end

section

variable {context : String}

theorem storeUint32_decimal (n : UInt32) (store : UInt32 → Staged) :
    Device.storeUint32 (decimal n.toNat) context store = .ok (store n) := by
  have hparse : Device.parseUint 32 (decimal n.toNat) = .ok n.toNat := parseUint_decimal n.toNat_lt
  unfold Device.storeUint32
  rw [hparse]
  show Except.ok (store (.ofNat n.toNat)) = _
  rw [UInt32.ofNat_toNat]

theorem storePadding_decimal {n : UInt32} (hn : n < 65536) (store : UInt32 → Staged) :
    Device.storePadding (decimal n.toNat) context store = .ok (store n) := by
  have hparse : Device.parseUint 16 (decimal n.toNat) = .ok n.toNat :=
    parseUint_decimal (UInt32.lt_iff_toNat_lt.mp hn)
  unfold Device.storePadding
  rw [hparse]
  show Except.ok (store (.ofNat n.toNat)) = _
  rw [UInt32.ofNat_toNat]

end

section

variable (f : Device E) (s : IpcSetDevice)

def putJunk (junk : Junk) : Device E :=
  { f with settings := { f.settings with junk := junk } }

def putPaddings (paddings : Paddings) : IpcSetDevice :=
  { s with paddings := paddings }

def putHeaders (headers : Headers) : IpcSetDevice :=
  { s with headers := headers }

def putIPackets (i : IPackets) : Device E :=
  { f with ipackets := i }

def putTimings (timings : Timings) : Device E :=
  { f with settings := { f.settings with timings := timings } }

abbrev onto (st : Staged) : Stage E :=
  ({ f with settings := st.1 }, st.2)

section

variable (p) (key : String) {context : String} {c : Bool}

-- A field of the settings: its line stores the value, and a value that is
-- left out is there already.
theorem feeds_field {α : Type} {put : α → Staged} {before after : α} {value : List Char}
    (hkey : key ∉ ownKeys)
    (hsent : c = true → StarlingWg.Device.handleDeviceLine (put before) key value (.ok ()) =
      .ok (put after))
    (hleft : c = false → after = before) :
    Feeds (Stores p) (onto f (put before)) (sendIf c (key, value)) (onto f (put after)) := by
  refine .setting hkey hsent fun h => ?_
  rw [hleft h]
  exact ⟨rfl, rfl⟩

theorem feeds_uint32 (put : UInt32 → Staged) {n : UInt32} (hkey : key ∉ ownKeys)
    (hline : ∀ value, StarlingWg.Device.handleDeviceLine (put 0) key value (.ok ()) =
      Device.storeUint32 value context put) :
    Feeds (Stores p) (onto f (put 0)) (sendIf (n ≠ 0) (key, decimal n.toNat)) (onto f (put n)) :=
  feeds_field p f key hkey (fun _ => (hline _).trans (storeUint32_decimal n put)) fun h => by simpa using h

theorem feeds_padding (put : UInt32 → Staged) {n : UInt32} (hn : n < 65536) (hkey : key ∉ ownKeys)
    (hline : ∀ value, StarlingWg.Device.handleDeviceLine (put 0) key value (.ok ()) =
      Device.storePadding value context put) :
    Feeds (Stores p) (onto f (put 0)) (sendIf (n ≠ 0) (key, decimal n.toNat)) (onto f (put n)) :=
  feeds_field p f key hkey (fun _ => (hline _).trans (storePadding_decimal hn put)) fun h => by simpa using h

theorem feeds_range (put : UintRange → Staged) (before : UintRange) {r : UintRange}
    (hr : r.WellFormed) (hleft : r = ⟨0, 0⟩ → r = before) (hkey : key ∉ ownKeys)
    (hline : ∀ value, StarlingWg.Device.handleDeviceLine (put before) key value (.ok ()) =
      Device.storeRange value context put) :
    Feeds (Stores p) (onto f (put before)) (sendIf (r ≠ ⟨0, 0⟩) (rangef key r)) (onto f (put r)) :=
  feeds_field p f key hkey (fun _ => (hline _).trans (by rw [Device.storeRange, fromString_rangeString hr]; rfl)) fun h =>
    hleft (by simpa using h)

theorem feeds_ipacket (put : Option ObfChain → IPackets) {chain : Option ObfChain}
    (hkept : ∀ c, chain = some c → Kept p c)
    (hline : ∀ value a, Device.handleDeviceLine p { f with ipackets := put none } s key value a =
      Device.storeIPacket p { f with ipackets := put none } s value context put) :
    Feeds (Stores p) ({ f with ipackets := put none }, s) (ipacketEntry key chain)
      ({ f with ipackets := put chain }, s) := by
  refine .toList (fun c hc a => ?_) fun h => by rw [h]
  rw [hline, Device.storeIPacket, (hkept c hc).built, hc]

end

theorem feeds_junk (junk : Junk) :
    Feeds (Stores p) (putJunk f {}, s) (junkEntries junk) (putJunk f junk, s) := by
  let put := fun junk : Junk => ({ f.settings with junk := junk }, s)
  have hcount := feeds_uint32 p f "jc" (n := junk.count) (fun n => put { count := n })
    (by decide) fun _ => rfl
  have hmin := feeds_uint32 p f "jmin" (n := junk.min)
    (fun n => put { count := junk.count, min := n }) (by decide) fun _ => rfl
  have hmax := feeds_uint32 p f "jmax" (n := junk.max) (fun n => put ⟨junk.count, junk.min, n⟩)
    (by decide) fun _ => rfl
  exact (hcount.append hmin).append hmax

theorem feeds_paddings {q : Paddings} (hq : ∀ padding ∈ q.list, padding < 65536) :
    Feeds (Stores p) (f, putPaddings s ⟨0, 0, 0, 0⟩) (paddingEntries q) (f, putPaddings s q) := by
  simp only [Paddings.list, mem_cons, not_mem_nil, or_false, forall_eq_or_imp, forall_eq] at hq
  obtain ⟨hq1, hq2, hq3, hq4⟩ := hq
  let put := fun q : Paddings => (f.settings, putPaddings s q)
  have hinit := feeds_padding p f "s1" (fun n => put ⟨n, 0, 0, 0⟩) hq1 (by decide) fun _ => rfl
  have hresponse := feeds_padding p f "s2" (fun n => put ⟨q.init, n, 0, 0⟩) hq2 (by decide)
    fun _ => rfl
  have hcookie := feeds_padding p f "s3" (fun n => put ⟨q.init, q.response, n, 0⟩) hq3
    (by decide) fun _ => rfl
  have htransport := feeds_padding p f "s4" (fun n => put ⟨q.init, q.response, q.cookie, n⟩)
    hq4 (by decide) fun _ => rfl
  exact ((hinit.append hresponse).append hcookie).append htransport

-- A zero header would be left out, and the device would keep its own.
theorem feeds_headers {q : Headers} (h0 : Headers) (hq : ∀ r ∈ q.list, r.WellFormed)
    (hne : ∀ r ∈ q.list, r ≠ ⟨0, 0⟩) :
    Feeds (Stores p) (f, putHeaders s h0) (headerEntries q) (f, putHeaders s q) := by
  simp only [Headers.list, mem_cons, not_mem_nil, or_false, forall_eq_or_imp, forall_eq] at hq hne
  obtain ⟨hq1, hq2, hq3, hq4⟩ := hq
  obtain ⟨hne1, hne2, hne3, hne4⟩ := hne
  let put := fun q : Headers => (f.settings, putHeaders s q)
  have hinit := feeds_range p f "h1"
    (fun r => put ⟨r, h0.response, h0.cookie, h0.transport⟩) h0.init hq1 hne1.elim (by decide)
    fun _ => rfl
  have hresponse := feeds_range p f "h2"
    (fun r => put ⟨q.init, r, h0.cookie, h0.transport⟩) h0.response hq2 hne2.elim (by decide)
    fun _ => rfl
  have hcookie := feeds_range p f "h3"
    (fun r => put ⟨q.init, q.response, r, h0.transport⟩) h0.cookie hq3 hne3.elim (by decide) fun _ => rfl
  have htransport := feeds_range p f "h4"
    (fun r => put ⟨q.init, q.response, q.cookie, r⟩) h0.transport hq4 hne4.elim (by decide) fun _ => rfl
  exact ((hinit.append hresponse).append hcookie).append htransport

theorem feeds_timings {t : Timings} (h1 : t.rekeyAfterTimeSec.WellFormed)
    (h2 : t.rekeyTimeoutSec.WellFormed) (h3 : t.rejectAfterTimeSec.WellFormed)
    (h4 : t.keepaliveTimeoutSec.WellFormed) (h5 : t.maxHandshakeAttemps.WellFormed) :
    Feeds (Stores p) (putTimings f {}, s) (timingEntries t) (putTimings f t, s) := by
  obtain ⟨after, timeout, reject, keepalive, attempts⟩ := t
  let put := fun t : Timings => ({ f.settings with timings := t }, s)
  have hafter := feeds_range p f "rekey_after_time" (fun r => put { rekeyAfterTimeSec := r })
    ⟨0, 0⟩ h1 id (by decide) fun _ => rfl
  have htimeout := feeds_range p f "rekey_timeout"
    (fun r => put ⟨after, r, ⟨0, 0⟩, ⟨0, 0⟩, ⟨0, 0⟩⟩) ⟨0, 0⟩ h2 id (by decide) fun _ => rfl
  have hreject := feeds_range p f "reject_after_time"
    (fun r => put ⟨after, timeout, r, ⟨0, 0⟩, ⟨0, 0⟩⟩) ⟨0, 0⟩ h3 id (by decide) fun _ => rfl
  have hkeepalive := feeds_range p f "keepalive_timeout"
    (fun r => put ⟨after, timeout, reject, r, ⟨0, 0⟩⟩) ⟨0, 0⟩ h4 id (by decide) fun _ => rfl
  have hattempts := feeds_range p f "max_handshake_attempts"
    (fun r => put ⟨after, timeout, reject, keepalive, r⟩) ⟨0, 0⟩ h5 id (by decide) fun _ => rfl
  exact (((hafter.append htimeout).append hreject).append hkeepalive).append hattempts

theorem feeds_ipackets {i : IPackets} (hkept : ∀ chain, some chain ∈ i.list → Kept p chain) :
    Feeds (Stores p) (putIPackets f {}, s) (ipacketEntries i) (putIPackets f i, s) := by
  obtain ⟨i1, i2, i3, i4, i5⟩ := i
  have hone : ∀ i ∈ [i1, i2, i3, i4, i5], ∀ c, i = some c → Kept p c := by
    rintro i hi c rfl
    exact hkept c hi
  have h1 := feeds_ipacket p f s "i1" (fun i => { i1 := i }) (hone i1 (by simp)) fun _ _ => rfl
  have h2 := feeds_ipacket p f s "i2" (fun i => { i1 := i1, i2 := i }) (hone i2 (by simp))
    fun _ _ => rfl
  have h3 := feeds_ipacket p f s "i3" (fun i => { i1 := i1, i2 := i2, i3 := i }) (hone i3 (by simp))
    fun _ _ => rfl
  have h4 := feeds_ipacket p f s "i4" (fun i => { i1 := i1, i2 := i2, i3 := i3, i4 := i })
    (hone i4 (by simp)) fun _ _ => rfl
  have h5 := feeds_ipacket p f s "i5" (fun i => ⟨i1, i2, i3, i4, i⟩) (hone i5 (by simp))
    fun _ _ => rfl
  exact (((h1.append h2).append h3).append h4).append h5

theorem feeds_headerKey (key : Key) : Feeds (Stores p) (f, { s with headerProtectionKey := 0 })
      (sendIf (key ≠ 0) (keyf "header_protection_key" key))
      (f, { s with headerProtectionKey := key }) := by
  refine .setting (by decide) (fun _ => ?_) fun h => ⟨rfl, by rw [show key = 0 by simpa using h]⟩
  unfold StarlingWg.Device.handleDeviceLine
  simp only [loadExactHex_key]
  rfl

theorem feeds_contentPadding {r : UintRange} (hr : r.WellFormed) :
    Feeds (Stores p) ({ f with settings := { f.settings with contentPaddingAddition := ⟨0, 0⟩ } }, s)
      (sendIf (r ≠ ⟨0, 0⟩) (rangef "content_padding_addition" r))
      ({ f with settings := { f.settings with contentPaddingAddition := r } }, s) :=
  feeds_range p f "content_padding_addition"
    (fun r => ({ f.settings with contentPaddingAddition := r }, s)) ⟨0, 0⟩ hr id (by decide) fun _ => rfl

theorem setPrivateKey_unpeered {range : Ranging} {sk : Key} (hmap : f.keyMap = [])
    (hsk : sk ≠ f.privateKey) :
    f.setPrivateKey p range sk = { f with privateKey := sk, publicKey := p.publicKey sk } := by
  have hvisit : range.visit [] = [] := perm_nil.mp (range.perm [])
  rw [Device.setPrivateKey, if_neg hsk]
  simp only [hmap, hvisit, foldl_nil]

theorem feeds_privateKey {sk : Key} (hmap : f.keyMap = []) (hzero : f.privateKey = 0)
    (hsk : sk = 0 ∨ clamp sk = sk) :
    Feeds (Stores p) (f, s) (sendIf (sk ≠ 0) (keyf "private_key" sk)) ({ f with
          privateKey := sk
          publicKey := if sk = 0 then f.publicKey else p.publicKey sk }, s) := by
  refine .sendIf (fun h a => ?_) fun h => ?_
  · have hne : sk ≠ 0 := by simpa using h
    have hread : fromMaybeZeroHex (hexEncodeToString (putKey sk)) = .ok sk := by
      unfold fromMaybeZeroHex
      rw [loadExactHex_key]
      show Except.ok (if sk = 0 then sk else clamp sk) = _
      rw [if_neg hne, hsk.resolve_left hne]
    unfold Device.handleDeviceLine
    simp only [keyf, hread, Device.fails]
    rw [setPrivateKey_unpeered f hmap (by rw [hzero]; exact hne), if_neg hne]
  · have hsk : sk = 0 := by simpa using h
    rw [if_pos hsk, hsk, ← hzero]

theorem feeds_fwmark (mark : UInt32) (hzero : f.fwmark = 0) (hdown : f.state = .down) :
    Feeds (Stores p) (f, s) (sendIf (mark ≠ 0) ("fwmark", decimal mark.toNat))
      ({ f with fwmark := mark }, s) := by
  refine .sendIf (fun h a => ?_) fun h => ?_
  · have hne : f.fwmark ≠ mark := by
      rw [hzero]
      exact fun heq => absurd heq.symm (by simpa using h)
    have hparse : Device.parseUint 32 (decimal mark.toNat) = .ok mark.toNat :=
      parseUint_decimal mark.toNat_lt
    unfold Device.handleDeviceLine
    simp only [hparse, Device.fails, Device.bindSetMark, UInt32.ofNat_toNat, if_neg hne, hdown]
    rfl
  · rw [show mark = 0 by simpa using h, ← hzero]

-- The lines of a get operation that set something: the port is reported only.
def Device.ownEntries (d : Device E) : List Entry :=
  { d with port := 0 }.deviceEntries

def Device.unmerged (p : Platform E) (d : Device E) : Device E :=
  { newDevice E with
    settings :=
      { Device.newDevice with
        junk := d.settings.junk
        contentPaddingAddition := d.settings.contentPaddingAddition
        timings := d.settings.timings }
    ipackets := d.ipackets
    privateKey := d.privateKey
    publicKey := if d.privateKey = 0 then 0 else p.publicKey d.privateKey
    fwmark := d.fwmark }

theorem feeds_ownEntries {d : Device E} (hd : d.Storable p) (hs : Parsed d.settings)
    (hheaders : ∀ r ∈ d.settings.headers.list, r ≠ ⟨0, 0⟩) :
    Feeds (Stores p) (newDevice E, .fromDevice Device.newDevice) d.ownEntries
      (d.unmerged p, .fromDevice d.settings) := by
  have hranges := hs.ranges
  simp only [Device.Settings.ranges, mem_cons, not_mem_nil, or_false, forall_eq_or_imp,
    forall_eq] at hranges
  obtain ⟨hcontent, h1, h2, h3, h4, h5⟩ := hranges
  let f0 : Device E := newDevice E
  let s0 : IpcSetDevice := .fromDevice Device.newDevice
  let f1 : Device E := { f0 with
    privateKey := d.privateKey
    publicKey := if d.privateKey = 0 then 0 else p.publicKey d.privateKey }
  let f2 : Device E := { f1 with fwmark := d.fwmark }
  let f3 := putJunk f2 d.settings.junk
  let s1 := putPaddings s0 d.settings.paddings
  let s2 := putHeaders s1 d.settings.headers
  let f4 := putIPackets f3 d.ipackets
  let s3 : IpcSetDevice := { s2 with headerProtectionKey := d.settings.headerProtectionKey }
  let f5 : Device E := { f4 with
    settings := { f4.settings with contentPaddingAddition := d.settings.contentPaddingAddition } }
  have hkey : Feeds (Stores p) (f0, s0) _ (f1, s0) :=
    feeds_privateKey f0 s0 rfl rfl (hd.key.imp id And.left)
  have hport : Feeds (Stores p) (f1, s0) (sendIf ((0 : UInt16) ≠ 0) ("listen_port", decimal 0)) (f1, s0) :=
    rfl
  have hmark : Feeds (Stores p) (f1, s0) _ (f2, s0) := feeds_fwmark f1 s0 d.fwmark rfl rfl
  have hjunk : Feeds (Stores p) (f2, s0) _ (f3, s0) := feeds_junk f2 s0 d.settings.junk
  have hpaddings : Feeds (Stores p) (f3, s0) _ (f3, s1) := feeds_paddings f3 s0 hs.paddings
  have hheaders : Feeds (Stores p) (f3, s1) _ (f3, s2) :=
    feeds_headers f3 s1 Device.newDevice.headers hs.valid.wellFormed hheaders
  have hipackets : Feeds (Stores p) (f3, s2) _ (f4, s2) := feeds_ipackets f3 s2 hd.chains
  have hheaderKey : Feeds (Stores p) (f4, s2) _ (f4, s3) :=
    feeds_headerKey f4 s2 d.settings.headerProtectionKey
  have hpadding : Feeds (Stores p) (f4, s3) _ (f5, s3) := feeds_contentPadding f4 s3 hcontent
  have htimings : Feeds (Stores p) (f5, s3) _ (putTimings f5 d.settings.timings, s3) :=
    feeds_timings f5 s3 h1 h2 h3 h4 h5
  exact ((((((((hkey.append hport).append hmark).append hjunk).append hpaddings).append
    hheaders).append hipackets).append hheaderKey).append hpadding).append htimings

end

end StarlingWg.Uapi
