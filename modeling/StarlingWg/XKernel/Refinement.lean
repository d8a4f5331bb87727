import Mathlib.Data.Set.Basic
import StarlingWg.Uapi.RoundTrip

namespace StarlingWg.XKernel

open Control (Key)
open Orchestrate (decimal)
open Routing (Network Prefix Table)
open StarlingWg.Uapi Entry List Function
open Device (fails handlePeerLine maxScanTokenSize mem_of_lookupPeer run unlines)

-- The platform of the device, base64, and the texts of addresses and prefixes
-- that are given to AddPeer. An endpoint is an address here.
structure Shell (E : Type) extends Platform E where
  encodeToString : Key → String
  decodeString : String → Option Key
  prefixText : Prefix → List Char

structure Shell.Lawful {E : Type} (sh : Shell E) : Prop where
  key : ∀ k, sh.decodeString (sh.encodeToString k) = some k
  endpoint : ∀ x, sh.parseEndpoint (sh.dstToString x) = some x
  endpointLine : ∀ x, '\n' ∉ sh.dstToString x ∧ (sh.dstToString x).getLast? ≠ some '\r'
  parse : ∀ pre, sh.parsePrefix (sh.prefixText pre) = some pre
  sign : ∀ pre, (sh.prefixText pre).head? ≠ some '-'
  comma : ∀ pre, ',' ∉ sh.prefixText pre
  prefixLine : ∀ pre, '\n' ∉ sh.prefixText pre ∧ '\r' ∉ sh.prefixText pre
  length : ∀ pre, (sh.prefixText pre).length < 64

variable {E : Type} (sh : Shell E)

abbrev Fits (keepalive : Option Nat) : Prop :=
  ∀ seconds, keepalive = some seconds → seconds < 2 ^ 32

-- The lines of xshared's AddPeer and RemovePeer. The keepalive is there when
-- the configured duration is positive, in whole seconds.
def addPeerEntries (keepalive : Option Nat) (pk : Key) (endpoint : Option E)
    (allowedIPs : List Prefix) : List Entry :=
  [keyf "public_key" pk, ("replace_allowed_ips", "true".toList)] ++
  endpoint.toList.map (fun x => ("endpoint", sh.dstToString x)) ++
  keepalive.toList.map (fun n => ("persistent_keepalive_interval", decimal n)) ++
  allowedIPs.map fun pre => ("allowed_ip", sh.prefixText pre)

def removePeerEntries (pk : Key) : List Entry :=
  [keyf "public_key" pk, ("remove", "true".toList)]

def ipcSet (a : Answers) (d : Device E) (entries : List Entry) : Device E × Option Device.IpcError :=
  d.ipcSetOperation sh.toPlatform (.ofText a (unlines (entries.map text)))

structure KernelPeer (E : Type) where
  endpoint : Option E := none
  persistentKeepalive : Nat := 0
  allowedIPs : List Network := []

abbrev KernelPeers (E : Type) := Key → Option (KernelPeer E)

-- The arguments of `awg set <iface> peer <key>`: what is not given stays.
def setPeer (peer : KernelPeer E) : List String → Option (KernelPeer E)
  | [] => some peer
  | "endpoint" :: value :: args =>
    match sh.parseEndpoint value.toList with
    | none => none
    | some endpoint => setPeer { peer with endpoint := some endpoint } args
  | "persistent-keepalive" :: value :: args =>
    match Device.parseUint 32 value.toList with
    | .error _ => none
    | .ok seconds => setPeer { peer with persistentKeepalive := seconds } args
  | "allowed-ips" :: value :: args =>
    match (value.toList.splitOn ',').mapM sh.parsePrefix with
    | none => none
    | some prefixes => setPeer { peer with allowedIPs := prefixes.map Prefix.masked } args
  | _ => none

def awg (k : KernelPeers E) : List String → Option (KernelPeers E)
  | "set" :: _ :: "peer" :: key :: args =>
    match sh.decodeString key with
    | none => none
    | some pk =>
      if args = ["remove"] then some (update k pk none)
      else (setPeer sh ((k pk).getD {}) args).map fun peer => update k pk (some peer)
  | _ => none

-- The command lines of xkernel's AddPeer and RemovePeer.
def addPeerArgs (iface : String) (keepalive : Option Nat) (pk : Key) (endpoint : Option E)
    (allowedIPs : List Prefix) : List String :=
  ["set", iface, "peer", sh.encodeToString pk] ++
  (endpoint.toList.flatMap fun x => ["endpoint", String.ofList (sh.dstToString x)]) ++
  (keepalive.toList.flatMap fun n => ["persistent-keepalive", String.ofList (decimal n)]) ++
  if allowedIPs.isEmpty then []
  else ["allowed-ips", String.ofList ([','].intercalate (allowedIPs.map sh.prefixText))]

def removePeerArgs (iface : String) (pk : Key) : List String :=
  ["set", iface, "peer", sh.encodeToString pk, "remove"]

section

inductive PeerCall (E : Type)
  | addPeer (pk : Key) (endpoint : Option E) (allowedIPs : List Prefix)
  | removePeer (pk : Key)

structure Backends (E : Type) where
  shared : Device E
  kernel : KernelPeers E

variable (iface : String) (keepalive : Option Nat)

-- A command that fails leaves the kernel as it was.
def Backends.call (b : Backends E) (c : PeerCall E × Answers) : Backends E :=
  match c.1 with
  | .addPeer pk endpoint allowedIPs =>
    ⟨(ipcSet sh c.2 b.shared (addPeerEntries sh keepalive pk endpoint allowedIPs)).1,
      (awg sh b.kernel (addPeerArgs sh iface keepalive pk endpoint allowedIPs)).getD b.kernel⟩
  | .removePeer pk =>
    ⟨(ipcSet sh c.2 b.shared (removePeerEntries pk)).1,
      (awg sh b.kernel (removePeerArgs sh iface pk)).getD b.kernel⟩

def Backends.calls (b : Backends E) (cs : List (PeerCall E × Answers)) : Backends E :=
  cs.foldl (Backends.call sh iface keepalive) b

end

structure View (E : Type) where
  endpoint : Option E
  networks : Set Network

abbrev Views (E : Type) := Key → Option (View E)

def sharedViews (d : Device E) : Views E := fun pk =>
  (d.lookupPeer pk).map fun id =>
    ⟨(d.peers id).endpoint, { network | network ∈ d.allowedips.entriesForPeer id }⟩

def kernelViews (k : KernelPeers E) : Views E := fun pk =>
  (k pk).map fun peer => ⟨peer.endpoint, { network | network ∈ peer.allowedIPs }⟩

-- A peer that is configured takes its networks from the others.
def addView (v : Views E) (pk : Key) (endpoint : Option E) (networks : List Network) : Views E :=
  fun q =>
    if q = pk then some ⟨endpoint.or ((v pk).bind View.endpoint), { x | x ∈ networks }⟩
    else (v q).map fun w => ⟨w.endpoint, { x | x ∈ w.networks ∧ x ∉ networks }⟩

section

variable {sh} {p : Platform E} (f : Device E) {n : PeerId} {q : Peer E} {t : Table PeerId}
  {peer : IpcSetPeer}

theorem feeds_seconds (hn : peer.peer = n) {keepalive : Option Nat} (hkeep : Fits keepalive) :
    ∃ pkaOn r, Feeds (Takes p) (put f n q t, peer)
      (keepalive.toList.map fun seconds => ("persistent_keepalive_interval", decimal seconds))
      (put f n { q with persistentKeepaliveInterval := r } t, { peer with pkaOn := pkaOn }) := by
  cases keepalive with
  | none => exact ⟨peer.pkaOn, q.persistentKeepaliveInterval, rfl⟩
  | some seconds =>
    have hread := fromString_rangeString
      (r := ⟨.ofNat seconds, .ofNat seconds⟩) (UInt32.le_refl _)
    rw [Orchestrate.rangeString, if_pos rfl, UInt32.toNat_ofNat_of_lt' (hkeep seconds rfl)] at hread
    let old := ((put f n q t).peers n).persistentKeepaliveInterval
    let r : Device.UintRange := ⟨.ofNat seconds, .ofNat seconds⟩
    refine ⟨decide (old = ⟨0, 0⟩ ∧ r ≠ ⟨0, 0⟩), r, .single ?_⟩
    simp only [Takes, handlePeerLine, hread, fails, hn, modifyPeer_put, old, r]

theorem feeds_addPeer (hsh : sh.Lawful) (hn : peer.peer = n) (hdummy : peer.dummy = false)
    {keepalive : Option Nat} (hkeep : Fits keepalive) (pk : Key) (endpoint : Option E)
    (allowedIPs : List Prefix) :
    ∃ pkaOn r, ∃ t' : Table PeerId,
      Feeds (Takes sh.toPlatform) (put f n q t, peer)
        (addPeerEntries sh keepalive pk endpoint allowedIPs).tail
        (put f n { q with endpoint := endpoint.or q.endpoint, persistentKeepaliveInterval := r } t',
          { peer with pkaOn := pkaOn }) ∧
      ∀ j x, x ∈ t'.entriesForPeer j ↔
        x ∈ allowedIPs.map Prefix.masked ∧ j = n ∨
          x ∉ allowedIPs.map Prefix.masked ∧ x ∈ t.entriesForPeer j ∧ j ≠ n := by
  have hreplace : Feeds (Takes sh.toPlatform) (put f n q t, peer)
      [("replace_allowed_ips", "true".toList)] (put f n q (t.removeByPeer n), peer) :=
    .single (by
      simp only [Takes, handlePeerLine, hdummy, hn, String.ofList_toList]
      rfl)
  have hendpoint := feeds_endpoint (p := sh.toPlatform) f (q := q) (t := t.removeByPeer n)
    hn (show ∀ x, endpoint = some x → _ from fun x _ => hsh.endpoint x)
  obtain ⟨pkaOn, r, hseconds⟩ := feeds_seconds (p := sh.toPlatform) f
    (q := { q with endpoint := endpoint.or q.endpoint }) (t := t.removeByPeer n) hn hkeep
  obtain ⟨t', hallowed, hmem⟩ := feeds_allowedIPs (p := sh.toPlatform) f
    (q := { q with endpoint := endpoint.or q.endpoint, persistentKeepaliveInterval := r })
    (t := t.removeByPeer n) { peer with pkaOn := pkaOn } hn hdummy
    (show ∀ pre ∈ allowedIPs, _ from fun pre _ => hsh.sign pre)
    fun pre _ => ⟨pre, hsh.parse pre, rfl⟩
  refine ⟨pkaOn, r, t', ((hreplace.append hendpoint).append hseconds).append hallowed, fun j x => ?_⟩
  rw [hmem, Table.mem_removeByPeer]

end

section

-- After the public_key line: the peer is there, and nothing else is different.
structure Selects (p : Platform E) (d : Device E) (pk : Key) (f : Device E) (id : PeerId) : Prop where
  sound : f.Sound p
  settings : f.settings = d.settings
  state : f.state = d.state
  allowedips : f.allowedips = d.allowedips
  self : (pk, id) ∈ f.keyMap
  others : ∀ q ≠ pk, f.lookupPeer q = d.lookupPeer q
  peers : ∀ j < d.allocated, f.peers j = d.peers j
  endpoint : (f.peers id).endpoint = (sharedViews d pk).bind View.endpoint

variable {p : Platform E} {d : Device E} {pk : Key}

theorem selects_known (hd : d.Sound p) {id : PeerId} (hknown : d.lookupPeer pk = some id) :
    Selects p d pk d id :=
  ⟨hd, rfl, rfl, rfl, mem_of_lookupPeer hknown, fun _ _ => rfl, fun _ _ => rfl,
    by simp [sharedViews, hknown]⟩

theorem selects_new (hd : d.Sound p) (hown : d.publicKey ≠ pk) (hnone : d.lookupPeer pk = none)
    {f : Device E} {id : PeerId} (hnew : d.newPeer p pk = .ok (f, id)) : Selects p d pk f id := by
  obtain ⟨hsound, hself, -⟩ := hd.newPeer hown hnew
  unfold Device.newPeer at hnew
  split at hnew
  · cases hnew
  split at hnew
  · cases hnew
  split at hnew
  · cases hnew
  cases hnew
  refine ⟨hsound, rfl, rfl, rfl, hself, fun q hq => ?_, fun j hj => ?_, ?_⟩
  · simp only [Device.lookupPeer, lookup_append]
    have hother : List.lookup q [(pk, d.allocated)] = none := by
      simp [lookup_cons, beq_false_of_ne hq]
    rw [hother, Option.or_none]
  · exact update_of_ne (Nat.ne_of_lt hj) ..
  · simp [sharedViews, hnone, Device.allocate]

-- The line is accepted unless the key is the device's own or there is no room.
theorem accepts_selects (hd : d.Sound p) (hown : d.publicKey ≠ pk) (staged : Device.IpcSetDevice) :
    (∃ f id created, Selects p d pk f id ∧
      Accepts p ⟨d, staged, none⟩ (keyf "public_key" pk)
        ⟨f, staged, some ⟨id, false, created, false⟩⟩) ∨
      d.lookupPeer pk = none ∧ ∃ err, d.newPeer p pk = .error err := by
  cases hlookup : d.lookupPeer pk with
  | some id =>
    exact .inl ⟨d, id, false, selects_known hd hlookup,
      accepts_publicKeyLine (handlePublicKeyLine_known hown hlookup)⟩
  | none =>
    cases hnew : d.newPeer p pk with
    | ok result =>
      exact .inl ⟨_, _, true, selects_new hd hown hlookup hnew,
        accepts_publicKeyLine (handlePublicKeyLine_new hown hlookup hnew)⟩
    | error err => exact .inr ⟨rfl, err, rfl⟩

end

section

variable {d : Device E}

theorem sharedViews_modifyPeer (d : Device E) (id : PeerId) {change : Peer E → Peer E}
    (hchange : ∀ q, (change q).endpoint = q.endpoint) :
    sharedViews (d.modifyPeer id change) = sharedViews d := by
  have hendpoint := Device.modifyPeer_peers Peer.endpoint hchange d id
  funext pk
  simp only [sharedViews, hendpoint]
  rfl

theorem sharedViews_postConfig (d : Device E) (peer : Option IpcSetPeer) :
    sharedViews (d.handlePostConfig peer) = sharedViews d :=
  Device.Harmless.handlePostConfig (R := fun d d' => sharedViews d' = sharedViews d)
    ⟨fun _ => rfl, fun h h' => h'.trans h, fun _ _ _ _ => rfl,
      fun d id _ _ => sharedViews_modifyPeer d id fun _ => rfl⟩ d peer

theorem handlePostConfig_state (d : Device E) (peer : Option IpcSetPeer) :
    (d.handlePostConfig peer).state = d.state := by
  unfold Device.handlePostConfig
  split
  · rfl
  split
  · rfl
  dsimp only
  split <;> split <;> rfl

theorem lookupPeer_lt {p : Platform E} (hd : d.Sound p) {q : Key} {j : PeerId}
    (h : d.lookupPeer q = some j) : j < d.allocated :=
  hd.bound q j (mem_of_lookupPeer h)

theorem sharedViews_addPeer {p : Platform E} (hd : d.Sound p) {pk : Key} {f : Device E} {id : PeerId}
    (hf : Selects p d pk f id) {q : Peer E} {endpoint : Option E} {networks : List Network}
    {t : Table PeerId} (hq : q.endpoint = endpoint.or (f.peers id).endpoint)
    (hmem : ∀ j x, x ∈ t.entriesForPeer j ↔
      x ∈ networks ∧ j = id ∨ x ∉ networks ∧ x ∈ f.allowedips.entriesForPeer j ∧ j ≠ id) :
    sharedViews (put f id q t) = addView (sharedViews d) pk endpoint networks := by
  have hlookup : ∀ k, (put f id q t).lookupPeer k = f.lookupPeer k := fun k => rfl
  have hself : f.lookupPeer pk = some id := hf.sound.toMapped.lookupPeer hf.self
  funext k
  by_cases hk : k = pk
  · subst hk
    have hnetworks : { x | x ∈ t.entriesForPeer id } = { x | x ∈ networks } := by
      ext x
      simp [hmem]
    have hview : sharedViews (put f id q t) k = some ⟨q.endpoint, { x | x ∈ t.entriesForPeer id }⟩ := by
      rw [sharedViews, hlookup, hself]
      simp only [Option.map_some, put, update_self]
    rw [hview, addView, if_pos rfl, hnetworks, hq, hf.endpoint]
  · rw [addView, if_neg hk, sharedViews, sharedViews, hlookup, hf.others k hk]
    cases hj : d.lookupPeer k with
    | none => rfl
    | some j =>
      have hmem' : (k, j) ∈ f.keyMap := mem_of_lookupPeer ((hf.others k hk).trans hj)
      have hne : j ≠ id := by
        rintro rfl
        exact hk (congrArg Prod.fst (inj_on_of_nodup_map hf.sound.ids hmem' hf.self rfl))
      have hpeer : (put f id q t).peers j = d.peers j :=
        (update_of_ne hne ..).trans (hf.peers j (lookupPeer_lt hd hj))
      have hnetworks : { x | x ∈ (put f id q t).allowedips.entriesForPeer j } =
          { x | x ∈ d.allowedips.entriesForPeer j ∧ x ∉ networks } := by
        ext x
        rw [← hf.allowedips]
        simp [put, hmem, hne, and_comm]
      simp only [Option.map_some, hpeer, hnetworks]
      rfl

end

section

variable {sh} {endpoint : Option E}

theorem addPeerEntries_readable (hsh : sh.Lawful) {keepalive : Option Nat} (hkeep : Fits keepalive)
    (pk : Key) (hline : ∀ x, endpoint = some x →
      (text ("endpoint", sh.dstToString x)).length < maxScanTokenSize) (allowedIPs : List Prefix) :
    ∀ e ∈ addPeerEntries sh keepalive pk endpoint allowedIPs, e.Readable := by
  simp only [addPeerEntries, forall_mem_append, forall_mem_cons, forall_mem_map]
  refine ⟨⟨⟨⟨readable_keyf (by decide) _, ?_, fun e he => by cases he⟩, fun x hx => ?_⟩,
    fun seconds hs => ?_⟩, fun pre _ => ?_⟩
  · exact readable_of_short (by decide) (by decide) (by decide) (by decide)
  · exact ⟨clean_of_value (by decide) (hsh.endpointLine x).1, hline x (Option.mem_toList.mp hx),
      (hsh.endpointLine x).2⟩
  · exact readable_decimal (by decide) (hkeep seconds (Option.mem_toList.mp hs))
  · have hlength := hsh.length pre
    exact readable_of_short (by decide) (hsh.prefixLine pre).1 (hsh.prefixLine pre).2 (by omega)

theorem addPeerEntries_named {keepalive : Option Nat} {pk : Key} {allowedIPs : List Prefix}
    {e : Entry}
    (h : e ∈ (addPeerEntries sh keepalive pk endpoint allowedIPs).tail) : e.1 ≠ "public_key" := by
  have hname : e.1 ∈ ["replace_allowed_ips", "endpoint", "persistent_keepalive_interval",
      "allowed_ip"] := by
    simp only [addPeerEntries, cons_append, nil_append, tail_cons, append_assoc,
      mem_cons, mem_append, mem_map] at h
    rcases h with rfl | ⟨_, -, rfl⟩ | ⟨_, -, rfl⟩ | ⟨_, -, rfl⟩ <;> simp
  intro heq
  rw [heq] at hname
  revert hname
  decide

theorem ipcSet_of_feeds {entries : List Entry} (hread : ∀ e ∈ entries, e.Readable) (a : Answers)
    {d : Device E} {r : Reading E}
    (h : Feeds (Accepts sh.toPlatform) ⟨d, .fromDevice d.settings, none⟩ entries r) :
    ipcSet sh a d entries = r.device.finish r.staged r.peer false := by
  have hscan := scanLines_entries hread
  have hlines : (Input.ofText a (unlines (entries.map text))).lines.map Line.text =
      entries.map text := by
    simp [Input.ofText, hscan, comp_def]
  have herror : (Input.ofText a (unlines (entries.map text))).readError = false := by
    simp [Input.ofText, hscan]
  rw [ipcSet, Uapi.Device.ipcSetOperation, herror]
  exact ipcSetLines_of_feeds h hlines false

theorem finish_unstaged {d : Device E} (hs : d.settings.Valid) (peer : Option IpcSetPeer) :
    d.finish (.fromDevice d.settings) peer false = (d.handlePostConfig peer, none) := by
  simp only [Uapi.Device.finish, merge_fromDevice hs rfl rfl rfl]
  rfl

theorem ipcSet_addPeer (hsh : sh.Lawful) {d : Device E} (hd : d.Sound sh.toPlatform)
    (hs : d.settings.Valid) (hopen : d.state ≠ .closed) {keepalive : Option Nat}
    (hkeep : Fits keepalive) {pk : Key} (hown : d.publicKey ≠ pk)
    (hroom : d.lookupPeer pk = none → d.keyMap.length < maxPeers)
    (hline : ∀ x, endpoint = some x →
      (text ("endpoint", sh.dstToString x)).length < maxScanTokenSize) (allowedIPs : List Prefix)
    (a : Answers) :
    sharedViews (ipcSet sh a d (addPeerEntries sh keepalive pk endpoint allowedIPs)).1 =
        addView (sharedViews d) pk endpoint (allowedIPs.map Prefix.masked) ∧
      (ipcSet sh a d (addPeerEntries sh keepalive pk endpoint allowedIPs)).1.state = d.state := by
  have hread := addPeerEntries_readable hsh hkeep pk hline allowedIPs
  obtain ⟨f, id, created, hf, haccept⟩ :=
    (accepts_selects hd hown (.fromDevice d.settings)).resolve_right (by
      rintro ⟨hnone, err, hnew⟩
      unfold Device.newPeer at hnew
      rw [if_neg hopen, if_neg (Nat.not_le.mpr (hroom hnone)), if_neg (by simp [hnone])] at hnew
      cases hnew)
  obtain ⟨pkaOn, r, t, hfeed, hmem⟩ := feeds_addPeer f (n := id) (q := f.peers id) (t := f.allowedips)
    hsh (show (⟨id, false, created, false⟩ : IpcSetPeer).peer = id from rfl) rfl hkeep pk endpoint
    allowedIPs
  have hput : put f id (f.peers id) f.allowedips = f := by simp [put]
  rw [hput] at hfeed
  let reading (st : Peering E) : Reading E := ⟨st.1, .fromDevice d.settings, some st.2⟩
  have hblock : Feeds (Accepts sh.toPlatform) _ _ _ :=
    hfeed.lift (g := reading) fun e he st st' htake => Takes.accepts htake
      (hread e (mem_of_mem_tail he)).equals (addPeerEntries_named he) _
  have hall : Feeds (Accepts sh.toPlatform) ⟨d, .fromDevice d.settings, none⟩
      (addPeerEntries sh keepalive pk endpoint allowedIPs) _ := ⟨_, haccept, hblock⟩
  rw [ipcSet_of_feeds hread a hall]
  simp only [reading]
  rw [← hf.settings]
  have hfinish := finish_unstaged (d := put f id { f.peers id with
    endpoint := endpoint.or (f.peers id).endpoint, persistentKeepaliveInterval := r } t)
    (hf.settings.symm ▸ hs) (some ⟨id, false, created, pkaOn⟩)
  rw [show (put f id _ t).settings = f.settings from rfl] at hfinish
  rw [hfinish]
  exact ⟨(sharedViews_postConfig _ _).trans (sharedViews_addPeer hd hf rfl hmem),
    (handlePostConfig_state _ _).trans hf.state⟩

end

section

variable {sh} {p : Platform E} {d f : Device E} {pk : Key} {id : PeerId}

def removeView (v : Views E) (pk : Key) : Views E := fun q => if q = pk then none else v q

theorem sharedViews_allocate (hd : d.Sound p) (peer : Peer E) :
    sharedViews (d.allocate peer) = sharedViews d := by
  funext q
  show (d.lookupPeer q).map _ = (d.lookupPeer q).map _
  cases hj : d.lookupPeer q with
  | none => rfl
  | some j =>
    have hpeer : (d.allocate peer).peers j = d.peers j :=
      update_of_ne (Nat.ne_of_lt (lookupPeer_lt hd hj)) ..
    simp only [Option.map_some, hpeer]
    rfl

theorem Selects.views (hd : d.Sound p) (hf : Selects p d pk f id) {q : Key} (hq : q ≠ pk) :
    sharedViews f q = sharedViews d q := by
  rw [sharedViews, sharedViews, hf.others q hq, hf.allowedips]
  cases hj : d.lookupPeer q with
  | none => rfl
  | some j => simp only [Option.map_some, hf.peers j (lookupPeer_lt hd hj)]

theorem lookup_filter_ne {entries : List (Key × PeerId)} {q : Key} (hq : q ≠ pk) :
    (entries.filter fun e => e.1 ≠ pk).lookup q = entries.lookup q := by
  induction entries with
  | nil => rfl
  | cons e entries ih =>
    obtain ⟨k, j⟩ := e
    by_cases hk : k = pk
    · subst hk
      rw [filter_cons_of_neg (by simp), ih, lookup_cons, beq_false_of_ne hq]
    · rw [filter_cons_of_pos (by simpa using hk), lookup_cons, lookup_cons, ih]

theorem sharedViews_removePeer (hf : f.Sound p) (hself : f.lookupPeer pk = some id) :
    sharedViews (f.removePeer pk) = removeView (sharedViews f) pk := by
  have hremove : f.removePeer pk = f.removePeerLocked id pk := by simp [Device.removePeer, hself]
  rw [hremove]
  funext q
  by_cases hq : q = pk
  · subst hq
    have hnone : (f.removePeerLocked id q).lookupPeer q = none := lookupPeer_eq_none fun hmem => by
      obtain ⟨e, he, heq⟩ := mem_map.mp hmem
      exact (Device.mem_removePeerLocked.mp he).2 heq
    simp only [sharedViews, hnone, removeView, if_true, Option.map_none]
  · have hlookup : (f.removePeerLocked id pk).lookupPeer q = f.lookupPeer q := lookup_filter_ne hq
    rw [removeView, if_neg hq, sharedViews, sharedViews, hlookup]
    cases hj : f.lookupPeer q with
    | none => rfl
    | some j =>
      have hne : j ≠ id := by
        rintro rfl
        exact hq (congrArg Prod.fst (inj_on_of_nodup_map hf.ids
          (mem_of_lookupPeer hj) (mem_of_lookupPeer hself) rfl))
      have hpeer : (f.removePeerLocked id pk).peers j = f.peers j := update_of_ne hne ..
      have hnetworks : ∀ x, x ∈ (f.removePeerLocked id pk).allowedips.entriesForPeer j ↔
          x ∈ f.allowedips.entriesForPeer j := fun x =>
        Table.mem_removeByPeer.trans ⟨fun h => h.1, fun h => ⟨h, hne⟩⟩
      simp only [Option.map_some, hpeer, hnetworks]

theorem removePeerEntries_readable (pk : Key) : ∀ e ∈ removePeerEntries pk, e.Readable := by
  simp only [removePeerEntries, forall_mem_cons]
  exact ⟨readable_keyf (by decide) _, readable_of_short (by decide) (by decide) (by decide) (by decide),
    fun e he => by cases he⟩

theorem ipcSet_remove_of_accepts (hs : d.settings.Valid) (a : Answers) {peer : IpcSetPeer}
    (haccept : Accepts sh.toPlatform ⟨d, .fromDevice d.settings, none⟩ (keyf "public_key" pk)
      ⟨f, .fromDevice d.settings, some peer⟩)
    {g : Device E} {peer' : IpcSetPeer}
    (htake : Takes sh.toPlatform (f, peer) ("remove", "true".toList) (g, peer'))
    (hsettings : g.settings = d.settings) (hdummy : peer'.dummy = true) :
    ipcSet sh a d (removePeerEntries pk) = (g, none) := by
  have hall : Feeds (Accepts sh.toPlatform) ⟨d, .fromDevice d.settings, none⟩ (removePeerEntries pk)
      ⟨g, .fromDevice d.settings, some peer'⟩ :=
    ⟨_, haccept, .single (Takes.accepts htake (by decide) (by decide) _)⟩
  rw [ipcSet_of_feeds (removePeerEntries_readable pk) a hall, ← hsettings,
    finish_unstaged (hsettings.symm ▸ hs)]
  simp only [Device.handlePostConfig, hdummy, if_true]

theorem takes_remove_dummy {peer : IpcSetPeer} (hdummy : peer.dummy = true) :
    Takes p (f, peer) ("remove", "true".toList) (f.discard peer) := by
  simp only [Takes, handlePeerLine, String.ofList_toList, hdummy]
  rfl

theorem takes_remove {peer : IpcSetPeer} (hdummy : peer.dummy = false) :
    Takes p (f, peer) ("remove", "true".toList)
      ((f.removePeer (f.peers peer.peer).remoteStatic).discard peer) := by
  simp only [Takes, handlePeerLine, String.ofList_toList, hdummy]
  rfl

theorem ipcSet_remove_of_error (a : Answers) {err : Device.IpcError}
    (herr : d.handlePublicKeyLine sh.toPlatform none (keyf "public_key" pk).2 = (d, .error err)) :
    ipcSet sh a d (removePeerEntries pk) = (d, some err) := by
  have hscan := scanLines_entries (removePeerEntries_readable pk)
  have hkey : (keyf "public_key" pk).1 = "public_key" := rfl
  rw [ipcSet, Uapi.Device.ipcSetOperation, Input.ofText, hscan]
  simp only [removePeerEntries, map_cons]
  rw [Uapi.Device.ipcSetLines, Uapi.Device.lineStep, if_neg (text_ne_nil _),
    cut_text (by rw [hkey]; decide)]
  simp only [String.ofList_toList, hkey, if_true, Device.handlePostConfig, herr]

theorem ipcSet_removePeer (hd : d.Sound sh.toPlatform) (hs : d.settings.Valid) (pk : Key)
    (a : Answers) :
    sharedViews (ipcSet sh a d (removePeerEntries pk)).1 = removeView (sharedViews d) pk ∧
      (ipcSet sh a d (removePeerEntries pk)).1.state = d.state := by
  -- a key that is not there
  have habsent : d.lookupPeer pk = none → removeView (sharedViews d) pk = sharedViews d := by
    intro hnone
    funext q
    by_cases hq : q = pk
    · simp [removeView, hq, sharedViews, hnone]
    · simp [removeView, hq]
  by_cases hown : d.publicKey = pk
  · -- a dummy takes the place of the device's own peer
    have hnone : d.lookupPeer pk = none := by
      cases hlookup : d.lookupPeer pk with
      | none => rfl
      | some id => exact absurd hown.symm (hd.notOwn pk id (mem_of_lookupPeer hlookup))
    have hline : d.handlePublicKeyLine sh.toPlatform none (keyf "public_key" pk).2 =
        (d.allocate {}, .ok ⟨d.allocated, true, false, false⟩) := by
      simp only [Device.handlePublicKeyLine, keyf, loadExactHex_key, fails, if_pos hown]
      rfl
    have hd' : (d.allocate {}).Sound sh.toPlatform := hd.frame (.allocate d {})
    rw [ipcSet_remove_of_accepts hs a (accepts_publicKeyLine hline) (takes_remove_dummy rfl) rfl rfl,
      habsent hnone]
    exact ⟨(sharedViews_allocate hd' {}).trans (sharedViews_allocate hd {}), rfl⟩
  rcases accepts_selects hd hown (.fromDevice d.settings) with
    ⟨f, id, created, hf, haccept⟩ | ⟨hnone, err, hnew⟩
  · -- the peer of the key, old or new, goes
    have hremote : (f.peers id).remoteStatic = pk := hf.sound.remoteStatic pk id hf.self
    have hself : f.lookupPeer pk = some id := hf.sound.toMapped.lookupPeer hf.self
    let peer : IpcSetPeer := ⟨id, false, created, false⟩
    have htake : Takes sh.toPlatform (f, peer) ("remove", "true".toList)
        ((f.removePeer pk).discard peer) := hremote ▸ takes_remove rfl
    have hlocked : f.removePeer pk = f.removePeerLocked id pk := by simp [Device.removePeer, hself]
    have hsettings : ((f.removePeer pk).discard peer).1.settings = d.settings := by
      rw [hlocked]
      exact hf.settings
    have hstate : ((f.removePeer pk).discard peer).1.state = d.state := by
      rw [hlocked]
      exact hf.state
    rw [ipcSet_remove_of_accepts hs a haccept htake hsettings rfl]
    refine ⟨?_, hstate⟩
    calc sharedViews ((f.removePeer pk).discard peer).1
      _ = sharedViews (f.removePeer pk) := sharedViews_allocate (hf.sound.removePeer pk).1 _
      _ = removeView (sharedViews f) pk := sharedViews_removePeer hf.sound hself
      _ = removeView (sharedViews d) pk := by
          funext q
          by_cases hq : q = pk
          · simp [removeView, hq]
          · rw [removeView, removeView, if_neg hq, if_neg hq, hf.views hd hq]
  · have hline : d.handlePublicKeyLine sh.toPlatform none (keyf "public_key" pk).2 =
        (d, .error ⟨.invalid, "failed to create new peer", some (.other err)⟩) := by
      simp only [Device.handlePublicKeyLine, keyf, loadExactHex_key, fails, if_neg hown, hnone, hnew]
    rw [ipcSet_remove_of_error a hline, habsent hnone]
    exact ⟨rfl, rfl⟩

end

section

variable {sh} {k : KernelPeers E} {pk : Key} {keepalive : Option Nat} {iface : String}

theorem mapM_parsePrefix (hsh : sh.Lawful) (allowedIPs : List Prefix) :
    (allowedIPs.map sh.prefixText).mapM sh.parsePrefix = some allowedIPs := by
  induction allowedIPs with
  | nil => rfl
  | cons pre allowedIPs ih =>
    rw [map_cons, mapM_cons, hsh.parse, ih]
    rfl

theorem setPeer_endpoint (hsh : sh.Lawful) (peer : KernelPeer E) (endpoint : Option E)
    (args : List String) :
    setPeer sh peer
        ((endpoint.toList.flatMap fun x => ["endpoint", String.ofList (sh.dstToString x)]) ++ args) =
      setPeer sh { peer with endpoint := endpoint.or peer.endpoint } args := by
  cases endpoint with
  | none => simp
  | some x => simp [setPeer, hsh.endpoint]

theorem setPeer_keepalive (hkeep : Fits keepalive) (peer : KernelPeer E) (args : List String) :
    setPeer sh peer
        ((keepalive.toList.flatMap fun n => ["persistent-keepalive", String.ofList (decimal n)]) ++
          args) =
      setPeer sh { peer with persistentKeepalive := keepalive.getD peer.persistentKeepalive } args := by
  cases keepalive with
  | none => simp
  | some seconds =>
    have hparse : Device.parseUint 32 (decimal seconds) = .ok seconds :=
      parseUint_decimal (hkeep seconds rfl)
    simp [setPeer, hparse]

theorem setPeer_allowedIPs (hsh : sh.Lawful) (peer : KernelPeer E) (allowedIPs : List Prefix) :
    setPeer sh peer (if allowedIPs.isEmpty then []
        else ["allowed-ips", String.ofList ([','].intercalate (allowedIPs.map sh.prefixText))]) =
      some { peer with
        allowedIPs := if allowedIPs.isEmpty then peer.allowedIPs else allowedIPs.map Prefix.masked } := by
  cases allowedIPs with
  | nil => rfl
  | cons pre allowedIPs =>
    have hsplit : ([','].intercalate ((pre :: allowedIPs).map sh.prefixText)).splitOn ',' =
        (pre :: allowedIPs).map sh.prefixText := by
      refine splitOn_intercalate ',' (fun text htext => ?_) (by simp)
      obtain ⟨pre', -, rfl⟩ := mem_map.mp htext
      exact hsh.comma pre'
    simp only [isEmpty_cons, Bool.false_eq_true, if_false, setPeer, String.toList_ofList, hsplit,
      mapM_parsePrefix hsh]

def setView (v : Views E) (pk : Key) (endpoint : Option E) (allowedIPs : List Prefix) : Views E :=
  fun q =>
    if q = pk then some
      ⟨endpoint.or ((v pk).bind View.endpoint),
        if allowedIPs.isEmpty then ((v pk).map View.networks).getD ∅
        else { x | x ∈ allowedIPs.map Prefix.masked }⟩
    else v q

theorem awg_addPeer (hsh : sh.Lawful) (hkeep : Fits keepalive) (endpoint : Option E)
    (allowedIPs : List Prefix) :
    kernelViews ((awg sh k (addPeerArgs sh iface keepalive pk endpoint allowedIPs)).getD k) =
      setView (kernelViews k) pk endpoint allowedIPs := by
  have hset : awg sh k (addPeerArgs sh iface keepalive pk endpoint allowedIPs) =
      some (update k pk (some
        { endpoint := endpoint.or ((k pk).getD {}).endpoint
          persistentKeepalive := keepalive.getD ((k pk).getD {}).persistentKeepalive
          allowedIPs := if allowedIPs.isEmpty then ((k pk).getD {}).allowedIPs
            else allowedIPs.map Prefix.masked })) := by
    simp only [addPeerArgs, cons_append, nil_append, append_assoc, awg, hsh.key]
    rw [if_neg (by cases endpoint <;> cases keepalive <;> cases allowedIPs <;> simp)]
    simp only [setPeer_endpoint hsh, setPeer_keepalive hkeep, setPeer_allowedIPs hsh, Option.map_some]
  rw [hset]
  funext q
  by_cases hq : q = pk
  · subst hq
    simp only [kernelViews, setView, Option.getD_some, update_self, Option.map_some, if_true]
    cases hk : k q with
    | none => cases allowedIPs <;> simp
    | some peer => cases allowedIPs <;> simp
  · simp [kernelViews, setView, hq]

theorem awg_removePeer (hsh : sh.Lawful) :
    kernelViews ((awg sh k (removePeerArgs sh iface pk)).getD k) = removeView (kernelViews k) pk := by
  have hset : awg sh k (removePeerArgs sh iface pk) = some (update k pk none) := by
    simp only [removePeerArgs, awg, hsh.key, if_true]
  rw [hset]
  funext q
  by_cases hq : q = pk
  · subst hq
    simp [kernelViews, removeView]
  · simp [kernelViews, removeView, hq]

end

section

variable {sh} {iface : String} {keepalive : Option Nat} {b : Backends E}
  {cs : List (PeerCall E × Answers)}

def Granted (cs : List (PeerCall E × Answers)) (pk : Key) (x : Network) : Prop :=
  ∃ endpoint allowedIPs a,
    (PeerCall.addPeer pk endpoint allowedIPs, a) ∈ cs ∧ x ∈ allowedIPs.map Prefix.masked

def Apart (cs : List (PeerCall E × Answers)) : Prop :=
  ∀ pk q x, Granted cs pk x → Granted cs q x → pk = q

-- When AddPeer configures a peer and is not refused. Without allowed IPs, the
-- command line does not say that there are none.
structure Addable (sh : Shell E) (b : Backends E) (pk : Key) (endpoint : Option E)
    (allowedIPs : List Prefix) : Prop where
  notOwn : b.shared.publicKey ≠ pk
  room : b.shared.lookupPeer pk = none → b.shared.keyMap.length < maxPeers
  line : ∀ x, endpoint = some x →
    (text ("endpoint", sh.dstToString x)).length < maxScanTokenSize
  given : allowedIPs = [] → ∀ peer, b.kernel pk = some peer → peer.allowedIPs = []

def Allowed (sh : Shell E) (b : Backends E) : PeerCall E → Prop
  | .addPeer pk endpoint allowedIPs => Addable sh b pk endpoint allowedIPs
  | .removePeer _ => True

structure Agreeing (sh : Shell E) (cs : List (PeerCall E × Answers)) (b : Backends E) : Prop where
  reached : ∃ history, (∀ c ∈ history, Device.Call.Textual c) ∧
    b.shared = run sh.toPlatform history
  isOpen : b.shared.state ≠ .closed
  views : sharedViews b.shared = kernelViews b.kernel
  granted : ∀ pk w, kernelViews b.kernel pk = some w → ∀ x ∈ w.networks, Granted cs pk x

theorem Agreeing.sound (h : Agreeing sh cs b) :
    b.shared.Sound sh.toPlatform ∧ b.shared.settings.Valid := by
  obtain ⟨history, htext, hreached⟩ := h.reached
  rw [hreached]
  exact ⟨Device.run_sound history, (Device.run_storable htext).2.valid⟩

theorem reached_ipcSet (h : Agreeing sh cs b) (a : Answers) (entries : List Entry) :
    ∃ history, (∀ c ∈ history, Device.Call.Textual c) ∧
      (ipcSet sh a b.shared entries).1 = run sh.toPlatform history := by
  obtain ⟨history, htext, hreached⟩ := h.reached
  refine ⟨history ++ [.ipcSet (.ofText a (unlines (entries.map text)))], fun c hc => ?_, ?_⟩
  · rcases mem_append.mp hc with hc | hc
    · exact htext c hc
    · rw [mem_singleton.mp hc]
      exact ⟨_, Input.ofText_reads a _⟩
  · rw [run, foldl_append, ← run, ← hreached]
    rfl

theorem addView_eq_setView (hapart : Apart cs) (h : Agreeing sh cs b) {pk : Key} {endpoint : Option E}
    {allowedIPs : List Prefix} {a : Answers} (hc : (PeerCall.addPeer pk endpoint allowedIPs, a) ∈ cs)
    (hadd : Addable sh b pk endpoint allowedIPs) :
    addView (kernelViews b.kernel) pk endpoint (allowedIPs.map Prefix.masked) =
      setView (kernelViews b.kernel) pk endpoint allowedIPs := by
  funext q
  by_cases hq : q = pk
  · subst hq
    rw [addView, setView, if_pos rfl, if_pos rfl]
    cases allowedIPs with
    | nil =>
      have hnone : ((kernelViews b.kernel q).map View.networks).getD ∅ = ∅ := by
        cases hk : b.kernel q with
        | none => simp [kernelViews, hk]
        | some peer => simp [kernelViews, hk, hadd.given rfl peer hk]
      simp [hnone]
    | cons pre rest => rfl
  · rw [addView, setView, if_neg hq, if_neg hq]
    cases hw : kernelViews b.kernel q with
    | none => rfl
    | some w =>
      have hkeep : { x | x ∈ w.networks ∧ x ∉ allowedIPs.map Prefix.masked } = w.networks := by
        ext x
        refine ⟨fun hx => hx.1, fun hx => ⟨hx, fun hgiven => ?_⟩⟩
        exact hq (hapart q pk x (h.granted q w hw x hx) ⟨endpoint, allowedIPs, a, hc, hgiven⟩)
      rw [Option.map_some, hkeep]

theorem Agreeing.call (hsh : sh.Lawful) (hkeep : Fits keepalive) (hapart : Apart cs)
    (h : Agreeing sh cs b) {c : PeerCall E × Answers} (hc : c ∈ cs) (hallowed : Allowed sh b c.1) :
    Agreeing sh cs (b.call sh iface keepalive c) := by
  obtain ⟨hsound, hvalid⟩ := h.sound
  obtain ⟨c, a⟩ := c
  cases c with
  | addPeer pk endpoint allowedIPs =>
    obtain ⟨hviews, hstate⟩ := ipcSet_addPeer hsh hsound hvalid h.isOpen hkeep hallowed.notOwn
      hallowed.room hallowed.line allowedIPs a
    have hreached := reached_ipcSet h a (addPeerEntries sh keepalive pk endpoint allowedIPs)
    have hkernel : kernelViews ((awg sh b.kernel
        (addPeerArgs sh iface keepalive pk endpoint allowedIPs)).getD b.kernel) = _ :=
      awg_addPeer hsh hkeep endpoint allowedIPs
    simp only [Backends.call]
    generalize (ipcSet sh a b.shared _).1 = d at hviews hstate hreached ⊢
    generalize (awg sh b.kernel _).getD b.kernel = k at hkernel ⊢
    refine ⟨hreached, hstate.symm ▸ h.isOpen, ?_, fun q w hw x hx => ?_⟩
    · rw [hviews, hkernel, h.views]
      exact addView_eq_setView hapart h hc hallowed
    · rw [hkernel] at hw
      by_cases hq : q = pk
      · subst hq
        rw [setView, if_pos rfl] at hw
        cases hw
        split at hx
        · -- the networks that were there
          cases hold : kernelViews b.kernel q with
          | none => simp [hold] at hx
          | some w => exact h.granted q w hold x (by simpa [hold] using hx)
        · exact ⟨endpoint, allowedIPs, a, hc, hx⟩
      · rw [setView, if_neg hq] at hw
        exact h.granted q w hw x hx
  | removePeer pk =>
    obtain ⟨hviews, hstate⟩ := ipcSet_removePeer hsound hvalid pk a
    have hreached := reached_ipcSet h a (removePeerEntries pk)
    have hkernel : kernelViews ((awg sh b.kernel (removePeerArgs sh iface pk)).getD b.kernel) = _ :=
      awg_removePeer hsh
    simp only [Backends.call]
    generalize (ipcSet sh a b.shared _).1 = d at hviews hstate hreached ⊢
    generalize (awg sh b.kernel _).getD b.kernel = k at hkernel ⊢
    refine ⟨hreached, hstate.symm ▸ h.isOpen, ?_, fun q w hw x hx => ?_⟩
    · rw [hviews, hkernel, h.views]
    · rw [hkernel] at hw
      by_cases hq : q = pk
      · rw [removeView, if_pos hq] at hw
        cases hw
      · rw [removeView, if_neg hq] at hw
        exact h.granted q w hw x hx

theorem backends_agree (hsh : sh.Lawful) (iface : String) (hkeep : Fits keepalive)
    {history : List Call} (htext : ∀ c ∈ history, Device.Call.Textual c)
    (hempty : (run sh.toPlatform history).keyMap = [])
    (hopen : (run sh.toPlatform history).state ≠ .closed) (hapart : Apart cs)
    (hallowed : ∀ i c, cs[i]? = some c → Allowed sh (Backends.calls sh iface keepalive
      ⟨run sh.toPlatform history, fun _ => none⟩ (cs.take i)) c.1) (n : Nat) :
    sharedViews (Backends.calls sh iface keepalive
        ⟨run sh.toPlatform history, fun _ => none⟩ (cs.take n)).shared =
      kernelViews (Backends.calls sh iface keepalive
        ⟨run sh.toPlatform history, fun _ => none⟩ (cs.take n)).kernel := by
  have hagree : Agreeing sh cs (Backends.calls sh iface keepalive
      ⟨run sh.toPlatform history, fun _ => none⟩ (cs.take n)) := by
    induction n with
    | zero =>
      refine ⟨⟨history, htext, rfl⟩, hopen, ?_, fun pk w hw => by cases hw⟩
      funext pk
      simp [Backends.calls, sharedViews, kernelViews, Device.lookupPeer, hempty]
    | succ n ih =>
      rw [take_add_one]
      cases hc : cs[n]? with
      | none =>
        rw [Option.toList_none, append_nil]
        exact ih
      | some c =>
        rw [Backends.calls, Option.toList_some, foldl_append]
        exact ih.call hsh hkeep hapart (mem_of_getElem? hc) (hallowed n c hc)
  exact hagree.views

end

def sampleEncode (key : Key) : String :=
  String.ofList (Orchestrate.hexEncodeToString (Control.putKey key))

def sampleDecode (text : String) : Option Key :=
  (Device.loadExactHex text.toList).toOption

def sampleShell : Shell Unit :=
  { samplePlatform with
    encodeToString := sampleEncode
    decodeString := sampleDecode
    prefixText := fun pre => sampleString ⟨pre.family, pre.addr, pre.bits⟩ }

theorem sampleShell_lawful : sampleShell.Lawful where
  key k := by simp [sampleShell, sampleDecode, sampleEncode, loadExactHex_key, Except.toOption]
  endpoint := samplePlatform_endpoint
  endpointLine x := by
    have hline : '\n' ∉ sampleEndpoint ∧ sampleEndpoint.getLast? ≠ some '\r' := by decide
    exact hline
  parse := sampleParse_sampleString
  sign _ h := sampleString_plain _ (by decide) (by decide) (mem_of_mem_head? h)
  comma _ := sampleString_plain _ (by decide) (by decide)
  prefixLine _ := ⟨sampleString_plain _ (by decide) (by decide),
    sampleString_plain _ (by decide) (by decide)⟩
  length pre := sampleString_length pre.valid

def sampleNetwork : Prefix :=
  ⟨.ipv4, 0x0a000000#32, 8, by decide⟩

def sampleHistory : List Call :=
  [.ipcSet (.ofText .calm (unlines [(keyf "private_key" (clamp 1)).text])), .up .calm]

theorem sampleHistory_textual : ∀ c ∈ sampleHistory, Device.Call.Textual c := by
  simp only [sampleHistory, forall_mem_cons]
  exact ⟨⟨_, Input.ofText_reads .calm _⟩, trivial, fun c hc => by cases hc⟩

def sampleStart : Backends Unit :=
  ⟨run sampleShell.toPlatform sampleHistory, fun _ => none⟩

abbrev sampleRun (cs : List (PeerCall Unit × Answers)) : Backends Unit :=
  .calls sampleShell "awg0" none sampleStart cs

theorem sampleStart_empty : sampleStart.shared.keyMap = [] ∧ sampleStart.shared.state ≠ .closed := by
  decide +kernel

theorem apart_of_single {cs : List (PeerCall Unit × Answers)} {k : Key}
    (h : ∀ c ∈ cs, ∀ pk endpoint allowedIPs, c.1 = .addPeer pk endpoint allowedIPs →
      pk = k ∨ allowedIPs = []) : Apart cs := by
  have hkey : ∀ pk x, Granted cs pk x → pk = k := by
    rintro pk x ⟨endpoint, allowedIPs, a, hc, hx⟩
    refine (h _ hc pk endpoint allowedIPs rfl).resolve_right fun hnone => ?_
    rw [hnone] at hx
    cases hx
  intro pk q x hpk hq
  rw [hkey pk x hpk, hkey q x hq]

def sampleCalls : List (PeerCall Unit × Answers) :=
  [(.addPeer 4 none [], .calm), (.removePeer 4, .calm), (.addPeer 3 (some ()) [sampleNetwork], .calm)]

theorem sampleCalls_apart : Apart sampleCalls := by
  refine apart_of_single (k := 3) ?_
  simp only [sampleCalls, forall_mem_cons, PeerCall.addPeer.injEq, reduceCtorEq]
  refine ⟨?_, by simp, ?_, fun c hc => by cases hc⟩
  · rintro pk endpoint allowedIPs ⟨-, -, rfl⟩
    exact .inr rfl
  · rintro pk endpoint allowedIPs ⟨rfl, -, -⟩
    exact .inl rfl

theorem sampleCalls_allowed : ∀ i c, sampleCalls[i]? = some c →
    Allowed sampleShell (sampleRun (sampleCalls.take i)) c.1 := by
  have hline : ∀ x : Unit, (text ("endpoint", sampleShell.dstToString x)).length <
      maxScanTokenSize := by
    intro x
    show (text ("endpoint", sampleEndpoint)).length < _
    decide
  have hfirst : sampleStart.shared.publicKey ≠ 4 ∧ sampleStart.shared.keyMap.length < maxPeers ∧
      (sampleStart.kernel 4).isNone := by
    decide +kernel
  have hlast : (sampleRun (sampleCalls.take 2)).shared.publicKey ≠ 3 ∧
      (sampleRun (sampleCalls.take 2)).shared.keyMap.length < maxPeers := by
    decide +kernel
  rintro (_ | _ | _ | i) c hc
  · cases hc
    refine ⟨hfirst.1, fun _ => hfirst.2.1, fun x _ => hline x, fun _ peer hpeer => ?_⟩
    have hnone := Option.isNone_iff_eq_none.mp hfirst.2.2
    exact absurd (hpeer.symm.trans hnone) (by simp)
  · cases hc
    trivial
  · cases hc
    exact ⟨hlast.1, fun _ => hlast.2, fun x _ => hline x, fun h => by cases h⟩
  · cases hc

theorem backends_agree_sample :
    ((sampleRun (sampleCalls.take 3)).kernel 3).map KernelPeer.allowedIPs =
      some [sampleNetwork.masked] ∧
    sharedViews (sampleRun (sampleCalls.take 3)).shared =
      kernelViews (sampleRun (sampleCalls.take 3)).kernel :=
  ⟨by decide +kernel, backends_agree sampleShell_lawful "awg0" (fun _ h => by cases h)
    sampleHistory_textual sampleStart_empty.1 sampleStart_empty.2 sampleCalls_apart sampleCalls_allowed 3⟩

def emptied : List (PeerCall Unit × Answers) :=
  [(.addPeer 3 (some ()) [sampleNetwork], .calm), (.addPeer 3 (some ()) [], .calm)]

theorem allowed_ips_kept :
    sampleShell.Lawful ∧ sampleStart.shared.keyMap = [] ∧ Apart emptied ∧
    (sampleRun emptied).shared.lookupPeer 3 = some 0 ∧
    (sampleRun emptied).shared.allowedips.entriesForPeer 0 = [] ∧
    ((sampleRun emptied).kernel 3).map KernelPeer.allowedIPs =
      some [sampleNetwork.masked] := by
  refine ⟨sampleShell_lawful, sampleStart_empty.1, apart_of_single (k := 3) ?_, ?_⟩
  · simp only [emptied, forall_mem_cons, PeerCall.addPeer.injEq]
    refine ⟨?_, ?_, fun c hc => by cases hc⟩
    · rintro pk endpoint allowedIPs ⟨rfl, -, -⟩
      exact .inl rfl
    · rintro pk endpoint allowedIPs ⟨rfl, -, -⟩
      exact .inl rfl
  · decide +kernel

end StarlingWg.XKernel
