import StarlingWg.Uapi.Restore

namespace StarlingWg.Uapi

open List Function
open Control (Key putKey)
open StarlingWg.Device (IpcSetDevice UintRange)
open Orchestrate (hexEncodeToString)
open Routing (Network Prefix Table)

variable {E : Type} {p : Platform E}

-- The text of a network is that of a prefix with the network's own bits.
structure Platform.Writes (p : Platform E) (network : Network) : Prop where
  parse : ∃ pre, p.parsePrefix (p.prefixString network) = some pre ∧ pre.masked = network
  sign : (p.prefixString network).head? ≠ some '-'
  newline : '\n' ∉ p.prefixString network
  last : (p.prefixString network).getLast? ≠ some '\r'
  length : (p.prefixString network).length < 64

-- What the texts of endpoints and networks are read as.
structure Platform.Lawful (p : Platform E) : Prop where
  endpoint : ∀ text x, p.parseEndpoint text = some x → p.parseEndpoint (p.dstToString x) = some x
  newline : ∀ text x, p.parseEndpoint text = some x → '\n' ∉ text → '\n' ∉ p.dstToString x
  last : ∀ x, (p.dstToString x).getLast? ≠ some '\r'
  network : ∀ network : Network, Routing.mask network.bits network.cidr = network.bits →
    network.cidr ≤ network.family.width → p.Writes network

section

structure Reading (E : Type) where
  device : Device E
  staged : IpcSetDevice
  peer : Option IpcSetPeer

def Accepts (p : Platform E) (r : Reading E) (e : Entry) (r' : Reading E) : Prop :=
  ∀ readError line lines, line.text = e.text →
    Device.ipcSetLines p readError r.device r.staged r.peer (line :: lines) =
      Device.ipcSetLines p readError r'.device r'.staged r'.peer lines

variable {entries : List Entry} {e : Entry}

theorem ipcSetLines_of_feeds {r r' : Reading E} (h : Feeds (Accepts p) r entries r') {lines : List Line}
    (hlines : lines.map Line.text = entries.map Entry.text) (readError : Bool) :
    Device.ipcSetLines p readError r.device r.staged r.peer lines =
      r'.device.finish r'.staged r'.peer readError := by
  induction entries generalizing r lines with
  | nil =>
    obtain rfl : r' = r := h
    obtain rfl : lines = [] := by simpa using hlines
    rfl
  | cons e entries ih =>
    obtain ⟨mid, haccept, hrest⟩ := h
    cases lines with
    | nil => cases hlines
    | cons line lines =>
      rw [map_cons, map_cons, List.cons.injEq] at hlines
      rw [haccept readError line lines hlines.1]
      exact ih hrest hlines.2

theorem Entry.text_ne_nil (e : Entry) : e.text ≠ [] := by
  simp [Entry.text]

theorem Entry.cut_text (he : '=' ∉ e.1.toList) : Device.cut e.text = some (e.1.toList, e.2) :=
  Device.cut_append he

theorem Stores.accepts {st st' : Stage E} (h : Stores p st e st') (he : '=' ∉ e.1.toList)
    (hname : e.1 ≠ "public_key") :
    Accepts p ⟨st.1, st.2, none⟩ e ⟨st'.1, st'.2, none⟩ := by
  intro readError line lines hline
  rw [Device.ipcSetLines, Device.lineStep, hline, if_neg e.text_ne_nil, Entry.cut_text he]
  simp only [String.ofList_toList, if_neg hname, h line.answers]

abbrev Peering (E : Type) := Device E × IpcSetPeer

def Takes (p : Platform E) (st : Peering E) (e : Entry) (st' : Peering E) : Prop :=
  st.1.handlePeerLine p st.2 e.1 e.2 = (st', none)

theorem Takes.accepts {st st' : Peering E} (h : Takes p st e st') (he : '=' ∉ e.1.toList)
    (hname : e.1 ≠ "public_key") (staged : IpcSetDevice) :
    Accepts p ⟨st.1, staged, some st.2⟩ e ⟨st'.1, staged, some st'.2⟩ := by
  intro readError line lines hline
  have htake : st.1.handlePeerLine p st.2 e.1 e.2 = (st', none) := h
  rw [Device.ipcSetLines, Device.lineStep, hline, if_neg e.text_ne_nil, Entry.cut_text he]
  simp only [String.ofList_toList, if_neg hname, htake]

theorem accepts_publicKeyLine {r : Reading E} {k : Key} {d : Device E} {peer : IpcSetPeer}
    (h : (r.device.handlePostConfig r.peer).handlePublicKeyLine p r.peer (keyf "public_key" k).2 =
      (d, .ok peer)) : Accepts p r (keyf "public_key" k) ⟨d, r.staged, some peer⟩ := by
  intro readError line lines hline
  have hkey : (keyf "public_key" k).1 = "public_key" := rfl
  rw [Device.ipcSetLines, Device.lineStep, hline, if_neg (Entry.text_ne_nil _),
    Entry.cut_text (by rw [hkey]; decide)]
  simp only [String.ofList_toList, hkey, if_true, h]

section

variable {f d : Device E} {last : Option IpcSetPeer} {k : Key} {id : PeerId}

theorem handlePublicKeyLine_new (hown : f.publicKey ≠ k) (habsent : f.lookupPeer k = none)
    (hnew : f.newPeer p k = .ok (d, id)) :
    f.handlePublicKeyLine p last (keyf "public_key" k).2 =
      (d, .ok ⟨id, false, true, last.elim false IpcSetPeer.pkaOn⟩) := by
  simp only [Device.handlePublicKeyLine, keyf, loadExactHex_key, Device.fails, if_neg hown, habsent,
    hnew]

theorem handlePublicKeyLine_known (hown : f.publicKey ≠ k) (hknown : f.lookupPeer k = some id) :
    f.handlePublicKeyLine p last (keyf "public_key" k).2 =
      (f, .ok ⟨id, false, false, last.elim false IpcSetPeer.pkaOn⟩) := by
  simp only [Device.handlePublicKeyLine, keyf, loadExactHex_key, Device.fails, if_neg hown, hknown]

end

end

section

def put (f : Device E) (n : PeerId) (q : Peer E) (t : Table PeerId) : Device E :=
  { f with peers := update f.peers n q, allowedips := t }

variable (f : Device E) {n : PeerId} {q : Peer E} {t : Table PeerId} {peer : IpcSetPeer}

theorem modifyPeer_put (change : Peer E → Peer E) :
    (put f n q t).modifyPeer n change = put f n (change q) t := by
  simp only [put, Device.modifyPeer, update_self, update_idem]

theorem feeds_endpoint (hn : peer.peer = n) {endpoint : Option E}
    (hparse : ∀ x, endpoint = some x → p.parseEndpoint (p.dstToString x) = some x) :
    Feeds (Takes p) (put f n q t, peer) (endpoint.toList.map fun x => ("endpoint", p.dstToString x))
      (put f n { q with endpoint := endpoint.or q.endpoint } t, peer) := by
  refine .toList (fun x hx => ?_) fun hnone => ?_
  · unfold Takes Device.handlePeerLine
    simp only [hparse x hx, hn, modifyPeer_put, hx, Option.some_or]
  · rw [hnone, Option.none_or]

theorem feeds_keepalive (hn : peer.peer = n) (hq : q.persistentKeepaliveInterval = ⟨0, 0⟩)
    {r : UintRange} (hr : r.WellFormed) : ∃ pkaOn,
    Feeds (Takes p) (put f n q t, peer)
      (sendIf (r ≠ ⟨0, 0⟩) (rangef "persistent_keepalive_interval" r))
      (put f n { q with persistentKeepaliveInterval := r } t, { peer with pkaOn := pkaOn }) := by
  by_cases hzero : r = ⟨0, 0⟩
  · refine ⟨peer.pkaOn, .sendIf (fun h => ?_) fun _ => ?_⟩
    · exact absurd hzero (by simpa using h)
    · rw [hzero, ← hq]
  · refine ⟨true, .sendIf (fun _ => ?_) fun h => ?_⟩
    · have hold : ((put f n q t).peers n).persistentKeepaliveInterval = ⟨0, 0⟩ := by
        simpa only [put, update_self] using hq
      unfold Takes Device.handlePeerLine
      simp only [rangef, fromString_rangeString hr, Device.fails, hn, modifyPeer_put, hold]
      simp [hzero]
    · exact absurd (by simpa using h) hzero

theorem takes_allowedIP (hn : peer.peer = n) (hdummy : peer.dummy = false) {value : List Char}
    {pre : Prefix} (hsign : value.head? ≠ some '-') (hpre : p.parsePrefix value = some pre) :
    Takes p (put f n q t, peer) ("allowed_ip", value) (put f n q (t.insert pre n), peer) := by
  cases value with
  | nil =>
    unfold Takes Device.handlePeerLine
    simp only [hpre, hdummy, hn]
    rfl
  | cons c rest =>
    have hc : c ≠ '-' := fun heq => hsign (congrArg some heq)
    unfold Takes Device.handlePeerLine
    simp [hdummy, hn, hc, hpre, put]

theorem feeds_allowedIPs (peer : IpcSetPeer) (hn : peer.peer = n) (hdummy : peer.dummy = false)
    {α : Type} {text : α → List Char} {network : α → Network} {xs : List α}
    (hsign : ∀ x ∈ xs, (text x).head? ≠ some '-')
    (hparse : ∀ x ∈ xs, ∃ pre, p.parsePrefix (text x) = some pre ∧ pre.masked = network x) :
    ∃ t' : Table PeerId,
      Feeds (Takes p) (put f n q t, peer) (xs.map fun x => ("allowed_ip", text x))
        (put f n q t', peer) ∧
      ∀ id y, y ∈ t'.entriesForPeer id ↔
        y ∈ xs.map network ∧ id = n ∨ y ∉ xs.map network ∧ y ∈ t.entriesForPeer id := by
  induction xs generalizing t with
  | nil => exact ⟨t, rfl, by simp⟩
  | cons x xs ih =>
    rw [forall_mem_cons] at hsign hparse
    obtain ⟨pre, hpre, hmasked⟩ := hparse.1
    obtain ⟨t', hfeed, hmem⟩ := ih (t := t.insert pre n) hsign.2 hparse.2
    refine ⟨t', ⟨_, takes_allowedIP f hn hdummy hsign.1 hpre, hfeed⟩, fun id y => ?_⟩
    rw [hmem, Table.mem_insert, hmasked, map_cons, mem_cons]
    by_cases heq : y = network x
    · simp only [heq, true_and, true_or, not_true, false_and, or_false, ne_eq]
      by_cases hin : network x ∈ xs.map network <;> simp [hin]
    · simp only [heq, false_and, false_or, ne_eq, not_false_eq_true, true_and]

end

section

variable {d : Device E} {id : PeerId}

-- The lines about a peer that the reader accepts, after its public key.
def Device.ownPeerEntries (p : Platform E) (d : Device E) (id : PeerId) : List Entry :=
  let peer := d.peers id
  [keyf "preshared_key" peer.presharedKey] ++
  peer.endpoint.toList.map (fun endpoint => ("endpoint", p.dstToString endpoint)) ++
  sendIf (peer.persistentKeepaliveInterval ≠ ⟨0, 0⟩)
    (rangef "persistent_keepalive_interval" peer.persistentKeepaliveInterval) ++
  (d.allowedips.entriesForPeer id).map fun network => ("allowed_ip", p.prefixString network)

def Peer.configured (q peer : Peer E) : Peer E :=
  { q with
    presharedKey := peer.presharedKey
    endpoint := peer.endpoint
    persistentKeepaliveInterval := peer.persistentKeepaliveInterval }

theorem feeds_ownPeerEntries (f : Device E) {n : PeerId} {q : Peer E} {t : Table PeerId}
    (peer : IpcSetPeer) (hn : peer.peer = n) (hdummy : peer.dummy = false) (hq : q.endpoint = none)
    (hq' : q.persistentKeepaliveInterval = ⟨0, 0⟩) (hp : p.Lawful) (hd : (d.peers id).Storable p) :
    ∃ pkaOn, ∃ t' : Table PeerId, Feeds (Takes p) (put f n q t, peer) (d.ownPeerEntries p id)
        (put f n (q.configured (d.peers id)) t', { peer with pkaOn := pkaOn }) ∧
      ∀ j network, network ∈ t'.entriesForPeer j ↔
        network ∈ d.allowedips.entriesForPeer id ∧ j = n ∨
          network ∉ d.allowedips.entriesForPeer id ∧ network ∈ t.entriesForPeer j := by
  have hwrites : ∀ network ∈ d.allowedips.entriesForPeer id, p.Writes network := fun network hmem =>
    (hp.network network (Table.masked_of_mem hmem).1 (Table.masked_of_mem hmem).2)
  have hparse : ∀ x, (d.peers id).endpoint = some x → p.parseEndpoint (p.dstToString x) = some x := by
    intro x hx
    obtain ⟨text, -, htext⟩ := hd.endpoint x hx
    exact hp.endpoint text x htext
  have hpsk : Feeds (Takes p) (put f n q t, peer) [keyf "preshared_key" (d.peers id).presharedKey]
      (put f n { q with presharedKey := (d.peers id).presharedKey } t, peer) :=
    .single (by
      unfold Takes Device.handlePeerLine
      simp only [keyf, loadExactHex_key, Device.fails, hn, modifyPeer_put])
  have hendpoint := feeds_endpoint f (q := { q with presharedKey := (d.peers id).presharedKey })
    (t := t) hn hparse
  have hor : (d.peers id).endpoint.or { q with presharedKey := (d.peers id).presharedKey }.endpoint =
      (d.peers id).endpoint := by
    rw [hq, Option.or_none]
  rw [hor] at hendpoint
  obtain ⟨pkaOn, hkeepalive⟩ := feeds_keepalive (p := p) f
    (q := { q with presharedKey := (d.peers id).presharedKey, endpoint := (d.peers id).endpoint })
    (t := t) hn hq' hd.keepalive
  obtain ⟨t', hallowed, hmem⟩ := feeds_allowedIPs f (q := q.configured (d.peers id)) (t := t)
    { peer with pkaOn := pkaOn } hn hdummy (fun network hin => (hwrites network hin).sign)
    fun network hin => (hwrites network hin).parse
  rw [map_id'] at hmem
  exact ⟨pkaOn, t', ((hpsk.append hendpoint).append hkeepalive).append hallowed, hmem⟩

theorem Feeds.sound {st st' : Peering E} {entries : List Entry} (h : Feeds (Takes p) st entries st')
    (hs : st.1.Sound p) (hh : st.1.Holds st.2) : st'.1.Sound p := by
  induction entries generalizing st with
  | nil =>
    obtain rfl : st' = st := h
    exact hs
  | cons e entries ih =>
    obtain ⟨mid, htake, hrest⟩ := h
    have hline := hs.handlePeerLine hh e.1 e.2
    rw [show st.1.handlePeerLine p st.2 e.1 e.2 = (mid, none) from htake] at hline
    exact ih hrest hline.1 hline.2

theorem ownPeerEntries_named {e : Entry} (h : e ∈ d.ownPeerEntries p id) :
    '=' ∉ e.1.toList ∧ e.1 ≠ "public_key" := by
  have hname : e.1 ∈ ["preshared_key", "endpoint", "persistent_keepalive_interval", "allowed_ip"] := by
    simp only [Device.ownPeerEntries, sendIf, mem_append, mem_singleton, mem_map] at h
    rcases h with ((rfl | ⟨_, -, rfl⟩) | h) | ⟨_, -, rfl⟩
    · simp [keyf]
    · simp
    · split at h
      · simp [mem_singleton.mp h, rangef]
      · cases h
    · simp
  generalize e.1 = name at hname
  revert name
  decide

end

section

structure SamePeer (d : Device E) (id : PeerId) (f : Device E) (id' : PeerId) : Prop where
  presharedKey : (f.peers id').presharedKey = (d.peers id).presharedKey
  endpoint : (f.peers id').endpoint = (d.peers id).endpoint
  keepalive : (f.peers id').persistentKeepaliveInterval = (d.peers id).persistentKeepaliveInterval
  networks : ∀ network,
    network ∈ f.allowedips.entriesForPeer id' ↔ network ∈ d.allowedips.entriesForPeer id

structure SameOwn (base f : Device E) : Prop where
  settings : f.settings = base.settings
  ipackets : f.ipackets = base.ipackets
  privateKey : f.privateKey = base.privateKey
  publicKey : f.publicKey = base.publicKey
  fwmark : f.fwmark = base.fwmark
  state : f.state = base.state

structure Restored (p : Platform E) (d base : Device E) (done : List (Key × PeerId)) (f : Device E) :
    Prop where
  own : SameOwn base f
  sound : f.Sound p
  keys : f.keyMap.map Prod.fst = done.map Prod.fst
  peers : ∀ k id id', (k, id) ∈ done → (k, id') ∈ f.keyMap → SamePeer d id f id'

variable {d base f : Device E} {done : List (Key × PeerId)}

theorem Restored.modifyPeer (h : Restored p d base done f) (n : PeerId) {change : Peer E → Peer E}
    (hremote : ∀ q, (change q).remoteStatic = q.remoteStatic)
    (hsecret : ∀ q, (change q).precomputedStaticStatic = q.precomputedStaticStatic)
    (hpsk : ∀ q, (change q).presharedKey = q.presharedKey)
    (hendpoint : ∀ q, (change q).endpoint = q.endpoint)
    (hkeepalive : ∀ q, (change q).persistentKeepaliveInterval = q.persistentKeepaliveInterval) :
    Restored p d base done (f.modifyPeer n change) := by
  refine ⟨{ h.own with }, h.sound.frame (.modifyPeer f n hremote hsecret), h.keys,
    fun k id id' hk hk' => ?_⟩
  have hsame := h.peers k id id' hk hk'
  exact ⟨(Device.modifyPeer_peers Peer.presharedKey hpsk f n id').trans hsame.presharedKey,
    (Device.modifyPeer_peers Peer.endpoint hendpoint f n id').trans hsame.endpoint,
    (Device.modifyPeer_peers Peer.persistentKeepaliveInterval hkeepalive f n id').trans hsame.keepalive,
    hsame.networks⟩

theorem Restored.postConfig (h : Restored p d base done f) (hbase : base.state = .down)
    (peer : Option IpcSetPeer) : Restored p d base done (f.handlePostConfig peer) := by
  have hdown : f.state = .down := h.own.state.trans hbase
  unfold Device.handlePostConfig
  split
  · exact h
  split
  · exact h
  next peer _ =>
  cases peer.created with
  | true =>
    rw [if_pos rfl, if_neg (by simp [Device.modifyPeer, hdown])]
    exact h.modifyPeer peer.peer (fun _ => rfl) (fun _ => rfl) (fun _ => rfl) (fun _ => rfl)
      fun _ => rfl
  | false =>
    simp only [Bool.false_eq_true, if_false]
    rw [if_neg (by rw [hdown]; decide)]
    exact h

theorem lookupPeer_eq_none {k : Key} (h : k ∉ f.keyMap.map Prod.fst) : f.lookupPeer k = none := by
  cases hl : f.lookupPeer k with
  | none => rfl
  | some id => exact absurd (mem_map_of_mem (Device.mem_of_lookupPeer hl)) h

-- One peer more: its public key makes a new peer, and the lines that follow
-- configure it. Networks are nowhere else in `d`, so none is taken from the
-- peers that are there already.
theorem Restored.step (hp : p.Lawful) (hd : d.Storable p) (hm : d.Mapped) {r : Reading E}
    (h : Restored p d base done r.device) (hbase : base.state = .down) {k : Key} {id : PeerId}
    (hk : (k, id) ∈ d.keyMap) (hdone : ∀ e ∈ done, e ∈ d.keyMap) (hfresh : k ∉ done.map Prod.fst)
    (hsize : done.length < maxPeers) (hown : base.publicKey ≠ k) :
    ∃ r' : Reading E, Feeds (Accepts p) r (keyf "public_key" k :: d.ownPeerEntries p id) r' ∧
      Restored p d base (done ++ [(k, id)]) r'.device ∧ r'.staged = r.staged := by
  have h1 := h.postConfig hbase r.peer
  generalize hf1 : r.device.handlePostConfig r.peer = f1 at h1
  have hlength : f1.keyMap.length = done.length := by
    simpa using congrArg List.length h1.keys
  have hnone : f1.lookupPeer k = none := lookupPeer_eq_none (h1.keys ▸ hfresh)
  have hown1 : f1.publicKey ≠ k := h1.own.publicKey ▸ hown
  have hopen : f1.state ≠ .closed := by
    rw [h1.own.state, hbase]
    decide
  let n := f1.allocated
  let g : Device E := { f1 with keyMap := f1.keyMap ++ [(k, n)], allocated := n + 1 }
  let q0 : Peer E :=
    { remoteStatic := k, precomputedStaticStatic := (p.sharedSecret f1.privateKey k).1 }
  have hnew : f1.newPeer p k = .ok (put g n q0 f1.allowedips, n) := by
    unfold Device.newPeer
    rw [if_neg hopen, if_neg (by omega), if_neg (by simp [hnone])]
    rfl
  obtain ⟨hs2, hmem2, hbound2⟩ := h1.sound.newPeer hown1 hnew
  obtain ⟨pkaOn, t', hfeed, htable⟩ := feeds_ownPeerEntries g (n := n) (q := q0) (t := f1.allowedips)
    ⟨n, false, true, r.peer.elim false IpcSetPeer.pkaOn⟩ rfl rfl rfl rfl hp (hd.peers id)
  have hs3 := hfeed.sound hs2 ⟨hbound2, fun _ => ⟨k, hmem2⟩⟩
  have hpublic : Accepts p r (keyf "public_key" k) ⟨put g n q0 f1.allowedips, r.staged,
      some ⟨n, false, true, r.peer.elim false IpcSetPeer.pkaOn⟩⟩ :=
    accepts_publicKeyLine (by rw [hf1]; exact handlePublicKeyLine_new hown1 hnone hnew)
  let reading (st : Peering E) : Reading E := ⟨st.1, r.staged, some st.2⟩
  have hblock : Feeds (Accepts p) _ _ _ := hfeed.lift (g := reading) fun e he st st' htake =>
    Takes.accepts htake (ownPeerEntries_named he).1 (ownPeerEntries_named he).2 r.staged
  refine ⟨⟨put g n (q0.configured (d.peers id)) t', r.staged, _⟩, ⟨_, hpublic, hblock⟩,
    ⟨?_, hs3, ?_, fun k' id' j hk' hj => ?_⟩, rfl⟩
  · exact { h1.own with }
  · show (f1.keyMap ++ [(k, n)]).map Prod.fst = _
    rw [map_append, map_append, h1.keys]
    rfl
  rcases mem_append.mp hk' with hold | hlast
  · -- a peer that was there
    have hne : k' ≠ k := fun heq => hfresh (heq ▸ mem_map_of_mem hold)
    rcases mem_append.mp hj with hj | hj
    · have hsame := h1.peers k' id' j hold hj
      have hjn : j ≠ n := Nat.ne_of_lt (h1.sound.bound k' j hj)
      have hpeer : (put g n (q0.configured (d.peers id)) t').peers j = f1.peers j :=
        update_of_ne hjn ..
      refine ⟨by rw [hpeer, hsame.presharedKey], by rw [hpeer, hsame.endpoint],
        by rw [hpeer, hsame.keepalive], fun network => ?_⟩
      have hids : id' ≠ id := by
        rintro rfl
        exact hne (congrArg Prod.fst (inj_on_of_nodup_map hm.ids (hdone _ hold) hk rfl))
      rw [show (put g n (q0.configured (d.peers id)) t').allowedips = t' from rfl, htable,
        hsame.networks]
      constructor
      · rintro (⟨-, hjn'⟩ | ⟨-, hnet⟩)
        · exact absurd hjn' hjn
        · exact hnet
      · exact fun hnet => .inr ⟨fun hnet' => hids (Table.eq_of_mem hnet hnet'), hnet⟩
    · exact absurd (congrArg Prod.fst (mem_singleton.mp hj)) hne
  · -- the new one
    obtain ⟨rfl, rfl⟩ := Prod.mk.inj (mem_singleton.mp hlast)
    rcases mem_append.mp hj with hj | hj
    · exact absurd (h1.keys ▸ mem_map_of_mem hj) hfresh
    · obtain rfl : j = n := congrArg Prod.snd (mem_singleton.mp hj)
      have hpeer : (put g n (q0.configured (d.peers id')) t').peers n = q0.configured (d.peers id') :=
        update_self ..
      refine ⟨by rw [hpeer]; rfl, by rw [hpeer]; rfl, by rw [hpeer]; rfl, fun network => ?_⟩
      rw [show (put g n (q0.configured (d.peers id')) t').allowedips = t' from rfl, htable]
      constructor
      · rintro (⟨hnet, -⟩ | ⟨-, hnet⟩)
        · exact hnet
        · obtain ⟨k'', hk''⟩ := h1.sound.routed n network hnet
          exact absurd (h1.sound.bound k'' n hk'') (Nat.lt_irrefl _)
      · exact fun hnet => .inl ⟨hnet, rfl⟩

theorem Restored.run (hp : p.Lawful) (hd : d.Storable p) (hm : d.Mapped) {r : Reading E}
    (h : Restored p d base done r.device) (hbase : base.state = .down)
    {todo : List (Key × PeerId)} (hkeys : ((done ++ todo).map Prod.fst).Nodup)
    (hmem : ∀ e ∈ done ++ todo, e ∈ d.keyMap) (hsize : (done ++ todo).length ≤ maxPeers)
    (hown : ∀ e ∈ todo, base.publicKey ≠ e.1) :
    ∃ r' : Reading E, Feeds (Accepts p) r
        (todo.flatMap fun e => keyf "public_key" e.1 :: d.ownPeerEntries p e.2) r' ∧
      Restored p d base (done ++ todo) r'.device ∧ r'.staged = r.staged := by
  induction todo generalizing done r with
  | nil => exact ⟨r, rfl, by simpa using h, rfl⟩
  | cons e todo ih =>
    rw [forall_mem_cons] at hown
    have hfresh : e.1 ∉ done.map Prod.fst := by
      rw [map_append, nodup_append] at hkeys
      exact fun hin => hkeys.2.2 e.1 hin e.1 (by simp) rfl
    have hlt : done.length < maxPeers := by
      rw [length_append, length_cons] at hsize
      omega
    obtain ⟨mid, hfeed, hmid, hstaged⟩ := Restored.step hp hd hm h hbase
      (show (e.1, e.2) ∈ d.keyMap from hmem e (by simp))
      (fun e' he' => hmem e' (mem_append_left _ he')) hfresh hlt hown.1
    have hassoc : done ++ [e] ++ todo = done ++ e :: todo := by simp
    obtain ⟨r', hrest, hr', hstaged'⟩ := ih hmid (hassoc ▸ hkeys) (hassoc ▸ hmem) (hassoc ▸ hsize)
      hown.2
    exact ⟨r', hfeed.append hrest, hassoc ▸ hr', hstaged'.trans hstaged⟩

end

end StarlingWg.Uapi
