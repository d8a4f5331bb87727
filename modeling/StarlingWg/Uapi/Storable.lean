import StarlingWg.Uapi.Get
import StarlingWg.Uapi.Peers

namespace StarlingWg.Uapi

open List Function
open Control (Key)
open StarlingWg.Device (Settings IpcSetDevice UintRange ObfChain Staged Stages Ready)

section

structure Parsed (s : Settings) : Prop where
  valid : s.Valid
  paddings : ∀ padding ∈ s.paddings.list, padding < 65536
  ranges : ∀ r ∈ s.ranges, r.WellFormed

theorem newDevice_parsed : Parsed Device.newDevice := by
  refine ⟨Device.newDevice_valid, fun padding hp => ?_, by decide⟩
  obtain rfl : padding = 0 := by
    simpa [Device.newDevice, Device.Paddings.list] using hp
  decide

variable {staged next : Staged} {key : String} {value : List Char}
  {outside : Except Device.IpcError Unit} {s : Settings}

structure Staging (s : Settings) (staged : IpcSetDevice) : Prop where
  parsed : Parsed s
  headers : ∀ r ∈ staged.headers.list, r.WellFormed
  paddings : ∀ padding ∈ staged.paddings.list, padding < 65536

theorem Parsed.staging (h : Parsed s) : Staging s (.fromDevice s) :=
  ⟨h, h.valid.wellFormed, h.paddings⟩

theorem Staging.ready {staged : IpcSetDevice} (h : Staging s staged) : Ready (s, staged) :=
  ⟨h.parsed.valid, h.headers⟩

theorem Staging.line (h : Staging staged.1 staged.2)
    (hline : StarlingWg.Device.handleDeviceLine staged key value outside = .ok next) :
    Staging next.1 next.2 := by
  have hstages := Device.handleDeviceLine_stages hline
  have hready := h.ready.of_stages hstages
  refine ⟨⟨hready.device, ?_, fun r hr => ?_⟩, hready.headers, fun padding hp => ?_⟩
  · rw [hstages.paddings]
    exact h.parsed.paddings
  · exact (hstages.stored r hr).elim id (h.parsed.ranges r)
  · exact (hstages.sizes padding hp).elim id (h.paddings padding)

theorem Staging.merge {staged : IpcSetDevice} (h : Staging s staged) :
    Parsed (staged.mergeWithDevice s).1 := by
  refine ⟨h.ready.merge, ?_, ?_⟩
  · unfold IpcSetDevice.mergeWithDevice
    split
    · exact h.parsed.paddings
    split
    · exact h.parsed.paddings
    · exact h.paddings
  · unfold IpcSetDevice.mergeWithDevice
    split
    · exact h.parsed.ranges
    split
    · exact h.parsed.ranges
    · exact h.parsed.ranges

end

section

variable {E : Type}

def IPackets.list (i : IPackets) : List (Option ObfChain) :=
  [i.i1, i.i2, i.i3, i.i4, i.i5]

-- A chain whose text, read again, gives the same chain.
structure Kept (p : Platform E) (chain : ObfChain) : Prop where
  built : Device.newObfChain p.fields chain.spec = .ok (some chain)
  newline : '\n' ∉ chain.spec
  length : chain.spec.length + 3 < Device.maxScanTokenSize

structure Peer.Storable (p : Platform E) (peer : Peer E) : Prop where
  keepalive : peer.persistentKeepaliveInterval.WellFormed
  endpoint : ∀ endpoint, peer.endpoint = some endpoint →
    ∃ text, '\n' ∉ text ∧ p.parseEndpoint text = some endpoint

theorem Peer.default_storable (p : Platform E) : ({} : Peer E).Storable p :=
  ⟨UInt32.le_refl _, fun _ h => by cases h⟩

namespace Device

structure Storable (p : Platform E) (d : Device E) : Prop where
  key : d.privateKey = 0 ∨
    clamp d.privateKey = d.privateKey ∧ d.publicKey = p.publicKey d.privateKey
  chains : ∀ chain, some chain ∈ d.ipackets.list → Kept p chain
  peers : ∀ id, (d.peers id).Storable p

structure Quiet (p : Platform E) (d d' : Device E) : Prop where
  privateKey : d'.privateKey = d.privateKey
  publicKey : d'.publicKey = d.publicKey
  ipackets : d'.ipackets = d.ipackets
  settings : d'.settings = d.settings
  peers : (∀ id, (d.peers id).Storable p) → ∀ id, (d'.peers id).Storable p

variable {p : Platform E} {d d' d'' : Device E}

theorem Quiet.refl (d : Device E) : Quiet p d d :=
  ⟨rfl, rfl, rfl, rfl, fun h => h⟩

theorem Quiet.same (hprivate : d'.privateKey = d.privateKey) (hpublic : d'.publicKey = d.publicKey)
    (hipackets : d'.ipackets = d.ipackets) (hsettings : d'.settings = d.settings)
    (hpeers : d'.peers = d.peers) : Quiet p d d' :=
  ⟨hprivate, hpublic, hipackets, hsettings, fun h => hpeers ▸ h⟩

theorem Quiet.trans (h : Quiet p d d') (h' : Quiet p d' d'') : Quiet p d d'' where
  privateKey := h'.privateKey.trans h.privateKey
  publicKey := h'.publicKey.trans h.publicKey
  ipackets := h'.ipackets.trans h.ipackets
  settings := h'.settings.trans h.settings
  peers hp := h'.peers (h.peers hp)

theorem Quiet.modifyPeer (d : Device E) (id : PeerId) {change : Peer E → Peer E}
    (hchange : ∀ peer : Peer E, peer.Storable p → (change peer).Storable p) :
    Quiet p d (d.modifyPeer id change) := by
  refine ⟨rfl, rfl, rfl, rfl, fun h j => ?_⟩
  by_cases hj : j = id
  · subst hj
    simp only [Device.modifyPeer, update_self]
    exact hchange _ (h j)
  · simp only [Device.modifyPeer, update_of_ne hj]
    exact h j

theorem Quiet.allocate (d : Device E) {peer : Peer E} (hpeer : peer.Storable p) :
    Quiet p d (d.allocate peer) := by
  refine ⟨rfl, rfl, rfl, rfl, fun h j => ?_⟩
  by_cases hj : j = d.allocated
  · subst hj
    simp only [Device.allocate, update_self]
    exact hpeer
  · simp only [Device.allocate, update_of_ne hj]
    exact h j

theorem Quiet.harmless : Harmless (Quiet p) where
  refl := .refl
  trans := .trans
  bind _ _ _ _ := .same rfl rfl rfl rfl rfl
  flags d id _ _ := .modifyPeer d id fun _ h => ⟨h.keepalive, h.endpoint⟩

theorem Quiet.removePeerLocked (d : Device E) (id : PeerId) (k : Key) :
    Quiet p d (d.removePeerLocked id k) :=
  ⟨rfl, rfl, rfl, rfl, (Quiet.harmless.stop d id).peers⟩

theorem Quiet.removePeer (d : Device E) (k : Key) : Quiet p d (d.removePeer k) := by
  unfold Device.removePeer
  split
  · exact .removePeerLocked d _ k
  · exact .refl d

theorem Quiet.removeAllPeers (d : Device E) (range : Ranging) :
    Quiet p d (d.removeAllPeers range) := by
  have hloop : Quiet p d ((range.visit d.keyMap).foldl
      (fun d entry => d.removePeerLocked entry.2 entry.1) d) :=
    Quiet.harmless.foldl d (fun d (entry : Key × PeerId) => .removePeerLocked d entry.2 entry.1) _
  exact ⟨hloop.privateKey, hloop.publicKey, hloop.ipackets, hloop.settings, hloop.peers⟩

theorem Quiet.newPeer {pk : Key} {id : PeerId} (h : d.newPeer p pk = .ok (d', id)) :
    Quiet p d d' := by
  unfold Device.newPeer at h
  split at h
  · cases h
  split at h
  · cases h
  split at h
  · cases h
  cases h
  have hnew : ({ remoteStatic := pk
                 precomputedStaticStatic := (p.sharedSecret d.privateKey pk).1 } : Peer E).Storable p :=
    ⟨(Peer.default_storable p).keepalive, (Peer.default_storable p).endpoint⟩
  exact ⟨rfl, rfl, rfl, rfl, (Quiet.allocate d hnew).peers⟩

theorem Quiet.handlePublicKeyLine (d : Device E) (last : Option IpcSetPeer) (value : List Char) :
    Quiet p d (d.handlePublicKeyLine p last value).1 := by
  unfold Device.handlePublicKeyLine
  split
  · exact .refl d
  split
  · exact .allocate d (Peer.default_storable p)
  split
  · exact .refl d
  split
  · exact .refl d
  · next hnew => exact .newPeer hnew

theorem Quiet.discard (d : Device E) (peer : IpcSetPeer) : Quiet p d (d.discard peer).1 :=
  .allocate d (Peer.default_storable p)

theorem Quiet.handlePeerLine (d : Device E) (peer : IpcSetPeer) (key : String) {value : List Char}
    (hvalue : '\n' ∉ value) : Quiet p d (d.handlePeerLine p peer key value).1.1 := by
  unfold Device.handlePeerLine
  split
  · split
    · exact .refl d
    split
    · exact (Quiet.removePeer d _).trans (.discard _ peer)
    · exact .refl d
  · split
    · exact .refl d
    split
    · exact .discard d peer
    · exact (Quiet.removePeer d _).trans (.discard _ peer)
  · split
    · exact .refl d
    · dsimp only
      exact .modifyPeer d peer.peer fun _ h => ⟨h.keepalive, h.endpoint⟩
  · split
    · exact .refl d
    · next endpoint hparse =>
        dsimp only
        refine .modifyPeer d peer.peer fun _ h => ⟨h.keepalive, ?_⟩
        rintro _ ⟨⟩
        exact ⟨value, hvalue, hparse⟩
  · split
    · exact .refl d
    · next rang hparse =>
        dsimp only
        exact .modifyPeer d peer.peer fun _ h =>
          ⟨UintRange.fromString_wellFormed (Device.fails_ok hparse), h.endpoint⟩
  · split
    · exact .refl d
    split
    · exact .refl d
    · exact .same rfl rfl rfl rfl rfl
  · dsimp only
    split
    · exact .refl d
    split
    · exact .refl d
    split
    · exact .same rfl rfl rfl rfl rfl
    · exact .same rfl rfl rfl rfl rfl
  · split
    · exact .refl d
    · exact .refl d
  · exact .refl d

theorem Storable.quiet (h : d.Storable p) (hq : Quiet p d d') : d'.Storable p where
  key := by
    rw [hq.privateKey, hq.publicKey]
    exact h.key
  chains chain hc := h.chains chain (hq.ipackets ▸ hc)
  peers := hq.peers h.peers

theorem fromMaybeZeroHex_clamped {value : List Char} {sk : Key} (h : fromMaybeZeroHex value = .ok sk) :
    sk = 0 ∨ clamp sk = sk := by
  obtain ⟨key, -, hkey⟩ := Device.bind_ok h
  cases hkey
  by_cases hzero : key = 0
  · exact .inl (by rw [if_pos hzero]; exact hzero)
  · exact .inr (by rw [if_neg hzero]; exact clamp_clamp key)

theorem Storable.setPrivateKey (h : d.Storable p) (range : Ranging) {sk : Key}
    (hsk : sk = 0 ∨ clamp sk = sk) :
    (d.setPrivateKey p range sk).Storable p ∧ (d.setPrivateKey p range sk).settings = d.settings := by
  unfold Device.setPrivateKey
  split
  · exact ⟨h, rfl⟩
  dsimp only
  have hremove : Quiet p d ((range.visit d.keyMap).foldl (fun d entry =>
      if (d.peers entry.2).remoteStatic = p.publicKey sk then d.removePeerLocked entry.2 entry.1
      else d) d) := by
    refine Quiet.harmless.foldl d (fun d (entry : Key × PeerId) => ?_) _
    split
    · exact .removePeerLocked d _ _
    · exact .refl d
  generalize (range.visit d.keyMap).foldl _ d = removed at hremove ⊢
  have hstep : ∀ (d : Device E) (entry : Key × PeerId), Quiet p d (d.modifyPeer entry.2 fun peer =>
      { peer with precomputedStaticStatic := (p.sharedSecret sk peer.remoteStatic).1 }) :=
    fun d entry => .modifyPeer d entry.2 fun _ h => ⟨h.keepalive, h.endpoint⟩
  have hrefresh := Quiet.harmless.foldl { removed with privateKey := sk, publicKey := p.publicKey sk }
    hstep (range.visit removed.keyMap)
  refine ⟨Storable.quiet ⟨?_, ?_, ?_⟩ hrefresh, hrefresh.settings.trans hremove.settings⟩
  · exact hsk.imp id fun hclamp => ⟨hclamp, rfl⟩
  · exact fun chain hc => h.chains chain (hremove.ipackets ▸ hc)
  · exact hremove.peers h.peers

section

variable {staged : IpcSetDevice} {value : List Char}

theorem Storable.storeIPacket (h : d.Storable p) (hs : Staging d.settings staged)
    (hvalue : '\n' ∉ value) (hlength : value.length + 3 < Device.maxScanTokenSize) (context : String)
    {store : Option ObfChain → IPackets}
    (hstore : ∀ chain c, some c ∈ (store chain).list → some c = chain ∨ some c ∈ d.ipackets.list) :
    (d.storeIPacket p staged value context store).1.1.Storable p ∧
      Staging (d.storeIPacket p staged value context store).1.1.settings
        (d.storeIPacket p staged value context store).1.2 := by
  unfold Device.storeIPacket
  split
  · exact ⟨h, hs⟩
  next chain hchain =>
  refine ⟨⟨h.key, fun c hc => ?_, h.peers⟩, hs⟩
  rcases hstore chain c hc with rfl | hold
  · have hspec := StarlingWg.Device.newObfChain_spec hchain
    exact ⟨hspec.symm ▸ hchain, hspec.symm ▸ hvalue, hspec.symm ▸ hlength⟩
  · exact h.chains c hold

theorem Storable.handleDeviceLine (h : d.Storable p) (hs : Staging d.settings staged)
    {key : String} (hvalue : '\n' ∉ value)
    (hlength : key.toList.length + 1 + value.length < Device.maxScanTokenSize) (a : Answers) :
    (d.handleDeviceLine p staged key value a).1.1.Storable p ∧
      Staging (d.handleDeviceLine p staged key value a).1.1.settings
        (d.handleDeviceLine p staged key value a).1.2 := by
  have hquiet : ∀ {d' : Device E}, Quiet p d d' → d'.Storable p ∧ Staging d'.settings staged :=
    fun hq => ⟨h.quiet hq, hq.settings ▸ hs⟩
  unfold Device.handleDeviceLine
  split
  · split
    · exact ⟨h, hs⟩
    · next sk hsk =>
        obtain ⟨hnext, hsettings⟩ :=
          h.setPrivateKey a.range (fromMaybeZeroHex_clamped (Device.fails_ok hsk))
        exact ⟨hnext, hsettings ▸ hs⟩
  · split
    · exact ⟨h, hs⟩
    · next port _ =>
        have hport : Quiet p d { d with port := .ofNat port } := .same rfl rfl rfl rfl rfl
        exact hquiet (hport.trans (Quiet.harmless.bindUpdate _ a))
  · split
    · exact ⟨h, hs⟩
    · exact hquiet (Quiet.harmless.bindSetMark d a _)
  · split
    · exact ⟨h, hs⟩
    · exact hquiet (.removeAllPeers d a.range)
  iterate 5
    · refine h.storeIPacket hs hvalue ?_ _ fun chain c hc => ?_
      · change 2 + 1 + value.length < _ at hlength
        omega
      · simp only [IPackets.list, mem_cons, not_mem_nil, or_false] at hc ⊢
        tauto
  · split
    · exact ⟨h, hs⟩
    · next settings staged' hline =>
        exact ⟨⟨h.key, h.chains, h.peers⟩, Staging.line hs hline⟩

theorem Storable.finish (h : d.Storable p) (hs : Staging d.settings staged)
    (peer : Option IpcSetPeer) (readError : Bool) :
    (d.finish staged peer readError).1.Storable p ∧
      Parsed (d.finish staged peer readError).1.settings := by
  have hmerge := hs.merge
  unfold Device.finish
  split
  · next heq =>
      rw [heq] at hmerge
      exact ⟨⟨h.key, h.chains, h.peers⟩, hmerge⟩
  · next settings _ heq =>
      rw [heq] at hmerge
      have hmerged : { d with settings := settings }.Storable p := ⟨h.key, h.chains, h.peers⟩
      have hquiet : Quiet p { d with settings := settings }
          ({ d with settings := settings }.handlePostConfig peer) :=
        Quiet.harmless.handlePostConfig _ peer
      exact ⟨hmerged.quiet hquiet, hquiet.settings.symm ▸ hmerge⟩

end

end Device

end

structure Line.Scanned (line : Line) : Prop where
  newline : '\n' ∉ line.text
  length : line.text.length < Device.maxScanTokenSize

theorem cut_eq_some {text key value : List Char} (h : Device.cut text = some (key, value)) :
    text = key ++ '=' :: value := by
  induction text generalizing key with
  | nil => cases h
  | cons c text ih =>
    by_cases hc : c = '='
    · subst hc
      cases h
      rfl
    · rw [Device.cut] at h
      · obtain ⟨⟨key', value'⟩, hcut, heq⟩ := Option.map_eq_some_iff.mp h
        obtain ⟨rfl, rfl⟩ := Prod.mk.inj heq
        rw [ih hcut]
        rfl
      · exact hc

theorem Line.Scanned.value {line : Line} (h : line.Scanned) {key value : List Char}
    (hcut : Device.cut line.text = some (key, value)) :
    '\n' ∉ value ∧
      (String.ofList key).toList.length + 1 + value.length < Device.maxScanTokenSize := by
  have htext := cut_eq_some hcut
  refine ⟨fun hmem => h.newline ?_, ?_⟩
  · rw [htext]
    simp [hmem]
  · have hlength := h.length
    rw [htext, length_append, length_cons] at hlength
    rw [String.toList_ofList]
    omega

theorem not_mem_splitOn {c : Char} {text piece : List Char} (h : piece ∈ text.splitOn c) :
    c ∉ piece := by
  induction text generalizing piece with
  | nil =>
    simp only [List.splitOn, splitOnP_nil, mem_singleton] at h
    simp [h]
  | cons x text ih =>
    rw [List.splitOn, splitOnP_cons_eq_if_modifyHead] at h
    split at h
    · rcases mem_cons.mp h with rfl | h
      · simp
      · exact ih h
    · next hx =>
        have hne : c ≠ x := fun heq => hx (by simp [heq])
        obtain ⟨first, rest, hsplit⟩ := exists_cons_of_ne_nil (splitOnP_ne_nil (· == c) text)
        rw [hsplit, modifyHead_cons] at h
        have hold : ∀ piece ∈ first :: rest, c ∉ piece := fun piece hp =>
          ih (by rw [List.splitOn, hsplit]; exact hp)
        rcases mem_cons.mp h with rfl | h
        · rw [mem_cons, not_or]
          exact ⟨hne, hold first mem_cons_self⟩
        · exact hold piece (mem_cons_of_mem _ h)

theorem mem_scan {pieces : List (List Char)} {line : List Char} (h : line ∈ (Device.scan pieces).1) :
    ∃ piece ∈ pieces, line = Device.dropCR piece ∧ piece.length < Device.maxScanTokenSize := by
  induction pieces with
  | nil => cases h
  | cons piece pieces ih =>
    cases pieces with
    | nil =>
      simp only [Device.scan] at h
      split at h
      · cases h
      split at h
      · cases h
      next hlength =>
      exact ⟨piece, mem_cons_self, mem_singleton.mp h, Nat.not_le.mp hlength⟩
    | cons second pieces =>
      simp only [Device.scan] at h
      split at h
      · cases h
      next hlength =>
      rcases mem_cons.mp h with rfl | h
      · exact ⟨piece, mem_cons_self, rfl, Nat.not_le.mp hlength⟩
      · obtain ⟨other, hmem, hother⟩ := ih h
        exact ⟨other, mem_cons_of_mem _ hmem, hother⟩

theorem dropCR_sublist (line : List Char) : (Device.dropCR line).Sublist line := by
  unfold Device.dropCR
  split
  · exact dropLast_sublist line
  · exact .refl line

theorem Input.Reads.scanned {input : Input} {text : List Char} (h : input.Reads text) :
    ∀ line ∈ input.lines, line.Scanned := by
  intro line hline
  have hmem : line.text ∈ (Device.scanLines text).1 := by
    rw [h]
    exact mem_map_of_mem hline
  obtain ⟨piece, hpiece, htext, hlength⟩ := mem_scan hmem
  have hsub := dropCR_sublist piece
  rw [← htext] at hsub
  exact ⟨fun hnl => not_mem_splitOn hpiece (hsub.subset hnl),
    Nat.lt_of_le_of_lt hsub.length_le hlength⟩

namespace Device

variable {E : Type} {p : Platform E} {d : Device E}

theorem Storable.lineStep (h : d.Storable p) {staged : IpcSetDevice} (hs : Staging d.settings staged)
    (peer : Option IpcSetPeer) {line : Line} (hl : line.Scanned) : (d.lineStep p staged peer line).elim
      (fun next => next.1.Storable p ∧ Staging next.1.settings next.2.1)
      fun result => result.1.Storable p ∧ Parsed result.1.settings := by
  unfold Device.lineStep
  split
  · exact h.finish hs peer false
  split
  · exact ⟨h, hs.parsed⟩
  next key value hcut =>
  obtain ⟨hvalue, hlength⟩ := hl.value hcut
  split
  · have hquiet : Quiet p d ((d.handlePostConfig peer).handlePublicKeyLine p peer value).1 :=
      (Quiet.harmless.handlePostConfig d peer).trans (.handlePublicKeyLine _ peer value)
    generalize (d.handlePostConfig peer).handlePublicKeyLine p peer value = result at hquiet ⊢
    obtain ⟨d', err | next⟩ := result
    · exact ⟨h.quiet hquiet, hquiet.settings.symm ▸ hs.parsed⟩
    · exact ⟨h.quiet hquiet, hquiet.settings.symm ▸ hs⟩
  split
  · have hline := h.handleDeviceLine hs hvalue hlength line.answers
    generalize d.handleDeviceLine p staged _ value line.answers = result at hline ⊢
    obtain ⟨⟨d', staged'⟩, _ | err⟩ := result
    · exact hline
    · exact ⟨hline.1, hline.2.parsed⟩
  · next peer =>
    have hquiet : Quiet p d (d.handlePeerLine p peer (String.ofList key) value).1.1 :=
      .handlePeerLine d peer _ hvalue
    generalize d.handlePeerLine p peer _ value = result at hquiet ⊢
    obtain ⟨⟨d', next⟩, _ | err⟩ := result
    · exact ⟨h.quiet hquiet, hquiet.settings.symm ▸ hs⟩
    · exact ⟨h.quiet hquiet, hquiet.settings.symm ▸ hs.parsed⟩

theorem Quiet.close (d : Device E) (range : Ranging) : Quiet p d (d.close range) := by
  have hclose : Quiet p d ({ d with state := .closed }.stopAll.removeAllPeers range) :=
    (Quiet.harmless.stopAll d .closed).trans (.removeAllPeers _ range)
  unfold Device.close
  split
  · exact .refl d
  · exact hclose
  · exact hclose

-- A call whose input is what the scanner reads of some text.
def Call.Textual : Call → Prop
  | .ipcSet input => ∃ text, input.Reads text
  | _ => True

theorem Storable.call (h : d.Storable p) (hs : Parsed d.settings) {c : Call} (hc : Call.Textual c) :
    (d.call p c).Storable p ∧ Parsed (d.call p c).settings := by
  have hquiet : ∀ {d' : Device E}, Quiet p d d' → d'.Storable p ∧ Parsed d'.settings := fun hq =>
    ⟨h.quiet hq, hq.settings.symm ▸ hs⟩
  cases c with
  | ipcSet input =>
    obtain ⟨text, hreads⟩ := hc
    exact ipcSetLines_holds (I := fun d staged _ => d.Storable p ∧ Staging d.settings staged)
      (Q := fun d => d.Storable p ∧ Parsed d.settings)
      (fun _ _ peer line hl h => h.1.lineStep h.2 peer (hreads.scanned line hl))
      (fun _ _ peer h => h.1.finish h.2 peer input.readError) ⟨h, hs.staging⟩
  | removePeer key => exact hquiet (.removePeer d key)
  | removeAllPeers range => exact hquiet (.removeAllPeers d range)
  | up a => exact hquiet (Quiet.harmless.up d a)
  | down => exact hquiet (Quiet.harmless.down d)
  | close range => exact hquiet (.close d range)

theorem newDevice_storable : (newDevice E).Storable p :=
  ⟨.inl rfl, fun chain hc => by simp [newDevice, IPackets.list] at hc,
    fun _ => Peer.default_storable p⟩

theorem run_storable {calls : List Call} (hcalls : ∀ c ∈ calls, Call.Textual c) :
    (run p calls).Storable p ∧ Parsed (run p calls).settings := by
  have hfrom : ∀ d : Device E, d.Storable p → Parsed d.settings →
      (calls.foldl (Device.call p) d).Storable p ∧
        Parsed (calls.foldl (Device.call p) d).settings := by
    induction calls with
    | nil => exact fun d h hs => ⟨h, hs⟩
    | cons c calls ih =>
      rw [forall_mem_cons] at hcalls
      intro d h hs
      obtain ⟨h', hs'⟩ := h.call hs hcalls.1
      exact ih hcalls.2 _ h' hs'
  exact hfrom _ newDevice_storable newDevice_parsed

end Device

end StarlingWg.Uapi
