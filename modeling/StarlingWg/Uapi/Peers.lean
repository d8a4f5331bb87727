import StarlingWg.Uapi.Device

namespace StarlingWg.Uapi

open List Function
open Control (Key)
open StarlingWg.Device (IpcSetDevice)
open Routing (Network)

variable {E : Type}

namespace Device

section

-- The map is one to one, its peers know their keys, and only they own
-- networks.
structure Mapped (d : Device E) : Prop where
  keys : (d.keyMap.map Prod.fst).Nodup
  ids : (d.keyMap.map Prod.snd).Nodup
  bound : ∀ k id, (k, id) ∈ d.keyMap → id < d.allocated
  remoteStatic : ∀ k id, (k, id) ∈ d.keyMap → (d.peers id).remoteStatic = k
  routed : ∀ id network, network ∈ d.allowedips.entriesForPeer id → ∃ k, (k, id) ∈ d.keyMap
  size : d.keyMap.length ≤ maxPeers

structure SameMap (d d' : Device E) : Prop where
  keyMap : d'.keyMap = d.keyMap
  allocated : d.allocated ≤ d'.allocated
  remoteStatic : ∀ id < d.allocated, (d'.peers id).remoteStatic = (d.peers id).remoteStatic
  routed : ∀ id network, network ∈ d'.allowedips.entriesForPeer id →
    network ∈ d.allowedips.entriesForPeer id ∨ ∃ k, (k, id) ∈ d.keyMap

structure Frame (d d' : Device E) : Prop extends SameMap d d' where
  publicKey : d'.publicKey = d.publicKey
  privateKey : d'.privateKey = d.privateKey
  precomputed : ∀ id < d.allocated,
    (d'.peers id).precomputedStaticStatic = (d.peers id).precomputedStaticStatic

variable {d d' d'' : Device E}

theorem SameMap.refl (d : Device E) : SameMap d d :=
  ⟨rfl, Nat.le_refl _, fun _ _ => rfl, fun _ _ h => .inl h⟩

theorem SameMap.trans (h : SameMap d d') (h' : SameMap d' d'') : SameMap d d'' where
  keyMap := h'.keyMap.trans h.keyMap
  allocated := Nat.le_trans h.allocated h'.allocated
  remoteStatic id hid :=
    (h'.remoteStatic id (Nat.lt_of_lt_of_le hid h.allocated)).trans (h.remoteStatic id hid)
  routed id network hn := by
    rcases h'.routed id network hn with hn | hn
    · exact h.routed id network hn
    · exact .inr (h.keyMap ▸ hn)

theorem Frame.refl (d : Device E) : Frame d d :=
  ⟨.refl d, rfl, rfl, fun _ _ => rfl⟩

theorem Frame.trans (h : Frame d d') (h' : Frame d' d'') : Frame d d'' where
  toSameMap := h.toSameMap.trans h'.toSameMap
  publicKey := h'.publicKey.trans h.publicKey
  privateKey := h'.privateKey.trans h.privateKey
  precomputed id hid :=
    (h'.precomputed id (Nat.lt_of_lt_of_le hid h.allocated)).trans (h.precomputed id hid)

theorem Mapped.same (hm : d.Mapped) (h : SameMap d d') : d'.Mapped where
  keys := h.keyMap ▸ hm.keys
  ids := h.keyMap ▸ hm.ids
  bound k id hk := Nat.lt_of_lt_of_le (hm.bound k id (h.keyMap ▸ hk)) h.allocated
  remoteStatic k id hk := by
    rw [h.keyMap] at hk
    exact (h.remoteStatic id (hm.bound k id hk)).trans (hm.remoteStatic k id hk)
  routed id network hn := by
    rw [h.keyMap]
    exact (h.routed id network hn).elim (hm.routed id network) fun hk => hk
  size := h.keyMap ▸ hm.size

theorem modifyPeer_peers {α : Type} (field : Peer E → α) {change : Peer E → Peer E}
    (h : ∀ peer, field (change peer) = field peer) (d : Device E) (id j : PeerId) :
    field ((d.modifyPeer id change).peers j) = field (d.peers j) := by
  by_cases hj : j = id
  · subst hj
    simp only [Device.modifyPeer, update_self, h]
  · simp only [Device.modifyPeer, update_of_ne hj]

theorem SameMap.modifyPeer (d : Device E) (id : PeerId) {change : Peer E → Peer E}
    (hremote : ∀ peer, (change peer).remoteStatic = peer.remoteStatic) :
    SameMap d (d.modifyPeer id change) :=
  ⟨rfl, Nat.le_refl _, fun j _ => modifyPeer_peers Peer.remoteStatic hremote d id j,
    fun _ _ h => .inl h⟩

theorem Frame.modifyPeer (d : Device E) (id : PeerId) {change : Peer E → Peer E}
    (hremote : ∀ peer, (change peer).remoteStatic = peer.remoteStatic)
    (hsecret : ∀ peer, (change peer).precomputedStaticStatic = peer.precomputedStaticStatic) :
    Frame d (d.modifyPeer id change) :=
  ⟨.modifyPeer d id hremote, rfl, rfl,
    fun j _ => modifyPeer_peers Peer.precomputedStaticStatic hsecret d id j⟩

theorem Frame.allocate (d : Device E) (peer : Peer E) : Frame d (d.allocate peer) := by
  have hold : ∀ id < d.allocated, (d.allocate peer).peers id = d.peers id := fun id hid =>
    update_of_ne (Nat.ne_of_lt hid) ..
  exact ⟨⟨rfl, Nat.le_succ _, fun id hid => by rw [hold id hid], fun _ _ h => .inl h⟩, rfl, rfl,
    fun id hid => by rw [hold id hid]⟩

theorem Frame.same (hmap : d'.keyMap = d.keyMap) (hpublic : d'.publicKey = d.publicKey)
    (hprivate : d'.privateKey = d.privateKey) (hallocated : d'.allocated = d.allocated)
    (hpeers : d'.peers = d.peers) (hroutes : d'.allowedips = d.allowedips) : Frame d d' :=
  ⟨⟨hmap, Nat.le_of_eq hallocated.symm, fun _ _ => by rw [hpeers], fun _ _ h => .inl (hroutes ▸ h)⟩,
    hpublic, hprivate, fun _ _ => by rw [hpeers]⟩

end

-- A relation that holds whatever bringing the device or a peer up or down does.
structure Harmless (R : Device E → Device E → Prop) : Prop where
  refl : ∀ d, R d d
  trans : ∀ {d d' d''}, R d d' → R d' d'' → R d d''
  bind : ∀ d port fwmark state, R d { d with port := port, fwmark := fwmark, state := state }
  flags : ∀ d id (running roaming : Peer E → Bool), R d (d.modifyPeer id fun peer =>
    { peer with isRunning := running peer, disableRoaming := roaming peer })

namespace Harmless

variable {R : Device E → Device E → Prop} (h : Harmless R) (d : Device E)
include h

theorem start (id : PeerId) : R d (d.start id) :=
  h.flags d id (fun _ => true) (·.disableRoaming)

theorem stop (id : PeerId) : R d (d.stop id) :=
  h.flags d id (fun _ => false) (·.disableRoaming)

theorem foldl {α : Type} {f : Device E → α → Device E} (hf : ∀ d a, R d (f d a)) (as : List α) :
    R d (as.foldl f d) := by
  induction as generalizing d with
  | nil => exact h.refl d
  | cons a as ih => exact h.trans (hf d a) (ih (f d a))

theorem stopAll (state : DeviceState) : R d { d with state := state }.stopAll :=
  h.trans (h.bind d _ _ state) (h.foldl _ (fun d (entry : Key × PeerId) => h.stop d entry.2) _)

theorem bindUpdate (a : Answers) : R d (d.bindUpdate a).1 := by
  unfold Device.bindUpdate
  split
  · exact h.refl d
  split
  · exact h.refl d
  split
  · exact h.bind d 0 _ _
  split
  · exact h.bind d 0 _ _
  · exact h.bind d _ _ _

theorem bindSetMark (a : Answers) (mark : UInt32) : R d (d.bindSetMark a mark).1 := by
  unfold Device.bindSetMark
  split
  · exact h.refl d
  · exact h.bind d _ mark _

theorem up (a : Answers) : R d (d.up a) := by
  have hup := h.trans (h.bind d d.port d.fwmark .up) (h.bindUpdate _ a)
  unfold Device.up
  split
  · exact h.refl d
  · exact h.refl d
  split
  · next heq =>
      rw [heq] at hup
      exact h.trans hup (h.foldl _ (fun d (entry : Key × PeerId) => h.start d entry.2) _)
  · next heq =>
      rw [heq] at hup
      exact h.trans hup (h.stopAll _ .down)

theorem down : R d d.down := by
  unfold Device.down
  split
  · exact h.refl d
  · exact h.refl d
  · exact h.stopAll d .down

theorem handlePostConfig (peer : Option IpcSetPeer) : R d (d.handlePostConfig peer) := by
  unfold Device.handlePostConfig
  split
  · exact h.refl d
  split
  · exact h.refl d
  next peer _ =>
  have hroaming := h.flags d peer.peer (·.isRunning) fun q => d.brokenRoaming && q.endpoint.isSome
  cases peer.created with
  | true =>
    simp only [if_true]
    split
    · exact h.trans hroaming (h.start _ peer.peer)
    · exact hroaming
  | false =>
    simp only [Bool.false_eq_true, if_false]
    split
    · exact h.start d peer.peer
    · exact h.refl d

end Harmless

theorem Frame.harmless : Harmless (Frame (E := E)) where
  refl := .refl
  trans := .trans
  bind _ _ _ _ := .same rfl rfl rfl rfl rfl rfl
  flags d id _ _ := .modifyPeer d id (fun _ => rfl) fun _ => rfl

section

variable {d d' d'' : Device E} {k : Key} {id : PeerId}

structure Shrinks (d d' : Device E) : Prop where
  keyMap : d'.keyMap.Sublist d.keyMap
  publicKey : d'.publicKey = d.publicKey
  privateKey : d'.privateKey = d.privateKey
  allocated : d'.allocated = d.allocated
  remoteStatic : ∀ id, (d'.peers id).remoteStatic = (d.peers id).remoteStatic
  precomputed : ∀ id, (d'.peers id).precomputedStaticStatic = (d.peers id).precomputedStaticStatic

theorem Shrinks.refl (d : Device E) : Shrinks d d :=
  ⟨.refl _, rfl, rfl, rfl, fun _ => rfl, fun _ => rfl⟩

theorem Shrinks.trans (h : Shrinks d d') (h' : Shrinks d' d'') : Shrinks d d'' where
  keyMap := h'.keyMap.trans h.keyMap
  publicKey := h'.publicKey.trans h.publicKey
  privateKey := h'.privateKey.trans h.privateKey
  allocated := h'.allocated.trans h.allocated
  remoteStatic id := (h'.remoteStatic id).trans (h.remoteStatic id)
  precomputed id := (h'.precomputed id).trans (h.precomputed id)

theorem removePeerLocked_shrinks (d : Device E) (id : PeerId) (k : Key) :
    Shrinks d (d.removePeerLocked id k) := by
  let change (peer : Peer E) : Peer E := { peer with isRunning := false }
  have hremote : ∀ peer, (change peer).remoteStatic = peer.remoteStatic := fun _ => rfl
  have hsecret : ∀ peer, (change peer).precomputedStaticStatic = _ := fun _ => rfl
  exact ⟨filter_sublist, rfl, rfl, rfl, modifyPeer_peers Peer.remoteStatic hremote d id,
    modifyPeer_peers Peer.precomputedStaticStatic hsecret d id⟩

theorem mem_removePeerLocked {e : Key × PeerId} :
    e ∈ (d.removePeerLocked id k).keyMap ↔ e ∈ d.keyMap ∧ e.1 ≠ k := by
  simp [removePeerLocked, stop, modifyPeer]

theorem Mapped.id_unique (hm : d.Mapped) {id' : PeerId} (h : (k, id) ∈ d.keyMap)
    (h' : (k, id') ∈ d.keyMap) : id = id' := by
  have heq := inj_on_of_nodup_map hm.keys h h' rfl
  exact congrArg Prod.snd heq

theorem Mapped.removePeerLocked (hm : d.Mapped) (hk : (k, id) ∈ d.keyMap) :
    (d.removePeerLocked id k).Mapped := by
  have hs := d.removePeerLocked_shrinks id k
  have hmem : ∀ {e}, e ∈ (d.removePeerLocked id k).keyMap → e ∈ d.keyMap := fun he =>
    (mem_removePeerLocked.mp he).1
  refine ⟨hm.keys.sublist (hs.keyMap.map _), hm.ids.sublist (hs.keyMap.map _), fun k' id' h => ?_,
    fun k' id' h => ?_, fun id' network hn => ?_, Nat.le_trans hs.keyMap.length_le hm.size⟩
  · exact hs.allocated ▸ hm.bound k' id' (hmem h)
  · exact (hs.remoteStatic id').trans (hm.remoteStatic k' id' (hmem h))
  · obtain ⟨hn, hne⟩ := Routing.Table.mem_removeByPeer.mp hn
    obtain ⟨k', hk'⟩ := hm.routed id' network hn
    refine ⟨k', mem_removePeerLocked.mpr ⟨hk', ?_⟩⟩
    rintro rfl
    exact hne (hm.id_unique hk' hk)

-- The loops that remove the peers whose key meets a condition.
def removeWhere (c : Key → Bool) (d : Device E) (entry : Key × PeerId) : Device E :=
  if c (d.peers entry.2).remoteStatic then d.removePeerLocked entry.2 entry.1 else d

theorem Mapped.removeEntries (hm : d.Mapped) (c : Key → Bool) {entries : List (Key × PeerId)}
    (hkeys : (entries.map Prod.fst).Nodup) (hmem : ∀ e ∈ entries, e ∈ d.keyMap) :
    (entries.foldl (removeWhere c) d).Mapped ∧ Shrinks d (entries.foldl (removeWhere c) d) ∧
      ∀ e ∈ entries, c e.1 = true → e ∉ (entries.foldl (removeWhere c) d).keyMap := by
  induction entries generalizing d with
  | nil => exact ⟨hm, .refl d, by simp⟩
  | cons entry entries ih =>
    rw [map_cons, nodup_cons] at hkeys
    rw [forall_mem_cons] at hmem
    have hremote : (d.peers entry.2).remoteStatic = entry.1 := hm.remoteStatic _ _ hmem.1
    rw [foldl_cons]
    by_cases hc : c (d.peers entry.2).remoteStatic = true
    · rw [removeWhere, if_pos hc]
      have hrest : ∀ e ∈ entries, e ∈ (d.removePeerLocked entry.2 entry.1).keyMap := fun e he =>
        mem_removePeerLocked.mpr ⟨hmem.2 e he, fun heq =>
          hkeys.1 (heq ▸ mem_map_of_mem he)⟩
      obtain ⟨hm', hs, hgone⟩ := ih (hm.removePeerLocked hmem.1) hkeys.2 hrest
      refine ⟨hm', (d.removePeerLocked_shrinks _ _).trans hs, ?_⟩
      rw [forall_mem_cons]
      refine ⟨fun _ he => ?_, hgone⟩
      exact (mem_removePeerLocked.mp (hs.keyMap.subset he)).2 rfl
    · rw [removeWhere, if_neg hc]
      obtain ⟨hm', hs, hgone⟩ := ih hm hkeys.2 hmem.2
      refine ⟨hm', hs, ?_⟩
      rw [forall_mem_cons]
      exact ⟨fun hc' => absurd (hremote ▸ hc') hc, hgone⟩

theorem Mapped.removeRange (hm : d.Mapped) (c : Key → Bool) (range : Ranging) :
    ((range.visit d.keyMap).foldl (removeWhere c) d).Mapped ∧
      Shrinks d ((range.visit d.keyMap).foldl (removeWhere c) d) ∧
      ∀ e ∈ ((range.visit d.keyMap).foldl (removeWhere c) d).keyMap, c e.1 = false := by
  have hperm := range.perm d.keyMap
  obtain ⟨hm', hs, hgone⟩ := hm.removeEntries c ((hperm.map _).nodup_iff.mpr hm.keys)
    fun e he => hperm.mem_iff.mp he
  refine ⟨hm', hs, fun e he => ?_⟩
  cases hc : c e.1 with
  | false => rfl
  | true => exact absurd he (hgone e (hperm.mem_iff.mpr (hs.keyMap.subset he)) hc)

end

section

structure Sound (p : Platform E) (d : Device E) : Prop extends Mapped d where
  notOwn : ∀ k id, (k, id) ∈ d.keyMap → k ≠ d.publicKey
  precomputed : ∀ k id, (k, id) ∈ d.keyMap →
    (d.peers id).precomputedStaticStatic = (p.sharedSecret d.privateKey k).1

variable {p : Platform E} {d d' : Device E}

theorem Sound.frame (hs : d.Sound p) (h : Frame d d') : d'.Sound p where
  toMapped := hs.toMapped.same h.toSameMap
  notOwn k id hk := by
    rw [h.keyMap] at hk
    rw [h.publicKey]
    exact hs.notOwn k id hk
  precomputed k id hk := by
    rw [h.keyMap] at hk
    rw [h.privateKey, h.precomputed id (hs.bound k id hk)]
    exact hs.precomputed k id hk

theorem Sound.shrinks (hs : d.Sound p) (hm : d'.Mapped) (h : Shrinks d d') : d'.Sound p where
  toMapped := hm
  notOwn k id hk := by
    rw [h.publicKey]
    exact hs.notOwn k id (h.keyMap.subset hk)
  precomputed k id hk := by
    rw [h.privateKey, h.precomputed id]
    exact hs.precomputed k id (h.keyMap.subset hk)

theorem mem_of_lookupPeer {k : Key} {id : PeerId} (h : d.lookupPeer k = some id) :
    (k, id) ∈ d.keyMap := by
  obtain ⟨before, after, heq, -⟩ := lookup_eq_some_iff.mp h
  rw [heq]
  simp

theorem Sound.removePeer (hs : d.Sound p) (k : Key) :
    (d.removePeer k).Sound p ∧ Shrinks d (d.removePeer k) := by
  unfold Device.removePeer
  split
  · next id hk =>
      have hsh := d.removePeerLocked_shrinks id k
      exact ⟨hs.shrinks (hs.removePeerLocked (mem_of_lookupPeer hk)) hsh, hsh⟩
  · exact ⟨hs, .refl d⟩

theorem Sound.removeAllPeers (hs : d.Sound p) (range : Ranging) : (d.removeAllPeers range).Sound p := by
  obtain ⟨hm, hsh, hnone⟩ := hs.removeRange (fun _ => true) range
  have hempty : ((range.visit d.keyMap).foldl (removeWhere fun _ => true) d).keyMap = [] :=
    eq_nil_iff_forall_not_mem.mpr fun e he => by simpa using hnone e he
  change { (range.visit d.keyMap).foldl (removeWhere fun _ => true) d with keyMap := [] }.Sound p
  rw [← hempty]
  exact hs.shrinks hm hsh

theorem Sound.newPeer (hs : d.Sound p) {pk : Key} {id : PeerId} (hown : d.publicKey ≠ pk)
    (h : d.newPeer p pk = .ok (d', id)) : d'.Sound p ∧ (pk, id) ∈ d'.keyMap ∧ id < d'.allocated := by
  unfold Device.newPeer at h
  split at h
  · cases h
  split at h
  · cases h
  next hsize =>
  split at h
  · cases h
  next hnew =>
  cases h
  have hfresh : ∀ id', (pk, id') ∉ d.keyMap := by
    intro id' hmem
    apply hnew
    rw [lookupPeer, lookup_isSome_iff]
    exact ⟨_, hmem, beq_self_eq_true pk⟩
  have hold : ∀ id < d.allocated, ∀ peer : Peer E,
      update d.peers d.allocated peer id = d.peers id := fun id hid peer =>
    update_of_ne (Nat.ne_of_lt hid) ..
  -- an entry is an old one or the new one
  have hcases : ∀ {k id'}, (k, id') ∈ d.keyMap ++ [(pk, d.allocated)] →
      (k, id') ∈ d.keyMap ∧ id' < d.allocated ∨ k = pk ∧ id' = d.allocated := by
    intro k id' hmem
    rcases mem_append.mp hmem with hmem | hmem
    · exact .inl ⟨hmem, hs.bound k id' hmem⟩
    · simpa using Or.inr (mem_singleton.mp hmem)
  refine ⟨⟨⟨?_, ?_, fun k id' hk => ?_, fun k id' hk => ?_, fun id' network hn => ?_, ?_⟩,
    fun k id' hk => ?_, fun k id' hk => ?_⟩, by simp, by simp [allocate]⟩
  · rw [map_append, nodup_append]
    refine ⟨hs.keys, by simp, fun a ha b hb => ?_⟩
    obtain ⟨⟨k, id'⟩, hmem, rfl⟩ := mem_map.mp ha
    rintro rfl
    obtain rfl : k = pk := by simpa using hb
    exact hfresh id' hmem
  · rw [map_append, nodup_append]
    refine ⟨hs.ids, by simp, fun a ha b hb => ?_⟩
    obtain ⟨⟨k, id'⟩, hmem, rfl⟩ := mem_map.mp ha
    rintro rfl
    rw [map_singleton, mem_singleton] at hb
    exact absurd (hs.bound k _ hmem) (Nat.not_lt.mpr (Nat.le_of_eq hb.symm))
  · rcases hcases hk with ⟨-, hid⟩ | ⟨-, rfl⟩
    · exact Nat.lt_succ_of_lt hid
    · exact Nat.lt_succ_self _
  · rcases hcases hk with ⟨hk, hid⟩ | ⟨rfl, rfl⟩
    · simp only [allocate, hold id' hid]
      exact hs.remoteStatic k id' hk
    · simp [allocate]
  · obtain ⟨k, hk⟩ := hs.routed id' network hn
    exact ⟨k, mem_append_left _ hk⟩
  · rw [length_append]
    simp only [length_singleton]
    omega
  · rcases hcases hk with ⟨hk, -⟩ | ⟨rfl, -⟩
    · exact hs.notOwn k id' hk
    · exact hown.symm
  · rcases hcases hk with ⟨hk, hid⟩ | ⟨rfl, rfl⟩
    · simp only [allocate, hold id' hid]
      exact hs.precomputed k id' hk
    · simp [allocate]

end

section

variable {p : Platform E} {d : Device E} {sk : Key}

def refresh (p : Platform E) (sk : Key) (d : Device E) (entry : Key × PeerId) : Device E :=
  d.modifyPeer entry.2 fun peer =>
    { peer with precomputedStaticStatic := (p.sharedSecret sk peer.remoteStatic).1 }

def Fresh (p : Platform E) (sk : Key) (d : Device E) (id : PeerId) : Prop :=
  (d.peers id).precomputedStaticStatic = (p.sharedSecret sk (d.peers id).remoteStatic).1

structure Refreshed (p : Platform E) (sk : Key) (entries : List (Key × PeerId)) (d d' : Device E) :
    Prop extends SameMap d d' where
  publicKey : d'.publicKey = d.publicKey
  privateKey : d'.privateKey = d.privateKey
  fresh : ∀ id, Fresh p sk d id ∨ id ∈ entries.map Prod.snd → Fresh p sk d' id

theorem refresh_refreshed (p : Platform E) (sk : Key) (d : Device E) (entry : Key × PeerId) :
    Refreshed p sk [entry] d (refresh p sk d entry) := by
  have hself : (refresh p sk d entry).peers entry.2 = { d.peers entry.2 with
      precomputedStaticStatic := (p.sharedSecret sk (d.peers entry.2).remoteStatic).1 } :=
    update_self ..
  have hother : ∀ id, id ≠ entry.2 → (refresh p sk d entry).peers id = d.peers id := fun id h =>
    update_of_ne h ..
  refine ⟨.modifyPeer d entry.2 fun _ => rfl, rfl, rfl, fun id h => ?_⟩
  by_cases hid : id = entry.2
  · rw [hid, Fresh, hself]
  · rw [Fresh, hother id hid]
    exact h.resolve_right (by simpa using hid)

theorem refresh_foldl (p : Platform E) (sk : Key) (entries : List (Key × PeerId)) (d : Device E) :
    Refreshed p sk entries d (entries.foldl (refresh p sk) d) := by
  induction entries generalizing d with
  | nil => exact ⟨.refl d, rfl, rfl, fun _ h => h.resolve_right (by simp)⟩
  | cons entry entries ih =>
    have h1 := refresh_refreshed p sk d entry
    have h2 := ih (refresh p sk d entry)
    refine ⟨h1.toSameMap.trans h2.toSameMap, h2.publicKey.trans h1.publicKey,
      h2.privateKey.trans h1.privateKey, fun id h => h2.fresh id ?_⟩
    rw [map_cons, mem_cons] at h
    rcases h with h | h | h
    · exact .inl (h1.fresh id (.inl h))
    · exact .inl (h1.fresh id (.inr (by simpa using h)))
    · exact .inr h

theorem setPrivateKey_eq (d : Device E) (range : Ranging) (h : sk ≠ d.privateKey) :
    d.setPrivateKey p range sk =
      (range.visit { (range.visit d.keyMap).foldl (removeWhere fun k => decide (k = p.publicKey sk)) d
        with privateKey := sk, publicKey := p.publicKey sk }.keyMap).foldl (refresh p sk)
      { (range.visit d.keyMap).foldl (removeWhere fun k => decide (k = p.publicKey sk)) d with
        privateKey := sk, publicKey := p.publicKey sk } := by
  have hwhere : (removeWhere (E := E) fun k => decide (k = p.publicKey sk)) = fun d entry =>
      if (d.peers entry.2).remoteStatic = p.publicKey sk then d.removePeerLocked entry.2 entry.1
      else d := by
    funext d entry
    simp only [removeWhere, decide_eq_true_eq]
  rw [hwhere]
  exact if_neg h

theorem Sound.setPrivateKey (hs : d.Sound p) (range : Ranging) (sk : Key) :
    (d.setPrivateKey p range sk).Sound p := by
  by_cases hsk : sk = d.privateKey
  · rw [Device.setPrivateKey, if_pos hsk]
    exact hs
  rw [setPrivateKey_eq d range hsk]
  obtain ⟨hm, -, hother⟩ := hs.toMapped.removeRange (fun k => decide (k = p.publicKey sk)) range
  generalize (range.visit d.keyMap).foldl _ d = removed at hm hother ⊢
  have hr := refresh_foldl p sk (range.visit removed.keyMap)
    { removed with privateKey := sk, publicKey := p.publicKey sk }
  generalize (range.visit _).foldl _ _ = d' at hr ⊢
  have hm' := Mapped.same (d := { removed with privateKey := sk, publicKey := p.publicKey sk })
    { hm with } hr.toSameMap
  refine ⟨hm', fun k id hk => ?_, fun k id hk => ?_⟩
  · rw [hr.keyMap] at hk
    rw [hr.publicKey]
    exact of_decide_eq_false (hother (k, id) hk)
  · rw [hr.keyMap] at hk
    have hfresh : Fresh p sk d' id := hr.fresh id (.inr
      (mem_map.mpr ⟨(k, id), (range.perm removed.keyMap).mem_iff.mpr hk, rfl⟩))
    rw [hfresh, hm'.remoteStatic k id (hr.keyMap ▸ hk), hr.privateKey]

end

section

variable {p : Platform E} {d : Device E}

theorem Frame.storeIPacket (d : Device E) (staged : IpcSetDevice) (value : List Char)
    (context : String) (store : Option StarlingWg.Device.ObfChain → IPackets) :
    Frame d (d.storeIPacket p staged value context store).1.1 := by
  unfold Device.storeIPacket
  split
  · exact .refl d
  · exact .same rfl rfl rfl rfl rfl rfl

theorem Sound.handleDeviceLine (hs : d.Sound p) (staged : IpcSetDevice) (key : String)
    (value : List Char) (a : Answers) : (d.handleDeviceLine p staged key value a).1.1.Sound p := by
  unfold Device.handleDeviceLine
  split
  · split
    · exact hs
    · exact hs.setPrivateKey a.range _
  · split
    · exact hs
    · next port _ =>
        have hport : Frame d { d with port := .ofNat port } := .same rfl rfl rfl rfl rfl rfl
        exact hs.frame (hport.trans (Frame.harmless.bindUpdate _ a))
  · split
    · exact hs
    · exact hs.frame (Frame.harmless.bindSetMark d a _)
  · split
    · exact hs
    · exact hs.removeAllPeers a.range
  iterate 5 exact hs.frame (.storeIPacket d staged value _ _)
  · split
    · exact hs
    · exact hs.frame (.same rfl rfl rfl rfl rfl rfl)

-- The lines of a peer that is not a dummy configure one of the map.
structure Holds (d : Device E) (peer : IpcSetPeer) : Prop where
  bound : peer.peer < d.allocated
  mapped : peer.dummy = false → ∃ k, (k, peer.peer) ∈ d.keyMap

theorem Holds.frame {d' : Device E} {peer : IpcSetPeer} (h : d.Holds peer) (hf : Frame d d') :
    d'.Holds peer :=
  ⟨Nat.lt_of_lt_of_le h.bound hf.allocated, fun hd => hf.keyMap ▸ h.mapped hd⟩

theorem Sound.handlePublicKeyLine (hs : d.Sound p) (last : Option IpcSetPeer) (value : List Char) :
    (d.handlePublicKeyLine p last value).1.Sound p ∧
      ∀ peer, (d.handlePublicKeyLine p last value).2 = .ok peer →
        (d.handlePublicKeyLine p last value).1.Holds peer := by
  unfold Device.handlePublicKeyLine
  split
  · exact ⟨hs, fun _ h => by cases h⟩
  split
  · refine ⟨hs.frame (.allocate d {}), ?_⟩
    rintro _ ⟨⟩
    exact ⟨Nat.lt_succ_self _, fun h => by cases h⟩
  next hown =>
  split
  · next id hid =>
      refine ⟨hs, ?_⟩
      rintro _ ⟨⟩
      have hmem := mem_of_lookupPeer hid
      exact ⟨hs.bound _ _ hmem, fun _ => ⟨_, hmem⟩⟩
  split
  · exact ⟨hs, fun _ h => by cases h⟩
  · next hnew =>
      obtain ⟨hs', hmem, hbound⟩ := hs.newPeer hown hnew
      refine ⟨hs', ?_⟩
      rintro _ ⟨⟩
      exact ⟨hbound, fun _ => ⟨_, hmem⟩⟩

theorem Sound.discard (hs : d.Sound p) (peer : IpcSetPeer) :
    (d.discard peer).1.Sound p ∧ (d.discard peer).1.Holds (d.discard peer).2 :=
  ⟨hs.frame (.allocate d {}), Nat.lt_succ_self _, fun h => by cases h⟩

theorem Frame.reroute {peer : IpcSetPeer} (hh : d.Holds peer) (hd : peer.dummy = false)
    {table : Routing.Table PeerId} (htable : ∀ id network, network ∈ table.entriesForPeer id →
      network ∈ d.allowedips.entriesForPeer id ∨ id = peer.peer) :
    Frame d { d with allowedips := table } := by
  refine { Frame.refl d with routed := fun id network hn => ?_ }
  rcases htable id network hn with hn | rfl
  · exact .inl hn
  · exact .inr (hh.mapped hd)

theorem Sound.handlePeerLine (hs : d.Sound p) {peer : IpcSetPeer} (hh : d.Holds peer) (key : String)
    (value : List Char) :
    (d.handlePeerLine p peer key value).1.1.Sound p ∧
      (d.handlePeerLine p peer key value).1.1.Holds (d.handlePeerLine p peer key value).1.2 := by
  have hsame : d.Sound p ∧ d.Holds peer := ⟨hs, hh⟩
  have hframe : ∀ {d' : Device E}, Frame d d' → d'.Sound p ∧ d'.Holds peer := fun hf =>
    ⟨hs.frame hf, hh.frame hf⟩
  unfold Device.handlePeerLine
  split
  · split
    · exact hsame
    split
    · exact (hs.removePeer _).1.discard peer
    · exact hsame
  · split
    · exact hsame
    split
    · exact hs.discard peer
    · exact (hs.removePeer _).1.discard peer
  · split
    · exact hsame
    · dsimp only
      exact hframe (.modifyPeer d _ (fun _ => rfl) fun _ => rfl)
  · split
    · exact hsame
    · dsimp only
      exact hframe (.modifyPeer d _ (fun _ => rfl) fun _ => rfl)
  · split
    · exact hsame
    · next rang _ =>
        have hf : Frame d (d.modifyPeer peer.peer fun q =>
            { q with persistentKeepaliveInterval := rang }) :=
          .modifyPeer d _ (fun _ => rfl) fun _ => rfl
        exact ⟨hs.frame hf, (hh.frame hf).bound, (hh.frame hf).mapped⟩
  · split
    · exact hsame
    split
    · exact hsame
    next hd =>
    exact hframe (.reroute hh (by simpa using hd) fun id network hn =>
      .inl (Routing.Table.mem_removeByPeer.mp hn).1)
  · dsimp only
    split
    · exact hsame
    split
    · exact hsame
    next hd =>
    split
    · exact hframe (.reroute hh (by simpa using hd) fun id network hn =>
        .inl (Routing.Table.mem_remove.mp hn).1)
    · refine hframe (.reroute hh (by simpa using hd) fun id network hn => ?_)
      rcases Routing.Table.mem_insert.mp hn with ⟨-, hid⟩ | ⟨-, hn⟩
      · exact .inr hid
      · exact .inl hn
  · split
    · exact hsame
    · exact hsame
  · exact hsame

end

section

variable {p : Platform E} {d : Device E}

theorem Sound.finish (hs : d.Sound p) (staged : IpcSetDevice) (peer : Option IpcSetPeer)
    (readError : Bool) : (d.finish staged peer readError).1.Sound p := by
  unfold Device.finish
  split
  · exact hs.frame (.same rfl rfl rfl rfl rfl rfl)
  · next settings _ _ =>
      have hmerged : Frame d { d with settings := settings } := .same rfl rfl rfl rfl rfl rfl
      exact hs.frame (hmerged.trans (Frame.harmless.handlePostConfig _ peer))

-- What every line keeps, the lines of an operation keep.
theorem ipcSetLines_holds {I : Device E → IpcSetDevice → Option IpcSetPeer → Prop} {Q : Device E → Prop}
    {staged : IpcSetDevice} {peer : Option IpcSetPeer} {lines : List Line} {readError : Bool}
    (hstep : ∀ d staged peer, ∀ line ∈ lines, I d staged peer → (d.lineStep p staged peer line).elim
      (fun next => I next.1 next.2.1 next.2.2) fun result => Q result.1)
    (hfinish : ∀ d staged peer, I d staged peer → Q (d.finish staged peer readError).1)
    (h : I d staged peer) : Q (ipcSetLines p readError d staged peer lines).1 := by
  induction lines generalizing d staged peer with
  | nil => exact hfinish d staged peer h
  | cons line lines ih =>
    have hline := hstep d staged peer line mem_cons_self h
    rw [ipcSetLines]
    generalize d.lineStep p staged peer line = result at hline ⊢
    cases result with
    | inr result => exact hline
    | inl next => exact ih (fun d staged peer l hl => hstep d staged peer l (mem_cons_of_mem _ hl)) hline

theorem lineStep_error {staged : IpcSetDevice} {peer : Option IpcSetPeer} {line : Line}
    (hline : line.text ≠ []) {result : Device E × Option Device.IpcError}
    (h : d.lineStep p staged peer line = .inr result) : result.2 ≠ none := by
  unfold Device.lineStep at h
  rw [if_neg hline] at h
  repeat' split at h
  all_goals cases h
  all_goals exact Option.some_ne_none _

theorem Sound.lineStep (hs : d.Sound p) (staged : IpcSetDevice) {peer : Option IpcSetPeer}
    (hh : ∀ q, peer = some q → d.Holds q) (line : Line) : (d.lineStep p staged peer line).elim
      (fun next => next.1.Sound p ∧ ∀ q, next.2.2 = some q → next.1.Holds q)
      fun result => result.1.Sound p := by
  unfold Device.lineStep
  split
  · exact hs.finish staged peer false
  split
  · exact hs
  next key value _ =>
  split
  · have hline := (hs.frame (Frame.harmless.handlePostConfig d peer)).handlePublicKeyLine peer value
    generalize (d.handlePostConfig peer).handlePublicKeyLine p peer value = result at hline ⊢
    obtain ⟨d', err | next⟩ := result
    · exact hline.1
    · exact ⟨hline.1, fun q hq => hline.2 q (congrArg _ (Option.some.inj hq))⟩
  split
  · have hline := hs.handleDeviceLine staged (String.ofList key) value line.answers
    generalize d.handleDeviceLine p staged _ value line.answers = result at hline ⊢
    obtain ⟨⟨d', staged'⟩, _ | err⟩ := result
    · exact ⟨hline, nofun⟩
    · exact hline
  · next peer =>
    have hline := hs.handlePeerLine (hh peer rfl) (String.ofList key) value
    generalize d.handlePeerLine p peer _ value = result at hline ⊢
    obtain ⟨⟨d', next⟩, _ | err⟩ := result
    · exact ⟨hline.1, fun q hq => Option.some.inj hq ▸ hline.2⟩
    · exact hline.1

theorem Sound.ipcSetOperation (hs : d.Sound p) (input : Input) : (d.ipcSetOperation p input).1.Sound p :=
  ipcSetLines_holds (I := fun d _ peer => d.Sound p ∧ ∀ q, peer = some q → d.Holds q)
    (fun _ staged _ line _ h => h.1.lineStep staged h.2 line)
    (fun _ staged peer h => h.1.finish staged peer input.readError) ⟨hs, nofun⟩

theorem Sound.call (hs : d.Sound p) (c : Call) : (d.call p c).Sound p := by
  cases c with
  | ipcSet input => exact hs.ipcSetOperation input
  | removePeer key => exact (hs.removePeer key).1
  | removeAllPeers range => exact hs.removeAllPeers range
  | up a => exact hs.frame (Frame.harmless.up d a)
  | down => exact hs.frame (Frame.harmless.down d)
  | close range =>
    have hclosed := (hs.frame (Frame.harmless.stopAll d .closed)).removeAllPeers range
    simp only [Device.call, Device.close]
    split
    · exact hs
    · exact hclosed
    · exact hclosed

theorem newDevice_sound : (newDevice E).Sound p :=
  ⟨⟨.nil, .nil, by simp [newDevice], by simp [newDevice],
    fun _ _ hn => absurd hn Routing.Table.mem_empty, by simp [newDevice]⟩, by simp [newDevice],
    by simp [newDevice]⟩

theorem run_sound (calls : List Call) : (run p calls).Sound p := by
  have hfrom : ∀ d : Device E, d.Sound p → (calls.foldl (Device.call p) d).Sound p := by
    induction calls with
    | nil => exact fun d hs => hs
    | cons c calls ih => exact fun d hs => ih (d.call p c) (hs.call c)
  exact hfrom _ newDevice_sound

end

section

-- Every entry of the map is a peer with that key, other than the device
-- itself, and with the secret of the two; the tries know no other peers.
structure PeerMap (p : Platform E) (d : Device E) : Prop where
  keys : (d.keyMap.map Prod.fst).Nodup
  remoteStatic : ∀ k id, d.lookupPeer k = some id → (d.peers id).remoteStatic = k
  notOwn : ∀ k id, d.lookupPeer k = some id → k ≠ d.publicKey
  precomputed : ∀ k id, d.lookupPeer k = some id →
    (d.peers id).precomputedStaticStatic = (p.sharedSecret d.privateKey k).1 ∧
      ((p.sharedSecret d.privateKey k).2.isSome → (d.peers id).precomputedStaticStatic = 0)
  stored : ∀ f n id, (d.allowedips.allowed.heap f).links.Under .root n →
    ((d.allowedips.allowed.heap f).nodes n).peer = some id → ∃ k, d.lookupPeer k = some id
  size : d.keyMap.length ≤ maxPeers

variable {p : Platform E} {d : Device E}

theorem Mapped.lookupPeer (hm : d.Mapped) {k : Key} {id : PeerId} (h : (k, id) ∈ d.keyMap) :
    d.lookupPeer k = some id := by
  cases hl : d.lookupPeer k with
  | none =>
    rw [Device.lookupPeer, lookup_eq_none_iff] at hl
    exact absurd (hl _ h) (by simp)
  | some id' => rw [hm.id_unique h (mem_of_lookupPeer hl)]

theorem sharedSecret_rejected {sk pk : Key} (h : (p.sharedSecret sk pk).2.isSome) :
    (p.sharedSecret sk pk).1 = 0 := by
  by_cases hzero : p.scalarMult sk pk = 0
  · exact hzero
  · have hnone : (p.sharedSecret sk pk).2 = none := if_neg hzero
    rw [hnone] at h
    cases h

-- Failed operations included.
theorem peers_consistent (p : Platform E) (calls : List Call) : (run p calls).PeerMap p := by
  have hs := run_sound (p := p) calls
  refine ⟨hs.keys, fun k id hk => ?_, fun k id hk => ?_, fun k id hk => ?_, fun f n id hn hpeer => ?_,
    hs.size⟩
  · exact hs.remoteStatic k id (mem_of_lookupPeer hk)
  · exact hs.notOwn k id (mem_of_lookupPeer hk)
  · have hsecret := hs.precomputed k id (mem_of_lookupPeer hk)
    exact ⟨hsecret, fun hrejected => hsecret.trans (sharedSecret_rejected hrejected)⟩
  · obtain ⟨k, hk⟩ := hs.routed id _ (Routing.Table.mem_of_node hn hpeer)
    exact ⟨k, hs.toMapped.lookupPeer hk⟩

end

end Device

end StarlingWg.Uapi
