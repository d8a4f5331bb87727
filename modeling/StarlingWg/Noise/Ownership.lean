import StarlingWg.Noise.Rotation
import Mathlib.Data.Set.Insert

namespace StarlingWg.Noise

open Option
open Function (update_of_ne update_self)

variable {B ι : Type}

namespace IndexTable

-- The entries that a peer should have: one for the index of its handshake,
-- one for each keypair it holds. Index 0 stands for none.
def Entitled (peer : ι) (index : Index) (held : Set (Keypair B)) (i : Index)
    (entry : IndexTableEntry B ι) : Prop :=
  i ≠ 0 ∧ (index = i ∧ entry = ⟨peer, some peer, none⟩ ∨
    ∃ k ∈ held, k.localIndex = i ∧ entry = ⟨peer, none, some k⟩)

structure Tracks (base table : IndexTable B ι) (peer : ι) (index : Index)
    (held : Set (Keypair B)) : Prop where
  zero : table 0 = none
  own : ∀ i entry, entry.peer = peer → (table i = some entry ↔ Entitled peer index held i entry)
  others : ∀ i entry, entry.peer ≠ peer → (table i = some entry ↔ base i = some entry)

namespace Tracks

variable {base table : IndexTable B ι} {peer : ι} {index x : Index} {held held' : Set (Keypair B)}
  {k : Keypair B}

theorem congr (h : Tracks base table peer index held) (hheld : ∀ k, k ∈ held' ↔ k ∈ held) :
    Tracks base table peer index held' := by
  rwa [Set.ext hheld]

theorem handshake_entry (h : Tracks base table peer index held) (hi : index ≠ 0) :
    table index = some ⟨peer, some peer, none⟩ :=
  (h.own index _ rfl).mpr ⟨hi, .inl ⟨rfl, rfl⟩⟩

theorem keypair_entry (h : Tracks base table peer index held) (hk : k ∈ held)
    (hi : k.localIndex ≠ 0) : table k.localIndex = some ⟨peer, none, some k⟩ :=
  (h.own k.localIndex _ rfl).mpr ⟨hi, .inr ⟨k, hk, rfl, rfl⟩⟩

theorem update (h : Tracks base table peer index held) {new : Index}
    {slot : Option (IndexTableEntry B ι)} (hslot : ∀ entry, slot = some entry → entry.peer = peer)
    (hx : ∀ entry, table x = some entry → entry.peer = peer) (hzero : x = 0 → slot = none)
    (hself : ∀ entry, slot = some entry ↔ Entitled peer new held' x entry)
    (hother : ∀ i entry, i ≠ x →
      (Entitled peer index held i entry ↔ Entitled peer new held' i entry)) :
    Tracks base (Function.update table x slot) peer new held' where
  zero := by
    by_cases hz : (0 : Index) = x
    · rw [hz, update_self, hzero hz.symm]
    · rw [update_of_ne hz, h.zero]
  own i entry hentry := by
    by_cases hi : i = x
    · rw [hi, update_self, hself]
    · rw [update_of_ne hi, h.own i entry hentry, hother i entry hi]
  others i entry hentry := by
    rw [← h.others i entry hentry]
    by_cases hi : i = x
    · subst hi
      rw [update_self]
      exact iff_of_false (fun he => hentry (hslot entry he)) fun he => hentry (hx entry he)
    · rw [update_of_ne hi]

theorem delete (h : Tracks base table peer index held) {new : Index}
    (hx : x ≠ 0 → ∃ entry, entry.peer = peer ∧ table x = some entry)
    (hnew : ∀ i entry, Entitled peer new held' i entry ↔
      i ≠ x ∧ Entitled peer index held i entry) :
    Tracks base (table.delete x) peer new held' := by
  refine h.update (fun _ he => by simp at he) (fun entry he => ?_) (fun _ => rfl)
    (fun entry => by simp [hnew]) fun i entry hi => by simp [hnew, hi]
  by_cases hz : x = 0
  · rw [hz, h.zero] at he
    simp at he
  · obtain ⟨entry', hpeer, hentry'⟩ := hx hz
    rwa [← Option.some.inj (hentry'.symm.trans he)]

theorem delete_handshake (h : Tracks base table peer index held) :
    Tracks base (table.delete index) peer 0 held := by
  refine h.delete (fun hi => ⟨_, rfl, h.handshake_entry hi⟩) fun i entry => ?_
  constructor
  · rintro ⟨hi, ⟨rfl, -⟩ | ⟨k, hk, rfl, rfl⟩⟩
    · exact absurd rfl hi
    · refine ⟨fun he => ?_, hi, .inr ⟨k, hk, rfl, rfl⟩⟩
      have hboth := (h.keypair_entry hk hi).symm.trans (he ▸ h.handshake_entry (he ▸ hi))
      simp at hboth
  · rintro ⟨hne, hi, ⟨rfl, -⟩ | hkeypair⟩
    · exact absurd rfl hne
    · exact ⟨hi, .inr hkeypair⟩

theorem delete_keypair (h : Tracks base table peer index held) (hk : k ∈ held) :
    Tracks base (table.delete k.localIndex) peer index (held \ {k}) := by
  refine h.delete (fun hi => ⟨_, rfl, h.keypair_entry hk hi⟩) fun i entry => ?_
  constructor
  · rintro ⟨hi, ⟨rfl, rfl⟩ | ⟨k', ⟨hk', hne⟩, rfl, rfl⟩⟩
    · refine ⟨fun he => ?_, hi, .inl ⟨rfl, rfl⟩⟩
      have hboth := (h.handshake_entry hi).symm.trans (he ▸ h.keypair_entry hk (he ▸ hi))
      simp at hboth
    · refine ⟨fun he => hne ?_, hi, .inr ⟨k', hk', rfl, rfl⟩⟩
      have hboth := (h.keypair_entry hk' hi).symm.trans (he ▸ h.keypair_entry hk (he ▸ hi))
      simpa using hboth
  · rintro ⟨hne, hi, hhandshake | ⟨k', hk', rfl, rfl⟩⟩
    · exact ⟨hi, .inl hhandshake⟩
    · refine ⟨hi, .inr ⟨k', ⟨hk', fun he => hne ?_⟩, rfl, rfl⟩⟩
      rw [Set.mem_singleton_iff.mp he]

theorem deleteKeypair (h : Tracks base table peer index held) (old : Option (Keypair B))
    (hold : ∀ k, old = some k → k ∈ held) :
    Tracks base (table.deleteKeypair old) peer index {k | k ∈ held ∧ old ≠ some k} := by
  cases old with
  | none => exact h.congr fun k => by simp
  | some k =>
    refine (h.delete_keypair (hold k rfl)).congr fun k' => ?_
    simp [eq_comm]

theorem insertHandshake (h : Tracks base table peer 0 held) (hx : x ≠ 0) (hfree : table x = none) :
    Tracks base (table.insertHandshake x peer) peer x held := by
  refine h.update (fun entry he => ?_) (fun entry he => ?_) (fun hz => absurd hz hx)
    (fun entry => ?_) fun i entry hi => ?_
  · rw [← Option.some.inj he]
  · rw [hfree] at he
    simp at he
  · rw [Option.some.injEq]
    constructor
    · rintro rfl
      exact ⟨hx, .inl ⟨rfl, rfl⟩⟩
    · rintro ⟨-, ⟨-, rfl⟩ | ⟨k, hk, rfl, rfl⟩⟩
      · rfl
      · rw [h.keypair_entry hk hx] at hfree
        simp at hfree
  · refine and_congr_right fun hz => ?_
    rw [or_iff_right fun he => hz he.1.symm, or_iff_right fun he => hi he.1.symm]

theorem swapIndexForKeypair (h : Tracks base table peer index held) (hk : k.localIndex = index) :
    Tracks base (table.swapIndexForKeypair index k) peer 0 (insert k held) := by
  by_cases hz : index = 0
  · subst hz
    have hsame : table.swapIndexForKeypair 0 k = table := by
      simp only [IndexTable.swapIndexForKeypair, h.zero]
    rw [hsame]
    refine { h with own := fun i entry hentry => ?_ }
    rw [h.own i entry hentry]
    refine and_congr_right fun hi => or_congr_right ?_
    constructor
    · rintro ⟨k', hk', hrest⟩
      exact ⟨k', .inr hk', hrest⟩
    · rintro ⟨k', rfl | hk', hi', hentry'⟩
      · exact absurd (hi'.symm.trans hk) hi
      · exact ⟨k', hk', hi', hentry'⟩
  · have hswap : table.swapIndexForKeypair index k =
        Function.update table index (some ⟨peer, none, some k⟩) := by
      simp only [IndexTable.swapIndexForKeypair, h.handshake_entry hz]
    rw [hswap]
    refine h.update (fun entry he => ?_) (fun entry he => ?_) (fun he => absurd he hz)
      (fun entry => ?_) fun i entry hi => ?_
    · rw [← Option.some.inj he]
    · rw [h.handshake_entry hz] at he
      rw [← Option.some.inj he]
    · rw [Option.some.injEq]
      constructor
      · rintro rfl
        exact ⟨hz, .inr ⟨k, .inl rfl, hk, rfl⟩⟩
      · rintro ⟨-, ⟨he, -⟩ | ⟨k', rfl | hk', hi', rfl⟩⟩
        · exact absurd he.symm hz
        · rfl
        · have hboth := (h.handshake_entry hz).symm.trans
            (hi' ▸ h.keypair_entry hk' (hi'.symm ▸ hz))
          simp at hboth
    · refine and_congr_right fun hzi => ?_
      rw [or_iff_right fun he => hi he.1.symm, or_iff_right fun he => hzi he.1.symm]
      simp [hk, Ne.symm hi]

end Tracks

end IndexTable

section

variable {base table : IndexTable B ι} {peer : ι} {keypairs : Keypairs B} {k : Keypair B}

def Keypairs.held (keypairs : Keypairs B) : Set (Keypair B) :=
  {k | ∃ s, keypairs.get s = some k}

theorem Keypairs.mem_held : k ∈ keypairs.held ↔
    keypairs.previous = some k ∨ keypairs.current = some k ∨ keypairs.next = some k := by
  constructor
  · rintro ⟨s, hs⟩
    cases s with
    | previous => exact .inl hs
    | current => exact .inr (.inl hs)
    | next => exact .inr (.inr hs)
  · rintro (h | h | h)
    · exact ⟨.previous, h⟩
    · exact ⟨.current, h⟩
    · exact ⟨.next, h⟩

theorem Keypairs.Distinct.ne (h : keypairs.Distinct) {s t : Slot} (hst : s ≠ t)
    (hs : keypairs.get s = some k) : keypairs.get t ≠ some k :=
  fun ht => hst (h s t k k hs ht rfl)

theorem IndexTable.Tracks.rotate (h : Tracks base table peer 0 (insert k keypairs.held))
    (hd : keypairs.Distinct) (hnew : k ∉ keypairs.held) :
    Tracks base (keypairs.rotate k table).2 peer 0 (keypairs.rotate k table).1.held := by
  have hpc := fun x => hd.ne (k := x) (by decide : Slot.previous ≠ .current)
  have hpn := fun x => hd.ne (k := x) (by decide : Slot.previous ≠ .next)
  have hcn := fun x => hd.ne (k := x) (by decide : Slot.current ≠ .next)
  obtain ⟨previous, current, next⟩ := keypairs
  simp only [Keypairs.mem_held, not_or] at hnew
  simp only [Keypairs.get] at hpc hpn hcn
  cases hi : k.isInitiator with
  | true =>
    cases next with
    | none =>
      have hdone := h.deleteKeypair previous fun x hx => .inr (Keypairs.mem_held.mpr (.inl hx))
      simp only [Keypairs.rotate, hi, ↓reduceIte, isSome_none, Bool.false_eq_true]
      refine hdone.congr fun x => ?_
      simp only [Keypairs.mem_held, Set.mem_ofPred_eq, Set.mem_insert_iff]
      grind
    | some n =>
      have hdone := (h.deleteKeypair current fun x hx =>
        .inr (Keypairs.mem_held.mpr (.inr (.inl hx)))).deleteKeypair previous fun x hx =>
          ⟨.inr (Keypairs.mem_held.mpr (.inl hx)), hpc x hx⟩
      simp only [Keypairs.rotate, hi, ↓reduceIte, isSome_some]
      refine hdone.congr fun x => ?_
      simp only [Keypairs.mem_held, Set.mem_ofPred_eq, Set.mem_insert_iff]
      grind
  | false =>
    have hdone := (h.deleteKeypair next fun x hx =>
      .inr (Keypairs.mem_held.mpr (.inr (.inr hx)))).deleteKeypair previous fun x hx =>
        ⟨.inr (Keypairs.mem_held.mpr (.inl hx)), hpn x hx⟩
    simp only [Keypairs.rotate, hi, Bool.false_eq_true, ↓reduceIte]
    refine hdone.congr fun x => ?_
    simp only [Keypairs.mem_held, Set.mem_ofPred_eq, Set.mem_insert_iff]
    grind

end

section

variable [DecidableEq B] [DecidableEq ι] {c : Crypto B} {dev dev' : Device B ι} {peer : ι}

omit [DecidableEq B] [DecidableEq ι] in
theorem newIndexForHandshake_spec {table : IndexTable B ι} {draws : List Index} {sender : Index}
    (h : table.newIndexForHandshake draws = some sender) :
    sender ∈ draws ∧ table sender = none := by
  refine ⟨List.mem_of_find?_eq_some h, ?_⟩
  have hfree := List.find?_some h
  simpa using hfree

theorem initiate_changes (h : Handshake B) (static ephemeral : B) (timestamp : Timestamp) :
    ∃ hash chainKey, (h.initiate c static ephemeral timestamp).1 =
      { h with hash := hash, chainKey := chainKey, localEphemeral := ephemeral } := by
  unfold Handshake.initiate
  dsimp only
  split
  · exact ⟨_, _, rfl⟩
  · split
    · exact ⟨_, _, rfl⟩
    · exact ⟨_, _, rfl⟩

theorem respond_changes (h : Handshake B) (ephemeral : B) :
    ∃ hash chainKey, (h.respond c ephemeral).1 =
      { h with hash := hash, chainKey := chainKey, localEphemeral := ephemeral } := by
  unfold Handshake.respond
  dsimp only
  split
  · exact ⟨_, _, rfl⟩
  · split
    · exact ⟨_, _, rfl⟩
    · exact ⟨_, _, rfl⟩

-- What CreateMessageInitiation does: it fails and has overwritten hash, chain
-- key and ephemeral, or it replaces the index as well.
theorem createMessageInitiation_cases {random : Random B} {timestamp : Timestamp}
    {result : Except NoiseError (MessageInitiation B)}
    (h : dev.createMessageInitiation c peer random timestamp = some (dev', result)) :
    ∃ hs fields, (dev.handshake peer).initiate c dev.publicKey random.ephemeral timestamp =
        (hs, fields) ∧ (∃ hash chainKey, hs = { dev.handshake peer with
          hash := hash, chainKey := chainKey, localEphemeral := random.ephemeral }) ∧
      (fields = none ∧ dev' = dev.storeHandshake peer hs dev.indexTable ∧
          result.toOption = none ∨
        fields.isSome ∧ ∃ sender ∈ random.draws,
          (dev.indexTable.delete hs.localIndex) sender = none ∧
          dev' = dev.storeHandshake peer
            { hs with localIndex := sender, state := .initiationCreated }
            ((dev.indexTable.delete hs.localIndex).insertHandshake sender peer) ∧
          result.toOption.map MessageInitiation.sender = some sender) := by
  have hchanges := initiate_changes (c := c) (dev.handshake peer) dev.publicKey random.ephemeral
    timestamp
  unfold Device.createMessageInitiation at h
  split at h
  · next hs hinitiate =>
      rw [hinitiate] at hchanges
      cases h
      exact ⟨hs, none, hinitiate, hchanges, .inl ⟨rfl, rfl, rfl⟩⟩
  · next hs ephemeral static msgTimestamp hinitiate =>
      rw [hinitiate] at hchanges
      dsimp only at h
      split at h
      · simp at h
      · next sender hsender =>
          obtain ⟨hdraw, hfree⟩ := newIndexForHandshake_spec hsender
          cases h
          exact ⟨hs, _, hinitiate, hchanges, .inr ⟨rfl, sender, hdraw, hfree, rfl, rfl⟩⟩

theorem createMessageResponse_cases {random : Random B}
    {result : Except NoiseError (MessageResponse B)}
    (h : dev.createMessageResponse c peer random = some (dev', result)) :
    dev' = dev ∨ (dev.handshake peer).state = .initiationConsumed ∧ ∃ sender ∈ random.draws,
      (dev.indexTable.delete (dev.handshake peer).localIndex) sender = none ∧
      ∃ hs fields, ((dev.handshake peer).assign sender).respond c random.ephemeral = (hs, fields) ∧
        (∃ hash chainKey, hs = { (dev.handshake peer).assign sender with
          hash := hash, chainKey := chainKey, localEphemeral := random.ephemeral }) ∧
        dev' = dev.storeHandshake peer
          (if fields.isSome then { hs with state := .responseCreated } else hs)
          ((dev.indexTable.delete (dev.handshake peer).localIndex).insertHandshake sender peer) := by
  unfold Device.createMessageResponse at h
  dsimp only at h
  split at h
  · simp only [Option.some.injEq, Prod.mk.injEq] at h
    exact .inl h.1.symm
  · next hstate =>
      split at h
      · simp at h
      · next sender hsender =>
          obtain ⟨hdraw, hfree⟩ := newIndexForHandshake_spec hsender
          have hchanges := respond_changes (c := c) ((dev.handshake peer).assign sender)
            random.ephemeral
          refine .inr ⟨not_not.mp hstate, sender, hdraw, hfree, ?_⟩
          split at h
          · next hs hrespond =>
              rw [hrespond] at hchanges
              simp only [Option.some.injEq, Prod.mk.injEq] at h
              exact ⟨hs, none, hrespond, hchanges, h.1.symm⟩
          · next hs ephemeral empty hrespond =>
              rw [hrespond] at hchanges
              simp only [Option.some.injEq, Prod.mk.injEq] at h
              exact ⟨hs, _, hrespond, hchanges, h.1.symm⟩

end

section

variable [DecidableEq ι] {c : Crypto B} {dev dev' : Device B ι} {peer : ι}

-- The table holds what the peers should have and nothing else. A keypair
-- whose index is 0 has no entry.
structure Device.Owned (dev : Device B ι) : Prop where
  tracks : ∀ peer, dev.indexTable.Tracks dev.indexTable peer (dev.handshake peer).localIndex
    (dev.keypairs peer).held
  orderly : ∀ peer, dev.Orderly peer

structure Device.Kept (dev dev' : Device B ι) (peer : ι) : Prop where
  tracks : IndexTable.Tracks dev.indexTable dev'.indexTable peer (dev'.handshake peer).localIndex
    (dev'.keypairs peer).held
  orderly : dev'.Orderly peer
  others : ∀ other, other ≠ peer → dev'.peers other = dev.peers other
  allocated : dev.allocated ≤ dev'.allocated

omit [DecidableEq ι] in
theorem Device.Kept.owned (h : dev.Owned) (hk : dev.Kept dev' peer) : dev'.Owned := by
  have hpeer : ∀ other, dev'.indexTable.Tracks dev'.indexTable other
      (dev'.handshake other).localIndex (dev'.keypairs other).held ∧ dev'.Orderly other := by
    intro other
    by_cases he : other = peer
    · subst he
      exact ⟨{ hk.tracks with others := fun _ _ _ => Iff.rfl }, hk.orderly⟩
    · have hsame := hk.others other he
      have htracks := h.tracks other
      have horderly := h.orderly other
      simp only [Device.Orderly, Device.handshake, Device.keypairs] at htracks horderly ⊢
      rw [hsame]
      refine ⟨⟨hk.tracks.zero, fun i entry hentry => ?_, fun _ _ _ => Iff.rfl⟩, horderly.1,
        horderly.2.mono hk.allocated⟩
      rw [hk.tracks.others i entry (hentry ▸ he)]
      exact htracks.own i entry hentry
  exact ⟨fun other => (hpeer other).1, fun other => (hpeer other).2⟩

omit [DecidableEq ι] in
theorem Device.Owned.unchanged (h : dev.Owned) : dev.Kept dev peer :=
  ⟨h.tracks peer, h.orderly peer, fun _ _ => rfl, Nat.le_refl _⟩

theorem Device.Kept.store (p : Peer B) {table : IndexTable B ι}
    (ht : IndexTable.Tracks dev.indexTable table peer p.handshake.localIndex p.keypairs.held)
    (ho : p.keypairs.Distinct ∧ p.keypairs.Below dev.allocated) :
    dev.Kept (dev.store peer p table) peer where
  tracks := by simpa [Device.store, Device.handshake, Device.keypairs] using ht
  orderly := by simpa [Device.Orderly, Device.store, Device.keypairs] using ho
  others other he := by simp [Device.store, update_of_ne he]
  allocated := Nat.le_refl _

theorem Device.Owned.storeHandshake (h : dev.Owned) (hs : Handshake B) {table : IndexTable B ι}
    (ht : IndexTable.Tracks dev.indexTable table peer hs.localIndex (dev.keypairs peer).held) :
    dev.Kept (dev.storeHandshake peer hs table) peer :=
  .store _ ht (h.orderly peer)

theorem Device.Owned.commitInitiation (h : dev.Owned) (msg : MessageInitiation B)
    (checked : Device.Initiated B ι) :
    dev.Kept (dev.commitInitiation msg checked) checked.peer :=
  h.storeHandshake _ (h.tracks checked.peer)

theorem Device.Owned.commitResponse (h : dev.Owned) (msg : MessageResponse B) (hash chainKey : B) :
    dev.Kept (dev.commitResponse peer msg hash chainKey) peer :=
  h.storeHandshake _ (h.tracks peer)

theorem Device.Owned.beginSymmetricSession (h : dev.Owned) :
    dev.Kept (dev.beginSymmetricSession c peer).1 peer := by
  cases hk : dev.deriveKeypair c peer with
  | none =>
    rw [beginSymmetricSession_none hk]
    exact h.unchanged
  | some keypair =>
    have hindex : keypair.localIndex = (dev.handshake peer).localIndex := by
      obtain ⟨keys, -, rfl⟩ := map_eq_some_iff.mp hk
      rfl
    have hnew : keypair ∉ (dev.keypairs peer).held := by
      rintro ⟨s, hs⟩
      have hlt := (h.orderly peer).2 s keypair hs
      rw [deriveKeypair_id hk] at hlt
      exact Nat.lt_irrefl _ hlt
    have htracks := ((h.tracks peer).swapIndexForKeypair hindex).rotate (h.orderly peer).1 hnew
    have horderly := (h.orderly peer).beginSymmetricSession (c := c)
    rw [beginSymmetricSession_some hk] at horderly ⊢
    refine ⟨?_, horderly, fun other he => ?_, Nat.le_succ _⟩
    · simpa [Device.allocate, Device.store, Device.handshake, Device.keypairs,
        Handshake.finish] using htracks
    · simp [Device.allocate, Device.store, update_of_ne he]

theorem Device.Owned.receivedWithKeypair (h : dev.Owned) (received : Option (Keypair B)) :
    dev.Kept (dev.receivedWithKeypair peer received).1 peer := by
  have horderly := (h.orderly peer).receivedWithKeypair received
  have hdone := (h.tracks peer).deleteKeypair (dev.keypairs peer).previous fun x hx =>
    Keypairs.mem_held.mpr (.inl hx)
  have hpc := fun x => (h.orderly peer).1.ne (k := x) (by decide : Slot.current ≠ .previous)
  have hpn := fun x => (h.orderly peer).1.ne (k := x) (by decide : Slot.next ≠ .previous)
  unfold Device.receivedWithKeypair at horderly ⊢
  dsimp only at horderly ⊢
  split
  · exact h.unchanged
  · next heq =>
      rw [if_neg heq] at horderly
      refine .store _ (hdone.congr fun x => ?_) ?_
      · simp only [Keypairs.mem_held, Set.mem_ofPred_eq]
        simp only [Keypairs.get] at hpc hpn
        grind
      · simp only [Device.Orderly, store_keypairs_self] at horderly
        exact horderly

theorem Device.Owned.expireCurrentKeypairs (h : dev.Owned) :
    dev.Kept (dev.expireCurrentKeypairs c peer) peer :=
  h.storeHandshake _ (h.tracks peer).delete_handshake

theorem Device.Owned.zeroAndFlushAll (h : dev.Owned) :
    dev.Kept (dev.zeroAndFlushAll c peer) peer := by
  have hd := (h.orderly peer).1
  have hdone := (((h.tracks peer).deleteKeypair (dev.keypairs peer).previous fun x hx =>
    Keypairs.mem_held.mpr (.inl hx)).deleteKeypair (dev.keypairs peer).current fun x hx =>
      ⟨Keypairs.mem_held.mpr (.inr (.inl hx)),
        hd.ne (by decide : Slot.current ≠ .previous) hx⟩).deleteKeypair (dev.keypairs peer).next
          fun x hx => ⟨⟨Keypairs.mem_held.mpr (.inr (.inr hx)),
            hd.ne (by decide : Slot.next ≠ .previous) hx⟩,
              hd.ne (by decide : Slot.next ≠ .current) hx⟩
  refine .store _ (hdone.delete_handshake.congr fun x => ?_)
    ⟨Keypairs.empty_distinct, Keypairs.empty_below _⟩
  simp only [Keypairs.mem_held, Set.mem_ofPred_eq]
  grind

omit [DecidableEq ι] in
theorem Device.Owned.assign (h : dev.Owned) {sender : Index} (hsender : sender ≠ 0)
    (hfree : (dev.indexTable.delete (dev.handshake peer).localIndex) sender = none) :
    IndexTable.Tracks dev.indexTable
      ((dev.indexTable.delete (dev.handshake peer).localIndex).insertHandshake sender peer) peer
      sender (dev.keypairs peer).held :=
  (h.tracks peer).delete_handshake.insertHandshake hsender hfree

variable [DecidableEq B]

theorem Device.Owned.createMessageInitiation (h : dev.Owned) {random : Random B}
    {timestamp : Timestamp} {result : Except NoiseError (MessageInitiation B)}
    (hdraws : 0 ∉ random.draws)
    (hr : dev.createMessageInitiation c peer random timestamp = some (dev', result)) :
    dev.Kept dev' peer := by
  obtain ⟨_, fields, -, ⟨hash, chainKey, rfl⟩, ⟨-, rfl, -⟩ | ⟨-, sender, hdraw, hfree, rfl, -⟩⟩ :=
    createMessageInitiation_cases hr
  · exact h.storeHandshake _ (h.tracks peer)
  · exact h.storeHandshake _ (h.assign (fun hz => hdraws (hz ▸ hdraw)) hfree)

theorem Device.Owned.createMessageResponse (h : dev.Owned) {random : Random B}
    {result : Except NoiseError (MessageResponse B)} (hdraws : 0 ∉ random.draws)
    (hr : dev.createMessageResponse c peer random = some (dev', result)) : dev.Kept dev' peer := by
  obtain rfl | ⟨-, sender, hdraw, hfree, _, fields, -, ⟨hash, chainKey, rfl⟩, rfl⟩ :=
    createMessageResponse_cases hr
  · exact h.unchanged
  · refine h.storeHandshake _ ?_
    have htracks := h.assign (fun hz => hdraws (hz ▸ hdraw)) hfree
    split
    · exact htracks
    · exact htracks

end

section

-- The calls on a device, each one atomic. Between them time passes and peers
-- start and stop.
inductive Call (B ι : Type)
  | createMessageInitiation (peer : ι) (random : Random B) (timestamp : Timestamp)
  | consumeMessageInitiation (msg : MessageInitiation B)
  | createMessageResponse (peer : ι) (random : Random B)
  | consumeMessageResponse (msg : MessageResponse B)
  | beginSymmetricSession (peer : ι)
  | receivedWithKeypair (peer : ι) (received : Option (Keypair B))
  | expireCurrentKeypairs (peer : ι)
  | zeroAndFlushAll (peer : ι)
  | elapse (clock : Int) (running : ι → Bool)

def Device.elapse (dev : Device B ι) (clock : Int) (running : ι → Bool) : Device B ι :=
  { dev with
    clock := clock
    peers := fun peer => { dev.peers peer with isRunning := running peer } }

section

variable [DecidableEq B] [DecidableEq ι] (c : Crypto B)

-- None while a call is still looking for a free index.
def Device.call (dev : Device B ι) : Call B ι → Option (Device B ι)
  | .createMessageInitiation peer random timestamp =>
    (dev.createMessageInitiation c peer random timestamp).map Prod.fst
  | .consumeMessageInitiation msg => some (dev.consumeMessageInitiation c msg).1
  | .createMessageResponse peer random => (dev.createMessageResponse c peer random).map Prod.fst
  | .consumeMessageResponse msg => some (dev.consumeMessageResponse c msg).1
  | .beginSymmetricSession peer => some (dev.beginSymmetricSession c peer).1
  | .receivedWithKeypair peer received => some (dev.receivedWithKeypair peer received).1
  | .expireCurrentKeypairs peer => some (dev.expireCurrentKeypairs c peer)
  | .zeroAndFlushAll peer => some (dev.zeroAndFlushAll c peer)
  | .elapse clock running => some (dev.elapse clock running)

def Device.calls (dev : Device B ι) : List (Call B ι) → Option (Device B ι)
  | [] => some dev
  | call :: rest =>
    match dev.call c call with
    | none => none
    | some next => next.calls rest

end

def Call.draws : Call B ι → List Index
  | .createMessageInitiation _ random _ => random.draws
  | .createMessageResponse _ random => random.draws
  | _ => []

structure Device.Fresh (dev : Device B ι) : Prop where
  table : ∀ i, dev.indexTable i = none
  localIndex : ∀ peer, (dev.handshake peer).localIndex = 0
  state : ∀ peer, (dev.handshake peer).state = .zeroed
  keypairs : ∀ peer, dev.keypairs peer = {}

inductive Owner (ι : Type)
  | handshake (peer : ι)
  | slot (peer : ι) (slot : Slot)
  deriving DecidableEq

def Device.index (dev : Device B ι) : Owner ι → Option Index
  | .handshake peer =>
    if (dev.handshake peer).localIndex = 0 then none else some (dev.handshake peer).localIndex
  | .slot peer slot => ((dev.keypairs peer).get slot).map Keypair.localIndex

def Device.entry (dev : Device B ι) : Owner ι → Option (IndexTableEntry B ι)
  | .handshake peer => some ⟨peer, some peer, none⟩
  | .slot peer slot => ((dev.keypairs peer).get slot).map fun k => ⟨peer, none, some k⟩

structure Device.OneToOne (dev : Device B ι) : Prop where
  entry : ∀ owner i, dev.index owner = some i → dev.indexTable i = dev.entry owner
  owner : ∀ i entry, dev.indexTable i = some entry →
    ∃ owner, dev.index owner = some i ∧ ∀ other, dev.index other = some i → other = owner

def HandshakeState.Indexed : HandshakeState → Prop
  | .initiationCreated | .responseCreated | .responseConsumed => True
  | .zeroed | .initiationConsumed => False

structure Device.Live (dev : Device B ι) : Prop where
  owned : dev.Owned
  handshake : ∀ peer, (dev.handshake peer).state.Indexed → (dev.handshake peer).localIndex ≠ 0
  keypair : ∀ peer, ∀ k ∈ (dev.keypairs peer).held, k.localIndex ≠ 0

variable {c : Crypto B} {dev dev' : Device B ι} {peer : ι}

theorem Device.Fresh.live (h : dev.Fresh) : dev.Live where
  owned :=
    { tracks := fun peer =>
        { zero := h.table 0
          own := fun i entry _ => by
            rw [h.table, h.localIndex, h.keypairs]
            simp only [IndexTable.Entitled, Keypairs.mem_held]
            refine ⟨fun he => by simp at he, ?_⟩
            rintro ⟨hi, ⟨he, -⟩ | ⟨k, hk, -⟩⟩
            · exact absurd he.symm hi
            · simp at hk
          others := fun _ _ _ => Iff.rfl }
      orderly := fun peer => by
        rw [Device.Orderly, h.keypairs]
        exact ⟨Keypairs.empty_distinct, Keypairs.empty_below _⟩ }
  handshake peer hstate := by
    rw [h.state] at hstate
    exact hstate.elim
  keypair peer k hk := by
    rw [h.keypairs, Keypairs.mem_held] at hk
    simp at hk

theorem Device.Live.kept (h : dev.Live) (hk : dev.Kept dev' peer)
    (hs : (dev'.handshake peer).state.Indexed → (dev'.handshake peer).localIndex ≠ 0)
    (hheld : ∀ k ∈ (dev'.keypairs peer).held, k.localIndex ≠ 0) : dev'.Live where
  owned := hk.owned h.owned
  handshake other := by
    by_cases he : other = peer
    · rwa [he]
    · rw [Device.handshake, hk.others other he]
      exact h.handshake other
  keypair other := by
    by_cases he : other = peer
    · rwa [he]
    · rw [Device.keypairs, hk.others other he]
      exact h.keypair other

variable [DecidableEq ι]

theorem Device.Live.storeHandshake (h : dev.Live) {hs : Handshake B} {table : IndexTable B ι}
    (hk : dev.Kept (dev.storeHandshake peer hs table) peer)
    (hstate : hs.state.Indexed → hs.localIndex ≠ 0) :
    (dev.storeHandshake peer hs table).Live := by
  refine h.kept hk ?_ ?_
  · simpa [Device.storeHandshake, Device.store, Device.handshake] using hstate
  · simpa [Device.storeHandshake, Device.store, Device.keypairs] using h.keypair peer

theorem Device.Live.beginSymmetricSession (h : dev.Live) :
    (dev.beginSymmetricSession c peer).1.Live := by
  have hkept : dev.Kept (dev.beginSymmetricSession c peer).1 peer := h.owned.beginSymmetricSession
  cases hk : dev.deriveKeypair c peer with
  | none => rwa [beginSymmetricSession_none hk]
  | some keypair =>
    rw [beginSymmetricSession_some hk] at hkept ⊢
    refine h.kept hkept ?_ ?_
    · simp [Device.allocate, Device.store, Device.handshake, Handshake.finish,
        HandshakeState.Indexed]
    · simp only [allocate_keypairs, store_keypairs_self]
      rintro k ⟨s, hs⟩
      rcases rotate_get hs with ⟨-, hs⟩ | ⟨-, rfl⟩
      · exact h.keypair peer k ⟨_, hs⟩
      · obtain ⟨hindex, ⟨hstate, -⟩ | ⟨hstate, -⟩⟩ := deriveKeypair_cases hk
        · rw [hindex]
          exact h.handshake peer (hstate ▸ trivial)
        · rw [hindex]
          exact h.handshake peer (hstate ▸ trivial)

theorem Device.Live.receivedWithKeypair (h : dev.Live) (received : Option (Keypair B)) :
    (dev.receivedWithKeypair peer received).1.Live := by
  have hkept : dev.Kept (dev.receivedWithKeypair peer received).1 peer :=
    h.owned.receivedWithKeypair received
  unfold Device.receivedWithKeypair at hkept ⊢
  dsimp only at hkept ⊢
  split
  · exact h
  · next heq =>
      rw [if_neg heq] at hkept
      refine h.kept hkept ?_ ?_
      · simpa [Device.store, Device.handshake] using h.handshake peer
      · simp only [store_keypairs_self, Keypairs.mem_held]
        intro k hk
        refine h.keypair peer k (Keypairs.mem_held.mpr ?_)
        rcases hk with hk | hk | hk
        · exact .inr (.inl hk)
        · exact .inr (.inr hk)
        · simp at hk

theorem Device.Live.expireCurrentKeypairs (h : dev.Live) :
    (dev.expireCurrentKeypairs c peer).Live :=
  h.storeHandshake h.owned.expireCurrentKeypairs fun hstate => hstate.elim

theorem Device.Live.zeroAndFlushAll (h : dev.Live) : (dev.zeroAndFlushAll c peer).Live := by
  refine h.kept h.owned.zeroAndFlushAll ?_ ?_
  · simp [Device.zeroAndFlushAll, Device.store, Device.handshake, Handshake.clear,
      HandshakeState.Indexed]
  · simp [Device.zeroAndFlushAll, Keypairs.mem_held]

variable [DecidableEq B] {random : Random B} {owner : Owner ι} {i : Index}

theorem Device.Live.createMessageInitiation (h : dev.Live) {timestamp : Timestamp}
    {result : Except NoiseError (MessageInitiation B)} (hdraws : 0 ∉ random.draws)
    (hr : dev.createMessageInitiation c peer random timestamp = some (dev', result)) :
    dev'.Live := by
  have hkept := h.owned.createMessageInitiation hdraws hr
  obtain ⟨_, fields, -, ⟨hash, chainKey, rfl⟩, ⟨-, rfl, -⟩ | ⟨-, sender, hdraw, -, rfl, -⟩⟩ :=
    createMessageInitiation_cases hr
  · exact h.storeHandshake hkept (h.handshake peer)
  · exact h.storeHandshake hkept fun _ hz => hdraws (hz ▸ hdraw)

theorem Device.Live.createMessageResponse (h : dev.Live)
    {result : Except NoiseError (MessageResponse B)} (hdraws : 0 ∉ random.draws)
    (hr : dev.createMessageResponse c peer random = some (dev', result)) : dev'.Live := by
  have hkept := h.owned.createMessageResponse hdraws hr
  obtain rfl | ⟨-, sender, hdraw, -, _, fields, -, ⟨hash, chainKey, rfl⟩, rfl⟩ :=
    createMessageResponse_cases hr
  · exact h
  · refine h.storeHandshake hkept fun _ hz => hdraws (hz ▸ ?_)
    split
    · exact hdraw
    · exact hdraw

theorem Device.Live.consumeMessageInitiation (h : dev.Live) (msg : MessageInitiation B) :
    (dev.consumeMessageInitiation c msg).1.Live := by
  unfold Device.consumeMessageInitiation
  split
  · exact h
  · exact h.storeHandshake (h.owned.commitInitiation msg _) fun hstate => hstate.elim

theorem Device.Live.consumeMessageResponse (h : dev.Live) (msg : MessageResponse B) :
    (dev.consumeMessageResponse c msg).1.Live := by
  unfold Device.consumeMessageResponse
  split
  · exact h
  split
  · exact h
  split
  · exact h
  · next handshake _ =>
      split
      · exact h
      · next hash chainKey hcheck =>
          -- the check has found the initiation that the index belongs to
          have hstate : (dev.handshake handshake).state = .initiationCreated := by
            by_contra hne
            simp [Handshake.checkResponse, hne] at hcheck
          refine h.storeHandshake (h.owned.commitResponse msg _ _) fun _ => ?_
          exact h.handshake handshake (hstate ▸ trivial)

omit [DecidableEq B] [DecidableEq ι] in
theorem Device.Owned.elapse (h : dev.Owned) (clock : Int) (running : ι → Bool) :
    (dev.elapse clock running).Owned :=
  ⟨h.tracks, h.orderly⟩

omit [DecidableEq B] [DecidableEq ι] in
theorem Device.Live.elapse (h : dev.Live) (clock : Int) (running : ι → Bool) :
    (dev.elapse clock running).Live :=
  ⟨h.owned.elapse clock running, h.handshake, h.keypair⟩

theorem Device.Live.call (h : dev.Live) {call : Call B ι} (hdraws : 0 ∉ call.draws)
    (hr : dev.call c call = some dev') : dev'.Live := by
  cases call with
  | createMessageInitiation peer random timestamp =>
    obtain ⟨⟨next, result⟩, hcreate, rfl⟩ := map_eq_some_iff.mp hr
    exact h.createMessageInitiation hdraws hcreate
  | consumeMessageInitiation msg =>
    cases hr
    exact h.consumeMessageInitiation msg
  | createMessageResponse peer random =>
    obtain ⟨⟨next, result⟩, hcreate, rfl⟩ := map_eq_some_iff.mp hr
    exact h.createMessageResponse hdraws hcreate
  | consumeMessageResponse msg =>
    cases hr
    exact h.consumeMessageResponse msg
  | beginSymmetricSession peer =>
    cases hr
    exact h.beginSymmetricSession
  | receivedWithKeypair peer received =>
    cases hr
    exact h.receivedWithKeypair received
  | expireCurrentKeypairs peer =>
    cases hr
    exact h.expireCurrentKeypairs
  | zeroAndFlushAll peer =>
    cases hr
    exact h.zeroAndFlushAll
  | elapse clock running =>
    cases hr
    exact h.elapse clock running

theorem Device.Live.calls (h : dev.Live) {calls : List (Call B ι)}
    (hdraws : ∀ call ∈ calls, 0 ∉ call.draws) (hr : dev.calls c calls = some dev') : dev'.Live := by
  induction calls generalizing dev with
  | nil =>
    cases hr
    exact h
  | cons call rest ih =>
    simp only [Device.calls] at hr
    split at hr
    · simp at hr
    · next next hnext =>
        exact ih (h.call (hdraws call List.mem_cons_self) hnext)
          (fun later hlater => hdraws later (List.mem_cons_of_mem _ hlater)) hr

omit [DecidableEq B] [DecidableEq ι] in
theorem Device.Live.owner_entry (h : dev.Live) (hi : dev.index owner = some i) :
    dev.indexTable i = dev.entry owner ∧ (dev.entry owner).isSome := by
  cases owner with
  | handshake peer =>
    simp only [Device.index] at hi
    split at hi
    · simp at hi
    · next hz =>
        cases hi
        exact ⟨(h.owned.tracks peer).handshake_entry hz, rfl⟩
  | slot peer slot =>
    obtain ⟨k, hk, rfl⟩ := map_eq_some_iff.mp hi
    have hheld : k ∈ (dev.keypairs peer).held := ⟨slot, hk⟩
    simp only [Device.entry, hk]
    exact ⟨(h.owned.tracks peer).keypair_entry hheld (h.keypair peer k hheld), rfl⟩

omit [DecidableEq B] [DecidableEq ι] in
theorem Device.Live.owner_unique (h : dev.Live) {other : Owner ι} (hi : dev.index owner = some i)
    (hi' : dev.index other = some i) : other = owner := by
  obtain ⟨hentry, hsome⟩ := h.owner_entry hi
  have hsame : dev.entry other = dev.entry owner := (h.owner_entry hi').1.symm.trans hentry
  cases owner with
  | handshake peer =>
    cases other with
    | handshake peer' => simpa [Device.entry] using hsame
    | slot peer' slot' =>
      obtain ⟨k, -, he⟩ := map_eq_some_iff.mp hsame
      simp at he
  | slot peer slot =>
    obtain ⟨k, hk, -⟩ := map_eq_some_iff.mp hi
    simp only [Device.entry, hk, map_some] at hsame
    cases other with
    | handshake peer' => simp at hsame
    | slot peer' slot' =>
      obtain ⟨k', hk', he⟩ := map_eq_some_iff.mp hsame
      simp only [IndexTableEntry.mk.injEq, Option.some.injEq, true_and] at he
      obtain ⟨rfl, rfl⟩ := he
      rw [(h.owned.orderly peer').1 slot' slot k' k' hk' hk rfl]

omit [DecidableEq B] [DecidableEq ι] in
theorem Device.Live.oneToOne (h : dev.Live) : dev.OneToOne where
  entry _ _ hi := (h.owner_entry hi).1
  owner i entry hentry := by
    have howner : ∃ owner, dev.index owner = some i := by
      obtain ⟨hz, ⟨hi, -⟩ | ⟨k, ⟨slot, hk⟩, hi, -⟩⟩ :=
        ((h.owned.tracks entry.peer).own i entry rfl).mp hentry
      · exact ⟨.handshake entry.peer, by rw [Device.index, hi, if_neg hz]⟩
      · exact ⟨.slot entry.peer slot, by simp [Device.index, hk, hi]⟩
    obtain ⟨owner, hi⟩ := howner
    exact ⟨owner, hi, fun other hi' => h.owner_unique hi hi'⟩

-- Index 0 stands for none, so it must not be drawn.
theorem indexTable_oneToOne {start last : Device B ι} (hstart : start.Fresh)
    {calls : List (Call B ι)} (hdraws : ∀ call ∈ calls, 0 ∉ call.draws)
    (hr : start.calls c calls = some last) : last.OneToOne :=
  (hstart.live.calls hdraws hr).oneToOne

end

section

open Term (atom crypto)

def twoPeers : Device Term Bool where
  privateKey := atom 10
  publicKey := .pub (atom 10)
  lookupPeer pk := if pk = .pub (atom 11) then some true else
    if pk = .pub (atom 12) then some false else none
  peers peer := newPeer crypto (atom 10) (.pub (atom (if peer then 11 else 12))) (atom 99)
  clock := 1000000000

theorem twoPeers_fresh : twoPeers.Fresh where
  table _ := rfl
  localIndex _ := rfl
  state _ := rfl
  keypairs _ := rfl

def indexCalls : List (Call Term Bool) :=
  [.createMessageInitiation true ⟨atom 20, [7], 1⟩ 5,
    .createMessageInitiation false ⟨atom 21, [7, 9], 1⟩ 6,
    .expireCurrentKeypairs true, .createMessageInitiation true ⟨atom 22, [9, 7], 1⟩ 8]

theorem indexTable_oneToOne_twoPeers :
    ∃ last, twoPeers.calls crypto indexCalls = some last ∧
      last.indexTable 7 = some ⟨true, some true, none⟩ ∧
      last.indexTable 9 = some ⟨false, some false, none⟩ ∧ last.OneToOne := by
  have hr : twoPeers.calls crypto indexCalls = some _ := rfl
  exact ⟨_, hr, rfl, rfl, indexTable_oneToOne twoPeers_fresh (by decide) hr⟩

end

end StarlingWg.Noise
