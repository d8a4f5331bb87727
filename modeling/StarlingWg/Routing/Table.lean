import StarlingWg.Routing.Reference

namespace StarlingWg.Routing

open Function Option

-- A table that came about by calls: its tries and the lists of its peers
-- agree, so that no call on it fails.
structure Table (P : Type) where
  allowed : AllowedIPs P
  coherent : ∃ ref, allowed.Represents ref

namespace Table

variable {P : Type}

def empty : Table P :=
  ⟨{}, _, AllowedIPs.represents_empty⟩

def entriesForPeer (t : Table P) (peer : P) : List Network :=
  t.allowed.entriesForPeer peer

section

variable [DecidableEq P] (t : Table P) (pre : Prefix) (peer : P)

theorem call_isSome (c : Call P) : (t.allowed.call c).isSome = true := by
  obtain ⟨ref, href⟩ := t.coherent
  obtain ⟨table, hcall, -⟩ := href.call c
  rw [hcall]
  rfl

theorem call_coherent (c : Call P) :
    ∃ ref, ((t.allowed.call c).get (t.call_isSome c)).Represents ref := by
  obtain ⟨ref, href⟩ := t.coherent
  obtain ⟨table, hcall, htable⟩ := href.call c
  refine ⟨ref.call c, ?_⟩
  simpa only [hcall, get_some] using htable

def call (c : Call P) : Table P where
  allowed := (t.allowed.call c).get (t.call_isSome c)
  coherent := t.call_coherent c

def insert : Table P := t.call (.insert pre peer)

def remove : Table P := t.call (.remove pre peer)

def removeByPeer : Table P := t.call (.removeByPeer peer)

theorem exists_reference : ∃ ref : Reference P,
    (∀ q network, network ∈ t.entriesForPeer q ↔ ref network = some q) ∧
    ∀ c q network, network ∈ (t.call c).entriesForPeer q ↔ ref.call c network = some q := by
  obtain ⟨ref, href⟩ := t.coherent
  refine ⟨ref, href.mem_entriesForPeer, fun c q network => ?_⟩
  obtain ⟨table, hcall, htable⟩ := href.call c
  have htable' : (t.call c).allowed.Represents (ref.call c) := by
    simpa only [call, hcall, get_some] using htable
  exact htable'.mem_entriesForPeer q network

variable {t pre peer} {q : P} {network : Network}

theorem mem_insert : network ∈ (t.insert pre peer).entriesForPeer q ↔
    network = pre.masked ∧ q = peer ∨ network ≠ pre.masked ∧ network ∈ t.entriesForPeer q := by
  obtain ⟨ref, hold, hnew⟩ := t.exists_reference
  rw [insert, hnew, hold]
  by_cases hn : network = pre.masked
  · simp [Reference.call, Reference.insert, hn, eq_comm]
  · simp [Reference.call, Reference.insert, hn]

theorem mem_remove : network ∈ (t.remove pre peer).entriesForPeer q ↔
    network ∈ t.entriesForPeer q ∧ ¬(network = pre.masked ∧ q = peer) := by
  obtain ⟨ref, hold, hnew⟩ := t.exists_reference
  rw [remove, hnew, hold]
  simp only [Reference.call, Reference.remove]
  by_cases hn : network = pre.masked
  · subst hn
    split
    · next hpeer =>
        simp only [update_self, hpeer, Option.some.injEq, true_and, reduceCtorEq, false_iff,
          not_and, not_not]
        exact Eq.symm
    · next hpeer =>
        refine ⟨fun h => ⟨h, fun hq => hpeer (hq.2 ▸ h)⟩, fun h => h.1⟩
  · split
    · rw [update_of_ne hn]
      exact ⟨fun h => ⟨h, fun hq => hn hq.1⟩, fun h => h.1⟩
    · exact ⟨fun h => ⟨h, fun hq => hn hq.1⟩, fun h => h.1⟩

theorem mem_removeByPeer : network ∈ (t.removeByPeer peer).entriesForPeer q ↔
    network ∈ t.entriesForPeer q ∧ q ≠ peer := by
  obtain ⟨ref, hold, hnew⟩ := t.exists_reference
  rw [removeByPeer, hnew, hold]
  simp only [Reference.call, Reference.removeByPeer]
  split
  · next hpeer =>
      rw [hpeer]
      refine ⟨fun h => absurd h (by simp), ?_⟩
      rintro ⟨hq, hne⟩
      exact absurd (Option.some.inj hq).symm hne
  · next hpeer =>
      refine ⟨fun h => ⟨h, ?_⟩, fun h => h.1⟩
      rintro rfl
      exact hpeer h

end

variable {t : Table P} {p q : P} {network : Network}

theorem mem_empty : network ∉ (empty : Table P).entriesForPeer q :=
  List.not_mem_nil

theorem eq_of_mem (hp : network ∈ t.entriesForPeer p) (hq : network ∈ t.entriesForPeer q) : p = q := by
  obtain ⟨ref, href⟩ := t.coherent
  have hp := (href.mem_entriesForPeer p network).mp hp
  have hq := (href.mem_entriesForPeer q network).mp hq
  exact Option.some.inj (hp.symm.trans hq)

theorem mem_of_node {f : Family} {n : NodeId} (hn : (t.allowed.heap f).links.Under .root n)
    (hpeer : ((t.allowed.heap f).nodes n).peer = some p) :
    ⟨f, ((t.allowed.heap f).nodes n).bits, ((t.allowed.heap f).nodes n).cidr⟩ ∈
      t.entriesForPeer p := by
  obtain ⟨ref, href⟩ := t.coherent
  exact (href.wellFormed.entries p _).mpr ⟨n, hn, rfl, rfl, hpeer⟩

theorem masked_of_mem (h : network ∈ t.entriesForPeer p) :
    mask network.bits network.cidr = network.bits ∧ network.cidr ≤ network.family.width := by
  obtain ⟨ref, href⟩ := t.coherent
  obtain ⟨n, hn, hbits, hcidr, -⟩ :=
    (href.owner network.family _ _ p).mp ((href.mem_entriesForPeer p network).mp h)
  have hsound := (href.shape network.family).sound n hn
  rw [← hbits, ← hcidr]
  exact ⟨hsound.masked, hsound.cidr_le⟩

end Table

end StarlingWg.Routing
