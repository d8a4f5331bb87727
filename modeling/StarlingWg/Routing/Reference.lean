import Mathlib.Data.List.Nodup
import StarlingWg.Routing.Remove

namespace StarlingWg.Routing

open Function Option


variable {P : Type} {f : Family}

structure Network where
  family : Family
  bits : Address family
  cidr : Nat
  deriving DecidableEq

def Prefix.masked (pre : Prefix) : Network :=
  ⟨pre.family, mask pre.addr pre.bits, pre.bits⟩

-- What the table is for: a map from networks to the peers that own them.
abbrev Reference (P : Type) := Network → Option P

namespace Reference

-- The owner of the longest network of at most `cidr` bits that contains `ip`.
def lookupUpTo (ref : Reference P) (ip : Address f) : Nat → Option P
  | 0 => ref ⟨f, mask ip 0, 0⟩
  | cidr + 1 => (ref ⟨f, mask ip (cidr + 1), cidr + 1⟩).or (ref.lookupUpTo ip cidr)

def lookup (ref : Reference P) (ip : Address f) : Option P :=
  ref.lookupUpTo ip f.width

variable [DecidableEq P]

def insert (ref : Reference P) (pre : Prefix) (peer : P) : Reference P :=
  update ref pre.masked (some peer)

def remove (ref : Reference P) (pre : Prefix) (peer : P) : Reference P :=
  if ref pre.masked = some peer then update ref pre.masked none else ref

def removeByPeer (ref : Reference P) (peer : P) : Reference P :=
  fun network => if ref network = some peer then none else ref network

def call (ref : Reference P) : Call P → Reference P
  | .insert pre peer => ref.insert pre peer
  | .remove pre peer => ref.remove pre peer
  | .removeByPeer peer => ref.removeByPeer peer

def replay (calls : List (Call P)) : Reference P :=
  calls.foldl call fun _ => none

end Reference

section

variable {ref : Reference P} {ip : Address f} {peer : P} {c n : Nat}

theorem Reference.lookupUpTo_eq_some (hc : c ≤ n) (hpeer : ref ⟨f, mask ip c, c⟩ = some peer)
    (hlonger : ∀ c', c < c' → c' ≤ n → ref ⟨f, mask ip c', c'⟩ = none) :
    ref.lookupUpTo ip n = some peer := by
  induction n with
  | zero =>
    obtain rfl : c = 0 := by omega
    exact hpeer
  | succ n ih =>
    rw [lookupUpTo]
    by_cases hlast : c = n + 1
    · subst hlast
      rw [hpeer, some_or]
    · rw [hlonger (n + 1) (by omega) (Nat.le_refl _), none_or]
      exact ih (by omega) fun c' hlt hle => hlonger c' hlt (by omega)

theorem Reference.lookupUpTo_eq_none (h : ∀ c ≤ n, ref ⟨f, mask ip c, c⟩ = none) :
    ref.lookupUpTo ip n = none := by
  induction n with
  | zero => exact h 0 (Nat.le_refl _)
  | succ n ih =>
    rw [lookupUpTo, h (n + 1) (Nat.le_refl _), none_or]
    exact ih fun c hc => h c (by omega)

end

theorem Network.ne_of_family {g : Family} {a : Address g} {c : Nat} {network : Network}
    (hg : g ≠ network.family) : (⟨g, a, c⟩ : Network) ≠ network := by
  rintro rfl
  exact hg rfl

theorem Reference.removeByPeer_update [DecidableEq P] {ref : Reference P} {network : Network}
    {peer : P} (h : ref network = some peer) :
    Reference.removeByPeer (update ref network none) peer = ref.removeByPeer peer := by
  funext other
  by_cases ho : other = network
  · subst ho
    simp [Reference.removeByPeer, h]
  · simp [Reference.removeByPeer, ho]

-- The tries hold the networks of the map, under their owners.
structure AllowedIPs.Represents (table : AllowedIPs P) (ref : Reference P) : Prop where
  shape : ∀ f, (table.heap f).Shape
  listed : ∀ f, (table.heap f).Listed
  owner : ∀ f a c q, ref ⟨f, a, c⟩ = some q ↔ (table.heap f).Owns a c q
  full : ∀ f, (table.heap f).Full

namespace AllowedIPs

def entriesForPeer (table : AllowedIPs P) (peer : P) : List Network :=
  (table.trieEntries peer).map fun elem =>
    ⟨elem.1, ((table.trie elem.1).nodes elem.2).bits, ((table.trie elem.1).nodes elem.2).cidr⟩

variable {table : AllowedIPs P} {ref : Reference P}

theorem Represents.mem_entriesForPeer (h : table.Represents ref) (peer : P) (network : Network) :
    network ∈ table.entriesForPeer peer ↔ ref network = some peer := by
  constructor
  · intro hm
    obtain ⟨⟨g, n⟩, helem, rfl⟩ := List.mem_map.mp hm
    obtain ⟨hn, hpeer⟩ := ((h.listed g).mem peer n).mp helem
    exact (h.owner g _ _ peer).mpr ⟨n, hn, rfl, rfl, hpeer⟩
  · intro hq
    obtain ⟨n, hn, hbits, hcidr, hpeer⟩ := (h.owner network.family _ _ peer).mp hq
    have helem := ((h.listed network.family).mem peer n).mpr ⟨hn, hpeer⟩
    refine List.mem_map.mpr ⟨(network.family, n), helem, ?_⟩
    change (⟨network.family, ((table.heap network.family).site n).bits,
      ((table.heap network.family).site n).cidr⟩ : Network) = network
    rw [hbits, hcidr]

theorem Represents.lookup (h : table.Represents ref) (ip : Address f) :
    table.lookup ip = some (ref.lookup ip) := by
  obtain ⟨owner, hrun, hlongest⟩ := Heap.lookup_spec (h.shape f) ip
  -- A network that contains the address is the prefix of a node that covers it.
  have hnode : ∀ c q, ref ⟨f, mask ip c, c⟩ = some q → ∃ m, (table.heap f).links.Under .root m ∧
      ((table.heap f).site m).Covers ip ∧ ((table.heap f).tag m).peer = some q ∧
      ((table.heap f).site m).cidr = c := by
    intro c q hq
    obtain ⟨m, hm, hbits, hcidr, hpeer⟩ := (h.owner f _ c q).mp hq
    refine ⟨m, (h.shape f).under_root hm, ?_, hpeer, hcidr⟩
    rw [((h.shape f).sound m hm).covers_iff, hbits, hcidr]
  refine hrun.trans (congrArg some ?_)
  cases howner : owner with
  | none =>
    refine (Reference.lookupUpTo_eq_none fun c _ => ?_).symm
    refine eq_none_iff_forall_ne_some.mpr fun q hq => ?_
    obtain ⟨m, hu, hcovers, hpeer, -⟩ := hnode c q hq
    simp [hlongest.missing howner m hu hcovers] at hpeer
  | some peer =>
    obtain ⟨n, hu, hcovers, hpeer, hmax⟩ := hlongest.found peer howner
    have hlive := (h.shape f).tree.live_of_under (l := (table.heap f).links) (by trivial) hu
    have hsound := (h.shape f).sound n hlive
    refine (Reference.lookupUpTo_eq_some hsound.cidr_le ?_ fun c' hlt _ => ?_).symm
    · exact (h.owner f _ _ peer).mpr ⟨n, hlive, (hsound.covers_iff ip).mp hcovers, rfl, hpeer⟩
    · refine eq_none_iff_forall_ne_some.mpr fun q hq => ?_
      obtain ⟨m, hu', hcovers', hpeer', hcidr⟩ := hnode c' q hq
      have hle := hmax m hu' hcovers' (by simp [hpeer'])
      omega

theorem Represents.write (h : table.Represents ref) {heap : Heap P f} {ref' : Reference P}
    (hshape : heap.Shape) (hlisted : heap.Listed) (hapart : (table.heap f).Apart heap)
    (hother : ∀ g a c, g ≠ f → ref' ⟨g, a, c⟩ = ref ⟨g, a, c⟩)
    (howner : ∀ a c q, ref' ⟨f, a, c⟩ = some q ↔ heap.Owns a c q) (hfull : heap.Full) :
    (table.write heap).Represents ref' := by
  have hself : (table.write heap).heap f = heap := by
    simp [AllowedIPs.heap, AllowedIPs.write]
  have hrest : ∀ g, g ≠ f → (table.write heap).heap g =
      { table.heap g with trieEntries := heap.trieEntries } := by
    intro g hg
    simp [AllowedIPs.heap, AllowedIPs.write, hg]
  refine ⟨fun g => ?_, fun g => ?_, fun g a c q => ?_, fun g => ?_⟩
  · by_cases hg : g = f
    · subst hg
      rw [hself]
      exact hshape
    · rw [hrest g hg]
      exact ⟨(h.shape g).toArranged, (h.shape g).typed⟩
  · by_cases hg : g = f
    · subst hg
      rw [hself]
      exact hlisted
    · rw [hrest g hg]
      refine ⟨fun q m => ?_, (h.listed g).elem, hlisted.nodup⟩
      exact (hapart q g m hg).trans ((h.listed g).mem q m)
  · by_cases hg : g = f
    · subst hg
      rw [hself]
      exact howner a c q
    · rw [hrest g hg, hother g a c hg]
      exact h.owner g a c q
  · by_cases hg : g = f
    · subst hg
      rw [hself]
      exact hfull
    · rw [hrest g hg]
      exact h.full g

variable [DecidableEq P]

theorem Represents.insert (h : table.Represents ref) (pre : Prefix) (peer : P) :
    ∃ table', table.insert pre peer = some table' ∧ table'.Represents (ref.insert pre peer) := by
  obtain ⟨heap, hrun, hi⟩ := Heap.insert_spec (h.shape pre.family) (h.listed pre.family) pre.valid
    pre.addr peer
  refine ⟨table.write heap, by simp [AllowedIPs.insert, hrun],
    h.write hi.shape hi.listed hi.apart ?_ ?_ (hi.full (h.full pre.family))⟩
  · intro g a c hg
    exact update_of_ne (Network.ne_of_family hg) _ _
  · intro a c q
    rw [hi.owns]
    by_cases hkey : a = mask pre.addr pre.bits ∧ c = pre.bits
    · obtain ⟨rfl, rfl⟩ := hkey
      have hself : ref.insert pre peer ⟨pre.family, mask pre.addr pre.bits, pre.bits⟩ = some peer :=
        update_self _ _ _
      rw [hself, if_pos ⟨rfl, rfl⟩, Option.some.injEq, eq_comm]
    · have hne : (⟨pre.family, a, c⟩ : Network) ≠ pre.masked := by
        simpa [Prefix.masked] using hkey
      have hold : ref.insert pre peer ⟨pre.family, a, c⟩ = ref ⟨pre.family, a, c⟩ :=
        update_of_ne hne _ _
      rw [hold, if_neg hkey, h.owner]

theorem Represents.removeNode (h : table.Represents ref) {n : NodeId}
    (hn : (table.heap f).links.Live n) :
    ∃ heap, (table.heap f).remove n = some heap ∧ (table.heap f).Left heap n ∧
      (table.write heap).Represents (update ref
        ⟨f, ((table.heap f).site n).bits, ((table.heap f).site n).cidr⟩ none) := by
  obtain ⟨heap, hrun, hleft⟩ := Heap.remove_spec (h.shape f) (h.listed f) hn
  refine ⟨heap, hrun, hleft,
    h.write hleft.shape (hleft.listed (h.listed f)) hleft.apart ?_ ?_ (hleft.full (h.full f))⟩
  · intro g a c hg
    exact update_of_ne (Network.ne_of_family hg) _ _
  · intro a c q
    rw [hleft.owns (h.shape f) hn]
    by_cases hkey : a = ((table.heap f).site n).bits ∧ c = ((table.heap f).site n).cidr
    · obtain ⟨rfl, rfl⟩ := hkey
      simp
    · have hne : (⟨f, a, c⟩ : Network) ≠
          ⟨f, ((table.heap f).site n).bits, ((table.heap f).site n).cidr⟩ := by
        simpa using hkey
      rw [update_of_ne hne, h.owner]
      exact ⟨fun hq => ⟨hkey, hq⟩, fun hq => hq.2⟩

theorem Represents.remove (h : table.Represents ref) (pre : Prefix) (peer : P) :
    ∃ table', table.remove pre peer = some table' ∧ table'.Represents (ref.remove pre peer) := by
  obtain ⟨n, hplaced, hn, hcidr, hcovers⟩ | ⟨stop, hplaced, -, hnone⟩ :=
    Heap.nodePlacement_spec (h.shape pre.family) pre.addr pre.valid
  · have hbits : ((table.heap pre.family).site n).bits = mask pre.addr pre.bits := by
      rw [← hcidr]
      exact (((h.shape pre.family).sound n hn).covers_iff pre.addr).mp hcovers
    have hmasked : pre.masked = ⟨pre.family, ((table.heap pre.family).site n).bits,
        ((table.heap pre.family).site n).cidr⟩ := by
      rw [hbits, hcidr]
      rfl
    have howned : ref pre.masked = some peer ↔
        ((table.heap pre.family).nodes n).peer = some peer := by
      rw [hmasked, h.owner]
      constructor
      · rintro ⟨m, hm, hmbits, hmcidr, hpeer⟩
        obtain rfl := (h.shape pre.family).unique hn hm hmcidr hmbits
        exact hpeer
      · exact fun hpeer => ⟨n, hn, rfl, rfl, hpeer⟩
    by_cases hpeer : ref pre.masked = some peer
    · obtain ⟨heap, hrun, -, hr⟩ := h.removeNode hn
      rw [← hmasked] at hr
      refine ⟨table.write heap, ?_, ?_⟩
      · simp [AllowedIPs.remove, hplaced, howned.mp hpeer, hrun]
      · rw [Reference.remove, if_pos hpeer]
        exact hr
    · refine ⟨table, ?_, ?_⟩
      · simp [AllowedIPs.remove, hplaced, mt howned.mpr hpeer]
      · rw [Reference.remove, if_neg hpeer]
        exact h
  · have hpeer : ref pre.masked ≠ some peer := by
      intro hq
      obtain ⟨m, hm, hbits, hcidr, -⟩ := (h.owner pre.family _ _ peer).mp hq
      refine hnone m hm ⟨hcidr, ?_⟩
      rw [((h.shape pre.family).sound m hm).covers_iff, hbits, hcidr]
    refine ⟨table, ?_, ?_⟩
    · cases stop <;> simp [AllowedIPs.remove, hplaced, Heap.owner]
    · rw [Reference.remove, if_neg hpeer]
      exact h

theorem Represents.removeByPeer_nil (h : table.Represents ref) {peer : P}
    (hnil : table.trieEntries peer = []) : table.Represents (ref.removeByPeer peer) := by
  have hsame : ref.removeByPeer peer = ref := by
    funext network
    refine if_neg fun hq => ?_
    obtain ⟨n, hn, -, -, hpeer⟩ := (h.owner network.family _ _ peer).mp hq
    have hmem := ((h.listed network.family).mem peer n).mpr ⟨hn, hpeer⟩
    change (network.family, n) ∈ table.trieEntries peer at hmem
    simp [hnil] at hmem
  rw [hsame]
  exact h

-- The loop always stands at the head of the list, which loses just that entry.
theorem Represents.removeByPeerLoop (peer : P) (fuel : Nat) (table : AllowedIPs P)
    (ref : Reference P) (h : table.Represents ref)
    (hfuel : (table.trieEntries peer).length ≤ fuel) :
    ∃ table', AllowedIPs.removeByPeerLoop peer fuel table (table.trieEntries peer).head? =
      some table' ∧ table'.Represents (ref.removeByPeer peer) := by
  induction fuel generalizing table ref with
  | zero =>
    have hnil := List.length_eq_zero_iff.mp (Nat.le_zero.mp hfuel)
    exact ⟨table, by simp [hnil, AllowedIPs.removeByPeerLoop], h.removeByPeer_nil hnil⟩
  | succ fuel ih =>
    cases hlist : table.trieEntries peer with
    | nil => exact ⟨table, by simp [AllowedIPs.removeByPeerLoop], h.removeByPeer_nil hlist⟩
    | cons elem rest =>
      obtain ⟨g, n⟩ := elem
      have hmem : (g, n) ∈ (table.heap g).trieEntries peer := by
        change (g, n) ∈ table.trieEntries peer
        simp [hlist]
      obtain ⟨hn, hpeer⟩ := ((h.listed g).mem peer n).mp hmem
      obtain ⟨heap, hrun, hleft, hr⟩ := h.removeNode hn
      have hentries : (table.write heap).trieEntries peer = rest := by
        have herase := hleft.trieEntries peer
        change heap.trieEntries peer = (table.trieEntries peer).erase (g, n) at herase
        rw [hlist, List.erase_cons_head] at herase
        exact herase
      obtain ⟨table', hloop, h'⟩ := ih (table.write heap) _ hr (by
        rw [hentries]
        simpa [hlist] using hfuel)
      refine ⟨table', ?_, ?_⟩
      · rw [hentries] at hloop
        simp [AllowedIPs.removeByPeerLoop, hlist, hrun, hloop]
      · have howned : ref ⟨g, ((table.heap g).site n).bits, ((table.heap g).site n).cidr⟩ =
            some peer := (h.owner g _ _ peer).mpr ⟨n, hn, rfl, rfl, hpeer⟩
        rw [Reference.removeByPeer_update howned] at h'
        exact h'

theorem Represents.removeByPeer (h : table.Represents ref) (peer : P) :
    ∃ table', table.removeByPeer peer = some table' ∧
      table'.Represents (ref.removeByPeer peer) :=
  Represents.removeByPeerLoop peer _ table ref h (Nat.le_refl _)

theorem Represents.call (h : table.Represents ref) (c : Call P) :
    ∃ table', table.call c = some table' ∧ table'.Represents (ref.call c) := by
  cases c with
  | insert pre peer => exact h.insert pre peer
  | remove pre peer => exact h.remove pre peer
  | removeByPeer peer => exact h.removeByPeer peer

theorem Represents.replay (calls : List (Call P)) (h : table.Represents ref) :
    ∃ table', table.replay calls = some table' ∧
      table'.Represents (calls.foldl Reference.call ref) := by
  induction calls generalizing table ref with
  | nil => exact ⟨table, rfl, h⟩
  | cons c calls ih =>
    obtain ⟨table1, hcall, h1⟩ := h.call c
    obtain ⟨table', hrun, h'⟩ := ih h1
    exact ⟨table', by simpa [AllowedIPs.replay, hcall] using hrun, h'⟩

omit [DecidableEq P] in
theorem represents_empty : ({} : AllowedIPs P).Represents fun _ => none := by
  have hdead : ∀ f n, ¬(({} : AllowedIPs P).heap f).links.Live n := fun f n hn => hn rfl
  refine ⟨fun f => ⟨⟨⟨?_, ?_, ?_⟩, ?_, ?_⟩, ?_⟩, fun f => ⟨?_, ?_, ?_⟩, ?_,
    fun f n hn => absurd hn (hdead f n)⟩
  · intro place m _ hm
    cases place <;> simp [AllowedIPs.heap, Heap.links, Pointers.Links.content] at hm
  · intro place m hm
    exact absurd (Pointers.Links.live_of_up hm) (hdead f m)
  · exact fun n _ _ hn => absurd hn (hdead f n)
  · exact fun n hn => absurd hn (hdead f n)
  · exact fun n hn => absurd hn (hdead f n)
  · exact fun n place hn => absurd (Pointers.Links.live_of_up hn) (hdead f n)
  · intro peer n
    constructor
    · intro hm
      simp [AllowedIPs.heap] at hm
    · exact fun hn => absurd hn.1 (hdead f n)
  · exact fun n hn => absurd hn (hdead f n)
  · intro peer
    exact List.nodup_nil
  · intro f a c q
    constructor
    · intro hq
      simp at hq
    · rintro ⟨n, hn, -⟩
      exact absurd hn (hdead f n)

-- The trie answers as the map from networks to peers.
theorem lookup_longest_match (calls : List (Call P)) :
    ∃ table, AllowedIPs.replay {} calls = some table ∧
      ∀ (f : Family) (ip : Address f),
        table.lookup ip = some ((Reference.replay calls).lookup ip) := by
  obtain ⟨table, hrun, h⟩ := Represents.replay calls represents_empty
  exact ⟨table, hrun, fun _ ip => h.lookup ip⟩

end AllowedIPs

section

open Pointers (Place)

structure Heap.WellFormed (heap : Heap P f) : Prop where
  child : ∀ n b m, heap.links.Under .root n → (heap.nodes n).child b = some m →
    (heap.nodes n).site.Below b (heap.nodes m).site
  masked : ∀ n, heap.links.Under .root n →
    mask (heap.nodes n).bits (heap.nodes n).cidr = (heap.nodes n).bits
  joins : ∀ n, heap.links.Under .root n → (heap.nodes n).peer = none →
    ∀ b, (heap.nodes n).child b ≠ none
  top : ∀ m, heap.root = some m → (heap.nodes m).parent = ⟨some .root, 2⟩
  parent : ∀ n b m, heap.links.Under .root n → (heap.nodes n).child b = some m →
    (heap.nodes m).parent = ⟨some (.child n b), b.toNat⟩

def AllowedIPs.Owned (table : AllowedIPs P) (peer : P) (network : Network) : Prop :=
  ∃ n, (table.heap network.family).links.Under .root n ∧
    ((table.heap network.family).nodes n).bits = network.bits ∧
    ((table.heap network.family).nodes n).cidr = network.cidr ∧
    ((table.heap network.family).nodes n).peer = some peer

structure AllowedIPs.WellFormed (table : AllowedIPs P) : Prop where
  tries : ∀ f, (table.heap f).WellFormed
  once : ∀ peer, (table.entriesForPeer peer).Nodup
  entries : ∀ peer network, network ∈ table.entriesForPeer peer ↔ table.Owned peer network
  empty : ∀ f, (∀ peer, ∀ network ∈ table.entriesForPeer peer, network.family ≠ f) →
    (table.heap f).root = none

theorem Heap.wellFormed {heap : Heap P f} (h : heap.Shape) (hfull : heap.Full) :
    heap.WellFormed := by
  have hlive : ∀ n, heap.links.Under .root n → heap.links.Live n := fun n hu =>
    h.tree.live_of_under (l := heap.links) (by trivial) hu
  refine ⟨fun n b m hn hm => h.tree.below n b m (hlive n hn) hm, fun n hn => ?_, fun n hn hpeer => ?_,
    fun m hm => ?_, fun n b m hn hm => ?_⟩
  · exact (h.sound n (hlive n hn)).masked
  · exact hfull n (hlive n hn) hpeer
  · exact parent_eq h.typed (h.tree.up_of_content .root m trivial hm)
  · exact parent_eq h.typed (h.tree.up_of_content (.child n b) m (hlive n hn) hm)

namespace AllowedIPs

variable {table : AllowedIPs P} {ref : Reference P}

theorem Represents.owned_iff (h : table.Represents ref) (peer : P) (network : Network) :
    table.Owned peer network ↔ ref network = some peer := by
  rw [h.owner network.family network.bits network.cidr peer]
  constructor
  · rintro ⟨n, hn, howns⟩
    exact ⟨n, (h.shape network.family).tree.live_of_under (by trivial) hn, howns⟩
  · rintro ⟨n, hn, howns⟩
    exact ⟨n, (h.shape network.family).under_root hn, howns⟩

theorem Represents.entriesForPeer_nodup (h : table.Represents ref) (peer : P) :
    (table.entriesForPeer peer).Nodup := by
  refine List.Nodup.map_on ?_ ((h.listed .ipv4).nodup peer)
  rintro ⟨g, n⟩ hn ⟨g', m⟩ hm heq
  obtain ⟨rfl, hbits, hcidr⟩ := Network.mk.inj heq
  obtain ⟨hn, -⟩ := ((h.listed g).mem peer n).mp hn
  obtain ⟨hm, -⟩ := ((h.listed g).mem peer m).mp hm
  rw [(h.shape g).unique hn hm hcidr.symm (eq_of_heq hbits).symm]

theorem Represents.root_eq_none (h : table.Represents ref) {f : Family}
    (hnone : ∀ peer, ∀ network ∈ table.entriesForPeer peer, network.family ≠ f) :
    (table.heap f).root = none := by
  refine (h.shape f).tree.root_eq_none Below.rank (fun n hn => ((h.shape f).sound n hn).cidr_le)
    (h.full f) fun n hn => eq_none_iff_forall_ne_some.mpr fun peer hpeer => ?_
  have howner := (h.owner f _ _ peer).mpr ⟨n, hn, rfl, rfl, hpeer⟩
  exact hnone peer _ ((h.mem_entriesForPeer peer _).mpr howner) rfl

theorem Represents.wellFormed (h : table.Represents ref) : table.WellFormed where
  tries f := Heap.wellFormed (h.shape f) (h.full f)
  once := h.entriesForPeer_nodup
  entries peer network := (h.mem_entriesForPeer peer network).trans (h.owned_iff peer network).symm
  empty _ hnone := h.root_eq_none hnone

variable [DecidableEq P]

-- No call panics.
theorem replay_wellFormed (calls : List (Call P)) :
    ∃ table, AllowedIPs.replay {} calls = some table ∧ table.WellFormed ∧
      ∀ peer network, network ∈ table.entriesForPeer peer ↔
        Reference.replay calls network = some peer := by
  obtain ⟨table, hrun, h⟩ := Represents.replay calls represents_empty
  exact ⟨table, hrun, h.wellFormed, h.mem_entriesForPeer⟩

end AllowedIPs

end

end StarlingWg.Routing
