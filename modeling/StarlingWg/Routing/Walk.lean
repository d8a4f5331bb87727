import StarlingWg.Routing.Shape

namespace StarlingWg.Routing.Heap

open Pointers (Place Links)

variable {P : Type} {f : Family} {heap : Heap P f} {place : Place NodeId} {n m : NodeId}
  {ip : Address f} {cidr : Nat}

def owner : Place NodeId → Option NodeId
  | .root => none
  | .child n _ => some n

theorem Shape.le_commonBits_iff (h : heap.Shape) (hn : heap.links.Live n) :
    (heap.nodes n).cidr ≤ commonBits (heap.nodes n).bits ip ↔ (heap.site n).Covers ip :=
  Routing.le_commonBits_iff _ _ (h.sound n hn).cidr_le

theorem Shape.choose_eq (h : heap.Shape) (hn : heap.links.Live n)
    (hlt : (heap.site n).cidr < f.width) :
    (heap.nodes n).choose ip = some (ip.getMsbD (heap.site n).cidr) :=
  Routing.choose_eq ip (h.sound n hn).bitAtByte (h.sound n hn).bitAtShift hlt

-- Of the nodes below a place, those whose prefix contains an address are the
-- first one or lie below the child that is chosen for the address.
theorem Shape.under_cases (h : heap.Shape) (hplace : heap.links.Valid place)
    (hn : heap.links.content place = some n) (hm : heap.links.Under place m)
    (hcovers : (heap.site m).Covers ip) :
    m = n ∨ ((heap.site n).Covers ip ∧ (heap.site n).cidr < (heap.site m).cidr ∧
      heap.links.Under (.child n (ip.getMsbD (heap.site n).cidr)) m) := by
  have hlive := h.tree.live_of_content hplace hn
  cases hm with
  | here hm => exact .inl (Option.some.inj (hm.symm.trans hn))
  | step hk hu =>
    obtain rfl := Option.some.inj (hk.symm.trans hn)
    have hbelow := h.below_of_under hlive hu
    refine .inr ⟨hbelow.covers_of_covers hcovers, hbelow.cidr_lt, ?_⟩
    rw [hbelow.bit_of_covers hcovers]
    exact hu

theorem Shape.unique_under (h : heap.Shape) (place : Place NodeId) (hplace : heap.links.Valid place)
    (hn : heap.links.Under place n) (hm : heap.links.Under place m)
    (hcidr : (heap.site m).cidr = (heap.site n).cidr)
    (hbits : (heap.site m).bits = (heap.site n).bits) : m = n := by
  have hself : (heap.site m).Covers (heap.site n).bits := fun i _ => by rw [hbits]
  induction hn with
  | here hn =>
    obtain he | ⟨-, hlt, -⟩ := h.under_cases hplace hn hm hself
    · exact he
    · omega
  | @step _ k n b hk hu ih =>
    have hlive := h.tree.live_of_content hplace hk
    have hbelow := h.below_of_under hlive hu
    have hlt := hbelow.cidr_lt
    obtain rfl | ⟨-, -, hm⟩ := h.under_cases hplace hk hm hself
    · omega
    · rw [hbelow.bit] at hm
      exact ih hlive hm hcidr hbits hself

theorem Shape.unique (h : heap.Shape) (hn : heap.links.Live n) (hm : heap.links.Live m)
    (hcidr : (heap.site m).cidr = (heap.site n).cidr)
    (hbits : (heap.site m).bits = (heap.site n).bits) : m = n :=
  h.unique_under .root trivial (h.under_root hn) (h.under_root hm) hcidr hbits

def Toward (heap : Heap P f) (ip : Address f) (cidr : Nat) (place : Place NodeId) : Prop :=
  ∀ n b, place = .child n b → (heap.site n).cidr < cidr ∧ (heap.site n).Covers ip ∧
    ip.getMsbD (heap.site n).cidr = b

-- Where the walk toward a prefix ends that no node has.
structure Stop (heap : Heap P f) (ip : Address f) (cidr : Nat) (place : Place NodeId) : Prop where
  valid : heap.links.Valid place
  toward : heap.Toward ip cidr place
  next : ∀ d, heap.links.content place = some d →
    ¬((heap.site d).cidr ≤ cidr ∧ (heap.site d).Covers ip)

def Has (heap : Heap P f) (ip : Address f) (cidr : Nat) (n : NodeId) : Prop :=
  (heap.site n).cidr = cidr ∧ (heap.site n).Covers ip

def Placed (heap : Heap P f) (ip : Address f) (cidr : Nat) (place : Place NodeId)
    (result : Option (Option NodeId × Bool)) : Prop :=
  (∃ n, result = some (some n, true) ∧ heap.links.Live n ∧ heap.Has ip cidr n) ∨
  ∃ stop, result = some (owner stop, false) ∧ heap.Stop ip cidr stop ∧
    ∀ m, heap.links.Under place m → ¬heap.Has ip cidr m

theorem not_under_of_none (hnone : heap.links.content place = none) :
    ¬heap.links.Under place m := by
  intro hu
  cases hu with
  | here hm => simp [hnone] at hm
  | step hk _ => simp [hnone] at hk

-- One more unit of fuel than the bits that can still be looked at is enough.
theorem nodePlacementLoop_spec (h : heap.Shape) (ip : Address f) (hc : cidr ≤ f.width)
    (fuel : Nat) (place : Place NodeId) (hplace : heap.links.Valid place)
    (htoward : heap.Toward ip cidr place)
    (hfuel : ∀ n, heap.links.content place = some n → f.width < fuel + (heap.site n).cidr) :
    heap.Placed ip cidr place
      (heap.nodePlacementLoop ip cidr fuel (heap.links.content place) (owner place)) := by
  induction fuel generalizing place with
  | zero =>
    cases hcontent : heap.links.content place with
    | none =>
      exact .inr ⟨place, by simp [nodePlacementLoop], ⟨hplace, htoward, by simp [hcontent]⟩,
        fun m hu => absurd hu (not_under_of_none hcontent)⟩
    | some n =>
      have hlt := hfuel n hcontent
      have hle := (h.sound n (h.tree.live_of_content hplace hcontent)).cidr_le
      omega
  | succ fuel ih =>
    cases hcontent : heap.links.content place with
    | none =>
      exact .inr ⟨place, by simp [nodePlacementLoop], ⟨hplace, htoward, by simp [hcontent]⟩,
        fun m hu => absurd hu (not_under_of_none hcontent)⟩
    | some n =>
      have hlive := h.tree.live_of_content hplace hcontent
      have hlt := hfuel n hcontent
      simp only [nodePlacementLoop]
      split
      case isTrue hmatch =>
        obtain ⟨hle, hcovers⟩ := hmatch
        rw [h.le_commonBits_iff hlive] at hcovers
        split
        case isTrue hexact => exact .inl ⟨n, rfl, hlive, hexact, hcovers⟩
        case isFalse hexact =>
          have hcidr : (heap.site n).cidr < cidr := Nat.lt_of_le_of_ne hle hexact
          simp only [h.choose_eq hlive (Nat.lt_of_lt_of_le hcidr hc), Option.bind_eq_bind,
            Option.bind_some]
          have hrest := ih (.child n (ip.getMsbD (heap.site n).cidr)) hlive
            (by rintro k b ⟨rfl, rfl⟩; exact ⟨hcidr, hcovers, rfl⟩)
            (fun m hm => by
              have := (h.tree.below n _ m hlive hm).cidr_lt
              omega)
          obtain hfound | ⟨stop, hrun, hstop, hnone⟩ := hrest
          · exact .inl hfound
          · refine .inr ⟨stop, hrun, hstop, fun m hu hm => ?_⟩
            obtain rfl | ⟨-, -, hu⟩ := h.under_cases hplace hcontent hu hm.2
            · exact hexact hm.1
            · exact hnone m hu hm
      case isFalse hmatch =>
        rw [h.le_commonBits_iff hlive] at hmatch
        refine .inr ⟨place, rfl, ⟨hplace, htoward, ?_⟩, fun m hu hm => ?_⟩
        · intro d hd
          obtain rfl := Option.some.inj (hcontent.symm.trans hd)
          exact hmatch
        · obtain rfl | ⟨hcovers, hcidr, -⟩ := h.under_cases hplace hcontent hu hm.2
          · exact hmatch ⟨Nat.le_of_eq hm.1, hm.2⟩
          · exact hmatch ⟨Nat.le_of_lt (hm.1 ▸ hcidr), hcovers⟩

theorem nodePlacement_spec (h : heap.Shape) (ip : Address f) (hc : cidr ≤ f.width) :
    (∃ n, heap.nodePlacement heap.root ip cidr = some (some n, true) ∧ heap.links.Live n ∧
      heap.Has ip cidr n) ∨
    ∃ stop, heap.nodePlacement heap.root ip cidr = some (owner stop, false) ∧
      heap.Stop ip cidr stop ∧ ∀ m, heap.links.Live m → ¬heap.Has ip cidr m := by
  have hplaced := nodePlacementLoop_spec h ip hc (f.width + 1) .root trivial
    (fun n b he => by simp at he) (fun n _ => by omega)
  obtain hfound | ⟨stop, hrun, hstop, hnone⟩ := hplaced
  · exact .inl hfound
  · exact .inr ⟨stop, hrun, hstop, fun m hm => hnone m (h.under_root hm)⟩

structure Longest (heap : Heap P f) (ip : Address f) (place : Place NodeId)
    (owner : Option P) : Prop where
  found : ∀ peer, owner = some peer → ∃ n, heap.links.Under place n ∧ (heap.site n).Covers ip ∧
    (heap.tag n).peer = some peer ∧
    ∀ m, heap.links.Under place m → (heap.site m).Covers ip → (heap.tag m).peer ≠ none →
      (heap.site m).cidr ≤ (heap.site n).cidr
  missing : owner = none → ∀ m, heap.links.Under place m → (heap.site m).Covers ip →
    (heap.tag m).peer = none

theorem Longest.empty (h : ∀ m, heap.links.Under place m → ¬(heap.site m).Covers ip) :
    heap.Longest ip place none :=
  ⟨by simp, fun _ m hu hm => absurd hm (h m hu)⟩

theorem Longest.step (h : heap.Shape) (hplace : heap.links.Valid place)
    (hn : heap.links.content place = some n) (hcovers : (heap.site n).Covers ip)
    {rest : Option P}
    (hrest : heap.Longest ip (.child n (ip.getMsbD (heap.site n).cidr)) rest) :
    heap.Longest ip place (rest.or (heap.tag n).peer) := by
  cases hr : rest with
  | none =>
    have hnone := hrest.missing hr
    refine ⟨fun peer hpeer => ⟨n, .here hn, hcovers, by simpa using hpeer, ?_⟩, ?_⟩
    · intro m hu hm hpeer
      obtain rfl | ⟨-, -, hu⟩ := h.under_cases hplace hn hu hm
      · exact Nat.le_refl _
      · exact absurd (hnone m hu hm) hpeer
    · intro hpeer m hu hm
      obtain rfl | ⟨-, -, hu⟩ := h.under_cases hplace hn hu hm
      · simpa using hpeer
      · exact hnone m hu hm
  | some peer =>
    obtain ⟨k, hk, hkcovers, hkpeer, hmax⟩ := hrest.found peer hr
    have hlt := (h.below_of_under (h.tree.live_of_content hplace hn) hk).cidr_lt
    refine ⟨fun peer' hpeer => ⟨k, .step hn hk, hkcovers, ?_, ?_⟩, by simp⟩
    · rw [hkpeer]
      simpa using hpeer
    · intro m hu hm hpeer
      obtain rfl | ⟨-, -, hu⟩ := h.under_cases hplace hn hu hm
      · exact Nat.le_of_lt hlt
      · exact hmax m hu hm hpeer

theorem lookupLoop_spec (h : heap.Shape) (ip : Address f) (fuel : Nat) (place : Place NodeId)
    (found : Option P) (hplace : heap.links.Valid place)
    (hfuel : ∀ n, heap.links.content place = some n → f.width < fuel + (heap.site n).cidr) :
    ∃ rest, heap.lookupLoop ip fuel (heap.links.content place) found = some (rest.or found) ∧
      heap.Longest ip place rest := by
  induction fuel generalizing place found with
  | zero =>
    cases hcontent : heap.links.content place with
    | none =>
      exact ⟨none, by simp [lookupLoop], .empty fun m hu => absurd hu (not_under_of_none hcontent)⟩
    | some n =>
      have hlt := hfuel n hcontent
      have hle := (h.sound n (h.tree.live_of_content hplace hcontent)).cidr_le
      omega
  | succ fuel ih =>
    cases hcontent : heap.links.content place with
    | none =>
      exact ⟨none, by simp [lookupLoop], .empty fun m hu => absurd hu (not_under_of_none hcontent)⟩
    | some n =>
      have hlive := h.tree.live_of_content hplace hcontent
      have hsound := h.sound n hlive
      have hlt := hfuel n hcontent
      have hfound : (if (heap.nodes n).peer.isSome then (heap.nodes n).peer else found) =
          (heap.tag n).peer.or found := by
        cases hp : (heap.nodes n).peer <;> simp [tag, TrieEntry.tag, hp]
      simp only [lookupLoop, hfound]
      split
      case isTrue hcovers =>
        rw [h.le_commonBits_iff hlive] at hcovers
        split
        case isTrue hfull =>
          -- A node for a whole address has nothing below it.
          have hwidth : (heap.site n).cidr = f.width := by
            have hbyte : (heap.site n).cidr / 8 = f.width / 8 := hsound.bitAtByte ▸ hfull
            have hmod : f.width % 8 = 0 := by cases f <;> rfl
            have := hsound.cidr_le
            omega
          have hempty : heap.Longest ip (.child n (ip.getMsbD (heap.site n).cidr)) none := by
            refine .empty fun m hu _ => ?_
            have hle := (h.sound m (h.live_of_under hlive hu)).cidr_le
            have hlt := (h.below_of_under hlive hu).cidr_lt
            omega
          exact ⟨_, by simp, .step h hplace hcontent hcovers hempty⟩
        case isFalse hfull =>
          have hwidth : (heap.site n).cidr < f.width := by
            refine Nat.lt_of_le_of_ne hsound.cidr_le fun he => hfull ?_
            rw [← he]
            exact hsound.bitAtByte
          simp only [h.choose_eq hlive hwidth, Option.bind_eq_bind, Option.bind_some]
          obtain ⟨rest, hrun, hrest⟩ := ih (.child n (ip.getMsbD (heap.site n).cidr))
            ((heap.tag n).peer.or found) hlive (fun m hm => by
              have := (h.tree.below n _ m hlive hm).cidr_lt
              omega)
          refine ⟨_, ?_, .step h hplace hcontent hcovers hrest⟩
          rw [Option.or_assoc]
          exact hrun
      case isFalse hcovers =>
        rw [h.le_commonBits_iff hlive] at hcovers
        refine ⟨none, by simp, .empty fun m hu hm => ?_⟩
        obtain rfl | ⟨hn, -, -⟩ := h.under_cases hplace hcontent hu hm
        · exact hcovers hm
        · exact hcovers hn

theorem lookup_spec (h : heap.Shape) (ip : Address f) :
    ∃ owner, heap.lookup ip = some owner ∧ heap.Longest ip .root owner := by
  obtain ⟨owner, hrun, howner⟩ := lookupLoop_spec h ip (f.width + 1) .root none
    trivial (fun n _ => by omega)
  rw [Option.or_none] at hrun
  exact ⟨owner, hrun, howner⟩

end StarlingWg.Routing.Heap
