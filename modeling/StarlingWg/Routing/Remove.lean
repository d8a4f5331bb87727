import StarlingWg.Routing.Insert

namespace StarlingWg.Routing.Heap

open Function Option
open Pointers (Place Links)

variable {P : Type} {f : Family} {heap heap1 heap' : Heap P f} {place : Place NodeId} {n : NodeId}

-- A place has got another node, and everything but pointers is as it was.
structure Moved (heap heap' : Heap P f) (place : Place NodeId) (child : Option NodeId) : Prop where
  links : heap'.links = (heap.links.rehang child place).put place child
  site : heap'.site = heap.site
  tag : heap'.tag = heap.tag
  allocated : heap'.allocated = heap.allocated
  trieEntries : heap'.trieEntries = heap.trieEntries
  typed : heap'.Typed

theorem store_allocated (value : Option NodeId) :
    (heap.store place value).allocated = heap.allocated := by
  cases place <;> rfl

theorem store_trieEntries (value : Option NodeId) :
    (heap.store place value).trieEntries = heap.trieEntries := by
  cases place <;> rfl

theorem parent_eq (ht : heap.Typed) (hup : heap.links.up n = some place) :
    (heap.nodes n).parent = ⟨some place, placeType place⟩ := by
  have hbit : (heap.nodes n).parent.parentBit = some place := hup
  rw [← hbit, ← ht n place hup]

theorem replace_spec (ht : heap.Typed) (place : Place NodeId) (child : Option NodeId) :
    ∃ heap', heap.replace ⟨some place, placeType place⟩ child = some heap' ∧
      heap.Moved heap' place child := by
  cases child with
  | none =>
    refine ⟨_, rfl, ?_, ?_, ?_, store_allocated _, store_trieEntries _, ht.store _ _⟩
    · exact links_store _ _ _
    · exact site_store _ _ _
    · exact tag_store _ _ _
  | some m =>
    refine ⟨_, rfl, ?_, ?_, ?_, store_allocated _, store_trieEntries _,
      (ht.setParent m place).store _ _⟩
    · rw [links_store, links_setParent]
      rfl
    · rw [site_store, site_setParent]
    · rw [tag_store, tag_setParent]

-- A node has lost its owner; it may have left the trie, and so may a node
-- without an owner.
structure Left (heap heap' : Heap P f) (n : NodeId) : Prop where
  shape : heap'.Shape
  live : ∀ m, heap'.links.Live m → heap.links.Live m
  kept : ∀ m, heap.links.Live m → m ≠ n → (heap.tag m).peer ≠ none → heap'.links.Live m
  site : heap'.site = heap.site
  tag_self : heap'.links.Live n → heap'.tag n = ⟨none, false⟩
  tag_other : ∀ m, heap'.links.Live m → m ≠ n → heap'.tag m = heap.tag m
  trieEntries : ∀ q, heap'.trieEntries q = (heap.trieEntries q).erase (f, n)
  full : heap.Full → heap'.Full

structure Disowned (heap heap1 : Heap P f) (n : NodeId) : Prop where
  links : heap1.links = heap.links
  site : heap1.site = heap.site
  tag : heap1.tag = update heap.tag n ⟨none, false⟩
  allocated : heap1.allocated = heap.allocated
  trieEntries : ∀ q, heap1.trieEntries q = (heap.trieEntries q).erase (f, n)
  typed : heap1.Typed

theorem disown_spec [DecidableEq P] (h : heap.Shape) (hl : heap.Listed) (hn : heap.links.Live n) :
    ∃ heapA, heap.removeFromPeerEntries n = some heapA ∧
      heap.Disowned (heapA.setPeer n none) n := by
  obtain ⟨heapA, hrun, hA, hentries⟩ := hl.removeFromPeerEntries hn
  refine ⟨heapA, hrun, ?_, ?_, ?_, hA.allocated, hentries, (hA.typed h.typed).setPeer n none⟩
  · rw [links_setPeer, hA.links]
  · rw [site_setPeer, hA.site]
  · rw [tag_setPeer, hA.tag, update_idem, update_self]

theorem Disowned.left (h : heap.Shape) (hd : heap.Disowned heap1 n)
    (hboth : ∀ b, heap.links.down n b ≠ none) : heap.Left heap1 n := by
  refine ⟨⟨?_, hd.typed⟩, ?_, ?_, hd.site, ?_, ?_, hd.trieEntries, ?_⟩
  · rw [hd.links, hd.site, hd.allocated]
    exact h.toArranged
  · exact fun m hm => hd.links ▸ hm
  · exact fun m hm _ _ => hd.links ▸ hm
  · intro _
    rw [hd.tag, update_self]
  · intro m _ hm
    rw [hd.tag, update_of_ne hm]
  · intro hfull m hm hbare
    rw [hd.links] at hm ⊢
    by_cases hmn : m = n
    · exact hmn ▸ hboth
    · rw [hd.tag, update_of_ne hmn] at hbare
      exact hfull m hm hbare

section

variable {p : NodeId} {b : Bool} (h : heap.Shape) (hup : heap.links.up n = some (.child p b))

include h hup

theorem Shape.parent_live : heap.links.Live p :=
  (h.tree.content_of_up _ n hup).1

theorem Shape.parent_ne : p ≠ n := by
  rintro rfl
  obtain ⟨hp, hdown⟩ := h.tree.content_of_up _ p hup
  exact h.tree.down_ne Below.rank hp hdown rfl

end

section

variable {child : Option NodeId} (h : heap.Shape) (hd : heap.Disowned heap1 n)
  (hup : heap.links.up n = some place)
  (hchild : ∀ m, child = some m ↔ ∃ b, heap.links.down n b = some m)

include h hd hup hchild

theorem Disowned.left_bypass {heap2 : Heap P f} (hm : heap1.Moved heap2 place child)
    (hparent : ∀ p b, place = .child p b → (heap.tag p).peer = none → child ≠ none) :
    heap.Left (heap2.zeroizePointers n) n := by
  have hlinks : (heap2.zeroizePointers n).links = heap.links.bypass place n child := by
    rw [links_zeroizePointers, hm.links, hd.links]
    exact Links.put_bypass
  have hlive : ∀ m, (heap2.zeroizePointers n).links.Live m ↔ m ≠ n ∧ heap.links.Live m := by
    intro m
    rw [hlinks]
    exact h.tree.bypass_live Below.rank hup hchild
  have htag : ∀ m, m ≠ n → (heap2.zeroizePointers n).tag m = heap.tag m := by
    intro m hne
    rw [tag_zeroizePointers, update_of_ne hne, hm.tag, hd.tag, update_of_ne hne]
  refine ⟨⟨?_, hm.typed.zeroizePointers n⟩, ?_, ?_, ?_, ?_, fun m _ => htag m, ?_, fun hfull => ?_⟩
  · have hbound : (heap2.zeroizePointers n).allocated = heap.allocated :=
      hm.allocated.trans hd.allocated
    rw [hlinks, site_zeroizePointers, hm.site, hd.site, hbound]
    exact h.bypass hup hchild
  · exact fun m hm => ((hlive m).mp hm).2
  · exact fun m hm hne _ => (hlive m).mpr ⟨hne, hm⟩
  · rw [site_zeroizePointers, hm.site, hd.site]
  · exact fun hn => absurd rfl ((hlive n).mp hn).1
  · intro q
    exact (congrFun hm.trieEntries q).trans (hd.trieEntries q)
  · rw [Full, hlinks]
    refine h.tree.bypass_full Below.rank hup hchild hfull ?_ fun m hne _ hbare => ?_
    · intro p b hp hbare
      subst hp
      rw [htag p (h.parent_ne hup)] at hbare
      exact hparent p b rfl hbare
    · rwa [htag m hne] at hbare

end

section

variable {p : NodeId} {b : Bool} (h : heap.Shape) (hd : heap.Disowned heap1 n)
  (hup : heap.links.up n = some (.child p b)) (hleaf : ∀ b', heap.links.down n b' = none)

include hleaf in
theorem leaf_child (m : NodeId) :
    (none : Option NodeId) = some m ↔ ∃ b', heap.links.down n b' = some m := by
  simp [hleaf]

include h hd hup hleaf

theorem Disowned.left_twice {heap2 heap3 : Heap P f} (hup' : heap.links.up p = some place)
    (hpeer : (heap.tag p).peer = none) (hm : heap1.Moved heap2 (.child p b) none)
    (hm' : heap2.Moved heap3 place (heap.links.down p (!b))) :
    heap.Left ((heap3.zeroizePointers n).zeroizePointers p) n := by
  have hp := h.parent_live hup
  have hpn := h.parent_ne hup
  have hdown : heap.links.down p b = some n := (h.tree.content_of_up _ n hup).2
  have hnotOf : Links.NotOf place n := by
    rintro b' rfl
    have hself := (h.tree.content_of_up _ p hup').2
    simp [Links.content, hleaf] at hself
  have hother : heap.links.down p (!b) ≠ some n := by
    intro hn
    have hvalid : heap.links.Valid (.child p b) := hp
    have hvalid' : heap.links.Valid (.child p (!b)) := hp
    have hsame := h.tree.place_unique hvalid hvalid' hdown hn
    simp at hsame
  have hlinks : ((heap3.zeroizePointers n).zeroizePointers p).links =
      (heap.links.bypass (.child p b) n none).bypass place p (heap.links.down p (!b)) := by
    rw [links_zeroizePointers, links_zeroizePointers, hm'.links, hm.links, hd.links]
    exact Links.put_bypass_twice hnotOf hother
  have hfirst := h.bypass hup (leaf_child hleaf)
  have hup1 : (heap.links.bypass (.child p b) n none).up p = some place := by
    rw [Links.bypass_up_other hpn (by simp), hup']
  have hchild1 : ∀ m, heap.links.down p (!b) = some m ↔
      ∃ b', (heap.links.bypass (.child p b) n none).down p b' = some m := by
    intro m
    cases b <;> simp [Links.bypass, hpn]
  have hlive : ∀ m, ((heap3.zeroizePointers n).zeroizePointers p).links.Live m ↔
      m ≠ p ∧ m ≠ n ∧ heap.links.Live m := by
    intro m
    rw [hlinks, hfirst.tree.bypass_live Below.rank hup1 hchild1,
      h.tree.bypass_live Below.rank hup (leaf_child hleaf)]
  have hsite : ((heap3.zeroizePointers n).zeroizePointers p).site = heap.site := by
    rw [site_zeroizePointers, site_zeroizePointers, hm'.site, hm.site, hd.site]
  have htag : ∀ m, m ≠ p → m ≠ n →
      ((heap3.zeroizePointers n).zeroizePointers p).tag m = heap.tag m := by
    intro m hmp hne
    rw [tag_zeroizePointers, update_of_ne hmp, tag_zeroizePointers,
      update_of_ne hne, hm'.tag, hm.tag, hd.tag, update_of_ne hne]
  refine ⟨⟨?_, (hm'.typed.zeroizePointers n).zeroizePointers p⟩, ?_, ?_, hsite, ?_, ?_, ?_,
    fun hfull m hlivem hbare => ?_⟩
  · have hbound : ((heap3.zeroizePointers n).zeroizePointers p).allocated = heap.allocated :=
      hm'.allocated.trans (hm.allocated.trans hd.allocated)
    rw [hlinks, hsite, hbound]
    exact hfirst.bypass hup1 hchild1
  · exact fun m hm => ((hlive m).mp hm).2.2
  · intro m hm hne howned
    refine (hlive m).mpr ⟨?_, hne, hm⟩
    rintro rfl
    exact howned hpeer
  · exact fun hn => absurd rfl ((hlive n).mp hn).2.1
  · exact fun m hlivem hne => htag m ((hlive m).mp hlivem).1 hne
  · intro q
    exact (congrFun hm'.trieEntries q).trans ((congrFun hm.trieEntries q).trans (hd.trieEntries q))
  · -- the other child of the parent is there, as the parent has no owner
    obtain ⟨hmp, hmn, hm⟩ := (hlive m).mp hlivem
    have hpeerm : (heap.tag m).peer = none := (congrArg Tag.peer (htag m hmp hmn)).symm.trans hbare
    have hold := hfull m hm hpeerm
    rw [hlinks]
    intro c
    have hsibling := hfull p hp hpeer (!b)
    simp only [Links.bypass, hmp, hmn, if_false]
    split
    · exact hsibling
    split
    · next hplace => exact absurd (Place.child.inj hplace).1 hmp
    · exact hold c

theorem removeLeaf_spec {heap2 : Heap P f} (hm : heap1.Moved heap2 (.child p b) none) :
    ∃ heap', heap2.removeLeaf n = some heap' ∧ heap.Left heap' n := by
  have hpn := h.parent_ne hup
  obtain ⟨place, hup'⟩ := ne_none_iff_exists'.mp (h.parent_live hup)
  have hups : ∀ m, heap2.links.up m = heap.links.up m := by
    intro m
    rw [hm.links, hd.links]
    rfl
  have hparent : (heap2.nodes n).parent = ⟨some (.child p b), b.toNat⟩ :=
    parent_eq hm.typed ((hups n).trans hup)
  have hparent' : (heap2.nodes p).parent = ⟨some place, placeType place⟩ :=
    parent_eq hm.typed ((hups p).trans hup')
  have hsibling : (heap2.nodes p).child (b.toNat ^^^ 1 == 1) = heap.links.down p (!b) := by
    have hbit : (b.toNat ^^^ 1 == 1) = !b := by cases b <;> rfl
    have hput : heap2.links.down p (!b) = heap.links.down p (!b) := by
      rw [hm.links, hd.links]
      simp [Links.put]
    rw [hbit]
    exact hput
  have hpeer : (heap2.nodes p).peer = (heap.tag p).peer := by
    have htag : heap2.tag p = heap.tag p := by rw [hm.tag, hd.tag, update_of_ne hpn]
    exact congrArg Tag.peer htag
  simp only [removeLeaf, hparent, container, if_true, bind_eq_bind, bind_some, hpeer]
  split
  case isTrue howned =>
    refine ⟨_, rfl, hd.left_bypass h hup (leaf_child hleaf) hm ?_⟩
    intro p' b' hp hbare
    obtain ⟨rfl, -⟩ := Place.child.inj hp
    simp [hbare] at howned
  case isFalse howned =>
    obtain ⟨heap3, hreplace, hm'⟩ := replace_spec hm.typed place (heap.links.down p (!b))
    simp only [hparent', hsibling, hreplace, bind_some]
    exact ⟨_, rfl, hd.left_twice h hup hleaf hup' (by simpa using howned) hm hm'⟩

end

theorem only_child (hnot : ¬((heap.links.down n false).isSome ∧ (heap.links.down n true).isSome))
    (m : NodeId) : heap.links.down n (heap.links.down n false).isNone = some m ↔
      ∃ b, heap.links.down n b = some m := by
  cases h0 : heap.links.down n false with
  | none => simp [h0]
  | some k =>
    have h1 : heap.links.down n true = none := by simpa [h0] using hnot
    simp [h0, h1]

theorem remove_spec [DecidableEq P] (h : heap.Shape) (hl : heap.Listed)
    (hn : heap.links.Live n) : ∃ heap', heap.remove n = some heap' ∧ heap.Left heap' n := by
  obtain ⟨heapA, hrun, hd⟩ := disown_spec h hl hn
  obtain ⟨place, hup⟩ := ne_none_iff_exists'.mp hn
  simp only [remove, hrun, bind_eq_bind, bind_some]
  generalize heapA.setPeer n none = heap1 at *
  have hdown : ∀ b, (heap1.nodes n).child b = heap.links.down n b := fun b =>
    congrFun (congrFun (congrArg Links.down hd.links) n) b
  have hparent : (heap1.nodes n).parent = ⟨some place, placeType place⟩ :=
    parent_eq hd.typed (hd.links ▸ hup)
  simp only [hdown, hparent]
  split
  case isTrue hboth =>
    refine ⟨heap1, rfl, hd.left h fun b => ?_⟩
    cases b with
    | false => exact isSome_iff_ne_none.mp hboth.1
    | true => exact isSome_iff_ne_none.mp hboth.2
  case isFalse hnot =>
    have hchild := only_child hnot
    obtain ⟨heap2, hreplace, hm⟩ := replace_spec hd.typed place
      (heap.links.down n (heap.links.down n false).isNone)
    simp only [hreplace, bind_some]
    generalize heap.links.down n (heap.links.down n false).isNone = child at *
    have hne : child ≠ some n := fun hc => by
      obtain ⟨b, hb⟩ := (hchild n).mp hc
      exact h.tree.down_ne Below.rank hn hb rfl
    have hdown2 : ∀ b, (heap2.nodes n).child b = heap.links.down n b := by
      intro b
      have hself := Ne.symm (h.tree.notOf Below.rank hup b)
      have hput : heap2.links.down n b = heap.links.down n b := by
        rw [hm.links, hd.links]
        simp [Links.put, hself]
      exact hput
    have hup2 : heap2.links.up n = some place := by
      rw [hm.links, hd.links]
      exact (Links.rehang_up hne).trans hup
    simp only [hdown2, parent_eq hm.typed hup2]
    split
    case isTrue hstays =>
      refine ⟨_, rfl, hd.left_bypass h hup hchild hm ?_⟩
      rintro p b rfl -
      -- below another node, only one that has a child is replaced by it here
      have hone : ∃ b', (heap.links.down n b').isSome := by
        rcases hstays with h0 | h1 | hroot
        · exact ⟨false, h0⟩
        · exact ⟨true, h1⟩
        · cases b <;> simp [placeType] at hroot
      obtain ⟨b', hb'⟩ := hone
      obtain ⟨m, hm⟩ := isSome_iff_exists.mp hb'
      simp [(hchild m).mpr ⟨b', hm⟩]
    case isFalse hleaf =>
      cases place with
      | root => simp [placeType] at hleaf
      | child p b =>
        have hnone : ∀ b', heap.links.down n b' = none := by
          intro b'
          cases b' <;> simp_all
        obtain rfl : child = none := by
          refine eq_none_iff_forall_ne_some.mpr fun m hm => ?_
          obtain ⟨b', hb'⟩ := (hchild m).mp hm
          simp [hnone] at hb'
        exact removeLeaf_spec h hd hup hnone hm

section

variable (h : heap.Shape) (hl : heap.Listed) (hleft : heap.Left heap' n)

include hl hleft in
theorem Left.listed : heap'.Listed := by
  refine ⟨?_, ?_, ?_⟩
  · intro q m
    rw [hleft.trieEntries, (hl.nodup q).mem_erase_iff, hl.mem]
    constructor
    · rintro ⟨hne, hm, hpeer⟩
      have hmn : m ≠ n := fun he => hne (he ▸ rfl)
      have hm' := hleft.kept m hm hmn (by simp [hpeer])
      exact ⟨hm', by rw [hleft.tag_other m hm' hmn, hpeer]⟩
    · rintro ⟨hm, hpeer⟩
      have hmn : m ≠ n := by
        rintro rfl
        simp [hleft.tag_self hm] at hpeer
      rw [hleft.tag_other m hm hmn] at hpeer
      exact ⟨fun he => hmn (Prod.mk.inj he).2, hleft.live m hm, hpeer⟩
  · intro m hm
    by_cases hmn : m = n
    · subst hmn
      rw [hleft.tag_self hm]
      rfl
    · rw [hleft.tag_other m hm hmn]
      exact hl.elem m (hleft.live m hm)
  · intro q
    rw [hleft.trieEntries]
    exact (hl.nodup q).erase _

include hleft in
theorem Left.apart : heap.Apart heap' := by
  intro q g m hg
  have hne : (g, m) ≠ (f, n) := fun he => hg (Prod.mk.inj he).1
  rw [hleft.trieEntries, List.mem_erase_of_ne hne]

include h hleft in
theorem Left.owns (hn : heap.links.Live n) (a : Address f) (c : Nat) (q : P) : heap'.Owns a c q ↔
      ¬(a = (heap.site n).bits ∧ c = (heap.site n).cidr) ∧ heap.Owns a c q := by
  constructor
  · rintro ⟨m, hm, hbits, hcidr, hpeer⟩
    have hmn : m ≠ n := by
      rintro rfl
      simp [hleft.tag_self hm] at hpeer
    have hlive := hleft.live m hm
    rw [hleft.site] at hbits hcidr
    rw [hleft.tag_other m hm hmn] at hpeer
    refine ⟨fun hkey => hmn ?_, m, hlive, hbits, hcidr, hpeer⟩
    exact h.unique hn hlive (hcidr.trans hkey.2) (hbits.trans hkey.1)
  · rintro ⟨hkey, m, hm, hbits, hcidr, hpeer⟩
    have hmn : m ≠ n := by
      rintro rfl
      exact hkey ⟨hbits.symm, hcidr.symm⟩
    have hm' := hleft.kept m hm hmn (by simp [hpeer])
    refine ⟨m, hm', ?_, ?_, ?_⟩
    · rw [hleft.site, hbits]
    · rw [hleft.site, hcidr]
    · rw [hleft.tag_other m hm' hmn, hpeer]

end

end StarlingWg.Routing.Heap
