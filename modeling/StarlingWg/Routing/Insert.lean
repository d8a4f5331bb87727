import StarlingWg.Routing.Walk

namespace StarlingWg.Routing

open List Function Option
open Pointers (Place Links)
open Site (bits literal)

variable {P : Type} {f : Family}

section

variable {ip : Address f} {cidr : Nat} {n d : Site f} {b : Bool}

theorem Site.literal_getMsbD (hc : cidr ≤ f.width) {i : Nat} (hi : i < cidr) :
    (literal ip cidr).bits.getMsbD i = ip.getMsbD i := by
  simp [literal, getMsbD_mask ip hc, hi]

theorem Site.below_literal (hc : cidr ≤ f.width) (hlt : n.cidr < cidr) (hcovers : n.Covers ip)
    (hbit : ip.getMsbD n.cidr = b) : n.Below b (literal ip cidr) where
  cidr_lt := hlt
  covers i hi := (hcovers i hi).trans (literal_getMsbD hc (Nat.lt_trans hi hlt)).symm
  bit := (literal_getMsbD hc hlt).trans hbit

variable (hc : cidr ≤ f.width) (hd : d.Sound) (hnext : ¬(d.cidr ≤ cidr ∧ d.Covers ip))

include hc hd hnext

omit hd in
theorem Site.literal_below (hcommon : cidr ≤ commonBits d.bits (mask ip cidr)) :
    (literal ip cidr).Below (d.bits.getMsbD cidr) d := by
  have hsame := (le_commonBits_iff _ _ hc).mp hcommon
  refine ⟨?_, fun i hi => (hsame i hi).symm, rfl⟩
  by_contra hle
  have hle : d.cidr ≤ cidr := Nat.not_lt.mp hle
  refine hnext ⟨hle, fun i hi => ?_⟩
  have hi := Nat.lt_of_lt_of_le hi hle
  exact (hsame i hi).trans (literal_getMsbD hc hi)

theorem Site.common_lt (hcommon : commonBits d.bits (mask ip cidr) < cidr) :
    commonBits d.bits (mask ip cidr) < d.cidr := by
  by_contra hle
  have hle : d.cidr ≤ commonBits d.bits (mask ip cidr) := Nat.not_lt.mp hle
  have hsame := (le_commonBits_iff _ _ hd.cidr_le).mp hle
  refine hnext ⟨by omega, fun i hi => (hsame i hi).trans ?_⟩
  exact literal_getMsbD hc (by omega)

theorem Site.branch_below (hcommon : commonBits d.bits (mask ip cidr) < cidr) :
    (literal (mask ip cidr) (commonBits d.bits (mask ip cidr))).Below
      (d.bits.getMsbD (commonBits d.bits (mask ip cidr))) d := by
  have hwidth : commonBits d.bits (mask ip cidr) ≤ f.width := by omega
  have hsame := (le_commonBits_iff d.bits (mask ip cidr) hwidth).mp (Nat.le_refl _)
  refine ⟨common_lt hc hd hnext hcommon, fun i hi => ?_, rfl⟩
  exact (literal_getMsbD hwidth hi).trans (hsame i hi).symm

omit hd hnext in
theorem Site.branch_bit_ne (hcommon : commonBits d.bits (mask ip cidr) < cidr) :
    (mask ip cidr).getMsbD (commonBits d.bits (mask ip cidr)) ≠
      d.bits.getMsbD (commonBits d.bits (mask ip cidr)) := by
  intro hbit
  have hsame := (le_commonBits_iff d.bits (mask ip cidr) (by omega)).mp (Nat.le_refl _)
  have hmore : commonBits d.bits (mask ip cidr) + 1 ≤ commonBits d.bits (mask ip cidr) := by
    rw [le_commonBits_iff _ _ (by omega)]
    intro i hi
    obtain hi | rfl := Nat.lt_succ_iff_lt_or_eq.mp hi
    · exact hsame i hi
    · exact hbit.symm
  omega

omit hd hnext in
theorem Site.below_branch (hcommon : commonBits d.bits (mask ip cidr) < cidr) (hn : n.Below b d)
    (hnew : n.Below b (literal ip cidr)) :
    n.Below b (literal (mask ip cidr) (commonBits d.bits (mask ip cidr))) := by
  have hlt := hnew.cidr_lt
  have hlen : n.cidr + 1 ≤ f.width := Nat.le_trans hlt hc
  have hmore : n.cidr + 1 ≤ commonBits d.bits (mask ip cidr) := by
    rw [le_commonBits_iff _ _ hlen]
    intro i hi
    obtain hi | rfl := Nat.lt_succ_iff_lt_or_eq.mp hi
    · exact (hn.covers i hi).symm.trans (hnew.covers i hi)
    · exact hn.bit.trans hnew.bit.symm
  exact below_literal (by omega) hmore hnew.covers hnew.bit

end

namespace Heap

section

variable (heap : Heap P f) (place : Place NodeId) (m : NodeId)

-- m.parent = the place; *place = m
def seat : Heap P f :=
  (heap.setParent m ⟨some place, placeType place⟩).store place (some m)

@[simp]
theorem links_seat : (heap.seat place m).links = (heap.links.hang m place).put place (some m) := by
  simp [seat]

@[simp]
theorem site_seat : (heap.seat place m).site = heap.site := by
  simp [seat]

@[simp]
theorem tag_seat : (heap.seat place m).tag = heap.tag := by
  simp [seat]

@[simp]
theorem allocated_seat : (heap.seat place m).allocated = heap.allocated := by
  cases place <;> rfl

@[simp]
theorem trieEntries_seat : (heap.seat place m).trieEntries = heap.trieEntries := by
  cases place <;> rfl

theorem Typed.seat {heap : Heap P f} (h : heap.Typed) : (heap.seat place m).Typed :=
  (h.setParent m place).store place (some m)

theorem link_eq_seat (n : NodeId) (bit : Bool) : heap.link n bit m = heap.seat (.child n bit) m :=
  rfl

theorem choose_of_sound {n : NodeId} (ip : Address f) (hs : (heap.site n).Sound)
    (hlt : (heap.site n).cidr < f.width) :
    (heap.nodes n).choose ip = some (ip.getMsbD (heap.site n).cidr) :=
  Routing.choose_eq ip hs.bitAtByte hs.bitAtShift hlt

theorem attach_eq_seat (hm : (heap.site m).Sound)
    (hplace : ∀ n b, place = .child n b → (heap.site n).Sound ∧
      (heap.site n).Below b (heap.site m)) :
    heap.attach (owner place) m = some (heap.seat place m) := by
  cases place with
  | root => rfl
  | child n b =>
    obtain ⟨hn, hbelow⟩ := hplace n b rfl
    have hlt := Nat.lt_of_lt_of_le hbelow.cidr_lt hm.cidr_le
    have hbit : (heap.nodes m).bits.getMsbD (heap.site n).cidr = b := hbelow.bit
    simp [attach, owner, heap.choose_of_sound _ hn hlt, hbit, link_eq_seat]

end

variable {heap heap1 heap' : Heap P f} {ip : Address f} {cidr : Nat} {peer : P}

-- What a new node with an owner changes before it is linked.
structure Entered [DecidableEq P] (heap heap1 : Heap P f) (ip : Address f) (cidr : Nat) (peer : P) :
    Prop where
  site : heap1.site = update heap.site heap.allocated (.literal ip cidr)
  tag : heap1.tag = update heap.tag heap.allocated ⟨some peer, true⟩
  allocated : heap1.allocated = heap.allocated + 1
  trieEntries : heap1.trieEntries =
    update heap.trieEntries peer (heap.trieEntries peer ++ [(f, heap.allocated)])

theorem enter_spec [DecidableEq P] (heap : Heap P f) (ip : Address f) (cidr : Nat) (peer : P)
    (parent : ParentIndirection) :
    ∃ heap1, ((heap.allocate (.literal (some peer) parent ip cidr)).maskSelf
        heap.allocated).addToPeerEntries heap.allocated = some heap1 ∧
      Entered heap heap1 ip cidr peer ∧
      heap1.links = (heap.allocate (.literal (some peer) parent ip cidr)).links ∧
      ((heap.allocate (.literal (some peer) parent ip cidr)).Typed → heap1.Typed) := by
  have htag : ((heap.allocate (.literal (some peer) parent ip cidr)).maskSelf heap.allocated).tag =
      update heap.tag heap.allocated ⟨some peer, false⟩ := by
    rw [tag_maskSelf, tag_allocate]
    rfl
  have hpeer : (((heap.allocate (.literal (some peer) parent ip cidr)).maskSelf
      heap.allocated).tag heap.allocated).peer = some peer := by
    rw [htag, update_self]
  obtain ⟨heap1, hrun, hnoted, hentries⟩ := addToPeerEntries_spec hpeer
  refine ⟨heap1, hrun, ⟨?_, ?_, hnoted.allocated, hentries⟩, ?_, ?_⟩
  · rw [hnoted.site, site_maskSelf, site_allocate, update_self, update_idem]
    rfl
  · rw [hnoted.tag, htag, update_idem]
  · rw [hnoted.links, links_maskSelf]
  · exact fun h => hnoted.typed (h.maskSelf heap.allocated)

-- What a new node without an owner changes before it is linked.
structure Branched (heap heap1 : Heap P f) (branch : Site f) : Prop where
  links : heap1.links = heap.links.clear heap.allocated
  site : heap1.site = update heap.site heap.allocated branch
  tag : heap1.tag = update heap.tag heap.allocated ⟨none, false⟩
  allocated : heap1.allocated = heap.allocated + 1
  trieEntries : heap1.trieEntries = heap.trieEntries
  typed : heap.Typed → heap1.Typed

theorem branch_spec (heap : Heap P f) (ip : Address f) (cidr : Nat) :
    heap.Branched ((heap.allocate (.literal none {} ip cidr)).maskSelf heap.allocated)
      (.literal ip cidr) where
  links := by
    rw [links_maskSelf]
    exact heap.links_allocate (fun _ => rfl) rfl
  site := by
    rw [site_maskSelf, site_allocate, update_self, update_idem]
    rfl
  tag := by
    rw [tag_maskSelf, tag_allocate]
    rfl
  allocated := rfl
  trieEntries := rfl
  typed h := (h.allocate fun _ hp => by simp [TrieEntry.literal] at hp).maskSelf heap.allocated

-- A node with an owner has been added; the other new nodes have none.
structure Joined [DecidableEq P] (heap heap' : Heap P f) (ip : Address f) (cidr : Nat) (peer : P) :
    Prop where
  shape : heap'.Shape
  old : ∀ n, heap.links.Live n →
    heap'.links.Live n ∧ heap'.site n = heap.site n ∧ heap'.tag n = heap.tag n
  new : heap'.links.Live heap.allocated ∧ heap'.site heap.allocated = .literal ip cidr ∧
    heap'.tag heap.allocated = ⟨some peer, true⟩
  rest : ∀ n, heap'.links.Live n →
    heap.links.Live n ∨ n = heap.allocated ∨ heap'.tag n = ⟨none, false⟩
  trieEntries : heap'.trieEntries =
    update heap.trieEntries peer (heap.trieEntries peer ++ [(f, heap.allocated)])
  full : heap.Full → heap'.Full

theorem Shape.not_live (h : heap.Shape) {n : NodeId} (hn : heap.allocated ≤ n) :
    ¬heap.links.Live n :=
  fun hl => Nat.not_lt.mpr hn (h.fresh n hl)

section

variable {stop : Place NodeId} {bit : Bool} (h : heap.Shape) (hc : cidr ≤ f.width)
  (hstop : heap.Stop ip cidr stop)

include hc hstop in
theorem Stop.below {n : NodeId} {b : Bool} (hn : stop = .child n b) :
    (heap.site n).Below b (.literal ip cidr) := by
  obtain ⟨hlt, hcovers, hbit⟩ := hstop.toward n b hn
  exact Site.below_literal hc hlt hcovers hbit

include h hstop in
theorem Stop.notOf {x : NodeId} (hx : heap.allocated ≤ x) : Links.NotOf stop x := by
  rintro b rfl
  exact h.not_live hx hstop.valid

variable [DecidableEq P] (he : Entered heap heap1 ip cidr peer)

include h hc he hstop in
theorem Entered.joined (bit : Bool)
    (hlinks : heap'.links = heap.links.splice stop heap.allocated bit)
    (hsite : heap'.site = heap1.site) (htag : heap'.tag = heap1.tag)
    (halloc : heap'.allocated = heap1.allocated) (htyped : heap'.Typed)
    (hentries : heap'.trieEntries = heap1.trieEntries)
    (hdown : ∀ d, heap.links.content stop = some d →
      (literal ip cidr).Below bit (heap.site d)) :
    heap.Joined heap' ip cidr peer := by
  have hdead := h.not_live (Nat.le_refl heap.allocated)
  have hlive : ∀ n, heap'.links.Live n ↔ n = heap.allocated ∨ heap.links.Live n := by
    intro n
    rw [hlinks]
    exact h.tree.splice_live hstop.valid hdead
  have hne : ∀ n, heap.links.Live n → n ≠ heap.allocated := fun n hn hx => hdead (hx ▸ hn)
  refine ⟨⟨?_, htyped⟩, ?_, ?_, ?_, hentries.trans he.trieEntries, fun hfull => ?_⟩
  · rw [hlinks, hsite, he.site, halloc, he.allocated]
    exact h.splice hstop.valid hdead (Nat.le_succ _) (Nat.lt_succ_self _) (Site.literal_sound hc)
      (fun n b hn => hstop.below hc hn) hdown
  · intro n hn
    refine ⟨(hlive n).mpr (.inr hn), ?_, ?_⟩
    · rw [hsite, he.site, update_of_ne (hne n hn)]
    · rw [htag, he.tag, update_of_ne (hne n hn)]
  · refine ⟨(hlive _).mpr (.inl rfl), ?_, ?_⟩
    · rw [hsite, he.site, update_self]
    · rw [htag, he.tag, update_self]
  · intro n hn
    obtain rfl | hn := (hlive n).mp hn
    · exact .inr (.inl rfl)
    · exact .inl hn
  · rw [Full, hlinks]
    refine h.tree.splice_full hstop.valid hdead hfull ?_ fun n hn hbare => ?_
    · simp [htag, he.tag]
    · rwa [htag, he.tag, update_of_ne (hne n hn)] at hbare

include h hc he hstop in
theorem Entered.joined_branch {bit' b : Bool} {branch : Site f}
    (hlinks : heap'.links = (heap.links.splice stop heap1.allocated bit).splice
      (.child heap1.allocated bit') heap.allocated b)
    (hsite : heap'.site = update heap1.site heap1.allocated branch)
    (htag : heap'.tag = update heap1.tag heap1.allocated ⟨none, false⟩)
    (halloc : heap'.allocated = heap1.allocated + 1) (htyped : heap'.Typed)
    (hentries : heap'.trieEntries = heap1.trieEntries) (hbit : bit' ≠ bit) (hsound : branch.Sound)
    (hcontent : heap.links.content stop ≠ none)
    (hfits : ∀ n b, stop = .child n b → (heap.site n).Below b branch)
    (hdown : ∀ d, heap.links.content stop = some d → branch.Below bit (heap.site d))
    (hnew : branch.Below bit' (.literal ip cidr)) :
    heap.Joined heap' ip cidr peer := by
  have hlt : heap.allocated < heap1.allocated := he.allocated ▸ Nat.lt_succ_self _
  have hxz : heap.allocated ≠ heap1.allocated := Nat.ne_of_lt hlt
  have hdeadx := h.not_live (Nat.le_refl heap.allocated)
  have hdeadz := h.not_live (Nat.le_of_lt hlt)
  have hfirst := h.splice (w := heap1.allocated + 1) hstop.valid hdeadz
    (Nat.le_succ_of_le (Nat.le_of_lt hlt)) (Nat.lt_succ_self _) hsound hfits hdown
  have hlive1 : ∀ n, (heap.links.splice stop heap1.allocated bit).Live n ↔
      n = heap1.allocated ∨ heap.links.Live n := fun n => h.tree.splice_live hstop.valid hdeadz
  have hdead1 : ¬(heap.links.splice stop heap1.allocated bit).Live heap.allocated := by
    rw [hlive1]
    exact fun hl => hl.elim hxz hdeadx
  have hvalid1 : (heap.links.splice stop heap1.allocated bit).Valid (.child heap1.allocated bit') :=
    (hlive1 _).mpr (.inl rfl)
  have hlive : ∀ n, heap'.links.Live n ↔
      n = heap.allocated ∨ n = heap1.allocated ∨ heap.links.Live n := by
    intro n
    rw [hlinks, hfirst.tree.splice_live hvalid1 hdead1, hlive1]
  have hnex : ∀ n, heap.links.Live n → n ≠ heap.allocated := fun n hn hx => hdeadx (hx ▸ hn)
  have hnez : ∀ n, heap.links.Live n → n ≠ heap1.allocated := fun n hn hx => hdeadz (hx ▸ hn)
  refine ⟨⟨?_, htyped⟩, ?_, ?_, ?_, hentries.trans he.trieEntries, fun hfull => ?_⟩
  · rw [hlinks, hsite, he.site, halloc, update_comm hxz]
    refine hfirst.splice hvalid1 hdead1 (Nat.le_refl _) (Nat.lt_succ_of_lt hlt)
      (Site.literal_sound hc) ?_ ?_
    · rintro n b ⟨rfl, rfl⟩
      rw [update_self]
      exact hnew
    · intro d hd
      simp [Links.splice_content_new, hbit] at hd
  · intro n hn
    refine ⟨(hlive n).mpr (.inr (.inr hn)), ?_, ?_⟩
    · rw [hsite, he.site, update_of_ne (hnez n hn), update_of_ne (hnex n hn)]
    · rw [htag, he.tag, update_of_ne (hnez n hn), update_of_ne (hnex n hn)]
  · refine ⟨(hlive _).mpr (.inl rfl), ?_, ?_⟩
    · rw [hsite, he.site, update_of_ne hxz, update_self]
    · rw [htag, he.tag, update_of_ne hxz, update_self]
  · intro n hn
    obtain rfl | rfl | hn := (hlive n).mp hn
    · exact .inr (.inl rfl)
    · refine .inr (.inr ?_)
      rw [htag, update_self]
    · exact .inl hn
  · rw [Full, hlinks]
    refine Links.Tree.branch_full (h.tree.mono ?_) hfirst.tree hstop.valid hdeadz hdeadx hxz hbit
      hcontent hfull ?_ fun n hn hbare => ?_
    · intro n b m hn hm hb
      simpa only [Below, update_of_ne (hnez n hn), update_of_ne (hnez m hm)] using hb
    · simp [htag, he.tag, hxz]
    · rwa [htag, he.tag, update_of_ne (hnez n hn), update_of_ne (hnex n hn)] at hbare

end

section

variable [DecidableEq P] {stop : Place NodeId} {d : NodeId} (h : heap.Shape) (hc : cidr ≤ f.width)
  (he : Entered heap heap1 ip cidr peer) (hlinks : heap1.links = heap.links.clear heap.allocated)
  (htyped : heap1.Typed) (hstop : heap.Stop ip cidr stop)
  (hd : heap.links.content stop = some d)

include h he in
theorem Entered.site_old {n : NodeId} (hn : heap.links.Live n) : heap1.site n = heap.site n := by
  have hne : n ≠ heap.allocated := fun hx => h.not_live (Nat.le_refl _) (hx ▸ hn)
  rw [he.site, update_of_ne hne]

include he in
theorem Entered.site_new : heap1.site heap.allocated = .literal ip cidr := by
  rw [he.site, update_self]

include h he in
theorem Entered.reads {n : NodeId} (hn : heap.links.Live n) :
    (heap1.nodes n).bits = (heap.site n).bits ∧ (heap1.nodes heap.allocated).cidr = cidr :=
  ⟨congrArg bits (he.site_old h hn), congrArg Site.cidr he.site_new⟩

omit [DecidableEq P] in
include h hstop hd in
theorem Stop.down_live : heap.links.Live d :=
  h.tree.live_of_content hstop.valid hd

include h hc he hlinks htyped hstop hd

theorem insertAbove_of_le (hcommon : cidr ≤ commonBits (heap.site d).bits (mask ip cidr)) :
    ∃ heap', heap1.insertAbove (owner stop) heap.allocated d (mask ip cidr) cidr = some heap' ∧
      heap.Joined heap' ip cidr peer := by
  have hlive := hstop.down_live h hd
  obtain ⟨hdbits, hxcidr⟩ := he.reads h hlive
  have hdx : d ≠ heap.allocated := fun hx => h.not_live (Nat.le_refl _) (hx ▸ hlive)
  have hsound : (heap1.site heap.allocated).Sound := he.site_new ▸ Site.literal_sound hc
  have hbelow := Site.literal_below hc (hstop.next d hd) hcommon
  have hlt : cidr < f.width := Nat.lt_of_lt_of_le hbelow.cidr_lt (h.sound d hlive).cidr_le
  have hchoose := heap1.choose_of_sound (heap.site d).bits hsound (by rw [he.site_new]; exact hlt)
  rw [he.site_new] at hchoose
  have hattach := attach_eq_seat
    (heap1.seat (.child heap.allocated ((heap.site d).bits.getMsbD cidr)) d) stop heap.allocated
    (by rw [site_seat]; exact hsound)
    (by
      rintro n b rfl
      rw [site_seat, he.site_new, he.site_old h hstop.valid]
      exact ⟨h.sound n hstop.valid, hstop.below hc rfl⟩)
  refine ⟨(heap1.seat (.child heap.allocated ((heap.site d).bits.getMsbD cidr)) d).seat stop
    heap.allocated, ?_, he.joined h hc hstop ((heap.site d).bits.getMsbD cidr) ?_ ?_ ?_ ?_ ?_ ?_
    ?_⟩
  · simp only [insertAbove, hdbits, Nat.not_lt.mpr hcommon, if_false, hxcidr, if_true, hchoose,
      bind_eq_bind, bind_some]
    exact hattach
  · rw [links_seat, links_seat, hlinks]
    exact Links.put_above (hstop.notOf h (Nat.le_refl _)) hd hdx
  · simp
  · simp
  · simp
  · exact (htyped.seat _ _).seat _ _
  · simp
  · intro d' hd'
    obtain rfl := Option.some.inj (hd.symm.trans hd')
    exact hbelow

theorem insertBranch_spec {common : Nat} {bit bit' : Bool}
    (hdown : (literal (mask ip cidr) common).Below bit (heap.site d))
    (hnew : (literal (mask ip cidr) common).Below bit' (.literal ip cidr)) (hbit : bit' ≠ bit)
    (hfits : ∀ n b, stop = .child n b →
      (heap.site n).Below b (.literal (mask ip cidr) common)) :
    ∃ heap', heap1.insertBranch (owner stop) heap.allocated d common = some heap' ∧
      heap.Joined heap' ip cidr peer := by
  have hlive := hstop.down_live h hd
  have hxz : heap.allocated < heap1.allocated := he.allocated ▸ Nat.lt_succ_self _
  have hdx : d < heap.allocated := h.fresh d hlive
  have hwidth : common < f.width := Nat.lt_of_lt_of_le hnew.cidr_lt hc
  have hsound : (literal (mask ip cidr) common).Sound :=
    Site.literal_sound (Nat.le_of_lt hwidth)
  have hxbits : (heap1.nodes heap.allocated).bits = mask ip cidr := congrArg bits he.site_new
  have hjoin := heap1.branch_spec (mask ip cidr) common
  simp only [insertBranch, hxbits]
  generalize (heap1.allocate (.literal none {} (mask ip cidr) common)).maskSelf heap1.allocated =
    heap2 at *
  have hz : heap2.site heap1.allocated = .literal (mask ip cidr) common := by
    rw [hjoin.site, update_self]
  have hold : ∀ n, n < heap1.allocated → heap2.site n = heap1.site n := fun n hn => by
    rw [hjoin.site, update_of_ne (Nat.ne_of_lt hn)]
  have hd2 : (heap2.nodes d).bits = (heap.site d).bits :=
    congrArg bits ((hold d (Nat.lt_trans hdx hxz)).trans (he.site_old h hlive))
  have hchoose : ∀ heap3 : Heap P f, heap3.site = heap2.site → ∀ a,
      (heap3.nodes heap1.allocated).choose a = some (a.getMsbD common) := by
    intro heap3 hsame a
    have hsite : heap3.site heap1.allocated = .literal (mask ip cidr) common := hsame ▸ hz
    have heq := heap3.choose_of_sound a (hsite ▸ hsound) (by rw [hsite]; exact hwidth)
    rwa [hsite] at heq
  have hdbit : (heap2.nodes d).bits.getMsbD common = bit := hd2 ▸ hdown.bit
  have hx3 : ((heap2.seat (.child heap1.allocated bit) d).nodes heap.allocated).bits =
      mask ip cidr := by
    have hsite := congrFun (heap2.site_seat (.child heap1.allocated bit) d) heap.allocated
    exact congrArg bits (hsite.trans ((hold _ hxz).trans he.site_new))
  have hxbit : (mask ip cidr).getMsbD common = bit' := hnew.bit
  have hattach := attach_eq_seat ((heap2.seat (.child heap1.allocated bit) d).seat
      (.child heap1.allocated bit') heap.allocated) stop heap1.allocated
    (by rw [site_seat, site_seat, hz]; exact hsound)
    (by
      rintro n b rfl
      have hn : n < heap1.allocated := Nat.lt_trans (h.fresh n hstop.valid) hxz
      rw [site_seat, site_seat, hz, hold n hn, he.site_old h hstop.valid]
      exact ⟨h.sound n hstop.valid, hfits n b rfl⟩)
  refine ⟨((heap2.seat (.child heap1.allocated bit) d).seat (.child heap1.allocated bit')
    heap.allocated).seat stop heap1.allocated, ?_, he.joined_branch h hc hstop (b := false)
    ?_ ?_ ?_ ?_ ?_ ?_ hbit hsound (by simp [hd]) hfits ?_ hnew⟩
  · simp only [hchoose heap2 rfl, hdbit, bind_eq_bind, bind_some, link_eq_seat, hx3,
      hchoose _ (heap2.site_seat _ d), hxbit]
    exact hattach
  · rw [links_seat, links_seat, links_seat, hjoin.links, hlinks]
    exact Links.put_branch (hstop.notOf h (Nat.le_refl _)) (hstop.notOf h (Nat.le_of_lt hxz)) hd
      (Nat.ne_of_lt (Nat.lt_trans hdx hxz)) (Nat.ne_of_lt hxz) hbit
  · simp only [site_seat, hjoin.site]
  · simp only [tag_seat, hjoin.tag]
  · simp only [allocated_seat, hjoin.allocated]
  · exact (((hjoin.typed htyped).seat _ _).seat _ _).seat _ _
  · simp only [trieEntries_seat, hjoin.trieEntries]
  · intro d' hd'
    obtain rfl := Option.some.inj (hd.symm.trans hd')
    exact hdown

theorem insertAbove_of_lt (hcommon : commonBits (heap.site d).bits (mask ip cidr) < cidr) :
    ∃ heap', heap1.insertAbove (owner stop) heap.allocated d (mask ip cidr) cidr = some heap' ∧
      heap.Joined heap' ip cidr peer := by
  have hlive := hstop.down_live h hd
  obtain ⟨hdbits, hxcidr⟩ := he.reads h hlive
  simp only [insertAbove, hdbits, hcommon, if_true, hxcidr, Nat.ne_of_gt hcommon, if_false]
  refine insertBranch_spec h hc he hlinks htyped hstop hd
    (Site.branch_below hc (h.sound d hlive) (hstop.next d hd) hcommon)
    ⟨hcommon, fun _ hi => Site.literal_getMsbD (by omega) hi, rfl⟩ (Site.branch_bit_ne hc hcommon) ?_
  rintro n b rfl
  exact Site.below_branch hc hcommon (h.tree.below n b d hstop.valid hd) (hstop.below hc rfl)

theorem insertAbove_spec :
    ∃ heap', heap1.insertAbove (owner stop) heap.allocated d (mask ip cidr) cidr = some heap' ∧
      heap.Joined heap' ip cidr peer := by
  by_cases hcommon : commonBits (heap.site d).bits (mask ip cidr) < cidr
  · exact insertAbove_of_lt h hc he hlinks htyped hstop hd hcommon
  · exact insertAbove_of_le h hc he hlinks htyped hstop hd (Nat.not_lt.mp hcommon)

end

def Owns (heap : Heap P f) (bits : Address f) (cidr : Nat) (peer : P) : Prop :=
  ∃ n, heap.links.Live n ∧ (heap.site n).bits = bits ∧ (heap.site n).cidr = cidr ∧
    (heap.tag n).peer = some peer

def Apart (heap heap' : Heap P f) : Prop :=
  ∀ peer g m, g ≠ f → ((g, m) ∈ heap'.trieEntries peer ↔ (g, m) ∈ heap.trieEntries peer)

section

variable [DecidableEq P] (h : heap.Shape) (hl : heap.Listed) (hj : heap.Joined heap' ip cidr peer)

include h hl hj

theorem Joined.listed : heap'.Listed := by
  have hdead := h.not_live (Nat.le_refl heap.allocated)
  have hmem : ∀ q n, (f, n) ∈ heap'.trieEntries q ↔
      (f, n) ∈ heap.trieEntries q ∨ (q = peer ∧ n = heap.allocated) := by
    intro q n
    rw [hj.trieEntries]
    by_cases hq : q = peer
    · subst hq
      simp
    · simp [hq]
  refine ⟨?_, ?_, ?_⟩
  · intro q n
    rw [hmem, hl.mem]
    constructor
    · rintro (⟨hn, htag⟩ | ⟨rfl, rfl⟩)
      · obtain ⟨hn', -, htag'⟩ := hj.old n hn
        exact ⟨hn', htag' ▸ htag⟩
      · exact ⟨hj.new.1, by rw [hj.new.2.2]⟩
    · rintro ⟨hn, htag⟩
      obtain hold | rfl | hnone := hj.rest n hn
      · rw [(hj.old n hold).2.2] at htag
        exact .inl ⟨hold, htag⟩
      · rw [hj.new.2.2] at htag
        exact .inr ⟨(Option.some.inj htag).symm, rfl⟩
      · simp [hnone] at htag
  · intro n hn
    obtain hold | rfl | hnone := hj.rest n hn
    · rw [(hj.old n hold).2.2]
      exact hl.elem n hold
    · rw [hj.new.2.2]
      rfl
    · rw [hnone]
      rfl
  · intro q
    rw [hj.trieEntries]
    by_cases hq : q = peer
    · subst hq
      rw [update_self, nodup_append]
      refine ⟨hl.nodup q, by simp, ?_⟩
      rintro a ha b hb rfl
      rw [mem_singleton] at hb
      subst hb
      exact hdead ((hl.mem q _).mp ha).1
    · rw [update_of_ne hq]
      exact hl.nodup q

omit h hl in
theorem Joined.apart : heap.Apart heap' := by
  intro q g m hg
  rw [hj.trieEntries]
  by_cases hq : q = peer
  · subst hq
    simp [hg]
  · simp [hq]

omit h hl in
theorem Joined.owns (hnone : ∀ m, heap.links.Live m → ¬heap.Has ip cidr m)
    (hsound : ∀ m, heap.links.Live m → (heap.site m).Sound) (a : Address f) (c : Nat) (q : P) :
    heap'.Owns a c q ↔
      if a = mask ip cidr ∧ c = cidr then q = peer else heap.Owns a c q := by
  split
  case isTrue hkey =>
    obtain ⟨rfl, rfl⟩ := hkey
    constructor
    · rintro ⟨n, hn, hbits, hcidr, htag⟩
      obtain hold | rfl | hfree := hj.rest n hn
      · rw [(hj.old n hold).2.1] at hbits hcidr
        refine absurd ⟨hcidr, ?_⟩ (hnone n hold)
        rw [(hsound n hold).covers_iff, hbits, hcidr]
      · rw [hj.new.2.2] at htag
        exact (Option.some.inj htag).symm
      · simp [hfree] at htag
    · rintro rfl
      exact ⟨heap.allocated, hj.new.1, by rw [hj.new.2.1]; rfl, by rw [hj.new.2.1]; rfl, by
        rw [hj.new.2.2]⟩
  case isFalse hkey =>
    constructor
    · rintro ⟨n, hn, hbits, hcidr, htag⟩
      obtain hold | rfl | hfree := hj.rest n hn
      · obtain ⟨-, hsite, htag'⟩ := hj.old n hold
        exact ⟨n, hold, hsite ▸ hbits, hsite ▸ hcidr, htag' ▸ htag⟩
      · rw [hj.new.2.1] at hbits hcidr
        exact absurd ⟨hbits.symm, hcidr.symm⟩ hkey
      · simp [hfree] at htag
    · rintro ⟨n, hn, hbits, hcidr, htag⟩
      obtain ⟨hn', hsite, htag'⟩ := hj.old n hn
      exact ⟨n, hn', hsite ▸ hbits, hsite ▸ hcidr, htag' ▸ htag⟩

end

section

variable [DecidableEq P] (h : heap.Shape) (hl : heap.Listed)

include h hl in
theorem reown_spec {n : NodeId} (hn : heap.links.Live n) (peer : P) :
    ∃ heapA heap', heap.removeFromPeerEntries n = some heapA ∧
      (heapA.setPeer n (some peer)).addToPeerEntries n = some heap' ∧ heap'.Shape ∧
      heap'.links = heap.links ∧ heap'.site = heap.site ∧
      heap'.tag = update heap.tag n ⟨some peer, true⟩ ∧
      ∀ q, heap'.trieEntries q = (heap.trieEntries q).erase (f, n) ++
        if q = peer then [(f, n)] else [] := by
  obtain ⟨heapA, hrun, hA, hentriesA⟩ := hl.removeFromPeerEntries hn
  have hpeer : ((heapA.setPeer n (some peer)).tag n).peer = some peer := by
    rw [tag_setPeer, update_self]
  obtain ⟨heap', hadd, hB, hentriesB⟩ := addToPeerEntries_spec hpeer
  have hlinks : heap'.links = heap.links := by rw [hB.links, links_setPeer, hA.links]
  have hsite : heap'.site = heap.site := by rw [hB.site, site_setPeer, hA.site]
  have hbound : heap'.allocated = heap.allocated := hB.allocated.trans hA.allocated
  refine ⟨heapA, heap', hrun, hadd, ⟨?_, ?_⟩, hlinks, hsite, ?_, fun q => ?_⟩
  · rw [hlinks, hsite, hbound]
    exact h.toArranged
  · exact hB.typed ((hA.typed h.typed).setPeer n (some peer))
  · rw [hB.tag, tag_setPeer, hA.tag, update_idem, update_idem]
  · have hsame : (heapA.setPeer n (some peer)).trieEntries = heapA.trieEntries := rfl
    rw [hentriesB, hsame]
    by_cases hq : q = peer
    · rw [hq, update_self, hentriesA, if_pos rfl]
    · rw [update_of_ne hq, hentriesA, if_neg hq, append_nil]

include hl in
theorem Listed.reown {n : NodeId} (hn : heap.links.Live n) (hlinks : heap'.links = heap.links)
    (htag : heap'.tag = update heap.tag n ⟨some peer, true⟩)
    (hentries : ∀ q, heap'.trieEntries q = (heap.trieEntries q).erase (f, n) ++
      if q = peer then [(f, n)] else []) : heap'.Listed := by
  have hgone : ∀ q, (f, n) ∉ (heap.trieEntries q).erase (f, n) := fun q hm =>
    ((hl.nodup q).mem_erase_iff.mp hm).1 rfl
  refine ⟨?_, ?_, ?_⟩
  · intro q m
    rw [hentries, mem_append, hlinks, htag]
    by_cases hm : m = n
    · subst hm
      by_cases hq : q = peer
      · simp [hq, hn]
      · simp [hq, hgone q, Ne.symm hq]
    · have hne : (f, m) ≠ (f, n) := fun he => hm (Prod.mk.inj he).2
      rw [mem_erase_of_ne hne, hl.mem, update_of_ne hm]
      by_cases hq : q = peer
      · simp [hq, hm]
      · simp [hq]
  · intro m hm
    rw [hlinks] at hm
    rw [htag]
    by_cases hmn : m = n
    · rw [hmn, update_self]
      rfl
    · rw [update_of_ne hmn]
      exact hl.elem m hm
  · intro q
    rw [hentries, nodup_append]
    refine ⟨(hl.nodup q).erase _, by split <;> simp, ?_⟩
    rintro a ha b hb rfl
    split at hb
    · rw [mem_singleton] at hb
      exact hgone q (hb ▸ ha)
    · simp at hb

-- What `insert` is for: the peer owns the masked prefix, and no other prefix
-- changes its owner.
structure Inserted (heap heap' : Heap P f) (ip : Address f) (cidr : Nat) (peer : P) : Prop where
  shape : heap'.Shape
  listed : heap'.Listed
  apart : heap.Apart heap'
  owns : ∀ a c q, heap'.Owns a c q ↔
    if a = mask ip cidr ∧ c = cidr then q = peer else heap.Owns a c q
  full : heap.Full → heap'.Full

include h hl in
theorem insert_exact (peer : P) {n : NodeId} (hn : heap.links.Live n) (hhas : heap.Has ip cidr n) :
    ∃ heapA heap', heap.removeFromPeerEntries n = some heapA ∧
      (heapA.setPeer n (some peer)).addToPeerEntries n = some heap' ∧
      heap.Inserted heap' ip cidr peer := by
  obtain ⟨heapA, heap', hrun, hadd, hshape, hlinks, hsite, htag, hentries⟩ := reown_spec h hl hn peer
  have hbits : (heap.site n).bits = mask ip cidr := by
    rw [← hhas.1]
    exact ((h.sound n hn).covers_iff ip).mp hhas.2
  refine ⟨heapA, heap', hrun, hadd, hshape, hl.reown hn hlinks htag hentries, ?_, ?_, ?_⟩
  · intro q g m hg
    have hne : (g, m) ≠ (f, n) := fun he => hg (Prod.mk.inj he).1
    rw [hentries, mem_append, mem_erase_of_ne hne]
    split <;> simp [hg]
  · intro a c q
    unfold Owns
    rw [hlinks, hsite, htag]
    split
    case isTrue hkey =>
      obtain ⟨rfl, rfl⟩ := hkey
      constructor
      · rintro ⟨m, hm, hmbits, hmcidr, hpeer⟩
        obtain rfl := h.unique hn hm (hmcidr.trans hhas.1.symm) (hmbits.trans hbits.symm)
        rw [update_self] at hpeer
        exact (Option.some.inj hpeer).symm
      · rintro rfl
        exact ⟨n, hn, hbits, hhas.1, by rw [update_self]⟩
    case isFalse hkey =>
      have hne : ∀ m, (heap.site m).bits = a → (heap.site m).cidr = c → m ≠ n := by
        rintro m hmbits hmcidr rfl
        exact hkey ⟨hmbits.symm.trans hbits, hmcidr.symm.trans hhas.1⟩
      constructor
      · rintro ⟨m, hm, hmbits, hmcidr, hpeer⟩
        rw [update_of_ne (hne m hmbits hmcidr)] at hpeer
        exact ⟨m, hm, hmbits, hmcidr, hpeer⟩
      · rintro ⟨m, hm, hmbits, hmcidr, hpeer⟩
        refine ⟨m, hm, hmbits, hmcidr, ?_⟩
        rw [update_of_ne (hne m hmbits hmcidr)]
        exact hpeer
  · intro hfull m hm hbare
    rw [hlinks] at hm ⊢
    have hmn : m ≠ n := by
      rintro rfl
      simp [htag] at hbare
    rw [htag, update_of_ne hmn] at hbare
    exact hfull m hm hbare

include h hl in
theorem Joined.inserted (hj : heap.Joined heap' ip cidr peer)
    (hnone : ∀ m, heap.links.Live m → ¬heap.Has ip cidr m) :
    heap.Inserted heap' ip cidr peer :=
  ⟨hj.shape, hj.listed h hl, hj.apart, hj.owns hnone h.sound, hj.full⟩

variable (hc : cidr ≤ f.width)

include h hc in
theorem insert_empty (ip : Address f) (peer : P) (hroot : heap.root = none) :
    ∃ heap', heap.insert ip cidr peer = some heap' ∧ heap.Joined heap' ip cidr peer := by
  obtain ⟨heap1, hrun, he, hlinks, htyped⟩ := heap.enter_spec ip cidr peer ⟨some .root, 2⟩
  have hstop : heap.Stop ip cidr .root :=
    ⟨trivial, fun n b hn => by simp at hn, fun d hd => by simp [links, Links.content, hroot] at hd⟩
  have hhang : heap1.links = (heap.links.clear heap.allocated).hang heap.allocated .root := by
    rw [hlinks]
    exact heap.links_allocate_at (fun _ => rfl) rfl
  refine ⟨heap1.store .root (some heap.allocated), ?_, he.joined h hc hstop false ?_ ?_ ?_ ?_ ?_ ?_
    ?_⟩
  · simp [insert, hroot, hrun]
  · rw [links_store, hhang]
    exact Links.put_leaf (hstop.notOf h (Nat.le_refl _)) hroot
  · simp
  · simp
  · rfl
  · refine (htyped (h.typed.allocate fun place hp => ?_)).store .root _
    cases hp
    rfl
  · rfl
  · intro d hd
    simp [links, Links.content, hroot] at hd

include h hc in
theorem insert_new (peer : P) {top : NodeId} {stop : Place NodeId} (hroot : heap.root = some top)
    (hplaced : heap.nodePlacement (some top) ip cidr = some (owner stop, false))
    (hstop : heap.Stop ip cidr stop) :
    ∃ heap', heap.insert ip cidr peer = some heap' ∧ heap.Joined heap' ip cidr peer := by
  obtain ⟨heap1, hrun, he, hlinks, htyped⟩ := heap.enter_spec ip cidr peer {}
  rw [heap.links_allocate (fun _ => rfl) rfl] at hlinks
  have htyped : heap1.Typed := htyped (h.typed.allocate fun _ hp => by
    simp [TrieEntry.literal] at hp)
  have hxbits : (heap1.nodes heap.allocated).bits = mask ip cidr := congrArg bits he.site_new
  simp only [insert, hroot, hplaced, bind_eq_bind, bind_some, Bool.false_eq_true,
    if_false, hrun, hxbits]
  cases stop with
  | root => exact insertAbove_spec h hc he hlinks htyped hstop hroot
  | child p b =>
    have hbelow := hstop.below hc rfl
    have hpsite := he.site_old h hstop.valid
    have hchoose := heap1.choose_of_sound (mask ip cidr) (hpsite ▸ h.sound p hstop.valid)
      (by rw [hpsite]; exact Nat.lt_of_lt_of_le hbelow.cidr_lt hc)
    have hbit : (mask ip cidr).getMsbD (heap.site p).cidr = b := hbelow.bit
    rw [hpsite, hbit] at hchoose
    have hp : p ≠ heap.allocated := Nat.ne_of_lt (h.fresh p hstop.valid)
    have hdown : heap1.links.down p b = heap.links.down p b := by
      rw [hlinks]
      simp [Links.clear, hp]
    have hchild : (heap1.nodes p).child b = heap.links.down p b := hdown
    simp only [owner, hchoose, bind_some, hchild]
    cases hd : heap.links.down p b with
    | none =>
      refine ⟨_, rfl, he.joined h hc hstop false ?_ ?_ ?_ ?_ ?_ ?_ ?_⟩
      · rw [link_eq_seat, links_seat, hlinks]
        exact Links.put_leaf (hstop.notOf h (Nat.le_refl _)) hd
      · simp [link_eq_seat]
      · simp [link_eq_seat]
      · simp [link_eq_seat]
      · exact htyped.link _ _ _
      · simp [link_eq_seat]
      · intro d hd'
        simp [Links.content, hd] at hd'
    | some d => exact insertAbove_spec h hc he hlinks htyped hstop hd

include h hl hc in
theorem insert_spec (ip : Address f) (peer : P) :
    ∃ heap', heap.insert ip cidr peer = some heap' ∧ heap.Inserted heap' ip cidr peer := by
  cases hroot : heap.root with
  | none =>
    obtain ⟨heap', hrun, hj⟩ := insert_empty h hc ip peer hroot
    refine ⟨heap', hrun, hj.inserted h hl fun m hm => ?_⟩
    exact absurd (h.under_root hm) (not_under_of_none hroot)
  | some top =>
    obtain ⟨n, hplaced, hn, hhas⟩ | ⟨stop, hplaced, hstop, hnone⟩ :=
      nodePlacement_spec h ip hc
    · rw [hroot] at hplaced
      obtain ⟨heapA, heap', hremove, hadd, hi⟩ := insert_exact h hl peer hn hhas
      exact ⟨heap', by simp [insert, hroot, hplaced, hremove, hadd], hi⟩
    · rw [hroot] at hplaced
      obtain ⟨heap', hrun, hj⟩ := insert_new h hc peer hroot hplaced hstop
      exact ⟨heap', hrun, hj.inserted h hl hnone⟩

end

end Heap

end StarlingWg.Routing
