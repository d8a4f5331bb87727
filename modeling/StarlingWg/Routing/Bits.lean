import StarlingWg.Routing.Trie

namespace StarlingWg.Routing

variable {w n i cidr : Nat} {f : Family}

theorem le_leadingZeros_iff (x : BitVec w) (hn : n ≤ w) :
    n ≤ leadingZeros x ↔ ∀ i < n, x.getMsbD i = false := by
  constructor
  · intro h i hi
    have hlt : i < (List.range w).findIdx fun i => x.getMsbD i := Nat.lt_of_lt_of_le hi h
    simpa using List.not_of_lt_findIdx hlt
  · intro h
    by_contra hlt
    have hw : leadingZeros x < (List.range w).length := by
      rw [List.length_range]
      omega
    have hset : x.getMsbD ((List.range w).get ⟨leadingZeros x, hw⟩) = true :=
      List.findIdx_getElem (p := fun i => x.getMsbD i) (w := hw)
    rw [List.get_eq_getElem, List.getElem_range] at hset
    rw [h (leadingZeros x) (by omega)] at hset
    simp at hset

theorem leadingZeros_xor_iff (a b : BitVec w) (hn : n ≤ w) :
    n ≤ leadingZeros (a ^^^ b) ↔ ∀ i < n, a.getMsbD i = b.getMsbD i := by
  simp [le_leadingZeros_iff _ hn]

theorem getMsbD_high (a : BitVec 128) (hi : i < 64) :
    (a.extractLsb' 64 64).getMsbD i = a.getMsbD i := by
  have hi' : i < 128 := by omega
  have hlt : 64 - 1 - i < 64 := by omega
  have hsum : 64 + (64 - 1 - i) = 128 - 1 - i := by omega
  simp only [BitVec.getMsbD_eq_getLsbD, BitVec.getLsbD_extractLsb', hi, hi', hlt, hsum]
  simp

theorem getMsbD_low (a : BitVec 128) (hi : i < 64) :
    (a.extractLsb' 0 64).getMsbD i = a.getMsbD (64 + i) := by
  have hi' : 64 + i < 128 := by omega
  have hlt : 64 - 1 - i < 64 := by omega
  have hsum : 0 + (64 - 1 - i) = 128 - 1 - (64 + i) := by omega
  simp only [BitVec.getMsbD_eq_getLsbD, BitVec.getLsbD_extractLsb', hi, hi', hlt, hsum]
  simp

theorem high_eq_iff (a b : BitVec 128) :
    a.extractLsb' 64 64 ^^^ b.extractLsb' 64 64 = 0#64 ↔ ∀ i < 64, a.getMsbD i = b.getMsbD i := by
  rw [BitVec.xor_eq_zero_iff]
  constructor
  · intro h i hi
    rw [← getMsbD_high a hi, h, getMsbD_high b hi]
  · intro h
    apply BitVec.eq_of_getMsbD_eq
    intro i hi
    rw [getMsbD_high a hi, getMsbD_high b hi, h i hi]

theorem le_commonBits16_iff (a b : BitVec 128) (hn : n ≤ 128) :
    n ≤ commonBits16 a b ↔ ∀ i < n, a.getMsbD i = b.getMsbD i := by
  by_cases hx : a.extractLsb' 64 64 ^^^ b.extractLsb' 64 64 = 0#64
  case pos =>
    have hhigh := (high_eq_iff a b).mp hx
    have hlow := leadingZeros_xor_iff (a.extractLsb' 0 64) (b.extractLsb' 0 64)
      (n := n - 64) (by omega)
    simp only [commonBits16, hx, ne_eq, not_true_eq_false, if_false]
    constructor
    · intro h i hi
      by_cases hi' : i < 64
      · exact hhigh i hi'
      · have := hlow.mp (by omega) (i - 64) (by omega)
        rw [getMsbD_low a (by omega), getMsbD_low b (by omega)] at this
        rwa [show 64 + (i - 64) = i by omega] at this
    · intro h
      have := hlow.mpr fun i hi => by
        rw [getMsbD_low a (by omega), getMsbD_low b (by omega)]
        exact h (64 + i) (by omega)
      omega
  case neg =>
    simp only [commonBits16, hx, ne_eq, not_false_eq_true, if_true]
    by_cases hn64 : n ≤ 64
    · rw [leadingZeros_xor_iff _ _ hn64]
      constructor
      · intro h i hi
        rw [← getMsbD_high a (by omega), ← getMsbD_high b (by omega), h i hi]
      · intro h i hi
        rw [getMsbD_high a (by omega), getMsbD_high b (by omega), h i hi]
    · -- The addresses differ in one of the first 64 bits.
      have hdiff : ¬∀ i < 64, a.getMsbD i = b.getMsbD i := fun h => hx ((high_eq_iff a b).mpr h)
      constructor
      · intro h
        have hfull := (leadingZeros_xor_iff (a.extractLsb' 64 64) (b.extractLsb' 64 64)
          (Nat.le_refl 64)).mp (by omega)
        refine absurd (fun i hi => ?_) hdiff
        rw [← getMsbD_high a hi, ← getMsbD_high b hi, hfull i hi]
      · intro h
        exact absurd (fun i hi => h i (by omega)) hdiff

theorem le_commonBits_iff (a b : Address f) (hn : n ≤ f.width) :
    n ≤ commonBits a b ↔ ∀ i < n, a.getMsbD i = b.getMsbD i := by
  cases f with
  | ipv4 => exact leadingZeros_xor_iff a b hn
  | ipv6 => exact le_commonBits16_iff a b hn

theorem getMsbD_mask (ip : Address f) (hc : cidr ≤ f.width) (i : Nat) :
    (mask ip cidr).getMsbD i = (decide (i < cidr) && ip.getMsbD i) := by
  simp only [mask, BitVec.getMsbD_and, BitVec.getMsbD_shiftLeft, BitVec.getMsbD_allOnes]
  by_cases hi : i < cidr
  · have : i + (f.width - cidr) < f.width := by omega
    simp [hi, this]
  · have : ¬i + (f.width - cidr) < f.width := by omega
    simp [hi, this]

theorem mask_eq_iff (a b : Address f) (hc : cidr ≤ f.width) :
    mask a cidr = mask b cidr ↔ ∀ i < cidr, a.getMsbD i = b.getMsbD i := by
  constructor
  · intro h i hi
    have := congrArg (fun x => BitVec.getMsbD x i) h
    simpa [getMsbD_mask _ hc, hi] using this
  · intro h
    apply BitVec.eq_of_getMsbD_eq
    intro i _
    rw [getMsbD_mask a hc, getMsbD_mask b hc]
    by_cases hi : i < cidr
    · rw [h i hi]
    · simp [hi]

theorem mask_mask (a : Address f) (hc : cidr ≤ f.width) :
    mask (mask a cidr) cidr = mask a cidr := by
  rw [mask_eq_iff _ _ hc]
  intro i hi
  simp [getMsbD_mask a hc, hi]

theorem choose_eq {P : Type} {node : TrieEntry P f} (ip : Address f)
    (hbyte : node.bitAtByte = node.cidr / 8) (hshift : node.bitAtShift = 7 - node.cidr % 8)
    (hlt : node.cidr < f.width) : node.choose ip = some (ip.getMsbD node.cidr) := by
  have hw : f.width % 8 = 0 := by cases f <;> rfl
  have hin : node.cidr / 8 < f.width / 8 := by omega
  have hone : ∀ x : BitVec 8, (x &&& 1 == 1) = x.getLsbD 0 := by decide +kernel
  have hpos : f.width - 8 * (node.cidr / 8 + 1) + (7 - node.cidr % 8) = f.width - 1 - node.cidr := by
    omega
  simp only [TrieEntry.choose, hbyte, hshift, hin, if_pos, hone, byteAt]
  simp only [BitVec.getLsbD_ushiftRight, BitVec.getLsbD_extractLsb', Nat.add_zero, hpos,
    BitVec.getMsbD_eq_getLsbD, hlt]
  simp
  omega

end StarlingWg.Routing
