import StarlingWg.Device.Authentication

namespace StarlingWg.Device

open List Option

section

-- What the header of an IP packet says. The length is that of the whole
-- packet, as a number without a bound.
def ipVersion : Bytes → Option Routing.Family
  | [] => none
  | first :: _ =>
    if first >>> 4 = 4 then some .ipv4 else if first >>> 4 = 6 then some .ipv6 else none

def ipHeaderLen : Routing.Family → Nat
  | .ipv4 => 20
  | .ipv6 => 40

def ipLength (packet : Bytes) : Routing.Family → Nat
  | .ipv4 => bigEndian (field packet 2 4)
  | .ipv6 => 40 + bigEndian (field packet 4 6)

def ipSource (packet : Bytes) : Routing.Family → Bytes
  | .ipv4 => field packet 12 16
  | .ipv6 => field packet 8 24

variable {packet : Bytes} {lo hi n : Nat}

theorem field_take (h : hi ≤ n) : field (packet.take n) lo hi = field packet lo hi := by
  rw [field, field, take_take, min_eq_left h]

theorem field_append {rest : Bytes} (h : hi ≤ packet.length) :
    field (packet ++ rest) lo hi = field packet lo hi := by
  rw [field, field, take_append_of_le_length h]

theorem ipSource_take {f : Routing.Family} (h : ipHeaderLen f ≤ n) :
    ipSource (packet.take n) f = ipSource packet f := by
  cases f with
  | ipv4 => exact field_take (by simp only [ipHeaderLen] at h; omega)
  | ipv6 => exact field_take (by simp only [ipHeaderLen] at h; omega)

end

section

variable {ι : Type} [DecidableEq ι] {allowedips : Routing.AllowedIPs ι} {peer : ι}
  {packet out : Bytes}

structure Exact (allowedips : Routing.AllowedIPs ι) (peer : ι) (packet out : Bytes)
    (f : Routing.Family) : Prop where
  version : ipVersion packet = some f
  eq_take : out = packet.take (ipLength packet f)
  header_le : ipHeaderLen f ≤ ipLength packet f
  le_length : ipLength packet f ≤ packet.length
  allowed : allows allowedips peer f (ipSource out f) = true

-- The length that the receiver cuts at: the IPv6 one is a sum in uint16.
def cutLength (packet : Bytes) : Routing.Family → Nat
  | .ipv4 => ipLength packet .ipv4
  | .ipv6 => (bigEndian (field packet 4 6) + 40) % 65536

-- The checks before the source is looked up. Only IPv4 compares the length
-- with that of the header.
def Acceptable (packet : Bytes) (f : Routing.Family) : Prop :=
  ipHeaderLen f ≤ packet.length ∧ cutLength packet f ≤ packet.length ∧
    (f = .ipv4 → ipHeaderLen f ≤ cutLength packet f)

theorem ne_zero_of_shift {first v : UInt8} (h : first >>> 4 = v) (hv : v ≠ 0) : first ≠ 0 := by
  rintro rfl
  exact hv h.symm

theorem inspect_of_none (h : ipVersion packet = none) : (inspect allowedips peer packet).2 = none := by
  unfold ipVersion at h
  unfold inspect
  split
  · rfl
  · next first rest =>
      dsimp only at h
      split at h
      · cases h
      next hfour =>
      split at h
      · cases h
      next hsix =>
      split <;> rfl

theorem inspect_of_some {f : Routing.Family} (h : ipVersion packet = some f) :
    (inspect allowedips peer packet).1 = true ∧
      ((inspect allowedips peer packet).2 = some out ↔
        Acceptable packet f ∧ allows allowedips peer f (ipSource packet f) = true ∧
          packet.take (cutLength packet f) = out) := by
  cases packet with
  | nil => cases h
  | cons first rest =>
  have hversion : f = .ipv4 ∧ first >>> 4 = 4 ∨ f = .ipv6 ∧ first >>> 4 ≠ 4 ∧ first >>> 4 = 6 := by
    simp only [ipVersion] at h
    grind
  unfold inspect
  dsimp only
  rcases hversion with ⟨rfl, hfour⟩ | ⟨rfl, hfour, hsix⟩
  on_goal 1 =>
    rw [if_neg (ne_zero_of_shift hfour (by decide)), if_pos hfour]
    simp only [Acceptable, cutLength, ipLength, ipHeaderLen, ipSource, true_imp_iff]
  on_goal 2 =>
    rw [if_neg (ne_zero_of_shift hsix (by decide)), if_neg hfour, if_pos hsix]
    simp only [Acceptable, cutLength, ipHeaderLen, ipSource, reduceCtorEq, false_imp_iff, and_true]
  -- the checks are the same for both versions
  all_goals
    split
    · exact ⟨rfl, iff_of_false (some_ne_none out).symm fun hok => by omega⟩
    split
    · exact ⟨rfl, iff_of_false (some_ne_none out).symm fun hok => by omega⟩
    split
    · next hallows => exact ⟨rfl, by simp_all⟩
    · next hallows =>
        refine ⟨rfl, ?_⟩
        rw [some_inj, and_iff_right (by omega), and_iff_right (by simpa using hallows)]

def Unwrapped (packet : Bytes) : Prop :=
  ipVersion packet = some .ipv6 → ipLength packet .ipv6 < 65536

theorem Unwrapped.cutLength_eq {f : Routing.Family} (h : Unwrapped packet)
    (hf : ipVersion packet = some f) : cutLength packet f = ipLength packet f := by
  cases f with
  | ipv4 => rfl
  | ipv6 =>
    have := h hf
    simp only [cutLength, ipLength] at this ⊢
    omega

theorem inspect_exact (hlength : Unwrapped packet)
    (h : (inspect allowedips peer packet).2 = some out) :
    ∃ f, Exact allowedips peer packet out f := by
  cases hf : ipVersion packet with
  | none => rw [inspect_of_none hf] at h; cases h
  | some f =>
    obtain ⟨⟨hheader, hcut, hmin⟩, hallows, rfl⟩ := (inspect_of_some hf).2.mp h
    rw [hlength.cutLength_eq hf] at hcut hmin ⊢
    have hle : ipHeaderLen f ≤ ipLength packet f := by
      cases f with
      | ipv4 => exact hmin rfl
      | ipv6 => exact Nat.le_add_right _ _
    refine ⟨f, hf, rfl, hle, hcut, ?_⟩
    rw [ipSource_take hle]
    exact hallows

theorem Exact.unwrapped {f : Routing.Family} (he : Exact allowedips peer packet out f)
    (h : (inspect allowedips peer packet).2 = some out) : Unwrapped packet := by
  intro hf
  obtain rfl : f = .ipv6 := Option.some.inj (he.version.symm.trans hf)
  obtain ⟨-, -, hout⟩ := (inspect_of_some hf).2.mp h
  have hlength := congrArg List.length (hout.trans he.eq_take)
  have hle := he.le_length
  simp only [length_take, cutLength] at hlength
  omega

end

section

-- The two rules in the source's own int, where a difference may be negative
-- and -1 is an answer.
def calculatePaddingSizeInt (packetSize mtu : Int) : Int :=
  if mtu = 0 then (packetSize + 15) / 16 * 16 - packetSize
  else
    let lastUnit := if mtu < packetSize then packetSize % mtu else packetSize
    let paddedSize := (lastUnit + 15) / 16 * 16
    (if mtu < paddedSize then mtu else paddedSize) - lastUnit

def randomPaddingAdditionInt (addition : UintRange) (add packetSize mtu : Int) : Int :=
  if addition = ⟨0, 0⟩ then -1
  else if mtu = 0 then add
  else
    let packetSize := if mtu < packetSize then packetSize % mtu else packetSize
    let space := mtu - packetSize
    if space < add then space else add

theorem lastUnit_cast (packetSize mtu : Nat) :
    (if (mtu : Int) < packetSize then (packetSize : Int) % mtu else packetSize) =
      ((if mtu < packetSize then packetSize % mtu else packetSize : Nat) : Int) := by
  by_cases h : mtu < packetSize
  · rw [if_pos h, if_pos (Int.ofNat_lt.mpr h), Int.natCast_emod]
  · rw [if_neg h, if_neg (fun hlt => h (Int.ofNat_lt.mp hlt))]

variable {mtu : Nat} {addition : UintRange} {add : UInt32}

theorem lastUnit_le (packetSize : Nat) (hmtu : mtu ≠ 0) :
    (if mtu < packetSize then packetSize % mtu else packetSize) ≤ mtu := by
  have hmod : packetSize % mtu < mtu := Nat.mod_lt _ (Nat.pos_of_ne_zero hmtu)
  split <;> omega

theorem calculatePaddingSizeInt_eq (packetSize mtu : Nat) :
    calculatePaddingSizeInt packetSize mtu = calculatePaddingSize packetSize mtu := by
  unfold calculatePaddingSizeInt calculatePaddingSize
  by_cases hmtu : mtu = 0
  · rw [if_pos (by omega), if_pos hmtu]
    omega
  · have hle := lastUnit_le packetSize hmtu
    rw [if_neg (by omega), if_neg hmtu, lastUnit_cast]
    generalize (if mtu < packetSize then packetSize % mtu else packetSize) = lastUnit at hle ⊢
    dsimp only
    split <;> omega

theorem randomPaddingAdditionInt_eq (addition : UintRange) (add : UInt32) (packetSize mtu : Nat) :
    randomPaddingAdditionInt addition add.toNat packetSize mtu =
      match randomPaddingAddition addition add packetSize mtu with
      | none => -1
      | some n => n := by
  unfold randomPaddingAdditionInt randomPaddingAddition
  by_cases hzero : addition = ⟨0, 0⟩
  · rw [if_pos hzero, if_pos hzero]
  rw [if_neg hzero, if_neg hzero]
  by_cases hmtu : mtu = 0
  · rw [if_pos (by omega), if_pos hmtu]
  · have hle := lastUnit_le packetSize hmtu
    rw [if_neg (by omega), if_neg hmtu, lastUnit_cast]
    generalize (if mtu < packetSize then packetSize % mtu else packetSize) = lastUnit at hle ⊢
    dsimp only
    rcases Nat.le_total add.toNat (mtu - lastUnit) with hadd | hadd
    · rw [min_eq_left hadd, if_neg (by omega)]
    · rw [min_eq_right hadd]
      split <;> omega

theorem calculatePaddingSize_le (packetSize mtu : Nat) : calculatePaddingSize packetSize mtu ≤ 15 := by
  unfold calculatePaddingSize
  split
  · omega
  · dsimp only
    omega

theorem randomPaddingAddition_le {packetSize n : Nat}
    (h : randomPaddingAddition addition add packetSize mtu = some n) : n ≤ add.toNat := by
  unfold randomPaddingAddition at h
  split at h
  · cases h
  split at h
  · cases h
    exact le_rfl
  · cases h
    exact min_le_left _ _

theorem UintRange.Picks.le_hi {r : UintRange} {v : UInt32} (h : r.Picks v) (hr : r.WellFormed) :
    v.toNat ≤ r.hi.toNat := by
  have hcontains := h.contains hr
  simp only [UintRange.contains, Bool.and_eq_true, decide_eq_true_eq, UInt32.le_iff_toNat_le]
    at hcontains
  exact hcontains.2

theorem paddingSize_bounds (hrange : addition.WellFormed) (hadd : addition.Picks add)
    (packetSize mtu : Nat) : let calculated := calculatePaddingSizeInt packetSize mtu
    let random := randomPaddingAdditionInt addition add.toNat packetSize mtu
    0 ≤ calculated ∧ calculated ≤ 15 ∧ (random = -1 ∨ 0 ≤ random ∧ random ≤ addition.hi.toNat) ∧
      paddingSize addition add packetSize mtu = if random < 0 then calculated else random := by
  rw [calculatePaddingSizeInt_eq, randomPaddingAdditionInt_eq, paddingSize]
  refine ⟨Int.natCast_nonneg _, mod_cast calculatePaddingSize_le _ _, ?_⟩
  cases hn : randomPaddingAddition addition add packetSize mtu with
  | none => exact ⟨.inl rfl, rfl⟩
  | some n =>
    have hle : n ≤ addition.hi.toNat := (randomPaddingAddition_le hn).trans (hadd.le_hi hrange)
    refine ⟨.inr ⟨Int.natCast_nonneg _, Int.ofNat_le.mpr hle⟩, ?_⟩
    rfl

def Outbound.plaintext (elem : Outbound) (addition : UintRange) (add : UInt32) (mtu : Nat) :
    Bytes :=
  elem.packet ++ List.replicate (paddingSize addition add elem.packet.length mtu) 0

theorem Outbound.sealed_eq (elem : Outbound) (addition : UintRange) (add : UInt32) (mtu : Nat) :
    elem.sealed addition add mtu = elem.send elem.nonce (elem.plaintext addition add mtu) :=
  rfl

structure WellSized (packet : Bytes) (f : Routing.Family) : Prop where
  version : ipVersion packet = some f
  header_le : ipHeaderLen f ≤ packet.length
  size : ipLength packet f = packet.length

variable {ι : Type} [DecidableEq ι] {allowedips : Routing.AllowedIPs ι} {peer : ι}
  {packet rest : Bytes} {f : Routing.Family}

theorem ipVersion_append (h : ipVersion packet = some f) : ipVersion (packet ++ rest) = some f := by
  cases packet with
  | nil => cases h
  | cons first _ => exact h

theorem ipLength_append (h : ipHeaderLen f ≤ packet.length) :
    ipLength (packet ++ rest) f = ipLength packet f := by
  cases f with
  | ipv4 =>
    simp only [ipHeaderLen] at h
    rw [ipLength, ipLength, field_append (by omega)]
  | ipv6 =>
    simp only [ipHeaderLen] at h
    rw [ipLength, ipLength, field_append (by omega)]

theorem ipSource_append (h : ipHeaderLen f ≤ packet.length) :
    ipSource (packet ++ rest) f = ipSource packet f := by
  cases f with
  | ipv4 =>
    simp only [ipHeaderLen] at h
    rw [ipSource, ipSource, field_append (by omega)]
  | ipv6 =>
    simp only [ipHeaderLen] at h
    rw [ipSource, ipSource, field_append (by omega)]

theorem inspect_append (h : WellSized packet f) (hsize : packet.length < 65536)
    (hallows : allows allowedips peer f (ipSource packet f) = true) :
    (inspect allowedips peer (packet ++ rest)).2 = some packet := by
  have hversion : ipVersion (packet ++ rest) = some f := ipVersion_append h.version
  have hlength : ipLength (packet ++ rest) f = packet.length := by
    rw [ipLength_append h.header_le, h.size]
  have hunwrapped : Unwrapped (packet ++ rest) := by
    intro hsix
    obtain rfl := Option.some.inj (hversion.symm.trans hsix)
    rw [hlength]
    exact hsize
  have hcut : cutLength (packet ++ rest) f = packet.length := by
    rw [hunwrapped.cutLength_eq hversion, hlength]
  have hle : packet.length ≤ (packet ++ rest).length := by
    rw [length_append]
    exact Nat.le_add_right _ _
  apply (inspect_of_some hversion).2.mpr
  refine ⟨⟨h.header_le.trans hle, ?_, fun _ => ?_⟩, ?_, ?_⟩
  · rw [hcut]
    exact hle
  · rw [hcut]
    exact h.header_le
  · rw [ipSource_append h.header_le]
    exact hallows
  · rw [hcut, take_left]

theorem inspect_zeros (n : Nat) : inspect allowedips peer (List.replicate n 0) = (false, none) := by
  cases n with
  | zero => rfl
  | succ n => rfl

end

namespace Receiver

variable {ι ε : Type} [DecidableEq ι] {s : Receiver ι ε} {peer : ι}
  {keypair : Noise.Keypair Bytes} {endpoint : ε} {counter : UInt64} {packet : Bytes}

omit [DecidableEq ι] in
@[simp] theorem call_allowedips (c : Call ι) : (s.call c).allowedips = s.allowedips := rfl

omit [DecidableEq ι] in
@[simp] theorem call_tun (c : Call ι) : (s.call c).tun = s.tun := rfl

@[simp] theorem addRxBytes_tun (n : Nat) : (s.addRxBytes peer n).tun = s.tun := rfl

@[simp] theorem setEndpointFromPacket_allowedips (endpoint : ε) :
    (s.setEndpointFromPacket peer endpoint).allowedips = s.allowedips := by
  unfold setEndpointFromPacket
  split <;> rfl

@[simp] theorem setEndpointFromPacket_tun (endpoint : ε) :
    (s.setEndpointFromPacket peer endpoint).tun = s.tun := by
  unfold setEndpointFromPacket
  split <;> rfl

theorem deliver_tun : (s.deliver peer keypair endpoint packet).tun =
    s.tun ++ (inspect s.allowedips peer packet).2.toList := by
  unfold deliver
  dsimp only
  split <;> split <;> simp

def Passes (s : Receiver ι ε) (keypair : Noise.Keypair Bytes) (counter : UInt64) : Prop :=
  ((s.filters keypair.id).validateCounter counter.toBitVec rejectAfterMessages).1 = true

theorem routineSequentialReceiver_tun (h : s.Passes keypair counter) :
    (s.routineSequentialReceiver peer keypair endpoint counter (some packet)).tun =
      s.tun ++ (inspect s.allowedips peer packet).2.toList := by
  have hvalid : ((s.filters keypair.id).validateCounter counter.toBitVec rejectAfterMessages).1 = true :=
    h
  unfold routineSequentialReceiver
  simp only [hvalid, Bool.not_true, Bool.false_eq_true, if_false, deliver_tun]

theorem routineSequentialReceiver_tun_of_not (h : ¬s.Passes keypair counter) :
    (s.routineSequentialReceiver peer keypair endpoint counter (some packet)).tun = s.tun := by
  have hvalid : ((s.filters keypair.id).validateCounter counter.toBitVec rejectAfterMessages).1 = false :=
    Bool.eq_false_iff.mpr h
  unfold routineSequentialReceiver
  simp only [hvalid, Bool.not_false, if_true]

-- A packet is dropped or its prefix is forwarded, unless it is an IPv6 packet
-- whose length wraps and passes the checks after that.
theorem forwards_exactly (s : Receiver ι ε) (peer : ι) (keypair : Noise.Keypair Bytes)
    (endpoint : ε) (counter : UInt64) (packet : Bytes) :
    let s' := s.routineSequentialReceiver peer keypair endpoint counter (some packet)
    (s'.tun = s.tun ∨ ∃ out f, s'.tun = s.tun ++ [out] ∧ Exact s.allowedips peer packet out f) ↔
      (s.Passes keypair counter → ipVersion packet = some .ipv6 → Acceptable packet .ipv6 →
        allows s.allowedips peer .ipv6 (ipSource packet .ipv6) = true →
        ipLength packet .ipv6 < 65536) := by
  dsimp only
  by_cases hpasses : s.Passes keypair counter
  · rw [routineSequentialReceiver_tun hpasses]
    cases hout : (inspect s.allowedips peer packet).2 with
    | none =>
      refine iff_of_true (.inl (append_nil _)) fun _ hf hok hallows => ?_
      have hsome := (inspect_of_some hf).2.mpr ⟨hok, hallows, rfl⟩
      rw [hout] at hsome
      cases hsome
    | some out =>
      constructor
      · rintro (hsame | ⟨out', f, hsame, hexact⟩) - hf - -
        · simp at hsame
        · obtain rfl : out = out' := by simpa using hsame
          exact hexact.unwrapped hout hf
      · intro h
        have hlength : Unwrapped packet := fun hf =>
          have hok := (inspect_of_some hf).2.mp hout
          h hpasses hf hok.1 hok.2.1
        obtain ⟨f, hexact⟩ := inspect_exact hlength hout
        exact .inr ⟨out, f, rfl, hexact⟩
  · exact iff_of_true (.inl (routineSequentialReceiver_tun_of_not hpasses)) fun h => absurd h hpasses

-- The padding is cut by the length in the IP header.
theorem padding_transparent (s : Receiver ι ε) (peer : ι) (keypair : Noise.Keypair Bytes)
    (endpoint : ε) (elem : Outbound) (addition : UintRange) (add : UInt32) (mtu padding : Nat)
    (hrange : addition.WellFormed) (hadd : addition.Picks add)
    (hfits : padding + messageTransportHeaderSize + (elem.sealed addition add mtu).length ≤ 65535)
    {receive : Bytes → Option Bytes}
    (hopen : ∀ plain, receive (elem.send elem.nonce plain) = some plain)
    (hpasses : s.Passes keypair elem.nonce) :
    let s' := s.routineSequentialReceiver peer keypair endpoint elem.nonce
      (receive (elem.sealed addition add mtu))
    let calculated := calculatePaddingSizeInt elem.packet.length mtu
    let random := randomPaddingAdditionInt addition add.toNat elem.packet.length mtu
    (0 ≤ calculated ∧ calculated ≤ 15 ∧ (random = -1 ∨ 0 ≤ random ∧ random ≤ addition.hi.toNat) ∧
      paddingSize addition add elem.packet.length mtu = if random < 0 then calculated else random) ∧
      (∀ f, WellSized elem.packet f →
        allows s.allowedips peer f (ipSource elem.packet f) = true →
        s'.tun = s.tun ++ [elem.packet]) ∧
      (elem.packet = [] → s'.tun = s.tun ∧
        inspect s.allowedips peer (elem.plaintext addition add mtu) = (false, none)) := by
  intro s' calculated random
  have hreceived : s'.tun =
      s.tun ++ (inspect s.allowedips peer (elem.plaintext addition add mtu)).2.toList := by
    rw [show s' = s.routineSequentialReceiver peer keypair endpoint elem.nonce
      (receive (elem.sealed addition add mtu)) from rfl, Outbound.sealed_eq, hopen,
      routineSequentialReceiver_tun hpasses]
  refine ⟨paddingSize_bounds hrange hadd _ _, fun f hf hallows => ?_, fun hempty => ?_⟩
  · have hsize : elem.packet.length < 65536 := by
      rw [Outbound.sealed_eq, elem.overhead, Outbound.plaintext, length_append] at hfits
      omega
    rw [hreceived, Outbound.plaintext, inspect_append hf hsize hallows]
    rfl
  · have hkeepalive : inspect s.allowedips peer (elem.plaintext addition add mtu) = (false, none) := by
      rw [Outbound.plaintext, hempty, nil_append, inspect_zeros]
    exact ⟨by rw [hreceived, hkeepalive]; exact append_nil _, hkeepalive⟩

def routed : Receiver Unit Unit :=
  { sampleReceiver .new with
    allowedips :=
      { trie := fun _ => { root := some 0, nodes := fun _ => { peer := some () }, allocated := 1 } } }

def sampleKeypair : Noise.Keypair Bytes := ⟨0, [], [], true, 5, 6⟩

def loneHeader (payload : UInt8 × UInt8) : Bytes :=
  [0x60, 0, 0, 0, payload.1, payload.2, 59, 64] ++ List.replicate 32 0

theorem wrapped_length_forwarded :
    let packet := loneHeader (0xff, 0xdc)
    let s' := routed.routineSequentialReceiver () sampleKeypair () 0 (some packet)
    s'.tun = [[0x60, 0, 0, 0]] ∧ ipVersion packet = some .ipv6 ∧ ipLength packet .ipv6 = 65540 ∧
      packet.length = 40 := by
  decide +kernel

def sampleElement (packet : Bytes) : Outbound where
  nonce := 0
  remoteIndex := 5
  packet := packet
  send _ plain := plain ++ List.replicate 16 0
  overhead _ plain := by rw [length_append, length_replicate]

def openSample (cipher : Bytes) : Option Bytes :=
  some (cipher.take (cipher.length - 16))

theorem padding_transparent_header :
    let elem := sampleElement (loneHeader (0, 0))
    elem.plaintext ⟨3, 3⟩ 3 41 = loneHeader (0, 0) ++ [0] ∧
      (routed.routineSequentialReceiver () sampleKeypair () 0
        (openSample (elem.sealed ⟨3, 3⟩ 3 41))).tun = [loneHeader (0, 0)] := by
  refine ⟨by decide +kernel, ?_⟩
  have hopen : ∀ plain, openSample ((sampleElement (loneHeader (0, 0))).send 0 plain) = some plain := by
    intro plain
    simp [openSample, sampleElement]
  have hpasses : routed.Passes sampleKeypair 0 := by
    unfold Passes
    decide +kernel
  exact (padding_transparent routed () sampleKeypair () (sampleElement (loneHeader (0, 0))) ⟨3, 3⟩ 3
    41 0 (by decide) ⟨0, by decide, by decide⟩ (by decide +kernel) hopen hpasses).2.1 .ipv6
    ⟨by decide +kernel, by decide +kernel, by decide +kernel⟩ (by decide +kernel)

end Receiver

end StarlingWg.Device
