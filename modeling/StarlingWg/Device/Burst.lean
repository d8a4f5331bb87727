import StarlingWg.Device.Obfuscation

namespace StarlingWg.Device

open List Option

-- What fastrandn(n) may return.
def Fastrandn (n draw : UInt32) : Prop :=
  draw < n ∨ n = 0 ∧ draw = 0

-- `fastrandn i` and `random i` are what the i-th round of the loop draws.
def junkPackets (junk : Junk) (fastrandn : Nat → UInt32) (random : Nat → Nat → UInt8) :
    List Bytes :=
  (List.range junk.count.toNat).map fun i =>
    (List.range (junk.min + fastrandn i).toNat).map (random i)

def ipacketBuffers (maxAlloc : Nat) (env : Nat → Nat → Surroundings) (i : Nat) :
    List (Option ObfChain) → Option (List Bytes)
  | [] => some []
  | none :: ipackets => ipacketBuffers maxAlloc env (i + 1) ipackets
  | some chain :: ipackets =>
    match chain.packet maxAlloc (env i) with
    | none => none
    | some buf => (ipacketBuffers maxAlloc env (i + 1) ipackets).map (buf :: ·)

def sendBuffer (maxAlloc : Nat) (env : Nat → Nat → Surroundings) (ipackets : List (Option ObfChain))
    (junk : List Bytes) (initiation : Bytes) : Option (List Bytes) :=
  (ipacketBuffers maxAlloc env 0 ipackets).map fun bufs => bufs ++ junk ++ [initiation]

variable {maxAlloc : Nat} {env : Nat → Nat → Surroundings} {ipackets : List (Option ObfChain)}
  {bufs : List Bytes}

theorem length_ipacketBuffers {i : Nat} (h : ipacketBuffers maxAlloc env i ipackets = some bufs) :
    bufs.length = (ipackets.filter Option.isSome).length := by
  induction ipackets generalizing i bufs with
  | nil =>
    cases h
    rfl
  | cons ipacket ipackets ih =>
    cases ipacket with
    | none => exact ih h
    | some chain =>
      rw [ipacketBuffers] at h
      split at h
      · cases h
      · obtain ⟨rest, hrest, rfl⟩ := map_eq_some_iff.mp h
        simp [ih hrest]

theorem length_sendBuffer {junk : List Bytes} {initiation : Bytes}
    (h : sendBuffer maxAlloc env ipackets junk initiation = some bufs) :
    bufs.length = (ipackets.filter Option.isSome).length + junk.length + 1 := by
  obtain ⟨packets, hpackets, rfl⟩ := map_eq_some_iff.mp h
  rw [length_append, length_append, length_ipacketBuffers hpackets, length_singleton]

@[simp] theorem length_junkPackets (junk : Junk) (fastrandn : Nat → UInt32)
    (random : Nat → Nat → UInt8) : (junkPackets junk fastrandn random).length = junk.count.toNat := by
  simp [junkPackets]

section

variable {min max draw : UInt32}

theorem junk_size_bounded (h : min ≤ max) (hdraw : Fastrandn (max - min) draw) :
    min ≤ min + draw ∧ min + draw ≤ max := by
  have hmax := max.toNat_lt
  rw [Fastrandn, UInt32.lt_iff_toNat_lt, ← UInt32.toNat_inj, ← UInt32.toNat_inj,
    UInt32.toNat_sub_of_le _ _ h] at hdraw
  simp only [UInt32.le_iff_toNat_le] at h ⊢
  have hsum : (min + draw).toNat = min.toNat + draw.toNat := by
    rw [UInt32.toNat_add, Nat.mod_eq_of_lt (by omega)]
  omega

theorem fastrandn_zero (n : UInt32) : Fastrandn n 0 := by
  by_cases hn : n = 0
  · exact .inr ⟨hn, rfl⟩
  · exact .inl (UInt32.pos_iff_ne_zero.mpr hn)

theorem junkPackets_bounded_iff (junk : Junk) :
    (∀ fastrandn random, (∀ i, Fastrandn (junk.max - junk.min) (fastrandn i)) →
      ∀ packet ∈ junkPackets junk fastrandn random,
        junk.min.toNat ≤ packet.length ∧ packet.length ≤ junk.max.toNat) ↔
      junk.min ≤ junk.max ∨ junk.count = 0 := by
  constructor
  · intro h
    by_cases hcount : junk.count = 0
    · exact .inr hcount
    · have hpos : 0 < junk.count.toNat := by
        have : junk.count.toNat ≠ (0 : UInt32).toNat := fun heq => hcount (UInt32.toNat_inj.mp heq)
        exact Nat.pos_of_ne_zero this
      have hfirst := h (fun _ => 0) (fun _ _ => 0) (fun _ => fastrandn_zero _) _
        (mem_map.mpr ⟨0, mem_range.mpr hpos, rfl⟩)
      simp only [length_map, length_range, UInt32.add_zero] at hfirst
      exact .inl (UInt32.le_iff_toNat_le.mpr hfirst.2)
  · rintro hsettings fastrandn random hdraws packet hpacket
    obtain ⟨i, hi, rfl⟩ := mem_map.mp hpacket
    rw [length_map, length_range, ← UInt32.le_iff_toNat_le, ← UInt32.le_iff_toNat_le]
    rcases hsettings with hle | hcount
    · exact junk_size_bounded hle (hdraws i)
    · rw [hcount] at hi
      exact absurd (mem_range.mp hi) (Nat.not_lt_zero i)

end

section

def deviceEntries : List Line → List (String × List Char)
  | [] => []
  | line :: lines =>
    if line.text = [] then []
    else match cut line.text with
    | none => []
    | some (key, value) =>
      if String.ofList key = "public_key" then []
      else (String.ofList key, value) :: deviceEntries lines

def lastUint32 (name : String) (before : UInt32) (entries : List (String × List Char)) : UInt32 :=
  entries.foldl (fun n e =>
    if e.1 = name then ((parseUint 32 e.2).toOption.map UInt32.ofNat).getD 0 else n) before

def junkAfter (junk : Junk) (entries : List (String × List Char)) : Junk where
  count := lastUint32 "jc" junk.count entries
  min := lastUint32 "jmin" junk.min entries
  max := lastUint32 "jmax" junk.max entries

def Accepted (device : Settings) : List Input → Prop
  | [] => True
  | input :: inputs =>
    (ipcSetOperation device input).2 = .ok () ∧ Accepted (ipcSetOperation device input).1 inputs

variable {staged next : Staged} {value : List Char}

theorem handleDeviceLine_junk {key : String} {outside : Except IpcError Unit}
    (h : handleDeviceLine staged key value outside = .ok next) :
    next.1.junk = junkAfter staged.1.junk [(key, value)] := by
  unfold handleDeviceLine at h
  split at h
  iterate 9
    · cases outside with
      | error err => simp [Except.map] at h
      | ok _ =>
        rw [← Except.ok.inj h]
        rfl
  iterate 3
    · rw [storeUint32_ok h]
      rfl
  iterate 4
    · obtain ⟨n, -, rfl⟩ := storePadding_ok h
      rfl
  iterate 4
    · obtain ⟨r, -, rfl⟩ := storeRange_ok h
      rfl
  · obtain ⟨key, -, hnext⟩ := bind_ok h
    rw [← Except.ok.inj hnext]
    rfl
  iterate 6
    · obtain ⟨r, -, rfl⟩ := storeRange_ok h
      rfl
  · simp at h

theorem junkAfter_append (junk : Junk) (front back : List (String × List Char)) :
    junkAfter junk (front ++ back) = junkAfter (junkAfter junk front) back := by
  simp [junkAfter, lastUint32]

theorem finish_junk (staged : Staged) (readError : Bool) :
    (finish staged readError).1.junk = staged.1.junk := by
  rw [finish_device]
  unfold IpcSetDevice.mergeWithDevice
  split
  · rfl
  · dsimp only
    split <;> rfl

theorem ipcSetLines_junk {readError deviceConfig : Bool} {lines : List Line}
    (h : (ipcSetLines readError staged deviceConfig lines).2 = .ok ()) :
    (ipcSetLines readError staged deviceConfig lines).1.junk =
      if deviceConfig then junkAfter staged.1.junk (deviceEntries lines) else staged.1.junk := by
  induction lines generalizing staged deviceConfig with
  | nil =>
    rw [ipcSetLines, finish_junk]
    cases deviceConfig <;> rfl
  | cons line lines ih =>
    rw [ipcSetLines] at h ⊢
    by_cases hblank : line.text = []
    · rw [if_pos hblank, finish_junk, deviceEntries, if_pos hblank]
      cases deviceConfig <;> rfl
    rw [if_neg hblank] at h ⊢
    cases hcut : cut line.text with
    | none =>
      rw [hcut] at h
      cases h
    | some entry =>
      simp only [deviceEntries, if_neg hblank, hcut] at h ⊢
      by_cases hkey : String.ofList entry.1 = "public_key"
      · simp only [if_pos hkey] at h ⊢
        cases hline : line.outside with
        | error err =>
          rw [hline] at h
          cases h
        | ok _ =>
          rw [hline] at h
          refine (ih h).trans ?_
          cases deviceConfig <;> rfl
      · simp only [if_neg hkey] at h ⊢
        cases deviceConfig with
        | false =>
          cases hline : line.outside with
          | error err =>
            rw [hline] at h
            cases h
          | ok _ =>
            rw [hline] at h
            exact ih h
        | true =>
          cases hline : handleDeviceLine staged (String.ofList entry.1) entry.2 line.outside with
          | error err =>
            rw [hline] at h
            cases h
          | ok next =>
            rw [hline] at h
            refine (ih h).trans ?_
            rw [if_pos rfl, handleDeviceLine_junk hline, ← junkAfter_append]
            rfl

theorem ipcSets_junk {device : Settings} {inputs : List Input} (h : Accepted device inputs) :
    (ipcSets device inputs).junk =
      junkAfter device.junk (inputs.flatMap fun input => deviceEntries input.lines) := by
  induction inputs generalizing device with
  | nil => rfl
  | cons input inputs ih =>
    rw [ipcSets, ih h.2, flatMap_cons, junkAfter_append]
    congr 1
    exact ipcSetLines_junk h.1

end

-- The values are the last ones of all operations.
theorem junk_within_configured (inputs : List Input) (h : Accepted newDevice inputs) :
    let entries := inputs.flatMap fun input => deviceEntries input.lines
    let jc := lastUint32 "jc" 0 entries
    let jmin := lastUint32 "jmin" 0 entries
    let jmax := lastUint32 "jmax" 0 entries
    let junk := (ipcSets newDevice inputs).junk
    (∀ fastrandn random, (junkPackets junk fastrandn random).length = jc.toNat) ∧
    ((∀ fastrandn random, (∀ i, Fastrandn (junk.max - junk.min) (fastrandn i)) →
      ∀ packet ∈ junkPackets junk fastrandn random,
        jmin.toNat ≤ packet.length ∧ packet.length ≤ jmax.toNat) ↔ jmin ≤ jmax ∨ jc = 0) := by
  have hjunk := ipcSets_junk h
  refine ⟨fun fastrandn random => ?_, ?_⟩
  · rw [length_junkPackets, hjunk]
    rfl
  · rw [hjunk]
    exact junkPackets_bounded_iff _

theorem junk_within_configured_unordered :
    (junkPackets (ipcSets newDevice [⟨[⟨"jmax=9".toList, .ok ()⟩], false⟩,
      ⟨[⟨"jc=3".toList, .ok ()⟩, ⟨"jmin=4".toList, .ok ()⟩], false⟩]).junk (fun _ => 5)
        fun _ _ => 0).length = 3 :=
  (junk_within_configured [⟨[⟨"jmax=9".toList, .ok ()⟩], false⟩,
    ⟨[⟨"jc=3".toList, .ok ()⟩, ⟨"jmin=4".toList, .ok ()⟩], false⟩] ⟨rfl, rfl, trivial⟩).1 _ _

theorem jmin_without_jmax :
    let run := ipcSetOperation newDevice
      ⟨[⟨"jc=1".toList, .ok ()⟩, ⟨"jmin=10".toList, .ok ()⟩], false⟩
    run.2.isOk = true ∧ run.1.junk.max = 0 ∧
    Fastrandn (run.1.junk.max - run.1.junk.min) 0 ∧
    (junkPackets run.1.junk (fun _ => 0) fun _ _ => 0).map List.length = [10] := by
  refine ⟨by decide, by decide, fastrandn_zero _, by decide⟩

end StarlingWg.Device
