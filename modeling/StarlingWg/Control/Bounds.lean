import StarlingWg.Control.Codec

namespace StarlingWg.Control

open Wire Decoder List
open Decoder (Checked need cut byte InRange Steady)

-- The decoder with the slice expressions of the source.
namespace Sliced

def getU16 : Checked String UInt16 := do
  need 2 "control: truncated u16"
  let b ← cut 2
  return .ofNat (beNat b)

def getU32 : Checked String UInt32 := do
  need 4 "control: truncated u32"
  let b ← cut 4
  return .ofNat (beNat b)

def getU64 : Checked String UInt64 := do
  need 8 "control: truncated u64"
  let b ← cut 8
  return .ofNat (beNat b)

def getString : Checked String GoString := do
  let l ← getU16
  need l.toNat "control: truncated string"
  let s ← cut l.toNat
  return ⟨s⟩

def getAddr (family : UInt8) : Checked String Addr :=
  if family = 4 then do
    need 4 "control: truncated v4 addr"
    let b ← cut 4
    return .v4 (.ofNat 32 (beNat b))
  else if family = 6 then do
    need 16 "control: truncated v6 addr"
    let b ← cut 16
    return .v6 (.ofNat 128 (beNat b)) ""
  else throw (some ("control: unknown address family " ++ toString family.toNat))

def getAddrPort : Checked String AddrPort := do
  need 1 "control: truncated addrport"
  let family ← byte
  let addr ← getAddr family
  need 2 "control: truncated port"
  let port ← cut 2
  return ⟨addr, .ofNat (beNat port)⟩

def decodeCloakedParams : Checked String Message := do
  let s1 ← getU32
  let s2 ← getU32
  let s3 ← getU32
  let s4 ← getU32
  let h1Lo ← getU32
  let h1Hi ← getU32
  let h2Lo ← getU32
  let h2Hi ← getU32
  let h3Lo ← getU32
  let h3Hi ← getU32
  let h4Lo ← getU32
  let h4Hi ← getU32
  need (1 + 32) "control: truncated CloakedParams"
  let flag ← byte
  let key ← cut 32
  let listenEndpoint ← getAddrPort
  return .cloakedParams
    { s1, s2, s3, s4, h1Lo, h1Hi, h2Lo, h2Hi, h3Lo, h3Hi, h4Lo, h4Hi
      headerProtectionKey := keyOf key
      hasHeaderProtection := flag == 1
      listenEndpoint }

def decodeFields (t : UInt8) : Checked String Message :=
  match t.toNat with
  | 1 => do
      need (1 + keySize + 1) "control: truncated Hello"
      let role ← byte
      let wgPublicKey ← cut keySize
      let protocolVersion ← byte
      return .hello ⟨role, keyOf wgPublicKey, protocolVersion⟩
  | 2 => do
      let probePortA ← getU16
      let probePortB ← getU16
      let nativeListenPort ← getU16
      let cloakedListenPort ← getU16
      return .xInfo ⟨probePortA, probePortB, nativeListenPort, cloakedListenPort⟩
  | 3 => do
      let probeID ← getU64
      let port ← getU16
      return .natProbeRequest ⟨probeID, port⟩
  | 4 => do
      let probeID ← getU64
      let observedAddr ← getAddrPort
      return .natProbeResponse ⟨probeID, observedAddr⟩
  | 5 => do
      need 16 "control: truncated NativeEndpointReport"
      let b ← cut 16
      let externalAddr ← getAddrPort
      return .nativeEndpointReport ⟨sessionIDOf b, externalAddr⟩
  | 6 => do
      need 16 "control: truncated NativeReady"
      let b ← cut 16
      return .nativeReady ⟨sessionIDOf b⟩
  | 7 => do
      need 16 "control: truncated NativeFailed"
      let b ← cut 16
      let reason ← getString
      return .nativeFailed ⟨sessionIDOf b, reason⟩
  | 8 => do
      need 17 "control: truncated ModeDecision"
      let b ← cut 16
      let mode ← byte
      let reason ← getString
      return .modeDecision ⟨sessionIDOf b, mode, reason⟩
  | 9 => decodeCloakedParams
  | 10 => do
      let nonce ← getU64
      return .ping nonce
  | 11 => do
      let nonce ← getU64
      return .pong nonce
  | 12 => do
      let reason ← getString
      return .bye reason
  | n => throw (some ("control: unknown message type " ++ toString n))

def decodeBody (t : UInt8) (body : Bytes) : Except (Option String) Message :=
  (decodeFields t body).map Prod.fst

end Sliced

theorem getU16_inRange : InRange Sliced.getU16 getU16 :=
  .take fun _ => .pure _

theorem getU32_inRange : InRange Sliced.getU32 getU32 :=
  .take fun _ => .pure _

theorem getU64_inRange : InRange Sliced.getU64 getU64 :=
  .take fun _ => .pure _

theorem getString_inRange : InRange Sliced.getString getString :=
  getU16_inRange.bind fun _ => .take fun _ => .pure _

theorem getAddr_inRange (family : UInt8) : InRange (Sliced.getAddr family) (getAddr family) := by
  unfold Sliced.getAddr getAddr
  by_cases h4 : family = 4
  · rw [if_pos h4, if_pos h4]
    exact .take fun _ => .pure _
  · rw [if_neg h4, if_neg h4]
    by_cases h6 : family = 6
    · rw [if_pos h6, if_pos h6]
      exact .take fun _ => .pure _
    · rw [if_neg h6, if_neg h6]
      exact fun _ => rfl

theorem getAddrPort_inRange : InRange Sliced.getAddrPort getAddrPort := by
  refine .need fun taken rest hlen => ?_
  rw [byte_bind (Nat.le_of_eq hlen.symm), drop_of_length_le (Nat.le_of_eq hlen)]
  exact (getAddr_inRange _).bind (fun _ => .take fun _ => .pure _) rest

theorem decodeHello_inRange : InRange (Sliced.decodeFields 1) decodeHello := by
  refine .need fun taken rest hlen => ?_
  have hkey : keySize ≤ (taken.drop 1).length := by
    rw [length_drop]
    omega
  have hlast : 1 ≤ ((taken.drop 1).drop keySize).length := by
    rw [length_drop, length_drop]
    omega
  have hend : ((taken.drop 1).drop keySize).drop 1 = [] :=
    eq_nil_of_length_eq_zero (by simp only [length_drop]; omega)
  have hget : ((taken.drop 1).drop keySize).headD 0 = taken.getD (1 + keySize) 0 := by
    rw [drop_drop, headD_eq_head?_getD, List.head?_drop, getD_eq_getElem?_getD]
  rw [byte_bind (by omega), cut_bind hkey, byte_bind hlast, hend, hget]
  rfl

theorem decodeModeDecision_inRange : InRange (Sliced.decodeFields 8) decodeModeDecision := by
  refine .need fun taken rest hlen => ?_
  have hlast : 1 ≤ (taken.drop 16).length := by
    rw [length_drop]
    omega
  have hend : (taken.drop 16).drop 1 = [] :=
    eq_nil_of_length_eq_zero (by simp only [length_drop]; omega)
  have hget : (taken.drop 16).headD 0 = taken.getD 16 0 := by
    rw [headD_eq_head?_getD, List.head?_drop, getD_eq_getElem?_getD]
  rw [cut_bind (by omega), byte_bind hlast, hend, hget]
  exact getString_inRange.bind (fun _ => .pure _) rest

theorem decodeCloakedParams_inRange :
    InRange Sliced.decodeCloakedParams decodeCloakedParams := by
  iterate 12 refine getU32_inRange.bind fun _ => ?_
  refine .need fun taken rest hlen => ?_
  have hkey : (taken.drop 1).length = 32 := by
    rw [length_drop]
    omega
  rw [byte_bind (by omega), cut_bind (Nat.le_of_eq hkey.symm),
    take_of_length_le (Nat.le_of_eq hkey), drop_of_length_le (Nat.le_of_eq hkey)]
  exact getAddrPort_inRange.bind (fun _ => .pure _) rest

theorem decodeFields_inRange (t : UInt8) : InRange (Sliced.decodeFields t) (decodeFields t) := by
  unfold Sliced.decodeFields decodeFields
  generalize t.toNat = n
  rcases n with _ | _ | _ | _ | _ | _ | _ | _ | _ | _ | _ | _ | _ | n
  · exact fun _ => rfl
  · exact decodeHello_inRange
  · exact getU16_inRange.bind fun _ => getU16_inRange.bind fun _ => getU16_inRange.bind fun _ =>
      getU16_inRange.bind fun _ => .pure _
  · exact getU64_inRange.bind fun _ => getU16_inRange.bind fun _ => .pure _
  · exact getU64_inRange.bind fun _ => getAddrPort_inRange.bind fun _ => .pure _
  · exact .take fun _ => getAddrPort_inRange.bind fun _ => .pure _
  · exact .take fun _ => .pure _
  · exact .take fun _ => getString_inRange.bind fun _ => .pure _
  · exact decodeModeDecision_inRange
  · exact decodeCloakedParams_inRange
  · exact getU64_inRange.bind fun _ => .pure _
  · exact getU64_inRange.bind fun _ => .pure _
  · exact getString_inRange.bind fun _ => .pure _
  · exact fun _ => rfl

theorem getString_steady : Steady getString :=
  .bind (.bind (.take _ _) fun _ => .pure _) fun _ => .bind (.take _ _) fun _ => .pure _

theorem getAddr_steady (family : UInt8) : Steady (getAddr family) := by
  unfold getAddr
  split
  · exact .bind (.take _ _) fun _ => .pure _
  split
  · exact .bind (.take _ _) fun _ => .pure _
  · exact .throw _

theorem getAddrPort_steady : Steady getAddrPort :=
  .bind (.take _ _) fun _ => .bind (getAddr_steady _) fun _ => .bind (.take _ _) fun _ => .pure _

theorem decodeFields_steady (t : UInt8) : Steady (decodeFields t) := by
  unfold decodeFields
  split
  all_goals try unfold decodeHello
  all_goals repeat' first
    | exact .pure _
    | exact .throw _
    | exact .take _ _
    | exact getString_steady
    | exact getAddrPort_steady
    | refine .bind ?_ fun _ => ?_

theorem Message.Survives.lost {m : Message} (h : m.Survives) : m.lost = [] := by
  have hstring : ∀ s : GoString, s.Survives → s.lost = [] := by
    intro s hs
    rw [GoString.lost, Nat.mod_eq_of_lt hs, drop_length]
  cases m with
  | nativeFailed m => exact hstring _ h
  | modeDecision m => exact hstring _ h
  | bye reason => exact hstring _ h
  | _ => rfl

theorem decodeFields_reads {m : Message} (h : m.Survives) :
    Decoder.Reads (decodeFields m.type) m.encodeBody m := by
  have hleaves := decodeFields_leaves m
  rwa [h.received, h.lost] at hleaves

-- Trailing bytes are ignored, a cut body is an error.
theorem decodeBody_exact :
    (∀ m : Message, m.Survives →
      (∀ rest, decodeBody m.type (m.encodeBody ++ rest) = .ok m) ∧
      ∀ short more, m.encodeBody = short ++ more → more ≠ [] →
        ∃ err, decodeBody m.type short = .error err) ∧
    ∀ t body, Sliced.decodeBody t body = (decodeBody t body).mapError some := by
  refine ⟨fun m hm => ⟨fun rest => ?_, fun short more hsplit hmore => ?_⟩, fun t body => ?_⟩
  · rw [decodeBody, decodeFields_reads hm]
    rfl
  · obtain ⟨err, herr⟩ :=
      (decodeFields_steady m.type).rejects (decodeFields_reads hm) hsplit hmore
    refine ⟨err, ?_⟩
    rw [decodeBody, herr]
    rfl
  · rw [Sliced.decodeBody, decodeBody, decodeFields_inRange]
    cases decodeFields t body <;> rfl

theorem decodeBody_exact_bye :
    decodeBody 12 ([0, 2, 111, 107] ++ [7]) = .ok (.bye ⟨[111, 107]⟩) :=
  have hlen : GoString.Survives ⟨[111, 107]⟩ := by
    show 2 < 65536
    decide
  (decodeBody_exact.1 (.bye ⟨[111, 107]⟩) hlen).1 [7]

end StarlingWg.Control
