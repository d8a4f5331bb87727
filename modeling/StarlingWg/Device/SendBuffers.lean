import StarlingWg.Device.Forwarding

namespace StarlingWg.Device

-- A slice of the message buffer of an element: where it starts, its length
-- and its capacity.
structure Span where
  start : Nat
  length : Nat
  capacity : Nat

namespace Span

-- s[lo:hi]. None is a panic.
def slice (s : Span) (lo hi : Nat) : Option Span :=
  if lo ≤ hi ∧ hi ≤ s.capacity then some ⟨s.start + lo, hi - lo, s.capacity - lo⟩ else none

def holds (s : Span) (n : Nat) : Bool := s.length + n ≤ s.capacity

theorem slice_eq_some {s : Span} {lo hi : Nat} (h : lo ≤ hi ∧ hi ≤ s.capacity) :
    s.slice lo hi = some ⟨s.start + lo, hi - lo, s.capacity - lo⟩ := if_pos h

end Span

inductive Passage
  | panics
  -- the datagram is in a new array, and the header is protected in the old one
  | moved
  | inPlace (length : Nat)
  deriving DecidableEq

-- RoutineReadFromTUN: the TUN reads behind the offset.
def readFromTUN (maxMessageSize : Nat) (padding : UInt32) (size : Nat) : Option Span :=
  let buffer : Span := ⟨0, maxMessageSize, maxMessageSize⟩
  let offset := messageTransportHeaderSize + padding.toNat
  match buffer.slice offset buffer.length with
  | none => none
  | some _ => buffer.slice offset (offset + size)

-- RoutineEncryption. The plaintext of `paddingSize` more bytes is sealed
-- behind the header, with a tag of 16 bytes.
def encryptInBuffer (maxMessageSize : Nat) (padding : UInt32) (packet : Span) (paddingSize : Nat) :
    Passage :=
  let buffer : Span := ⟨0, maxMessageSize, maxMessageSize⟩
  match buffer.slice 0 padding.toNat,
    buffer.slice padding.toNat (padding + 16).toNat, buffer.slice 0 (padding + 16).toNat with
  | some crypt, some _, some dst =>
    if (crypt.slice 0 headerCipherNonceSize.toNat).isNone then .panics
    else if packet.holds paddingSize && dst.holds (packet.length + paddingSize + 16) then
      .inPlace (dst.length + (packet.length + paddingSize + 16))
    else .moved
  | _, _, _ => .panics

def transmit (maxMessageSize : Nat) (padding : UInt32) (addition : UintRange) (add : UInt32)
    (size mtu : Nat) : Passage :=
  match readFromTUN maxMessageSize padding size with
  | none => .panics
  | some packet => encryptInBuffer maxMessageSize padding packet (paddingSize addition add size mtu)

def Sixteen (staged : Staged) : Prop :=
  (∀ padding ∈ staged.1.paddings.list, padding < 65536) ∧
    ∀ padding ∈ staged.2.paddings.list, padding < 65536

theorem Sixteen.of_stages {staged next : Staged} (h : Sixteen staged) (hs : Stages staged next) :
    Sixteen next :=
  ⟨hs.paddings ▸ h.1, fun padding hp => (hs.sizes padding hp).elim id (h.2 padding)⟩

theorem Sixteen.merge {staged : Staged} (h : Sixteen staged) :
    ∀ padding ∈ (staged.2.mergeWithDevice staged.1).1.paddings.list, padding < 65536 := by
  unfold IpcSetDevice.mergeWithDevice
  split
  · exact h.1
  · dsimp only
    split
    · exact h.1
    · exact h.2

theorem ipcSets_sixteen {device : Settings} (h : ∀ padding ∈ device.paddings.list, padding < 65536)
    (inputs : List Input) : ∀ padding ∈ (ipcSets device inputs).paddings.list, padding < 65536 := by
  induction inputs generalizing device with
  | nil => exact h
  | cons input inputs ih =>
    exact ih (ipcSetLines_holds (Q := fun device => ∀ padding ∈ device.paddings.list, padding < 65536)
      Sixteen.of_stages And.left Sixteen.merge ⟨h, h⟩)

theorem ipcSets_transport_lt (inputs : List Input) :
    (ipcSets newDevice inputs).paddings.transport.toNat < 65536 :=
  have hnew : ∀ padding ∈ newDevice.paddings.list, padding < 65536 := by
    simp [newDevice, Paddings.list]
  UInt32.lt_iff_toNat_lt.mp (ipcSets_sixteen hnew inputs _ (by simp [Paddings.list]))

section

variable {addition : UintRange} {add : UInt32} {size mtu : Nat}

theorem readFromTUN_eq (maxMessageSize : Nat) (padding : UInt32) (size : Nat) :
    readFromTUN maxMessageSize padding size =
      if padding.toNat + 16 + size ≤ maxMessageSize then
        some ⟨16 + padding.toNat, size, maxMessageSize - (16 + padding.toNat)⟩
      else none := by
  unfold readFromTUN
  dsimp only [messageTransportHeaderSize]
  by_cases hoffset : 16 + padding.toNat ≤ maxMessageSize
  · rw [Span.slice_eq_some ⟨hoffset, le_rfl⟩, Span.slice]
    dsimp only
    by_cases hsize : padding.toNat + 16 + size ≤ maxMessageSize
    · rw [if_pos (by omega), if_pos hsize, Nat.zero_add, Nat.add_sub_cancel_left]
    · rw [if_neg (by omega), if_neg hsize]
  · rw [Span.slice, if_neg (by dsimp only; omega), if_neg (by omega)]

theorem encryptInBuffer_eq {maxMessageSize : Nat} {padding : UInt32} (hpadding : padding.toNat < 65536)
    (hheader : padding.toNat + 16 ≤ maxMessageSize) (packet : Span) (n : Nat) :
    encryptInBuffer maxMessageSize padding packet n =
      if packet.length + n ≤ packet.capacity ∧
          padding.toNat + 32 + packet.length + n ≤ maxMessageSize then
        .inPlace (padding.toNat + 32 + packet.length + n)
      else .moved := by
  have hsum : (padding + 16).toNat = padding.toNat + 16 := by
    exact Nat.mod_eq_of_lt (by simp; omega)
  have hnonce : headerCipherNonceSize.toNat = 12 := rfl
  unfold encryptInBuffer
  rw [hsum]
  dsimp only
  rw [Span.slice_eq_some ⟨Nat.zero_le _, by dsimp only; omega⟩,
    Span.slice_eq_some ⟨by omega, hheader⟩, Span.slice_eq_some ⟨Nat.zero_le _, hheader⟩]
  dsimp only
  rw [Span.slice_eq_some ⟨Nat.zero_le _, by dsimp only; omega⟩]
  simp only [Option.isNone_some, Bool.false_eq_true, if_false, Span.holds, Bool.and_eq_true,
    decide_eq_true_eq]
  by_cases hfits : packet.length + n ≤ packet.capacity ∧
      padding.toNat + 32 + packet.length + n ≤ maxMessageSize
  · rw [if_pos (by omega), if_pos hfits]
    congr 1
    omega
  · rw [if_neg (by omega), if_neg hfits]

-- The datagram whose bytes routineEncryption gives is in the buffer, where its
-- header is protected, exactly when it fits.
theorem encryptInBuffer_routineEncryption {maxMessageSize : Nat} {padding : UInt32}
    (hpadding : padding.toNat < 65536) (hheader : padding.toNat + 16 ≤ maxMessageSize)
    (stream : KeyStream) (device : Settings) (elem : Outbound)
    {crypt : Bytes} (hcrypt : crypt.length = padding.toNat) (msgType : UInt32) :
    let datagram := routineEncryption stream device maxMessageSize elem crypt msgType addition add mtu
    encryptInBuffer maxMessageSize padding
        ⟨16 + padding.toNat, elem.packet.length, maxMessageSize - (16 + padding.toNat)⟩
        (paddingSize addition add elem.packet.length mtu) =
      if datagram.length ≤ maxMessageSize then .inPlace datagram.length else .moved := by
  intro datagram
  have hlength : datagram.length = padding.toNat + 32 + elem.packet.length +
      paddingSize addition add elem.packet.length mtu := by
    rw [transport_length, elem.sealed_length]
    omega
  rw [encryptInBuffer_eq hpadding hheader, hlength]
  congr 1
  rw [eq_iff_iff, and_iff_right_iff_imp]
  dsimp only
  omega

theorem transmit_eq {maxMessageSize : Nat} {padding : UInt32} (hpadding : padding.toNat < 65536) :
    transmit maxMessageSize padding addition add size mtu =
      if maxMessageSize < padding.toNat + 16 + size then .panics
      else if padding.toNat + 32 + size + paddingSize addition add size mtu ≤ maxMessageSize then
        .inPlace (padding.toNat + 32 + size + paddingSize addition add size mtu)
      else .moved := by
  rw [transmit, readFromTUN_eq]
  by_cases hread : padding.toNat + 16 + size ≤ maxMessageSize
  · rw [if_pos hread, if_neg (by omega)]
    dsimp only
    rw [encryptInBuffer_eq hpadding (by omega)]
    dsimp only
    congr 1
    rw [eq_iff_iff, and_iff_right_iff_imp]
    omega
  · rw [if_neg hread, if_pos (by omega)]

end

-- Padding never takes a packet past the MTU.
theorem transport_fits_iff (inputs : List Input) (maxMessageSize mtu : Nat) (hmtu : 1 ≤ mtu) :
    let device := ipcSets newDevice inputs
    (∀ size add, 1 ≤ size → size ≤ mtu →
      transmit maxMessageSize device.paddings.transport device.contentPaddingAddition add size mtu =
        .inPlace (device.paddings.transport.toNat + 32 + size +
          paddingSize device.contentPaddingAddition add size mtu)) ↔
      device.paddings.transport.toNat + 32 + mtu ≤ maxMessageSize := by
  have hpadding := ipcSets_transport_lt inputs
  generalize ipcSets newDevice inputs = device at hpadding ⊢
  constructor
  · intro h
    have hfull := h mtu 0 hmtu le_rfl
    rw [transmit_eq hpadding] at hfull
    split at hfull
    · cases hfull
    · split at hfull
      · omega
      · cases hfull
  · intro hfits size add hpos hsize
    have hle := size_add_paddingSize_le device.contentPaddingAddition add hmtu hsize
    rw [transmit_eq hpadding, if_neg (by omega), if_pos (by omega)]

theorem transport_fits_iff_default : (∀ size add, 1 ≤ size → size ≤ 1500 →
      transmit 65535 newDevice.paddings.transport newDevice.contentPaddingAddition add size 1500 =
        .inPlace (newDevice.paddings.transport.toNat + 32 + size +
          paddingSize newDevice.contentPaddingAddition add size 1500)) ↔
      newDevice.paddings.transport.toNat + 32 + 1500 ≤ 65535 :=
  transport_fits_iff [] 65535 1500 (by decide)

theorem s4_overruns :
    let run := fun text : String => ipcSetOperation newDevice ⟨[⟨text.toList, .ok ()⟩], false⟩
    ((run "s4=65535").2.isOk = true ∧
      transmit 65535 (run "s4=65535").1.paddings.transport ⟨0, 0⟩ 0 1 1 = .panics) ∧
    (run "s4=64100").2.isOk = true ∧
      transmit 65535 (run "s4=64100").1.paddings.transport ⟨0, 0⟩ 0 1410 1420 = .moved := by
  decide +kernel

end StarlingWg.Device
