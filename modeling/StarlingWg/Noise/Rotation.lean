import StarlingWg.Noise.Handshake
import Mathlib.Logic.Relation

namespace StarlingWg.Noise

open Option

variable {B ι : Type}

inductive Slot
  | previous
  | current
  | next
  deriving DecidableEq, Repr

namespace Keypairs

def get (keypairs : Keypairs B) : Slot → Option (Keypair B)
  | .previous => keypairs.previous
  | .current => keypairs.current
  | .next => keypairs.next

def Distinct (keypairs : Keypairs B) : Prop :=
  ∀ s t x y, keypairs.get s = some x → keypairs.get t = some y → x.id = y.id → s = t

def Below (keypairs : Keypairs B) (allocated : Nat) : Prop :=
  ∀ s x, keypairs.get s = some x → x.id < allocated

theorem empty_distinct : ({} : Keypairs B).Distinct := by
  intro s t x y hx
  cases s <;> simp [get] at hx

theorem empty_below (n : Nat) : ({} : Keypairs B).Below n := by
  intro s x hx
  cases s <;> simp [get] at hx

theorem Below.mono {keypairs : Keypairs B} {m n : Nat} (h : keypairs.Below m) (hle : m ≤ n) :
    keypairs.Below n :=
  fun s x hx => Nat.lt_of_lt_of_le (h s x hx) hle

section

variable {keypairs moved : Keypairs B} {source : Slot → Slot}

theorem Distinct.move (h : keypairs.Distinct) (hinj : ∀ s t, source s = source t → s = t)
    (hmoved : ∀ s x, moved.get s = some x → keypairs.get (source s) = some x) : moved.Distinct :=
  fun s t x y hx hy hid => hinj s t (h _ _ x y (hmoved s x hx) (hmoved t y hy) hid)

theorem Below.move {n : Nat} (h : keypairs.Below n)
    (hmoved : ∀ s x, moved.get s = some x → keypairs.get (source s) = some x) : moved.Below n :=
  fun s x hx => h (source s) x (hmoved s x hx)

theorem Distinct.install {n : Nat} (h : keypairs.Distinct) (hb : keypairs.Below n)
    (hinj : ∀ s t, source s = source t → s = t) {slot : Slot} {new : Keypair B} (hnew : new.id = n)
    (hmoved : ∀ s x, moved.get s = some x →
      s ≠ slot ∧ keypairs.get (source s) = some x ∨ s = slot ∧ x = new) : moved.Distinct := by
  intro s t x y hx hy hid
  rcases hmoved s x hx with ⟨hs, hx⟩ | ⟨rfl, rfl⟩
  · rcases hmoved t y hy with ⟨ht, hy⟩ | ⟨rfl, rfl⟩
    · exact hinj s t (h _ _ x y hx hy hid)
    · have := hb _ x hx
      omega
  · rcases hmoved t y hy with ⟨ht, hy⟩ | ⟨rfl, rfl⟩
    · have := hb _ y hy
      omega
    · rfl

theorem Below.install {n : Nat} (hb : keypairs.Below n) {slot : Slot} {new : Keypair B}
    (hnew : new.id = n) (hmoved : ∀ s x, moved.get s = some x →
      s ≠ slot ∧ keypairs.get (source s) = some x ∨ s = slot ∧ x = new) : moved.Below (n + 1) := by
  intro s x hx
  rcases hmoved s x hx with ⟨-, hx⟩ | ⟨-, rfl⟩
  · exact Nat.lt_succ_of_lt (hb _ x hx)
  · omega

end

end Keypairs

def rotation (isInitiator hasNext : Bool) : Slot → Slot
  | .previous =>
    if isInitiator then (if hasNext then .next else .current) else .previous
  | .current =>
    if isInitiator then (if hasNext then .current else .previous) else .current
  | .next => if isInitiator then (if hasNext then .previous else .next) else .next

theorem rotation_injective (isInitiator hasNext : Bool) (s t : Slot)
    (h : rotation isInitiator hasNext s = rotation isInitiator hasNext t) : s = t := by
  revert h
  cases isInitiator <;> cases hasNext <;> cases s <;> cases t <;> decide

theorem rotate_get {keypairs : Keypairs B} {keypair : Keypair B} {table : IndexTable B ι} {s : Slot}
    {x : Keypair B} (h : (keypairs.rotate keypair table).1.get s = some x) :
    s ≠ (if keypair.isInitiator then .current else .next) ∧
        keypairs.get (rotation keypair.isInitiator keypairs.next.isSome s) = some x ∨
      s = (if keypair.isInitiator then .current else .next) ∧ x = keypair := by
  obtain ⟨previous, current, next⟩ := keypairs
  cases hi : keypair.isInitiator with
  | true =>
    cases next with
    | none => cases s <;> simp_all [Keypairs.rotate, Keypairs.get, rotation]
    | some n => cases s <;> simp_all [Keypairs.rotate, Keypairs.get, rotation]
  | false => cases s <;> simp_all [Keypairs.rotate, Keypairs.get, rotation]

theorem rotate_new (keypairs : Keypairs B) (keypair : Keypair B) (table : IndexTable B ι) :
    (keypairs.rotate keypair table).1.get (if keypair.isInitiator then .current else .next) =
      some keypair := by
  cases hi : keypair.isInitiator with
  | true => cases hn : keypairs.next <;> simp [Keypairs.rotate, Keypairs.get, hi, hn]
  | false => simp [Keypairs.rotate, Keypairs.get, hi]

section

variable [DecidableEq ι] {c : Crypto B} {dev : Device B ι} {peer : ι} {keypair : Keypair B}

omit [DecidableEq ι] in
theorem deriveKeypair_id (h : dev.deriveKeypair c peer = some keypair) :
    keypair.id = dev.allocated := by
  obtain ⟨keys, -, rfl⟩ := map_eq_some_iff.mp h
  rfl

omit [DecidableEq ι] in
theorem deriveKeypair_cases (h : dev.deriveKeypair c peer = some keypair) :
    keypair.localIndex = (dev.handshake peer).localIndex ∧
      ((dev.handshake peer).state = .responseConsumed ∧ keypair.isInitiator = true ∧
          keypair.send = (c.kdf2 (dev.handshake peer).chainKey c.empty).1 ∨
        (dev.handshake peer).state = .responseCreated ∧ keypair.isInitiator = false ∧
          keypair.send = (c.kdf2 (dev.handshake peer).chainKey c.empty).2) := by
  obtain ⟨keys, hkeys, rfl⟩ := map_eq_some_iff.mp h
  refine ⟨rfl, ?_⟩
  unfold Handshake.deriveKeys at hkeys
  split at hkeys
  · next hstate =>
      cases hkeys
      exact .inl ⟨hstate, rfl, rfl⟩
  · next hstate =>
      cases hkeys
      exact .inr ⟨hstate, rfl, rfl⟩
  · simp at hkeys

theorem beginSymmetricSession_some (h : dev.deriveKeypair c peer = some keypair) :
    dev.beginSymmetricSession c peer =
      let rotated := (dev.keypairs peer).rotate keypair
        (dev.indexTable.swapIndexForKeypair (dev.handshake peer).localIndex keypair)
      ((dev.store peer { dev.peers peer with
        handshake := (dev.handshake peer).finish c
        keypairs := rotated.1 } rotated.2).allocate, .ok ()) := by
  simp only [Device.beginSymmetricSession, h]

theorem beginSymmetricSession_none (h : dev.deriveKeypair c peer = none) :
    (dev.beginSymmetricSession c peer).1 = dev := by
  simp only [Device.beginSymmetricSession, h]

@[simp] theorem store_keypairs_self (p : Peer B) (table : IndexTable B ι) :
    (dev.store peer p table).keypairs peer = p.keypairs := by
  simp [Device.store, Device.keypairs]

omit [DecidableEq ι] in
@[simp] theorem allocate_keypairs (dev : Device B ι) (other : ι) :
    dev.allocate.keypairs other = dev.keypairs other := rfl

@[simp] theorem store_handshake_self (p : Peer B) (table : IndexTable B ι) :
    (dev.store peer p table).handshake peer = p.handshake := by
  simp [Device.store, Device.handshake]

theorem store_handshake_of_ne {other : ι} (he : other ≠ peer) (p : Peer B)
    (table : IndexTable B ι) : (dev.store peer p table).handshake other = dev.handshake other := by
  simp [Device.store, Device.handshake, Function.update_of_ne he]

@[simp] theorem storeHandshake_handshake_self (h : Handshake B) (table : IndexTable B ι) :
    (dev.storeHandshake peer h table).handshake peer = h := by
  simp [Device.storeHandshake]

omit [DecidableEq ι] in
@[simp] theorem allocate_handshake (dev : Device B ι) (other : ι) :
    dev.allocate.handshake other = dev.handshake other := rfl

theorem receivedWithKeypair_handshake (received : Option (Keypair B)) (other : ι) :
    (dev.receivedWithKeypair peer received).1.handshake other = dev.handshake other := by
  unfold Device.receivedWithKeypair
  dsimp only
  split
  · rfl
  · by_cases he : other = peer
    · rw [he, store_handshake_self]
      rfl
    · exact store_handshake_of_ne he _ _

def Device.Orderly (dev : Device B ι) (peer : ι) : Prop :=
  (dev.keypairs peer).Distinct ∧ (dev.keypairs peer).Below dev.allocated

theorem Device.Orderly.beginSymmetricSession (h : dev.Orderly peer) :
    (dev.beginSymmetricSession c peer).1.Orderly peer := by
  cases hk : dev.deriveKeypair c peer with
  | none => rwa [beginSymmetricSession_none hk]
  | some keypair =>
    rw [beginSymmetricSession_some hk]
    simp only [Device.Orderly, allocate_keypairs, store_keypairs_self]
    exact ⟨h.1.install h.2 (rotation_injective _ _) (deriveKeypair_id hk) fun _ _ => rotate_get,
      h.2.install (deriveKeypair_id hk) fun _ _ => rotate_get⟩

def confirmation : Slot → Slot
  | .previous => .current
  | .current => .next
  | .next => .previous

theorem Device.Orderly.receivedWithKeypair (h : dev.Orderly peer) (received : Option (Keypair B)) :
    (dev.receivedWithKeypair peer received).1.Orderly peer := by
  unfold Device.receivedWithKeypair
  dsimp only
  split
  · exact h
  · have hmoved : ∀ s x,
        (⟨(dev.keypairs peer).current, (dev.keypairs peer).next, none⟩ : Keypairs B).get s =
          some x → (dev.keypairs peer).get (confirmation s) = some x := by
      intro s x hx
      cases s <;> simp_all [Keypairs.get, confirmation]
    simp only [Device.Orderly, store_keypairs_self]
    refine ⟨h.1.move (fun s t hst => ?_) hmoved, h.2.move hmoved⟩
    revert hst
    cases s <;> cases t <;> decide

theorem Device.Orderly.expireCurrentKeypairs (h : dev.Orderly peer) :
    (dev.expireCurrentKeypairs c peer).Orderly peer := by
  simp only [Device.Orderly, Device.expireCurrentKeypairs, Device.storeHandshake,
    store_keypairs_self]
  exact h

theorem Device.Orderly.zeroAndFlushAll : (dev.zeroAndFlushAll c peer).Orderly peer := by
  simp only [Device.Orderly, Device.zeroAndFlushAll, store_keypairs_self]
  exact ⟨Keypairs.empty_distinct, Keypairs.empty_below _⟩

end

section

variable [DecidableEq ι] (c : Crypto B) (peer : ι)

-- The objects on which ReceivedWithKeypair has been called while they were next.
def confirm (dev : Device B ι) (received : Option (Keypair B)) (confirmed : List Nat) : List Nat :=
  match received with
  | none => confirmed
  | some keypair =>
    if (dev.keypairs peer).next.map Keypair.id = some keypair.id then keypair.id :: confirmed
    else confirmed

inductive SlotStep : Device B ι × List Nat → Device B ι × List Nat → Prop
  | beginSymmetricSession (dev : Device B ι) (confirmed : List Nat) :
      SlotStep (dev, confirmed) ((dev.beginSymmetricSession c peer).1, confirmed)
  | receivedWithKeypair (dev : Device B ι) (confirmed : List Nat) (received : Option (Keypair B)) :
      SlotStep (dev, confirmed)
        ((dev.receivedWithKeypair peer received).1, confirm peer dev received confirmed)
  | expireCurrentKeypairs (dev : Device B ι) (confirmed : List Nat) :
      SlotStep (dev, confirmed) (dev.expireCurrentKeypairs c peer, confirmed)
  | zeroAndFlushAll (dev : Device B ι) (confirmed : List Nat) :
      SlotStep (dev, confirmed) (dev.zeroAndFlushAll c peer, confirmed)
  | others (dev dev' : Device B ι) (confirmed : List Nat) :
      dev'.keypairs peer = dev.keypairs peer → dev.allocated ≤ dev'.allocated →
      SlotStep (dev, confirmed) (dev', confirmed)

def Confirmed (keypairs : Keypairs B) (confirmed : List Nat) : Prop :=
  ∀ keypair, keypairs.current = some keypair →
    keypair.isInitiator = true ∨ keypair.id ∈ confirmed

variable {c peer}

omit [DecidableEq ι] in
theorem Confirmed.rotate {keypairs : Keypairs B} {confirmed : List Nat}
    (h : Confirmed keypairs confirmed) (keypair : Keypair B) (table : IndexTable B ι) :
    Confirmed (keypairs.rotate keypair table).1 confirmed := by
  intro k hk
  rcases rotate_get (s := .current) hk with ⟨hs, hget⟩ | ⟨hs, rfl⟩
  · cases hi : keypair.isInitiator with
    | true => simp [hi] at hs
    | false =>
      rw [hi] at hget
      exact h k hget
  · cases hi : k.isInitiator with
    | true => exact .inl rfl
    | false => simp [hi] at hs

theorem SlotStep.sound {dev dev' : Device B ι} {confirmed confirmed' : List Nat}
    (hs : SlotStep c peer (dev, confirmed) (dev', confirmed')) (ho : dev.Orderly peer)
    (h : Confirmed (dev.keypairs peer) confirmed) :
    dev'.Orderly peer ∧ Confirmed (dev'.keypairs peer) confirmed' := by
  cases hs with
  | beginSymmetricSession =>
    refine ⟨ho.beginSymmetricSession, ?_⟩
    cases hk : dev.deriveKeypair c peer with
    | none => rwa [beginSymmetricSession_none hk]
    | some keypair =>
      rw [beginSymmetricSession_some hk]
      simp only [allocate_keypairs, store_keypairs_self]
      exact h.rotate keypair _
  | receivedWithKeypair _ _ received =>
    refine ⟨ho.receivedWithKeypair received, ?_⟩
    unfold Device.receivedWithKeypair
    dsimp only
    split
    · next hne =>
        have hsame : confirm peer dev received confirmed = confirmed := by
          cases received with
          | none => rfl
          | some keypair => exact if_neg hne
        rwa [hsame]
    · next heq =>
        simp only [store_keypairs_self]
        intro k hk
        dsimp only at hk
        rw [ne_eq, not_not, hk, map_some] at heq
        cases received with
        | none => simp at heq
        | some keypair =>
          have hid : k.id = keypair.id := Option.some.inj heq
          simp [confirm, hk, hid]
  | expireCurrentKeypairs =>
    refine ⟨ho.expireCurrentKeypairs, ?_⟩
    simp only [Device.expireCurrentKeypairs, Device.storeHandshake, store_keypairs_self]
    exact h
  | zeroAndFlushAll =>
    refine ⟨.zeroAndFlushAll, ?_⟩
    simp [Device.zeroAndFlushAll, Confirmed]
  | others _ _ _ hsame hmore =>
    rw [Device.Orderly, hsame]
    exact ⟨⟨ho.1, ho.2.mono hmore⟩, h⟩

-- A responder keeps its keypair as next until the initiator has used it.
theorem current_confirmed {start last : Device B ι} {confirmed : List Nat}
    (hstart : start.keypairs peer = {})
    (hr : Relation.ReflTransGen (SlotStep c peer) (start, []) (last, confirmed)) :
    Confirmed (last.keypairs peer) confirmed ∧ (last.keypairs peer).Distinct := by
  suffices h : last.Orderly peer ∧ Confirmed (last.keypairs peer) confirmed from ⟨h.2, h.1.1⟩
  generalize hlast : (last, confirmed) = state at hr
  induction hr generalizing last confirmed with
  | refl =>
    obtain ⟨rfl, rfl⟩ := Prod.mk.inj hlast
    rw [Device.Orderly, hstart]
    exact ⟨⟨Keypairs.empty_distinct, Keypairs.empty_below _⟩, by simp [Confirmed]⟩
  | tail _ hs ih =>
    obtain ⟨h1, h2⟩ := ih rfl
    exact SlotStep.sound (hlast ▸ hs) h1 h2

end

section

open Term (atom crypto)

def answeringDevice : Device Term Unit where
  privateKey := atom 11
  publicKey := .pub (atom 11)
  lookupPeer _ := some ()
  peers _ :=
    { newPeer crypto (atom 11) (.pub (atom 10)) (atom 99) with
      handshake := { (newPeer crypto (atom 11) (.pub (atom 10)) (atom 99)).handshake with
        state := .responseCreated, localIndex := 9 } }

def confirmedDevice : Device Term Unit :=
  let begun := (answeringDevice.beginSymmetricSession crypto ()).1
  (begun.receivedWithKeypair () (begun.keypairs ()).next).1

theorem current_confirmed_responder :
    Relation.ReflTransGen (SlotStep crypto ()) (answeringDevice, []) (confirmedDevice, [0]) ∧
      (confirmedDevice.keypairs ()).current.map Keypair.isInitiator = some false ∧
      Confirmed (confirmedDevice.keypairs ()) [0] ∧ (confirmedDevice.keypairs ()).Distinct := by
  have hr : Relation.ReflTransGen (SlotStep crypto ()) (answeringDevice, [])
      (confirmedDevice, [0]) :=
    .tail (.tail .refl (.beginSymmetricSession _ _)) (.receivedWithKeypair _ _ _)
  exact ⟨hr, rfl, current_confirmed rfl hr⟩

end

end StarlingWg.Noise
