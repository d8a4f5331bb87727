import StarlingWg.Noise.Initiations

namespace StarlingWg.Noise

open Function Option

section

variable {B ι : Type} (c : Crypto B) (dev : Device B ι)

-- The chain key and the key of the static field, and what the field is bound to.
def Device.staticKeys (msg : MessageInitiation B) : B × B :=
  c.kdf2 (c.kdf1 c.initialChainKey msg.ephemeral) (c.scalarMult dev.privateKey msg.ephemeral)

def Device.staticHash (msg : MessageInitiation B) : B :=
  c.mixHash (c.mixHash c.initialHash dev.publicKey) msg.ephemeral

def Device.timestampKey (msg : MessageInitiation B) (peer : ι) : B :=
  (c.kdf2 (dev.staticKeys c msg).1 (dev.handshake peer).precomputedStaticStatic).2

def Device.timestampHash (msg : MessageInitiation B) : B :=
  c.mixHash (dev.staticHash c msg) msg.static

def Handshake.responseKeys (h : Handshake B) (privateKey : B) (msg : MessageResponse B) :
    B × B × B :=
  let chainKey := c.kdf1 h.chainKey msg.ephemeral
  let chainKey := c.kdf1 chainKey (c.scalarMult h.localEphemeral msg.ephemeral)
  let chainKey := c.kdf1 chainKey (c.scalarMult privateKey msg.ephemeral)
  c.kdf3 chainKey h.presharedKey

def Handshake.responseHash (h : Handshake B) (privateKey : B) (msg : MessageResponse B) : B :=
  c.mixHash (c.mixHash h.hash msg.ephemeral) (h.responseKeys c privateKey msg).2.1

variable {c dev} [DecidableEq B]

theorem Crypto.sharedSecret_eq_some {sk pk ss : B} (h : c.sharedSecret sk pk = some ss) :
    ss = c.scalarMult sk pk := by
  unfold Crypto.sharedSecret at h
  dsimp only at h
  split at h
  · simp at h
  · exact (Option.some.inj h).symm

theorem checkInitiation_opened {msg : MessageInitiation B} {checked : Device.Initiated B ι}
    (h : dev.checkInitiation c msg = some checked) :
    ∃ peerPK plain, c.aeadOpen (dev.staticKeys c msg).2 msg.static (dev.staticHash c msg) =
        some peerPK ∧
      dev.lookupPeer peerPK = some checked.peer ∧
      c.aeadOpen (dev.timestampKey c msg checked.peer) msg.timestamp (dev.timestampHash c msg) =
        some plain ∧
      Timestamp.after (c.readStamp plain) (dev.handshake checked.peer).lastTimestamp = true := by
  obtain ⟨hopen, hafter⟩ := checkInitiation_opens h
  unfold Device.openInitiation at hopen
  split at hopen
  · simp at hopen
  · simp only [bind_eq_bind, bind_eq_some_iff] at hopen
    obtain ⟨ss, hss, peerPK, hpk, peer, hpeer, plain, hplain, hchecked⟩ := hopen
    obtain rfl := Crypto.sharedSecret_eq_some hss
    cases hchecked
    exact ⟨peerPK, plain, hpk, hpeer, hplain, hafter⟩

theorem checkResponse_opened {h : Handshake B} {privateKey : B} {msg : MessageResponse B}
    {result : B × B} (hcheck : h.checkResponse c privateKey msg = some result) :
    h.state = .initiationCreated ∧
      ∃ plain, c.aeadOpen (h.responseKeys c privateKey msg).2.2 msg.empty
        (h.responseHash c privateKey msg) = some plain := by
  unfold Handshake.checkResponse at hcheck
  split at hcheck
  · simp at hcheck
  · next hstate =>
      simp only [bind_eq_bind, bind_eq_some_iff] at hcheck
      obtain ⟨ss, hss, ss', hss', plain, hplain, -⟩ := hcheck
      obtain rfl := Crypto.sharedSecret_eq_some hss
      obtain rfl := Crypto.sharedSecret_eq_some hss'
      exact ⟨Decidable.not_not.mp hstate, plain, hplain⟩

end

section

variable {B ι : Type} [DecidableEq ι] {c : Crypto B} {dev dev' : Device B ι} {peer : ι}

omit [DecidableEq ι] in
theorem IndexTable.deleteKeypair_apply (table : IndexTable B ι) (old : Option (Keypair B))
    (i : Index) : table.deleteKeypair old i = none ∨ table.deleteKeypair old i = table i := by
  cases old with
  | none => exact .inr rfl
  | some key =>
    by_cases hi : i = key.localIndex
    · subst hi
      exact .inl (update_self ..)
    · exact .inr (update_of_ne hi ..)

omit [DecidableEq ι] in
theorem Keypairs.rotate_apply (keypairs : Keypairs B) (keypair : Keypair B)
    (table : IndexTable B ι) (i : Index) :
    (keypairs.rotate keypair table).2 i = none ∨ (keypairs.rotate keypair table).2 i = table i := by
  have htwice : ∀ first second : Option (Keypair B),
      (table.deleteKeypair first).deleteKeypair second i = none ∨
      (table.deleteKeypair first).deleteKeypair second i = table i := by
    intro first second
    rcases (table.deleteKeypair first).deleteKeypair_apply second i with hnone | hkept
    · exact .inl hnone
    · rw [hkept]
      exact table.deleteKeypair_apply first i
  unfold Keypairs.rotate
  dsimp only
  split
  · split
    · exact htwice _ _
    · exact table.deleteKeypair_apply _ i
  · exact htwice _ _

theorem receivedWithKeypair_indexTable (dev : Device B ι) (peer : ι)
    (received : Option (Keypair B)) (i : Index) :
    (dev.receivedWithKeypair peer received).1.indexTable i = none ∨
      (dev.receivedWithKeypair peer received).1.indexTable i = dev.indexTable i := by
  unfold Device.receivedWithKeypair
  dsimp only
  split
  · exact .inr rfl
  · exact dev.indexTable.deleteKeypair_apply _ i

variable {i : Index} {entry : IndexTableEntry B ι} {other : ι} {msg : MessageResponse B}

omit [DecidableEq ι] in
theorem swapIndexForKeypair_handshake {table : IndexTable B ι} {index : Index} {keypair : Keypair B}
    (h : table.swapIndexForKeypair index keypair i = some entry)
    (hother : entry.handshake = some other) : table i = some entry := by
  cases hold : table index with
  | none => simpa only [IndexTable.swapIndexForKeypair, hold] using h
  | some old =>
    simp only [IndexTable.swapIndexForKeypair, hold] at h
    by_cases hi : i = index
    · subst hi
      rw [update_self] at h
      cases h
      simp at hother
    · rwa [update_of_ne hi] at h

theorem beginSymmetricSession_entry
    (h : (dev.beginSymmetricSession c peer).1.indexTable i = some entry)
    (hother : entry.handshake = some other) : dev.indexTable i = some entry := by
  cases hk : dev.deriveKeypair c peer with
  | none => rwa [beginSymmetricSession_none hk] at h
  | some keypair =>
    rw [beginSymmetricSession_some hk] at h
    rcases (dev.keypairs peer).rotate_apply keypair
      (dev.indexTable.swapIndexForKeypair (dev.handshake peer).localIndex keypair) i with
      hnone | hkept
    · exact absurd (hnone.symm.trans h) (by simp)
    · exact swapIndexForKeypair_handshake (hkept.symm.trans h) hother

theorem beginSymmetricSession_state (h : (dev.handshake other).state ≠ .initiationCreated) :
    ((dev.beginSymmetricSession c peer).1.handshake other).state ≠ .initiationCreated := by
  cases hk : dev.deriveKeypair c peer with
  | none => rwa [beginSymmetricSession_none hk]
  | some keypair =>
    rw [beginSymmetricSession_some hk, allocate_handshake]
    by_cases ho : other = peer
    · rw [ho, store_handshake_self]
      simp [Handshake.finish]
    · rwa [store_handshake_of_ne ho]

variable [DecidableEq B]

theorem consumeMessageResponse_of_idle
    (h : ∀ entry other, dev.indexTable msg.receiver = some entry → entry.handshake = some other →
      (dev.handshake other).state ≠ .initiationCreated) :
    dev.consumeMessageResponse c msg = (dev, none) := by
  unfold Device.consumeMessageResponse
  split
  · rfl
  split
  · rfl
  next entry hentry =>
    split
    · rfl
    next other hother =>
      rw [Handshake.checkResponse, if_pos (h entry other hentry hother)]

theorem consumeMessageResponse_cases (c : Crypto B) (dev : Device B ι) (msg : MessageResponse B) :
    dev.consumeMessageResponse c msg = (dev, none) ∨
      ∃ entry other result, dev.indexTable msg.receiver = some entry ∧
        entry.handshake = some other ∧
        (dev.handshake other).checkResponse c dev.privateKey msg = some result ∧
        dev.consumeMessageResponse c msg =
          (dev.commitResponse other msg result.1 result.2, some entry.peer) := by
  unfold Device.consumeMessageResponse
  split
  · exact .inl rfl
  split
  · exact .inl rfl
  next entry hentry =>
    split
    · exact .inl rfl
    next other hother =>
      split
      · exact .inl rfl
      next hash chainKey hcheck =>
        exact .inr ⟨entry, other, (hash, chainKey), hentry, hother, hcheck, rfl⟩

theorem consumeMessageResponse_again (h : dev.consumeMessageResponse c msg = (dev', some peer)) :
    (dev'.beginSymmetricSession c peer).1.consumeMessageResponse c msg =
      ((dev'.beginSymmetricSession c peer).1, none) := by
  obtain ⟨entry, other, hash, chainKey, hentry, hother, hdev⟩ : ∃ entry other hash chainKey,
      dev.indexTable msg.receiver = some entry ∧ entry.handshake = some other ∧
      dev' = dev.commitResponse other msg hash chainKey := by
    rcases consumeMessageResponse_cases c dev msg with
      hnone | ⟨entry, other, result, hentry, hother, -, hsome⟩
    · simp [hnone] at h
    · exact ⟨entry, other, _, _, hentry, hother, (Prod.mk.inj (h.symm.trans hsome)).1⟩
  have hstate : (dev'.handshake other).state ≠ .initiationCreated := by
    rw [hdev, Device.commitResponse, storeHandshake_handshake_self]
    simp
  apply consumeMessageResponse_of_idle
  intro entry' other' hentry' hother'
  have hsame : dev'.indexTable msg.receiver = some entry' :=
    beginSymmetricSession_entry hentry' hother'
  rw [hdev] at hsame
  obtain rfl : entry = entry' := Option.some.inj (hentry.symm.trans hsame)
  obtain rfl : other = other' := Option.some.inj (hother.symm.trans hother')
  exact beginSymmetricSession_state hstate

omit [DecidableEq ι] in
theorem checkInitiation_again {msg : MessageInitiation B} {checked : Device.Initiated B ι}
    (h : dev.checkInitiation c msg = some checked) (hkeys : dev.SameKeys dev')
    (hlast : checked.timestamp ≤ (dev'.handshake checked.peer).lastTimestamp) :
    dev'.checkInitiation c msg = none := by
  rw [eq_none_iff_forall_not_mem]
  intro checked' hchecked'
  obtain ⟨hopen', hafter⟩ := checkInitiation_opens hchecked'
  rw [hkeys.openInitiation, (checkInitiation_opens h).1] at hopen'
  obtain rfl := Option.some.inj hopen'
  simp only [Timestamp.after, decide_eq_true_eq] at hafter
  exact absurd hafter (BitVec.not_lt.mpr hlast)

end

end StarlingWg.Noise
