import StarlingWg.Interaction.Ledger
import StarlingWg.Interaction.Pool
import Mathlib.Algebra.Group.Nat.Defs
import Mathlib.Data.Finset.Card
import StarlingWg.Bytes

namespace StarlingWg.Device.SendQueue

open Interaction Function

def rejectAfterMessages : UInt64 := 18446744073709543423

def queueStagedSize : Nat := 128

-- A QueueOutboundElement. `K` are the Keypair objects.
structure Element (K : Type) where
  packet : Bytes
  nonce : UInt64
  keypair : Option K
  deriving DecidableEq

abbrev Container (K : Type) := List (Element K)

-- The atomic steps of SendStagedPackets, StagePackets and ExpireCurrentKeypairs.
-- `current` is Keypairs.Current, which takes the lock for reading; `expired` is
-- the test of the keypair's age.
inductive Op (K : Type) : Type → Type
  | stagedLen : Op K Nat
  | isUp : Op K Bool
  | current : Op K (Option K)
  | load (keypair : K) : Op K UInt64
  | expired (keypair : K) : Op K Bool
  | sendHandshakeInitiation : Op K Unit
  | receive : Op K (Option (Container K))
  | add (keypair : K) : Op K UInt64
  | store (keypair : K) (value : UInt64) : Op K Unit
  | offer (elems : Container K) : Op K Bool
  | isRunning : Op K Bool
  | outbound (elems : Container K) : Op K Unit
  | encryption (elems : Container K) : Op K Unit
  | release (elems : Container K) : Op K Unit
  | lock : Op K Unit
  | currentSlot : Op K (Option K)
  | nextSlot : Op K (Option K)
  | unlock : Op K Unit

inductive Proc (K : Type) : Type → Type
  | stagePackets (elems : Container K) : Proc K Unit
  | sendStagedPackets : Proc K Unit
  | drain (keypair : K) : Proc K Unit
  | sender : Proc K Unit
  | expirer : Proc K Unit

abbrev sig (K : Type) : Signature where
  Op := Op K
  Proc := Proc K

abbrev Prog (K α : Type) := Program (sig K) α

section

variable {K : Type}

abbrev perform {β : Type} (op : Op K β) : Prog K β := Program.act op

abbrev invoke {β : Type} (proc : Proc K β) : Prog K β := Program.call proc

-- Makes room by dropping the oldest container until the channel takes this one.
def stagePackets (elems : Container K) : Prog K Unit := do
  if ← perform (.offer elems) then
    return
  let _ ← perform .receive
  invoke (.stagePackets elems)

-- The loop over the elements of a container: those that got a nonce, and
-- those that have to be staged again.
def bindElements (keypair : K) : Container K → Prog K (Container K × Container K)
  | [] => return ([], [])
  | elem :: rest => do
      let value ← perform (.add keypair)
      let nonce := value - 1
      if rejectAfterMessages ≤ nonce then
        perform (.store keypair rejectAfterMessages)
        let (kept, outOfOrder) ← bindElements keypair rest
        return (kept, { elem with nonce := nonce } :: outOfOrder)
      else
        let (kept, outOfOrder) ← bindElements keypair rest
        return ({ elem with nonce := nonce, keypair := some keypair } :: kept, outOfOrder)

-- The part above the loop, where the label top is.
def sendStagedPackets : Prog K Unit := do
  if (← perform .stagedLen) = 0 then
    return
  if !(← perform .isUp) then
    return
  match ← perform .current with
  | none => perform .sendHandshakeInitiation
  | some keypair =>
    if rejectAfterMessages ≤ (← perform (.load keypair)) then
      perform .sendHandshakeInitiation
    else if ← perform (.expired keypair) then
      perform .sendHandshakeInitiation
    else
      invoke (.drain keypair)

-- The elements go to both queues, or back to the pools when the peer has stopped.
def handOver (kept : Container K) : Prog K Unit := do
  if ← perform .isRunning then
    perform (.outbound kept)
    perform (.encryption kept)
  else
    perform (.release kept)

-- A jump to top is a call of sendStagedPackets.
def finishRound (keypair : K) (kept outOfOrder : Container K) : Prog K Unit := do
  if kept.isEmpty then
    invoke .sendStagedPackets
  else
    handOver kept
    if !outOfOrder.isEmpty then
      invoke .sendStagedPackets
    else
      invoke (.drain keypair)

def drain (keypair : K) : Prog K Unit := do
  match ← perform .receive with
  | none => return
  | some elems =>
    let (kept, outOfOrder) ← bindElements keypair elems
    if !outOfOrder.isEmpty then
      invoke (.stagePackets outOfOrder)
    finishRound keypair kept outOfOrder

def expireCurrentKeypairs : Prog K Unit := do
  perform .lock
  match ← perform .currentSlot with
  | some keypair => perform (.store keypair rejectAfterMessages)
  | none => pure ()
  match ← perform .nextSlot with
  | some keypair => perform (.store keypair rejectAfterMessages)
  | none => pure ()
  perform .unlock

def sender : Prog K Unit := do
  invoke .sendStagedPackets
  invoke .sender

def expirer : Prog K Unit := do
  expireCurrentKeypairs
  invoke .expirer

def bodies : Bodies (sig K)
  | _, .stagePackets elems => stagePackets elems
  | _, .sendStagedPackets => sendStagedPackets
  | _, .drain keypair => drain keypair
  | _, .sender => sender
  | _, .expirer => expirer

end

section

variable {K S : Type} {m : Machine (sig K) S} {spec : Spec (sig K) S} {s : S} {post : Unit → S → Prop}

def Op.observes : {β : Type} → Op K β → Bool
  | _, .stagedLen => true
  | _, .isUp => true
  | _, .current => true
  | _, .load _ => true
  | _, .expired _ => true
  | _, .sendHandshakeInitiation => true
  | _, _ => false

-- Above the loop SendStagedPackets only looks at the peer.
theorem wp_sendStagedPackets (hlook : ∀ {β : Type} (op : Op K β) (reply : β), op.observes = true →
      spec.good s op reply s ∧ m.effect s op reply = s) (hdone : post () s)
    (hdrain : ∀ keypair, spec.pre (.drain keypair) s ∧
      ∀ s', spec.post (.drain keypair) s () s' → post () s') :
    wp m spec sendStagedPackets post s := by
  have hact : ∀ {β : Type} (op : Op K β) {next : β → Prog K Unit}, op.observes = true →
      (∀ reply, wp m spec (next reply) post s) → wp m spec (perform op >>= next) post s := by
    intro β op next hop hnext reply _
    obtain ⟨hgood, heffect⟩ := hlook op reply hop
    rw [heffect]
    exact ⟨hgood, hnext reply⟩
  have hinitiate : wp m spec (perform .sendHandshakeInitiation) post s :=
    @hact _ _ pure rfl fun _ => hdone
  refine hact _ rfl fun len => ?_
  split
  · exact hdone
  refine hact _ rfl fun up => ?_
  split
  · exact hdone
  refine hact _ rfl ?_
  rintro (_ | keypair)
  · exact hinitiate
  refine hact _ rfl fun value => ?_
  split
  · exact hinitiate
  refine hact _ rfl fun expired => ?_
  split
  · exact hinitiate
  · exact ⟨(hdrain keypair).1, fun _ => (hdrain keypair).2⟩

end

abbrev Binding (K : Type) := Option K × UInt64

def Element.binding {K : Type} (elem : Element K) : Binding K :=
  (elem.keypair, elem.nonce)

-- History of one goroutine: the nonces it has drawn for elements that are in
-- no queue yet, those of elements that are in the outbound queue only, and the
-- keypair whose counter it has moved past the limit and not yet moved back.
structure Own (K : Type) where
  held : List (Binding K) := []
  pushed : List (Binding K) := []
  pending : Option K := none
  deriving DecidableEq

def Own.added {K : Type} (own : Own K) (keypair : K) (nonce : UInt64) : Own K :=
  if nonce < rejectAfterMessages then { own with held := own.held ++ [(some keypair, nonce)] }
  else { own with pending := some keypair }

def Own.step {K : Type} (own : Own K) : {β : Type} → Op K β → β → Own K
  | _, .add keypair, value => own.added keypair (value - 1)
  | _, .store _ _, _ => { own with pending := none }
  | _, .outbound _, _ => { own with held := [], pushed := own.held }
  | _, .encryption _, _ => { own with pushed := [] }
  | _, .release _, _ => { own with held := [] }
  | _, _, _ => own

-- One peer: its keypair slots and their lock, the staged channel, everything
-- that has been put into the two queues so far, and each goroutine's history.
structure Shared (τ K : Type) where
  sendNonce : K → UInt64
  current : Option K := none
  next : Option K := none
  locked : Bool := false
  staged : List (Container K) := []
  up : Bool := true
  running : Bool := true
  outbound : List (Element K) := []
  encryption : List (Element K) := []
  own : τ → Own K := fun _ => {}

section

variable {τ K : Type} [DecidableEq τ] [DecidableEq K]

def Shared.admits (s : Shared τ K) : {β : Type} → Op K β → β → Bool
  | _, .stagedLen, n => n == s.staged.length
  | _, .isUp, b => b == s.up
  | _, .current, keypair => keypair == s.current && !s.locked
  | _, .load keypair, value => value == s.sendNonce keypair
  | _, .receive, elems => elems == s.staged.head?
  | _, .add keypair, value => value == s.sendNonce keypair + 1
  | _, .offer _, taken => taken == decide (s.staged.length < queueStagedSize)
  | _, .isRunning, b => b == s.running
  | _, .lock, _ => !s.locked
  | _, .currentSlot, keypair => keypair == s.current
  | _, .nextSlot, keypair => keypair == s.next
  | _, _, _ => true

def Shared.effect (s : Shared τ K) : {β : Type} → Op K β → β → Shared τ K
  | _, .receive, _ => { s with staged := s.staged.tail }
  | _, .add keypair, value => { s with sendNonce := update s.sendNonce keypair value }
  | _, .store keypair value, _ => { s with sendNonce := update s.sendNonce keypair value }
  | _, .offer elems, taken => if taken then { s with staged := s.staged ++ [elems] } else s
  | _, .outbound elems, _ => { s with outbound := s.outbound ++ elems }
  | _, .encryption elems, _ => { s with encryption := s.encryption ++ elems }
  | _, .lock, _ => { s with locked := true }
  | _, .unlock, _ => { s with locked := false }
  | _, _, _ => s

def machine (t : τ) : Machine (sig K) (Shared τ K) where
  admits := fun s {_} op reply => s.admits op reply
  effect := fun s {_} op reply =>
    { s.effect op reply with own := update s.own t ((s.own t).step op reply) }

-- What the rest of the device does: it stages and flushes packets, changes
-- the state of the device and of the peer, and rotates the keypairs under the lock.
inductive Environment : Shared τ K → Shared τ K → Prop
  | stage (s : Shared τ K) (staged : List (Container K)) : Environment s { s with staged := staged }
  | state (s : Shared τ K) (up running : Bool) :
      Environment s { s with up := up, running := running }
  | rotate (s : Shared τ K) (current next : Option K) : s.locked = false →
      Environment s { s with current := current, next := next }

variable (senders : Finset τ)

def launch (s : Shared τ K) : Pool (sig K) τ (Shared τ K) where
  threads t := if t ∈ senders then invoke .sender else invoke .expirer
  state := s

structure Start (s : Shared τ K) : Prop where
  sendNonce : ∀ keypair, s.sendNonce keypair ≤ rejectAfterMessages
  outbound : s.outbound = []
  encryption : s.encryption = []
  own : ∀ t, s.own t = {}

end

section

variable {τ K : Type} (senders : Finset τ) (t : τ)

def ownMachine : Machine (sig K) (Own K) where
  admits := fun _ {_} _ _ => true
  effect := fun own {_} op reply => own.step op reply

-- Only a sender draws nonces, and not while it owes a store; a store is of
-- the limit; and what is queued are the elements whose nonces were drawn.
def ownSpec : Spec (sig K) (Own K) where
  good own _ op _ _ := match op with
    | .add _ => t ∈ senders ∧ own.pending = none ∧ own.pushed = []
    | .store keypair value =>
      value = rejectAfterMessages ∧ (own.pending = none ∨ own.pending = some keypair)
    | .outbound elems => elems.map Element.binding = own.held ∧ own.pushed = []
    | .encryption elems => elems.map Element.binding = own.pushed ∧ own.held = []
    | .release _ => own.pushed = []
    | _ => True
  pre
    | .stagePackets _, _ => True
    | .sendStagedPackets, own => t ∈ senders ∧ own = {}
    | .drain _, own => t ∈ senders ∧ own = {}
    | .sender, own => t ∈ senders ∧ own = {}
    | .expirer, own => own = {}
  post
    | .stagePackets _, own, _, own' => own' = own
    | .sendStagedPackets, _, _, own' => own' = {}
    | .drain _, _, _, own' => own' = {}
    | .sender, _, _, _ => True
    | .expirer, _, _, _ => True

variable {senders t}

theorem bindElements_holds (ht : t ∈ senders) (keypair : K) (elems : Container K)
    (held : List (Binding K)) :
    wp ownMachine (ownSpec senders t) (bindElements keypair elems)
      (fun result own' => own' = { held := held ++ result.1.map Element.binding })
      { held := held } := by
  induction elems generalizing held with
  | nil => simp [bindElements]
  | cons elem rest ih =>
    simp only [bindElements, wp_bind, wp_act]
    refine fun value _ => ⟨⟨ht, rfl, rfl⟩, ?_⟩
    split
    · next hle =>
        have hadded : ownMachine.effect { held := held } (.add keypair) value =
            { held := held, pending := some keypair } := if_neg (UInt64.not_lt.mpr hle)
        rw [hadded]
        simp only [wp_bind, wp_act]
        exact fun _ _ => ⟨⟨rfl, .inr rfl⟩, wp_mono (ih held) fun result own' h => h⟩
    · next hlt =>
        have hadded : ownMachine.effect { held := held } (.add keypair) value =
            { held := held ++ [(some keypair, value - 1)] } := if_pos (UInt64.not_le.mp hlt)
        rw [hadded, wp_bind]
        refine wp_mono (ih _) fun result own' h => ?_
        rw [h]
        simp [Element.binding]

theorem handOver_holds (kept : Container K) :
    wp ownMachine (ownSpec senders t) (handOver kept) (fun _ own' => own' = {})
      { held := kept.map Element.binding } := by
  simp only [handOver, wp_bind, wp_act]
  refine fun running _ => ⟨trivial, ?_⟩
  split
  · simp only [wp_bind, wp_act]
    exact fun _ _ => ⟨⟨rfl, rfl⟩, fun _ _ => ⟨⟨rfl, rfl⟩, rfl⟩⟩
  · exact fun _ _ => ⟨rfl, rfl⟩

theorem finishRound_holds (ht : t ∈ senders) (keypair : K) (kept outOfOrder : Container K) :
    wp ownMachine (ownSpec senders t) (finishRound keypair kept outOfOrder)
      (fun _ own' => own' = {}) { held := kept.map Element.binding } := by
  unfold finishRound
  split
  · next hnone =>
      rw [List.isEmpty_iff.mp hnone]
      exact ⟨⟨ht, rfl⟩, fun _ _ h => h⟩
  · rw [wp_bind]
    refine wp_mono (handOver_holds kept) ?_
    rintro _ _ rfl
    split
    · exact ⟨⟨ht, rfl⟩, fun _ _ h => h⟩
    · exact ⟨⟨ht, rfl⟩, fun _ _ h => h⟩

theorem drain_holds (ht : t ∈ senders) (keypair : K) :
    wp ownMachine (ownSpec senders t) (drain keypair) (fun _ own' => own' = {}) {} := by
  simp only [drain, wp_bind, wp_act]
  rintro (_ | elems) -
  · exact ⟨trivial, rfl⟩
  refine ⟨trivial, ?_⟩
  simp only [wp_bind]
  refine wp_mono (bindElements_holds ht keypair elems []) ?_
  rintro ⟨kept, outOfOrder⟩ _ rfl
  have hrest := finishRound_holds ht keypair kept outOfOrder
  split
  · simp only [wp_bind, wp_call]
    refine ⟨trivial, ?_⟩
    rintro _ _ rfl
    exact hrest
  · exact hrest

theorem expireCurrentKeypairs_holds :
    wp ownMachine (ownSpec (K := K) senders t) expireCurrentKeypairs (fun _ own' => own' = {})
      {} := by
  have hnext : wp ownMachine (ownSpec (K := K) senders t) (do
      match ← perform .nextSlot with
      | some keypair => perform (.store keypair rejectAfterMessages)
      | none => pure ()
      perform .unlock) (fun _ own' => own' = {}) {} := by
    rintro (_ | keypair) -
    · exact ⟨trivial, fun _ _ => ⟨trivial, rfl⟩⟩
    · exact ⟨trivial, fun _ _ => ⟨⟨rfl, .inl rfl⟩, fun _ _ => ⟨trivial, rfl⟩⟩⟩
  refine fun _ _ => ⟨trivial, ?_⟩
  rintro (_ | keypair) -
  · exact ⟨trivial, hnext⟩
  · exact ⟨trivial, fun _ _ => ⟨⟨rfl, .inl rfl⟩, hnext⟩⟩

theorem own_verified : Verified bodies ownMachine (ownSpec (K := K) senders t) := by
  intro β proc own hpre
  cases proc with
  | stagePackets elems =>
    refine fun taken _ => ⟨trivial, ?_⟩
    cases taken with
    | true => rfl
    | false => exact fun _ _ => ⟨trivial, trivial, fun _ _ h => h⟩
  | sendStagedPackets =>
    obtain ⟨ht, rfl⟩ := hpre
    refine wp_sendStagedPackets ?_ rfl fun keypair => ⟨⟨ht, rfl⟩, fun _ h => h⟩
    intro β op reply hop
    cases op <;> first | exact ⟨trivial, rfl⟩ | cases hop
  | drain keypair =>
    obtain ⟨ht, rfl⟩ := hpre
    exact drain_holds ht keypair
  | sender => exact ⟨hpre, fun _ _ h => ⟨⟨hpre.1, h⟩, fun _ _ _ => trivial⟩⟩
  | expirer =>
    obtain rfl : own = {} := hpre
    exact wp_bind _ _ _ _ ▸ wp_mono expireCurrentKeypairs_holds
      fun _ _ h => ⟨h, fun _ _ _ => trivial⟩

end

section

variable {τ K : Type} [DecidableEq K] {senders : Finset τ} {s s' : Shared τ K} {t : τ} {own : Own K}

def Shared.Issued (s : Shared τ K) (b : Binding K) : Prop :=
  ∃ keypair, b.1 = some keypair ∧ b.2 < rejectAfterMessages ∧ b.2 < s.sendNonce keypair

def Shared.overrun (senders : Finset τ) (s : Shared τ K) (keypair : K) : Finset τ :=
  senders.filter fun t => (s.own t).pending = some keypair

structure Sound (senders : Finset τ) (s : Shared τ K) : Prop where
  bounded : ∀ keypair, (s.sendNonce keypair).toNat ≤
    rejectAfterMessages.toNat + (s.overrun senders keypair).card
  outbound : Ledger s.Issued (Own.held ∘ s.own) (s.outbound.map Element.binding)
  encryption : Ledger s.Issued ((fun own => own.held ++ own.pushed) ∘ s.own)
    (s.encryption.map Element.binding)

theorem Start.sound (h : Start s) : Sound senders s where
  bounded keypair := Nat.le_add_right_of_le (UInt64.le_iff_toNat_le.mp (h.sendNonce keypair))
  outbound := by
    constructor <;> simp [h.outbound, h.own]
  encryption := by
    constructor <;> simp [h.encryption, h.own]

theorem Sound.room (h : Sound senders s) (hfew : senders.card < 2 ^ 13) (ht : t ∈ senders)
    (hpending : (s.own t).pending = none) (keypair : K) :
    (s.sendNonce keypair).toNat + 1 < 2 ^ 64 := by
  have hsub : s.overrun senders keypair ⊂ senders := by
    refine Finset.filter_ssubset.mpr ⟨t, ht, ?_⟩
    simp [hpending]
  have hcard := Finset.card_lt_card hsub
  have hbound := h.bounded keypair
  have hlimit : rejectAfterMessages.toNat = 2 ^ 64 - 2 ^ 13 - 1 := by decide
  omega

omit [DecidableEq K] in
theorem Shared.Issued.mono {b : Binding K} (h : s.Issued b)
    (hup : ∀ keypair, s.sendNonce keypair ≤ s'.sendNonce keypair ∨
      rejectAfterMessages ≤ s'.sendNonce keypair) : s'.Issued b := by
  obtain ⟨keypair, hkeypair, hlimit, hlt⟩ := h
  refine ⟨keypair, hkeypair, hlimit, ?_⟩
  rcases hup keypair with hle | hle
  · exact UInt64.lt_of_lt_of_le hlt hle
  · exact UInt64.lt_of_lt_of_le hlimit hle

omit [DecidableEq K] in
theorem Shared.issued_congr (hnonce : s'.sendNonce = s.sendNonce) : s'.Issued = s.Issued := by
  unfold Shared.Issued
  rw [hnonce]

theorem Sound.congr (h : Sound senders s) (hown : s'.own = s.own)
    (hnonce : s'.sendNonce = s.sendNonce) (hout : s'.outbound = s.outbound)
    (henc : s'.encryption = s.encryption) : Sound senders s' := by
  have hissued := Shared.issued_congr hnonce
  constructor
  · intro keypair
    unfold Shared.overrun
    rw [hnonce, hown]
    exact h.bounded keypair
  · rw [hissued, hown, hout]
    exact h.outbound
  · rw [hissued, hown, henc]
    exact h.encryption

theorem le_of_next {keypair : K}
    (hnonce : s'.sendNonce = update s.sendNonce keypair (s.sendNonce keypair + 1))
    (hnext : (s.sendNonce keypair + 1).toNat = (s.sendNonce keypair).toNat + 1) (k : K) :
    s.sendNonce k ≤ s'.sendNonce k := by
  rw [hnonce]
  by_cases he : k = keypair
  · rw [he, update_self, UInt64.le_iff_toNat_le, hnext]
    omega
  · rw [update_of_ne he]
    exact UInt64.le_refl _

variable [DecidableEq τ]

theorem overrun_subset (senders : Finset τ) (hown : s'.own = update s.own t own)
    (keypair : K) (hpending : (s.own t).pending = some keypair → own.pending = some keypair) :
    s.overrun senders keypair ⊆ s'.overrun senders keypair := by
  intro u hu
  simp only [Shared.overrun, Finset.mem_filter, hown] at hu ⊢
  refine ⟨hu.1, ?_⟩
  by_cases hut : u = t
  · subst hut
    rw [update_self]
    exact hpending hu.2
  · rw [update_of_ne hut]
    exact hu.2

theorem Sound.moved (hown : s'.own = update s.own t own)
    (hbounded : ∀ keypair, (s'.sendNonce keypair).toNat ≤
      rejectAfterMessages.toNat + (s'.overrun senders keypair).card)
    (hout : Ledger s'.Issued (update (Own.held ∘ s.own) t own.held)
      (s'.outbound.map Element.binding))
    (henc : Ledger s'.Issued
      (update ((fun own => own.held ++ own.pushed) ∘ s.own) t (own.held ++ own.pushed))
      (s'.encryption.map Element.binding)) : Sound senders s' where
  bounded := hbounded
  outbound := by rwa [hown, comp_update]
  encryption := by rwa [hown, comp_update]

section

variable (h : Sound senders s) (hout : s'.outbound = s.outbound) (henc : s'.encryption = s.encryption)
include h hout henc

theorem Sound.held (hown : s'.own = update s.own t own)
    (hheld : own.held = (s.own t).held) (hpushed : own.pushed = (s.own t).pushed)
    (hbounded : ∀ keypair, (s'.sendNonce keypair).toNat ≤
      rejectAfterMessages.toNat + (s'.overrun senders keypair).card)
    (hup : ∀ keypair, s.sendNonce keypair ≤ s'.sendNonce keypair ∨
      rejectAfterMessages ≤ s'.sendNonce keypair) : Sound senders s' := by
  refine .moved hown hbounded ?_ ?_
  · rw [hheld, hout, ← comp_apply (f := Own.held), update_eq_self]
    exact h.outbound.mono fun b hb => hb.mono hup
  · have hsame : own.held ++ own.pushed =
        ((fun own : Own K => own.held ++ own.pushed) ∘ s.own) t := by
      rw [hheld, hpushed]
      rfl
    rw [hsame, henc, update_eq_self]
    exact h.encryption.mono fun b hb => hb.mono hup

theorem Sound.stored {keypair : K}
    (hpending : (s.own t).pending = none ∨ (s.own t).pending = some keypair)
    (hown : s'.own = update s.own t { s.own t with pending := none })
    (hnonce : s'.sendNonce = update s.sendNonce keypair rejectAfterMessages) :
    Sound senders s' := by
  refine h.held hout henc hown rfl rfl (fun k => ?_) fun k => ?_
  · rw [hnonce]
    by_cases he : k = keypair
    · simp [he]
    · have hcard := Finset.card_le_card <| overrun_subset senders hown k fun hk => by
          rcases hpending with hp | hp
          · simp [hk] at hp
          · exact absurd (Option.some.inj (hk.symm.trans hp)) he
      have hbound := h.bounded k
      rw [update_of_ne he]
      omega
  · rw [hnonce]
    by_cases he : k = keypair
    · simp [he]
    · simp [update_of_ne he]

theorem Sound.drawn {keypair : K} (hpushed : (s.own t).pushed = [])
    (hlimit : s.sendNonce keypair < rejectAfterMessages)
    (hown : s'.own = update s.own t
      { s.own t with held := (s.own t).held ++ [(some keypair, s.sendNonce keypair)] })
    (hnonce : s'.sendNonce = update s.sendNonce keypair (s.sendNonce keypair + 1))
    (hnext : (s.sendNonce keypair + 1).toNat = (s.sendNonce keypair).toNat + 1) :
    Sound senders s' := by
  have hup := le_of_next hnonce hnext
  have hfresh : ¬s.Issued (some keypair, s.sendNonce keypair) := by
    rintro ⟨k, hk, -, hlt⟩
    cases hk
    exact UInt64.lt_irrefl _ hlt
  have hnew : s'.Issued (some keypair, s.sendNonce keypair) := by
    refine ⟨keypair, rfl, hlimit, ?_⟩
    rw [hnonce, update_self, UInt64.lt_iff_toNat_lt, hnext]
    exact Nat.lt_succ_self _
  refine .moved hown (fun k => ?_) ?_ ?_
  · have hcard := Finset.card_le_card <| overrun_subset senders hown k fun hk => hk
    have hbound := h.bounded k
    rw [hnonce]
    by_cases he : k = keypair
    · rw [he, update_self, hnext]
      have := UInt64.lt_iff_toNat_lt.mp hlimit
      omega
    · rw [update_of_ne he]
      omega
  · rw [hout]
    exact h.outbound.issue hfresh (fun b hb => hb.mono fun k => .inl (hup k)) hnew
  · rw [henc]
    have hledger := h.encryption.issue (t := t) hfresh
      (fun b hb => hb.mono fun k => .inl (hup k)) hnew
    simpa [hpushed] using hledger

theorem Sound.overran {keypair : K} (ht : t ∈ senders) (hpending : (s.own t).pending = none)
    (hown : s'.own = update s.own t { s.own t with pending := some keypair })
    (hnonce : s'.sendNonce = update s.sendNonce keypair (s.sendNonce keypair + 1))
    (hnext : (s.sendNonce keypair + 1).toNat = (s.sendNonce keypair).toNat + 1) :
    Sound senders s' := by
  have hsub : ∀ k, s.overrun senders k ⊆ s'.overrun senders k := fun k =>
    overrun_subset senders hown k (by simp [hpending])
  refine h.held hout henc hown rfl rfl (fun k => ?_) fun k => .inl (le_of_next hnonce hnext k)
  · have hbound := h.bounded k
    rw [hnonce]
    by_cases he : k = keypair
    · subst he
      have hlt : (s.overrun senders k).card < (s'.overrun senders k).card := by
        refine Finset.card_lt_card ((Finset.ssubset_iff_of_subset (hsub k)).mpr ⟨t, ?_, ?_⟩)
        · simp [Shared.overrun, ht, hown]
        · simp [Shared.overrun, hpending]
      rw [update_self, hnext]
      omega
    · rw [update_of_ne he]
      have hcard := Finset.card_le_card (hsub k)
      omega

end

theorem Sound.added (h : Sound senders s) (hfew : senders.card < 2 ^ 13) (ht : t ∈ senders)
    (hpending : (s.own t).pending = none) (hpushed : (s.own t).pushed = []) (keypair : K) :
    Sound senders ((machine t).effect s (.add keypair) (s.sendNonce keypair + 1)) := by
  have hroom := h.room hfew ht hpending keypair
  have hnext : (s.sendNonce keypair + 1).toNat = (s.sendNonce keypair).toNat + 1 := by
    exact Nat.mod_eq_of_lt hroom
  have hown : ((machine t).effect s (.add keypair) (s.sendNonce keypair + 1)).own =
      update s.own t ((s.own t).added keypair (s.sendNonce keypair)) := by
    simp [machine, Own.step]
  by_cases hlimit : s.sendNonce keypair < rejectAfterMessages
  · rw [Own.added, if_pos hlimit] at hown
    exact h.drawn rfl rfl hpushed hlimit hown rfl hnext
  · rw [Own.added, if_neg hlimit] at hown
    exact h.overran rfl rfl ht hpending hown rfl hnext

theorem Sound.requeued (h : Sound senders s) (hown : s'.own = update s.own t own)
    (hpending : own.pending = (s.own t).pending) (hnonce : s'.sendNonce = s.sendNonce)
    (hout : Ledger s.Issued (update (Own.held ∘ s.own) t own.held)
      (s'.outbound.map Element.binding))
    (henc : Ledger s.Issued
      (update ((fun own => own.held ++ own.pushed) ∘ s.own) t (own.held ++ own.pushed))
      (s'.encryption.map Element.binding)) : Sound senders s' := by
  have hissued := Shared.issued_congr hnonce
  refine .moved hown (fun k => ?_) (hissued ▸ hout) (hissued ▸ henc)
  have hcard := Finset.card_le_card <| overrun_subset senders hown k (by rw [hpending]; exact id)
  have hbound := h.bounded k
  rw [hnonce]
  omega

theorem Sound.step (h : Sound senders s) (hfew : senders.card < 2 ^ 13) {β : Type} {op : Op K β}
    {reply : β} (hadm : s.admits op reply = true)
    (hgood : (ownSpec senders t).good (s.own t) op reply ((s.own t).step op reply)) :
    Sound senders ((machine t).effect s op reply) := by
  cases op with
  | add keypair =>
    obtain ⟨ht, hpending, hpushed⟩ := hgood
    obtain rfl : reply = s.sendNonce keypair + 1 := by simpa [Shared.admits] using hadm
    exact h.added hfew ht hpending hpushed keypair
  | store keypair value =>
    obtain ⟨rfl, hpending⟩ := hgood
    exact h.stored rfl rfl hpending rfl rfl
  | outbound elems =>
    obtain ⟨helems, hpushed⟩ := hgood
    refine h.requeued (t := t) rfl rfl rfl ?_ ?_
    · have hledger := h.outbound.enqueue (t := t)
      simpa [machine, Shared.effect, Own.step, helems] using hledger
    · have hsame : [] ++ (s.own t).held =
          ((fun own : Own K => own.held ++ own.pushed) ∘ s.own) t := by simp [hpushed]
      rw [Own.step, hsame, update_eq_self]
      exact h.encryption
  | encryption elems =>
    obtain ⟨helems, hheld⟩ := hgood
    refine h.requeued (t := t) rfl rfl rfl ?_ ?_
    · have hsame : (s.own t).held = (Own.held ∘ s.own) t := rfl
      rw [Own.step, hsame, update_eq_self]
      exact h.outbound
    · have hledger := h.encryption.enqueue (t := t)
      simpa [machine, Shared.effect, Own.step, helems, hheld] using hledger
  | release elems =>
    refine h.requeued (t := t) rfl rfl rfl h.outbound.drop ?_
    rw [Own.step, (hgood : (s.own t).pushed = [])]
    exact h.encryption.drop
  | offer elems =>
    have hsame : update s.own t (s.own t) = s.own := update_eq_self t s.own
    cases reply with
    | true => exact h.congr hsame rfl rfl rfl
    | false => exact h.congr hsame rfl rfl rfl
  | _ => exact h.congr (update_eq_self t s.own) rfl rfl rfl

theorem machine_framed : Framed (machine (τ := τ) (K := K)) Environment (fun t s => s.own t)
    fun _ => ownMachine where
  admits _ _ _ _ _ _ := rfl
  effect t s _ op reply _ := by simp [machine, ownMachine]
  other t s _ op reply _ viewer hne := by simp [machine, update_of_ne hne]
  quiet s s' h viewer := by cases h <;> rfl

omit [DecidableEq K] in
theorem launch_meets {start : Shared τ K} (h : Start start) :
    (launch senders start).Meets (fun t s => s.own t) (fun _ => ownMachine) (ownSpec senders)
      fun _ _ => True := by
  intro t
  simp only [launch, h.own]
  split
  · next ht => exact ⟨⟨ht, rfl⟩, fun _ _ _ => trivial⟩
  · exact ⟨rfl, fun _ _ _ => trivial⟩

theorem sound_of_steps {start : Shared τ K} (h : Start start) (hfew : senders.card < 2 ^ 13)
    {labels : List (Label (sig K) τ (Shared τ K))} {last : Pool (sig K) τ (Shared τ K)}
    (hr : Pool.Steps bodies machine Environment (launch senders start) labels last) :
    Sound senders last.state := by
  refine (hr.along (fun _ => True) (fun _ => True) (fun pool =>
    pool.Meets (fun t s => s.own t) (fun _ => ownMachine) (ownSpec senders) (fun _ _ => True) ∧
      Sound senders pool.state) (fun _ _ => trivial) ⟨launch_meets h, h.sound⟩ ?_).1.2
  rintro pool label next - hs ⟨hmeets, hsound⟩
  obtain ⟨hnext, hok⟩ := hmeets.step machine_framed (fun _ => own_verified) hs
  refine ⟨⟨hnext, ?_⟩, trivial⟩
  cases hs with
  | act thread _ hadm =>
    refine hsound.step hfew hadm ?_
    simpa [Label.Ok, machine] using hok
  | enter => exact hsound
  | env henv => cases henv <;> exact hsound.congr rfl rfl rfl rfl

end

section

variable {τ K : Type} [DecidableEq K]

structure NoncesUnique (s : Shared τ K) : Prop where
  outbound : (s.outbound.map Element.binding).Nodup
  encryption : (s.encryption.map Element.binding).Nodup
  limit : ∀ elem ∈ s.outbound ++ s.encryption, elem.keypair.isSome ∧
    elem.nonce < rejectAfterMessages

theorem Sound.noncesUnique {senders : Finset τ} {s : Shared τ K} (h : Sound senders s) :
    NoncesUnique s where
  outbound := h.outbound.queue_nodup
  encryption := h.encryption.queue_nodup
  limit elem helem := by
    have hissued : s.Issued elem.binding := by
      rcases List.mem_append.mp helem with hm | hm
      · exact h.outbound.queue_issued _ (List.mem_map_of_mem hm)
      · exact h.encryption.queue_issued _ (List.mem_map_of_mem hm)
    obtain ⟨keypair, hkeypair, hlimit, -⟩ := hissued
    exact ⟨Option.isSome_iff_exists.mpr ⟨keypair, hkeypair⟩, hlimit⟩

-- Each sender may overrun the limit once.
theorem sendStagedPackets_nonces_unique [DecidableEq τ] (senders : Finset τ) (hfew : senders.card < 2 ^ 13)
    {start : Shared τ K} (h : Start start) {labels : List (Label (sig K) τ (Shared τ K))}
    {last : Pool (sig K) τ (Shared τ K)}
    (hr : Pool.Steps bodies machine Environment (launch senders start) labels last) :
    NoncesUnique last.state :=
  (sound_of_steps h hfew hr).noncesUnique

end

def reply (s : Shared (Fin 3) Unit) : {β : Type} → Op Unit β → Option β
  | _, .stagedLen => some s.staged.length
  | _, .isUp => some s.up
  | _, .current => some s.current
  | _, .load keypair => some (s.sendNonce keypair)
  | _, .expired _ => some false
  | _, .sendHandshakeInitiation => some ()
  | _, .receive => some s.staged.head?
  | _, .add keypair => some (s.sendNonce keypair + 1)
  | _, .store _ _ => some ()
  | _, .offer _ => some (decide (s.staged.length < queueStagedSize))
  | _, .isRunning => some s.running
  | _, .outbound _ => some ()
  | _, .encryption _ => some ()
  | _, .release _ => some ()
  | _, .lock => some ()
  | _, .currentSlot => some s.current
  | _, .nextSlot => some s.next
  | _, .unlock => some ()

def lastNonce : Shared (Fin 3) Unit where
  sendNonce := fun _ => rejectAfterMessages - 1
  current := some ()
  staged := [[⟨[1], 0, none⟩], [⟨[2], 0, none⟩]]

def lastNonceSchedule : List (Fin 3) :=
  List.replicate 9 0 ++ List.replicate 9 1 ++ [0, 1] ++ List.replicate 4 2 ++ List.replicate 3 0

def lastNonceRun : Option (Pool (sig Unit) (Fin 3) (Shared (Fin 3) Unit)) :=
  Pool.replay bodies machine (fun _ s {_} op => reply s op) (fun _ => true) lastNonceSchedule
    (launch {0, 1} lastNonce)

theorem sendStagedPackets_nonces_unique_last :
    ∃ labels last, Pool.Steps bodies machine Environment (launch {0, 1} lastNonce) labels last ∧
      last.state.encryption = [⟨[1], rejectAfterMessages - 1, some ()⟩] ∧
      (last.state.own 1).pending = some () ∧ NoncesUnique last.state := by
  have hstart : Start lastNonce := ⟨fun _ => (by decide : rejectAfterMessages - 1 ≤ rejectAfterMessages),
    rfl, rfl, fun _ => rfl⟩
  have hrun : lastNonceRun.any (fun last => decide
      (last.state.encryption = [⟨[1], rejectAfterMessages - 1, some ()⟩] ∧
        (last.state.own 1).pending = some ())) = true := by decide
  obtain ⟨labels, last, hr, -, hp⟩ := Pool.reaches_of_replay Environment _ hrun
  obtain ⟨hqueued, hpending⟩ := of_decide_eq_true hp
  exact ⟨labels, last, hr, hqueued, hpending,
    sendStagedPackets_nonces_unique {0, 1} (by decide) hstart hr⟩

end StarlingWg.Device.SendQueue
