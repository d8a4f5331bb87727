import StarlingWg.Device.SendQueue

namespace StarlingWg.Device.StagingOrder

open Interaction SendQueue List Function

-- What a goroutine has off the channel: nothing, nothing but no room for the
-- container it stages, or a container with the elements that have no nonce yet
-- and those that have one. An empty container goes back to the pools at once.
inductive Hand (K : Type)
  | free
  | full
  | taken (todo bound : Container K)
  deriving DecidableEq

variable {τ K : Type}

def Hand.step (hand : Hand K) : {β : Type} → Op K β → β → Hand K
  | _, .offer _, placed => if placed then .free else .full
  | _, .receive, elems => match hand, elems with
    | .full, _ => .free
    | _, some (elem :: todo) => .taken (elem :: todo) []
    | _, _ => .free
  | _, .add keypair, value => match hand with
    | .taken (elem :: todo) bound =>
      .taken todo (bound ++ [{ elem with nonce := value - 1, keypair := some keypair }])
    | _ => hand
  | _, .outbound _, _ => .free
  | _, .release _, _ => .free
  | _, _, _ => hand

-- The peer, with all that was staged and the outbound queue by containers.
structure State (τ K : Type) where
  shared : Shared τ K
  hands : τ → Hand K := fun _ => .free
  history : List (Container K) := []
  queued : List (Container K) := []

def State.note (s : State τ K) : {β : Type} → Op K β → β → State τ K
  | _, .offer elems, placed => if placed then { s with history := s.history ++ [elems] } else s
  | _, .outbound elems, _ => { s with queued := s.queued ++ [elems] }
  | _, _, _ => s

def hasNonce : {β : Type} → Op K β → β → Bool
  | _, .add _, value => value - 1 < rejectAfterMessages
  | _, _, _ => true

-- The peer of SendQueue, with keypairs far from their last nonce.
def machine [DecidableEq τ] [DecidableEq K] (t : τ) : Machine (sig K) (State τ K) where
  admits := fun s {_} op reply => s.shared.admits op reply && hasNonce op reply
  effect := fun s {_} op reply => { s.note op reply with
    shared := (SendQueue.machine t).effect s.shared op reply
    hands := update s.hands t ((s.hands t).step op reply) }

-- As in SendQueue, except that others do not stage: they flush.
inductive Surroundings : State τ K → State τ K → Prop
  | of {s : State τ K} {shared : Shared τ K} : Environment s.shared shared →
    shared.staged <:+ s.shared.staged → Surroundings s { s with shared := shared }

-- A goroutine makes any calls of StagePackets, with their containers, and of
-- SendStagedPackets.
def goroutine : List (Option (Container K)) → Prog K Unit
  | [] => return
  | some elems :: calls => do
      invoke (.stagePackets elems)
      goroutine calls
  | none :: calls => do
      invoke .sendStagedPackets
      goroutine calls

def launch (calls : τ → List (Option (Container K))) (start : Shared τ K) : Pool (sig K) τ (State τ K) where
  threads t := goroutine (calls t)
  state := { shared := start, history := start.staged }

def packets (elems : Container K) : List Bytes := elems.map Element.packet

-- The queue has the containers in the order they were staged in, and the
-- nonces of a keypair increase along it.
structure InOrder (s : State τ K) : Prop where
  staged : (s.queued.map packets).Sublist (s.history.map packets)
  nonces : s.queued.flatten.Pairwise fun a b => a.keypair = b.keypair → a.nonce < b.nonce

def Hand.container : Hand K → List (List Bytes)
  | .taken todo bound => [packets (bound ++ todo)]
  | _ => []

def Hand.bound : Hand K → Container K
  | .taken _ bound => bound
  | _ => []

def isReceive : {β : Type} → Op K β → Bool
  | _, .receive => true
  | _, _ => false

-- No goroutine takes a container to send it while one has a container that it
-- has neither queued nor given back.
def Alone : Label (sig K) τ (State τ K) → Prop
  | .act t s op _ _ => isReceive op = true → s.hands t = .full ∨ ∀ u, (s.hands u).container = []
  | _ => True

instance {n : Nat} [DecidableEq K] : DecidablePred (Alone (τ := Fin n) (K := K)) := by
  intro label
  cases label <;> dsimp only [Alone] <;> infer_instance

section

def handMachine : Machine (sig K) (Hand K) where
  admits := fun _ {_} op reply => hasNonce op reply
  effect := fun hand {_} op reply => hand.step op reply

-- Nonces are drawn for the container in hand, element by element, and it is
-- queued when all have one.
def handSpec : Spec (sig K) (Hand K) where
  good hand _ op _ _ := match op with
    | .add _ => ∃ elem todo bound, hand = .taken (elem :: todo) bound
    | .store _ _ => False
    | .outbound elems => hand = .taken [] elems
    | _ => True
  pre
    | .stagePackets _, hand => hand = .free
    | .sendStagedPackets, hand => hand = .free
    | .drain _, hand => hand = .free
    | _, _ => False
  post
    | .stagePackets _, _, _, hand => hand = .free
    | .sendStagedPackets, _, _, hand => hand = .free
    | .drain _, _, _, hand => hand = .free
    | _, _, _, _ => True

theorem bindElements_holds (keypair : K) (elems bound : Container K) :
    wp handMachine handSpec (bindElements keypair elems)
      (fun result hand => result.2 = [] ∧ result.1.length = elems.length ∧
        hand = .taken [] (bound ++ result.1)) (.taken elems bound) := by
  induction elems generalizing bound with
  | nil => simp [bindElements]
  | cons elem rest ih =>
    simp only [bindElements, wp_bind, wp_act]
    refine fun value hadm => ⟨⟨elem, rest, bound, rfl⟩, ?_⟩
    have hlt : value - 1 < rejectAfterMessages := of_decide_eq_true hadm
    rw [if_neg (UInt64.not_le.mpr hlt), wp_bind]
    refine wp_mono (ih _) ?_
    rintro result _ ⟨hnone, hlength, rfl⟩
    simp [hnone, hlength]

theorem drain_holds (keypair : K) :
    wp handMachine handSpec (drain keypair) (fun _ hand => hand = .free) .free := by
  simp only [drain, wp_bind, wp_act]
  rintro (_ | _ | ⟨elem, todo⟩) -
  · exact ⟨trivial, rfl⟩
  · exact ⟨trivial, rfl, fun _ _ h => h⟩
  refine ⟨trivial, ?_⟩
  simp only [wp_bind]
  refine wp_mono (bindElements_holds keypair (elem :: todo) []) ?_
  rintro ⟨kept, outOfOrder⟩ _ ⟨rfl, hlength, rfl⟩
  obtain ⟨first, rest, rfl⟩ := exists_cons_of_length_eq_add_one hlength
  refine fun running _ => ⟨trivial, ?_⟩
  cases running with
  | false => exact fun _ _ => ⟨trivial, rfl, fun _ _ h => h⟩
  | true => exact fun _ _ => ⟨rfl, fun _ _ => ⟨trivial, rfl, fun _ _ h => h⟩⟩

theorem hand_verified : Verified bodies handMachine (handSpec (K := K)) := by
  intro β proc hand hpre
  cases proc with
  | stagePackets elems =>
    obtain rfl : hand = .free := hpre
    refine fun placed _ => ⟨trivial, ?_⟩
    cases placed with
    | true => rfl
    | false => exact fun _ _ => ⟨trivial, rfl, fun _ _ h => h⟩
  | sendStagedPackets =>
    obtain rfl : hand = .free := hpre
    refine wp_sendStagedPackets ?_ rfl fun keypair => ⟨rfl, fun _ h => h⟩
    intro β op reply hop
    cases op <;> first | exact ⟨trivial, rfl⟩ | cases hop
  | drain keypair =>
    obtain rfl : hand = .free := hpre
    exact drain_holds keypair
  | sender => exact hpre.elim
  | expirer => exact hpre.elim

theorem goroutine_holds (calls : List (Option (Container K))) :
    wp handMachine handSpec (goroutine calls) (fun _ _ => True) .free := by
  induction calls with
  | nil => trivial
  | cons call calls ih =>
    rcases call with _ | elems
    all_goals
      refine ⟨rfl, ?_⟩
      rintro _ _ rfl
      exact ih

end

-- What has gone into the queue, the container of a hand and the staged ones
-- follow each other in the history, and the nonces in the queue and the hand.
structure Fits (s : State τ K) (hand : Hand K) : Prop where
  order : (s.queued.map packets ++ hand.container ++ s.shared.staged.map packets).Sublist (s.history.map packets)
  drawn : ∀ elem ∈ s.queued.flatten ++ hand.bound, ∃ keypair, elem.keypair = some keypair ∧
    elem.nonce < s.shared.sendNonce keypair
  nonces : (s.queued.flatten ++ hand.bound).Pairwise fun a b => a.keypair = b.keypair → a.nonce < b.nonce

structure Ordered (s : State τ K) : Prop where
  single : ∀ t u, (s.hands t).container ≠ [] → (s.hands u).container ≠ [] → t = u
  fits : ∀ t, Fits s (s.hands t)

-- Containers are staged at the end and dropped at the front; nothing else moves.
structure Later (s s' : State τ K) : Prop where
  queued : s'.queued = s.queued
  sendNonce : s'.shared.sendNonce = s.shared.sendNonce
  staged : ∃ new, s'.shared.staged <:+ s.shared.staged ++ new ∧ s'.history = s.history ++ new

section

variable {s s' : State τ K} {hand hand' : Hand K}

theorem Later.of_dropped (hqueued : s'.queued = s.queued)
    (hnonce : s'.shared.sendNonce = s.shared.sendNonce) (hstaged : s'.shared.staged <:+ s.shared.staged)
    (hhistory : s'.history = s.history) : Later s s' :=
  ⟨hqueued, hnonce, [], by simpa using hstaged, by simpa using hhistory⟩

theorem Hand.bound_of_container (h : hand.container = []) : hand.bound = [] := by
  cases hand with
  | taken todo bound => cases h
  | _ => rfl

theorem Hand.step_receive {elems : Option (Container K)} (h : (hand.step .receive elems).container ≠ []) :
    hand ≠ .full ∧ ∃ elem todo, elems = some (elem :: todo) ∧
      hand.step .receive elems = .taken (elem :: todo) [] := by
  rcases elems with _ | _ | ⟨elem, todo⟩
  · cases hand <;> exact absurd rfl h
  · cases hand <;> exact absurd rfl h
  · cases hand with
    | full => exact absurd rfl h
    | _ => exact ⟨nofun, elem, todo, rfl, rfl⟩

theorem Fits.idle (h : Fits s hand) (hidle : hand'.container = []) : Fits s hand' := by
  obtain ⟨horder, hdrawn, hnonces⟩ := h
  have hbound := Hand.bound_of_container hidle
  refine ⟨.trans ?_ horder, fun elem helem => hdrawn elem ?_, .sublist ?_ hnonces⟩
  · simp [hidle]
  · simp only [hbound, append_nil] at helem
    exact mem_append_left _ helem
  · simp [hbound]

theorem Fits.later (h : Fits s hand) (hl : Later s s') : Fits s' hand := by
  obtain ⟨hqueued, hnonce, new, hstaged, hhistory⟩ := hl
  refine ⟨?_, hqueued ▸ hnonce ▸ h.drawn, hqueued ▸ h.nonces⟩
  have hadded := h.order.append (List.Sublist.refl (new.map packets))
  rw [append_assoc, ← map_append, ← map_append] at hadded
  rw [hqueued, hhistory]
  exact ((List.Sublist.refl _).append (hstaged.sublist.map packets)).trans hadded

theorem Ordered.later (h : Ordered s) (hl : Later s s')
    (hhands : ∀ t, s'.hands t = s.hands t ∨ (s'.hands t).container = []) : Ordered s' := by
  have hheld : ∀ t, (s'.hands t).container ≠ [] → (s.hands t).container ≠ [] :=
    fun t ht => (hhands t).resolve_right ht ▸ ht
  refine ⟨fun t u ht hu => h.single t u (hheld t ht) (hheld u hu), fun t => ?_⟩
  rcases hhands t with hsame | hidle
  · exact hsame ▸ (h.fits t).later hl
  · exact ((h.fits t).later hl).idle hidle

theorem Ordered.of_sole {t : τ} (hsole : ∀ u, u ≠ t → (s'.hands u).container = [])
    (hfits : Fits s' (s'.hands t)) : Ordered s' := by
  have heq : ∀ u, (s'.hands u).container ≠ [] → u = t := fun u hu => by_contra fun hne => hu (hsole u hne)
  refine ⟨fun u v hu hv => (heq u hu).trans (heq v hv).symm, fun u => ?_⟩
  by_cases hu : u = t
  · exact hu ▸ hfits
  · exact hfits.idle (hsole u hu)

variable [DecidableEq τ] {t : τ}

theorem Ordered.sole_of_taken (h : Ordered s) {todo bound : Container K} (ht : s.hands t = .taken todo bound)
    (u : τ) (hne : u ≠ t) : (update s.hands t hand u).container = [] := by
  rw [update_of_ne hne]
  exact by_contra fun hu => hne (h.single u t hu (by rw [ht]; exact cons_ne_nil _ _))

variable [DecidableEq K]

theorem Fits.add {keypair : K} {elem : Element K} {todo bound : Container K}
    (h : Fits s (.taken (elem :: todo) bound)) (hlimit : s.shared.sendNonce keypair < rejectAfterMessages) :
    Fits ((machine t).effect s (.add keypair) (s.shared.sendNonce keypair + 1)) (.taken todo
      (bound ++ [{ elem with nonce := s.shared.sendNonce keypair, keypair := some keypair }])) := by
  obtain ⟨horder, hdrawn, hnonces⟩ := h
  have hnext : s.shared.sendNonce keypair < s.shared.sendNonce keypair + 1 := by
    have hmax : rejectAfterMessages.toNat < 2 ^ 64 - 1 := by decide
    rw [UInt64.lt_iff_toNat_lt] at hlimit ⊢
    rw [UInt64.toNat_add, Nat.mod_eq_of_lt (by simp; omega)]
    exact Nat.lt_succ_self _
  refine ⟨?_, ?_, ?_⟩
  · simpa [Hand.container, packets, machine, State.note, SendQueue.machine, Shared.effect] using horder
  · simp only [Hand.bound, ← append_assoc, forall_mem_append, forall_mem_singleton]
    refine ⟨forall_mem_append.mp fun old hold => ?_, keypair, rfl,
      by simpa [machine, SendQueue.machine, Shared.effect] using hnext⟩
    obtain ⟨k, hk, hlt⟩ := hdrawn old hold
    refine ⟨k, hk, ?_⟩
    by_cases he : k = keypair
    · subst he
      exact UInt64.lt_trans hlt (by simpa [machine, SendQueue.machine, Shared.effect] using hnext)
    · simpa [machine, SendQueue.machine, Shared.effect, update_of_ne he] using hlt
  · simp only [Hand.bound, ← append_assoc]
    refine pairwise_append.mpr ⟨hnonces, pairwise_singleton .., fun old hold => ?_⟩
    obtain ⟨k, hk, hlt⟩ := hdrawn old hold
    simp only [forall_mem_singleton]
    intro hsame
    cases hk.symm.trans hsame
    exact hlt

theorem Ordered.step (h : Ordered s) {β : Type} {op : Op K β} {reply : β}
    (hadm : (machine t).admits s op reply = true) (hgood : handSpec.good (s.hands t) op reply hand)
    (halone : Alone (.act t s op reply s')) : Ordered ((machine t).effect s op reply) := by
  obtain ⟨hadm, hleft⟩ := (Bool.and_eq_true _ _).mp hadm
  have hfree : ∀ hand : Hand K, hand = s.hands t ∨ hand.container = [] → ∀ u,
      update s.hands t hand u = s.hands u ∨ (update s.hands t hand u).container = [] := by
    intro hand hhand
    refine (forall_update_iff s.hands (p := fun u hand => hand = s.hands u ∨ hand.container = [])).mpr
      ⟨hhand, fun u _ => .inl rfl⟩
  cases op with
  | add keypair =>
    obtain ⟨elem, todo, bound, ht⟩ := hgood
    obtain rfl : reply = s.shared.sendNonce keypair + 1 := by simpa [Shared.admits] using hadm
    have hlimit : s.shared.sendNonce keypair < rejectAfterMessages := by simpa [hasNonce] using hleft
    refine .of_sole (h.sole_of_taken ht) ?_
    have hfits := Fits.add (t := t) (ht ▸ h.fits t) hlimit
    simpa [machine, Hand.step, ht] using hfits
  | store keypair value => exact hgood.elim
  | outbound elems =>
    have ht : s.hands t = .taken [] elems := hgood
    obtain ⟨horder, hdrawn, hnonces⟩ := ht ▸ h.fits t
    refine .of_sole (h.sole_of_taken ht) ⟨?_, ?_, ?_⟩
    · simpa [machine, State.note, Hand.step, Hand.container, SendQueue.machine, Shared.effect] using horder
    · simpa [machine, State.note, Hand.step, Hand.bound, SendQueue.machine, Shared.effect] using hdrawn
    · simpa [machine, State.note, Hand.step, Hand.bound] using hnonces
  | receive =>
    have hdropped : Later s ((machine t).effect s .receive reply) :=
      .of_dropped rfl rfl (tail_suffix _) rfl
    by_cases hstep : ((s.hands t).step .receive reply).container = []
    · exact h.later hdropped (hfree _ (.inr hstep))
    · obtain ⟨hroom, elem, todo, rfl, htaken⟩ := Hand.step_receive hstep
      have hidle := (halone rfl).resolve_left hroom
      obtain ⟨rest, hrest⟩ := List.head?_eq_some_iff.mp (eq_of_beq hadm).symm
      obtain ⟨horder, hdrawn, hnonces⟩ : Fits s .free := (h.fits t).idle rfl
      refine .of_sole (t := t) (fun u hne => ?_) ?_
      · simpa [machine, update_of_ne hne] using hidle u
      have hhand : ((machine t).effect s .receive (some (elem :: todo))).hands t = .taken (elem :: todo) [] := by
        simp [machine, htaken]
      rw [hhand]
      refine ⟨?_, hdrawn, hnonces⟩
      simpa [machine, SendQueue.machine, Shared.effect, State.note, Hand.container, hrest] using horder
  | offer elems =>
    cases reply with
    | true => exact h.later ⟨rfl, rfl, [elems], suffix_refl _, rfl⟩ (hfree _ (.inr rfl))
    | false => exact h.later (.of_dropped rfl rfl (suffix_refl _) rfl) (hfree _ (.inr rfl))
  | release elems => exact h.later (.of_dropped rfl rfl (suffix_refl _) rfl) (hfree _ (.inr rfl))
  | _ => exact h.later (.of_dropped rfl rfl (suffix_refl _) rfl) (hfree _ (.inl rfl))

theorem machine_framed : Framed (machine (τ := τ) (K := K)) Surroundings (fun t s => s.hands t)
    fun _ => handMachine where
  admits _ _ _ _ _ hadm := ((Bool.and_eq_true _ _).mp hadm).2
  effect _ _ _ _ _ _ := update_self ..
  other _ _ _ _ _ _ _ hne := update_of_ne hne ..
  quiet _ _ henv _ := by
    cases henv
    rfl

-- A goroutine takes a container only after the one before it is queued or
-- given back, so the queue keeps the order of the channel.
theorem outbound_in_order_of_alone [Nonempty τ] {calls : τ → List (Option (Container K))} {start : Shared τ K}
    {labels : List (Label (sig K) τ (State τ K))} {last : Pool (sig K) τ (State τ K)}
    (hr : Pool.Steps bodies machine Surroundings (launch calls start) labels last)
    (halone : ∀ label ∈ labels, Alone label) : InOrder last.state := by
  have hinit : Ordered (launch calls start).state :=
    ⟨fun _ _ ht => absurd rfl ht, fun _ => ⟨by simp [launch, Hand.container], by simp [launch, Hand.bound],
      by simp [launch, Hand.bound]⟩⟩
  have hordered : Ordered last.state := by
    refine (hr.along Alone (fun _ => True) (fun pool => pool.Meets (fun t s => State.hands s t)
      (fun _ => handMachine) (fun _ => handSpec) (fun _ _ => True) ∧ Ordered pool.state) halone
      ⟨fun t => goroutine_holds (calls t), hinit⟩ ?_).1.2
    rintro pool label next hlabel hs ⟨hmeets, hpool⟩
    obtain ⟨hnext, hok⟩ := hmeets.step machine_framed (fun _ => hand_verified) hs
    refine ⟨⟨hnext, ?_⟩, trivial⟩
    cases hs with
    | act thread _ hadm => exact hpool.step hadm hok hlabel
    | enter => exact hpool
    | env henv =>
      obtain ⟨henv, hflushed⟩ := henv
      refine hpool.later (.of_dropped rfl ?_ hflushed rfl) fun _ => .inl rfl
      cases henv <;> rfl
  obtain ⟨t⟩ := ‹Nonempty τ›
  obtain ⟨horder, -, hnonces⟩ := hordered.fits t
  rw [append_assoc] at horder
  exact ⟨(sublist_append_left ..).trans horder, (pairwise_append.mp hnonces).1⟩

end

def first : Container Unit := [⟨[1], 0, none⟩, ⟨[2], 0, none⟩]

def second : Container Unit := [⟨[3], 0, none⟩]

def twoCallers (t : Fin 3) : List (Option (Container Unit)) :=
  if t.val = 0 then [some first, some second, none] else [none]

def fresh : Shared (Fin 3) Unit where
  sendNonce := fun _ => 0
  current := some ()

def replayed (allowed : Label (sig Unit) (Fin 3) (State (Fin 3) Unit) → Bool) (schedule : List (Fin 3)) :
    Option (Pool (sig Unit) (Fin 3) (State (Fin 3) Unit)) :=
  Pool.replay bodies machine (fun _ s {_} op => reply s.shared op) allowed schedule (launch twoCallers fresh)

theorem outbound_in_order_handed_over :
    ∃ labels last, Pool.Steps bodies machine Surroundings (launch twoCallers fresh) labels last ∧
      (∀ label ∈ labels, Alone label) ∧
      last.state.queued = [[⟨[1], 0, some ()⟩, ⟨[2], 1, some ()⟩], [⟨[3], 2, some ()⟩]] ∧
      InOrder last.state := by
  have hrun : (replayed (fun label => decide (Alone label)) (List.replicate 16 0 ++ List.replicate 12 1)).any
      (fun last => decide (last.state.queued =
        [[⟨[1], 0, some ()⟩, ⟨[2], 1, some ()⟩], [⟨[3], 2, some ()⟩]])) = true := by decide
  obtain ⟨labels, last, hr, hl, hp⟩ := Pool.reaches_of_replay Surroundings _ hrun
  have halone : ∀ label ∈ labels, Alone label := fun label hlabel => of_decide_eq_true (hl label hlabel)
  exact ⟨labels, last, hr, halone, of_decide_eq_true hp, outbound_in_order_of_alone hr halone⟩

-- The other goroutine takes the second container while the first is in hand.
theorem outbound_out_of_order :
    ∃ labels last, Pool.Steps bodies machine Surroundings (launch twoCallers fresh) labels last ∧
      last.state.history = [first, second] ∧
      last.state.queued = [[⟨[3], 2, some ()⟩], [⟨[1], 0, some ()⟩, ⟨[2], 1, some ()⟩]] ∧
      ¬InOrder last.state := by
  have hrun : (replayed (fun _ => true) (List.replicate 14 0 ++ List.replicate 12 1 ++ [0, 0])).any
      (fun last => decide (last.state.history = [first, second] ∧ last.state.queued =
        [[⟨[3], 2, some ()⟩], [⟨[1], 0, some ()⟩, ⟨[2], 1, some ()⟩]])) = true := by decide
  obtain ⟨labels, last, hr, -, hp⟩ := Pool.reaches_of_replay Surroundings _ hrun
  obtain ⟨hhistory, hqueued⟩ := of_decide_eq_true hp
  refine ⟨labels, last, hr, hhistory, hqueued, fun h => ?_⟩
  have hstaged := h.staged
  rw [hhistory, hqueued] at hstaged
  revert hstaged
  decide

end StarlingWg.Device.StagingOrder
