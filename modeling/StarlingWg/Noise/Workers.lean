import StarlingWg.Interaction.Pool
import StarlingWg.Noise.Agreement
import StarlingWg.Noise.Ownership

namespace StarlingWg.Noise.Workers

open Interaction Function Option

-- What a worker takes from the handshake queue. A packet that is no handshake
-- message, or whose MACs or rate the worker refuses, is skipped.
inductive Packet (B : Type)
  | initiation (msg : MessageInitiation B)
  | response (msg : MessageResponse B)
  | skipped

-- What timers, traffic and the configuration ask for at any time.
inductive Request (B ι : Type)
  | createMessageInitiation (peer : ι) (timestamp : Timestamp)
  | receivedWithKeypair (peer : ι) (received : Option (Keypair B))
  | expireCurrentKeypairs (peer : ι)
  | zeroAndFlushAll (peer : ι)

-- The sections under a lock. The two halves of the Consume functions are
-- separate, and so is the lookup in the index table.
inductive Op (B ι : Type) : Type → Type
  | receive : Op B ι (Packet B)
  | request : Op B ι (Request B ι)
  | random : Op B ι (Random B)
  | checkInitiation (msg : MessageInitiation B) : Op B ι (Option (Device.Initiated B ι))
  | commitInitiation (msg : MessageInitiation B) (checked : Device.Initiated B ι) : Op B ι Unit
  | createMessageResponse (peer : ι) (random : Random B) : Op B ι (Option (MessageResponse B))
  | lookup (receiver : Index) : Op B ι (Option (IndexTableEntry B ι))
  | checkResponse (handshake : ι) (msg : MessageResponse B) : Op B ι (Option (B × B))
  | commitResponse (handshake : ι) (msg : MessageResponse B) (hash chainKey : B) : Op B ι Unit
  | beginSymmetricSession (peer : ι) : Op B ι Bool
  | createMessageInitiation (peer : ι) (random : Random B) (timestamp : Timestamp) :
      Op B ι (Option (MessageInitiation B))
  | receivedWithKeypair (peer : ι) (received : Option (Keypair B)) : Op B ι Bool
  | expireCurrentKeypairs (peer : ι) : Op B ι Unit
  | zeroAndFlushAll (peer : ι) : Op B ι Unit

inductive Proc : Type → Type
  | routineHandshake : Proc Unit
  | routineRequests : Proc Unit

abbrev sig (B ι : Type) : Signature where
  Op := Op B ι
  Proc := Proc

abbrev Prog (B ι α : Type) := Program (sig B ι) α

section

variable {B ι : Type}

abbrev perform {β : Type} (op : Op B ι β) : Prog B ι β := Program.act op

abbrev invoke {β : Type} (proc : Proc β) : Prog B ι β := Program.call proc

def consumeMessageInitiation (msg : MessageInitiation B) : Prog B ι (Option ι) := do
  match ← perform (.checkInitiation msg) with
  | none => return none
  | some checked =>
    perform (.commitInitiation msg checked)
    return some checked.peer

def consumeMessageResponse (msg : MessageResponse B) : Prog B ι (Option ι) := do
  if msg.type ≠ messageResponseType then
    return none
  match ← perform (.lookup msg.receiver) with
  | none => return none
  | some lookup =>
    match lookup.handshake with
    | none => return none
    | some handshake =>
      match ← perform (.checkResponse handshake msg) with
      | none => return none
      | some (hash, chainKey) =>
        perform (.commitResponse handshake msg hash chainKey)
        return some lookup.peer

def sendHandshakeResponse (peer : ι) : Prog B ι Unit := do
  let random ← perform .random
  match ← perform (.createMessageResponse peer random) with
  | none => return
  | some _ =>
    let _ ← perform (.beginSymmetricSession peer)
    return

def handle : Packet B → Prog B ι Unit
  | .initiation msg => do
      match ← consumeMessageInitiation { msg with type := messageInitiationType } with
      | none => return
      | some peer => sendHandshakeResponse peer
  | .response msg => do
      match ← consumeMessageResponse { msg with type := messageResponseType } with
      | none => return
      | some peer =>
        let _ ← perform (.beginSymmetricSession peer)
        return
  | .skipped => return

def routineHandshake : Prog B ι Unit := do
  handle (← perform .receive)
  invoke .routineHandshake

def serve : Request B ι → Prog B ι Unit
  | .createMessageInitiation peer timestamp => do
      let random ← perform .random
      let _ ← perform (.createMessageInitiation peer random timestamp)
      return
  | .receivedWithKeypair peer received => do
      let _ ← perform (.receivedWithKeypair peer received)
      return
  | .expireCurrentKeypairs peer => perform (.expireCurrentKeypairs peer)
  | .zeroAndFlushAll peer => perform (.zeroAndFlushAll peer)

def routineRequests : Prog B ι Unit := do
  serve (← perform .request)
  invoke .routineRequests

def bodies : Bodies (sig B ι)
  | _, .routineHandshake => routineHandshake
  | _, .routineRequests => routineRequests

end

-- An initiation this device has created, by its ephemeral key and, unless
-- the call failed half way, the index it was sent with.
structure Origin (B : Type) where
  ephemeral : B
  sender : Option Index
  deriving DecidableEq

-- A keypair that BeginSymmetricSession has put into a slot, the initiation
-- that its keys come from, and what the table had under its index then.
structure Installed (B ι : Type) where
  peer : ι
  keypair : Keypair B
  origin : Option (Origin B)
  entry : Option (IndexTableEntry B ι)
  deriving DecidableEq

inductive Passed (B ι : Type)
  | initiation (msg : MessageInitiation B) (checked : Device.Initiated B ι)
  | response (handshake : ι) (msg : MessageResponse B) (hash chainKey : B)
  deriving DecidableEq

-- What has happened so far. `origin` is the initiation that the chain key of
-- a peer's handshake continues, `read` the one a thread saw in its last check.
structure Log (B ι τ : Type) where
  consumed : List (MessageInitiation B × Device.Initiated B ι) := []
  installed : List (Installed B ι) := []
  ephemerals : List B := []
  origin : ι → Option (Origin B) := fun _ => none
  passed : τ → Option (Passed B ι) := fun _ => none
  read : τ → Option (Origin B) := fun _ => none

structure World (B ι τ : Type) where
  device : Device B ι
  log : Log B ι τ := {}

section

variable {B ι τ : Type} [DecidableEq B] [DecidableEq ι] [DecidableEq τ] (c : Crypto B)

-- A call that creates a message returns once it has found a free index.
def replies (dev : Device B ι) : {β : Type} → Op B ι β → β → Bool
  | _, .checkInitiation msg, reply => reply = dev.checkInitiation c msg
  | _, .createMessageResponse peer random, reply =>
    (dev.createMessageResponse c peer random).any fun result => reply = result.2.toOption
  | _, .lookup receiver, reply => reply = dev.indexTable receiver
  | _, .checkResponse handshake msg, reply =>
    reply = (dev.handshake handshake).checkResponse c dev.privateKey msg
  | _, .beginSymmetricSession peer, reply => reply = (dev.beginSymmetricSession c peer).2.toBool
  | _, .createMessageInitiation peer random timestamp, reply =>
    (dev.createMessageInitiation c peer random timestamp).any fun result =>
      reply = result.2.toOption
  | _, .receivedWithKeypair peer received, reply =>
    reply = (dev.receivedWithKeypair peer received).2
  | _, _, _ => true

def effect (dev : Device B ι) : {β : Type} → Op B ι β → Device B ι
  | _, .commitInitiation msg checked => dev.commitInitiation msg checked
  | _, .createMessageResponse peer random =>
    ((dev.createMessageResponse c peer random).map Prod.fst).getD dev
  | _, .commitResponse handshake msg hash chainKey =>
    dev.commitResponse handshake msg hash chainKey
  | _, .beginSymmetricSession peer => (dev.beginSymmetricSession c peer).1
  | _, .createMessageInitiation peer random timestamp =>
    ((dev.createMessageInitiation c peer random timestamp).map Prod.fst).getD dev
  | _, .receivedWithKeypair peer received => (dev.receivedWithKeypair peer received).1
  | _, .expireCurrentKeypairs peer => dev.expireCurrentKeypairs c peer
  | _, .zeroAndFlushAll peer => dev.zeroAndFlushAll c peer
  | _, _ => dev

def passes {B ι : Type} (passed : Option (Passed B ι)) : {β : Type} → Op B ι β → β →
    Option (Passed B ι)
  | _, .checkInitiation msg, reply => (reply.map (.initiation msg)).or passed
  | _, .checkResponse handshake msg, reply =>
    (reply.map fun keys => .response handshake msg keys.1 keys.2).or passed
  | _, _, _ => passed

-- The chain key of a handshake continues a new initiation after
-- CreateMessageInitiation, the one its check has seen after a response, and
-- none once it is overwritten.
def record (w : World B ι τ) (t : τ) : {β : Type} → Op B ι β → β → Log B ι τ
  | _, .commitInitiation msg checked, _ =>
    { w.log with
      consumed := w.log.consumed ++ [(msg, checked)]
      origin := update w.log.origin checked.peer none }
  | _, .createMessageResponse _ random, _ =>
    { w.log with ephemerals := w.log.ephemerals ++ [c.publicKey random.ephemeral] }
  | _, .checkResponse handshake _, reply =>
    if reply.isSome then
      { w.log with read := update w.log.read t (w.log.origin handshake) }
    else w.log
  | _, .commitResponse handshake _ _ _, _ =>
    { w.log with origin := update w.log.origin handshake (w.log.read t) }
  | _, .beginSymmetricSession peer, _ =>
    match w.device.deriveKeypair c peer with
    | none => w.log
    | some keypair =>
      { w.log with
        installed := w.log.installed ++ [⟨peer, keypair, w.log.origin peer,
          (w.device.beginSymmetricSession c peer).1.indexTable keypair.localIndex⟩]
        origin := update w.log.origin peer none }
  | _, .createMessageInitiation peer random _, reply =>
    { w.log with
      ephemerals := w.log.ephemerals ++ [c.publicKey random.ephemeral]
      origin := update w.log.origin peer
        (some ⟨c.publicKey random.ephemeral, reply.map MessageInitiation.sender⟩) }
  | _, .expireCurrentKeypairs peer, _ =>
    { w.log with origin := update w.log.origin peer none }
  | _, .zeroAndFlushAll peer, _ =>
    { w.log with origin := update w.log.origin peer none }
  | _, _, _ => w.log

def World.pass (w : World B ι τ) (t : τ) (passed : Option (Passed B ι)) : World B ι τ :=
  { w with log := { w.log with passed := update w.log.passed t passed } }

def machine (t : τ) : Machine (sig B ι) (World B ι τ) where
  admits := fun w {_} op reply => replies c w.device op reply
  effect := fun w {_} op reply =>
    (⟨effect c w.device op, record c w t op reply⟩ : World B ι τ).pass t
      (passes (w.log.passed t) op reply)

inductive Environment : World B ι τ → World B ι τ → Prop
  | elapse (w : World B ι τ) (clock : Int) (running : ι → Bool) :
      Environment w { w with device := w.device.elapse clock running }

inductive Role
  | handshake
  | requests
  deriving DecidableEq

abbrev WorkPool (B ι τ : Type) := Pool (sig B ι) τ (World B ι τ)

abbrev WorkLabel (B ι τ : Type) := Label (sig B ι) τ (World B ι τ)

def launch (role : τ → Role) (dev : Device B ι) : WorkPool B ι τ where
  threads t := match role t with
    | .handshake => invoke .routineHandshake
    | .requests => invoke .routineRequests
  state := ⟨dev, {}⟩

end

section

variable {B ι : Type}

def ownMachine : Machine (sig B ι) (Option (Passed B ι)) where
  admits := fun _ {_} _ _ => true
  effect := fun passed {_} op reply => passes passed op reply

def Op.Follows (passed : Option (Passed B ι)) : {β : Type} → Op B ι β → Prop
  | _, .commitInitiation msg checked => passed = some (.initiation msg checked)
  | _, .commitResponse handshake msg hash chainKey =>
    passed = some (.response handshake msg hash chainKey)
  | _, _ => True

def ownSpec : Spec (sig B ι) (Option (Passed B ι)) where
  good passed _ op _ _ := op.Follows passed
  pre _ _ := True
  post _ _ _ _ := True

variable {passed : Option (Passed B ι)}

theorem consumeMessageInitiation_holds (msg : MessageInitiation B) :
    wp ownMachine ownSpec (consumeMessageInitiation (ι := ι) msg) (fun _ _ => True) passed := by
  rintro (_ | checked) -
  · exact ⟨trivial, trivial⟩
  · exact ⟨trivial, fun _ _ => ⟨rfl, trivial⟩⟩

theorem consumeMessageResponse_holds (msg : MessageResponse B) :
    wp ownMachine ownSpec (consumeMessageResponse (ι := ι) msg) (fun _ _ => True) passed := by
  unfold consumeMessageResponse
  split
  · trivial
  rintro (_ | ⟨peer, _ | handshake, keypair⟩) -
  · exact ⟨trivial, trivial⟩
  · exact ⟨trivial, trivial⟩
  · refine ⟨trivial, ?_⟩
    rintro (_ | ⟨hash, chainKey⟩) -
    · exact ⟨trivial, trivial⟩
    · exact ⟨trivial, fun _ _ => ⟨rfl, trivial⟩⟩

theorem sendHandshakeResponse_holds (peer : ι) :
    wp ownMachine ownSpec (sendHandshakeResponse (B := B) peer) (fun _ _ => True) passed := by
  refine fun random _ => ⟨trivial, ?_⟩
  rintro (_ | msg) -
  · exact ⟨trivial, trivial⟩
  · exact ⟨trivial, fun _ _ => ⟨trivial, trivial⟩⟩

theorem handle_holds (packet : Packet B) :
    wp ownMachine ownSpec (handle (ι := ι) packet) (fun _ _ => True) passed := by
  cases packet with
  | initiation msg =>
    rw [handle, wp_bind]
    refine wp_mono (consumeMessageInitiation_holds _) ?_
    rintro (_ | peer) passed' -
    · trivial
    · exact sendHandshakeResponse_holds peer
  | response msg =>
    rw [handle, wp_bind]
    refine wp_mono (consumeMessageResponse_holds _) ?_
    rintro (_ | peer) passed' -
    · trivial
    · exact fun _ _ => ⟨trivial, trivial⟩
  | skipped => trivial

theorem serve_holds (request : Request B ι) :
    wp ownMachine ownSpec (serve request) (fun _ _ => True) passed := by
  cases request with
  | createMessageInitiation peer timestamp =>
    exact fun _ _ => ⟨trivial, fun _ _ => ⟨trivial, trivial⟩⟩
  | _ => exact fun _ _ => ⟨trivial, trivial⟩

theorem own_verified : Verified bodies ownMachine (ownSpec (B := B) (ι := ι)) := by
  intro β proc passed _
  cases proc with
  | routineHandshake =>
    simp only [bodies, routineHandshake, wp_bind, wp_act]
    exact fun packet _ => ⟨trivial, wp_mono (handle_holds packet)
      fun _ _ _ => ⟨trivial, fun _ _ _ => trivial⟩⟩
  | routineRequests =>
    simp only [bodies, routineRequests, wp_bind, wp_act]
    exact fun request _ => ⟨trivial, wp_mono (serve_holds request)
      fun _ _ _ => ⟨trivial, fun _ _ _ => trivial⟩⟩

end

section

variable {B ι τ : Type} [DecidableEq B] [DecidableEq ι] [DecidableEq τ] {c : Crypto B}
  {role : τ → Role} {dev : Device B ι} {labels : List (WorkLabel B ι τ)}
  {last : WorkPool B ι τ}

abbrev Run (c : Crypto B) (role : τ → Role) (dev : Device B ι)
    (labels : List (WorkLabel B ι τ)) (last : WorkPool B ι τ) : Prop :=
  Pool.Steps bodies (machine c) Environment (launch role dev) labels last

abbrev Condition (B ι τ : Type) :=
  World B ι τ → τ → {β : Type} → Op B ι β → β → Prop

def Condition.Holds (P : Condition B ι τ) : WorkLabel B ι τ → Prop
  | .act t w op reply _ => P w t op reply
  | .enter _ _ => True
  | .env _ _ => True

instance (P : Condition B ι τ)
    [∀ w t {β : Type} (op : Op B ι β) (reply : β), Decidable (P w t op reply)]
    (label : WorkLabel B ι τ) : Decidable (P.Holds label) := by
  cases label <;> dsimp only [Condition.Holds] <;> infer_instance

variable {β : Type} {peer : ι} {random : Random B}

omit [DecidableEq B] in
theorem record_passed (w : World B ι τ) (t : τ) (op : Op B ι β)
    (reply : β) : (record c w t op reply).passed = w.log.passed := by
  cases op with
  | checkResponse handshake msg =>
    simp only [record]
    split <;> rfl
  | beginSymmetricSession peer =>
    simp only [record]
    split <;> rfl
  | _ => rfl

theorem machine_framed : Framed (machine (ι := ι) (τ := τ) c) Environment
    (fun t w => w.log.passed t) fun _ => ownMachine where
  admits _ _ _ _ _ _ := rfl
  effect t w _ op reply _ := by simp [machine, World.pass, ownMachine]
  other t w _ op reply _ viewer hne := by
    simp [machine, World.pass, record_passed, update_of_ne hne]
  quiet w w' h viewer := by cases h; rfl

omit [DecidableEq B] [DecidableEq ι] [DecidableEq τ] in
theorem launch_meets : (launch role dev).Meets (fun t w => w.log.passed t) (fun _ => ownMachine)
    (fun _ => ownSpec) fun _ _ => True := by
  intro t
  simp only [launch]
  split
  · exact ⟨trivial, fun _ _ _ => trivial⟩
  · exact ⟨trivial, fun _ _ _ => trivial⟩

theorem createMessageInitiation_replied {timestamp : Timestamp}
    {reply : Option (MessageInitiation B)}
    (h : replies c dev (.createMessageInitiation peer random timestamp) reply = true) :
    ∃ dev' result, dev.createMessageInitiation c peer random timestamp = some (dev', result) ∧
      reply = result.toOption ∧
      effect c dev (.createMessageInitiation peer random timestamp) = dev' := by
  obtain ⟨⟨dev', result⟩, hr, hreply⟩ := (any_eq_true _ _).mp h
  exact ⟨dev', result, hr, of_decide_eq_true hreply, by simp [effect, hr]⟩

theorem createMessageResponse_replied {reply : Option (MessageResponse B)}
    (h : replies c dev (.createMessageResponse peer random) reply = true) :
    ∃ dev' result, dev.createMessageResponse c peer random = some (dev', result) ∧
      reply = result.toOption ∧ effect c dev (.createMessageResponse peer random) = dev' := by
  obtain ⟨⟨dev', result⟩, hr, hreply⟩ := (any_eq_true _ _).mp h
  exact ⟨dev', result, hr, of_decide_eq_true hreply, by simp [effect, hr]⟩

variable {w : World B ι τ} {t : τ}

theorem passed_initiation {op : Op B ι β} {reply : β} (hreply : replies c w.device op reply = true)
    (u : τ) (msg : MessageInitiation B) (checked : Device.Initiated B ι)
    (h : ((machine c t).effect w op reply).log.passed u = some (.initiation msg checked)) :
    w.log.passed u = some (.initiation msg checked) ∨
      w.device.checkInitiation c msg = some checked := by
  simp only [machine, World.pass, record_passed] at h
  by_cases he : u = t
  · rw [he, update_self] at h
    rw [he]
    cases op with
    | checkInitiation msg' =>
      obtain rfl : reply = w.device.checkInitiation c msg' := of_decide_eq_true hreply
      cases hcheck : w.device.checkInitiation c msg' with
      | none =>
        rw [hcheck] at h
        exact .inl h
      | some result =>
        rw [hcheck] at h
        obtain ⟨rfl, rfl⟩ : msg' = msg ∧ result = checked := by simpa [passes] using h
        exact .inr hcheck
    | checkResponse handshake msg' =>
      cases reply with
      | none => exact .inl h
      | some keys => simp [passes] at h
    | _ => exact .inl h
  · rw [update_of_ne he] at h
    exact .inl h

omit [DecidableEq B] in
theorem record_read_of_ne (op : Op B ι β) (reply : β) {u : τ} (he : u ≠ t) :
    (record c w t op reply).read u = w.log.read u := by
  cases op with
  | checkResponse handshake msg =>
    simp only [record]
    split
    · exact update_of_ne he _ _
    · rfl
  | beginSymmetricSession peer =>
    simp only [record]
    split <;> rfl
  | _ => rfl

theorem passed_response {op : Op B ι β} {reply : β} (hreply : replies c w.device op reply = true)
    (u : τ) (peer : ι) (msg : MessageResponse B) (hash chainKey : B)
    (h : ((machine c t).effect w op reply).log.passed u =
      some (.response peer msg hash chainKey)) :
    w.log.passed u = some (.response peer msg hash chainKey) ∧
        ((machine c t).effect w op reply).log.read u = w.log.read u ∨
      (w.device.handshake peer).checkResponse c w.device.privateKey msg = some (hash, chainKey) ∧
        ((machine c t).effect w op reply).log.read u = w.log.origin peer := by
  simp only [machine, World.pass, record_passed] at h ⊢
  by_cases he : u = t
  · rw [he, update_self] at h
    rw [he]
    cases op with
    | checkInitiation msg' =>
      cases reply with
      | none => exact .inl ⟨h, rfl⟩
      | some checked => simp [passes] at h
    | checkResponse handshake msg' =>
      cases reply with
      | none => exact .inl ⟨h, rfl⟩
      | some keys =>
        obtain ⟨rfl, rfl, rfl, rfl⟩ : handshake = peer ∧ msg' = msg ∧ keys.1 = hash ∧
          keys.2 = chainKey := by simpa [passes] using h
        exact .inr ⟨(of_decide_eq_true hreply).symm, update_self _ _ _⟩
    | beginSymmetricSession peer' =>
      refine .inl ⟨h, ?_⟩
      simp only [record]
      split <;> rfl
    | _ => exact .inl ⟨h, rfl⟩
  · rw [update_of_ne he] at h
    exact .inl ⟨h, record_read_of_ne op reply he⟩

-- An invariant of the device and the log along a run whose operations all
-- meet a condition. A commit is made with what the thread's check returned.
theorem invariant_of_run (hr : Run c role dev labels last) (P Q : Condition B ι τ)
    (hp : ∀ label ∈ labels, P.Holds label) (Inv : World B ι τ → Prop) (hinit : Inv ⟨dev, {}⟩)
    (henv : ∀ w clock running, Inv w → Inv { w with device := w.device.elapse clock running })
    (hstep : ∀ w t {β : Type} (op : Op B ι β) (reply : β), replies c w.device op reply = true →
      op.Follows (w.log.passed t) → P w t op reply → Inv w →
        Inv ((machine c t).effect w op reply) ∧ Q w t op reply) :
    Inv last.state ∧ ∀ label ∈ labels, Q.Holds label := by
  have hall := hr.along P.Holds Q.Holds (fun pool =>
    pool.Meets (fun t w => w.log.passed t) (fun _ => ownMachine) (fun _ => ownSpec)
      (fun _ _ => True) ∧ Inv pool.state) hp ⟨launch_meets, hinit⟩ ?_
  · exact ⟨hall.1.2, hall.2⟩
  rintro pool label next hlabel hs ⟨hmeets, hinv⟩
  obtain ⟨hnext, hok⟩ := hmeets.step machine_framed (fun _ => own_verified) hs
  cases hs with
  | act t _ hadm =>
    obtain ⟨hkeep, hq⟩ := hstep pool.state t _ _ hadm hok hlabel hinv
    exact ⟨⟨hnext, hkeep⟩, hq⟩
  | enter => exact ⟨⟨hnext, hinv⟩, trivial⟩
  | env he =>
    cases he with
    | elapse clock running => exact ⟨⟨hnext, henv pool.state clock running hinv⟩, trivial⟩

end

section

structure Script (B ι τ : Type) where
  packet : τ → World B ι τ → Packet B := fun _ _ => .skipped
  request : τ → World B ι τ → Option (Request B ι) := fun _ _ => none
  random : τ → World B ι τ → Option (Random B) := fun _ _ => none

variable {B ι τ : Type} [DecidableEq B] [DecidableEq ι] [DecidableEq τ] (c : Crypto B)

def Script.answer (script : Script B ι τ) (t : τ) (w : World B ι τ) :
    {β : Type} → Op B ι β → Option β
  | _, .receive => some (script.packet t w)
  | _, .request => script.request t w
  | _, .random => script.random t w
  | _, .checkInitiation msg => some (w.device.checkInitiation c msg)
  | _, .commitInitiation _ _ => some ()
  | _, .createMessageResponse peer random =>
    (w.device.createMessageResponse c peer random).map fun result => result.2.toOption
  | _, .lookup receiver => some (w.device.indexTable receiver)
  | _, .checkResponse handshake msg =>
    some ((w.device.handshake handshake).checkResponse c w.device.privateKey msg)
  | _, .commitResponse _ _ _ _ => some ()
  | _, .beginSymmetricSession peer => some (w.device.beginSymmetricSession c peer).2.toBool
  | _, .createMessageInitiation peer random timestamp =>
    (w.device.createMessageInitiation c peer random timestamp).map fun result =>
      result.2.toOption
  | _, .receivedWithKeypair peer received => some (w.device.receivedWithKeypair peer received).2
  | _, .expireCurrentKeypairs _ => some ()
  | _, .zeroAndFlushAll _ => some ()

def Script.play (script : Script B ι τ) (allowed : WorkLabel B ι τ → Bool)
    (role : τ → Role) (dev : Device B ι) (schedule : List τ) : Option (WorkPool B ι τ) :=
  Pool.replay bodies (machine c) (fun t w {_} op => script.answer c t w op) allowed schedule
    (launch role dev)

theorem Script.reaches (script : Script B ι τ)
    (allowed : WorkLabel B ι τ → Bool) (role : τ → Role) (dev : Device B ι)
    (schedule : List τ) (P : World B ι τ → Bool)
    (h : (script.play c allowed role dev schedule).any (fun last => P last.state) = true) :
    ∃ labels last, Run c role dev labels last ∧ (∀ label ∈ labels, allowed label = true) ∧
      P last.state = true :=
  Pool.reaches_of_replay Environment _ h

end

section

open Term (atom crypto)

def sampleRole (t : Fin 3) : Role :=
  if t.val = 0 then .requests else .handshake

theorem sampleDevice_fresh (privateKey remote : Term) : (sampleDevice privateKey remote).Fresh where
  table _ := rfl
  localIndex _ := rfl
  state _ := rfl
  keypairs _ := rfl

def sampleInitiation : Option (MessageInitiation Term) :=
  match (sampleDevice (atom 10) (atom 11)).createMessageInitiation crypto () ⟨atom 20, [7], 1⟩ 5 with
  | some (_, .ok msg) => some msg
  | _ => none

def sampleResponse : Option (MessageResponse Term) := do
  let initiation ← sampleInitiation
  let (consumed, _) := (sampleDevice (atom 11) (atom 10)).consumeMessageInitiation crypto initiation
  match consumed.createMessageResponse crypto () ⟨atom 21, [9], 2⟩ with
  | some (_, .ok msg) => some msg
  | _ => none

def sampleScript : Script Term Unit (Fin 3) where
  packet _ _ := (sampleResponse.map .response).getD .skipped
  request _ _ := some (.createMessageInitiation () 5)
  random _ w :=
    if w.log.ephemerals = [] then some ⟨atom 20, [7], 1⟩ else some ⟨atom 22, [8], 1⟩

end

end StarlingWg.Noise.Workers
