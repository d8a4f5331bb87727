import StarlingWg.NativeFlow.Attempt

namespace StarlingWg.NativeFlow

open Control Interaction Option
open Orchestrate (AttemptResult)

inductive Called
  | removePeer (pk : Key)
  | addPeer (pk : Key) (endpoint : AddrPort) (allowedIPs : List Prefix)
  | handshakeTime (pk : Key)

def Called.key : Called → Key
  | .removePeer pk | .addPeer pk _ _ | .handshakeTime pk => pk

def Called.adds : Called → Bool
  | .addPeer _ _ _ => true
  | .removePeer _ | .handshakeTime _ => false

structure Behaviour where
  removePeer : Nat → Except IpcFailure Unit
  addPeer : Nat → Except IpcFailure Unit
  handshakeTime : Nat → Option Time
  now : Nat → Time

-- The calls so far, the last one first.
structure Progress where
  removals : Nat := 0
  additions : Nat := 0
  polls : Nat := 0
  readings : Nat := 0
  calls : List Called := []

def Behaviour.answers (env : Behaviour) (s : Progress) : {β : Type} → Op β → β → Prop
  | _, .removePeer _, reply => reply = env.removePeer s.removals
  | _, .addPeer _ _ _, reply => reply = env.addPeer s.additions
  | _, .handshakeTime _, reply => reply = env.handshakeTime s.polls
  | _, .now, reply => reply = env.now s.readings
  | _, .sleep _, _ => True
  | _, .returned _, _ => True

def Progress.step (s : Progress) : {β : Type} → Op β → Progress
  | _, .removePeer pk => { s with removals := s.removals + 1, calls := .removePeer pk :: s.calls }
  | _, .addPeer pk endpoint allowedIPs =>
    { s with additions := s.additions + 1, calls := .addPeer pk endpoint allowedIPs :: s.calls }
  | _, .handshakeTime pk => { s with polls := s.polls + 1, calls := .handshakeTime pk :: s.calls }
  | _, .now => { s with readings := s.readings + 1 }
  | _, .sleep _ => s
  | _, .returned _ => s

open Classical in
noncomputable def alone (env : Behaviour) : Machine sig Progress where
  admits := fun s {_} op reply => decide (env.answers s op reply)
  effect := fun s {_} op _ => s.step op

def Seen (env : Behaviour) (a : Attempt) : Prop :=
  ∃ k t, env.now (k + 1) < env.now 0 + a.timeout ∧ env.handshakeTime k = some t ∧
    truncate (env.now 0) ≤ t

structure Only (a : Attempt) (calls : List Called) : Prop where
  key : ∀ call ∈ calls, call.key = a.remotePub
  added : calls.filter Called.adds = [] ∨
    calls.filter Called.adds = [.addPeer a.remotePub a.externalAddr a.allowedIPs]

def callsAfter : Event sig Progress → List Called
  | .act _ _ _ s | .ret _ _ _ s => s.calls

def decisionSpec (env : Behaviour) (a : Attempt) : Spec sig Progress where
  good _ _ _ _ s := Only a s.calls
  pre
    | .poll remotePub attemptFloor deadline _, s =>
      remotePub = a.remotePub ∧ attemptFloor = truncate (env.now 0) ∧
      deadline = env.now 0 + a.timeout ∧ Only a s.calls ∧ s.readings = s.polls + 1
  post
    | .poll _ _ _ _, _, result, s => Only a s.calls ∧ (result = true → Seen env a)

section

variable {env : Behaviour} {a : Attempt} {s : Progress}

@[simp] theorem admits_alone {β : Type} {op : Op β} {reply : β} :
    (alone env).admits s op reply = true ↔ env.answers s op reply := by
  simp [alone]

@[simp] theorem effect_alone {β : Type} (op : Op β) (reply : β) :
    (alone env).effect s op reply = s.step op := rfl

theorem Only.cons {calls : List Called} (h : Only a calls) {call : Called}
    (hkey : call.key = a.remotePub) (hadds : call.adds = false) : Only a (call :: calls) := by
  refine ⟨?_, ?_⟩
  · intro c hc
    rcases List.mem_cons.mp hc with rfl | hc
    · exact hkey
    · exact h.key c hc
  · simp only [List.filter_cons, hadds, Bool.false_eq_true, if_false]
    exact h.added

theorem poll_decides (h : Only a s.calls) (hreadings : s.readings = s.polls + 1) (pollInterval : Int) :
    wp (alone env) (decisionSpec env a)
      (poll a.remotePub (truncate (env.now 0)) (env.now 0 + a.timeout) pollInterval)
      (fun result s' => Only a s'.calls ∧ (result = true → Seen env a)) s := by
  unfold poll
  simp only [wp_bind, wp_act, admits_alone, effect_alone]
  rintro t rfl
  refine ⟨h, ?_⟩
  split
  next hbefore =>
    simp only [wp_bind, wp_act, admits_alone, effect_alone]
    rintro found rfl
    have hpolled : Only a (.handshakeTime a.remotePub :: s.calls) := h.cons rfl rfl
    refine ⟨hpolled, ?_⟩
    split
    next hfound =>
      obtain ⟨t, ht, hfloor⟩ := (any_eq_true _ _).mp hfound
      refine ⟨hpolled, fun _ => ⟨s.polls, t, ?_, ht, of_decide_eq_true hfloor⟩⟩
      rwa [hreadings] at hbefore
    next =>
      refine fun _ _ => ⟨hpolled, ⟨rfl, rfl, rfl, hpolled, ?_⟩, fun _ _ h => h⟩
      exact congrArg (· + 1) hreadings
  next => exact ⟨h, fun h => Bool.noConfusion h⟩

theorem decision_verified : Verified bodies (alone env) (decisionSpec env a) := by
  intro β proc s hpre
  cases proc with
  | poll remotePub attemptFloor deadline pollInterval =>
    obtain ⟨rfl, rfl, rfl, honly, hreadings⟩ := hpre
    exact poll_decides honly hreadings pollInterval

theorem attempt_decides : wp (alone env) (decisionSpec env a)
      (attemptOnX a.remotePub a.allowedIPs a.externalAddr a.timeout a.pollInterval)
      (fun result _ => result.success = true →
        (∃ u, env.removePeer 0 = .ok u) ∧ (∃ u, env.addPeer 0 = .ok u) ∧ Seen env a) {} := by
  have hremovedOnly : Only a [.removePeer a.remotePub] :=
    Only.cons ⟨by simp, .inl rfl⟩ rfl rfl
  unfold attemptOnX
  simp only [wp_bind, wp_act, admits_alone, effect_alone]
  intro removed hremoved
  refine ⟨hremovedOnly, ?_⟩
  cases removed with
  | error err => exact fun h => Bool.noConfusion h
  | ok u =>
    simp only [wp_bind, wp_act, admits_alone, effect_alone]
    rintro attemptStart rfl
    refine ⟨hremovedOnly, ?_⟩
    intro added hadded
    have haddedOnly : Only a [.addPeer a.remotePub a.externalAddr a.allowedIPs,
        .removePeer a.remotePub] := by
      refine ⟨?_, .inr rfl⟩
      simp [Called.key]
    refine ⟨haddedOnly, ?_⟩
    cases added with
    | error err => exact fun h => Bool.noConfusion h
    | ok v =>
      refine ⟨⟨rfl, rfl, rfl, haddedOnly, rfl⟩, ?_⟩
      rintro found s' ⟨hs', hseen⟩
      cases found with
      | true => exact fun _ => ⟨⟨u, hremoved.symm⟩, ⟨v, hadded.symm⟩, hseen rfl⟩
      | false =>
        intro again _
        refine ⟨hs'.cons rfl rfl, ?_⟩
        cases again <;> exact fun h => Bool.noConfusion h

def Yields (env : Behaviour) {α : Type} (program : Prog α) (s : Progress) (value : α) : Prop :=
  ∃ trace s', Run bodies (alone env) program s trace value s'

section

variable {α β : Type} {value : α}

theorem Yields.done : Yields env (pure value) s value :=
  ⟨_, _, .done⟩

theorem Yields.act {op : Op β} {rest : β → Prog α} (reply : β) (hreply : env.answers s op reply)
    (h : Yields env (rest reply) (s.step op) value) : Yields env (perform op >>= rest) s value := by
  obtain ⟨trace, s', hrun⟩ := h
  exact ⟨_, _, .perform (admits_alone.mpr hreply) hrun⟩

theorem Yields.call {proc : Proc β} {rest : β → Prog α} (result : β)
    (hbody : Yields env (bodies proc) s result) (h : ∀ s', Yields env (rest result) s' value) :
    Yields env (invoke proc >>= rest) s value := by
  obtain ⟨inner, s', hinner⟩ := hbody
  obtain ⟨outer, s'', houter⟩ := h s'
  exact ⟨_, _, .invoke hinner houter⟩

theorem Yields.tail {proc : Proc α} (hbody : Yields env (bodies proc) s value) :
    Yields env (invoke proc) s value := by
  obtain ⟨inner, s', hinner⟩ := hbody
  exact ⟨_, _, .invoke hinner .done⟩

end

theorem poll_finds (hclock : ∀ i j, i ≤ j → env.now i ≤ env.now j) {k : Nat} {t : Time}
    (hbefore : env.now (k + 1) < env.now 0 + a.timeout) (ht : env.handshakeTime k = some t)
    (hfloor : truncate (env.now 0) ≤ t) (hreadings : s.readings = s.polls + 1) (left : Nat)
    (hleft : k = s.polls + left) :
    Yields env (poll a.remotePub (truncate (env.now 0)) (env.now 0 + a.timeout) a.pollInterval) s
      true := by
  induction left generalizing s with
  | zero =>
    unfold poll
    refine Yields.act (env.now (k + 1)) (by rw [hleft, ← hreadings]; rfl) ?_
    rw [if_pos hbefore]
    refine Yields.act (some t) (by rw [← ht, hleft]; rfl) ?_
    rw [any_some, if_pos (decide_eq_true hfloor)]
    exact .done
  | succ left ih =>
    have hearlier : env.now (s.polls + 1) < env.now 0 + a.timeout :=
      Int.lt_of_le_of_lt (hclock _ _ (by omega)) hbefore
    unfold poll
    refine Yields.act (env.now (s.polls + 1)) (by rw [← hreadings]; rfl) ?_
    rw [if_pos hearlier]
    refine Yields.act (env.handshakeTime s.polls) rfl ?_
    split
    · exact .done
    · refine Yields.act () trivial ?_
      apply Yields.tail
      exact ih (congrArg (· + 1) hreadings) (by simp only [Progress.step]; omega)

theorem Partial.only {s' : Progress} {trace : List (Event sig Progress)}
    (h : Partial bodies (alone env)
      (attemptOnX a.remotePub a.allowedIPs a.externalAddr a.timeout a.pollInterval) {} trace s') :
    ∀ event ∈ trace, Only a (callsAfter event) := by
  intro event hevent
  have hok := h.sound decision_verified attempt_decides event hevent
  cases event with
  | act _ _ _ _ => exact hok
  | ret _ proc _ _ =>
    cases proc with
    | poll => exact hok.2.1

theorem attempt_succeeds (hclock : ∀ i j, i ≤ j → env.now i ≤ env.now j) {u v : Unit}
    (hremoved : env.removePeer 0 = .ok u) (hadded : env.addPeer 0 = .ok v) (hseen : Seen env a) :
    Yields env (attemptOnX a.remotePub a.allowedIPs a.externalAddr a.timeout a.pollInterval) {}
      ⟨true, ""⟩ := by
  obtain ⟨k, t, hbefore, ht, hfloor⟩ := hseen
  unfold attemptOnX
  refine Yields.act (.ok u) hremoved.symm ?_
  refine Yields.act (env.now 0) rfl ?_
  refine Yields.act (.ok v) hadded.symm ?_
  refine Yields.call true ?_ ?_
  · exact poll_finds hclock hbefore ht hfloor rfl k (Nat.zero_add k).symm
  · exact fun s' => .done

end

-- What success depends on, and that no other peer is touched.
theorem attempt_decision (env : Behaviour) (a : Attempt)
    (hclock : ∀ i j, i ≤ j → env.now i ≤ env.now j) :
    ((∃ trace result s', Run bodies (alone env)
      (attemptOnX a.remotePub a.allowedIPs a.externalAddr a.timeout a.pollInterval) {} trace result s' ∧
      result.success = true) ↔
      (∃ u, env.removePeer 0 = .ok u) ∧ (∃ u, env.addPeer 0 = .ok u) ∧ Seen env a) ∧
    ∀ trace s', Partial bodies (alone env)
      (attemptOnX a.remotePub a.allowedIPs a.externalAddr a.timeout a.pollInterval) {} trace s' →
      ∀ event ∈ trace, Only a (callsAfter event) := by
  refine ⟨⟨?_, ?_⟩, fun trace s' h => Partial.only h⟩
  · rintro ⟨trace, result, s', hrun, hsuccess⟩
    exact (hrun.sound decision_verified attempt_decides).1 hsuccess
  · rintro ⟨⟨u, hremoved⟩, ⟨v, hadded⟩, hseen⟩
    obtain ⟨trace, s', hrun⟩ := attempt_succeeds hclock hremoved hadded hseen
    exact ⟨trace, _, s', hrun, rfl⟩

theorem attempt_decision_third :
    ∃ trace result s', Run bodies
      (alone ⟨fun _ => .ok (), fun _ => .ok (), fun k => if k = 2 then some 7 else none, fun n => n⟩)
      (attemptOnX 1 [] ⟨.v4 0, 9⟩ 10 1) {} trace result s' ∧ result.success = true :=
  (attempt_decision ⟨fun _ => .ok (), fun _ => .ok (), fun k => if k = 2 then some 7 else none,
    fun n => n⟩ ⟨1, [], ⟨.v4 0, 9⟩, 10, 1⟩ fun _ _ h => Int.ofNat_le.mpr h).1.mpr
    ⟨⟨(), rfl⟩, ⟨(), rfl⟩, 2, 7, by decide, rfl, by decide⟩

end StarlingWg.NativeFlow
