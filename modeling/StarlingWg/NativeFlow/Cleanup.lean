import StarlingWg.NativeFlow.Attempt

namespace StarlingWg.NativeFlow

open Control Interaction
open Orchestrate (AttemptResult)

-- The native device during one attempt. RemovePeer succeeds; AddPeer may fail
-- in the given ways, with the lines before the rejected one applied; polls and
-- the clock answer anything.
def native (persistentKeepalive : Int) (fails : IpcFailure → Bool) : Machine sig Device where
  admits := fun _ {_} op reply => match op with
    | .removePeer _ => reply.isOk
    | .addPeer pk endpoint allowedIPs =>
      mayReturn (addPeerLines persistentKeepalive pk (some endpoint) allowedIPs) reply &&
        match reply with
        | .error err => fails err
        | .ok _ => true
    | _ => true
  effect := fun dev {_} op reply => match op with
    | .removePeer pk => dev.configure (removePeerLines pk) reply
    | .addPeer pk endpoint allowedIPs =>
      dev.configure (addPeerLines persistentKeepalive pk (some endpoint) allowedIPs) reply
    | _ => dev

def untouchedSpec : Spec sig Device where
  good _ _ _ _ _ := True
  pre _ _ := True
  post _ dev _ dev' := dev' = dev

theorem Device.removePeer_gone (dev : Device) (pk : Key) (u : Unit) :
    (dev.configure (removePeerLines pk) (.ok u)).peers pk = none := by
  by_cases hself : pk = dev.publicKey
  · simp [configure, ipcSet, removePeerLines, ipcSetFrom, handlePeerLine, handlePublicKeyLine, hself,
      modify, dev.no_self]
  · simp [configure, ipcSet, removePeerLines, ipcSetFrom, handlePeerLine, handlePublicKeyLine, hself,
      modify_self]

section

variable {persistentKeepalive : Int} {fails : IpcFailure → Bool}

theorem poll_untouched (remotePub : Key) (attemptFloor deadline : Time) (pollInterval : Int)
    (dev : Device) :
    wp (native persistentKeepalive fails) untouchedSpec
      (poll remotePub attemptFloor deadline pollInterval) (fun _ dev' => dev' = dev) dev := by
  unfold poll
  simp only [wp_bind, wp_act]
  refine fun t _ => ⟨trivial, ?_⟩
  split
  · simp only [wp_bind, wp_act]
    refine fun found _ => ⟨trivial, ?_⟩
    split
    · rfl
    · exact fun _ _ => ⟨trivial, trivial, fun _ _ h => h⟩
  · rfl

theorem untouched_verified : Verified bodies (native persistentKeepalive fails) untouchedSpec := by
  intro β proc dev _
  cases proc with
  | poll remotePub attemptFloor deadline pollInterval =>
    exact poll_untouched remotePub attemptFloor deadline pollInterval dev

theorem attempt_cleans (hfails : ∀ err, fails err = true → err.applied = 0) (a : Attempt)
    (dev : Device) :
    wp (native persistentKeepalive fails) untouchedSpec
      (attemptOnX a.remotePub a.allowedIPs a.externalAddr a.timeout a.pollInterval)
      (fun result dev' => result.success = false → dev'.peers a.remotePub = none) dev := by
  unfold attemptOnX
  rintro (err | u) hremoved
  · cases hremoved
  refine ⟨trivial, ?_⟩
  have hgone := dev.removePeer_gone a.remotePub u
  refine fun attemptStart _ => ⟨trivial, ?_⟩
  rintro (err | v) hadded
  · refine ⟨trivial, fun _ => ?_⟩
    have hnone : err.applied = 0 := hfails err (Bool.and_eq_true_iff.mp hadded).2
    simp only [native, Device.configure, hnone, List.take_zero]
    exact hgone
  refine ⟨trivial, ?_⟩
  refine ⟨trivial, ?_⟩
  rintro (_ | _) dev' -
  · dsimp only
    rintro (err | w) hagain
    · cases hagain
    · exact ⟨trivial, fun _ => dev'.removePeer_gone a.remotePub w⟩
  · exact fun hfalse => Bool.noConfusion hfalse

end

theorem Device.ipcSetFrom_kept {dev : Device} {pk : Key} {lines : List PeerLine}
    (hl : ∀ line ∈ lines, line ≠ .remove ∧ ∀ key, line ≠ .publicKey key)
    (h : dev.peers pk ≠ none) : (dev.ipcSetFrom (some pk) lines).peers pk ≠ none := by
  induction lines generalizing dev with
  | nil => exact h
  | cons line lines ih =>
    obtain ⟨hline, hlines⟩ := List.forall_mem_cons.mp hl
    obtain ⟨peer, hpeer⟩ := Option.ne_none_iff_exists'.mp h
    have hmodify : ∀ change : Peer → Peer,
        (dev.modify (some pk) fun p => some (change p)).peers pk ≠ none := by
      simp [dev.modify_self (dev.ne_publicKey hpeer)]
    cases line with
    | publicKey key => exact absurd rfl (hline.2 key)
    | remove => exact absurd rfl hline.1
    | endpoint | persistentKeepaliveInterval => exact ih hlines (hmodify _)
    | replaceAllowedIPs | allowedIP => exact ih hlines h

theorem Device.addPeer_applied (dev : Device) {pk : Key} (hne : pk ≠ dev.publicKey)
    (persistentKeepalive : Int) (endpoint : AddrPort) (allowedIPs : List Prefix) {err : IpcFailure}
    (herr : err.applied ≠ 0) :
    (dev.configure (addPeerLines persistentKeepalive pk (some endpoint) allowedIPs)
      (.error err)).peers pk ≠ none := by
  obtain ⟨n, hn⟩ := Nat.exists_eq_succ_of_ne_zero herr
  have hpeer : (dev.modify (some pk) some).peers pk ≠ none := by simp [dev.modify_self hne]
  simp only [configure, hn, addPeerLines, List.cons_append, List.take_succ_cons, ipcSet, ipcSetFrom,
    handlePeerLine, handlePublicKeyLine, if_neg hne]
  refine ipcSetFrom_kept (fun line hline => ?_) hpeer
  have hmem := List.mem_of_mem_take hline
  cases line with
  | publicKey | remove => simp at hmem
  | _ => simp

theorem rejected_run {persistentKeepalive : Int} {fails : IpcFailure → Bool} {err : IpcFailure}
    (hfails : fails err = true) {allowedIPs : List Prefix}
    (happlied : err.applied <
      (addPeerLines persistentKeepalive 1 (some ⟨.v4 0, 9⟩) allowedIPs).length) :
    ∃ trace, Run bodies (native persistentKeepalive fails)
      (attemptOnX 1 allowedIPs ⟨.v4 0, 9⟩ 10 1) (Device.fresh 2) trace
      ⟨false, "add-peer-failed: " ++ err.text⟩
      (((Device.fresh 2).configure (removePeerLines 1) (.ok ())).configure
        (addPeerLines persistentKeepalive 1 (some ⟨.v4 0, 9⟩) allowedIPs) (.error err)) := by
  have hremoved : (native persistentKeepalive fails).admits (Device.fresh 2) (.removePeer 1)
      (.ok ()) = true := rfl
  have hnow : ∀ dev, (native persistentKeepalive fails).admits dev .now (0 : Int) = true :=
    fun _ => rfl
  have hadded : ∀ dev, (native persistentKeepalive fails).admits dev
      (.addPeer 1 ⟨.v4 0, 9⟩ allowedIPs) (.error err) = true := fun _ =>
    Bool.and_eq_true_iff.mpr ⟨decide_eq_true happlied, hfails⟩
  exact ⟨_, .perform hremoved (.perform (hnow _) (.perform (hadded _) .done))⟩

-- No failed attempt leaves its peer exactly when an AddPeer that fails has
-- applied none of its lines.
theorem failed_attempt_leaves_no_peer (persistentKeepalive : Int) (fails : IpcFailure → Bool) :
    (∀ (a : Attempt) (dev dev' : Device) (trace : List (Event sig Device)) (result : AttemptResult),
      Run bodies (native persistentKeepalive fails)
        (attemptOnX a.remotePub a.allowedIPs a.externalAddr a.timeout a.pollInterval)
        dev trace result dev' →
      result.success = false → dev'.peers a.remotePub = none) ↔
    ∀ err, fails err = true → err.applied = 0 := by
  constructor
  · intro h err hfails
    by_contra herr
    obtain ⟨trace, hrun⟩ := @rejected_run persistentKeepalive fails err hfails
      (List.replicate err.applied ⟨.v4 0, 0⟩) (by simp [addPeerLines]; omega)
    have hne : (1 : Key) ≠ ((Device.fresh 2).configure (removePeerLines 1) (.ok ())).publicKey := by
      rw [Device.configure_publicKey]
      decide
    exact Device.addPeer_applied _ hne persistentKeepalive _ _ herr
      (h ⟨1, _, ⟨.v4 0, 9⟩, 10, 1⟩ _ _ trace _ hrun rfl)
  · intro hfails a dev dev' trace result hrun
    exact (hrun.sound untouched_verified (attempt_cleans hfails a dev)).1

theorem failed_attempt_leaves_peer :
    ∃ trace result dev', Run bodies (native 0 fun _ => true) (attemptOnX 1 [] ⟨.v4 0, 9⟩ 10 1)
      (Device.fresh 2) trace result dev' ∧
      result.success = false ∧ dev'.peers 1 = some {} := by
  obtain ⟨trace, hrun⟩ := @rejected_run 0 (fun _ => true) ⟨"invalid endpoint", 2⟩ rfl [] (by decide)
  refine ⟨trace, _, _, hrun, rfl, ?_⟩
  simp [Device.configure, Device.ipcSet, addPeerLines, removePeerLines, Device.ipcSetFrom,
    Device.handlePeerLine, Device.handlePublicKeyLine, Device.fresh, Device.modify, Device.set]

end StarlingWg.NativeFlow
