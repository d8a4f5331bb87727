import StarlingWg.Control.Message
import Mathlib.Logic.Function.Basic

namespace StarlingWg.NativeFlow

open Control List Function

-- Nanoseconds since the zero time.Time; a duration is in nanoseconds.
abbrev Time := Int

def second : Int := 1000000000

def unixEpoch : Time := 62135596800 * second

-- Truncate(time.Second) rounds down, counting from the zero time.
def truncate (t : Time) : Time :=
  t - t % second

structure Peer where
  endpoint : Option AddrPort := none
  persistentKeepaliveInterval : Nat := 0
  lastHandshakeNano : Int := 0
  deriving DecidableEq, Repr

-- The peers of a device.Device, which is never its own peer. The routing
-- table that the allowed_ip lines fill is not part of the model.
structure Device where
  publicKey : Key
  peers : Key → Option Peer
  no_self : peers publicKey = none

theorem no_peers_no_self (publicKey : Key) :
    (fun _ : Key => (none : Option Peer)) publicKey = none := rfl

def Device.fresh (publicKey : Key) : Device :=
  ⟨publicKey, fun _ => none, no_peers_no_self publicKey⟩

inductive PeerLine
  | publicKey (pk : Key)
  | remove
  | replaceAllowedIPs
  | endpoint (addr : AddrPort)
  | persistentKeepaliveInterval (seconds : Nat)
  | allowedIP (cidr : Prefix)
  deriving DecidableEq, Repr

namespace Device

def set (dev : Device) (pk : Key) (hne : pk ≠ dev.publicKey) (peer : Option Peer) : Device where
  publicKey := dev.publicKey
  peers := update dev.peers pk peer
  no_self := by rw [update_of_ne hne.symm, dev.no_self]

-- Changes the peer the lines configure. Without one they configure a dummy,
-- and the device stays as it is.
def modify (dev : Device) (pk : Option Key) (change : Peer → Option Peer) : Device :=
  match pk with
  | none => dev
  | some pk =>
    if hne : pk ≠ dev.publicKey then dev.set pk hne (change ((dev.peers pk).getD {})) else dev

def handlePublicKeyLine (dev : Device) (pk : Key) : Device × Option Key :=
  if pk = dev.publicKey then (dev, none) else (dev.modify (some pk) some, some pk)

def handlePeerLine (dev : Device) (peer : Option Key) : PeerLine → Device × Option Key
  | .publicKey pk => dev.handlePublicKeyLine pk
  | .remove => (dev.modify peer fun _ => none, none)
  | .replaceAllowedIPs => (dev, peer)
  | .endpoint addr => (dev.modify peer fun p => some { p with endpoint := some addr }, peer)
  | .persistentKeepaliveInterval seconds =>
    (dev.modify peer fun p => some { p with persistentKeepaliveInterval := seconds }, peer)
  | .allowedIP _ => (dev, peer)

def ipcSetFrom (dev : Device) (peer : Option Key) : List PeerLine → Device
  | [] => dev
  | line :: lines => (dev.handlePeerLine peer line).1.ipcSetFrom (dev.handlePeerLine peer line).2 lines

def ipcSet (dev : Device) (lines : List PeerLine) : Device :=
  dev.ipcSetFrom none lines

end Device

def addPeerLines (persistentKeepalive : Int) (pk : Key) (endpoint : Option AddrPort)
    (allowedIPs : List Prefix) : List PeerLine :=
  [.publicKey pk, .replaceAllowedIPs] ++ (endpoint.map .endpoint).toList ++
    (if 0 < persistentKeepalive then
      [.persistentKeepaliveInterval (persistentKeepalive / second).toNat] else []) ++
    allowedIPs.map .allowedIP

def removePeerLines (pk : Key) : List PeerLine :=
  [.publicKey pk, .remove]

-- A configuration that IpcSet rejects part of the way: the lines before the
-- rejected one have been applied. Callers see the text only.
structure IpcFailure where
  text : String
  applied : Nat
  deriving DecidableEq, Repr

def Device.configure (dev : Device) (lines : List PeerLine) : Except IpcFailure Unit → Device
  | .ok _ => dev.ipcSet lines
  | .error err => dev.ipcSet (lines.take err.applied)

def mayReturn (lines : List PeerLine) : Except IpcFailure Unit → Bool
  | .ok _ => true
  | .error err => err.applied < lines.length

-- A configured peer without a handshake has the zero time.
def Device.handshakeTime (dev : Device) (pk : Key) : Option Time :=
  (dev.peers pk).map fun peer =>
    if peer.lastHandshakeNano = 0 then 0 else unixEpoch + peer.lastHandshakeNano

section

@[simp] theorem Device.modify_publicKey (dev : Device) (pk : Option Key)
    (change : Peer → Option Peer) : (dev.modify pk change).publicKey = dev.publicKey := by
  unfold modify
  cases pk with
  | none => rfl
  | some pk => dsimp only; split <;> rfl

variable {pk other : Key}

theorem Device.ne_publicKey (dev : Device) {peer : Peer}
    (h : dev.peers pk = some peer) : pk ≠ dev.publicKey := by
  rintro rfl
  simp [dev.no_self] at h

theorem Device.modify_self (dev : Device) (hne : pk ≠ dev.publicKey) (change : Peer → Option Peer) :
    (dev.modify (some pk) change).peers pk = change ((dev.peers pk).getD {}) := by
  simp [modify, hne, set]

theorem Device.modify_of_ne (dev : Device) (hne : other ≠ pk)
    (change : Peer → Option Peer) : (dev.modify (some pk) change).peers other = dev.peers other := by
  unfold modify
  dsimp only
  split
  · exact update_of_ne hne ..
  · rfl

def PeerLine.Names (pk : Key) : PeerLine → Prop
  | .publicKey key => key = pk
  | _ => True

theorem Device.handlePeerLine_publicKey (dev : Device) (peer : Option Key) (line : PeerLine) :
    (dev.handlePeerLine peer line).1.publicKey = dev.publicKey := by
  cases line with
  | publicKey pk =>
    simp only [handlePeerLine, handlePublicKeyLine]
    split <;> simp
  | _ => simp [handlePeerLine]

theorem Device.ipcSetFrom_publicKey (lines : List PeerLine) (dev : Device) (peer : Option Key) :
    (dev.ipcSetFrom peer lines).publicKey = dev.publicKey := by
  induction lines generalizing dev peer with
  | nil => rfl
  | cons line lines ih => exact (ih _ _).trans (dev.handlePeerLine_publicKey peer line)

theorem Device.handlePeerLine_frame (hne : other ≠ pk) (dev : Device) {peer : Option Key}
    (hpeer : ∀ key, peer = some key → key = pk) {line : PeerLine} (hline : line.Names pk) :
    (dev.handlePeerLine peer line).1.peers other = dev.peers other ∧
      ∀ key, (dev.handlePeerLine peer line).2 = some key → key = pk := by
  have hmodify : ∀ change, (dev.modify peer change).peers other = dev.peers other := by
    intro change
    cases peer with
    | none => rfl
    | some key => exact dev.modify_of_ne (hpeer key rfl ▸ hne) change
  cases line with
  | publicKey key =>
    obtain rfl : key = pk := hline
    simp only [handlePeerLine, handlePublicKeyLine]
    split
    · exact ⟨rfl, by simp⟩
    · exact ⟨dev.modify_of_ne hne some, by simp⟩
  | remove => exact ⟨hmodify _, by simp [handlePeerLine]⟩
  | endpoint addr => exact ⟨hmodify _, hpeer⟩
  | persistentKeepaliveInterval seconds => exact ⟨hmodify _, hpeer⟩
  | replaceAllowedIPs => exact ⟨rfl, hpeer⟩
  | allowedIP cidr => exact ⟨rfl, hpeer⟩

theorem Device.ipcSetFrom_frame (hne : other ≠ pk) (lines : List PeerLine)
    (hl : ∀ line ∈ lines, line.Names pk) (dev : Device) (peer : Option Key)
    (hpeer : ∀ key, peer = some key → key = pk) :
    (dev.ipcSetFrom peer lines).peers other = dev.peers other := by
  induction lines generalizing dev peer with
  | nil => rfl
  | cons line lines ih =>
    obtain ⟨hpeers, hnext⟩ := dev.handlePeerLine_frame hne hpeer (hl line mem_cons_self)
    exact (ih (fun l hm => hl l (mem_cons_of_mem _ hm)) _ _ hnext).trans hpeers

theorem addPeerLines_names {persistentKeepalive : Int} {endpoint : Option AddrPort}
    {allowedIPs : List Prefix} :
    ∀ line ∈ addPeerLines persistentKeepalive pk endpoint allowedIPs, line.Names pk := by
  intro line hl
  cases line with
  | publicKey key =>
    cases endpoint <;> simpa [addPeerLines, PeerLine.Names] using hl
  | _ => trivial

theorem removePeerLines_names : ∀ line ∈ removePeerLines pk, line.Names pk := by
  simp [removePeerLines, PeerLine.Names]

theorem Device.configure_frame (hne : other ≠ pk) {lines : List PeerLine}
    (hl : ∀ line ∈ lines, line.Names pk) (dev : Device) (reply : Except IpcFailure Unit) :
    (dev.configure lines reply).peers other = dev.peers other := by
  cases reply with
  | ok _ => exact ipcSetFrom_frame hne lines hl dev none (by simp)
  | error err =>
    exact ipcSetFrom_frame hne _ (fun l hm => hl l (mem_of_mem_take hm)) dev none (by simp)

theorem Device.configure_publicKey (dev : Device) (lines : List PeerLine)
    (reply : Except IpcFailure Unit) : (dev.configure lines reply).publicKey = dev.publicKey := by
  cases reply with
  | ok _ => exact ipcSetFrom_publicKey lines dev none
  | error err => exact ipcSetFrom_publicKey _ dev none

end

section

def Device.Dials (dev : Device) (pk : Key) (addr : AddrPort) : Prop :=
  ∃ peer, dev.peers pk = some peer ∧ peer.endpoint = some addr

variable {dev : Device} {pk : Key} {addr : AddrPort} {lines : List PeerLine}

theorem Device.Dials.configured {other : Key} (h : dev.Dials other addr) (hne : other ≠ pk)
    (hl : ∀ line ∈ lines, line.Names pk) (reply : Except IpcFailure Unit) :
    (dev.configure lines reply).Dials other addr := by
  obtain ⟨peer, hpeer, hend⟩ := h
  exact ⟨peer, (dev.configure_frame hne hl reply).trans hpeer, hend⟩

def PeerLine.Trailing : PeerLine → Prop
  | .persistentKeepaliveInterval _ | .allowedIP _ => True
  | _ => False

theorem Device.Dials.ipcSetFrom (h : dev.Dials pk addr) (hl : ∀ line ∈ lines, line.Trailing) :
    (dev.ipcSetFrom (some pk) lines).Dials pk addr := by
  induction lines generalizing dev with
  | nil => exact h
  | cons line lines ih =>
    have hrest := fun l hm => hl l (mem_cons_of_mem line hm)
    have hline := hl line mem_cons_self
    cases line with
    | persistentKeepaliveInterval seconds =>
      obtain ⟨peer, hpeer, hend⟩ := h
      have hne := dev.ne_publicKey hpeer
      have hset := dev.modify_self hne
        fun p => some { p with persistentKeepaliveInterval := seconds }
      exact ih ⟨_, hset, by simpa [hpeer] using hend⟩ hrest
    | allowedIP cidr => exact ih h hrest
    | _ => exact hline.elim

theorem Device.addPeer_dials (dev : Device) (hne : pk ≠ dev.publicKey) (persistentKeepalive : Int)
    (addr : AddrPort) (allowedIPs : List Prefix) :
    (dev.ipcSet (addPeerLines persistentKeepalive pk (some addr) allowedIPs)).Dials pk addr := by
  have htrailing : ∀ line ∈ (if 0 < persistentKeepalive then
      [PeerLine.persistentKeepaliveInterval (persistentKeepalive / second).toNat] else []) ++
      allowedIPs.map PeerLine.allowedIP, line.Trailing := by
    intro line hl
    rcases mem_append.mp hl with hl | hl
    · split at hl
      · rw [mem_singleton.mp hl]
        trivial
      · simp at hl
    · obtain ⟨cidr, -, rfl⟩ := mem_map.mp hl
      trivial
  have hdial : ((dev.modify (some pk) some).modify (some pk)
      fun p => some { p with endpoint := some addr }).Dials pk addr :=
    ⟨_, modify_self _ (by simpa using hne) _, rfl⟩
  simpa [ipcSet, addPeerLines, Device.ipcSetFrom, handlePeerLine, handlePublicKeyLine, hne] using
    hdial.ipcSetFrom htrailing

theorem Device.Dials.removePeer_error (h : dev.Dials pk addr) {err : IpcFailure}
    (happlied : err.applied < (removePeerLines pk).length) :
    (dev.configure (removePeerLines pk) (.error err)).Dials pk addr := by
  obtain ⟨peer, hpeer, hend⟩ := h
  have hne := dev.ne_publicKey hpeer
  match hn : err.applied, happlied with
  | 0, _ => exact ⟨peer, by simpa [configure, hn, ipcSet, Device.ipcSetFrom] using hpeer, hend⟩
  | 1, _ =>
    refine ⟨peer, ?_, hend⟩
    simp [configure, hn, ipcSet, removePeerLines, Device.ipcSetFrom, handlePeerLine,
      handlePublicKeyLine, hne, modify_self, hpeer]
  | n + 2, h => exact absurd h (by simp [removePeerLines])

end

end StarlingWg.NativeFlow
