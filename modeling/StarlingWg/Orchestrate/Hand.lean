import StarlingWg.Interaction.Refinement
import StarlingWg.Orchestrate.YMachine

namespace StarlingWg.Orchestrate

open Control Interaction

-- The TUN is attached before the state of the session is next set.
inductive Handoff
  | ahead
  | opened
  | over
  deriving DecidableEq

-- What the goroutine serving one session knows and holds: the session, its
-- state and its device as it left them, the TUN session it attached last
-- unless it has closed it, one it has attached and not yet given to a device,
-- the TUN of each device it has created, and the devices and sockets it has
-- neither closed nor handed to the session. The rest remembers how far a
-- handoff is, a configuration, Up or Send that failed during one, a Send or
-- Recv that failed during a native attempt, and a new attempt begun with a
-- device still in the session.
structure Hand where
  sess : SessionKey
  state : State := .idle
  dev : Option DevId := none
  extraCloser : Option SockId := none
  mine : Option TunId := none
  tun : Option TunId := none
  tuns : DevId → Option Tun := fun _ => none
  devs : List DevId := []
  socks : List SockId := []
  handoff : Handoff := .ahead
  stranded : Bool := false
  dropped : Bool := false
  replaced : Bool := false

namespace Hand

def carrying (h : Hand) : Bool :=
  h.mine.any fun t => h.dev.bind h.tuns == some (.session t)

theorem carrying_iff {h : Hand} :
    h.carrying = true ↔ ∃ t, h.mine = some t ∧ h.dev.bind h.tuns = some (.session t) := by
  simp [carrying, Option.any_eq_true]

def strand (h : Hand) : Hand :=
  { h with stranded := h.stranded || (decide h.state.Connected && decide (h.handoff = .opened)) }

def drop (h : Hand) : Hand :=
  { h with dropped := h.dropped || decide (h.state = .nativeAttempting) }

theorem strand_of_not_connected {h : Hand} (hs : ¬h.state.Connected) : h.strand = h := by
  simp [strand, hs]

theorem strand_of_ahead {h : Hand} (ha : h.handoff = .ahead) : h.strand = h := by
  have hno : h.handoff ≠ .opened := by simp [ha]
  simp [strand, hno]

theorem drop_of_ne {h : Hand} (hs : h.state ≠ .nativeAttempting) : h.drop = h := by
  simp [drop, hs]

def withState (h : Hand) (state : State) : Hand :=
  { h with
    state := state
    handoff := .over
    replaced := h.replaced || (decide (state = .probing) && h.dev.isSome) }

def put (h : Hand) (dev : Option DevId) (extraCloser : Option SockId) : Hand :=
  { h with
    dev := dev
    extraCloser := extraCloser
    devs := dev.elim h.devs h.devs.erase
    socks := extraCloser.elim h.socks h.socks.erase }

def take (h : Hand) : Hand :=
  { h with
    dev := none
    extraCloser := none
    devs := h.dev.toList ++ h.devs
    socks := h.extraCloser.toList ++ h.socks }

def attach (h : Hand) (t : TunId) : Hand :=
  { h with
    mine := some t
    tun := some t
    handoff := if h.handoff = .ahead then .opened else h.handoff }

def create (h : Hand) (dev : DevId) (tun : Tun) : Hand :=
  { h with
    tun := if tun = .noop then h.tun else none
    tuns := Function.update h.tuns dev (some tun)
    devs := dev :: h.devs }

def close (h : Hand) (dev : DevId) : Hand :=
  { h with
    mine := if h.mine.map Tun.session = h.tuns dev then none else h.mine
    devs := h.devs.erase dev }

end Hand

-- Identities are new when they are handed out; what the hand knows nothing of
-- may be anything.
def handAdmits (h : Hand) : {β : Type} → Op β → β → Bool
  | _, .getState target, state => target != h.sess || state == h.state
  | _, .takeDevice target, taken => target != h.sess || taken == (h.dev, h.extraCloser)
  | _, .getDevice target, dev => target != h.sess || dev == h.dev
  | _, .attach, t => h.dev.bind h.tuns != some (.session t)
  | _, .newDevice _ _, dev => h.tuns dev == none && h.dev != some dev
  | _, .select netChange, .netChange _ => netChange
  | _, .accept _, _ | _, .resolvePublicHost _, _ | _, .attemptOnX _ _ _, _
  | _, .cloakedAddPeer _ _, _ | _, .cloakedHandshakeTime _, _ => false
  | _, _, _ => true

-- `onSpawn` is what becomes of the hand when the supervisor of a peer is started.
def handEffect (onSpawn : Nat → Hand → Hand) (h : Hand) : {β : Type} → Op β → β → Hand
  | _, .send _ _, .error _ => h.strand.drop
  | _, .recv _, .error _ => h.drop
  | _, .ipcSet _ _, .error _ => h.strand
  | _, .up _, .error _ => h.strand
  | _, .setState _ state _, _ => h.withState state
  | _, .setDevice _ dev extraCloser, _ => h.put dev extraCloser
  | _, .takeDevice _, _ => h.take
  | _, .singleFamilyUDP _, .ok socket => { h with socks := socket :: h.socks }
  | _, .closeSocket socket, _ => { h with socks := h.socks.erase socket }
  | _, .attach, t => h.attach t
  | _, .newDevice tun _, dev => h.create dev tun
  | _, .closeDev dev, _ => h.close dev
  | _, .spawn peer, _ => onSpawn peer h
  | _, _, _ => h

def handMachine (onSpawn : Nat → Hand → Hand) : Machine sig Hand where
  admits h := handAdmits h
  effect h := handEffect onSpawn h

def Hand.Settled (h : Hand) : Prop :=
  h.state.Connected → h.carrying = true

-- Every attempt begins with no device in the session, or this is on record.
def Hand.Vacant (h : Hand) : Prop :=
  h.replaced = false → h.dev = none

-- An attempt leaves its devices closed or in the session, and its sockets
-- too, or this is on record.
structure Hand.Returned (h h' : Hand) : Prop where
  sess : h'.sess = h.sess
  tuns : ∀ dev tun, h.tuns dev = some tun → h'.tuns dev = some tun
  devs : h'.devs = []
  socks : h'.dropped = false → h'.socks = h.socks

structure Hand.Done (h h' : Hand) : Prop extends h.Returned h' where
  stranded : h'.stranded = h.stranded
  settled : h'.Settled

-- A background attempt that failed has left the session carrying traffic
-- unless it failed during the handoff.
def Hand.Verdict (h h' : Hand) : Prop :=
  h.carrying = true → h.handoff = .ahead → h.stranded = false → (h'.Settled ↔ h'.stranded = false)

structure Hand.Armed (h : Hand) (ySocket : SockId) (yDev : DevId) : Prop where
  state : h.state = .nativeAttempting
  vacant : h.Vacant
  devs : h.devs = [yDev]
  socks : h.socks = ySocket :: h.socks.tail
  attached : ∃ t, h.mine = some t ∧ h.tuns yDev = some (.session t)

structure Hand.Probing (h : Hand) (probeSocket : SockId) (probeDev : DevId) : Prop where
  state : h.state = .connectedCloaked
  devs : h.devs = [probeDev]
  socks : h.socks = probeSocket :: h.socks.tail
  noop : h.tuns probeDev = some .noop

-- How a background attempt leaves its probe device and socket to the deferred
-- calls that close them.
structure Hand.GaveUp (h : Hand) (probeDev : DevId) (h' : Hand) : Prop where
  sess : h'.sess = h.sess
  tuns : ∀ dev tun, h.tuns dev = some tun → h'.tuns dev = some tun
  devs : h'.devs.erase probeDev = []
  socks : h'.dropped = false → h'.socks = h.socks
  verdict : h.Verdict h'

def handSpec (keys : Nat → SessionKey) : Spec sig Hand where
  good h _ op _ _ := match op with
    | .setState target state _ => target = h.sess ∧ (state.Connected → h.carrying = true)
    | .getState target => target = h.sess
    | .setDevice target dev extraCloser => target = h.sess ∧ (∃ d ∈ h.devs, dev = some d) ∧
        (∀ socket, extraCloser = some socket → socket ∈ h.socks) ∧ h.Vacant ∧
        (h.state.Connected → h.dev = none)
    | .takeDevice target => target = h.sess
    | .getDevice target => target = h.sess
    | .attach => h.state ≠ .idle ∧ h.state ≠ .failed
    | .newDevice tun _ => ∀ t, tun = .session t → h.tun = some t
    | .closeDev dev => dev ∈ h.devs ∨ h.tuns dev = some .noop
    | .spawn peer => keys peer = h.sess ∧ h.devs = [] ∧ h.Settled
    | _ => True
  pre
    | .runY pc _, h => .addr pc.controlAddr = h.sess ∧ h.devs = []
    | .nativeWait _ pc _ ySocket yDev _ _, h => .addr pc.controlAddr = h.sess ∧ h.Armed ySocket yDev
    | .cloakedWait _ pc _, h => .addr pc.controlAddr = h.sess ∧ h.state = .probing ∧ h.Vacant ∧
        h.devs = []
    | .pollY _ _ _, _ => True
    | .attemptBackgroundNative pc, h => .addr pc.controlAddr = h.sess ∧
        h.state = .connectedCloaked ∧ h.devs = []
    | .backgroundWait _ pc _ probeSocket probeDev _ _ _, h => .addr pc.controlAddr = h.sess ∧
        h.Probing probeSocket probeDev
    | .waitForNativeReady _ _ _, h => h.state = .connectedCloaked
    | .supervise pc _, h => .addr pc.controlAddr = h.sess ∧ h.devs = []
    | _, _ => False
  post
    | .runY _ _, h, _, h' => h.Done h'
    | .nativeWait _ _ _ _ _ _ _, h, _, h' => Hand.Done { h with socks := h.socks.tail } h'
    | .cloakedWait _ _ _, h, _, h' => h.Done h'
    | .pollY _ _ _, h, _, h' => h' = h
    | .attemptBackgroundNative _, h, result, h' => h.Returned h' ∧ (result = false → h.Verdict h')
    | .backgroundWait _ _ _ _ probeDev _ _ _, h, result, h' =>
      (result = true → Hand.Returned { h with socks := h.socks.tail } h') ∧
      (result = false → h.GaveUp probeDev h')
    | .waitForNativeReady _ _ _, h, _, h' => h' = h
    | _, _, _, _ => True

end StarlingWg.Orchestrate
