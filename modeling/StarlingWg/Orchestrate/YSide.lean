import StarlingWg.Orchestrate.XSide

namespace StarlingWg.Orchestrate

open Control Interaction
open SessionKey (addr)

-- Session.closeDevice: the fields are taken and cleared under the lock, the
-- closing happens after it is released.
def closeDevice (sess : SessionKey) : Prog Unit := do
  let taken ← perform (.takeDevice sess)
  match taken.1 with
  | some dev => perform (.closeDev dev)
  | none => pure ()
  match taken.2 with
  | some socket => perform (.closeSocket socket)
  | none => pure ()

-- How a session becomes Connected, in the three places where it does.
def install (pc : PeerConfig) (dev : DevId) (extraCloser : Option SockId) (state : State)
    (reason : GoString) (mode : String) (externalAddr : Option AddrPort) : Prog Unit := do
  let sess := addr pc.controlAddr
  perform (.setDevice sess (some dev) extraCloser)
  perform (.setState sess state reason)
  perform (.saveSession pc.controlAddr mode externalAddr)

def connectXInfo (cfg : Config) (pc : PeerConfig) : Prog (Except String (ConnId × XInfo × Addr)) := do
  match ← perform (.dial pc.controlAddr pc.remotePublicKey) with
  | .error err => return .error ("dial control channel: " ++ err)
  | .ok cc =>
    match ← perform (.send cc (.hello ⟨RoleY, cfg.localPublicKey, 1⟩)) with
    | .error err =>
      perform (.closeConn cc)
      return .error err
    | .ok _ =>
      match ← perform (.recv cc) with
      | .error err =>
        perform (.closeConn cc)
        return .error ("receive Hello: " ++ err)
      | .ok (.hello _) =>
        match ← perform (.recv cc) with
        | .error err =>
          perform (.closeConn cc)
          return .error ("receive XInfo: " ++ err)
        | .ok (.xInfo info) =>
          match ← perform (.resolveX pc.controlAddr) with
          | .error err =>
            perform (.closeConn cc)
            return .error err
          | .ok xAddr => return .ok (cc, info, xAddr)
        | .ok _ =>
          perform (.closeConn cc)
          return .error "expected XInfo"
      | .ok _ =>
        perform (.closeConn cc)
        return .error "expected Hello"

-- The configuration nativeflow.PreparePassiveDevice writes; 15 is
-- DefaultYKeepalive in seconds.
def passiveConf (cfg : Config) (pc : PeerConfig) (allowedIPs : List Prefix) : List UapiLine :=
  [.privateKey cfg.localPrivateKey, .listenPort 0, .publicKey pc.remotePublicKey,
    .replaceAllowedIPs, .persistentKeepaliveInterval 15] ++ allowedIPs.map .allowedIP

-- The configuration runYCloaked writes; 2 is four poll intervals in seconds, plus one.
def cloakedConf (cfg : Config) (pc : PeerConfig) (allowedIPs : List Prefix)
    (params : CloakedParams) : List UapiLine :=
  [.privateKey cfg.localPrivateKey, .listenPort 0] ++ cloakedParamsUAPI params ++
    [.publicKey pc.remotePublicKey, .endpoint params.listenEndpoint,
      .persistentKeepaliveInterval 2, .replaceAllowedIPs] ++ allowedIPs.map .allowedIP

def preparePassiveDevice (cfg : Config) (pc : PeerConfig) (allowedIPs : List Prefix) (tun : Tun)
    (bind : Bind) : Prog (Except String DevId) := do
  let dev ← perform (.newDevice tun bind)
  match ← perform (.ipcSet dev (passiveConf cfg pc allowedIPs)) with
  | .error err =>
    perform (.closeDev dev)
    return .error ("nativeflow: configure Y device: " ++ err)
  | .ok _ =>
    match ← perform (.up dev) with
    | .error err =>
      perform (.closeDev dev)
      return .error ("nativeflow: bring up Y device: " ++ err)
    | .ok _ => return .ok dev

-- The wait for the handshake in runYCloaked.
def pollY (dev : DevId) (peer : Key) (deadline : Int) : Prog Bool := do
  let t ← perform .now
  if t < deadline then
    match ← perform (.handshakeTime dev peer) with
    | some (_ + 1) => return true
    | _ =>
      perform .sleep
      invoke (.pollY dev peer deadline)
  else
    return false

-- runYCloaked from the parameters on: the device is built, configured and
-- polled for its handshake.
def connectCloaked (cfg : Config) (pc : PeerConfig) (allowedIPs : List Prefix)
    (params : CloakedParams) : Prog (Except String Unit) := do
  let sess := addr pc.controlAddr
  let tun ← perform .attach
  let dev ← perform (.newDevice (.session tun) .default)
  match ← perform (.ipcSet dev (cloakedConf cfg pc allowedIPs params)) with
  | .error err =>
    perform (.closeDev dev)
    perform (.setState sess .failed err)
    return .error ("configure cloaked Y device: " ++ err)
  | .ok _ =>
    match ← perform (.up dev) with
    | .error err =>
      perform (.closeDev dev)
      perform (.setState sess .failed err)
      return .error ("bring up cloaked Y device: " ++ err)
    | .ok _ =>
      let start ← perform .now
      if ← invoke (.pollY dev pc.remotePublicKey (start + cfg.cloakedHandshakeTimeout)) then
        install pc dev none .connectedCloaked "" "cloaked" none
        return .ok ()
      else
        perform (.closeDev dev)
        perform (.setState sess .failed "cloaked-handshake-timeout")
        return .error "cloaked mode handshake timed out"

-- One round of the loop of runYCloaked: any message but CloakedParams is ignored.
def cloakedWait (cfg : Config) (cc : ConnId) (pc : PeerConfig) (allowedIPs : List Prefix) :
    Prog (Except String Unit) := do
  match ← perform (.recv cc) with
  | .error err =>
    perform (.setState (.addr pc.controlAddr) .failed err)
    return .error ("receive CloakedParams: " ++ err)
  | .ok (.cloakedParams params) => connectCloaked cfg pc allowedIPs params
  | .ok _ => invoke (.cloakedWait cc pc allowedIPs)

def runYCloaked (cc : ConnId) (pc : PeerConfig) (allowedIPs : List Prefix) :
    Prog (Except String Unit) := do
  perform (.setState (.addr pc.controlAddr) .probing "cloaked-setup")
  invoke (.cloakedWait cc pc allowedIPs)

-- One round of the loop of runY that waits for X's answer to the report.
-- The two error exits close the device only; the socket under its
-- PreboundBind stays open.
def nativeWait (cc : ConnId) (pc : PeerConfig) (allowedIPs : List Prefix) (ySocket : SockId)
    (yDev : DevId) (externalAddr : AddrPort) (sid : SessionID) : Prog (Except String Unit) := do
  let sess := addr pc.controlAddr
  match ← perform (.recv cc) with
  | .error err =>
    perform (.closeDev yDev)
    perform (.setState sess .failed err)
    return .error ("receive native result: " ++ err)
  | .ok (.nativeReady m) =>
    if m.sessionID = sid then
      install pc yDev (some ySocket) .connectedNative "" "native" (some externalAddr)
      return .ok ()
    else
      invoke (.nativeWait cc pc allowedIPs ySocket yDev externalAddr sid)
  | .ok (.nativeFailed m) =>
    if m.sessionID = sid then
      perform (.closeDev yDev)
      perform (.closeSocket ySocket)
      perform (.setState sess .failed m.reason)
      runYCloaked cc pc allowedIPs
    else
      invoke (.nativeWait cc pc allowedIPs ySocket yDev externalAddr sid)
  | .ok _ => invoke (.nativeWait cc pc allowedIPs ySocket yDev externalAddr sid)

-- runY from the punched socket on: bring the passive device up, report the
-- address, wait for the answer.
def reportNative (cfg : Config) (cc : ConnId) (pc : PeerConfig) (allowedIPs : List Prefix)
    (ySocket : SockId) (externalAddr : AddrPort) : Prog (Except String Unit) := do
  let sess := addr pc.controlAddr
  let tun ← perform .attach
  match ← preparePassiveDevice cfg pc allowedIPs (.session tun) (.prebound ySocket) with
  | .error err =>
    perform (.closeSocket ySocket)
    perform (.setState sess .failed err)
    return .error ("prepare Y device: " ++ err)
  | .ok yDev =>
    let sid ← perform .randomSessionID
    match ← perform (.send cc (.nativeEndpointReport ⟨sid, externalAddr⟩)) with
    | .error err =>
      perform (.closeDev yDev)
      perform (.setState sess .failed err)
      return .error err
    | .ok _ => invoke (.nativeWait cc pc allowedIPs ySocket yDev externalAddr sid)

def decideCloaked (cc : ConnId) (pc : PeerConfig) (allowedIPs : List Prefix) (reason : GoString)
    (onError : String → Prog (Except String Unit)) : Prog (Except String Unit) := do
  match ← perform (.send cc (.modeDecision ⟨0, ModeCloaked, reason⟩)) with
  | .error err => onError err
  | .ok _ => runYCloaked cc pc allowedIPs

-- The branch of runY for a NAT that is not cone-type or could not be characterized.
def giveUpNative (cc : ConnId) (pc : PeerConfig) (allowedIPs : List Prefix) (ySocket : SockId)
    (reason : GoString) : Prog (Except String Unit) := do
  perform (.closeSocket ySocket)
  perform (.setState (.addr pc.controlAddr) .failed reason)
  decideCloaked cc pc allowedIPs reason fun err => return .error ("send ModeDecision: " ++ err)

-- runY after the Hello and XInfo exchange, up to its deferred Close.
def negotiateY (cfg : Config) (cc : ConnId) (info : XInfo) (xAddr : Addr) (pc : PeerConfig)
    (hint : ModeHint) : Prog (Except String Unit) := do
  let sess := addr pc.controlAddr
  match ← perform (.parsePrefixes pc.allowedIPs) with
  | .error err =>
    perform (.setState sess .failed err)
    return .error err
  | .ok allowedIPs =>
    if hint = .cloaked then
      perform (.setState sess .probing "cloaked-setup")
      decideCloaked cc pc allowedIPs "retry-last-mode" fun err => do
        perform (.setState sess .failed err)
        return .error err
    else
      match ← perform (.singleFamilyUDP xAddr) with
      | .error err =>
        perform (.setState sess .failed err)
        return .error ("open Y socket: " ++ err)
      | .ok ySocket =>
        match ← perform (.characterize ySocket ⟨xAddr, info.probePortA⟩ ⟨xAddr, info.probePortB⟩) with
        | .error err => giveUpNative cc pc allowedIPs ySocket err
        | .ok result =>
          if result.natClass = .cone then
            perform (.setState sess .nativeAttempting "")
            match ← perform (.punch ySocket ⟨xAddr, info.nativeListenPort⟩) with
            | .error err =>
              perform (.closeSocket ySocket)
              perform (.setState sess .failed err)
              return .error ("punch: " ++ err)
            | .ok _ => reportNative cfg cc pc allowedIPs ySocket result.externalAddr
          else
            giveUpNative cc pc allowedIPs ySocket "symmetric-or-unknown-nat"

def runY (cfg : Config) (pc : PeerConfig) (hint : ModeHint) : Prog (Except String Unit) := do
  let sess := addr pc.controlAddr
  perform (.setState sess .probing "")
  match ← connectXInfo cfg pc with
  | .error err =>
    perform (.setState sess .failed err)
    return .error err
  | .ok (cc, info, xAddr) =>
    deferring (fun _ => perform (.closeConn cc)) (negotiateY cfg cc info xAddr pc hint)

def waitForNativeReady (cc : ConnId) (sid : SessionID) (deadline : Int) : Prog Bool := do
  let t ← perform .now
  if t < deadline then
    match ← perform (.recv cc) with
    | .error _ => return false
    | .ok (.nativeReady m) =>
      if m.sessionID = sid then return true
      else invoke (.waitForNativeReady cc sid deadline)
    | .ok (.nativeFailed m) =>
      if m.sessionID = sid then return false
      else invoke (.waitForNativeReady cc sid deadline)
    | .ok _ => invoke (.waitForNativeReady cc sid deadline)
  else
    return false

-- attemptBackgroundNative once X has confirmed the probe device: a second
-- device on the shared TUN and a second report.
def handoff (cfg : Config) (cc : ConnId) (pc : PeerConfig) (allowedIPs : List Prefix)
    (probeSocket : SockId) (externalAddr : AddrPort) : Prog Bool := do
  let sess := addr pc.controlAddr
  let tun ← perform .attach
  match ← preparePassiveDevice cfg pc allowedIPs (.session tun) (.prebound probeSocket) with
  | .error _ => return false
  | .ok realDev =>
    let sid2 ← perform .randomSessionID
    match ← perform (.send cc (.nativeEndpointReport ⟨sid2, externalAddr⟩)) with
    | .error _ =>
      perform (.closeDev realDev)
      return false
    | .ok _ =>
      let start ← perform .now
      if ← invoke (.waitForNativeReady cc sid2 (start + cfg.nativeHandshakeTimeout)) then
        closeDevice sess
        install pc realDev (some probeSocket) .connectedNative "background-native-upgrade" "native"
          (some externalAddr)
        return true
      else
        perform (.closeDev realDev)
        let _ ← invoke (.runY pc .cloaked)
        return false

-- One round of the loop of attemptBackgroundNative.
def backgroundWait (cfg : Config) (cc : ConnId) (pc : PeerConfig) (allowedIPs : List Prefix)
    (probeSocket : SockId) (probeDev : DevId) (externalAddr : AddrPort) (sid : SessionID)
    (deadline : Int) : Prog Bool := do
  let t ← perform .now
  if t < deadline then
    match ← perform (.recv cc) with
    | .error _ => return false
    | .ok (.nativeReady m) =>
      if m.sessionID = sid then
        perform (.closeDev probeDev)
        handoff cfg cc pc allowedIPs probeSocket externalAddr
      else
        invoke (.backgroundWait cc pc allowedIPs probeSocket probeDev externalAddr sid deadline)
    | .ok (.nativeFailed m) =>
      if m.sessionID = sid then return false
      else invoke (.backgroundWait cc pc allowedIPs probeSocket probeDev externalAddr sid deadline)
    | .ok _ => invoke (.backgroundWait cc pc allowedIPs probeSocket probeDev externalAddr sid deadline)
  else
    return false

-- attemptBackgroundNative with the probe device up, up to its deferred Close.
def probeNative (cfg : Config) (cc : ConnId) (pc : PeerConfig) (allowedIPs : List Prefix)
    (probeSocket : SockId) (probeDev : DevId) (externalAddr : AddrPort) : Prog Bool := do
  let sid ← perform .randomSessionID
  match ← perform (.send cc (.nativeEndpointReport ⟨sid, externalAddr⟩)) with
  | .error _ => return false
  | .ok _ =>
    let start ← perform .now
    invoke (.backgroundWait cc pc allowedIPs probeSocket probeDev externalAddr sid
      (start + cfg.nativeHandshakeTimeout))

-- attemptBackgroundNative with the probe socket open, up to its deferred Close.
def probeOn (cfg : Config) (cc : ConnId) (info : XInfo) (xAddr : Addr) (pc : PeerConfig)
    (allowedIPs : List Prefix) (probeSocket : SockId) : Prog Bool := do
  match ← perform (.characterize probeSocket ⟨xAddr, info.probePortA⟩ ⟨xAddr, info.probePortB⟩) with
  | .error _ => return false
  | .ok result =>
    if result.natClass = .cone then
      match ← perform (.punch probeSocket ⟨xAddr, info.nativeListenPort⟩) with
      | .error _ => return false
      | .ok _ =>
        match ← preparePassiveDevice cfg pc allowedIPs .noop (.prebound probeSocket) with
        | .error _ => return false
        | .ok probeDev =>
          deferring (fun succeeded => if succeeded then pure () else perform (.closeDev probeDev))
            (probeNative cfg cc pc allowedIPs probeSocket probeDev result.externalAddr)
    else
      return false

-- attemptBackgroundNative on its control connection, up to the deferred Close of it.
def upgradeOn (cfg : Config) (cc : ConnId) (info : XInfo) (xAddr : Addr) (pc : PeerConfig) :
    Prog Bool := do
  match ← perform (.parsePrefixes pc.allowedIPs) with
  | .error _ => return false
  | .ok allowedIPs =>
    match ← perform (.singleFamilyUDP xAddr) with
    | .error _ => return false
    | .ok probeSocket =>
      deferring (fun succeeded => if succeeded then pure () else perform (.closeSocket probeSocket))
        (probeOn cfg cc info xAddr pc allowedIPs probeSocket)

def attemptBackgroundNative (cfg : Config) (pc : PeerConfig) : Prog Bool := do
  match ← connectXInfo cfg pc with
  | .error _ => return false
  | .ok (cc, info, xAddr) =>
    deferring (fun _ => perform (.closeConn cc)) (upgradeOn cfg cc info xAddr pc)

def reconnect (pc : PeerConfig) (hint : ModeHint) (sup : Supervision) : Prog Unit := do
  let _ ← invoke (.runY pc hint)
  invoke (.supervise pc { sup with lastDev := none })

-- The last part of the liveness check: a cloaked session retries native mode
-- when the interval has passed.
def retryNative (cfg : Config) (pc : PeerConfig) (state : State) (sup : Supervision) :
    Prog Unit := do
  let bgInterval := cfg.backgroundNativeRetryIntervalOrDefault
  if state = .connectedCloaked ∧ 0 < bgInterval then
    let t ← perform .now
    if sup.lastBgAttempt.all (fun last => decide (bgInterval ≤ t - last)) then
      let attempted ← perform .now
      let sup := { sup with lastBgAttempt := some attempted }
      if ← invoke (.attemptBackgroundNative pc) then
        invoke (.supervise pc { sup with lastDev := none })
      else
        invoke (.supervise pc sup)
    else
      invoke (.supervise pc sup)
  else
    invoke (.supervise pc sup)

-- A device that is new, or whose counter has moved, has made progress at `t`.
def Supervision.observe (sup : Supervision) (dev : DevId) (rx : Nat) (t : Int) : Supervision :=
  if some dev ≠ sup.lastDev ∨ rx ≠ sup.lastRx ∨ sup.lastProgress = none then
    { sup with lastDev := some dev, lastRx := rx, lastProgress := some t }
  else sup

def checkLiveness (cfg : Config) (pc : PeerConfig) (state : State) (sup : Supervision) :
    Prog Unit := do
  let sess := addr pc.controlAddr
  match ← perform (.getDevice sess) with
  | none =>
    let never ← perform .nilDevice
    nomatch never
  | some dev =>
    let reading ← perform (.rxBytes dev pc.remotePublicKey)
    let rx := reading.getD 0
    let t ← perform .now
    let sup := sup.observe dev rx t
    let since ← perform .now
    if reading = none ∨ cfg.staleAfterOrDefault ≤ since - sup.lastProgress.getD 0 then
      closeDevice sess
      reconnect pc (if state = .connectedCloaked then .cloaked else .none) sup
    else
      retryNative cfg pc state sup

-- One round of the loop of superviseY.
def supervise (cfg : Config) (pc : PeerConfig) (sup : Supervision) : Prog Unit := do
  let sess := addr pc.controlAddr
  match ← perform (.select sup.netChange) with
  | .ctxDone => return ()
  | .netChange false => invoke (.supervise pc { sup with netChange := false })
  | .netChange true =>
    closeDevice sess
    reconnect pc .none sup
  | .liveness =>
    let state ← perform (.getState sess)
    match state with
    | .connectedNative => checkLiveness cfg pc state sup
    | .connectedCloaked => checkLiveness cfg pc state sup
    | .failed => reconnect pc .none sup
    | .idle => reconnect pc .none sup
    | .probing => invoke (.supervise pc sup)
    | .nativeAttempting => invoke (.supervise pc sup)

def superviseY (cfg : Config) (pc : PeerConfig) : Prog Unit := do
  if cfg.hasNetworkChange then
    match ← perform .subscribe with
    | .ok _ => invoke (.supervise pc ⟨true, none, none, 0, none⟩)
    | .error _ => invoke (.supervise pc ⟨false, none, none, 0, none⟩)
  else
    invoke (.supervise pc ⟨false, none, none, 0, none⟩)

def supervisor (cfg : Config) (peer : Nat) (pc : PeerConfig) : Prog Unit := do
  perform (.spawned peer)
  superviseY cfg pc

-- The first error of a peer's first attempt is what startY returns; the
-- supervisor of that peer is started all the same.
def startPeers : Nat → List PeerConfig → Option String → Prog (Option String)
  | _, [], firstErr => pure firstErr
  | peer, pc :: rest, firstErr => do
      let lastMode ← perform (.loadSession pc.controlAddr)
      match ← invoke (.runY pc (if lastMode = some "cloaked" then .cloaked else .none)) with
      | .error err =>
        perform (.spawn peer)
        startPeers (peer + 1) rest (firstErr.or (some err))
      | .ok _ =>
        perform (.spawn peer)
        startPeers (peer + 1) rest firstErr

def startY (cfg : Config) : Prog (Option String) :=
  startPeers 0 cfg.peers none

def loneY (cfg : Config) (pc : PeerConfig) : Prog Unit := do
  let _ ← startPeers 0 [pc] none
  superviseY cfg pc

def bodies (x y : Config) : Bodies sig
  | _, .serveX c sess remotePub allowedIPs => serveX x c sess remotePub allowedIPs
  | _, .pollX remotePub deadline => pollX remotePub deadline
  | _, .runY pc hint => runY y pc hint
  | _, .nativeWait cc pc allowedIPs ySocket yDev externalAddr sid =>
    nativeWait cc pc allowedIPs ySocket yDev externalAddr sid
  | _, .cloakedWait cc pc allowedIPs => cloakedWait y cc pc allowedIPs
  | _, .pollY dev peer deadline => pollY dev peer deadline
  | _, .attemptBackgroundNative pc => attemptBackgroundNative y pc
  | _, .backgroundWait cc pc allowedIPs probeSocket probeDev externalAddr sid deadline =>
    backgroundWait y cc pc allowedIPs probeSocket probeDev externalAddr sid deadline
  | _, .waitForNativeReady cc sid deadline => waitForNativeReady cc sid deadline
  | _, .supervise pc sup => supervise y pc sup

end StarlingWg.Orchestrate
