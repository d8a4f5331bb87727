import StarlingWg.Orchestrate.Effects

namespace StarlingWg.Orchestrate

open Control Interaction

-- The wait for the handshake in fallbackToCloaked. It reports whether one
-- was seen before the deadline.
def pollX (remotePub : Key) (deadline : Int) : Prog Bool := do
  let t ← perform .now
  if t < deadline then
    match ← perform (.cloakedHandshakeTime remotePub) with
    | some (_ + 1) => return true
    | _ =>
      perform .sleep
      invoke (.pollX remotePub deadline)
  else
    return false

-- A failure here sets the state and returns to the caller's loop. Nothing
-- is sent and the connection stays open.
def fallbackToCloaked (cfg : Config) (c : ConnId) (sess : SessionKey) (remotePub : Key)
    (allowedIPs : List Prefix) : Prog Unit := do
  perform (.setState sess .probing "cloaked-setup")
  match ← perform (.cloakedAddPeer remotePub allowedIPs) with
  | .error err => perform (.setState sess .failed ("cloaked AddPeer failed: " ++ err))
  | .ok _ =>
    match ← perform (.resolvePublicHost cfg.publicHost) with
    | .error err => perform (.setState sess .failed err)
    | .ok xAddr =>
      let listenEndpoint : AddrPort := ⟨xAddr, cfg.cloakedListenPort⟩
      let params := cfg.obfuscationProfile.toWireParams listenEndpoint
      match ← perform (.send c (.cloakedParams params)) with
      | .error err => perform (.setState sess .failed err)
      | .ok _ =>
        perform (.setDevice sess cfg.cloakedDevice none)
        let start ← perform .now
        if ← invoke (.pollX remotePub (start + cfg.cloakedHandshakeTimeout)) then
          perform (.setState sess .connectedCloaked "")
        else
          perform (.setState sess .failed "cloaked-handshake-timeout")

def serveReport (cfg : Config) (c : ConnId) (sess : SessionKey) (remotePub : Key)
    (allowedIPs : List Prefix) (m : NativeEndpointReport) : Prog Unit := do
  perform (.setState sess .nativeAttempting "")
  let res ← perform (.attemptOnX remotePub allowedIPs m.externalAddr)
  if res.success then
    perform (.setDevice sess cfg.nativeDevice none)
    perform (.setState sess .connectedNative "")
    -- the error of this Send is dropped
    let _ ← perform (.send c (.nativeReady ⟨m.sessionID⟩))
    invoke (.serveX c sess remotePub allowedIPs)
  else
    match ← perform (.send c (.nativeFailed ⟨m.sessionID, res.reason⟩)) with
    | .error _ => return ()
    | .ok _ =>
      fallbackToCloaked cfg c sess remotePub allowedIPs
      invoke (.serveX c sess remotePub allowedIPs)

-- One round of the receive loop of handleXConn.
def serveX (cfg : Config) (c : ConnId) (sess : SessionKey) (remotePub : Key)
    (allowedIPs : List Prefix) : Prog Unit := do
  match ← perform (.recv c) with
  | .error _ => return ()
  | .ok (.nativeEndpointReport m) => serveReport cfg c sess remotePub allowedIPs m
  | .ok (.modeDecision m) =>
    if m.mode = ModeCloaked then
      fallbackToCloaked cfg c sess remotePub allowedIPs
      invoke (.serveX c sess remotePub allowedIPs)
    else
      invoke (.serveX c sess remotePub allowedIPs)
  | .ok (.ping nonce) =>
    let _ ← perform (.send c (.pong nonce))
    invoke (.serveX c sess remotePub allowedIPs)
  | .ok (.bye _) => return ()
  | .ok _ => invoke (.serveX c sess remotePub allowedIPs)

def handleXConn (cfg : Config) (c : ConnId) (auth : PeerAuthorization) : Prog Unit :=
  deferring (fun _ => perform (.closeConn c)) do
    let remotePub := auth.publicKey
    let sess := SessionKey.peer remotePub
    perform (.setState sess .probing "")
    match ← perform (.send c (.hello ⟨RoleX, cfg.localPublicKey, 1⟩)) with
    | .error _ => return ()
    | .ok _ =>
      match ← perform (.send c (.xInfo ⟨cfg.probePortA, cfg.probePortB, cfg.nativeListenPort,
        cfg.cloakedListenPort⟩)) with
      | .error _ => return ()
      | .ok _ =>
        match ← perform (.parsePrefixes auth.allowedIPs) with
        | .error _ => return ()
        | .ok allowedIPs => invoke (.serveX c sess remotePub allowedIPs)

-- The goroutine Endpoint.Serve starts for one authenticated connection.
def acceptX (cfg : Config) (c : ConnId) : Prog Unit := do
  let auth ← perform (.accept c)
  handleXConn cfg c auth

end StarlingWg.Orchestrate
