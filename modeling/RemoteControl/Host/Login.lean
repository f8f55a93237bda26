import RemoteControl.Host.Handlers

/-! # Logging in

The branches of `on_message` a peer can reach before it is authorized, down to
`send_logon_response_and_keep_alive`, where they all meet. A handler that may
end the connection returns, next to the world, whether to keep it alive.

The checks on the way leave an action behind when they succeed, so that a run
can be asked which of them it went through.
-/

namespace RemoteControl.Host

open LoginFailures (Failure)

/-- `SESSION_TIMEOUT`, in seconds. -/
def sessionTimeout : Nat := 30

/-- How long a switch-sides uuid is kept, in seconds. -/
def switchSidesTimeout : Nat := 10

def TrustedDevice.outdate (d : TrustedDevice) (env : Env) : Bool :=
  d.time + 90 * 24 * 60 * 60 * 1000 < env.time

namespace Globals

/-- `SESSIONS.retain(..)` -/
def retainSessions (g : Globals) (env : Env) : Globals :=
  { g with sessions := fun key =>
      (g.sessions key).filter fun s => env.instant - s.lastRecvTime < sessionTimeout }

/-- `AuthedConnID::update_or_insert_session` with both values given. -/
def updateOrInsertSession (g : Globals) (env : Env) (key : SessionKey) (password : Bytes)
    (tfa : Bool) : Globals :=
  let session := match g.sessions key with
    | some s => { s with randomPassword := password, tfa := tfa }
    | none => ⟨env.instant, password, tfa⟩
  { g with sessions := Function.update g.sessions key (some session) }

def setSession2fa (g : Globals) (env : Env) (key : SessionKey) : Globals :=
  let session := match g.sessions key with
    | some s => { s with tfa := true }
    | none => ⟨env.instant, [], true⟩
  { g with sessions := Function.update g.sessions key (some session) }

def retainSwitchSides (g : Globals) (env : Env) : Globals :=
  { g with switchSidesUuid := fun id =>
      (g.switchSidesUuid id).filter fun v => env.instant - v.1 < switchSidesTimeout }

def removeSwitchSides (g : Globals) (id : String) : Globals :=
  { g with switchSidesUuid := Function.update g.switchSidesUuid id none }

def setLoginFailures (g : Globals) (i : Fin 2) (m : LoginFailures.Failures) : Globals :=
  { g with loginFailures := Function.update g.loginFailures i m }

end Globals

/-- `validate_one_password`: the peer sends
    `sha256(sha256(password ++ salt) ++ challenge)`. -/
def Connection.validateOnePassword (p : Platform) (c : Connection) (password : Bytes) : Bool :=
  if password.length = 0 then false
  else p.sha256 (p.sha256 (password ++ c.salt) ++ c.challenge) = c.lr.password

def Connection.authConnType (c : Connection) : AuthConnType :=
  if c.fileTransfer.isSome then .fileTransfer
  else if c.portForwardSocket then .portForward
  else if c.viewCamera then .viewCamera
  else if c.terminal then .terminal
  else .remote

/-- `normalize_port_forward_target` -/
def normalizePortForwardTarget (pf : PortForward) : String × Bool :=
  if pf.host = "RDP" ∧ pf.port = 0 then ("localhost:3389", true)
  else if pf.host = "" then ("localhost:" ++ toString pf.port, false)
  else (pf.host ++ ":" ++ toString pf.port, false)

namespace World

def validatePassword (p : Platform) (env : Env) (w : World) : World × Bool :=
  if env.temporaryEnabled && w.conn.validateOnePassword p env.temporaryPassword then
    let record (g : Globals) : Globals :=
      g.updateOrInsertSession env w.conn.sessionKey env.temporaryPassword false
    ((w.modifyGlobals record).emit .validatedPassword, true)
  else if env.permanentEnabled && w.conn.validateOnePassword p env.permanentPassword then
    (w.emit .validatedPassword, true)
  else (w, false)

def isRecentSession (p : Platform) (env : Env) (tfa : Bool) (w : World) : World × Bool :=
  let w := w.modifyGlobals fun g => g.retainSessions env
  match w.globals.sessions w.conn.sessionKey with
  | some session =>
      if w.conn.lr.password ≠ [] ∧ ((tfa ∧ session.tfa) ∨
          (¬ tfa ∧ w.conn.validateOnePassword p session.randomPassword)) then
        (w.emit (.recentSession tfa), true)
      else (w, false)
  | none => (w, false)

/-- `check_failure(i)`: what was read, unless the attempt is refused. -/
def checkFailure (env : Env) (i : Fin 2) (w : World) : World × Option (Failure × Int) :=
  match LoginFailures.checkFailure (w.globals.loginFailures i) w.conn.ip env.minute with
  | (failure, .proceed) => (w, some (failure, env.minute))
  | (_, .refuse err _) => (w.sendLoginError err, none)

def updateFailure (read : Failure × Int) (remove : Bool) (i : Fin 2) (w : World) : World :=
  w.modifyGlobals fun g => g.setLoginFailures i
    (LoginFailures.updateFailure (g.loginFailures i) w.conn.ip read.1 read.2 remove)

def tryStartCm (peerId name : String) (authorized : Bool) (w : World) : World :=
  w.sendToCm (.login peerId name authorized)

def tryStartCmIpc (w : World) : World :=
  if w.conn.startCmIpcPara then
    (w.modify fun c => { c with startCmIpcPara := false }).emit .startCmIpc
  else w

/-- Whether the second factor is still missing. -/
def lacks2fa (p : Platform) (env : Env) (w : World) : World × Bool :=
  if w.conn.require2fa then
    let (w, recent) := w.isRecentSession p env true
    (w, !recent && !w.conn.fromSwitch)
  else (w, false)

def connectPortForwardIfNeeded (env : Env) (w : World) : World × Bool :=
  if w.conn.portForwardSocket then (w, true)
  else
    match w.conn.lr.union with
    | some (.portForward pf) =>
        let (addr, isRdp) := normalizePortForwardTarget pf
        let w := w.modify fun c => { c with portForwardAddress := addr }
        if env.portForwardConnects then
          (w.modify fun c => { c with portForwardSocket := true }, true)
        else
          (w.sendLoginError ("Failed to access remote " ++ (if isRdp then "RDP" else addr) ++
            ". Please make sure it is reachable/open."), false)
    | _ => (w, true)

def initTerminalService (env : Env) (w : World) : World :=
  match w.conn.terminalUserToken with
  | none => w
  | some _ =>
      let w := if w.conn.terminalServiceId = "" then
          w.modify fun c => { c with terminalServiceId := env.generatedServiceId }
        else w
      w.emit (.startTerminalService w.conn.terminalServiceId)

def readDir (dir : String) (includeHidden : Bool) (w : World) : World :=
  w.sendFs (.readDir dir includeHidden)

/-- The `LoginResponse`: an error if the displays of a remote session cannot be
    listed. Returns whether the session's services may be subscribed. -/
def sendLoginResponse (env : Env) (w : World) : World × Bool :=
  if w.conn.fileTransfer.isSome || w.conn.terminal then
    (w.send (.loginResponse w.conn.authConnType), false)
  else if w.conn.viewCamera then
    ((w.emit .encoderUpdate).send (.loginResponse .viewCamera), false)
  else if env.displaysErr = "" then
    ((w.emit .encoderUpdate).send (.loginResponse .remote), true)
  else ((w.emit .encoderUpdate).send (.loginError env.displaysErr), false)

def applyOptionsInLogin (p : Platform) (env : Env) (w : World) : World :=
  match w.conn.optionsInLogin with
  | some o => (w.modify fun c => { c with optionsInLogin := none }).updateOptions p env o
  | none => w

/-- What the kind of the connection starts once the peer has its answer. -/
def startSession (p : Platform) (env : Env) (subService : Bool) (w : World) : World :=
  let wait := p.os = .windows && !w.conn.terminal && env.waitSessionIdConfirm
  match w.conn.fileTransfer with
  | some (dir, showHidden) =>
      let dir := if dir ≠ "" ∧ env.isDir dir then dir else ""
      if !wait then w.readDir dir showHidden
      else w.modify fun c => { c with delayedReadDir := some (dir, showHidden) }
  | none =>
      if w.conn.terminal then
        let w := w.modify fun c => { c with keyboard := false }
        if p.isDesktop then w.initTerminalService env else w
      else if w.conn.viewCamera then
        let w := if !wait then w.trySubCameraDisplays p env else w
        (w.modify fun c => { c with keyboard := false }).sendPermission .keyboard false
      else if subService && !wait then w.trySubMonitorServices p env
      else w

/-- `self.authorized = true` and the registration of the kind. -/
def authorize (w : World) : World :=
  w.modify fun c => { c with authorized := true, authedConnId := some c.authConnType }

def finishLogon (p : Platform) (env : Env) (w : World) : World :=
  let w := w.authorize
  if w.conn.portForwardSocket then w.send (.loginResponse w.conn.authConnType)
  else if p.os = .linux && w.conn.isRemote && env.displayServerErr ≠ "" then
    w.send (.loginError env.displayServerErr)
  else
    let (w, subService) := w.sendLoginResponse env
    (w.applyOptionsInLogin p env).startSession p env subService

def sendLogonResponseAndKeepAlive (p : Platform) (env : Env) (w : World) : World × Bool :=
  if w.conn.authorized then (w, true)
  else
    match w.lacks2fa p env with
    | (w, true) => (w.sendLoginError "2FA Required", true)
    | (w, false) =>
        match w.connectPortForwardIfNeeded env with
        | (w, false) => (w, false)
        | (w, true) => (w.finishLogon p env, true)

/-- `if !self.send_logon_response_and_keep_alive().await { return false; }`
    and what its callers do next. -/
def logonThen (p : Platform) (env : Env) (after : World → World) (w : World) : World × Bool :=
  match w.sendLogonResponseAndKeepAlive p env with
  | (w, false) => (w, false)
  | (w, true) => (after w, true)

def matchesTrustedDevice (env : Env) (lr : LoginRequest) : Bool :=
  match env.trustedDevices.find? fun d => d.hwid = lr.hwid with
  | some d => !d.outdate env && d.id = lr.myId && d.name = lr.myName && d.platform = lr.myPlatform
  | none => false

def handleLoginRequestWithoutValidation (env : Env) (lr : LoginRequest) (w : World) : World :=
  let w := w.modify fun c => { c with
    lr := lr
    optionsInLogin := lr.option.or c.optionsInLogin
    videoAckRequired := lr.videoAckRequired }
  if w.conn.require2fa && lr.hwid ≠ [] && env.enableTrustedDevices &&
      matchesTrustedDevice env lr then
    (w.modify fun c => { c with require2fa := false }).emit .trustedDevice
  else w

/-- A login kind that needs `option`; `refusal` is the login error without it. -/
def requirePermission (p : Platform) (env : Env) (option : PermissionOption) (refusal : String)
    (granted : World → World × Bool) (w : World) : World × Bool :=
  if permission p env option w.conn.controlPermissions then granted (w.emit (.permitted option))
  else (w.sendLoginError refusal, false)

def handleTerminalLogin (p : Platform) (env : Env) (lr : LoginRequest) (serviceId : String)
    (w : World) : World × Bool :=
  if p.os = .windows && (lr.osLogin.getD {}).username ≠ "" && !env.isInstalled then
    (w.sendLoginError "Supported only in the installed version.", false)
  else
    let w := w.modify fun c => { c with
      terminal := true
      terminalPersistent := match c.optionsInLogin with
        | some o => o.terminalPersistent = some .yes
        | none => c.terminalPersistent
      terminalServiceId := serviceId }
    if p.isDesktop then
      match env.terminalToken with
      | .error msg => (w.sendLoginError msg, false)
      | .ok token =>
          let w := w.modify fun c => { c with terminalUserToken := some token }
          match env.serviceSpecifiedUser serviceId with
          | some isUser =>
              if isUser ≠ token.isServiceToken then
                (w.sendLoginError "Terminal service user mismatch detected.", false)
              else (w, true)
          | none => (w, true)
    else (w, true)

/-- The match over `lr.union`. -/
def handleLoginKind (p : Platform) (env : Env) (lr : LoginRequest) (w : World) : World × Bool :=
  match lr.union with
  | some (.fileTransfer dir showHidden) =>
      w.requirePermission p env .fileTransfer "No permission of file transfer" fun w =>
        (w.modify fun c => { c with fileTransfer := some (dir, showHidden) }, true)
  | some .viewCamera =>
      w.requirePermission p env .camera "No permission of viewing camera" fun w =>
        (w.modify fun c => { c with viewCamera := true }, true)
  | some (.terminal serviceId) =>
      w.requirePermission p env .terminal "No permission of terminal" fun w =>
        w.handleTerminalLogin p env lr serviceId
  | some (.portForward pf) =>
      w.requirePermission p env .tunnel "No permission of IP tunneling" fun w =>
        (w.modify fun c => { c with portForwardAddress := (normalizePortForwardTarget pf).1 }, true)
  | none =>
      if env.isInPrivacyMode then
        (w.sendLoginError "Someone turns on privacy mode, exit", false)
      else (w, true)

def desktopSessionNotReady : String := "Desktop session not ready"

/-- The password or session was accepted: log on unless the desktop is not up. -/
def acceptLogin (p : Platform) (env : Env) (lr : LoginRequest) (errMsg : String) (w : World) :
    World × Bool :=
  if errMsg = "" then
    w.logonThen p env fun w => w.tryStartCm lr.myId lr.myName w.conn.authorized
  else (w.sendLoginError errMsg, true)

def handlePasswordLogin (p : Platform) (env : Env) (lr : LoginRequest) (errMsg : String)
    (w : World) : World × Bool :=
  match w.checkFailure env 0 with
  | (w, none) => (w, true)
  | (w, some read) =>
      match w.validatePassword p env with
      | (w, true) => (w.updateFailure read true 0).acceptLogin p env lr errMsg
      | (w, false) =>
          let w := w.updateFailure read false 0
          if errMsg = "" then
            ((w.sendLoginError "Wrong Password").tryStartCm lr.myId lr.myName false, true)
          else (w.sendLoginError "Desktop session not ready, password wrong", true)

/-- The rest of a login request once its kind is admitted. -/
def handleLoginCredentials (p : Platform) (env : Env) (lr : LoginRequest) (w : World) :
    World × Bool :=
  let w := if p.isDesktop then w.tryStartCmIpc else w
  let errMsg := if p.os = .linux then env.desktopErr else ""
  if errMsg ≠ "" ∧ errMsg ≠ desktopSessionNotReady then (w.sendLoginError errMsg, true)
  else if !p.isIpStr lr.username && !p.isDomainPortStr lr.username && lr.username ≠ env.configId then
    (w.sendLoginError "Offline", false)
  else if (env.approveMode = .click ∧ ¬ (p.allowLogonScreenPassword ∧ env.isLogon)) ∨
      (env.approveMode = .both ∧ ¬ env.hasValidPassword) then
    let w := w.tryStartCm lr.myId lr.myName false
    (if lr.version ≥ version1_2_0 then w.sendLoginError "No Password Access" else w, true)
  else
    match w.isRecentSession p env false with
    | (w, true) => w.acceptLogin p env lr errMsg
    | (w, false) =>
        if lr.password = [] then
          (if errMsg = "" then w.tryStartCm lr.myId lr.myName false
            else w.sendLoginError "Desktop session not ready, password empty", true)
        else w.handlePasswordLogin p env lr errMsg

def handleLoginRequest (p : Platform) (env : Env) (lr : LoginRequest) (w : World) :
    World × Bool :=
  let w := w.handleLoginRequestWithoutValidation env lr
  if w.conn.authorized then (w, true)
  else
    match w.handleLoginKind p env lr with
    | (w, false) => (w, false)
    | (w, true) => w.handleLoginCredentials p env lr

/-- The second factor is no longer required, nor is it in the next sessions. -/
def prove2fa (env : Env) (w : World) : World :=
  let w := (w.modify fun c => { c with require2fa := false }).emit .validatedTotp
  w.modifyGlobals fun g => g.setSession2fa env w.conn.sessionKey

def trustDevice (env : Env) (hwid : Bytes) (w : World) : World :=
  if hwid ≠ [] ∧ env.enableTrustedDevices then w.emit (.addTrustedDevice hwid) else w

def accept2fa (p : Platform) (env : Env) (hwid : Bytes) (w : World) : World × Bool :=
  (w.prove2fa env).logonThen p env fun w =>
    (w.tryStartCm w.conn.lr.myId w.conn.lr.myName w.conn.authorized).trustDevice env hwid

def handleAuth2fa (p : Platform) (env : Env) (code : String) (hwid : Bytes) (w : World) :
    World × Bool :=
  match w.checkFailure env 1 with
  | (w, none) => (w, true)
  | (w, some read) =>
      if w.conn.require2fa then
        match env.totpCheck code with
        | some true => (w.updateFailure read true 1).accept2fa p env hwid
        | some false => ((w.updateFailure read false 1).sendLoginError "Wrong 2FA Code", true)
        | none => (w, true)
      else (w, true)

/-- The uuid of the answer is the one issued to this peer in the last seconds. -/
def matchesSwitchSides (env : Env) (g : Globals) (lr : LoginRequest) (uuid : Bytes) : Bool :=
  uuid.length = 16 && ((g.retainSwitchSides env).switchSidesUuid lr.myId).any fun v => v.2 = uuid

def switchedSides (w : World) : World :=
  (w.modify fun c => { c with fromSwitch := true }).emit .switchSidesMatched

def handleSwitchSidesResponse (p : Platform) (env : Env) (uuid : Bytes)
    (lr : Option LoginRequest) (w : World) : World × Bool :=
  match lr with
  | none => (w, true)
  | some lr =>
      if !p.flutter then (w, true)
      else
        let w := w.handleLoginRequestWithoutValidation env lr
        let found := matchesSwitchSides env w.globals lr uuid
        let w := w.modifyGlobals fun g => (g.retainSwitchSides env).removeSwitchSides lr.myId
        if found then
          w.switchedSides.logonThen p env fun w =>
            let w := w.tryStartCm lr.myId lr.myName w.conn.authorized
            if p.isDesktop then w.tryStartCmIpc else w
        else (w, true)

def handleTestDelay (fromClient : Bool) (w : World) : World :=
  if fromClient then w.send .testDelay
  else if w.conn.lastTestDelay then
    (w.modify fun c => { c with lastTestDelay := false }).emit .videoQos
  else w

end World

end RemoteControl.Host
