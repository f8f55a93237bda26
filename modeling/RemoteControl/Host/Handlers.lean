import RemoteControl.Host.Connection

/-! # Permissions, options and displays of a connection

The parts of `connection.rs` that both the login and the message loop use. Each
handler takes the world before it and returns the world after it.
-/

namespace RemoteControl.Host

def PermissionOption.index : PermissionOption → Nat
  | .keyboard => 0
  | .remotePrinter => 1
  | .clipboard => 2
  | .fileTransfer => 3
  | .audio => 4
  | .camera => 5
  | .terminal => 6
  | .tunnel => 7
  | .remoteRestart => 8
  | .recordSession => 9
  | .blockInput => 10

/-- Two bits per permission: 1 disables, 2 enables, anything else is not set. -/
def getControlPermission (permissions : BitVec 64) (index : Nat) : Option Bool :=
  if index < 32 then
    match ((permissions >>> (index * 2)) &&& 3#64).toNat with
    | 1 => some false
    | 2 => some true
    | _ => none
  else none

/-- `is_permission_enabled_locally`; every option asked about starts with
    `enable-`, so it is on unless it is `"N"`. -/
def isPermissionEnabledLocally (p : Platform) (env : Env) (option : PermissionOption) : Bool :=
  if p.flutter && p.isDesktop && env.accessMode = "full" then true
  else if p.flutter && p.isDesktop && env.accessMode = "view" then false
  else env.configOption option ≠ "N"

def permission (p : Platform) (env : Env) (option : PermissionOption)
    (controlPermissions : Option (BitVec 64)) : Bool :=
  match controlPermissions.bind (getControlPermission · option.index) with
  | some enabled => enabled
  | none => isPermissionEnabledLocally p env option

namespace Connection

def sessionKey (c : Connection) : SessionKey := ⟨c.lr.myId, c.lr.myName, c.lr.sessionId⟩

def isRemote (c : Connection) : Bool :=
  c.fileTransfer.isNone && !c.portForwardSocket && !c.viewCamera && !c.terminal

def isAuthedViewCameraConn (c : Connection) : Bool := c.authedConnId = some .viewCamera

def peerKeyboardEnabled (c : Connection) : Bool := c.keyboard && !c.disableKeyboard

def clipboardEnabled (c : Connection) : Bool := c.clipboard && !c.disableClipboard

def canSubClipboardService (p : Platform) (c : Connection) : Bool :=
  c.clipboardEnabled && c.peerKeyboardEnabled && !p.oneWayClipboard

def audioEnabled (c : Connection) : Bool := c.audio && !c.disableAudio

def fileTransferEnabled (c : Connection) : Bool := c.file && c.enableFileTransfer

def canSubFileClipboardService (p : Platform) (c : Connection) : Bool :=
  c.clipboardEnabled && c.fileTransferEnabled && !p.oneWayFileTransfer

def videoSource (c : Connection) : VideoSource := if c.viewCamera then .camera else .monitor

end Connection

namespace World

def sendPermission (w : World) (permission : PermissionKind) (enabled : Bool) : World :=
  w.send (.permissionInfo permission enabled)

def updateAutoDisconnectTimer (env : Env) (w : World) : World :=
  w.modify fun c => { c with autoDisconnectTimer := c.autoDisconnectTimer.map fun _ => env.time }

def tryEmptyFileClipboard (w : World) : World := w.emit .emptyClipboardFiles

def onClose (p : Platform) (lock : Bool) (w : World) : World :=
  if w.conn.closed then w
  else
    let w := (w.modify fun c => { c with closed := true }).emit .audio
    let w :=
      if lock && w.conn.lockAfterSessionEnd && w.conn.keyboard && p.isDesktop then
        w.emit .lockScreen
      else w
    let w :=
      if p.isDesktop && (w.conn.chatUnanswered || w.conn.fileTransferred && p.flutter) then
        w.sendToCm .disconnected
      else w.sendToCm .close
    w.modify fun c => { c with portForwardSocket := false }

def trySubCameraDisplays (p : Platform) (env : Env) (w : World) : World :=
  let primary := if env.primaryCameraExists then some p.primaryCameraIdx else none
  let server := match primary with
    | some idx => w.server.tryAddService (.video .camera idx)
    | none => w.server
  w.setServer (server.addCameraConnection primary w.conn.id)

/-- The services a remote connection is not to be subscribed to at first. -/
def nopermServices (p : Platform) (c : Connection) : List ServiceName :=
  (if !c.peerKeyboardEnabled && !c.showRemoteCursor then [.cursor] else []) ++
  (if !c.showRemoteCursor then [.pos] else []) ++
  (if !c.followRemoteWindow then [.windowFocus] else []) ++
  (if !c.canSubClipboardService p then [.clipboard] else []) ++
  (if p.unixFileCopyPaste && !c.canSubFileClipboardService p then [.fileClipboard] else []) ++
  (if !c.audioEnabled then [.audio] else [])

def trySubMonitorServices (p : Platform) (env : Env) (w : World) : World :=
  if w.conn.isRemote && !w.conn.servicesSubed then
    let server := w.server.tryAddService (.video .monitor p.primaryDisplayIdx)
    let server := server.addConnection p.primaryDisplayIdx w.conn.id (nopermServices p w.conn)
    (w.setServer server).modify fun c => { c with
      servicesSubed := true
      autoDisconnectTimer := if env.allowAutoDisconnect then some env.time else none }
  else w

def turnOffPrivacyToMsg (env : Env) (w : World) : World × Outgoing :=
  (w.emit .turnOffPrivacy,
    match env.turnOffPrivacyRes with
    | some (.ok _) => .privacyMode "PrvOffSucceeded" ""
    | some (.error e) => .privacyMode "PrvOffFailed" e
    | none => .privacyMode "PrvOffFailed" "Not supported")

def privacyUnsupported : String :=
  "Unsupported. 1 Multi-screen is not supported. 2 Please confirm the license is activated."

def turnOnPrivacy (env : Env) (implKey : String) (w : World) : World :=
  if !env.isPrivacyModeSupported then w.send (.privacyMode "PrvNotSupported" privacyUnsupported)
  else
    let w := if env.isInPrivacyMode && env.prePrivacyImplKey.isSome then
        w.send (.privacyMode "PrvOffSucceeded" "")
      else w
    let w := w.emit (.turnOnPrivacy implKey)
    match env.turnOnPrivacyRes with
    | some (.ok true) =>
        if env.checkPrivacyModeErr = "" then w.send (.privacyMode "PrvOnSucceeded" "")
        else (turnOffPrivacyToMsg env w).1.send (.privacyMode "PrvOnFailed" env.checkPrivacyModeErr)
    | some (.ok false) => w.send (.privacyMode "PrvOnFailedPlugin" "")
    | some (.error e) =>
        let w := if env.isInPrivacyMode then (turnOffPrivacyToMsg env w).1 else w
        w.send (.privacyMode "PrvOnFailed" e)
    | none => w.send (.privacyMode "PrvOffFailed" "Not supported")

def turnOffPrivacy (env : Env) (w : World) : World :=
  if !env.isPrivacyModeSupported then w.send (.privacyMode "PrvNotSupported" privacyUnsupported)
  else
    let (w, msg) := turnOffPrivacyToMsg env w
    w.send msg

def togglePrivacyMode (env : Env) (implKey : String) (on : Bool) (w : World) : World :=
  if on then w.turnOnPrivacy env implKey else w.turnOffPrivacy env

def changeResolution (env : Env) (d : Option Nat) (r : Resolution) (w : World) : World :=
  if w.conn.keyboard then
    let displayIdx := d.getD w.conn.displayIdx
    if displayIdx < env.displayCount then w.emit (.changeResolution displayIdx r) else w
  else w

def refreshVideoDisplay (display : Option Nat) (w : World) : World := w.emit (.refreshVideo display)

def switchDisplayTo (p : Platform) (displayIdx : Nat) (w : World) : World :=
  let source := w.conn.videoSource
  let server := if displayIdx ≠ p.primaryDisplayIdx then
      w.server.tryAddService (.video source displayIdx)
    else w.server
  let server := if w.conn.lr.version < version1_2_4 then
      server.subscribe (.video source w.conn.displayIdx) w.conn.id false
    else server
  let server := server.subscribe (.video source displayIdx) w.conn.id true
  (w.setServer server).modify fun c => { c with displayIdx := displayIdx }

def sendDisplayChanged (env : Env) (display : Nat) (w : World) : World :=
  if env.displayChangedMsg display then w.send (.displayChanged display) else w

def handleSwitchDisplay (p : Platform) (env : Env) (s : SwitchDisplay) (w : World) : World :=
  if w.conn.displayIdx ≠ s.display then
    let w := w.switchDisplayTo p s.display
    let w := if p.isDesktop && s.width ≠ 0 && s.height ≠ 0 then
        w.changeResolution env none ⟨s.width, s.height⟩
      else w
    w.sendDisplayChanged env w.conn.displayIdx
  else w

def captureDisplays (add sub set : List Nat) (w : World) : World :=
  let source := w.conn.videoSource
  let id := w.conn.id
  let addMissing (s : Server) (d : Nat) : Server := s.tryAddService (.video source d)
  let server := set.foldl addMissing (add.foldl addMissing w.server)
  let server :=
    if add ≠ [] then server.captureDisplays id source add true false
    else if sub ≠ [] then server.captureDisplays id source sub false true
    else server.captureDisplays id source set true true
  let multiUiSession : Bool := server.getSubbedDisplaysCount id > 1
  let server := if w.conn.followRemoteWindow then
      server.subscribe .windowFocus id !multiUiSession
    else server
  (w.setServer server).modify fun c => { c with multiUiSession := multiUiSession }

def handleVoiceCall (accepted : Bool) (w : World) : World :=
  match w.conn.voiceCallRequestTimestamp with
  | none => w
  | some ts =>
      let w := w.modify fun c => { c with voiceCallRequestTimestamp := none }
      let w := if accepted then (w.emit .audio).sendToCm .startVoiceCall
        else w.sendToCm .closeVoiceCall
      let w := (w.send (.voiceCallResponse ts accepted)).modify fun c =>
        { c with voiceCalling := accepted }
      if w.conn.isAuthedViewCameraConn then w.subscribe .audio (w.conn.audioEnabled && accepted)
      else w

def closeVoiceCall (w : World) : World :=
  let w := ((w.emit .audio).sendToCm .closeVoiceCall).modify fun c => { c with voiceCalling := false }
  if w.conn.isAuthedViewCameraConn then w.subscribe .audio false else w

/-! One function per option of the message, applied in the order of the source. -/

/-- `if let Ok(q) = o.field.enum_value() { if q != BoolOption::NotSet { .. } }` -/
def withOption (q : Option BoolOption) (act : Bool → World → World) (w : World) : World :=
  match q with
  | some .yes => act true w
  | some .no => act false w
  | _ => w

def updateImageQuality (o : OptionMessage) (w : World) : World :=
  match o.imageQuality with
  | none => w
  | some q =>
      let imageQuality := if q = .notSet then
          (if o.customImageQuality > 0 then o.customImageQuality else -1)
        else q.value
      if imageQuality > 0 then w.emit .videoQos else w

def updateFpsAndDecoding (o : OptionMessage) (w : World) : World :=
  let w := if o.customFps > 0 then w.emit .videoQos else w
  if o.supportedDecoding then w.emit .encoderUpdate else w

def setLockAfterSessionEnd (on : Bool) (w : World) : World :=
  w.modify fun c => { c with lockAfterSessionEnd := on }

def setShowRemoteCursor (on : Bool) (w : World) : World :=
  let w := w.modify fun c => { c with showRemoteCursor := on }
  (w.subscribe .cursor (w.conn.peerKeyboardEnabled || w.conn.showRemoteCursor)).subscribe .pos
    w.conn.showRemoteCursor

def setFollowRemoteCursor (on : Bool) (w : World) : World :=
  w.modify fun c => { c with followRemoteCursor := on }

def setFollowRemoteWindow (on : Bool) (w : World) : World :=
  let w := w.modify fun c => { c with followRemoteWindow := on }
  w.subscribe .windowFocus w.conn.followRemoteWindow

/-- A view-camera connection hears the host only during a voice call. -/
def subscribeAudio (w : World) : World :=
  if w.conn.isAuthedViewCameraConn then
    if w.conn.voiceCalling || !w.conn.audioEnabled then w.subscribe .audio w.conn.audioEnabled
    else w
  else w.subscribe .audio w.conn.audioEnabled

def setDisableAudio (on : Bool) (w : World) : World :=
  (w.modify fun c => { c with disableAudio := on }).subscribeAudio

def setEnableFileTransfer (p : Platform) (on : Bool) (w : World) : World :=
  let w := w.modify fun c => { c with enableFileTransfer := on }
  let w := if p.os = .windows then
      w.sendToCm (.clipboardFileEnabled w.conn.fileTransferEnabled)
    else w
  if p.unixFileCopyPaste then
    let w := if !w.conn.enableFileTransfer then w.tryEmptyFileClipboard else w
    w.subscribe .fileClipboard (w.conn.canSubFileClipboardService p)
  else w

def setDisableClipboard (p : Platform) (on : Bool) (w : World) : World :=
  let w := w.modify fun c => { c with disableClipboard := on }
  w.subscribe .clipboard (w.conn.canSubClipboardService p)

def setDisableKeyboard (p : Platform) (on : Bool) (w : World) : World :=
  let w := w.modify fun c => { c with disableKeyboard := on }
  let w := w.subscribe .clipboard (w.conn.canSubClipboardService p)
  let w := if p.unixFileCopyPaste then
      w.subscribe .fileClipboard (w.conn.canSubFileClipboardService p)
    else w
  w.subscribe .cursor (w.conn.peerKeyboardEnabled || w.conn.showRemoteCursor)

/-- Only for peers before 1.2.4; later ones send `TogglePrivacyMode`. -/
def updatePrivacyMode (env : Env) (o : OptionMessage) (w : World) : World :=
  if w.conn.lr.version < version1_2_4 then
    match o.privacyMode with
    | some .yes => if w.conn.keyboard then w.turnOnPrivacy env "" else w
    | some .no => if w.conn.keyboard then w.turnOffPrivacy env else w
    | _ => w
  else w

def updateBlockInput (o : OptionMessage) (w : World) : World :=
  match o.blockInput with
  | some .yes =>
      if w.conn.keyboard && w.conn.blockInput then w.emit .blockOn
      else w.send (.blockInputState "BlkOnFailed" "No permission")
  | some .no =>
      if w.conn.keyboard && w.conn.blockInput then w.emit .blockOff
      else w.send (.blockInputState "BlkOffFailed" "No permission")
  | _ => w

def updateTerminalPersistence (on : Bool) (w : World) : World :=
  let w := w.modify fun c => { c with terminalPersistent := on }
  w.emit (.terminalPersistence w.conn.terminalServiceId on)

def setShowMyCursor (env : Env) (on : Bool) (w : World) : World :=
  let w := w.modify fun c => { c with showMyCursor := on }
  if env.showCursorErr = "" then w.emit (.whiteboard on)
  else if on then w.send (.messageBox "Show my cursor" env.showCursorErr)
  else w

/-- The options before the ones that concern a service. -/
def updateMediaOptions (o : OptionMessage) (w : World) : World :=
  ((w.updateImageQuality o).updateFpsAndDecoding o).withOption o.lockAfterSessionEnd
    setLockAfterSessionEnd

def updateCursorOptions (p : Platform) (o : OptionMessage) (w : World) : World :=
  if p.isDesktop then
    (w.withOption o.showRemoteCursor setShowRemoteCursor).withOption o.followRemoteCursor
      setFollowRemoteCursor
  else w

/-- The options that concern a service. -/
def updateServiceOptions (p : Platform) (o : OptionMessage) (w : World) : World :=
  let w := w.updateCursorOptions p o
  let w := w.withOption o.followRemoteWindow setFollowRemoteWindow
  let w := w.withOption o.disableAudio setDisableAudio
  let w := if p.hasCliprdr then w.withOption o.enableFileTransfer (setEnableFileTransfer p) else w
  let w := w.withOption o.disableClipboard (setDisableClipboard p)
  w.withOption o.disableKeyboard (setDisableKeyboard p)

/-- The options that act on the host. -/
def updateActionOptions (p : Platform) (env : Env) (o : OptionMessage) (w : World) : World :=
  let w := (w.updatePrivacyMode env o).updateBlockInput o
  let w := if p.isDesktop then w.withOption o.terminalPersistent updateTerminalPersistence else w
  if p.isDesktop then w.withOption o.showMyCursor (setShowMyCursor env) else w

def updateOptions (p : Platform) (env : Env) (o : OptionMessage) (w : World) : World :=
  ((w.updateMediaOptions o).updateServiceOptions p o).updateActionOptions p env o

end World

end RemoteControl.Host
