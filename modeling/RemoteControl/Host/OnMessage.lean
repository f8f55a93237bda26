import RemoteControl.Host.Login

/-! # Messages of an authorized peer

`on_message` and the handlers behind its one big match. Each branch of the match
is a function of its own, in the order of the source.
-/

namespace RemoteControl.Host

/-- The modifier key a `Map` or `Translate` event names, if it names one. -/
def KeyEvent.modifierKey (p : Platform) (ke : KeyEvent) : Option RdevKey :=
  let key := match ke.mode, ke.union with
    | some .map, some (.chr code) => some (p.keycodeToRdevKey code)
    | some .map, _ => some (p.keycodeToRdevKey 0)
    | some .translate, some (.chr code) => some (p.keycodeToRdevKey (code % 0x10000))
    | _, _ => none
  key.filter RdevKey.isModifier

def filecontentsFormatName : String := "FileContents"
def filedescriptorwFormatName : String := "FileGroupDescriptorW"

namespace World

def onMouseEvent (p : Platform) (env : Env) (me : MouseEvent) (w : World) : World :=
  if w.conn.isAuthedViewCameraConn then w
  else
    let w :=
      if !p.isDesktop then w.emit .mainServiceInput
      else if w.conn.peerKeyboardEnabled then w.emit (.inputMouse me true w.conn.showMyCursor)
      else if w.conn.showMyCursor then w.emit (.inputMouse me false true)
      else w
    w.updateAutoDisconnectTimer env

def onPointerDeviceEvent (p : Platform) (env : Env) (w : World) : World :=
  if w.conn.isAuthedViewCameraConn then w
  else
    let w :=
      if !p.isDesktop then w.emit .mainServiceInput
      else if w.conn.peerKeyboardEnabled then w.emit .inputPointer
      else w
    w.updateAutoDisconnectTimer env

/-- `handle all down as press` on Linux, except for modifiers. -/
def isPress (p : Platform) (ke : KeyEvent) : Bool :=
  if p.os = .linux || p.os = .android then
    (ke.press || ke.down) && !(ke.isModifier || (ke.modifierKey p).isSome)
  else ke.press

def trackModifier (p : Platform) (ke : KeyEvent) (w : World) : World :=
  match ke.modifierKey p with
  | none => w
  | some key =>
      if isPress p ke then
        w.modify fun c => { c with pressedModifiers := key :: c.pressedModifiers.erase key }
      else w.modify fun c => { c with pressedModifiers := c.pressedModifiers.erase key }

def inputKeyEvent (p : Platform) (ke : KeyEvent) (w : World) : World :=
  if isPress p ke then
    match ke.union with
    | some (.unicode _) | some (.seq _) => w.emit (.inputKey ke false)
    | _ => w.emit (.inputKey ke true)
  else w.emit (.inputKey ke false)

def onKeyEvent (p : Platform) (env : Env) (ke : KeyEvent) (w : World) : World :=
  if p.os = .ios then w
  else if w.conn.isAuthedViewCameraConn then w
  else if p.os = .android then (w.trackModifier p ke).emit .mainServiceInput
  else
    let w := if w.conn.peerKeyboardEnabled then (w.trackModifier p ke).inputKeyEvent p ke else w
    w.updateAutoDisconnectTimer env

def onClipboard (content : Bytes) (w : World) : World :=
  if w.conn.clipboard then w.emit (.updateClipboard [content]) else w

/-- Android applies the contents without asking for the permission. -/
def onMultiClipboards (p : Platform) (contents : List Bytes) (w : World) : World :=
  if p.isDesktop then if w.conn.clipboard then w.emit (.updateClipboard contents) else w
  else if p.os = .android then w.emit (.updateClipboard contents)
  else w

/-- `clipboard::platform::unix::macos::should_handle_msg` -/
def shouldHandleMsg : ClipboardFile → Bool
  | .formatList _ | .formatDataResponse _ _ | .fileContentsResponse _ _ _ | .tryEmpty => true
  | _ => false

/-- `unix_file_clip::serve_clip_messages`: what it does to the host, and the
    messages it answers with. -/
def serveClipMessages (p : Platform) (env : Env) (clip : ClipboardFile) (w : World) :
    World × List ClipboardFile :=
  match clip with
  | .formatList formats =>
      if formats.any fun f => f.2 = filecontentsFormatName then
        match formats.find? fun f => f.2 = filedescriptorwFormatName with
        | some (id, _) => (w, [.formatDataRequest id])
        | none => (w, [])
      else (w, [])
  | .formatDataRequest _ =>
      if env.fileListPdu ≠ [] then (w, [.formatDataResponse 1 env.fileListPdu])
      else (w, [.formatDataResponse 2 []])
  | .formatDataResponse _ formatData =>
      if p.os = .linux && env.fuseOk && env.formatDataParses then
        (w.emit (.updateClipboardFiles formatData), [])
      else (w, [])
  | .fileContentsRequest streamId _ _ _ _ _ =>
      (w, env.readFileContents.map fun res => res.getD (.fileContentsResponse 2 streamId []))
  | .fileContentsResponse msgFlags streamId requestedData =>
      if p.os = .linux && env.fuseOk then
        (w.emit (.fuseFileContents (.fileContentsResponse msgFlags streamId requestedData)), [])
      else (w, [])
  | .tryEmpty => (w.emit .emptyClipboardFiles, [])
  | .monitorReady | .formatListResponse _ | .files _ => (w, [])

/-- The answers go to the peer, except the list of files kept for the audit. -/
def sendClipMessages (w : World) (msgs : List ClipboardFile) : World :=
  msgs.foldl (fun w msg => match msg with
    | .files _ => w
    | msg => w.send (.cliprdr msg)) w

/-- `Data::ClipboardFile` in the connection manager of a Windows host. Its
    `file_transfer_enabled` starts as this connection's `file` and is set with
    every `SwitchPermission` it sends. -/
def cmClipboardFile (env : Env) (clip : ClipboardFile) (w : World) : World :=
  let stop := !clip.isBeginningMessage && !(env.clipContextEnabled && w.conn.file)
  if stop then w else w.emit (.serverClipFile clip)

def onCliprdr (p : Platform) (env : Env) (clip : Option ClipboardFile) (w : World) : World :=
  if !p.hasCliprdr then w
  else
    match clip with
    | none | some (.files _) => w
    | some clip =>
        if p.os = .windows then (w.sendToCm (.clipboardFile clip)).cmClipboardFile env clip
        else if w.conn.lr.version ≥ version1_3_8 then
          if p.os = .macos && shouldHandleMsg clip then w.emit (.serverClipFile clip)
          else
            let (w, msgs) := w.serveClipMessages p env clip
            w.sendClipMessages msgs
        else w

def createAndStartReadJob (env : Env) (id : Int) (jobType : JobType) (w : World) : World :=
  match env.newRead with
  | .error err => w.send (.fileError id err 0)
  | .ok _ =>
      ((w.send (.fileDir id)).modify fun c => { c with readJobs := c.readJobs ++ [id] }).emit
        (.startReadJob id jobType)

/-- `need_fs_cm_send_files` -/
def needFsCmSendFiles (p : Platform) : Bool := p.os = .windows && p.isServer

/-- The job a one-way transfer refuses to start on the host's side. -/
def oneWayJobId : FileAction → Option Int
  | .send id _ _ _ _ => some id
  | .removeFile id _ _ => some id
  | .rename id _ _ => some id
  | .create id _ => some id
  | .removeDir id _ _ => some id
  | _ => none

def onSendFiles (p : Platform) (env : Env) (id : Int) (path : String) (includeHidden : Bool)
    (fileNum : Int) (jobType : JobType) (w : World) : World :=
  match jobType with
  | .generic =>
      let od := w.conn.lr.version ≥ version1_1_10
      let w := if needFsCmSendFiles p then
          (w.modify fun c => { c with cmReadJobIds := id :: c.cmReadJobIds.erase id }).sendFs
            (.readFile path id fileNum includeHidden od)
        else w.createAndStartReadJob env id .generic
      w.modify fun c => { c with fileTransferred := true }
  | .printer =>
      if path ∈ w.conn.printerData then
        let w := w.modify fun c => { c with printerData := c.printerData.erase path }
        (w.createAndStartReadJob env id .printer).modify fun c => { c with fileTransferred := true }
      else w

def onSendConfirm (r : SendConfirm) (w : World) : World :=
  if r.id ∈ w.conn.readJobs then w.emit (.confirmReadJob r)
  else if r.id ∈ w.conn.cmReadJobIds then
    let (skip, offset) := match r.union with
      | some (.skip s) => (s, 0)
      | some (.offsetBlk o) => (false, o)
      | none => (false, 0)
    w.sendFs (.sendConfirmForRead r.id r.fileNum skip offset)
  else w.sendFs (.sendConfirm r)

/-- The last match over `fa.union`. -/
def handleFileAction (p : Platform) (env : Env) (fa : FileAction) (w : World) : World :=
  match fa with
  | .readEmptyDirs path includeHidden => w.sendFs (.readEmptyDirs path includeHidden)
  | .readDir path includeHidden => w.readDir path includeHidden
  | .allFiles id path includeHidden =>
      if needFsCmSendFiles p then w.sendFs (.readAllFiles path id includeHidden)
      else match env.getRecursiveFiles with
        | .error err => w.send (.fileError id err (-1))
        | .ok _ => w.send (.fileDir id)
  | .send id path includeHidden fileNum jobType =>
      w.onSendFiles p env id path includeHidden fileNum jobType
  | .receive id path files fileNum totalSize =>
      let od := w.conn.lr.version ≥ version1_1_10
      (w.sendFs (.newWrite path id fileNum files od totalSize)).modify fun c =>
        { c with fileTransferred := true }
  | .removeDir id path recursive => w.sendFs (.removeDir path id recursive)
  | .removeFile id path fileNum => w.sendFs (.removeFile path id fileNum)
  | .create id path => (w.sendFs (.createDir path id)).sendToCm (.fileTransferLog "create_dir")
  | .cancel id =>
      let w := (w.sendFs (.cancelWrite id)).modify fun c =>
        { c with cmReadJobIds := c.cmReadJobIds.erase id }
      let w := w.sendFs (.cancelRead id)
      if id ∈ w.conn.readJobs then
        ((w.modify fun c => { c with readJobs := c.readJobs.erase id }).emit
          (.cancelReadJob id)).sendToCm (.fileTransferLog "transfer")
      else w
  | .sendConfirm r => w.onSendConfirm r
  | .rename id path newName =>
      (w.sendFs (.rename id path newName)).sendToCm (.fileTransferLog "rename")

def isPrinterSend : Option FileAction → Bool
  | some (.send _ _ _ _ .printer) => true
  | _ => false

def onFileAction (p : Platform) (env : Env) (fa : Option FileAction) (w : World) : World :=
  if !(w.conn.fileTransfer.isSome || isPrinterSend fa) then w
  else if w.conn.delayedReadDir.isSome then
    match fa with
    | some (.readDir path includeHidden) =>
        w.modify fun c => { c with delayedReadDir := some (path, includeHidden) }
    | _ => w
  else
    match fa with
    | none => w
    | some fa =>
        match if p.oneWayFileTransfer then oneWayJobId fa else none with
        | some jobId => w.send (.fileError jobId "one-way-file-transfer-tip" 0)
        | none => w.handleFileAction p env fa

def onFileResponse (fr : FileResponse) (w : World) : World :=
  match fr with
  | .block id fileNum data compressed => w.sendFs (.writeBlock id fileNum data compressed)
  | .done id fileNum => w.sendFs (.writeDone id fileNum)
  | .digest id fileNum fileSize lastModified isResume =>
      w.sendFs (.checkDigest id fileNum fileSize lastModified true isResume)
  | .error id fileNum err => w.sendFs (.writeError id fileNum err)
  | .other => w

def toggleVirtualDisplay (env : Env) (display : Int) (on : Bool) (w : World) : World :=
  let w := w.emit (.virtualDisplay display on)
  if env.virtualDisplayErr = "" then
    if on then w.emitAll (env.pluggedInDisplays.map (.resetResolution · (1920, 1080))) else w
  else w.send (.messageBox "Virtual display" env.virtualDisplayErr)

def handleElevationRequest (env : Env) (w : World) : World :=
  let w :=
    if !w.conn.keyboard then w.send (.elevationResponse "No permission")
    else if !env.isInstalled && !env.portableRunning then
      (w.emit .startPortableService).send (.elevationResponse env.portableStartErr)
    else w.send (.elevationResponse "No need to elevate")
  w.updateAutoDisconnectTimer env

def onSelectedSid (p : Platform) (env : Env) (w : World) : World × Bool :=
  match env.currentProcessSessionId with
  | none => (w, true)
  | some _ =>
      if env.selectedSidSwitches then (w, false)
      else if w.conn.fileTransfer.isSome then
        match w.conn.delayedReadDir with
        | some (dir, showHidden) =>
            ((w.modify fun c => { c with delayedReadDir := none }).readDir dir showHidden, true)
        | none => (w, true)
      else if w.conn.viewCamera then (w.trySubCameraDisplays p env, true)
      else if !w.conn.terminal then (w.trySubMonitorServices p env, true)
      else (w, true)

def onMisc (p : Platform) (env : Env) (m : Misc) (w : World) : World × Bool :=
  match m with
  | .switchDisplay s => (w.handleSwitchDisplay p env s, true)
  | .captureDisplays add sub set => (w.captureDisplays add sub set, true)
  | .toggleVirtualDisplay display on =>
      (if p.os = .windows then w.toggleVirtualDisplay env display on else w, true)
  | .togglePrivacyMode implKey on => (w.togglePrivacyMode env implKey on, true)
  | .chatMessage text =>
      (((w.sendToCm (.chatMessage text)).modify fun c =>
        { c with chatUnanswered := true }).updateAutoDisconnectTimer env, true)
  | .option o => (w.updateOptions p env o, true)
  | .refreshVideo refresh =>
      ((if refresh then w.refreshVideoDisplay none else w).updateAutoDisconnectTimer env, true)
  | .refreshVideoDisplay display =>
      ((w.refreshVideoDisplay (some display)).updateAutoDisconnectTimer env, true)
  | .videoReceived => (w.emit .videoQos, true)
  | .restartRemoteDevice => (if p.isDesktop && w.conn.restart then w.emit .reboot else w, true)
  | .elevationRequest => (if p.os = .windows then w.handleElevationRequest env else w, true)
  | .audioFormat =>
      (if !w.conn.disableAudio then
          (w.modify fun c => { c with audioSender := true }).emit .audio
        else w, true)
  | .switchSidesRequest uuid =>
      if p.flutter && uuid.length = 16 then
        ((w.emit (.runSwitchSides w.conn.lr.myId)).onClose p false, false)
      else (w, true)
  | .changeResolution r => (if p.isDesktop then w.changeResolution env none r else w, true)
  | .changeDisplayResolution display r =>
      (if p.isDesktop then w.changeResolution env (some display) r else w, true)
  | .autoAdjustFps _ => (w.emit .videoQos, true)
  | .clientRecordStatus _ => (w.emit .videoQos, true)
  | .selectedSid _ => if p.os = .windows then w.onSelectedSid p env else (w, true)
  | .messageQuery switchDisplay => (w.sendDisplayChanged env switchDisplay, true)
  | .closeReason _ | .other => (w, true)

def onVoiceCallRequest (env : Env) (reqTimestamp : Int) (isConnect : Bool) (w : World) : World :=
  if isConnect then
    let timestamp := if reqTimestamp = 0 then env.time else reqTimestamp
    (w.modify fun c => { c with voiceCallRequestTimestamp := some timestamp }).sendToCm
      .voiceCallIncoming
  else w.closeVoiceCall

def onScreenshotRequest (display : Nat) (w : World) : World :=
  (w.emit (.takeScreenshot display)).refreshVideoDisplay (some display)

/-- `handle_terminal_action` gives up without a user token. -/
def handleTerminalAction (w : World) : World :=
  match w.conn.terminalUserToken with
  | none => w
  | some _ => (w.emit (.terminalAction w.conn.terminalServiceId)).send .terminalResponse

/-- The match over `msg.union` of an authorized connection. -/
def onAuthorizedMessage (p : Platform) (env : Env) (msg : Message) (w : World) : World × Bool :=
  match msg with
  | .mouseEvent me => (w.onMouseEvent p env me, true)
  | .pointerDeviceEvent => (w.onPointerDeviceEvent p env, true)
  | .keyEvent ke => (w.onKeyEvent p env ke, true)
  | .clipboard content => (w.onClipboard content, true)
  | .multiClipboards contents => (w.onMultiClipboards p contents, true)
  | .cliprdr clip => (w.onCliprdr p env clip, true)
  | .fileAction fa => (w.onFileAction p env fa, true)
  | .fileResponse fr => (w.onFileResponse fr, true)
  | .misc m => w.onMisc p env m
  | .audioFrame =>
      (if !w.conn.disableAudio && w.conn.audioSender then w.emit .audio else w, true)
  | .voiceCallRequest ts isConnect => (w.onVoiceCallRequest env ts isConnect, true)
  | .screenshotRequest display => (w.onScreenshotRequest display, true)
  | .terminalAction => (if p.isDesktop then w.handleTerminalAction else w, true)
  | _ => (w, true)

/-- `Connection::on_message`; the result says whether to keep the connection. -/
def onMessage (p : Platform) (env : Env) (msg : Message) (w : World) : World × Bool :=
  match msg with
  | .misc (.closeReason _) => (w.onClose p true, false)
  | .loginRequest lr => w.handleLoginRequest p env lr
  | .auth2fa code hwid => w.handleAuth2fa p env code hwid
  | .testDelay fromClient => (w.handleTestDelay fromClient, true)
  | .switchSidesResponse uuid lr => w.handleSwitchSidesResponse p env uuid lr
  | msg =>
      if w.conn.authorized then
        if w.conn.portForwardSocket then (w, true) else w.onAuthorizedMessage p env msg
      else (w, true)

end World

end RemoteControl.Host
