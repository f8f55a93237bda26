import RemoteControl.Host.OnMessage

/-! # The event loop of a connection

`Connection::start` waits for the first of several sources: the stream of the
peer, the connection manager, the file clipboard, timers, the web console. An
`Event` is one such wake-up together with what the outside world answers while
it is handled; `step` handles it. The rest of the process runs between two
events and may rewrite the shared tables, add services and move the
subscriptions of other connections.
-/

namespace RemoteControl.Host

open Runs

inductive Event where
  /-- A message of the peer. -/
  | peer (env : Env) (msg : Message)
  /-- A message of the connection manager. -/
  | cm (env : Env) (data : CmData)
  /-- `rx_clip`: something for the peer from the host's file clipboard. -/
  | fileClip (clip : ClipboardFile)
  /-- `rx_from_authed`: a print job arrived under the given path. -/
  | printerData (env : Env) (path : String)
  | testDelayTimer
  /-- A timeout, a stream error or the web console ends the connection. -/
  | disconnect (env : Env) (lock : Bool)
  /-- Other tasks rewrite the process-wide tables. -/
  | othersTables (g : Globals)
  /-- Another connection makes sure that a service exists. -/
  | othersService (name : ServiceName)
  /-- Another connection changes its own subscription. -/
  | othersSubscribe (id : ConnId) (name : ServiceName) (sub : Bool)

namespace World

def switchKeyboard (p : Platform) (enabled : Bool) (w : World) : World :=
  let w := (w.modify fun c => { c with keyboard := enabled }).sendPermission .keyboard enabled
  let w := w.subscribe .clipboard (w.conn.canSubClipboardService p)
  let w := if p.unixFileCopyPaste then
      w.subscribe .fileClipboard (w.conn.canSubFileClipboardService p)
    else w
  w.subscribe .cursor (enabled || w.conn.showRemoteCursor)

def switchClipboard (p : Platform) (enabled : Bool) (w : World) : World :=
  let w := (w.modify fun c => { c with clipboard := enabled }).sendPermission .clipboard enabled
  w.subscribe .clipboard (w.conn.canSubClipboardService p)

/-- The only permission whose services wait for the connection to be authorized. -/
def switchAudio (enabled : Bool) (w : World) : World :=
  let w := (w.modify fun c => { c with audio := enabled }).sendPermission .audio enabled
  if w.conn.authorized then w.subscribeAudio else w

def switchFile (p : Platform) (enabled : Bool) (w : World) : World :=
  let w := (w.modify fun c => { c with file := enabled }).sendPermission .file enabled
  if p.unixFileCopyPaste then
    let w := if !enabled then w.tryEmptyFileClipboard else w
    w.subscribe .fileClipboard (w.conn.canSubFileClipboardService p)
  else w

def switchPermission (p : Platform) (name : String) (enabled : Bool) (w : World) : World :=
  if name = "keyboard" then w.switchKeyboard p enabled
  else if name = "clipboard" then w.switchClipboard p enabled
  else if name = "audio" then w.switchAudio enabled
  else if name = "file" then w.switchFile p enabled
  else if name = "restart" then
    (w.modify fun c => { c with restart := enabled }).sendPermission .restart enabled
  else if name = "recording" then
    (w.modify fun c => { c with recording := enabled }).sendPermission .recording enabled
  else if name = "block_input" then
    (w.modify fun c => { c with blockInput := enabled }).sendPermission .blockInput enabled
  else w

def handleReadJobInitResult (id : Int) (result : Except String (List String)) (w : World) : World :=
  if id ∈ w.conn.cmReadJobIds then
    match result with
    | .error err =>
        (w.modify fun c => { c with cmReadJobIds := c.cmReadJobIds.erase id }).send
          (.fileError id err 0)
    | .ok _ => (w.send (.fileDir id)).modify fun c => { c with fileTransferred := true }
  else w

def handleFileReadDone (id fileNum : Int) (w : World) : World :=
  if id ∈ w.conn.cmReadJobIds then
    (w.modify fun c => { c with cmReadJobIds := c.cmReadJobIds.erase id }).send
      (.fileDone id fileNum)
  else w

def handleFileReadError (id fileNum : Int) (err : String) (w : World) : World :=
  if id ∈ w.conn.cmReadJobIds then
    (w.modify fun c => { c with cmReadJobIds := c.cmReadJobIds.erase id }).send
      (.fileError id err fileNum)
  else w

def handleAllFilesResult (id : Int) (result : Except String (List String)) (w : World) : World :=
  match result with
  | .error err => w.send (.fileError id err (-1))
  | .ok _ => w.send (.fileDir id)

def stop (w : World) : World := { w with running := false }

def keepAlive (res : World × Bool) : World := if res.2 then res.1 else res.1.stop

/-- `ipc::Data::Authorize`: the user at the host accepted the connection. -/
def onAuthorize (p : Platform) (env : Env) (w : World) : World :=
  let w := w.modify fun c => { c with require2fa := false }
  match w.sendLogonResponseAndKeepAlive p env with
  | (w, false) => w.stop
  | (w, true) => if w.conn.portForwardSocket then w.stop else w

def sendCloseReasonNoRetry (w : World) : World :=
  w.send (.closeReason "Closed manually by the peer")

def onPrivacyModeState (state : PrivacyModeState) (w : World) : World :=
  match state with
  | .offSucceeded => w.send (.privacyMode "PrvOffSucceeded" "")
  | .offByPeer => w.send (.privacyMode "PrvOffByPeer" "")
  | .offUnknown => w.send (.privacyMode "PrvOffUnknown" "")

def onCmClipboardFile (p : Platform) (clip : ClipboardFile) (w : World) : World :=
  if p.os = .windows && w.conn.isRemote then
    match clip with
    | .files _ => w
    | clip => w.send (.cliprdr clip)
  else w

def onCmData (p : Platform) (env : Env) (data : CmData) (w : World) : World :=
  match data with
  | .authorize => w.onAuthorize p env
  | .close =>
      let w := w.modify fun c => { c with chatUnanswered := false, fileTransferred := false }
      (w.sendCloseReasonNoRetry.onClose p true).stop
  | .cmErr e => if e ≠ "expected" then (w.onClose p false).stop else w
  | .chatMessage text =>
      (w.send (.chatMessage text)).modify fun c => { c with chatUnanswered := false }
  | .switchPermission name enabled => w.switchPermission p name enabled
  | .rawMessage => w.send .raw
  | .clipboardFile clip => w.onCmClipboardFile p clip
  | .privacyModeState state => w.onPrivacyModeState state
  | .requestStartPortableService =>
      if p.os = .windows then w.emit .startPortableService else w
  | .switchSidesBack => w.send .switchBack
  | .voiceCallResponse accepted => w.handleVoiceCall accepted
  | .closeVoiceCall => w.closeVoiceCall.send (.voiceCallRequest false)
  | .readJobInitResult id result => w.handleReadJobInitResult id result
  | .fileBlockFromCM id fileNum blk compressed =>
      if id ∈ w.conn.cmReadJobIds then w.send (.fileBlock id fileNum blk compressed) else w
  | .fileReadDone id fileNum => w.handleFileReadDone id fileNum
  | .fileReadError id fileNum err => w.handleFileReadError id fileNum err
  | .fileDigestFromCM id fileNum lastModified fileSize isResume =>
      if id ∈ w.conn.cmReadJobIds then
        w.send (.fileDigest id fileNum lastModified fileSize isResume)
      else w
  | .allFilesResult id result => w.handleAllFilesResult id result
  | .other => w

/-- A port-forwarding connection leaves the loop as soon as no `TestDelay` reply
    can still be under way. -/
def afterMessage (res : World × Bool) : World :=
  if res.2 && res.1.conn.portForwardSocket && res.1.conn.authorized &&
      !res.1.conn.lastTestDelay then res.1.stop
  else keepAlive res

@[simp] theorem afterMessage_conn (res : World × Bool) : (afterMessage res).conn = res.1.conn := by
  unfold afterMessage keepAlive
  split_ifs <;> rfl

@[simp] theorem afterMessage_server (res : World × Bool) :
    (afterMessage res).server = res.1.server := by
  unfold afterMessage keepAlive
  split_ifs <;> rfl

@[simp] theorem afterMessage_out (res : World × Bool) : (afterMessage res).out = res.1.out := by
  unfold afterMessage keepAlive
  split_ifs <;> rfl

theorem afterMessage_running (res : World × Bool) (socket : res.1.conn.portForwardSocket = false) :
    (afterMessage res).running = (res.1.running && res.2) := by
  unfold afterMessage keepAlive
  rw [socket]
  cases goesOn : res.2 <;> simp [stop]

def handleFileClip (p : Platform) (clip : ClipboardFile) (w : World) : World :=
  if p.unixFileCopyPaste && w.conn.lr.version ≥ version1_3_8 then
    if clip.isStoppingAllowed && !w.conn.fileTransferEnabled then w
    else if clip.isBeginningMessage && p.oneWayFileTransfer then w
    else w.send (.cliprdr clip)
  else w

def onPrinterData (p : Platform) (env : Env) (path : String) (w : World) : World :=
  if p.os = .windows && p.flutter then
    if permission p env .remotePrinter w.conn.controlPermissions then
      w.modify fun c => { c with printerData := c.printerData ++ [path] }
    else w.send (.messageBox "remote-printing-disallowed-tile-tip"
      "remote-printing-disallowed-text-tip")
  else w

def onTestDelayTimer (w : World) : World :=
  if !w.conn.lastTestDelay && !(w.conn.portForwardSocket && w.conn.authorized) then
    (w.modify fun c => { c with lastTestDelay := true }).send .testDelay
  else w

def handleEvent (p : Platform) (w : World) : Event → World
  | .peer env msg => afterMessage (w.onMessage p env msg)
  | .cm env data => w.onCmData p env data
  | .fileClip clip => w.handleFileClip p clip
  | .printerData env path => w.onPrinterData p env path
  | .testDelayTimer => w.onTestDelayTimer
  | .disconnect _ lock => (w.onClose p lock).stop
  | .othersTables g => { w with globals := g }
  | .othersService name => w.setServer (w.server.tryAddService name)
  | .othersSubscribe id name sub =>
      if id = w.conn.id then w else w.setServer (w.server.subscribe name id sub)

/-- A connection that forwards a port relays until one end fails; there is no other
    way out of that loop. -/
def tryPortForwardLoop (p : Platform) (w : World) : World :=
  if w.conn.portForwardSocket then
    (w.modify fun c => { c with portForwardSocket := false }).onClose p false
  else w

/-- With the last remote connection the displays go back to their resolutions, and
    the virtual ones and with them privacy mode go on Windows. -/
def restoreDisplays (p : Platform) (env : Env) : List Action :=
  (if p.isDesktop then (Resolutions.restorePass env.changedResolutions).map fun d =>
      .resetResolution d.1 d.2
    else []) ++
  (if p.os = .windows ∧ env.privacyModeConnId.any (· ≠ 0) then [.turnOffPrivacy] else []) ++
  (if p.os = .windows then [.virtualDisplay (-1) false] else [])

/-- The drop of an `AuthedConnID`. -/
def dropAuthedConnId (p : Platform) (env : Env) (kind : AuthConnType) : List Action :=
  (if kind = .remote ∨ kind = .viewCamera then [.encoderUpdate, .videoQos] else []) ++
  (if env.remoteCount = 0 then restoreDisplays p env else []) ++
  (if p.isDesktop then [.whiteboard false] else [])

/-- The drop of a connection. Its input thread, which has nobody left to hear from,
    blocks local input once more if it has it blocked. -/
def dropConnection (p : Platform) (env : Env) (c : Connection) : List Action :=
  (if p.isDesktop then c.pressedModifiers.map .releaseModifier else []) ++
  c.authedConnId.elim [] (dropAuthedConnId p env) ++
  (if p.isDesktop ∧ env.blockInputMode then [.blockOn] else [])

/-- The code of `Connection::start` behind its loop and the drop of the connection.
    Privacy mode is left by whoever is in it. -/
def finish (p : Platform) (env : Env) (w : World) : World :=
  let w := if p.unixFileCopyPaste then w.tryEmptyFileClipboard else w
  let w := if env.privacyModeConnId = some w.conn.id then (turnOffPrivacyToMsg env w).1 else w
  let w := w.tryPortForwardLoop p
  let w := w.setServer (w.server.removeConnection w.conn.id)
  let w := w.onClose p true
  w.emitAll (dropConnection p env w.conn)

end World

/-- The connection `Connection::start` begins with, once `on_open` let the
    address in. -/
def Connection.start (p : Platform) (env : Env) (id : ConnId) (ip : LoginFailures.IpAddr)
    (salt challenge : Bytes) (controlPermissions : Option (BitVec 64)) (require2fa : Bool) :
    Connection where
  id := id
  ip := ip
  salt := salt
  challenge := challenge
  lr := {}
  optionsInLogin := none
  require2fa := require2fa
  fromSwitch := false
  authorized := false
  authedConnId := none
  controlPermissions := if p.os = .android then none else controlPermissions
  fileTransfer := none
  viewCamera := false
  terminal := false
  terminalServiceId := ""
  terminalUserToken := none
  portForwardSocket := false
  portForwardAddress := ""
  videoAckRequired := false
  startCmIpcPara := p.isDesktop
  keyboard := permission p env .keyboard (if p.os = .android then none else controlPermissions)
  clipboard := permission p env .clipboard (if p.os = .android then none else controlPermissions)
  audio := permission p env .audio (if p.os = .android then none else controlPermissions)
  file := permission p env .fileTransfer (if p.os = .android then none else controlPermissions)
  restart := permission p env .remoteRestart (if p.os = .android then none else controlPermissions)
  recording := permission p env .recordSession
    (if p.os = .android then none else controlPermissions)
  blockInput := permission p env .blockInput (if p.os = .android then none else controlPermissions)
  lockAfterSessionEnd := false
  showRemoteCursor := false
  followRemoteCursor := false
  followRemoteWindow := false
  disableKeyboard := false
  showMyCursor := false
  disableClipboard := false
  disableAudio := false
  enableFileTransfer := false
  terminalPersistent := false
  displayIdx := p.primaryDisplayIdx
  multiUiSession := false
  servicesSubed := false
  voiceCallRequestTimestamp := none
  voiceCalling := false
  audioSender := false
  delayedReadDir := none
  readJobs := []
  cmReadJobIds := []
  printerData := []
  pressedModifiers := []
  chatUnanswered := false
  fileTransferred := false
  lastTestDelay := false
  autoDisconnectTimer := none
  closed := false

/-- A world at the top of the event loop of a new connection. The process around
    it is arbitrary. -/
structure World.Started (p : Platform) (w : World) : Prop where
  conn : ∃ env id ip salt challenge controlPermissions require2fa,
    w.conn = Connection.start p env id ip salt challenge controlPermissions require2fa
  running : w.running = true
  out : w.out = []
  /-- `Server::get_new_id` never hands out an id twice. -/
  fresh : ∀ name, ¬ w.server.isSubed name w.conn.id

/-- A new connection on an idle host, for concrete runs. -/
def World.opening (p : Platform) (env : Env) (services : Finset ServiceName) (require2fa : Bool) :
    World where
  conn := Connection.start p env 1 (.v4 0) [] [] none require2fa
  server := ⟨services, fun _ => ∅⟩
  globals := ⟨fun _ => none, fun _ _ => none, fun _ => none⟩
  running := true
  out := []

theorem World.opening_started (p : Platform) (env : Env) (services : Finset ServiceName)
    (require2fa : Bool) : (World.opening p env services require2fa).Started p where
  conn := ⟨env, 1, .v4 0, [], [], none, require2fa, rfl⟩
  running := rfl
  out := rfl
  fresh := fun _ => Finset.notMem_empty _

/-- The world at the start of a step: no action was taken yet. -/
def World.awake (w : World) : World := { w with out := [] }

/-- One wake-up of the loop. The actions in the result are those of this step;
    once the loop is left nothing happens any more. -/
def step (p : Platform) (w : World) (e : Event) : World :=
  if w.running then w.awake.handleEvent p e else w.awake

/-- What the outside world answers while an event is handled. -/
def Event.env : Event → Env
  | .peer env _ | .cm env _ | .printerData env _ | .disconnect env _ => env
  | _ => {}

/-- One wake-up of the loop and, where it leaves the loop, the end of the connection. -/
def stepToEnd (p : Platform) (w : World) (e : Event) : World :=
  let after := step p w e
  if w.running && !after.running then after.finish p e.env else after

/-- A run that remembers every action taken so far. -/
structure Traced where
  world : World
  past : List Action

def Traced.step (p : Platform) (t : Traced) (e : Event) : Traced :=
  let w := Host.step p t.world e
  ⟨w, w.out ++ t.past⟩

end RemoteControl.Host
