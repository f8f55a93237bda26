import RemoteControl.Host.LoginFailures
import RemoteControl.Host.Messages
import RemoteControl.Host.Resolutions

/-! # The state of one connection

`Connection` of `server/connection.rs`, together with what its handlers share
with the rest of the process: the `Server`, the session, failure and
switch-sides tables, and the actions taken so far in the current step.

What a handler only reads is split in two. `Platform` is fixed for the life of
the process (target, build features, builtin settings, pure functions from
outside the repository). `Env` is what the operating system, the configuration
and the clock answer while one event is handled; every event brings its own.
-/

namespace RemoteControl.Host

open LoginFailures (IpAddr Failures)

inductive TargetOs where
  | windows | linux | macos | android | ios
  deriving DecidableEq

structure Platform where
  os : TargetOs
  /-- `feature = "flutter"` -/
  flutter : Bool
  /-- `feature = "unix-file-copy-paste"` -/
  unixFileCopyPaste : Bool
  isServer : Bool
  primaryDisplayIdx : Nat
  primaryCameraIdx : Nat
  /-- `get_builtin_option(OPTION_ONE_WAY_CLIPBOARD_REDIRECTION) == "Y"` -/
  oneWayClipboard : Bool
  /-- `get_builtin_option(OPTION_ONE_WAY_FILE_TRANSFER) == "Y"` -/
  oneWayFileTransfer : Bool
  /-- `get_builtin_option(OPTION_ALLOW_LOGON_SCREEN_PASSWORD) == "Y"` -/
  allowLogonScreenPassword : Bool
  sha256 : Bytes → Bytes
  isIpStr : String → Bool
  isDomainPortStr : String → Bool
  keycodeToRdevKey : Nat → RdevKey

namespace Platform

/-- `not(any(target_os = "android", target_os = "ios"))` -/
def isDesktop (p : Platform) : Bool := p.os ≠ .android ∧ p.os ≠ .ios

/-- `any(target_os = "windows", feature = "unix-file-copy-paste")` -/
def hasCliprdr (p : Platform) : Bool := p.os = .windows ∨ p.unixFileCopyPaste

end Platform

/-- A host on the given system with nothing built in, for concrete runs. -/
def Platform.plain (os : TargetOs) : Platform where
  os := os
  flutter := true
  unixFileCopyPaste := os = .linux
  isServer := true
  primaryDisplayIdx := 0
  primaryCameraIdx := 0
  oneWayClipboard := false
  oneWayFileTransfer := false
  allowLogonScreenPassword := false
  sha256 := fun bytes => bytes
  isIpStr := fun _ => false
  isDomainPortStr := fun _ => false
  keycodeToRdevKey := .other

def version1_1_10 : Int := 1001100
def version1_2_0 : Int := 1002000
def version1_2_4 : Int := 1002040
def version1_3_8 : Int := 1003080

structure TrustedDevice where
  hwid : Bytes
  time : Int
  id : String
  name : String
  platform : String

inductive ApproveMode where
  | both | password | click
  deriving DecidableEq

inductive TerminalUserToken where
  | selfUser
  | currentLogonUser (token : Nat)
  deriving DecidableEq

namespace TerminalUserToken

def isServiceToken : TerminalUserToken → Bool
  | .selfUser => false
  | .currentLogonUser _ => true

end TerminalUserToken

structure Env where
  /-- `get_time()`, in milliseconds. -/
  time : Int := 0
  /-- A monotonic clock in seconds, for session and uuid ages. -/
  instant : Nat := 0
  configId : String := ""
  accessMode : String := ""
  configOption : PermissionOption → String := fun _ => ""
  temporaryEnabled : Bool := true
  temporaryPassword : Bytes := []
  permanentEnabled : Bool := true
  permanentPassword : Bytes := []
  approveMode : ApproveMode := .both
  hasValidPassword : Bool := true
  isLogon : Bool := false
  /-- `totp.check_current(code)`; `none` is an error of the clock. -/
  totpCheck : String → Option Bool := fun _ => some false
  enableTrustedDevices : Bool := false
  trustedDevices : List TrustedDevice := []
  isInPrivacyMode : Bool := false
  isPrivacyModeSupported : Bool := true
  /-- The implementation whose privacy mode is on but no longer current. -/
  prePrivacyImplKey : Option String := none
  turnOnPrivacyRes : Option (Except String Bool) := some (.ok true)
  checkPrivacyModeErr : String := ""
  turnOffPrivacyRes : Option (Except String Unit) := some (.ok ())
  /-- `get_privacy_mode_conn_id()`: the connection that privacy mode is on for. -/
  privacyModeConnId : Option ConnId := none
  /-- `linux_headless_handle.try_start_desktop`, empty on success. -/
  desktopErr : String := ""
  isInstalled : Bool := true
  /-- `fill_terminal_user_token`: the token, or the message of a refusal. -/
  terminalToken : Except String TerminalUserToken := .ok .selfUser
  /-- `terminal_service::is_service_specified_user` -/
  serviceSpecifiedUser : String → Option Bool := fun _ => none
  generatedServiceId : String := "ts"
  /-- Whether `TcpStream::connect` to the forwarded address succeeds in time. -/
  portForwardConnects : Bool := true
  /-- The message of an unusable Linux display server, empty if there is none. -/
  displayServerErr : String := ""
  /-- The error of `update_get_sync_displays_on_login`, empty on success. -/
  displaysErr : String := ""
  waitSessionIdConfirm : Bool := false
  selectedSidSwitches : Bool := false
  currentProcessSessionId : Option Nat := none
  primaryCameraExists : Bool := false
  isDir : String → Bool := fun _ => false
  allowAutoDisconnect : Bool := false
  /-- The displays `try_get_displays` returns, by number. -/
  displayCount : Nat := 1
  /-- Whether `make_display_changed_msg` has something to say about a display. -/
  displayChangedMsg : Nat → Bool := fun _ => true
  /-- Why the peer's cursor cannot be shown here, empty if it can. -/
  showCursorErr : String := ""
  fileListPdu : Bytes := []
  /-- `read_file_contents`: audit records, contents and errors, in order. -/
  readFileContents : List (Option ClipboardFile) := []
  fuseOk : Bool := true
  /-- `ContextSend::is_enabled()` in the connection manager. -/
  clipContextEnabled : Bool := true
  formatDataParses : Bool := true
  /-- `TransferJob::new_read` followed by the file count check. -/
  newRead : Except String Unit := .ok ()
  getRecursiveFiles : Except String Unit := .ok ()
  portableRunning : Bool := false
  portableStartErr : String := ""
  virtualDisplayErr : String := ""
  /-- The displays that `try_reset_resolution_on_first_plug_in` resets. -/
  pluggedInDisplays : List String := []
  /-- `remote_count`, once this connection has left `AUTHED_CONNS`. -/
  remoteCount : Nat := 0
  /-- `CHANGED_RESOLUTIONS` -/
  changedResolutions : Resolutions.ChangedResolutions := ∅
  /-- Whether the input thread of the connection has local input blocked. -/
  blockInputMode : Bool := false

namespace Env

/-- The minute `check_failure` works with. -/
def minute (env : Env) : Int := env.time / 60000

end Env

structure SessionKey where
  peerId : String
  name : String
  sessionId : Nat
  deriving DecidableEq

structure Session where
  lastRecvTime : Nat
  randomPassword : Bytes
  tfa : Bool

/-- The process-wide tables a connection reads and writes. -/
structure Globals where
  /-- `SESSIONS` -/
  sessions : SessionKey → Option Session
  /-- `LOGIN_FAILURES` -/
  loginFailures : Fin 2 → Failures
  /-- `SWITCH_SIDES_UUID`: when the uuid was issued, and the uuid. -/
  switchSidesUuid : String → Option (Nat × Bytes)

/-- The fields the login decides on and the kind of the connection. -/
structure LoginState where
  ip : IpAddr
  salt : Bytes
  challenge : Bytes
  lr : LoginRequest
  optionsInLogin : Option OptionMessage
  /-- Whether a TOTP secret is still to be proved. -/
  require2fa : Bool
  fromSwitch : Bool
  authorized : Bool
  /-- The kind registered by `AuthedConnID::new`. -/
  authedConnId : Option AuthConnType
  controlPermissions : Option (BitVec 64)
  fileTransfer : Option (String × Bool)
  viewCamera : Bool
  terminal : Bool
  terminalServiceId : String
  terminalUserToken : Option TerminalUserToken
  portForwardSocket : Bool
  portForwardAddress : String
  videoAckRequired : Bool
  startCmIpcPara : Bool

/-- The permissions the host grants, switched by the connection manager. -/
structure Permissions where
  keyboard : Bool
  clipboard : Bool
  audio : Bool
  file : Bool
  restart : Bool
  recording : Bool
  blockInput : Bool

/-- The options the peer asks for. -/
structure PeerOptions where
  lockAfterSessionEnd : Bool
  showRemoteCursor : Bool
  followRemoteCursor : Bool
  followRemoteWindow : Bool
  disableKeyboard : Bool
  showMyCursor : Bool
  disableClipboard : Bool
  disableAudio : Bool
  enableFileTransfer : Bool
  terminalPersistent : Bool

structure Connection extends LoginState, Permissions, PeerOptions where
  id : ConnId
  displayIdx : Nat
  multiUiSession : Bool
  servicesSubed : Bool
  voiceCallRequestTimestamp : Option Int
  voiceCalling : Bool
  audioSender : Bool
  delayedReadDir : Option (String × Bool)
  readJobs : List Int
  cmReadJobIds : List Int
  printerData : List String
  pressedModifiers : List RdevKey
  chatUnanswered : Bool
  fileTransferred : Bool
  lastTestDelay : Bool
  autoDisconnectTimer : Option Int
  closed : Bool

/-- A connection, what it shares, and the actions of the current step, newest
    first. `running` is false once the event loop has been left. -/
structure World where
  conn : Connection
  server : Server
  globals : Globals
  running : Bool
  out : List Action

namespace World

def modify (w : World) (f : Connection → Connection) : World := { w with conn := f w.conn }

def modifyGlobals (w : World) (f : Globals → Globals) : World := { w with globals := f w.globals }

def emit (w : World) (a : Action) : World := { w with out := a :: w.out }

def emitAll (w : World) (acts : List Action) : World := { w with out := acts.reverse ++ w.out }

def send (w : World) (m : Outgoing) : World := w.emit (.send m)

def sendToCm (w : World) (d : CmRequest) : World := w.emit (.toCm d)

def sendFs (w : World) (cmd : FsCommand) : World := w.sendToCm (.fs cmd)

def sendLoginError (w : World) (err : String) : World := w.send (.loginError err)

def setServer (w : World) (server : Server) : World := { w with server := server }

def subscribe (w : World) (name : ServiceName) (sub : Bool) : World :=
  w.setServer (w.server.subscribe name w.conn.id sub)

variable (w : World) (a : Action) (f : Connection → Connection) (name : ServiceName) (sub : Bool)

@[simp] theorem modify_conn : (w.modify f).conn = f w.conn := rfl

@[simp] theorem modify_server : (w.modify f).server = w.server := rfl

@[simp] theorem modify_out : (w.modify f).out = w.out := rfl

@[simp] theorem modifyGlobals_out (f : Globals → Globals) : (w.modifyGlobals f).out = w.out := rfl

@[simp] theorem emit_conn : (w.emit a).conn = w.conn := rfl

@[simp] theorem emit_server : (w.emit a).server = w.server := rfl

@[simp] theorem emit_out : (w.emit a).out = a :: w.out := rfl

@[simp] theorem send_eq (m : Outgoing) : w.send m = w.emit (.send m) := rfl

@[simp] theorem sendToCm_eq (d : CmRequest) : w.sendToCm d = w.emit (.toCm d) := rfl

@[simp] theorem sendLoginError_eq (err : String) :
    w.sendLoginError err = w.emit (.send (.loginError err)) := rfl

@[simp] theorem setServer_conn (s : Server) : (w.setServer s).conn = w.conn := rfl

@[simp] theorem setServer_server (s : Server) : (w.setServer s).server = s := rfl

@[simp] theorem setServer_out (s : Server) : (w.setServer s).out = w.out := rfl

@[simp] theorem subscribe_conn : (w.subscribe name sub).conn = w.conn := rfl

@[simp] theorem subscribe_server :
    (w.subscribe name sub).server = w.server.subscribe name w.conn.id sub := rfl

@[simp] theorem subscribe_out : (w.subscribe name sub).out = w.out := rfl

end World

end RemoteControl.Host
