import RemoteControl.Host.Services

/-! # What a connection receives, sends and does

The messages of the peer and of the connection manager, and the actions a
connection takes because of them. Fields that no handler reads are left out;
byte strings are `Bytes`, protobuf enumerations that may hold an unknown value
are `Option`s, and a peer's version is the number `get_version_number` gives it,
the only way the connection looks at it.
-/

namespace RemoteControl.Host

abbrev Bytes := List UInt8

inductive BoolOption where
  | notSet
  | no
  | yes
  deriving DecidableEq

inductive ImageQuality where
  | notSet
  | low
  | balanced
  | best
  deriving DecidableEq

def ImageQuality.value : ImageQuality → Int
  | .notSet => 0
  | .low => 2
  | .balanced => 3
  | .best => 4

structure OptionMessage where
  imageQuality : Option ImageQuality := some .notSet
  lockAfterSessionEnd : Option BoolOption := some .notSet
  showRemoteCursor : Option BoolOption := some .notSet
  privacyMode : Option BoolOption := some .notSet
  blockInput : Option BoolOption := some .notSet
  customImageQuality : Int := 0
  disableAudio : Option BoolOption := some .notSet
  disableClipboard : Option BoolOption := some .notSet
  enableFileTransfer : Option BoolOption := some .notSet
  /-- Whether the message carries a `SupportedDecoding` for the encoder. -/
  supportedDecoding : Bool := false
  customFps : Int := 0
  disableKeyboard : Option BoolOption := some .notSet
  followRemoteCursor : Option BoolOption := some .notSet
  followRemoteWindow : Option BoolOption := some .notSet
  terminalPersistent : Option BoolOption := some .notSet
  showMyCursor : Option BoolOption := some .notSet
  deriving DecidableEq

structure PortForward where
  host : String
  port : Int
  deriving DecidableEq

/-- `login_request::Union`; a request without it is a remote-control login. -/
inductive LoginUnion where
  | fileTransfer (dir : String) (showHidden : Bool)
  | portForward (pf : PortForward)
  | viewCamera
  | terminal (serviceId : String)
  deriving DecidableEq

structure OSLogin where
  username : String := ""
  password : String := ""
  deriving DecidableEq

structure LoginRequest where
  username : String := ""
  password : Bytes := []
  myId : String := ""
  myName : String := ""
  option : Option OptionMessage := none
  union : Option LoginUnion := none
  videoAckRequired : Bool := false
  sessionId : Nat := 0
  version : Int := 0
  osLogin : Option OSLogin := none
  myPlatform : String := ""
  hwid : Bytes := []
  deriving DecidableEq

inductive AuthConnType where
  | remote
  | fileTransfer
  | portForward
  | viewCamera
  | terminal
  deriving DecidableEq

structure MouseEvent where
  mask : Int
  x : Int
  y : Int
  deriving DecidableEq

/-- The `rdev` keys the connection tells apart: the modifiers. -/
inductive RdevKey where
  | shiftLeft | shiftRight | controlLeft | controlRight | metaLeft | metaRight | alt | altGr
  | other (code : Nat)
  deriving DecidableEq

/-- `keyboard::is_modifier` -/
def RdevKey.isModifier : RdevKey → Bool
  | .other _ => false
  | _ => true

inductive ControlKey where
  | alt | shift | control | meta_ | rAlt | rShift | rControl | rWin
  | other (value : Nat)
  deriving DecidableEq

inductive KeyUnion where
  | controlKey (key : ControlKey)
  | chr (code : Nat)
  | unicode (code : Nat)
  | seq (text : String)
  | win2winHotkey (code : Nat)
  deriving DecidableEq

inductive KeyboardMode where
  | legacy | map | translate | auto
  deriving DecidableEq

structure KeyEvent where
  down : Bool
  press : Bool
  union : Option KeyUnion
  mode : Option KeyboardMode
  deriving DecidableEq

/-- `crate::is_modifier` -/
def KeyEvent.isModifier (evt : KeyEvent) : Bool :=
  match evt.union with
  | some (.controlKey (.other _)) => false
  | some (.controlKey _) => true
  | _ => false

structure Resolution where
  width : Int
  height : Int
  deriving DecidableEq

/-- `clipboard::ClipboardFile`, as carried by `Cliprdr` messages. -/
inductive ClipboardFile where
  | monitorReady
  | formatList (formats : List (Int × String))
  | formatListResponse (msgFlags : Int)
  | formatDataRequest (requestedFormatId : Int)
  | formatDataResponse (msgFlags : Int) (formatData : Bytes)
  | fileContentsRequest (streamId listIndex dwFlags nPositionLow nPositionHigh cbRequested : Int)
  | fileContentsResponse (msgFlags streamId : Int) (requestedData : Bytes)
  | files (names : List String)
  | tryEmpty
  deriving DecidableEq

namespace ClipboardFile

def isStoppingAllowed : ClipboardFile → Bool
  | .monitorReady | .formatList _ | .formatDataRequest _ => true
  | _ => false

def isBeginningMessage : ClipboardFile → Bool
  | .monitorReady | .formatList _ => true
  | _ => false

end ClipboardFile

inductive JobType where
  | generic
  | printer
  deriving DecidableEq

inductive ConfirmUnion where
  | skip (skip : Bool)
  | offsetBlk (offset : Nat)
  deriving DecidableEq

structure SendConfirm where
  id : Int
  fileNum : Int
  union : Option ConfirmUnion
  deriving DecidableEq

inductive FileAction where
  | readDir (path : String) (includeHidden : Bool)
  | readEmptyDirs (path : String) (includeHidden : Bool)
  | send (id : Int) (path : String) (includeHidden : Bool) (fileNum : Int) (fileType : JobType)
  | receive (id : Int) (path : String) (files : List (String × Nat)) (fileNum : Int)
      (totalSize : Nat)
  | create (id : Int) (path : String)
  | removeDir (id : Int) (path : String) (recursive : Bool)
  | removeFile (id : Int) (path : String) (fileNum : Int)
  | allFiles (id : Int) (path : String) (includeHidden : Bool)
  | cancel (id : Int)
  | sendConfirm (r : SendConfirm)
  | rename (id : Int) (path newName : String)
  deriving DecidableEq

inductive FileResponse where
  | block (id fileNum : Int) (data : Bytes) (compressed : Bool)
  | done (id fileNum : Int)
  | digest (id fileNum : Int) (fileSize lastModified : Nat) (isResume : Bool)
  | error (id fileNum : Int) (err : String)
  | other
  deriving DecidableEq

/-- `ipc::FS`, the file commands a connection hands to the connection manager. -/
inductive FsCommand where
  | readEmptyDirs (dir : String) (includeHidden : Bool)
  | readDir (dir : String) (includeHidden : Bool)
  | removeDir (path : String) (id : Int) (recursive : Bool)
  | removeFile (path : String) (id fileNum : Int)
  | createDir (path : String) (id : Int)
  | newWrite (path : String) (id fileNum : Int) (files : List (String × Nat))
      (overwriteDetection : Bool) (totalSize : Nat)
  | cancelWrite (id : Int)
  | writeBlock (id fileNum : Int) (data : Bytes) (compressed : Bool)
  | writeDone (id fileNum : Int)
  | writeError (id fileNum : Int) (err : String)
  | checkDigest (id fileNum : Int) (fileSize lastModified : Nat) (isUpload isResume : Bool)
  | sendConfirm (r : SendConfirm)
  | rename (id : Int) (path newName : String)
  | readFile (path : String) (id fileNum : Int) (includeHidden overwriteDetection : Bool)
  | cancelRead (id : Int)
  | sendConfirmForRead (id fileNum : Int) (skip : Bool) (offsetBlk : Nat)
  | readAllFiles (path : String) (id : Int) (includeHidden : Bool)
  deriving DecidableEq

structure SwitchDisplay where
  display : Nat
  width : Int
  height : Int
  deriving DecidableEq

inductive Misc where
  | closeReason (reason : String)
  | switchDisplay (s : SwitchDisplay)
  | captureDisplays (add sub set : List Nat)
  | toggleVirtualDisplay (display : Int) (on : Bool)
  | togglePrivacyMode (implKey : String) (on : Bool)
  | chatMessage (text : String)
  | option (o : OptionMessage)
  | refreshVideo (refresh : Bool)
  | refreshVideoDisplay (display : Nat)
  | videoReceived
  | restartRemoteDevice
  | elevationRequest
  | audioFormat
  | switchSidesRequest (uuid : Bytes)
  | changeResolution (r : Resolution)
  | changeDisplayResolution (display : Nat) (r : Resolution)
  | autoAdjustFps (fps : Nat)
  | clientRecordStatus (status : Bool)
  | selectedSid (sid : Nat)
  | messageQuery (switchDisplay : Nat)
  | other
  deriving DecidableEq

inductive Message where
  | loginRequest (lr : LoginRequest)
  | auth2fa (code : String) (hwid : Bytes)
  | testDelay (fromClient : Bool)
  | switchSidesResponse (uuid : Bytes) (lr : Option LoginRequest)
  | misc (m : Misc)
  | mouseEvent (me : MouseEvent)
  | pointerDeviceEvent
  | keyEvent (ke : KeyEvent)
  | clipboard (content : Bytes)
  | multiClipboards (contents : List Bytes)
  | cliprdr (clip : Option ClipboardFile)
  | fileAction (fa : Option FileAction)
  | fileResponse (fr : FileResponse)
  | audioFrame
  | voiceCallRequest (reqTimestamp : Int) (isConnect : Bool)
  | voiceCallResponse
  | screenshotRequest (display : Nat)
  | terminalAction
  | other
  deriving DecidableEq

inductive PrivacyModeState where
  | offSucceeded | offByPeer | offUnknown
  deriving DecidableEq

/-- `ipc::Data` as received by the event loop. -/
inductive CmData where
  | authorize
  | close
  | cmErr (e : String)
  | chatMessage (text : String)
  | switchPermission (name : String) (enabled : Bool)
  | rawMessage
  | clipboardFile (clip : ClipboardFile)
  | privacyModeState (state : PrivacyModeState)
  | requestStartPortableService
  | switchSidesBack
  | voiceCallResponse (accepted : Bool)
  | closeVoiceCall
  | readJobInitResult (id : Int) (result : Except String (List String))
  | fileBlockFromCM (id fileNum : Int) (data : Bytes) (compressed : Bool)
  | fileReadDone (id fileNum : Int)
  | fileReadError (id fileNum : Int) (err : String)
  | fileDigestFromCM (id fileNum : Int) (lastModified fileSize : Nat) (isResume : Bool)
  | allFilesResult (id : Int) (result : Except String (List String))
  | other

/-- `ipc::Data` as sent by a connection. -/
inductive CmRequest where
  | login (peerId name : String) (authorized : Bool)
  | fs (cmd : FsCommand)
  | chatMessage (text : String)
  | clipboardFile (clip : ClipboardFile)
  | clipboardFileEnabled (enabled : Bool)
  | voiceCallIncoming
  | startVoiceCall
  | closeVoiceCall
  | fileTransferLog (action : String)
  | close
  | disconnected
  deriving DecidableEq

inductive PermissionKind where
  | keyboard | clipboard | audio | file | restart | recording | blockInput
  deriving DecidableEq

/-- What goes out on the stream to the peer. -/
inductive Outgoing where
  | loginError (err : String)
  | loginResponse (connType : AuthConnType)
  | permissionInfo (permission : PermissionKind) (enabled : Bool)
  | testDelay
  | chatMessage (text : String)
  | closeReason (reason : String)
  | raw
  | switchBack
  | privacyMode (state details : String)
  | blockInputState (state details : String)
  | voiceCallRequest (isConnect : Bool)
  | voiceCallResponse (reqTimestamp : Int) (accepted : Bool)
  | messageBox (title text : String)
  | displayChanged (display : Nat)
  | elevationResponse (err : String)
  | cliprdr (clip : ClipboardFile)
  | fileDir (id : Int)
  | fileBlock (id fileNum : Int) (data : Bytes) (compressed : Bool)
  | fileDone (id fileNum : Int)
  | fileDigest (id fileNum : Int) (lastModified fileSize : Nat) (isResume : Bool)
  | fileError (id : Int) (err : String) (fileNum : Int)
  | terminalResponse
  deriving DecidableEq

/-- The `enable-*` options `Connection::permission` is asked about. -/
inductive PermissionOption where
  | keyboard | remotePrinter | clipboard | fileTransfer | audio | camera | terminal | tunnel
  | remoteRestart | recordSession | blockInput
  deriving DecidableEq

/-- What one handler does besides changing the connection. The first group
    records the outcome of the checks a login goes through; the last one is what
    the host machine sees. -/
inductive Action where
  | validatedPassword
  | recentSession (tfa : Bool)
  | validatedTotp
  | trustedDevice
  | switchSidesMatched
  | permitted (option : PermissionOption)
  | send (m : Outgoing)
  | toCm (d : CmRequest)
  | startCmIpc
  | inputMouse (me : MouseEvent) (simulate showCursor : Bool)
  | inputPointer
  | inputKey (ke : KeyEvent) (press : Bool)
  /-- `rdev::simulate` of `release_pressed_modifiers` -/
  | releaseModifier (key : RdevKey)
  | mainServiceInput
  | blockOn
  | blockOff
  | lockScreen
  | changeResolution (display : Nat) (r : Resolution)
  /-- `platform::change_resolution` that no message asks for by display and size. -/
  | resetResolution (name : String) (size : Int × Int)
  | turnOnPrivacy (implKey : String)
  | turnOffPrivacy
  | reboot
  | updateClipboard (contents : List Bytes)
  | updateClipboardFiles (formatData : Bytes)
  | serverClipFile (clip : ClipboardFile)
  | emptyClipboardFiles
  | fuseFileContents (clip : ClipboardFile)
  | takeScreenshot (display : Nat)
  | refreshVideo (display : Option Nat)
  | virtualDisplay (display : Int) (on : Bool)
  | startReadJob (id : Int) (jobType : JobType)
  | confirmReadJob (r : SendConfirm)
  | cancelReadJob (id : Int)
  | terminalAction (serviceId : String)
  | terminalPersistence (serviceId : String) (persistent : Bool)
  | startTerminalService (serviceId : String)
  | audio
  | videoQos
  | encoderUpdate
  | whiteboard (register : Bool)
  | startPortableService
  | runSwitchSides (peerId : String)
  | addTrustedDevice (hwid : Bytes)
  deriving DecidableEq

end RemoteControl.Host
