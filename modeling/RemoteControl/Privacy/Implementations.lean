import RemoteControl.Privacy.Platform

/-! # The implementations of privacy mode

There is one for macOS, one that covers the screen with a window, and one that replaces the
displays by a virtual one. Each knows the connection that has turned it on, or 0.
-/

namespace RemoteControl.Privacy

def occupied : String := "Privacy occupied by another one."

def turnOffOtherId : String := "Failed to turn off privacy mode that belongs to someone else."

def noPhysicalDisplays : String := "no_need_privacy_mode_no_physical_displays_tip"

def implWinMag : String := "privacy_mode_impl_mag"

def implWinExcludeFromCapture : String := "privacy_mode_impl_exclude_from_capture"

def implWinVirtualDisplay : String := "privacy_mode_impl_virtual_display"

def implMacos : String := "privacy_mode_impl_macos"

def checkOnConnId (preConnId connId : Nat) : Except String Bool :=
  if preConnId = connId then .ok true
  else if preConnId ≠ 0 then .error occupied
  else .ok false

def checkOffConnId (preConnId connId : Nat) : Except String Unit :=
  if preConnId ≠ 0 ∧ connId ≠ 0 ∧ preConnId ≠ connId then .error turnOffOtherId else .ok ()

/-- What a call leaves behind, with its answer. -/
structure Done (ι α : Type) where
  mode : ι
  platform : Platform
  answer : Except String α

namespace MacOs

structure Impl where
  implKey : String
  connId : Nat := 0
  deriving DecidableEq

variable (m : Impl) (p : Platform) (connId : Nat) (o : Outcomes)

def clear : Impl × Platform := ({ m with connId := 0 }, (p.macSetPrivacyMode false o).1)

def turnOnPrivacy : Done Impl Bool :=
  match checkOnConnId m.connId connId with
  | .error e => ⟨m, p, .error e⟩
  | .ok true => ⟨m, p, .ok true⟩
  | .ok false =>
      let (p, success) := p.macSetPrivacyMode true o
      if success then ⟨{ m with connId }, p, .ok true⟩ else ⟨m, p,
        .error "Failed to turn on privacy mode"⟩

def turnOffPrivacy : Done Impl Unit :=
  match checkOffConnId m.connId connId with
  | .error e => ⟨m, p, .error e⟩
  | .ok _ =>
      let (p, success) := p.macSetPrivacyMode false o
      if success then ⟨{ m with connId := 0 }, p, .ok ()⟩ else ⟨m, p,
        .error "Failed to turn off privacy mode"⟩

def drop : Platform := (clear m p o).2

end MacOs

namespace TopmostWindow

structure Impl where
  implKey : String
  connId : Nat := 0
  /-- It has the handles of the process that shows the window. -/
  started : Bool := false
  deriving DecidableEq

variable (m : Impl) (p : Platform) (connId : Nat) (o : Outcomes)

/-- The process is started, unless there are handles or a window already. -/
def start : Tried (Impl × Platform) :=
  if m.started || p.window.isSome then ((m, p), .ok ())
  else
    match o.launch with
    | .error e => ((m, p), .error e)
    | .ok true => (({ m with started := true }, { p with window := some false }), .ok ())
    | .ok false => (({ m with started := true }, p), .error "Failed to get hwnd after started")

/-- The window is shown, when it is there and the hooks are. -/
def cover : Done Impl Bool :=
  if p.window.isNone then ⟨m, p, .error "No privacy window created"⟩
  else
    match p.hook o with
    | (p, .error e) => ⟨m, p, .error e⟩
    | (p, .ok _) => ⟨{ m with connId }, p.showWindow true, .ok true⟩

def turnOnPrivacy : Done Impl Bool :=
  match checkOnConnId m.connId connId with
  | .error e => ⟨m, p, .error e⟩
  | .ok true => ⟨m, p, .ok true⟩
  | .ok false =>
      match o.exeFile with
      | .error e => ⟨m, p, .error e⟩
      | .ok exeFile =>
          if !o.hasParent then ⟨m, p, .error ("Invalid exe parent for " ++ exeFile)⟩
          else if !o.dll then ⟨m, p, .ok false⟩
          else
            match start m p o with
            | ((m, p), .error e) => ⟨m, p, .error e⟩
            | ((m, p), .ok _) => cover m p connId o

def turnOffPrivacy (state : Option PrivacyModeState) : Done Impl Unit :=
  match checkOffConnId m.connId connId with
  | .error e => ⟨m, p, .error e⟩
  | .ok _ =>
      match p.unhook o with
      | (p, .error e) => ⟨m, p, .error e⟩
      | (p, .ok _) =>
        ⟨{ m with connId := 0 }, (p.showWindow false).tell m.connId connId state implWinMag, .ok ()⟩

def clear : Impl × Platform :=
  let done := turnOffPrivacy m p m.connId o none
  (done.mode, done.platform)

/-- The process ends with the handles, and its window with it. -/
def drop : Platform :=
  let p := if m.connId ≠ 0 then (turnOffPrivacy m p m.connId o none).platform else p
  if m.started && o.terminate then { p with window := none } else p

end TopmostWindow

namespace VirtualDisplay

structure Impl where
  implKey : String
  connId : Nat := 0
  displays : List (Device × DevMode) := []
  virtualDisplays : List (Device × DevMode) := []
  virtualDisplaysAdded : List Nat := []
  deriving DecidableEq

variable (m : Impl) (p : Platform) (connId : Nat) (o : Outcomes)

def setDisplays : Impl := { m with displays := p.displays false, virtualDisplays := p.displays true }

def ensureVirtualDisplay : Tried (Impl × Platform) :=
  if m.virtualDisplays ≠ [] then ((m, p), .ok ())
  else
    match o.plugIn with
    | .error e => ((m, p), .error e)
    | .ok indices =>
        let p := p.plug o
        let m := setDisplays m p
        if m.displays = [] then
          match o.plugOut with
          | .error e => ((m, p), .error e)
          | .ok _ => ((m, p.unplug o), .error noPhysicalDisplays)
        else (({ m with virtualDisplaysAdded := m.virtualDisplaysAdded ++ indices }, p), .ok ())

/-- A call of the platform within `turn_on_privacy` -/
def onPlatform (call : Platform → Tried Platform) (s : Impl × Platform) : Tried (Impl × Platform) :=
  ((s.1, (call s.2).1), (call s.2).2)

/-- The explicit resolution of the virtual display, whether it works or not. -/
def changeResolution (p : Platform) (display : Device) (o : Outcomes) : Platform :=
  if o.changeResolution then
    { p with
      settings :=
        Function.update p.settings display { p.settings display with width := 1920, height := 1080 } }
  else p

/-- The displays are replaced, once there is a virtual one. -/
def replaceDisplays (o : Outcomes) (s : Impl × Platform) : Tried (Impl × Platform) :=
  match s.1.virtualDisplays with
  | [] => (s, .error "No virtual displays.")
  | (display, _) :: _ =>
      Tried.next (s, o.readReg) <|
        fun s => Tried.next (onPlatform (·.setPrimaryDisplay display o) s) <|
        fun s => Tried.next (onPlatform (·.disablePhysicalDisplays s.1.displays o) s) <|
        fun s => Tried.next (onPlatform (·.commitChangeDisplay o.commit) s) <|
        fun s => ((s.1, changeResolution s.2 display o), o.regRecovery)

/-- All virtual displays are plugged out, those that were added or, if there are none, all. -/
def restore : Impl × Platform :=
  let p := (p.restoreDisplays m.displays o).restoreDisplays m.virtualDisplays o
  let p := (p.commitChangeDisplay (if o.restoreCommit then .ok () else .error "")).1
  ({ m with displays := [], virtualDisplays := [], virtualDisplaysAdded := [] }, p.unplug o)

def turnOffPrivacy (state : Option PrivacyModeState) : Done Impl Unit :=
  match checkOffConnId m.connId connId with
  | .error e => ⟨m, p, .error e⟩
  | .ok _ =>
      match p.unhook o with
      | (p, .error e) => ⟨m, p, .error e⟩
      | (p, .ok _) =>
          let (m', p) := restore m p o
          ⟨{ m' with connId := 0 }, p.tell m.connId connId state implWinVirtualDisplay, .ok ()⟩

/-- When it does not succeed, `TurnOnGuard` turns it off again. -/
def turnOnPrivacy : Done Impl Bool :=
  if !o.iddSupported then ⟨m, p, .error "idd_not_support_under_win10_2004_tip"⟩
  else
    match checkOnConnId m.connId connId with
    | .error e => ⟨m, p, .error e⟩
    | .ok true => ⟨m, p, .ok true⟩
    | .ok false =>
        let m := setDisplays m p
        if m.displays = [] then ⟨m, p, .error noPhysicalDisplays⟩
        else
          match Tried.next (ensureVirtualDisplay m p o) (replaceDisplays o) with
          | ((m, p), .error e) =>
              let off := turnOffPrivacy m p 0 o none
              ⟨off.mode, off.platform, .error e⟩
          | ((m, p), .ok _) => ⟨{ m with connId }, (p.hook o).1, .ok true⟩

def clear : Impl × Platform :=
  let done := turnOffPrivacy m p m.connId o none
  (done.mode, done.platform)

def drop : Platform :=
  if m.connId ≠ 0 then (turnOffPrivacy m p m.connId o none).platform else p

end VirtualDisplay

end RemoteControl.Privacy
