import RemoteControl.Privacy.Implementations
import RemoteControl.Runs
import Mathlib.Data.PNat.Basic

/-! # Turning privacy mode on and off

There is one implementation at a time, behind a lock that is held for a whole call. While the
virtual display is the current one, a thread turns privacy mode on, and its caller waits 7.5 s
for it. Connections ask for it, and look at what has come of it.
-/

namespace RemoteControl.Privacy

inductive Impl where
  | macos (m : MacOs.Impl)
  | topmostWindow (m : TopmostWindow.Impl)
  | virtualDisplay (m : VirtualDisplay.Impl)

inductive Kind where
  | macos
  | topmostWindow
  | virtualDisplay
  deriving DecidableEq

namespace Impl

def new (implKey : String) : Kind → Impl
  | .macos => .macos { implKey }
  | .topmostWindow => .topmostWindow { implKey }
  | .virtualDisplay => .virtualDisplay { implKey }

def kind : Impl → Kind
  | .macos _ => .macos
  | .topmostWindow _ => .topmostWindow
  | .virtualDisplay _ => .virtualDisplay

/-- `pre_conn_id` -/
def connId : Impl → Nat
  | .macos m => m.connId
  | .topmostWindow m => m.connId
  | .virtualDisplay m => m.connId

def implKey : Impl → String
  | .macos m => m.implKey
  | .topmostWindow m => m.implKey
  | .virtualDisplay m => m.implKey

/-- The driver for virtual displays is the one that needs its time. -/
def isAsyncPrivacyMode (m : Impl) : Bool := m.kind = .virtualDisplay

def clear (m : Impl) (p : Platform) (o : Outcomes) : Impl × Platform :=
  match m with
  | .macos m => let (m, p) := MacOs.clear m p o; (.macos m, p)
  | .topmostWindow m => let (m, p) := TopmostWindow.clear m p o; (.topmostWindow m, p)
  | .virtualDisplay m => let (m, p) := VirtualDisplay.clear m p o; (.virtualDisplay m, p)

def drop (m : Impl) (p : Platform) (o : Outcomes) : Platform :=
  match m with
  | .macos m => MacOs.drop m p o
  | .topmostWindow m => TopmostWindow.drop m p o
  | .virtualDisplay m => VirtualDisplay.drop m p o

def turnOnPrivacy (m : Impl) (p : Platform) (connId : Nat) (o : Outcomes) : Done Impl Bool :=
  match m with
  | .macos m => let d := MacOs.turnOnPrivacy m p connId o; ⟨.macos d.mode, d.platform, d.answer⟩
  | .topmostWindow m =>
      let d := TopmostWindow.turnOnPrivacy m p connId o
      ⟨.topmostWindow d.mode, d.platform, d.answer⟩
  | .virtualDisplay m =>
      let d := VirtualDisplay.turnOnPrivacy m p connId o
      ⟨.virtualDisplay d.mode, d.platform, d.answer⟩

def turnOffPrivacy (m : Impl) (p : Platform) (connId : Nat) (state : Option PrivacyModeState)
    (o : Outcomes) :
    Done Impl Unit :=
  match m with
  | .macos m => let d := MacOs.turnOffPrivacy m p connId o; ⟨.macos d.mode, d.platform, d.answer⟩
  | .topmostWindow m =>
      let d := TopmostWindow.turnOffPrivacy m p connId o state
      ⟨.topmostWindow d.mode, d.platform, d.answer⟩
  | .virtualDisplay m =>
      let d := VirtualDisplay.turnOffPrivacy m p connId o state
      ⟨.virtualDisplay d.mode, d.platform, d.answer⟩

end Impl

/-- Where the program runs: `excluded` says that windows can be excluded from capture, `mag`
    that the magnifier is supported, `installed` that the program is installed. -/
inductive System where
  | windows (excluded mag installed : Bool)
  | macos
  | other
  deriving DecidableEq

namespace System

/-- `DEFAULT_PRIVACY_MODE_IMPL` -/
def defaultImpl : System → String
  | .windows excluded mag installed =>
      if excluded then implWinExcludeFromCapture
      else if mag then implWinMag
      else if installed then implWinVirtualDisplay
      else ""
  | .macos => implMacos
  | .other => ""

/-- `PRIVACY_MODE_CREATOR` -/
def creator (system : System) (implKey : String) : Option Kind :=
  match system with
  | .windows excluded _ _ =>
      if implKey = (if excluded then implWinExcludeFromCapture else implWinMag) then some .topmostWindow
      else if implKey = implWinVirtualDisplay then some .virtualDisplay
      else none
  | .macos => if implKey = implMacos then some .macos else none
  | .other => none

/-- `get_supported_privacy_mode_impl` -/
def supportedImpls (system : System) (o : Outcomes) : List String :=
  match system with
  | .windows excluded mag _ =>
      (if excluded then [implWinExcludeFromCapture] else if mag then [implWinMag] else []) ++
        if o.service then [implWinVirtualDisplay] else []
  | .macos => [implMacos]
  | .other => []

/-- `get_supported_impl` -/
def supportedImpl (system : System) (implKey : String) (o : Outcomes) : String :=
  if implKey ∈ system.supportedImpls o then implKey
  else if o.implKey ∈ system.supportedImpls o then o.implKey
  else system.defaultImpl

/-- `is_privacy_mode_supported` -/
def isPrivacyModeSupported (system : System) : Bool := system.defaultImpl ≠ ""

end System

/-- Nothing, without any implementation. -/
abbrev Answer := Option (Except String Bool)

/-- `back_notification::PrivacyModeState` -/
inductive NotifiedState where
  | prvNotSupported
  | prvOnSucceeded
  | prvOnFailedPlugin
  | prvOnFailed
  | prvOffSucceeded
  | prvOffFailed
  deriving DecidableEq

/-- `make_privacy_mode_msg_with_details` -/
structure PrivacyModeMsg where
  state : NotifiedState
  details : String := ""
  implKey : String
  deriving DecidableEq

/-- A call of `turn_on_privacy`. -/
structure Call where
  implKey : String
  connId : ℕ+
  /-- It comes from `Connection::turn_on_privacy`. -/
  request : Bool
  /-- What the lock was held for has come to this. -/
  done : Option Answer := none
  /-- What the caller has got. -/
  reply : Option Answer := none
  /-- The connection has looked at it. -/
  handled : Bool := false
  /-- Because of this error the connection is about to turn privacy mode off. -/
  turnsOff : Option String := none

structure State where
  system : System
  privacyMode : Option Impl
  platform : Platform
  calls : List Call := []
  sent : List (ℕ+ × PrivacyModeMsg) := []

inductive Event where
  /-- A call of `turn_on_privacy`, or a connection that makes one. -/
  | turnOn (implKey : String) (connId : ℕ+) (request : Bool) (o : Outcomes)
  /-- The thread of the `k`th call gets the lock. -/
  | run (k : Nat) (o : Outcomes)
  /-- The 7.5 s of the `k`th call are over. -/
  | expire (k : Nat)
  /-- The connection of the `k`th call looks at the reply. -/
  | handle (k : Nat) (o : Outcomes)
  /-- It has got an error and found privacy mode on. -/
  | turnOffAfterError (k : Nat) (o : Outcomes)
  | turnOff (connId : ℕ+) (state : Option PrivacyModeState) (o : Outcomes)
  /-- A connection turns privacy mode off. -/
  | requestOff (connId : ℕ+) (implKey : String) (o : Outcomes)
  | switch (implKey : String) (o : Outcomes)
  | clear (o : Outcomes)

namespace State

/-- The connection that privacy mode is on for, or 0. -/
def owner (s : State) : Nat := (s.privacyMode.map Impl.connId).getD 0

/-- `is_in_privacy_mode` -/
def isInPrivacyMode (s : State) : Bool := s.owner ≠ 0

/-- `get_cur_impl_key` -/
def curImplKey (s : State) : Option String := s.privacyMode.map Impl.implKey

/-- `is_async_privacy_mode` -/
def isAsync (s : State) : Bool := s.privacyMode.any Impl.isAsyncPrivacyMode

def clear (s : State) (o : Outcomes) : State :=
  match s.privacyMode with
  | none => s
  | some m =>
    { s with privacyMode := some (m.clear s.platform o).1, platform := (m.clear s.platform o).2 }

/-- A new implementation takes the place of the one before, which is dropped. -/
def create (s : State) (implKey : String) (kind : Kind) (o : Outcomes) : State :=
  { s with
    privacyMode := some (.new implKey kind)
    platform :=
      match s.privacyMode with
      | none => s.platform
      | some m => m.drop s.platform o }

def switch (s : State) (implKey : String) (o : Outcomes) : State :=
  if s.curImplKey = some implKey then s
  else
    match s.system.creator implKey with
    | none => s
    | some kind => s.create implKey kind o

/-- The part of `turn_on_privacy_sync` that is about the implementation. -/
def turnOnCurrent (s : State) (connId : Nat) (o : Outcomes) : State × Answer :=
  match s.privacyMode with
  | none => (s, none)
  | some m =>
      let d := m.turnOnPrivacy s.platform connId o
      ({ s with privacyMode := some d.mode, platform := d.platform }, some d.answer)

/-- The answer that needs no change, if there is one: the connection has it on with this
    implementation, or privacy mode is occupied. -/
def alreadyAnswered (s : State) (implKey : String) (connId : Nat) : Option (Except String Bool) :=
  match s.privacyMode with
  | none => none
  | some m =>
      match checkOnConnId m.connId connId with
      | .ok true => if m.implKey = implKey then some (.ok true) else none
      | .ok false => none
      | .error e => some (.error e)

def turnOnPrivacySync (s : State) (implKey : String) (connId : Nat) (o : Outcomes) : State × Answer :=
  let implKey := s.system.supportedImpl implKey o
  match s.alreadyAnswered implKey connId with
  | some answer => (s, some answer)
  | none =>
      if s.curImplKey.getD "" = implKey then s.turnOnCurrent connId o
      else
        match s.system.creator implKey with
        | none => (s, some (.error ("Unsupported privacy mode: " ++ implKey)))
        | some kind => ((s.clear o).create implKey kind o).turnOnCurrent connId o

def turnOffPrivacy (s : State) (connId : Nat) (state : Option PrivacyModeState) (o : Outcomes) :
    State × Option (Except String Unit) :=
  match s.privacyMode with
  | none => (s, none)
  | some m =>
      let d := m.turnOffPrivacy s.platform connId state o
      ({ s with privacyMode := some d.mode, platform := d.platform }, some d.answer)

def send (s : State) (connId : ℕ+) (msg : PrivacyModeMsg) : State :=
  { s with sent := s.sent ++ [(connId, msg)] }

/-- `turn_off_privacy_to_msg` -/
def turnOffPrivacyToMsg (s : State) (connId : Nat) (o : Outcomes) : State × PrivacyModeMsg :=
  match s.turnOffPrivacy connId none o with
  | (s, some (.ok _)) => (s, { state := .prvOffSucceeded, implKey := "" })
  | (s, some (.error e)) => (s, { state := .prvOffFailed, details := e, implKey := "" })
  | (s, none) => (s, { state := .prvOffFailed, details := "Not supported", implKey := "" })

def unsupported : String :=
  "Unsupported. 1 Multi-screen is not supported. 2 Please confirm the license is activated."

/-- `Connection::turn_off_privacy` -/
def requestOff (s : State) (connId : ℕ+) (implKey : String) (o : Outcomes) : State :=
  if s.system.isPrivacyModeSupported then
    let (s, msg) := s.turnOffPrivacyToMsg connId o
    s.send connId msg
  else s.send connId { state := .prvNotSupported, details := unsupported, implKey }

/-- `check_privacy_mode_err` -/
def checkPrivacyModeErr (s : State) (o : Outcomes) : String :=
  if s.curImplKey = some implWinMag then o.capturer else ""

def setCall (s : State) (k : Nat) (c : Call) : State := { s with calls := s.calls.set k c }

/-- The second part of `Connection::turn_on_privacy`, with the reply of `turn_on_privacy`. -/
def handleReply (s : State) (k : Nat) (c : Call) (reply : Answer) (o : Outcomes) : State :=
  let s := s.setCall k { c with handled := true }
  match reply with
  | some (.ok true) =>
      if s.checkPrivacyModeErr o = "" then s.send c.connId { state := .prvOnSucceeded, implKey := c.implKey }
      else
        (s.turnOffPrivacyToMsg c.connId o).1.send c.connId
          { state := .prvOnFailed, details := s.checkPrivacyModeErr o, implKey := c.implKey }
  | some (.ok false) => s.send c.connId { state := .prvOnFailedPlugin, implKey := c.implKey }
  | some (.error e) =>
      if s.isInPrivacyMode then s.setCall k { c with handled := true, turnsOff := some e }
      else s.send c.connId { state := .prvOnFailed, details := e, implKey := c.implKey }
  | none => s.send c.connId { state := .prvOffFailed, details := "Not supported", implKey := c.implKey }

/-- A call is made. Unless a thread is needed, it is done at once. -/
def turnOn (s : State) (implKey : String) (connId : ℕ+) (request : Bool) (o : Outcomes) : State :=
  if request && !s.system.isPrivacyModeSupported then
    s.send connId { state := .prvNotSupported, details := unsupported, implKey }
  else if s.isAsync then { s with calls := s.calls ++ [{ implKey, connId, request }] }
  else
    let (s', answer) := s.turnOnPrivacySync implKey connId o
    { s' with calls := s.calls ++ [{ implKey, connId, request, done := some answer, reply := some answer }] }

/-- The thread does its work. A caller that still waits gets the answer. -/
def run (s : State) (k : Nat) (o : Outcomes) : State :=
  match s.calls[k]? with
  | none => s
  | some c =>
      if c.done.isSome then s
      else
        let (s, answer) := s.turnOnPrivacySync c.implKey c.connId o
        s.setCall k { c with done := some answer, reply := some (c.reply.getD answer) }

def expire (s : State) (k : Nat) : State :=
  match s.calls[k]? with
  | none => s
  | some c =>
    if c.reply.isSome then s else s.setCall k { c with reply := some (some (.error "deadline has elapsed")) }

def handle (s : State) (k : Nat) (o : Outcomes) : State :=
  match s.calls[k]? with
  | none => s
  | some c =>
      match c.reply with
      | none => s
      | some reply => if c.request && !c.handled then s.handleReply k c reply o else s

def turnOffAfterError (s : State) (k : Nat) (o : Outcomes) : State :=
  match s.calls[k]? with
  | none => s
  | some c =>
      match c.turnsOff with
      | none => s
      | some e =>
          ((s.setCall k { c with turnsOff := none }).turnOffPrivacyToMsg 0 o).1.send c.connId
            { state := .prvOnFailed, details := e, implKey := c.implKey }

def step (s : State) : Event → State
  | .turnOn implKey connId request o => s.turnOn implKey connId request o
  | .run k o => s.run k o
  | .expire k => s.expire k
  | .handle k o => s.handle k o
  | .turnOffAfterError k o => s.turnOffAfterError k o
  | .turnOff connId state o => (s.turnOffPrivacy connId state o).1
  | .requestOff connId implKey o => s.requestOff connId implKey o
  | .switch implKey o => s.switch implKey o
  | .clear o => s.clear o

/-- The program has been started: no display is black or covered, and there are no hooks. -/
def initial (system : System) (devices : List Device) (settings : Device → DevMode) (window : Bool)
    (o : Outcomes) : State where
  system
  privacyMode :=
    let implKey := if o.implKey ∈ system.supportedImpls o then o.implKey else system.defaultImpl
    (system.creator implKey).map (Impl.new implKey)
  platform := { devices, settings, window := if window then some false else none }

end State

end RemoteControl.Privacy
