import Mathlib.Data.List.Basic
import Mathlib.Tactic.Cases

/-! # What privacy mode does to the machine

On macOS the displays are black and the input of the user is blocked. On Windows a window
covers the screen, or the displays are replaced by a virtual one, and hooks take the input.
Each call of the platform may fail.
-/

namespace RemoteControl.Privacy

/-- Virtual displays are plugged in by a driver. -/
inductive Device where
  | physical (i : Nat)
  | virtual (i : Nat)
  deriving DecidableEq

def Device.isVirtual : Device → Bool
  | .physical _ => false
  | .virtual _ => true

/-- Where a display is and its resolution. One that is off has none. -/
structure DevMode where
  x : Int
  y : Int
  width : Nat
  height : Nat
  deriving DecidableEq

def DevMode.isActive (dm : DevMode) : Bool := dm.width ≠ 0

/-- `PrivacyModeState`, for the connection manager. -/
inductive PrivacyModeState where
  | offSucceeded
  | offByPeer
  | offUnknown
  deriving DecidableEq

structure Platform where
  /-- `g_privacyModeActive` (macOS) -/
  active : Bool := false
  /-- There is a thread with hooks on keyboard and mouse. -/
  hooked : Bool := false
  /-- The privacy window, and whether it is shown. -/
  window : Option Bool := none
  devices : List Device := []
  settings : Device → DevMode := fun _ => ⟨0, 0, 0, 0⟩
  /-- Settings that wait for being committed. -/
  pending : Device → Option DevMode := fun _ => none
  /-- What the connection manager was told, with the connection and the implementation. -/
  told : List (Nat × PrivacyModeState × String) := []

/-- What the calls of one event come to. -/
structure Outcomes where
  /-- The option `privacy-mode-impl-key`. -/
  implKey : String := ""
  /-- The program is installed and its service runs. -/
  service : Bool := true
  /-- All displays could be made black. -/
  blackout : Bool := true
  /-- All displays have got their gamma tables back. -/
  restoreGammas : Bool := true
  exeFile : Except String String := .ok ""
  hasParent : Bool := true
  /-- `WindowInjection.dll` is there. -/
  dll : Bool := true
  /-- The process with the privacy window is started, and whether the window comes up. -/
  launch : Except String Bool := .ok true
  /-- The process is gone after it was terminated. -/
  terminate : Bool := true
  hook : Except String Unit := .ok ()
  /-- The thread with the hooks gets its message. -/
  post : Except String Unit := .ok ()
  iddSupported : Bool := true
  /-- `plug_in_peer_request`, with the indices. -/
  plugIn : Except String (List Nat) := .ok [0]
  /-- The virtual displays that are seen after that. -/
  arrived : List (Nat × DevMode) := []
  plugOut : Except String Unit := .ok ()
  /-- Virtual displays that stay although they were to be plugged out. -/
  remains : Nat → Bool := fun _ => false
  readReg : Except String Unit := .ok ()
  /-- The settings of a display are read. -/
  enumDisplay : Device → Except String Unit := fun _ => .ok ()
  setPrimary : Device → Except String Unit := fun _ => .ok ()
  disable : Device → Except String Unit := fun _ => .ok ()
  commit : Except String Unit := .ok ()
  changeResolution : Bool := true
  /-- The registry is read once more, and what has changed is written down. -/
  regRecovery : Except String Unit := .ok ()
  restore : Device → Bool := fun _ => true
  restoreCommit : Bool := true
  /-- `check_privacy_mode_err` for the magnifier. -/
  capturer : String := ""

/-- A state after calls that may have ended early. -/
abbrev Tried (σ : Type) := σ × Except String Unit

/-- The operator `?` -/
def Tried.next {σ : Type} (tried : Tried σ) (go : σ → Tried σ) : Tried σ :=
  match tried with
  | (s, .ok _) => go s
  | (s, .error e) => (s, .error e)

variable {σ : Type} {tried : Tried σ} {go : σ → Tried σ}

/-- Calls that are about to change what is kept. -/
theorem Tried.next_leads {P Q : σ → Prop}     (here : P tried.1)
    (weaken : ∀ s, P s → Q s) (later : ∀ s, P s → Q (go s).1) : Q (tried.next go).1 := by
  obtain ⟨s, result⟩ := tried
  cases result with
  | error e => exact weaken s here
  | ok _ => exact later s here

/-- What the state and all further calls keep, is kept. -/
theorem Tried.next_keeps {P : σ → Prop}     (here : P tried.1)
    (later : ∀ s, P s → P (go s).1) : P (tried.next go).1 := next_leads here (fun _ => id) later

/-- What the last call brings about when it works. -/
theorem Tried.next_ensures {Q : σ → Prop}     (later : ∀ s, (go s).2 = .ok () → Q (go s).1) (fine : (tried.next go).2 = .ok ()) :
    Q (tried.next go).1 := by
  obtain ⟨s, result⟩ := tried
  cases result with
  | error e => cases fine
  | ok _ => exact later s fine

theorem Tried.next_eq_ok :
    (tried.next go).2 = .ok () ↔ tried.2 = .ok () ∧ (go tried.1).2 = .ok () := by
  obtain ⟨s, result⟩ := tried
  cases result with
  | error e => simp [next]
  | ok _ => simp [next]

namespace Platform

/-- `MacSetPrivacyMode` -/
def macSetPrivacyMode (p : Platform) (on : Bool) (o : Outcomes) : Platform × Bool :=
  if on then
    if p.active then (p, true)
    else if o.blackout then ({ p with active := true }, true)
    else (p, false)
  else if p.active then ({ p with active := false }, o.restoreGammas)
  else (p, true)

def hook (p : Platform) (o : Outcomes) : Tried Platform :=
  if p.hooked then (p, .error "Already hooked")
  else
    match o.hook with
    | .ok _ => ({ p with hooked := true }, .ok ())
    | .error e => (p, .error e)

def unhook (p : Platform) (o : Outcomes) : Tried Platform :=
  if p.hooked then
    match o.post with
    | .ok _ => ({ p with hooked := false }, .ok ())
    | .error e => (p, .error ("Failed to post message to exit hook, error " ++ e))
  else (p, .ok ())

/-- `ShowWindow` for the privacy window, if there is one. -/
def showWindow (p : Platform) (shown : Bool) : Platform :=
  { p with window := p.window.map fun _ => shown }

/-- `set_privacy_mode_state`, when privacy mode was on. -/
def tell (p : Platform) (preConnId connId : Nat) (state : Option PrivacyModeState)
    (implKey : String) : Platform :=
  match state with
  | none => p
  | some state => if preConnId = 0 then p else { p with told := p.told ++ [(connId, state, implKey)] }

/-- The displays that are on, with their settings. -/
def displays (p : Platform) (isVirtual : Bool) : List (Device × DevMode) :=
  (p.devices.filter fun d => d.isVirtual == isVirtual && (p.settings d).isActive).map fun d =>
    (d, p.settings d)

/-- `ChangeDisplaySettingsExW` with `CDS_NORESET` -/
def changeDisplaySettings (p : Platform) (d : Device) (dm : DevMode) (answer : Except String Unit) :
    Tried Platform :=
  match answer with
  | .ok _ => ({ p with pending := Function.update p.pending d (some dm) }, .ok ())
  | .error e => (p, .error ("Failed ChangeDisplaySettingsEx, " ++ e))

/-- All settings that wait come into force. -/
def commit (p : Platform) : Platform :=
  { p with
    settings := fun d => (p.pending d).getD (p.settings d)
    pending := fun _ => none }

/-- `commit_change_display` -/
def commitChangeDisplay (p : Platform) (answer : Except String Unit) : Tried Platform :=
  match answer with
  | .ok _ => (p.commit, .ok ())
  | .error e => (p, .error ("Failed ChangeDisplaySettingsEx, " ++ e))

/-- A loop that the first error ends. -/
def forEach (change : Platform → Device → Tried Platform) : List Device → Platform → Tried Platform
  | [], p => (p, .ok ())
  | d :: rest, p => Tried.next (change p d) (forEach change rest)

/-- The settings of a display are read and changed. -/
def moveDisplay (p : Platform) (d : Device) (change : DevMode → DevMode) (o : Outcomes) :
    Tried Platform :=
  match o.enumDisplay d with
  | .ok _ => p.changeDisplaySettings d (change (p.settings d)) (o.setPrimary d)
  | .error e => (p, .error ("Failed EnumDisplaySettingsW, " ++ e))

/-- `set_primary_display`: all displays move so that the virtual one is at the origin. -/
def setPrimaryDisplay (p : Platform) (display : Device) (o : Outcomes) : Tried Platform :=
  let origin := p.settings display
  let others := p.devices.filter fun d => (p.settings d).isActive && d != display
  Tried.next (p.moveDisplay display (fun dm => { dm with x := 0, y := 0 }) o)
    (forEach (fun p d =>
      p.moveDisplay d (fun dm => { dm with x := dm.x - origin.x, y := dm.y - origin.y }) o) others)

/-- `disable_physical_displays` -/
def disablePhysicalDisplays (p : Platform) (displays : List (Device × DevMode)) (o : Outcomes) :
    Tried Platform :=
  forEach (fun p d => p.changeDisplaySettings d ⟨10000, 10000, 0, 0⟩ (o.disable d))
    (displays.map (·.1)) p

/-- `restore_displays`, which goes on after errors. -/
def restoreDisplays (p : Platform) (displays : List (Device × DevMode)) (o : Outcomes) : Platform :=
  displays.foldl
    (fun p e => (p.changeDisplaySettings e.1 e.2 (if o.restore e.1 then .ok () else .error "")).1) p

/-- New virtual displays. -/
def plug (p : Platform) (o : Outcomes) : Platform :=
  { p with
    devices := p.devices ++ o.arrived.map fun e => .virtual e.1
    settings :=
      o.arrived.foldl (fun settings e => Function.update settings (.virtual e.1) e.2) p.settings }

def unplug (p : Platform) (o : Outcomes) : Platform :=
  { p with
    devices := p.devices.filter fun
      | .physical _ => true
      | .virtual i => o.remains i }

end Platform

end RemoteControl.Privacy
