import RemoteControl.Host.Connection
import RemoteControl.Keyboard.PressedModifiers

/-! # The input thread of a connection

`handle_input`, which simulates what the remote user does and has the local input blocked and
given back. It blocks the input again at every turn without a message while it takes it for
blocked, and the turn that finds the connection gone is such a turn too.
-/

namespace RemoteControl.Host.InputThread

open Runs
open Keyboard.PressedModifiers (KeyMessage)

inductive BlockInputState where
  | blkOnFailed
  | blkOffFailed
  deriving DecidableEq

/-- `μ` is for `MouseEvent`. -/
structure InputMouse (μ : Type) where
  msg : μ
  connId : Int32
  username : String
  argb : UInt32
  simulate : Bool
  showCursor : Bool
  deriving DecidableEq

/-- `π` is for `PointerDeviceEvent`. -/
inductive MessageInput (μ π : Type) where
  | mouse (input : InputMouse μ)
  | key (msg : KeyMessage) (press : Bool)
  | pointer (msg : π) (id : Int32)
  | blockOn
  | blockOff
  | blockOnPlugin (peer : String)
  | blockOffPlugin (peer : String)
  deriving DecidableEq

/-- What the thread does. -/
inductive Effect (μ π : Type) where
  | setMouseExtraInfo
  | setKeyboardExtraInfo
  | resetInputOndisconn
  | handleMouse (input : InputMouse μ)
  | handleKey (msg : KeyMessage)
  | handlePointer (msg : π) (id : Int32)
  | blockInput (v ok : Bool)
  | sendBlockInputError (state : BlockInputState) (msg : String)
  /-- What the plug-in that waits is told. -/
  | pluginBlocked (blockInputMode : Bool)
  | clearRemappedKeycode
  deriving DecidableEq

/-- What `platform::block_input` returns. -/
structure Outcome where
  ok : Bool
  msg : String
  deriving DecidableEq

/-- One turn before the senders are gone: a message, or none for half a second, and what
`block_input` returns if it is called in it. -/
structure Event (μ π : Type) where
  received : Option (MessageInput μ π)
  outcome : Outcome
  deriving DecidableEq

structure State (μ π : Type) where
  blockInputMode : Bool := false
  effects : List (Effect μ π) := []
  deriving DecidableEq

variable {μ π : Type} {s' : State μ π} {effects : List (Effect μ π)}

namespace State

variable (s : State μ π)

def emit (effects : List (Effect μ π)) : State μ π := { s with effects := s.effects ++ effects }

/-- A call of `block_input`, which sets the mode when it succeeds. -/
def blockInput (v : Bool) (outcome : Outcome) : State μ π :=
  let s := s.emit [.blockInput v outcome.ok]
  if outcome.ok then { s with blockInputMode := v } else s

/-- The answer to a request of the remote user that failed. -/
def report (state : BlockInputState) (outcome : Outcome) : State μ π :=
  if outcome.ok then s else s.emit [.sendBlockInputError state outcome.msg]

/-- The answer to a plug-in. -/
def tellPlugin : State μ π := s.emit [.pluginBlocked s.blockInputMode]

def handle (v : MessageInput μ π) (outcome : Outcome) : State μ π :=
  match v with
  | .mouse input => s.emit [.handleMouse input]
  | .key msg press =>
      let msg := { msg with press := false }
      if press then
        s.emit [.handleKey { msg with down := true }, .handleKey { msg with down := false }]
      else s.emit [.handleKey msg]
  | .pointer msg id => s.emit [.handlePointer msg id]
  | .blockOn => (s.blockInput true outcome).report .blkOnFailed outcome
  | .blockOff => (s.blockInput false outcome).report .blkOffFailed outcome
  | .blockOnPlugin _ => (s.blockInput true outcome).tellPlugin
  | .blockOffPlugin _ => (s.blockInput false outcome).tellPlugin

/-- What an error of `recv_timeout` leads to, be it that nothing has come or that the senders are
gone. The outcome of the call is ignored. -/
def onError (outcome : Outcome) : State μ π :=
  if s.blockInputMode then s.emit [.blockInput true outcome.ok] else s

end State

def step (s : State μ π) (e : Event μ π) : State μ π :=
  match e.received with
  | some v => s.handle v e.outcome
  | none => s.onError e.outcome

def start (os : TargetOs) : State μ π :=
  let s : State μ π := {}
  let s := if os = .windows ∨ os = .macos then s.emit [.setMouseExtraInfo, .setKeyboardExtraInfo] else s
  if os = .macos then s.emit [.resetInputOndisconn] else s

/-- Everything that the thread does until it returns; `gone` is what `block_input` returns if it is
called when the senders are gone. -/
def handleInput (os : TargetOs) (events : List (Event μ π)) (gone : Outcome) : List (Effect μ π) :=
  let s := (exec step (start os) events).onError gone
  let s := if os = .linux then s.emit [.clearRemappedKeycode] else s
  s.effects

/-! ## The calls that succeed -/

/-- What a call of `block_input` that succeeded has asked for. -/
def Effect.succeeded : Effect μ π → Option Bool
  | .blockInput v ok => if ok then some v else none
  | _ => none

/-- The calls of `block_input` that succeeded. -/
def successes (effects : List (Effect μ π)) : List Bool := effects.filterMap Effect.succeeded

/-- The local input was never blocked, or the last call that succeeded has given it back. -/
def GivenBack (effects : List (Effect μ π)) : Prop :=
  true ∉ successes effects ∨ (successes effects).getLast? = some false

/-- What a message asks of `block_input`. -/
def MessageInput.asks : MessageInput μ π → Option Bool
  | .blockOn | .blockOnPlugin _ => some true
  | .blockOff | .blockOffPlugin _ => some false
  | _ => none

/-- What a turn was asked for and has done. -/
def Event.granted (e : Event μ π) : Option Bool :=
  if e.outcome.ok then e.received.bind MessageInput.asks else none

def lastGranted (events : List (Event μ π)) : Option Bool := (events.filterMap Event.granted).getLast?

theorem givenBack_iff : GivenBack effects ↔ (successes effects).getLast? ≠ some true := by
  unfold GivenBack
  cases last : (successes effects).getLast? with
  | none => simp [List.getLast?_eq_none_iff.mp last]
  | some v =>
      cases v with
      | false => simp
      | true => simp [List.mem_of_getLast? last]

@[simp] theorem successes_append (left right : List (Effect μ π)) :
    successes (left ++ right) = successes left ++ successes right := List.filterMap_append

/-- The mode says whether the last request that succeeded has blocked the input, and no call in
between is about anything else. -/
structure Inv (s : State μ π) (past : List (Event μ π)) : Prop where
  mode : s.blockInputMode = true ↔ lastGranted past = some true
  last : (successes s.effects).getLast? = lastGranted past

variable {s : State μ π} {past : List (Event μ π)} {e : Event μ π}

theorem lastGranted_append_singleton :
    lastGranted (past ++ [e]) = e.granted.or (lastGranted past) := by
  cases same : e.granted with
  | none => simp [lastGranted, same]
  | some v => simp [lastGranted, same]

/-- A turn without a request: its calls, if there are any, block an input that is blocked. -/
theorem Inv.other (inv : Inv s past) (nothing : e.granted = none)
    (mode : s'.blockInputMode = s.blockInputMode) (emitted : s'.effects = s.effects ++ effects)
    (again : ∀ v ∈ successes effects, v = true ∧ s.blockInputMode = true) :
    Inv s' (past ++ [e]) := by
  have same : lastGranted (past ++ [e]) = lastGranted past := by
    simp [lastGranted_append_singleton, nothing]
  refine ⟨?_, ?_⟩
  · rw [mode, same]
    exact inv.mode
  · rw [emitted, same, successes_append, List.getLast?_append, inv.last]
    cases last : (successes effects).getLast? with
    | none => rfl
    | some v =>
        obtain ⟨rfl, blocked⟩ := again v (List.mem_of_getLast? last)
        exact (inv.mode.mp blocked).symm

/-- A turn with a request, which a call that succeeds fulfils. -/
theorem Inv.request {v : Bool} (inv : Inv s past)
    (granted : e.granted = if e.outcome.ok then some v else none)
    (mode : s'.blockInputMode = if e.outcome.ok then v else s.blockInputMode)
    (calls : successes s'.effects = successes s.effects ++ if e.outcome.ok then [v] else []) :
    Inv s' (past ++ [e]) := by
  refine ⟨?_, ?_⟩
  · rw [mode, lastGranted_append_singleton, granted]
    cases e.outcome.ok with
    | false => exact inv.mode
    | true => simp
  · rw [calls, lastGranted_append_singleton, granted]
    cases e.outcome.ok with
    | false => simpa using inv.last
    | true => simp

@[simp] theorem successes_blockInput (v : Bool) (outcome : Outcome) :
    successes (s.blockInput v outcome).effects =
      successes s.effects ++ if outcome.ok then [v] else [] := by
  unfold State.blockInput
  cases outcome.ok with
  | false => simp [State.emit, successes, Effect.succeeded]
  | true => simp [State.emit, successes, Effect.succeeded]

@[simp] theorem blockInputMode_blockInput (v : Bool) (outcome : Outcome) :
    (s.blockInput v outcome).blockInputMode = if outcome.ok then v else s.blockInputMode := by
  unfold State.blockInput
  cases outcome.ok with
  | false => rfl
  | true => rfl

@[simp] theorem successes_report (state : BlockInputState) (outcome : Outcome) :
    successes (s.report state outcome).effects = successes s.effects := by
  unfold State.report
  cases outcome.ok with
  | false => simp [State.emit, successes, Effect.succeeded]
  | true => rfl

@[simp] theorem blockInputMode_report (state : BlockInputState) (outcome : Outcome) :
    (s.report state outcome).blockInputMode = s.blockInputMode := by
  unfold State.report
  cases outcome.ok with
  | false => rfl
  | true => rfl

@[simp] theorem successes_tellPlugin : successes s.tellPlugin.effects = successes s.effects := by
  simp [State.tellPlugin, State.emit, successes, Effect.succeeded]

@[simp] theorem blockInputMode_tellPlugin : s.tellPlugin.blockInputMode = s.blockInputMode := rfl

/-- A turn without a message keeps the mode, and what it does is to block the input again. -/
theorem onError_spec (s : State μ π) (outcome : Outcome) :
    (s.onError outcome).blockInputMode = s.blockInputMode ∧
      ∃ effects, (s.onError outcome).effects = s.effects ++ effects ∧
        ∀ v ∈ successes effects, v = true ∧ s.blockInputMode = true := by
  unfold State.onError
  cases mode : s.blockInputMode with
  | false => exact ⟨mode, [], by simp, by simp [successes]⟩
  | true =>
      refine ⟨mode, [.blockInput true outcome.ok], rfl, ?_⟩
      cases outcome.ok with
      | false => simp [successes, Effect.succeeded]
      | true => simp [successes, Effect.succeeded]

/-- What one turn keeps. -/
theorem inv_step (inv : Inv s past) : Inv (step s e) (past ++ [e]) := by
  obtain ⟨received, outcome⟩ := e
  cases received with
  | none =>
      obtain ⟨mode, effects, emitted, again⟩ := onError_spec s outcome
      exact inv.other (by simp [Event.granted]) mode emitted again
  | some v =>
      cases v with
      | mouse _ | pointer _ _ =>
          exact inv.other (by simp [Event.granted, MessageInput.asks]) rfl rfl
            (by simp [successes, Effect.succeeded])
      | key _ press =>
          cases press <;> exact inv.other (by simp [Event.granted, MessageInput.asks]) rfl rfl
            (by simp [successes, Effect.succeeded])
      | blockOn | blockOff | blockOnPlugin _ | blockOffPlugin _ =>
          exact inv.request rfl (by simp [step, State.handle]) (by simp [step, State.handle])

theorem inv_start (os : TargetOs) : Inv (start os : State μ π) [] := by
  cases os with
  | windows => exact ⟨by simp [start, State.emit, lastGranted], rfl⟩
  | linux => exact ⟨by simp [start, lastGranted], rfl⟩
  | macos => exact ⟨by simp [start, State.emit, lastGranted], rfl⟩
  | android => exact ⟨by simp [start, lastGranted], rfl⟩
  | ios => exact ⟨by simp [start, lastGranted], rfl⟩

theorem inv_exec {events : List (Event μ π)} (inv : Inv s past) :
    Inv (exec step s events) (past ++ events) := by
  induction events generalizing s past with
  | nil => simpa using inv
  | cons e rest ih => simpa using ih (inv_step inv)

/-- The mode, which plug-ins are told, is in every run what the last call of `block_input` that
succeeded has set. -/
theorem blockInputMode_iff_last (os : TargetOs) (events : List (Event μ π)) :
    (exec step (start os) events).blockInputMode = true ↔
      (successes (exec step (start os) events).effects).getLast? = some true := by
  have inv := @inv_exec _ _ _ _ events (inv_start os)
  rw [inv.mode, inv.last]

/-- Blocking the input again changes nothing about the last call that succeeded. -/
theorem last_onError (inv : Inv s past) (outcome : Outcome) :
    (successes (s.onError outcome).effects).getLast? = lastGranted past := by
  obtain ⟨mode, effects, emitted, again⟩ := onError_spec s outcome
  have idle : Inv (s.onError outcome) (past ++ [⟨none, outcome⟩]) :=
    inv.other (by simp [Event.granted]) mode emitted again
  simpa [lastGranted_append_singleton, Event.granted] using idle.last

theorem last_handleInput (os : TargetOs) (events : List (Event μ π)) (gone : Outcome) :
    (successes (handleInput os events gone)).getLast? = lastGranted events := by
  have inv : Inv (exec step (start os) events) events := by
    simpa using @inv_exec _ _ _ _ events (inv_start os)
  rw [← last_onError inv gone]
  unfold handleInput
  dsimp only
  split
  · simp [State.emit, successes, Effect.succeeded]
  · rfl

/-- The local input is given back if and only if the last request that succeeded was not to block
it: nothing unblocks it when the connection is gone. -/
theorem handleInput_givenBack_iff (os : TargetOs) (events : List (Event μ π)) (gone : Outcome) :
    GivenBack (handleInput os events gone) ↔ lastGranted events ≠ some true := by
  rw [givenBack_iff, last_handleInput]

/-- One request to block the input, after which the connection is gone. The turns of `queued` come
when it has gone. -/
theorem handleInput_not_givenBack :
    ¬∀ (os : TargetOs) (events queued : List (Event Unit Unit)) (gone : Outcome),
      (∀ e ∈ queued, e.received.bind MessageInput.asks = some false → e.outcome.ok = true) →
        GivenBack (handleInput os (events ++ queued) gone) := by
  intro law
  have back := law .windows [⟨some .blockOn, ⟨true, ""⟩⟩] [] ⟨true, ""⟩ (by simp)
  exact givenBack_iff.mp back rfl

end RemoteControl.Host.InputThread
