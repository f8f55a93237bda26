import RemoteControl.Keyboard.InputService
import RemoteControl.Presses

/-! # Releasing the modifiers of a connection

A connection keeps the modifiers that it takes for pressed, and releases them when it is
dropped. The keys are really pressed on another thread, from the `down` of an event, while
the set is kept up with whether the event counts as a press: such an event is pressed
and released at once, and all other ones take the key out of the set. So the set never
holds a key that is down.

That thread may also be behind: what it has not handled comes after the release.
-/

namespace RemoteControl.Keyboard.PressedModifiers

open Presses

/-- `rdev::Key`. The keys that are no modifiers are told apart by a number. -/
inductive RdevKey where
  | shiftLeft
  | shiftRight
  | controlLeft
  | controlRight
  | metaLeft
  | metaRight
  | alt
  | altGr
  | other (number : Nat)
  deriving DecidableEq

/-- `keyboard::is_modifier` -/
def RdevKey.isModifier : RdevKey → Bool
  | .other _ => false
  | _ => true

/-- A `KeyEvent` as it arrives -/
structure KeyMessage extends KeyEvent where
  press : Bool
  deriving DecidableEq

/-- The machine, and what the libraries know of its keys. -/
structure Machine (κ : Type) where
  isLinux : Bool
  keycodeToRdevKey : UInt32 → RdevKey
  /-- The key that a code presses and releases. -/
  code : KeyboardMode → UInt32 → κ
  /-- The key that `rdev::simulate` releases. -/
  key : RdevKey → κ
  isModifier : κ → Bool

/-- `common::is_modifier` -/
def KeyMessage.isModifier (me : KeyMessage) : Bool :=
  match me.union with
  | some (.controlKey ck) =>
      [ControlKey.alt, ControlKey.shift, ControlKey.control, ControlKey.meta_, ControlKey.rAlt,
        ControlKey.rShift, ControlKey.rControl, ControlKey.rWin].contains ck
  | _ => false

structure Connection where
  isAuthedViewCameraConn : Bool := false
  keyboard : Bool := true
  disableKeyboard : Bool := false
  pressedModifiers : List RdevKey := []

def Connection.peerKeyboardEnabled (conn : Connection) : Bool :=
  conn.keyboard && !conn.disableKeyboard

namespace Machine

variable {κ : Type} (m : Machine κ)

/-- The modifier that the event is about -/
def modifier (me : KeyMessage) : Option RdevKey :=
  (match me.mode with
  | .map => some (m.keycodeToRdevKey me.chr)
  | .translate =>
      match me.union with
      | some (.chr code) => some (m.keycodeToRdevKey (code &&& 0x0000FFFF))
      | _ => none
  | _ => none).filter RdevKey.isModifier

def isPress (me : KeyMessage) : Bool :=
  if m.isLinux then (me.press || me.down) && !(me.isModifier || (m.modifier me).isSome)
  else me.press

/-- `on_message` of a `KeyEvent`, with what it sends to the thread that handles input. -/
def onMessage (conn : Connection) (me : KeyMessage) : Connection × Option (KeyMessage × Bool) :=
  if conn.isAuthedViewCameraConn then (conn, none)
  else if conn.peerKeyboardEnabled then
    let isPress := m.isPress me
    let conn :=
      match m.modifier me with
      | some key =>
          let pressed :=
            if isPress then conn.pressedModifiers.insert key else conn.pressedModifiers.erase key
          { conn with pressedModifiers := pressed }
      | none => conn
    if isPress then
      match me.union with
      | some (.unicode _) | some (.seq _) => (conn, some (me, false))
      | _ => (conn, some (me, true))
    else (conn, some (me, false))
  else (conn, none)

/-- An event, and what the machine does for it when it names no key code: the presses and
    releases for `down` and for not `down`. -/
structure Input (κ : Type) where
  me : KeyMessage
  typed : Bool → List (Act κ) := fun _ => []

/-- `handle_key` -/
def handleKey (input : Input κ) (down : Bool) : List (Act κ) :=
  let act := if down then Act.press else Act.release
  match input.me.mode, input.me.union with
  | .map, _ => [act (m.code .map input.me.chr)]
  | .translate, some (.chr code) => [act (m.code .translate code)]
  | _, _ => input.typed down

/-- `handle_input` of a key -/
def handleInput (input : Input κ) (press : Bool) : List (Act κ) :=
  let down := m.handleKey input (press || input.me.down)
  if press then down ++ m.handleKey input false else down

/-- The connection after the events, and what is in the queue for the other thread. -/
def handled (conn : Connection) : List (Input κ) → Connection × List (Input κ × Bool)
  | [] => (conn, [])
  | input :: rest =>
      match m.onMessage conn input.me with
      | (conn, none) => handled conn rest
      | (conn, some (_, press)) =>
          let (conn, queue) := handled conn rest
          (conn, (input, press) :: queue)

/-- `release_pressed_modifiers` -/
def releasePressedModifiers (conn : Connection) : List (Act κ) :=
  conn.pressedModifiers.map fun modifier => .release (m.key modifier)

def handleQueue (queue : List (Input κ × Bool)) : List (Act κ) :=
  queue.flatMap fun (input, press) => m.handleInput input press

/-- The keys that are down when the connection was dropped and the queue is empty, where
    `done` of the queued events were handled before the drop. -/
def down [DecidableEq κ] (conn : Connection) (inputs : List (Input κ)) (done : Nat) : Finset κ :=
  let (conn, queue) := m.handled conn inputs
  leaves ∅ (m.handleQueue (queue.take done) ++
    (m.releasePressedModifiers conn ++ m.handleQueue (queue.drop done)))

/-- Whether an event is sent on as a press. -/
def sentAsPress (me : KeyMessage) : Bool :=
  m.isPress me && !(me.union matches some (.unicode _) | some (.seq _))

/-- The presses and releases of an event. One that counts as a press is released at once. -/
def acts (input : Input κ) : List (Act κ) := m.handleInput input (m.sentAsPress input.me)

/-- Each press of a modifier is followed by its release. -/
def ReleasesModifiers (inputs : List (Input κ)) : Prop :=
  ∀ key, m.isModifier key = true → ¬ Unreleased key (inputs.flatMap m.acts)

/-! ## The queue and the set -/

variable {m} {conn : Connection} {inputs : List (Input κ)}

/-- A desktop connection with keyboard permission -/
def Connection.Typing (conn : Connection) : Prop :=
  conn.isAuthedViewCameraConn = false ∧ conn.peerKeyboardEnabled = true

/-- What becomes of an event, whatever it does to the set. -/
theorem onMessage_typing (typing : Connection.Typing conn) (me : KeyMessage) :
    ∃ conn', Connection.Typing conn' ∧ m.onMessage conn me = (conn', some (me, m.sentAsPress me)) := by
  obtain ⟨desktop, enabled⟩ := typing
  unfold onMessage sentAsPress
  rw [if_neg (by simp [desktop]), if_pos enabled]
  dsimp only
  generalize set : (match m.modifier me with
    | some key => _
    | none => conn) = conn'
  have typing' : Connection.Typing conn' := by
    subst set
    split
    case h_1 => exact ⟨desktop, enabled⟩
    case h_2 => exact ⟨desktop, enabled⟩
  refine ⟨conn', typing', ?_⟩
  cases press : m.isPress me with
  | false => simp
  | true =>
      simp only [if_true, Bool.true_and]
      split
      case h_1 isText => simp
      case h_2 isText => simp
      case h_3 noUnicode noSeq =>
        cases union : me.union with
        | none => simp
        | some payload => cases payload <;> simp_all

theorem handleQueue_handled (typing : Connection.Typing conn) :
    m.handleQueue (m.handled conn inputs).2 = inputs.flatMap m.acts := by
  induction inputs generalizing conn with
  | nil => rfl
  | cons input rest ih =>
      obtain ⟨conn', typing', sent⟩ := m.onMessage_typing typing input.me
      simp only [handled, sent]
      rw [handleQueue, List.flatMap_cons, List.flatMap_cons, ← handleQueue, ih typing', acts]

/-- The queue in two parts, as the drop finds it -/
theorem handleQueue_parts (typing : Connection.Typing conn) (done : Nat) :
    m.handleQueue ((m.handled conn inputs).2.take done) ++ m.handleQueue
      ((m.handled conn inputs).2.drop done) =
      inputs.flatMap m.acts := by
  rw [handleQueue, handleQueue, ← List.flatMap_append, List.take_append_drop, ← handleQueue,
    handleQueue_handled typing]

/-- The release of the set presses nothing. -/
theorem releasePressedModifiers_quiet {key : κ} :
    ∀ act ∈ m.releasePressedModifiers conn, act ≠ .press key := by
  intro act member
  obtain ⟨modifier, -, rfl⟩ := List.mem_map.mp member
  exact nofun

/-- Behind the whole queue, the drop releases what the set holds and nothing else. -/
theorem mem_down_after_queue [DecidableEq κ] (typing : Connection.Typing conn) {done : Nat}
    (late : (m.handled conn inputs).2.length ≤ done) {key : κ} :
    key ∈ m.down conn inputs done ↔ Unreleased key (inputs.flatMap m.acts) ∧
      ∀ modifier ∈ (m.handled conn inputs).1.pressedModifiers, m.key modifier ≠ key := by
  have quiet : ¬ Unreleased key (m.releasePressedModifiers (m.handled conn inputs).1) := by
    rintro ⟨before, after, split, -⟩
    have pressed : Act.press key ∈ m.releasePressedModifiers (m.handled conn inputs).1 := by simp [split]
    exact releasePressedModifiers_quiet _ pressed rfl
  have release : Act.release key ∉ m.releasePressedModifiers (m.handled conn inputs).1 ↔
      ∀ modifier ∈ (m.handled conn inputs).1.pressedModifiers, m.key modifier ≠ key := by
    simp [releasePressedModifiers]
  rw [down]
  dsimp only
  rw [List.take_of_length_le late, List.drop_of_length_le late, handleQueue_handled typing,
    handleQueue, List.flatMap_nil, List.append_nil, leaves_append, mem_leaves, or_iff_right quiet,
    release, mem_leaves, or_iff_left (by simp)]

/-- Whenever the connection is dropped, no modifier stays down, if and only if the events release
    each modifier that they press. -/
theorem modifiers_released_iff [DecidableEq κ] (m : Machine κ) (conn : Connection)
    (typing : Connection.Typing conn) (inputs : List (Input κ)) :
    (∀ done, ∀ key ∈ m.down conn inputs done, m.isModifier key = false) ↔
      m.ReleasesModifiers inputs := by
  constructor
  · intro released key modifier unreleased
    -- the drop comes before all of the queue
    have down : key ∈ m.down conn inputs 0 := by
      have pressed := unreleased.append (m.releasePressedModifiers (m.handled conn inputs).1)
      rw [← handleQueue_handled typing] at pressed
      exact mem_leaves.mpr (.inl pressed)
    simp [released 0 key down] at modifier
  · intro releases done key down
    rw [← Bool.not_eq_true]
    intro modifier
    have pressed := mem_leaves_of_quiet releasePressedModifiers_quiet down
    rw [handleQueue_parts typing, mem_leaves] at pressed
    exact releases key modifier (pressed.resolve_right (by simp))

/-- The scan codes of the modifiers on Windows -/
def scancodes : List (UInt32 × RdevKey) :=
  [(42, .shiftLeft), (54, .shiftRight), (29, .controlLeft), (0xE01D, .controlRight),
    (0xE05B, .metaLeft),
    (0xE05C, .metaRight), (56, .alt), (0xE038, .altGr)]

def windows : Machine UInt32 where
  isLinux := false
  keycodeToRdevKey code := (scancodes.lookup code).getD (.other code.toNat)
  code _ code := code
  key key := ((scancodes.find? fun entry => entry.2 = key).map (·.1)).getD 0
  isModifier code := (scancodes.lookup code).isSome

/-- The event of a scan code, as clients send it in `Map` mode. -/
def scancode (code : UInt32) (down : Bool) : Input UInt32 where
  me := { down, union := some (.chr code), modifiers := [], mode := .map, press := false }

theorem modifiers_released_iff_shift :
    (∀ done, ∀ key ∈ windows.down {} [scancode 42 true, scancode 42 false] done,
      windows.isModifier key = false) ↔
        windows.ReleasesModifiers [scancode 42 true, scancode 42 false] :=
  modifiers_released_iff windows {} ⟨rfl, rfl⟩ _

/-- Shift goes down, and the connection ends. -/
theorem shift_stays_down :
    ¬ ∀ (inputs : List (Input UInt32)) (done : Nat), ∀ key ∈ windows.down {} inputs done,
      windows.isModifier key = false := by
  intro released
  have up := released [scancode 42 true] 1 42 (by decide +kernel)
  revert up
  decide +kernel

end Machine

end RemoteControl.Keyboard.PressedModifiers
