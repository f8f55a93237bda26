import RemoteControl.Keyboard.Keys
import RemoteControl.Ledger
import RemoteControl.Runs

/-! # Simulating the keys of a remote peer

Key events press and release keys of this machine, through rdev on X11 for raw
codes and through Enigo for everything else. Pressed keys are recorded in
`KEYS_DOWN`, from which `fix_key_down_timeout` releases the ones that were held
for too long, or all of them once nobody is connected.
-/

namespace RemoteControl.Keyboard

open Ledger

/-- A way of naming a key of the machine. -/
inductive Source where
  | enigo (key : Key)
  | rdev (key : RdevKey)
  deriving DecidableEq

/-- The machine: how keys are injected, and what can go wrong there. -/
structure Backend (κ : Type) where
  isX11 : Bool
  isServer : Bool
  /-- The key of the machine that a press or release acts on. -/
  code : Source → κ
  /-- `get_key_state`, which reads the keys that are down. -/
  keyState : Finset κ → Key → Bool
  /-- Whether the `n`-th press succeeds, or the `n`-th setting of the clipboard. -/
  accepts : Nat → Bool
  /-- Unicode's upper case of a character. -/
  toUppercase : Char → List Char
  /-- The order in which the records of the hash map are gone through. -/
  visit : List KeysDown → List KeysDown
  visit_perm : ∀ records, (visit records).Perm records

structure State (κ : Type) where
  /-- The keys of the machine that are down, lock keys left aside. -/
  down : Finset κ := ∅
  keysDown : List KeysDown := []
  /-- The presses and clipboard changes tried so far. -/
  tries : Nat := 0
  exiting : Bool := false
  deriving DecidableEq

inductive Payload where
  | controlKey (ck : Int32)
  | chr (chr : UInt32)
  | unicode (chr : UInt32)
  | seq (seq : List Char)
  | win2winHotkey (code : UInt32)
  deriving DecidableEq

/-- `Auto` and the numbers that name no mode are handled like `Legacy`. -/
inductive KeyboardMode where
  | legacy
  | map
  | translate
  | other
  deriving DecidableEq

structure KeyEvent where
  down : Bool
  union : Option Payload
  modifiers : List Int32
  mode : KeyboardMode
  deriving DecidableEq

/-- `evt.chr()` -/
def KeyEvent.chr (evt : KeyEvent) : UInt32 :=
  match evt.union with
  | some (.chr chr) => chr
  | _ => 0

namespace Backend

variable {κ : Type} (b : Backend κ)

def waylandUseUinput : Bool := !b.isX11 && b.isServer

/-- The key of the machine that `release_record_key` releases. -/
def stands : KeysDown → Option κ
  | .rdevKey rawkey => some (b.code (.rdev (.rawKey rawkey)))
  | .enigoKey record => (recordKeyToKey record).map fun key => b.code (.enigo key)

end Backend

namespace State

variable {κ : Type} [DecidableEq κ] (b : Backend κ) (s : State κ)

/-- `key_down`, or `simulate_` of a `KeyPress`. -/
def keyDown (source : Source) : State κ × Bool :=
  if b.accepts s.tries then
    ({ s with down := insert (b.code source) s.down, tries := s.tries + 1 }, true)
  else ({ s with tries := s.tries + 1 }, false)

/-- `key_up`, or `simulate_` of a `KeyRelease`. -/
def keyUp (source : Source) : State κ :=
  { s with down := s.down.erase (b.code source) }

def keyClick (key : Key) : State κ :=
  (s.keyDown b (.enigo key)).1.keyUp b (.enigo key)

def keySequence (sequence : List Char) : State κ :=
  sequence.foldl (fun s chr => s.keyClick b (.layout chr)) s

/-- `set_clipboard_for_paste_sync` -/
def setClipboard : State κ × Bool :=
  ({ s with tries := s.tries + 1 }, b.accepts s.tries)

def getModifierState (key : Key) : Bool :=
  let x := b.keyState s.down key
  match key with
  | .shift => x || b.keyState s.down .rightShift
  | .control => x || b.keyState s.down .rightControl
  | .alt => x || b.keyState s.down .rightAlt
  | .meta_ => x || b.keyState s.down .rWin
  | .rightShift => x || b.keyState s.down .shift
  | .rightControl => x || b.keyState s.down .control
  | .rightAlt => x || b.keyState s.down .alt
  | .rWin => x || b.keyState s.down .meta_
  | _ => x

def isPressed (key : Key) : Bool := s.getModifierState b key

def recordPressedKey (recordKey : KeysDown) (down : Bool) : State κ :=
  if down then { s with keysDown := note recordKey s.keysDown }
  else { s with keysDown := strike recordKey s.keysDown }

def releaseRecordKey (recordKey : KeysDown) : State κ :=
  match recordKey with
  | .rdevKey rawkey => s.keyUp b (.rdev (.rawKey rawkey))
  | .enigoKey record =>
      match recordKeyToKey record with
      | some key => s.keyUp b (.enigo key)
      | none => s

/-- `expired` are the records that are at least 360 seconds old. -/
def fixKeyDownTimeout (force : Bool) (expired : KeysDown → Bool) : State κ :=
  (b.visit s.keysDown).foldl (fun s recordKey =>
    if force || expired recordKey then
      (s.recordPressedKey recordKey false).releaseRecordKey b recordKey
    else s) s

def fixKeyDownTimeoutAtExit : State κ :=
  if s.exiting then s
  else { s with exiting := true }.fixKeyDownTimeout b true fun _ => false

def getControlKeyValue (evt : KeyEvent) : Int32 :=
  match evt.union with
  | some (.controlKey ck) => ck
  | _ => -1

/-- The modifiers that `fix_modifiers` goes through: the control key that is spared, the
    one looked for in the event, and the key. -/
def fixedModifiers : List (Int32 × Int32 × Key) :=
  [ (ControlKey.shift, ControlKey.shift, .shift),
    (ControlKey.rShift, ControlKey.shift, .rightShift),
    (ControlKey.alt, ControlKey.alt, .alt),
    (ControlKey.rAlt, ControlKey.alt, .rightAlt),
    (ControlKey.control, ControlKey.control, .control),
    (ControlKey.rControl, ControlKey.control, .rightControl),
    (ControlKey.meta_, ControlKey.meta_, .meta_),
    (ControlKey.rWin, ControlKey.meta_, .rWin) ]

def fixModifier (modifiers : List Int32) (key0 : Int32) (key1 : Key) : State κ :=
  if s.getModifierState b key1 && !modifiers.contains key0 then s.keyUp b (.enigo key1) else s

def fixModifiers (modifiers : List Int32) (ck : Int32) : State κ :=
  fixedModifiers.foldl (fun s (spared, key0, key1) =>
    if ck ≠ spared then s.fixModifier b modifiers key0 key1 else s) s

def releaseUnpressedModifiers (evt : KeyEvent) : State κ :=
  s.fixModifiers b evt.modifiers (getControlKeyValue evt)

def isAltgrPressed : Bool :=
  s.keysDown.contains (.rdevKey ControlKey.rAlt.toUInt32)

/-- The key that `press_modifiers` presses for a modifier of the event, if any. -/
def modifierToPress (ck : Int32) : Option Key :=
  match controlKeyValueToKey ck with
  | some key =>
      if s.isPressed b key || key == .alt && s.isAltgrPressed then none else some key
  | none => none

/-- One pass through the loop of `press_modifiers`. -/
def pressModifier (pressed : State κ × List Key) (ck : Int32) : State κ × List Key :=
  match pressed.1.modifierToPress b ck with
  | some key => ((pressed.1.keyDown b (.enigo key)).1, pressed.2 ++ [key])
  | none => pressed

def pressModifiers (evt : KeyEvent) : State κ × List Key :=
  evt.modifiers.foldl (pressModifier b) (s, [])

/-- The keys pressed for the event are returned as well: the caller releases them. -/
def syncModifiers (evt : KeyEvent) : State κ × List Key :=
  if evt.down then (s.releaseUnpressedModifiers b evt).pressModifiers b evt else (s, [])

def releaseKeys (toRelease : List Key) : State κ :=
  toRelease.foldl (fun s key => s.keyUp b (.enigo key)) s

def isHotkeyModifierPressed : Bool :=
  s.getModifierState b .control || s.getModifierState b .rightControl
    || s.getModifierState b .alt || s.getModifierState b .rightAlt
    || s.getModifierState b .meta_ || s.getModifierState b .rWin

/-- Releases a Shift key of the session, through rdev on X11. -/
def releaseShift (key : Key) (rdevKey : RdevKey) : State κ :=
  if s.getModifierState b key then
    if !b.isX11 then s.keyUp b (.enigo key) else s.keyUp b (.rdev rdevKey)
  else s

def releaseShiftForCharInput : State κ :=
  if s.isHotkeyModifierPressed b then s
  else (s.releaseShift b .shift .shiftLeft).releaseShift b .rightShift .shiftRight

/-- The XKB key code of Insert. -/
def XKB_KEY_INSERT : UInt16 := 110 + 8

def inputTextViaClipboardServer (text : List Char) : State κ :=
  if text.isEmpty then s
  else
    match s.setClipboard b with
    | (s, false) => s
    | (s, true) =>
        match s.keyDown b (.enigo .shift) with
        | (s, false) => s
        | (s, true) =>
            match s.keyDown b (.enigo (.raw XKB_KEY_INSERT)) with
            | (s, false) => s.keyUp b (.enigo .shift)
            | (s, true) => (s.keyUp b (.enigo (.raw XKB_KEY_INSERT))).keyUp b (.enigo .shift)

def inputCharViaClipboardServer (chr : Char) : State κ :=
  s.inputTextViaClipboardServer b [chr]

def processControlKey (ck : Int32) (down : Bool) : State κ :=
  match controlKeyValueToKey ck with
  | some key => if down then (s.keyDown b (.enigo key)).1 else s.keyUp b (.enigo key)
  | none => s

def needToUppercase : Bool :=
  s.getModifierState b .shift || s.getModifierState b .capsLock

/-- `process_chr` once it has not handed the character to the clipboard. -/
def processChrKey (chr : UInt32) (down : Bool) : State κ :=
  let key := charValueToKey chr
  if down then
    match s.keyDown b (.enigo key) with
    | (s, true) => s
    | (s, false) =>
        match charTryFrom chr with
        | some chr => s.keySequence b (if s.needToUppercase b then b.toUppercase chr else [chr])
        | none => s
  else s.keyUp b (.enigo key)

def processChr (chr : UInt32) (down : Bool) : State κ :=
  if b.waylandUseUinput && !s.isHotkeyModifierPressed b then
    if down then
      match charTryFrom chr with
      | some c => s.inputCharViaClipboardServer b c
      | none => s
    else s
  else s.processChrKey b chr down

def processUnicode (chr : UInt32) : State κ :=
  match charTryFrom chr with
  | some c => if b.waylandUseUinput then s.inputCharViaClipboardServer b c else s.keySequence b [c]
  | none => s

def processSeq (sequence : List Char) : State κ :=
  if b.waylandUseUinput then s.inputTextViaClipboardServer b sequence else s.keySequence b sequence

def isFunctionKey (ck : Int32) : Bool :=
  ck == ControlKey.ctrlAltDel || ck == ControlKey.lockScreen

def legacyKeyboardMode (evt : KeyEvent) : State κ :=
  let (s, toRelease) := s.syncModifiers b evt
  match evt.union with
  | some (.controlKey ck) =>
      if isFunctionKey ck then s
      else
        ((s.recordPressedKey (.enigoKey (controlKeyRecord ck)) evt.down).processControlKey b ck
          evt.down).releaseKeys b toRelease
  | some (.chr chr) =>
      (((s.releaseShiftForCharInput b).recordPressedKey (.enigoKey (charRecord chr))
        evt.down).processChr b chr evt.down).releaseKeys b toRelease
  | some (.unicode chr) =>
      ((s.releaseShiftForCharInput b).processUnicode b chr).releaseKeys b toRelease
  | some (.seq seq) => (s.processSeq b seq).releaseKeys b toRelease
  | _ => s.releaseKeys b toRelease

def waylandSendRawKey (code : UInt16) (down : Bool) : State κ :=
  if down then (s.keyDown b (.enigo (.raw code))).1 else s.keyUp b (.enigo (.raw code))

def simRdevRawkeyPosition (code : UInt32) (keydown : Bool) : State κ :=
  let s := s.recordPressedKey (.rdevKey code) keydown
  if keydown then (s.keyDown b (.rdev (.rawKey code))).1 else s.keyUp b (.rdev (.rawKey code))

def mapKeyboardMode (evt : KeyEvent) : State κ :=
  if !b.isX11 then s.waylandSendRawKey b evt.chr.toUInt16 evt.down
  else s.simRdevRawkeyPosition b evt.chr evt.down

def translateKeyboardMode (evt : KeyEvent) : State κ :=
  match evt.union with
  | some (.seq seq) =>
      if !b.isX11 then
        if s.isHotkeyModifierPressed b then s.keySequence b seq
        else (s.releaseShiftForCharInput b).inputTextViaClipboardServer b seq
      else (s.releaseShiftForCharInput b).keySequence b seq
  | some (.chr chr) =>
      if !b.isX11 then s.waylandSendRawKey b chr.toUInt16 evt.down
      else s.simRdevRawkeyPosition b chr evt.down
  | _ => s

def handleKey_ (evt : KeyEvent) : State κ :=
  if s.exiting then s
  else
    match evt.mode with
    | .map => s.mapKeyboardMode b evt
    | .translate => s.translateKeyboardMode b evt
    | _ => s.legacyKeyboardMode b evt

end State

/-- The key event that `lock_screen` presses and releases, on a thread of its own: the
    `LockScreen` key starts one. -/
def lockScreenEvent (down : Bool) : KeyEvent :=
  { down, union := some (.chr 108), modifiers := [ControlKey.meta_], mode := .legacy }

/-- What happens to the keys, in whatever order. -/
inductive Event where
  | handleKey (evt : KeyEvent)
  | fixKeyDownTimeout (force : Bool) (expired : KeysDown → Bool)
  | fixKeyDownTimeoutAtExit

def step {κ : Type} [DecidableEq κ] (b : Backend κ) (s : State κ) : Event → State κ
  | .handleKey evt => s.handleKey_ b evt
  | .fixKeyDownTimeout force expired => s.fixKeyDownTimeout b force expired
  | .fixKeyDownTimeoutAtExit => s.fixKeyDownTimeoutAtExit b

end RemoteControl.Keyboard
