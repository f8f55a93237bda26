import RemoteControl.Config.CustomServer
import RemoteControl.Host.Connection

/-! # Key events of the client

`process_event` of `keyboard.rs` turns a press or release of a local key into the key events that the
peer gets: by name in the `Legacy` mode, by the code of the key in the `Map` mode and as text, if
there is any, in the `Translate` mode. The events of the keys that are down are kept in `TO_RELEASE`
for `release_remote_keys`.
-/

namespace RemoteControl.LocalKeyboard

open CustomServers (isWhitespace)
open Host (TargetOs)
open Lowercase (CaseTables utf8Len)
open Runs

abbrev Text := List Char

/-- The keys of rdev; all that the code does not name are in `other`. -/
inductive Key where
  | alt | altGr | backspace | capsLock | controlLeft | controlRight | delete | downArrow | end_
  | escape | f1 | f10 | f11 | f12 | f2 | f3 | f4 | f5 | f6 | f7 | f8 | f9 | home | leftArrow
  | metaLeft | metaRight | pageDown | pageUp | return_ | rightArrow | shiftLeft | shiftRight | space
  | tab | upArrow | printScreen | scrollLock | pause | numLock | backQuote | num1 | num2 | num3
  | num4 | num5 | num6 | num7 | num8 | num9 | num0 | minus | equal | keyQ | keyW | keyE | keyR
  | keyT | keyY | keyU | keyI | keyO | keyP | leftBracket | rightBracket | keyA | keyS | keyD | keyF
  | keyG | keyH | keyJ | keyK | keyL | semiColon | quote | backSlash | keyZ | keyX | keyC | keyV
  | keyB | keyN | keyM | comma | dot | slash | insert | kpReturn | kpMinus | kpPlus | kpMultiply
  | kpDivide | kp0 | kp1 | kp2 | kp3 | kp4 | kp5 | kp6 | kp7 | kp8 | kp9 | kpDecimal | apps
  | cancel | clear | kana | hangul | junja | final_ | hanja | hanji | lang2 | print | select
  | execute | help | sleep | separator
  | other (name : Nat)
  deriving DecidableEq

inductive ControlKey where
  | alt | backspace | capsLock | control | delete | downArrow | end_ | escape | f1 | f10 | f11
  | f12 | f2 | f3 | f4 | f5 | f6 | f7 | f8 | f9 | home | leftArrow | meta_ | pageDown | pageUp
  | return_ | rightArrow | shift | space | tab | upArrow | numpad0 | numpad1 | numpad2 | numpad3
  | numpad4 | numpad5 | numpad6 | numpad7 | numpad8 | numpad9 | cancel | clear | pause | kana
  | hangul | junja | final_ | hanja | convert | select | print | execute | snapshot | insert
  | help | sleep | separator | numLock | rWin | apps | multiply | add | subtract | decimal
  | divide | numpadEnter | rShift | rControl | rAlt | ctrlAltDel | lockScreen
  deriving DecidableEq

inductive KeyboardMode where
  | legacy | map | translate
  deriving DecidableEq

inductive Payload where
  | controlKey (ck : ControlKey)
  | chr (chr : UInt32)
  | seq (seq : Text)
  | win2winHotkey (code : UInt32)
  deriving DecidableEq

structure KeyEvent where
  down : Bool := false
  press : Bool := false
  union : Option Payload := none
  modifiers : List ControlKey := []
  mode : KeyboardMode := .legacy
  deriving DecidableEq

inductive EventType where
  | keyPress (key : Key)
  | keyRelease (key : Key)
  deriving DecidableEq

structure UnicodeInfo where
  name : Option Text
  isDead : Bool
  deriving DecidableEq

structure Event where
  eventType : EventType
  unicode : Option UnicodeInfo := none
  platformCode : UInt32 := 0
  positionCode : UInt32 := 0
  usbHid : UInt32 := 0
  deriving DecidableEq

def EventType.key : EventType → Key
  | .keyPress key | .keyRelease key => key

def Event.key (event : Event) : Key := event.eventType.key

/-- What the machine says of its keys while one event is handled. -/
structure Machine where
  numLock : Bool := false
  capsLock : Bool := false
  alt : Bool := false
  control : Bool := false
  rightControl : Bool := false
  shift : Bool := false
  rightShift : Bool := false
  meta_ : Bool := false
  /-- `get_win_key_state` -/
  winKey : Bool := false
  /-- `rdev::get_modifier` -/
  modifier : Key → Bool := fun _ => false
  is0x021dDown : Bool := false
  isLeftOptionDown : Bool := false
  /-- `get_unicode_from_vk` -/
  unicodeFromVk : UInt32 → Option UInt16 := fun _ => none

/-- One call of `process_event`. -/
structure Stroke where
  event : Event
  lockModes : Option Int32 := none
  here : Machine := {}

def Stroke.key (x : Stroke) : Key := x.event.key

/-- `is_press` -/
def Stroke.isPress (x : Stroke) : Bool :=
  match x.event.eventType with
  | .keyPress _ => true
  | .keyRelease _ => false

/-- The tables of rdev between the key codes of two systems. -/
structure Codes where
  winScancodeToMacosIsoCode : UInt32 → Option UInt32
  winScancodeToMacosCode : UInt32 → Option UInt32
  winScancodeToAndroidKeyCode : UInt32 → Option UInt32
  winScancodeToLinuxCode : UInt32 → Option UInt32
  macosCodeToWinScancode : UInt32 → Option UInt32
  macosCodeToAndroidKeyCode : UInt32 → Option UInt32
  macosCodeToLinuxCode : UInt32 → Option UInt32
  linuxCodeToWinScancode : UInt32 → Option UInt32
  linuxCodeToMacosIsoCode : UInt32 → Option UInt32
  linuxCodeToMacosCode : UInt32 → Option UInt32
  linuxCodeToAndroidKeyCode : UInt32 → Option UInt32
  usbHidCodeToWinScancode : UInt32 → Option UInt32
  usbHidCodeToLinuxCode : UInt32 → Option UInt32
  usbHidCodeToMacosIsoCode : UInt32 → Option UInt32
  usbHidCodeToMacosCode : UInt32 → Option UInt32
  usbHidCodeToAndroidKeyCode : UInt32 → Option UInt32

structure Setting where
  os : TargetOs
  /-- `get_peer_platform` -/
  peerPlatform : Text
  keyboardMode : Text
  /-- `get_kb_layout_type` is `ISO`. -/
  isoLayout : Bool
  codes : Codes
  tables : CaseTables

namespace Setting

variable (st : Setting)

def isWin : Bool := st.peerPlatform = "Windows".toList

/-- The platform as `event_to_key_events` compares it. -/
def peer : Text := (st.tables.toLowercase st.peerPlatform).filter (!isWhitespace ·)

def isMobile : Bool := st.os = .android || st.os = .ios

/-- `get_keyboard_mode_enum` -/
def mode : KeyboardMode :=
  if st.keyboardMode = "map".toList then .map
  else if st.keyboardMode = "translate".toList then .translate
  else if st.keyboardMode = "legacy".toList then .legacy
  else .map

/-- `get_key_state` of the NumLock key, which macOS does not have. -/
def numLock (here : Machine) : Bool := st.os = .macos || here.numLock

end Setting

/-- A key event with the event that it was sent for. -/
structure Sent where
  stroke : Stroke
  evt : KeyEvent

structure State where
  modifiersState : Key → Bool := fun _ => false
  toRelease : AList fun _ : Key => Event := ∅
  isAltGr : Bool := false
  sent : List Sent := []

def isModifier : Key → Bool
  | .shiftLeft | .shiftRight | .controlLeft | .controlRight | .metaLeft | .metaRight | .alt
  | .altGr => true
  | _ => false

def isNumpadRdevKey : Key → Bool
  | .kp0 | .kp1 | .kp2 | .kp3 | .kp4 | .kp5 | .kp6 | .kp7 | .kp8 | .kp9 | .kpMinus | .kpMultiply
  | .kpDivide | .kpPlus | .kpDecimal => true
  | _ => false

def isLetterRdevKey : Key → Bool
  | .keyA | .keyB | .keyC | .keyD | .keyE | .keyF | .keyG | .keyH | .keyI | .keyJ | .keyK | .keyL
  | .keyM | .keyN | .keyO | .keyP | .keyQ | .keyR | .keyS | .keyT | .keyU | .keyV | .keyW | .keyX
  | .keyY | .keyZ => true
  | _ => false

def isLetterRdevKeyEx : Key → Bool
  | .leftBracket | .rightBracket | .semiColon | .quote | .comma | .dot => true
  | _ => false

def isLetterKey4LockModes (key : Key) : Bool := isLetterRdevKey key || isLetterRdevKeyEx key

def parseAddLockModesModifiers (lockModes : Int32) (isNumpadKey isLetterKey : Bool)
    (evt : KeyEvent) : KeyEvent :=
  let capsLock : List ControlKey := if isLetterKey ∧ lockModes &&& 2 ≠ 0 then [.capsLock] else []
  let numLock : List ControlKey := if isNumpadKey ∧ lockModes &&& 4 ≠ 0 then [.numLock] else []
  { evt with modifiers := evt.modifiers ++ capsLock ++ numLock }

def addLockModesModifiers (st : Setting) (here : Machine) (isNumpadKey isLetterKey : Bool)
    (evt : KeyEvent) : KeyEvent :=
  let capsLock : List ControlKey := if isLetterKey && here.capsLock then [.capsLock] else []
  let numLock : List ControlKey := if isNumpadKey && st.numLock here then [.numLock] else []
  { evt with modifiers := evt.modifiers ++ capsLock ++ numLock }

/-- The lock keys are told with the keys that they matter to. -/
def withLockModes (st : Setting) (x : Stroke) (evt : KeyEvent) : KeyEvent :=
  let isNumpadKey := isNumpadRdevKey x.key
  let isLetterKey := isLetterKey4LockModes x.key
  match x.lockModes with
  | some lockModes => parseAddLockModesModifiers lockModes isNumpadKey isLetterKey evt
  | none => if st.isMobile then evt else addLockModesModifiers st x.here isNumpadKey isLetterKey evt

def convertNumpadKeys (numLock : Bool) (key : Key) : Key :=
  if numLock then key
  else
    match key with
    | .kp0 => .insert
    | .kpDecimal => .delete
    | .kp1 => .end_
    | .kp2 => .downArrow
    | .kp3 => .pageDown
    | .kp4 => .leftArrow
    | .kp5 => .clear
    | .kp6 => .rightArrow
    | .kp7 => .home
    | .kp8 => .upArrow
    | .kp9 => .pageUp
    | _ => key

/-- The control keys of `legacy_keyboard_mode`. -/
def controlKey : Key → Option ControlKey
  | .alt => some .alt
  | .altGr => some .rAlt
  | .backspace => some .backspace
  | .controlLeft => some .control
  | .controlRight => some .rControl
  | .downArrow => some .downArrow
  | .escape => some .escape
  | .f1 => some .f1
  | .f10 => some .f10
  | .f11 => some .f11
  | .f12 => some .f12
  | .f2 => some .f2
  | .f3 => some .f3
  | .f4 => some .f4
  | .f5 => some .f5
  | .f6 => some .f6
  | .f7 => some .f7
  | .f8 => some .f8
  | .f9 => some .f9
  | .leftArrow => some .leftArrow
  | .metaLeft => some .meta_
  | .metaRight => some .rWin
  | .return_ => some .return_
  | .rightArrow => some .rightArrow
  | .shiftLeft => some .shift
  | .shiftRight => some .rShift
  | .space => some .space
  | .tab => some .tab
  | .upArrow => some .upArrow
  | .delete => some .delete
  | .apps => some .apps
  | .cancel => some .cancel
  | .clear => some .clear
  | .kana => some .kana
  | .hangul => some .hangul
  | .junja => some .junja
  | .final_ => some .final_
  | .hanja => some .hanja
  | .hanji => some .hanja
  | .lang2 => some .convert
  | .print => some .print
  | .select => some .select
  | .execute => some .execute
  | .printScreen => some .snapshot
  | .help => some .help
  | .sleep => some .sleep
  | .separator => some .separator
  | .kpReturn => some .numpadEnter
  | .kp0 => some .numpad0
  | .kp1 => some .numpad1
  | .kp2 => some .numpad2
  | .kp3 => some .numpad3
  | .kp4 => some .numpad4
  | .kp5 => some .numpad5
  | .kp6 => some .numpad6
  | .kp7 => some .numpad7
  | .kp8 => some .numpad8
  | .kp9 => some .numpad9
  | .kpDivide => some .divide
  | .kpMultiply => some .multiply
  | .kpDecimal => some .decimal
  | .kpMinus => some .subtract
  | .kpPlus => some .add
  | .home => some .home
  | .end_ => some .end_
  | .insert => some .insert
  | .pageUp => some .pageUp
  | .pageDown => some .pageDown
  | .pause => some .pause
  | _ => none

def nul : Char := Char.ofNat 0

def backQuote : Char := Char.ofNat 0x60

/-- The character of a key on a keyboard of the US. -/
def keyChar : Key → Char
  | .num1 => '1'
  | .num2 => '2'
  | .num3 => '3'
  | .num4 => '4'
  | .num5 => '5'
  | .num6 => '6'
  | .num7 => '7'
  | .num8 => '8'
  | .num9 => '9'
  | .num0 => '0'
  | .keyA => 'a'
  | .keyB => 'b'
  | .keyC => 'c'
  | .keyD => 'd'
  | .keyE => 'e'
  | .keyF => 'f'
  | .keyG => 'g'
  | .keyH => 'h'
  | .keyI => 'i'
  | .keyJ => 'j'
  | .keyK => 'k'
  | .keyL => 'l'
  | .keyM => 'm'
  | .keyN => 'n'
  | .keyO => 'o'
  | .keyP => 'p'
  | .keyQ => 'q'
  | .keyR => 'r'
  | .keyS => 's'
  | .keyT => 't'
  | .keyU => 'u'
  | .keyV => 'v'
  | .keyW => 'w'
  | .keyX => 'x'
  | .keyY => 'y'
  | .keyZ => 'z'
  | .comma => ','
  | .dot => '.'
  | .semiColon => ';'
  | .quote => Char.ofNat 39
  | .leftBracket => '['
  | .rightBracket => ']'
  | .slash => '/'
  | .backSlash => Char.ofNat 92
  | .minus => '-'
  | .equal => '='
  | .backQuote => backQuote
  | _ => nul

/-- The character that an event has by its name, or else by its key. -/
def legacyChar (event : Event) (key : Key) : Char :=
  let chr :=
    match event.unicode.bind UnicodeInfo.name with
    | some s => if utf8Len s ≤ 2 then s.head?.getD nul else nul
    | none => nul
  -- A middle dot stands for the key of the back quote.
  let chr := if chr = Char.ofNat 0xB7 then backQuote else chr
  if chr = nul then keyChar key else chr

def isControlKey (evt : KeyEvent) (ck : ControlKey) : Bool := evt.union = some (.controlKey ck)

def legacyModifiers (evt : KeyEvent) (alt ctrl shift command : Bool) : KeyEvent :=
  let add (held : Bool) (left right : ControlKey) (evt : KeyEvent) : KeyEvent :=
    if held && !isControlKey evt left && !isControlKey evt right then
      { evt with modifiers := evt.modifiers ++ [left] }
    else evt
  add command .meta_ .rWin <| add ctrl .control .rControl <| add shift .shift .rShift <|
    add alt .alt .rAlt evt

def eventLockScreen : KeyEvent := { union := some (.controlKey .lockScreen), down := true }

def eventCtrlAltDel (st : Setting) : KeyEvent :=
  if st.isWin then { union := some (.controlKey .ctrlAltDel), down := true }
  else { legacyModifiers { union := some (.controlKey .delete) } true true false false with
    press := true }

/-- What an event comes to: the state behind it, what is sent at once, and what is sent then. -/
structure Made where
  state : State
  direct : List KeyEvent := []
  events : List KeyEvent := []

/-- The key that the event is about. -/
def legacyKey (st : Setting) (x : Stroke) : Key :=
  if st.isWin then convertNumpadKeys (st.numLock x.here) x.key else x.key

def command (st : Setting) (here : Machine) : Bool :=
  if st.os = .windows then here.winKey else here.meta_

/-- The Ctrl that comes with AltGr has a scan code of its own. -/
def isExtraCtrl (st : Setting) (x : Stroke) : Bool :=
  legacyKey st x = .controlLeft && st.os = .windows && x.event.positionCode >>> 8 = 0xE0

def isLockKey : Key → Bool
  | .capsLock | .numLock | .scrollLock => true
  | _ => false

/-- Win+L locks the screen of the peer. -/
def isWinL (st : Setting) (x : Stroke) : Bool :=
  legacyChar x.event (legacyKey st x) = 'l' && st.isWin && command st x.here

namespace State

variable (st : Setting) (s : State)

/-- Ctrl, and what is left of `IS_ALT_GR`. The Ctrl that comes with AltGr does not count. -/
def legacyCtrl (x : Stroke) : Bool × Bool :=
  let tmp := x.here.control || x.here.rightControl
  if st.os = .windows ∧ s.isAltGr then
    if x.here.alt ∨ legacyKey st x = .altGr then (false, true) else (tmp, false)
  else (tmp, s.isAltGr)

/-- Ctrl+Alt+Del, which the peer is told at once. -/
def isCtrlAltDel (x : Stroke) : Bool :=
  legacyKey st x = .delete && st.isWin && (s.legacyCtrl st x).1 && x.here.alt

def getModifiersState (alt ctrl shift command : Bool) : Bool × Bool × Bool × Bool :=
  (s.modifiersState .alt || s.modifiersState .altGr || alt,
    s.modifiersState .controlLeft || s.modifiersState .controlRight || ctrl,
    s.modifiersState .shiftLeft || s.modifiersState .shiftRight || shift,
    s.modifiersState .metaLeft || s.modifiersState .metaRight || command)

/-- The end of `legacy_keyboard_mode`, for an event that is sent. -/
def legacyEvent (x : Stroke) (ctrl : Bool) (evt : KeyEvent) : KeyEvent :=
  let (alt, ctrl, shift, command) := s.getModifiersState x.here.alt ctrl
    (x.here.shift || x.here.rightShift) (command st x.here)
  let evt := legacyModifiers evt alt ctrl shift command
  if x.isPress then { evt with down := true } else evt

def legacyKeyboardMode (x : Stroke) (evt : KeyEvent) : Made :=
  let key := legacyKey st x
  let ctrl := (s.legacyCtrl st x).1
  let after := { s with isAltGr := (s.legacyCtrl st x).2 }
  if isExtraCtrl st x then { state := { after with isAltGr := true } }
  else if s.isCtrlAltDel st x then { state := after, direct := [eventCtrlAltDel st] }
  else if isLockKey key then { state := after }
  else
    match controlKey key with
    | some ck =>
        { state := after, events := [s.legacyEvent st x ctrl { evt with union := some (.controlKey ck) }] }
    | none =>
        let chr := legacyChar x.event key
        if chr = nul then { state := after }
        else if isWinL st x then { state := after, direct := [eventLockScreen] }
        else { state := after, events := [s.legacyEvent st x ctrl { evt with union := some (.chr chr.val) }] }

end State

def osLowerWindows : Text := "windows".toList

def osLowerLinux : Text := "linux".toList

def osLowerMacos : Text := "macos".toList

def osLowerAndroid : Text := "android".toList

/-- The code of a key for the peer. -/
def keycode (st : Setting) (event : Event) : Option UInt32 :=
  match st.os with
  | .windows =>
      if st.peer = osLowerWindows then
        if event.positionCode > 255 ∧ event.positionCode >>> 8 ≠ 0xE0 then none
        else some event.positionCode
      else if st.peer = osLowerMacos then
        if st.isoLayout then st.codes.winScancodeToMacosIsoCode event.positionCode
        else st.codes.winScancodeToMacosCode event.positionCode
      else if st.peer = osLowerAndroid then st.codes.winScancodeToAndroidKeyCode event.positionCode
      else st.codes.winScancodeToLinuxCode event.positionCode
  | .macos =>
      if st.peer = osLowerWindows then st.codes.macosCodeToWinScancode event.platformCode
      else if st.peer = osLowerMacos then some event.platformCode
      else if st.peer = osLowerAndroid then st.codes.macosCodeToAndroidKeyCode event.platformCode
      else st.codes.macosCodeToLinuxCode event.platformCode
  | .linux =>
      if st.peer = osLowerWindows then st.codes.linuxCodeToWinScancode event.positionCode
      else if st.peer = osLowerMacos then
        if st.isoLayout then st.codes.linuxCodeToMacosIsoCode event.positionCode
        else st.codes.linuxCodeToMacosCode event.positionCode
      else if st.peer = osLowerAndroid then st.codes.linuxCodeToAndroidKeyCode event.positionCode
      else some event.positionCode
  | .android | .ios =>
      if st.peer = osLowerWindows then st.codes.usbHidCodeToWinScancode event.usbHid
      else if st.peer = osLowerLinux then st.codes.usbHidCodeToLinuxCode event.usbHid
      else if st.peer = osLowerMacos then
        if st.isoLayout then st.codes.usbHidCodeToMacosIsoCode event.usbHid
        else st.codes.usbHidCodeToMacosCode event.usbHid
      else if st.peer = osLowerAndroid then st.codes.usbHidCodeToAndroidKeyCode event.usbHid
      else some event.usbHid

def mapKeyboardMode (st : Setting) (x : Stroke) (evt : KeyEvent) : List KeyEvent :=
  match keycode st x.event with
  | some code => [{ evt with down := x.isPress, union := some (.chr code) }]
  | none => []

def isHotKeyModifiersDown (here : Machine) : Bool :=
  here.modifier .controlLeft || here.modifier .controlRight || here.modifier .alt ||
    here.modifier .altGr || here.modifier .metaLeft || here.modifier .metaRight

/-- `get_char_from_unicode` -/
def getCharFromUnicode (unicode : UInt16) : Option Char :=
  let n := unicode.toNat
  if n.isValidChar ∧ 0x20 ≤ n ∧ ¬(0x7F ≤ n ∧ n < 0xA0) then some (Char.ofNat n) else none

def tryFillUnicode (st : Setting) (x : Stroke) (evt : KeyEvent) : List KeyEvent :=
  match x.event.unicode with
  | some info =>
      match info.name with
      | some name => if name = [] then [] else [{ evt with union := some (.seq name), down := true }]
      | none => []
  | none =>
      if st.os = .windows ∧ st.peer = osLowerLinux ∧ isHotKeyModifiersDown x.here ∧
          ¬x.here.is0x021dDown then
        match (x.here.unicodeFromVk x.event.platformCode).bind getCharFromUnicode with
        | some chr => [{ evt with union := some (.seq [chr]), down := true }]
        | none => []
      else []

/-- The condition of `try_fill_win2win_hotkey`. -/
def isWin2winHotkey (st : Setting) (here : Machine) : Bool :=
  st.peer = osLowerWindows && isHotKeyModifiersDown here && !here.is0x021dDown

def tryFillWin2winHotkey (st : Setting) (x : Stroke) (evt : KeyEvent) : List KeyEvent :=
  if isWin2winHotkey st x.here then
    if x.isPress then
      match x.here.unicodeFromVk x.event.platformCode with
      | some unicode =>
          let code : UInt32 := (unicode.toUInt32 &&& (0xFFFF : UInt32)) ||| (x.event.platformCode <<< 16)
          [{ evt with union := some (.win2winHotkey code), down := true }]
      | none => []
    else [{ evt with union := some (.win2winHotkey (x.event.platformCode <<< 16)), down := false }]
  else []

def isAltgr (st : Setting) (x : Stroke) : Bool :=
  match st.os with
  | .linux => x.event.platformCode = 0xFE03
  | .windows => x.here.is0x021dDown && x.event.positionCode = 0xE038
  | .macos | .android | .ios => false

def kVKRightOption : UInt32 := 0x3D

/-- A dead key that is left to the key behind it. -/
def isDeadKey (st : Setting) (x : Stroke) : Bool :=
  match x.event.unicode with
  | some info =>
      info.isDead && !(st.os = .macos && st.peer ≠ osLowerMacos && x.here.isLeftOptionDown)
  | none => false

/-- The right Option key of macOS, AltGr, and what comes with AltGr on Windows, are not sent. -/
def isSilentKey (st : Setting) (x : Stroke) : Bool :=
  st.os = .macos && x.event.platformCode = kVKRightOption || isAltgr st x ||
    st.os = .windows && x.event.positionCode = 0x021D

/-- The end of `translate_keyboard_mode`, for a key outside the numpad. -/
def translateEvents (st : Setting) (x : Stroke) (evt : KeyEvent) : List KeyEvent :=
  let events := if st.os = .windows then tryFillWin2winHotkey st x evt else []
  let events :=
    if (st.os = .linux ∨ st.os = .windows) ∧ events = [] ∧ x.isPress then tryFillUnicode st x evt
    else events
  -- With AltGr nothing but the text is sent.
  if st.os = .windows ∧ x.here.is0x021dDown then events
  else
    let events :=
      if st.os = .macos ∧ ¬x.here.isLeftOptionDown then events ++ tryFillUnicode st x evt else events
    if events = [] then mapKeyboardMode st x evt else events

def translateKeyboardMode (st : Setting) (x : Stroke) (evt : KeyEvent) : List KeyEvent :=
  if isDeadKey st x then []
  else if !st.isMobile && isNumpadRdevKey x.key then mapKeyboardMode st x evt
  else if isSilentKey st x then []
  else translateEvents st x evt

namespace State

variable (st : Setting) (s : State)

/-- A modifier that is down is pressed again. -/
def isLongPress (event : Event) : Bool :=
  match event.eventType with
  | .keyPress key => isModifier key && s.modifiersState key
  | .keyRelease _ => false

def updateModifiersState (x : Stroke) : State :=
  if isModifier x.key then
    { s with modifiersState := Function.update s.modifiersState x.key x.isPress }
  else s

def updateToRelease (event : Event) : State :=
  match event.eventType with
  | .keyPress key => { s with toRelease := s.toRelease.insert key event }
  | .keyRelease key => { s with toRelease := s.toRelease.erase key }

/-- What the mode makes of the event. -/
def made (x : Stroke) : Made :=
  let evt : KeyEvent := { mode := st.mode }
  match st.mode with
  | .map => { state := s, events := mapKeyboardMode st x evt }
  | .translate => { state := s, events := translateKeyboardMode st x evt }
  | .legacy => if st.isMobile then { state := s } else s.legacyKeyboardMode st x evt

def eventToKeyEvents (x : Stroke) : Made :=
  let s := (s.updateModifiersState x).updateToRelease x.event
  let made := s.made st x
  if st.mode ≠ .translate ∨ isNumpadRdevKey x.key then
    { made with events := made.events.map (withLockModes st x) }
  else made

def processEvent (x : Stroke) : State :=
  if s.isLongPress x.event then s
  else
    let made := s.eventToKeyEvents st x
    { made.state with sent := made.state.sent ++ (made.direct ++ made.events).map (Sent.mk x) }

end State

/-- An order in which the hash map is gone through. -/
structure Visit where
  visit : List Key → List Key
  perm : ∀ keys, (visit keys).Perm keys

/-- What the machine says while one key is released: for its release, and for the press and the
release that follow if it is Alt or AltGr. -/
structure Machines where
  release : Machine := {}
  press : Machine := {}
  releaseAgain : Machine := {}

def releaseStrokes (key : Key) (event : Event) (machines : Machines) : List Stroke :=
  let release := { event with eventType := .keyRelease key }
  let press := { event with eventType := .keyPress key }
  let stroke (event : Event) (here : Machine) : Stroke := { event, here }
  stroke release machines.release ::
    if key = .alt ∨ key = .altGr then
      [stroke press machines.press, stroke release machines.releaseAgain]
    else []

def strokesOf (events : AList fun _ : Key => Event) (machines : Key → Machines) (key : Key) :
    List Stroke :=
  match events.lookup key with
  | some event => releaseStrokes key event (machines key)
  | none => []

/-- The calls of `process_event` by `release_remote_keys`. -/
def State.strokes (s : State) (visit : Visit) (machines : Key → Machines) : List Stroke :=
  (visit.visit s.toRelease.keys).flatMap fun key => strokesOf s.toRelease machines key

def State.releaseRemoteKeys (st : Setting) (s : State) (visit : Visit) (machines : Key → Machines) :
    State :=
  exec (State.processEvent st) { s with toRelease := ∅ } (s.strokes visit machines)

inductive Call where
  | processEvent (x : Stroke)
  | releaseRemoteKeys (visit : Visit) (machines : Key → Machines)

def step (st : Setting) (s : State) : Call → State
  | .processEvent x => s.processEvent st x
  | .releaseRemoteKeys visit machines => s.releaseRemoteKeys st visit machines

end RemoteControl.LocalKeyboard
