import RemoteControl.Keyboard.LocalEvents

/-! # Local keys that are released

What a local key has put down on the peer is put up when the key is released, or by
`release_remote_keys`, as long as the release is read like the press. Between the two, NumLock may
change and with it the name of a key, the name of the text, or the modifiers that make a hot key
of a code; AltGr and dead keys keep a release from being sent, and Ctrl+Alt+Del and Win+L have no
release at all.
-/

namespace RemoteControl.LocalKeyboard

open Runs

/-- What a key event presses or releases. -/
inductive Code where
  | controlKey (ck : ControlKey)
  | chr (chr : UInt32)
  | hotkey (virtualKey : UInt32)
  deriving DecidableEq

/-- A text has no code, and a hot key has its virtual key in the high word. -/
def KeyEvent.code (evt : KeyEvent) : Option Code :=
  match evt.union with
  | some (.controlKey ck) => some (.controlKey ck)
  | some (.chr chr) => some (.chr chr)
  | some (.win2winHotkey code) => some (.hotkey (code >>> 16))
  | some (.seq _) => none
  | none => none

/-- A key event that has put a code down, with none behind it that puts the code up. -/
def Owed (sent : List Sent) (e : Sent) : Prop :=
  ∃ before after, sent = before ++ e :: after ∧ e.evt.down = true ∧ e.evt.code ≠ none ∧
    ∀ later ∈ after, later.evt.down = false → later.evt.code ≠ e.evt.code

/-- When a key is released, or all are, the codes that it has put down were put up. -/
def Keeps (st : Setting) (s : State) : Call → Prop
  | .processEvent x => x.isPress = false →
      ∀ e, Owed (s.processEvent st x).sent e → e.stroke.key ≠ x.key
  | .releaseRemoteKeys visit machines => ∀ e, ¬Owed (s.releaseRemoteKeys st visit machines).sent e

/-- A `Legacy` event that is Win+L: the key has no other name. -/
def isLockScreen (st : Setting) (x : Stroke) : Bool :=
  !isLockKey (legacyKey st x) && (controlKey (legacyKey st x)).isNone && isWinL st x

/-- An event that is sent at once as a command. -/
def isCommand (st : Setting) (s : State) (x : Stroke) : Bool :=
  match st.mode with
  | .map | .translate => false
  | .legacy => !st.isMobile && (s.isCtrlAltDel st x || isLockScreen st x)

structure LegacyAgrees (st : Setting) (p r : Stroke) : Prop where
  numLock : legacyKey st r = legacyKey st p
  ctrl : isExtraCtrl st r = false
  name : controlKey (legacyKey st r) = none →
    legacyChar r.event (legacyKey st r) = legacyChar p.event (legacyKey st p)

/-- An event that `try_fill_win2win_hotkey` is about. -/
def asHotkey (st : Setting) (x : Stroke) : Bool := st.os = .windows && isWin2winHotkey st x.here

/-- A press that is sent as a hot key. -/
def pressedAsHotkey (st : Setting) (p : Stroke) : Bool :=
  asHotkey st p && (p.here.unicodeFromVk p.event.platformCode).isSome

def virtualKey (x : Stroke) : UInt32 := (x.event.platformCode <<< 16) >>> 16

def hasText (st : Setting) (x : Stroke) : Bool := tryFillUnicode st x { mode := st.mode } ≠ []

/-- A key outside the numpad. -/
structure PlainAgrees (st : Setting) (p r : Stroke) : Prop where
  loud : isSilentKey st r = false
  hotkey : asHotkey st r = pressedAsHotkey st p
  virtualKey : asHotkey st r = true → virtualKey r = virtualKey p
  held : asHotkey st r = false → ¬(st.os = .windows ∧ r.here.is0x021dDown = true)
  text : asHotkey st r = false →
    ¬(st.os = .macos ∧ r.here.isLeftOptionDown = false ∧ hasText st r = true)
  code : asHotkey st r = false → keycode st r.event = keycode st p.event

/-- A key of the numpad, which the mobile platforms do not tell apart. -/
def isNumpad (st : Setting) (key : Key) : Bool := !st.isMobile && isNumpadRdevKey key

structure TranslateAgrees (st : Setting) (p r : Stroke) : Prop where
  alive : isDeadKey st r = false
  numpad : isNumpad st r.key = true → keycode st r.event = keycode st p.event
  plain : isNumpad st r.key = false → PlainAgrees st p r

def Agrees (st : Setting) (p r : Stroke) : Prop :=
  match st.mode with
  | .map => keycode st r.event = keycode st p.event
  | .translate => TranslateAgrees st p r
  | .legacy => LegacyAgrees st p r

/-- The codes of Ctrl+Alt+Del and Win+L, which have no release. -/
def commands : List Code := [.controlKey .ctrlAltDel, .controlKey .lockScreen]

/-- A release is no command, and it is read like the presses that have put down what is down for
its key, which are no commands either. -/
def MeetsStroke (st : Setting) (s : State) (x : Stroke) : Prop :=
  x.isPress = false → isCommand st s x = false ∧ ∀ e, Owed s.sent e → e.stroke.key = x.key →
    (∀ c ∈ commands, e.evt.code ≠ some c) ∧ Agrees st e.stroke x

def Meets (st : Setting) (s : State) : Call → Prop
  | .processEvent x => MeetsStroke st s x
  | .releaseRemoteKeys visit machines =>
      Along (State.processEvent st) (MeetsStroke st) { s with toRelease := ∅ } (s.strokes visit machines)

/-! ## The codes of an event -/

/-- The codes that key events put down or up. -/
def signals (evts : List KeyEvent) : List (Bool × Code) :=
  evts.filterMap fun evt => evt.code.map (evt.down, ·)

def mapCode (st : Setting) (x : Stroke) : Option Code := (keycode st x.event).map .chr

def legacyCode (st : Setting) (x : Stroke) : Option Code :=
  if isExtraCtrl st x || isLockKey (legacyKey st x) then none
  else
    match controlKey (legacyKey st x) with
    | some ck => some (.controlKey ck)
    | none =>
        let chr := legacyChar x.event (legacyKey st x)
        if chr = nul then none else some (.chr chr.val)

/-- A press is sent as a hot key if it has a character, a release always. -/
def sentAsHotkey (st : Setting) (x : Stroke) : Bool :=
  asHotkey st x && (!x.isPress || pressedAsHotkey st x)

def plainCode (st : Setting) (x : Stroke) : Option Code :=
  if sentAsHotkey st x then some (.hotkey (virtualKey x))
  else if st.os = .windows ∧ x.here.is0x021dDown then none
  else if (st.os = .linux ∨ st.os = .windows) ∧ x.isPress ∧ hasText st x then none
  else if st.os = .macos ∧ x.here.isLeftOptionDown = false ∧ hasText st x then none
  else mapCode st x

def translateCode (st : Setting) (x : Stroke) : Option Code :=
  if isDeadKey st x then none
  else if isNumpad st x.key then mapCode st x
  else if isSilentKey st x then none
  else plainCode st x

/-- The code that an event is read as, if it is no command. -/
def readAs (st : Setting) (x : Stroke) : Option Code :=
  match st.mode with
  | .map => mapCode st x
  | .translate => translateCode st x
  | .legacy => if st.isMobile then none else legacyCode st x

section Codes
variable {st : Setting} {s : State} {x p r : Stroke} {evt : KeyEvent} {evts : List KeyEvent} {c : Code}

@[simp] theorem signals_nil : signals [] = [] := rfl

@[simp] theorem signals_append (left right : List KeyEvent) :
    signals (left ++ right) = signals left ++ signals right := List.filterMap_append

theorem mem_signals {down : Bool} :
    (down, c) ∈ signals evts ↔ ∃ evt ∈ evts, evt.down = down ∧ evt.code = some c := by
  simp only [signals, List.mem_filterMap, Option.map_eq_some_iff, Prod.mk.injEq]
  constructor
  · rintro ⟨evt, member, c', isCode, isDown, rfl⟩
    exact ⟨evt, member, isDown, isCode⟩
  · rintro ⟨evt, member, isDown, isCode⟩
    exact ⟨evt, member, c, isCode, isDown, rfl⟩

/-- Neither codes nor presses change with the modifiers. -/
theorem signals_map {f : KeyEvent → KeyEvent}
    (same : ∀ evt, (f evt).code = evt.code ∧ (f evt).down = evt.down) :
    signals (evts.map f) = signals evts := by
  unfold signals
  rw [List.filterMap_map]
  apply List.filterMap_congr
  intro evt _
  simp only [Function.comp_apply, (same evt).1, (same evt).2]

theorem signals_mapKeyboardMode :
    signals (mapKeyboardMode st x evt) = (mapCode st x).toList.map (x.isPress, ·) := by
  unfold mapKeyboardMode mapCode
  cases keycode st x.event with
  | none => rfl
  | some code => rfl

/-- A text puts no code down. -/
theorem signals_tryFillUnicode : signals (tryFillUnicode st x evt) = [] := by
  unfold tryFillUnicode
  split
  · split
    · split
      · rfl
      · rfl
    · rfl
  · split
    · split
      · rfl
      · rfl
    · rfl

theorem highWord (low : UInt16) (high : UInt32) :
    ((low.toUInt32 &&& (0xFFFF : UInt32)) ||| (high <<< 16)) >>> 16 = (high <<< 16) >>> 16 := by
  apply UInt32.toBitVec_inj.mp
  ext i inside
  simp

@[simp] theorem signals_win2winHotkey (down : Bool) (code : UInt32) :
    signals [{ evt with union := some (.win2winHotkey code), down := down }] =
      [(down, .hotkey (code >>> 16))] := rfl

theorem tryFillWin2winHotkey_spec (windows : st.os = .windows) :
    if sentAsHotkey st x then
      signals (tryFillWin2winHotkey st x evt) = [(x.isPress, .hotkey (virtualKey x))] ∧
        tryFillWin2winHotkey st x evt ≠ []
    else tryFillWin2winHotkey st x evt = [] := by
  have same : asHotkey st x = isWin2winHotkey st x.here := by simp [asHotkey, windows]
  unfold tryFillWin2winHotkey sentAsHotkey pressedAsHotkey
  rw [same]
  cases isWin2winHotkey st x.here with
  | false => rfl
  | true =>
      cases x.isPress with
      | false => exact ⟨rfl, by simp⟩
      | true =>
          cases x.here.unicodeFromVk x.event.platformCode with
          | none => rfl
          | some low => simp [highWord, virtualKey]

theorem sentAsHotkey_eq_false (other : st.os ≠ .windows) : sentAsHotkey st x = false := by
  simp [sentAsHotkey, asHotkey, other]

/-- A text is sent instead of the code. -/
theorem signals_textOrCode :
    signals (if tryFillUnicode st x { mode := st.mode } = [] then mapKeyboardMode st x { mode := st.mode }
      else tryFillUnicode st x { mode := st.mode }) =
      (if hasText st x then none else mapCode st x).toList.map (x.isPress, ·) := by
  by_cases text : tryFillUnicode st x { mode := st.mode } = []
  · have none_ : hasText st x = false := by simp [hasText, text]
    rw [if_pos text, none_]
    exact signals_mapKeyboardMode
  · have some_ : hasText st x = true := by simp [hasText, text]
    rw [if_neg text, some_]
    exact signals_tryFillUnicode

theorem signals_translateEvents :
    signals (translateEvents st x { mode := st.mode }) = (plainCode st x).toList.map (x.isPress, ·) := by
  have byCode := @signals_mapKeyboardMode st x { mode := st.mode }
  have byText := @signals_textOrCode st x
  unfold translateEvents plainCode
  cases os : st.os with
  | windows =>
      have hotkey := @tryFillWin2winHotkey_spec st x { mode := st.mode } os
      cases hot : sentAsHotkey st x with
      | true =>
          rw [hot, if_pos rfl] at hotkey
          simp [hotkey.1, hotkey.2]
      | false =>
          rw [hot, if_neg Bool.false_ne_true] at hotkey
          have text : signals (tryFillUnicode st x { mode := st.mode }) = [] := signals_tryFillUnicode
          cases held : x.here.is0x021dDown with
          | true =>
              cases press : x.isPress with
              | false => simp [hotkey]
              | true => simp [hotkey, text]
          | false =>
              cases press : x.isPress with
              | false => simpa [hotkey, press] using byCode
              | true => simpa [hotkey, press] using byText
  | linux =>
      have cold := @sentAsHotkey_eq_false st x (by rw [os]; decide)
      cases press : x.isPress with
      | false => simpa [cold, press] using byCode
      | true => simpa [cold, press] using byText
  | macos =>
      have cold := @sentAsHotkey_eq_false st x (by rw [os]; decide)
      cases held : x.here.isLeftOptionDown with
      | true => simpa [cold] using byCode
      | false => simpa [cold] using byText
  | android =>
      have cold := @sentAsHotkey_eq_false st x (by rw [os]; decide)
      simpa [cold] using byCode
  | ios =>
      have cold := @sentAsHotkey_eq_false st x (by rw [os]; decide)
      simpa [cold] using byCode

theorem signals_translateKeyboardMode :
    signals (translateKeyboardMode st x { mode := st.mode }) =
      (translateCode st x).toList.map (x.isPress, ·) := by
  unfold translateKeyboardMode translateCode
  rw [← isNumpad]
  split
  · rfl
  split
  · exact signals_mapKeyboardMode
  split
  · rfl
  · exact signals_translateEvents

theorem legacyModifiers_same (alt ctrl shift command : Bool) :
    (legacyModifiers evt alt ctrl shift command).union = evt.union ∧
      (legacyModifiers evt alt ctrl shift command).down = evt.down := by
  unfold legacyModifiers
  dsimp only
  constructor
  · repeat' split
    all_goals rfl
  · repeat' split
    all_goals rfl

theorem code_eq {evt' : KeyEvent} (same : evt'.union = evt.union) : evt'.code = evt.code := by
  unfold KeyEvent.code
  rw [same]

theorem signals_legacyEvent (ctrl : Bool) (up : evt.down = false) :
    signals [s.legacyEvent st x ctrl evt] = evt.code.toList.map (x.isPress, ·) := by
  obtain ⟨union, down⟩ := @legacyModifiers_same evt
    (s.getModifiersState x.here.alt ctrl (x.here.shift || x.here.rightShift) (command st x.here)).1
    (s.getModifiersState x.here.alt ctrl (x.here.shift || x.here.rightShift) (command st x.here)).2.1
    (s.getModifiersState x.here.alt ctrl (x.here.shift || x.here.rightShift) (command st x.here)).2.2.1
    (s.getModifiersState x.here.alt ctrl (x.here.shift || x.here.rightShift) (command st x.here)).2.2.2
  have code : (s.legacyEvent st x ctrl evt).code = evt.code := by
    unfold State.legacyEvent
    dsimp only
    split
    · exact code_eq union
    · exact code_eq union
  have pressed : (s.legacyEvent st x ctrl evt).down = x.isPress := by
    unfold State.legacyEvent
    dsimp only
    cases press : x.isPress with
    | false => exact down.trans up
    | true => rfl
  unfold signals
  cases same : evt.code with
  | none => simp [code, same]
  | some c => simp [code, same, pressed]

/-- A command is sent at once, and nothing else. -/
theorem legacyKeyboardMode_of_command (is : (s.isCtrlAltDel st x || isLockScreen st x) = true) :
    (s.legacyKeyboardMode st x evt).events = [] ∧
      ∃ c ∈ commands, signals (s.legacyKeyboardMode st x evt).direct = [(true, c)] := by
  unfold State.legacyKeyboardMode
  by_cases del : s.isCtrlAltDel st x = true
  · have parts := del
    simp only [State.isCtrlAltDel, Bool.and_eq_true, decide_eq_true_eq] at parts
    obtain ⟨⟨⟨isDelete, isWin⟩, _⟩, _⟩ := parts
    have other : isExtraCtrl st x = false := by simp [isExtraCtrl, isDelete]
    have signal : signals [eventCtrlAltDel st] = [(true, .controlKey .ctrlAltDel)] := by
      rw [eventCtrlAltDel, if_pos isWin]
      rfl
    simp only [other, Bool.false_eq_true, if_false, del, if_true]
    exact ⟨trivial, _, List.mem_cons_self, signal⟩
  · have lock : isLockScreen st x = true := (Bool.or_eq_true_iff.mp is).resolve_left del
    simp only [isLockScreen, Bool.and_eq_true, Bool.not_eq_true', Option.isNone_iff_eq_none] at lock
    obtain ⟨⟨notLock, unnamed⟩, isWinL⟩ := lock
    have other : isExtraCtrl st x = false := by
      rw [isExtraCtrl, Bool.and_eq_false_iff, Bool.and_eq_false_iff, decide_eq_false_iff_not]
      refine .inl (.inl fun same => ?_)
      rw [same] at unnamed
      cases unnamed
    have notNul : legacyChar x.event (legacyKey st x) ≠ nul := by
      simp only [LocalKeyboard.isWinL, Bool.and_eq_true, decide_eq_true_eq] at isWinL
      rw [isWinL.1.1]
      decide
    have signal : signals [eventLockScreen] = [(true, .controlKey .lockScreen)] := rfl
    simp only [other, Bool.false_eq_true, if_false, del, notLock, unnamed, notNul, isWinL, if_true]
    exact ⟨trivial, _, List.mem_cons_of_mem _ List.mem_cons_self, signal⟩

/-- What is no command is sent as what it is read as. -/
theorem legacyKeyboardMode_of_plain (up : evt.down = false)
    (plain : (s.isCtrlAltDel st x || isLockScreen st x) = false) :
    (s.legacyKeyboardMode st x evt).direct = [] ∧
      signals (s.legacyKeyboardMode st x evt).events = (legacyCode st x).toList.map (x.isPress, ·) := by
  obtain ⟨notDel, notLockScreen⟩ := Bool.or_eq_false_iff.mp plain
  unfold State.legacyKeyboardMode legacyCode
  cases extra : isExtraCtrl st x with
  | true => exact ⟨rfl, rfl⟩
  | false =>
      simp only [notDel, Bool.false_eq_true, if_false, Bool.false_or]
      cases lock : isLockKey (legacyKey st x) with
      | true => exact ⟨rfl, rfl⟩
      | false =>
          simp only [Bool.false_eq_true, if_false]
          cases named : controlKey (legacyKey st x) with
          | some ck => exact ⟨rfl, signals_legacyEvent _ up⟩
          | none =>
              have notWinL : isWinL st x = false := by simpa [isLockScreen, lock, named] using notLockScreen
              dsimp only
              split
              · exact ⟨rfl, rfl⟩
              · rw [notWinL]
                exact ⟨rfl, signals_legacyEvent _ up⟩

end Codes

section Emitted
variable {st : Setting} {s : State} {x : Stroke}

/-- The key events that are sent for an event. -/
def State.emitted (st : Setting) (s : State) (x : Stroke) : List KeyEvent :=
  if s.isLongPress x.event then []
  else (s.eventToKeyEvents st x).direct ++ (s.eventToKeyEvents st x).events

/-- The state in which the modes see the event. -/
def State.updated (s : State) (x : Stroke) : State :=
  (s.updateModifiersState x).updateToRelease x.event

theorem updateModifiersState_rest :
    (s.updateModifiersState x).sent = s.sent ∧ (s.updateModifiersState x).isAltGr = s.isAltGr ∧
      (s.updateModifiersState x).toRelease = s.toRelease := by
  unfold State.updateModifiersState
  split
  · exact ⟨rfl, rfl, rfl⟩
  · exact ⟨rfl, rfl, rfl⟩

theorem updateToRelease_rest (event : Event) :
    (s.updateToRelease event).sent = s.sent ∧ (s.updateToRelease event).isAltGr = s.isAltGr := by
  unfold State.updateToRelease
  cases event.eventType with
  | keyPress key => exact ⟨rfl, rfl⟩
  | keyRelease key => exact ⟨rfl, rfl⟩

theorem updated_rest : (s.updated x).sent = s.sent ∧ (s.updated x).isAltGr = s.isAltGr :=
  ⟨(updateToRelease_rest x.event).1.trans updateModifiersState_rest.1,
    (updateToRelease_rest x.event).2.trans updateModifiersState_rest.2.1⟩

/-- A press notes its key and a release takes it off. -/
theorem mem_updated {key : Key} :
    key ∈ (s.updated x).toRelease ↔
      if x.isPress then key = x.key ∨ key ∈ s.toRelease else key ≠ x.key ∧ key ∈ s.toRelease := by
  unfold State.updated State.updateToRelease Stroke.isPress Stroke.key Event.key EventType.key
  cases x.event.eventType with
  | keyPress other => simp [updateModifiersState_rest.2.2, AList.mem_insert]
  | keyRelease other => simp [updateModifiersState_rest.2.2, AList.mem_erase]

theorem legacyKeyboardMode_rest {evt : KeyEvent} :
    (s.legacyKeyboardMode st x evt).state.sent = s.sent ∧
      (s.legacyKeyboardMode st x evt).state.toRelease = s.toRelease := by
  unfold State.legacyKeyboardMode
  dsimp only
  split
  · exact ⟨rfl, rfl⟩
  split
  · exact ⟨rfl, rfl⟩
  split
  · exact ⟨rfl, rfl⟩
  split
  · exact ⟨rfl, rfl⟩
  split
  · exact ⟨rfl, rfl⟩
  split
  · exact ⟨rfl, rfl⟩
  · exact ⟨rfl, rfl⟩

theorem withLockModes_same (evt : KeyEvent) :
    (withLockModes st x evt).code = evt.code ∧ (withLockModes st x evt).down = evt.down := by
  unfold withLockModes
  dsimp only
  split
  · exact ⟨rfl, rfl⟩
  · split
    · exact ⟨rfl, rfl⟩
    · exact ⟨rfl, rfl⟩

theorem made_rest :
    (s.made st x).state.sent = s.sent ∧ (s.made st x).state.toRelease = s.toRelease := by
  unfold State.made
  dsimp only
  split
  · exact ⟨rfl, rfl⟩
  · exact ⟨rfl, rfl⟩
  · split
    · exact ⟨rfl, rfl⟩
    · exact legacyKeyboardMode_rest

theorem eventToKeyEvents_made :
    (s.eventToKeyEvents st x).state = ((s.updated x).made st x).state ∧
      signals (s.emitted st x) = if s.isLongPress x.event then [] else
        signals ((s.updated x).made st x).direct ++ signals ((s.updated x).made st x).events := by
  unfold State.emitted State.eventToKeyEvents
  dsimp only
  rw [← State.updated]
  split
  · refine ⟨rfl, ?_⟩
    split
    · rfl
    · rw [signals_append, signals_map withLockModes_same]
  · refine ⟨rfl, ?_⟩
    split
    · rfl
    · rw [signals_append]

/-- The command of an event, or what it is read as. -/
theorem signals_made :
    (isCommand st s x = true → ∃ c ∈ commands,
        signals (s.made st x).direct ++ signals (s.made st x).events = [(true, c)]) ∧
      (isCommand st s x = false →
        signals (s.made st x).direct ++ signals (s.made st x).events =
          (readAs st x).toList.map (x.isPress, ·)) := by
  cases mode : st.mode with
  | map =>
      have plain : isCommand st s x = false := by simp only [isCommand, mode]
      have read : readAs st x = mapCode st x := by simp only [readAs, mode]
      have made : s.made st x =
          { state := s, events := mapKeyboardMode st x { mode := st.mode } } := by
        simp only [State.made, mode]
      rw [plain, read, made]
      exact ⟨by simp, fun _ => signals_mapKeyboardMode⟩
  | translate =>
      have plain : isCommand st s x = false := by simp only [isCommand, mode]
      have read : readAs st x = translateCode st x := by simp only [readAs, mode]
      have made : s.made st x =
          { state := s, events := translateKeyboardMode st x { mode := st.mode } } := by
        simp only [State.made, mode]
      rw [plain, read, made]
      exact ⟨by simp, fun _ => signals_translateKeyboardMode⟩
  | legacy =>
      have is : isCommand st s x = (!st.isMobile && (s.isCtrlAltDel st x || isLockScreen st x)) := by
        simp only [isCommand, mode]
      have read : readAs st x = if st.isMobile then none else legacyCode st x := by
        simp only [readAs, mode]
      have made : s.made st x =
          if st.isMobile then { state := s } else s.legacyKeyboardMode st x { mode := st.mode } := by
        simp only [State.made, mode]
      rw [is, read, made]
      cases mobile : st.isMobile with
      | true => exact ⟨by simp, fun _ => rfl⟩
      | false =>
          simp only [Bool.not_false, Bool.true_and, Bool.false_eq_true, if_false]
          constructor
          · intro is
            obtain ⟨none_, c, member, signal⟩ := @legacyKeyboardMode_of_command st s x { mode := st.mode } is
            exact ⟨c, member, by rw [none_, signal]; rfl⟩
          · intro plain
            obtain ⟨none_, signal⟩ := @legacyKeyboardMode_of_plain st s x { mode := st.mode } rfl plain
            rw [none_, signal]
            rfl

theorem isCommand_updated : isCommand st (s.updated x) x = isCommand st s x := by
  unfold isCommand State.isCtrlAltDel State.legacyCtrl
  rw [updated_rest.2]

theorem not_isLongPress (release : x.isPress = false) : s.isLongPress x.event = false := by
  unfold Stroke.isPress at release
  unfold State.isLongPress
  cases type : x.event.eventType with
  | keyPress key =>
      rw [type] at release
      cases release
  | keyRelease key => rfl

theorem signals_emitted (short : s.isLongPress x.event = false) :
    (isCommand st s x = true → ∃ c ∈ commands, signals (s.emitted st x) = [(true, c)]) ∧
      (isCommand st s x = false →
        signals (s.emitted st x) = (readAs st x).toList.map (x.isPress, ·)) := by
  rw [eventToKeyEvents_made.2, short, ← isCommand_updated]
  exact signals_made

theorem emitted_of_isLongPress (long : s.isLongPress x.event = true) : s.emitted st x = [] := by
  rw [State.emitted, if_pos long]

theorem sent_processEvent :
    (s.processEvent st x).sent = s.sent ++ (s.emitted st x).map (Sent.mk x) := by
  unfold State.processEvent
  split
  · next long => rw [emitted_of_isLongPress long, List.map_nil, List.append_nil]
  · next short =>
      have same : (s.eventToKeyEvents st x).state.sent = s.sent := by
        rw [eventToKeyEvents_made.1, made_rest.1, updated_rest.1]
      dsimp only
      rw [same, State.emitted, if_neg short]

/-- A key whose press or release is handled is in `TO_RELEASE` or not; all others are as before. -/
theorem mem_processEvent {key : Key} (short : s.isLongPress x.event = false) :
    key ∈ (s.processEvent st x).toRelease ↔
      if x.isPress then key = x.key ∨ key ∈ s.toRelease else key ≠ x.key ∧ key ∈ s.toRelease := by
  rw [State.processEvent, short, if_neg Bool.false_ne_true, ← mem_updated]
  dsimp only
  rw [eventToKeyEvents_made.1, made_rest.2]

theorem toRelease_of_isLongPress (long : s.isLongPress x.event = true) : s.processEvent st x = s := by
  rw [State.processEvent, if_pos long]

end Emitted

section Owed
variable {st : Setting} {s : State} {x : Stroke} {sent added : List Sent} {e : Sent}

theorem owed_append :
    Owed (sent ++ added) e ↔
      Owed sent e ∧ (∀ later ∈ added, later.evt.down = false → later.evt.code ≠ e.evt.code) ∨
        Owed added e := by
  constructor
  · rintro ⟨before, after, split, down, some_, kept⟩
    rcases List.append_eq_append_iff.mp split with ⟨middle, rfl, rest⟩ | ⟨middle, rfl, rest⟩
    · exact .inr ⟨middle, after, rest, down, some_, kept⟩
    · cases middle with
      | nil => exact .inr ⟨[], after, rest.symm, down, some_, kept⟩
      | cons first middle =>
          obtain ⟨rfl, rfl⟩ := List.cons.inj rest
          refine .inl ⟨⟨before, middle, rfl, down, some_, fun later member => ?_⟩, fun later member => ?_⟩
          · exact kept later (List.mem_append_left _ member)
          · exact kept later (List.mem_append_right _ member)
  · rintro (⟨⟨before, after, rfl, down, some_, kept⟩, kept'⟩ | ⟨before, after, rfl, down, some_, kept⟩)
    · refine ⟨before, after ++ added, by simp, down, some_, fun later member => ?_⟩
      rcases List.mem_append.mp member with here | here
      · exact kept later here
      · exact kept' later here
    · exact ⟨sent ++ before, after, by simp, down, some_, kept⟩

theorem Owed.mem (owed : Owed sent e) : e ∈ sent := by
  obtain ⟨before, after, rfl, -⟩ := owed
  exact List.mem_append_right _ List.mem_cons_self

/-- What is owed behind an event: what was owed and was not put up, and what the event puts down. -/
theorem owed_processEvent {c : Code} (code : e.evt.code = some c) :
    Owed (s.processEvent st x).sent e ↔
      Owed s.sent e ∧ (false, c) ∉ signals (s.emitted st x) ∨
        Owed ((s.emitted st x).map (Sent.mk x)) e := by
  have up : (∀ later ∈ (s.emitted st x).map (Sent.mk x), later.evt.down = false →
      later.evt.code ≠ e.evt.code) ↔ (false, c) ∉ signals (s.emitted st x) := by
    rw [mem_signals, List.forall_mem_map, code]
    simp only [not_exists, not_and]
  rw [sent_processEvent, owed_append, up]

theorem signal_of_owed {evts : List KeyEvent} {c : Code} (code : e.evt.code = some c)
    (owed : Owed (evts.map (Sent.mk x)) e) : e.stroke = x ∧ (true, c) ∈ signals evts := by
  obtain ⟨evt, member, same⟩ := List.mem_map.mp owed.mem
  obtain ⟨before, after, -, down, -⟩ := owed
  rw [← same] at down code ⊢
  exact ⟨rfl, mem_signals.mpr ⟨evt, member, down, code⟩⟩

end Owed

section Agrees
variable {st : Setting} {s : State} {p r x : Stroke} {c : Code}

theorem convertNumpadKeys_cases (key : Key) :
    convertNumpadKeys false key = key ∨ ∃ on off, controlKey key = some on ∧
      controlKey (convertNumpadKeys false key) = some off ∧ on ≠ off := by
  unfold convertNumpadKeys
  rw [if_neg Bool.false_ne_true]
  split
  case h_12 => exact .inl rfl
  all_goals exact .inr ⟨_, _, rfl, rfl, by decide⟩

/-- A key under another state of NumLock is the same, or it has another name. -/
theorem legacyKey_cases (same : r.key = p.key) :
    legacyKey st r = legacyKey st p ∨ ∃ ck ck', controlKey (legacyKey st p) = some ck ∧
      controlKey (legacyKey st r) = some ck' ∧ ck' ≠ ck := by
  unfold legacyKey
  rw [same]
  split
  · cases st.numLock r.here with
    | false =>
        cases st.numLock p.here with
        | false => exact .inl rfl
        | true =>
            rcases convertNumpadKeys_cases p.key with fixed | ⟨on, off, isOn, isOff, differ⟩
            · exact .inl fixed
            · exact .inr ⟨on, off, isOn, isOff, differ.symm⟩
    | true =>
        cases st.numLock p.here with
        | true => exact .inl rfl
        | false =>
            rcases convertNumpadKeys_cases p.key with fixed | ⟨on, off, isOn, isOff, differ⟩
            · exact .inl fixed.symm
            · exact .inr ⟨off, on, isOff, isOn, differ⟩
  · exact .inl rfl

theorem legacyCode_of_named {ck : ControlKey} (plain : (isExtraCtrl st x || isLockKey (legacyKey st x)) = false)
    (named : controlKey (legacyKey st x) = some ck) : legacyCode st x = some (.controlKey ck) := by
  rw [legacyCode, plain, if_neg Bool.false_ne_true, named]

theorem legacyCode_of_unnamed (plain : (isExtraCtrl st x || isLockKey (legacyKey st x)) = false)
    (unnamed : controlKey (legacyKey st x) = none) :
    legacyCode st x = if legacyChar x.event (legacyKey st x) = nul then none
      else some (.chr (legacyChar x.event (legacyKey st x)).val) := by
  rw [legacyCode, plain, if_neg Bool.false_ne_true, unnamed]

theorem legacyCode_iff (same : r.key = p.key) (down : legacyCode st p = some c) :
    legacyCode st r = some c ↔ LegacyAgrees st p r := by
  have plain : (isExtraCtrl st p || isLockKey (legacyKey st p)) = false := by
    cases silent : (isExtraCtrl st p || isLockKey (legacyKey st p)) with
    | false => rfl
    | true =>
        rw [legacyCode, silent, if_pos rfl] at down
        cases down
  have notLock := (Bool.or_eq_false_iff.mp plain).2
  by_cases silent : (isExtraCtrl st r || isLockKey (legacyKey st r)) = true
  · have none_ : legacyCode st r = none := by rw [legacyCode, if_pos silent]
    rw [none_]
    refine iff_of_false (by simp) fun agrees => ?_
    rw [agrees.ctrl, agrees.numLock, notLock] at silent
    cases silent
  rw [Bool.not_eq_true] at silent
  have ctrl := (Bool.or_eq_false_iff.mp silent).1
  rcases legacyKey_cases same with numLock | ⟨ck, ck', named, named', differ⟩
  · cases named : controlKey (legacyKey st p) with
    | some ck =>
        rw [legacyCode_of_named plain named] at down
        rw [legacyCode_of_named silent (numLock.symm ▸ named)]
        refine iff_of_true down ⟨numLock, ctrl, fun unnamed => ?_⟩
        rw [numLock, named] at unnamed
        cases unnamed
    | none =>
        have unnamed : controlKey (legacyKey st r) = none := numLock.symm ▸ named
        rw [legacyCode_of_unnamed plain named] at down
        rw [legacyCode_of_unnamed silent unnamed]
        split at down
        · cases down
        · next some_ =>
            obtain rfl := Option.some.inj down
            constructor
            · intro up
              split at up
              · cases up
              · exact ⟨numLock, ctrl, fun _ => Char.ext (Code.chr.inj (Option.some.inj up))⟩
            · intro agrees
              rw [agrees.name unnamed, if_neg some_]
  · rw [legacyCode_of_named plain named] at down
    rw [legacyCode_of_named silent named', ← down]
    refine iff_of_false (fun eq => differ (Code.controlKey.inj (Option.some.inj eq))) fun agrees => ?_
    rw [agrees.numLock, named] at named'
    exact differ (Option.some.inj named').symm

theorem mapCode_iff (down : mapCode st p = some c) :
    mapCode st r = some c ↔ keycode st r.event = keycode st p.event := by
  rw [← down, mapCode, mapCode]
  exact (Option.map_injective fun _ _ => Code.chr.inj).eq_iff

theorem chr_of_mapCode (down : mapCode st p = some c) : ∃ code, c = .chr code := by
  obtain ⟨code, -, rfl⟩ := Option.map_eq_some_iff.mp down
  exact ⟨code, rfl⟩

/-- A press is sent as a hot key or by its code. -/
theorem plainCode_press (press : p.isPress = true) (down : plainCode st p = some c) :
    pressedAsHotkey st p = true ∧ c = .hotkey (virtualKey p) ∨
      pressedAsHotkey st p = false ∧ mapCode st p = some c := by
  have same : sentAsHotkey st p = pressedAsHotkey st p := by
    simp [sentAsHotkey, pressedAsHotkey, press]
  rw [plainCode, same] at down
  cases hot : pressedAsHotkey st p with
  | true =>
      rw [hot, if_pos rfl] at down
      exact .inl ⟨rfl, (Option.some.inj down).symm⟩
  | false =>
      rw [hot, if_neg Bool.false_ne_true] at down
      split_ifs at down
      exact .inr ⟨rfl, down⟩

theorem plainCode_iff (press : p.isPress = true) (release : r.isPress = false)
    (loud : isSilentKey st r = false) (down : plainCode st p = some c) :
    plainCode st r = some c ↔ PlainAgrees st p r := by
  have same : sentAsHotkey st r = asHotkey st r := by simp [sentAsHotkey, release]
  have notText : ¬((st.os = .linux ∨ st.os = .windows) ∧ r.isPress = true ∧ hasText st r = true) := by
    simp [release]
  rw [plainCode, same]
  cases hot : asHotkey st r with
  | true =>
      have heats : asHotkey st r ≠ false := by simp [hot]
      rw [if_pos rfl]
      rcases plainCode_press press down with ⟨hot', rfl⟩ | ⟨cold', byCode⟩
      · constructor
        · intro up
          exact ⟨loud, hot.trans hot'.symm, fun _ => Code.hotkey.inj (Option.some.inj up),
            fun cold => absurd cold heats, fun cold => absurd cold heats, fun cold => absurd cold heats⟩
        · intro agrees
          rw [agrees.virtualKey hot]
      · obtain ⟨code, rfl⟩ := chr_of_mapCode byCode
        exact iff_of_false (by simp) fun agrees => by simp [agrees.hotkey, cold'] at hot
  | false =>
      rw [if_neg Bool.false_ne_true]
      rcases plainCode_press press down with ⟨hot', rfl⟩ | ⟨cold', byCode⟩
      · refine iff_of_false (fun up => ?_) fun agrees => by simp [agrees.hotkey, hot'] at hot
        split_ifs at up
        obtain ⟨code, eq⟩ := chr_of_mapCode up
        cases eq
      · by_cases held : st.os = .windows ∧ r.here.is0x021dDown = true
        · rw [if_pos held]
          exact iff_of_false (by simp) fun agrees => agrees.held hot held
        by_cases text : st.os = .macos ∧ r.here.isLeftOptionDown = false ∧ hasText st r = true
        · rw [if_neg held, if_neg notText, if_pos text]
          exact iff_of_false (by simp) fun agrees => agrees.text hot text
        rw [if_neg held, if_neg notText, if_neg text, mapCode_iff byCode]
        constructor
        · intro code
          exact ⟨loud, hot.trans cold'.symm, fun hot' => by simp [hot] at hot', fun _ => held,
            fun _ => text, fun _ => code⟩
        · exact fun agrees => agrees.code hot

theorem translateCode_iff (same : r.key = p.key) (press : p.isPress = true) (release : r.isPress = false)
    (down : translateCode st p = some c) : translateCode st r = some c ↔ TranslateAgrees st p r := by
  rw [translateCode, ← same] at down
  rw [translateCode]
  split at down
  · cases down
  cases dead : isDeadKey st r with
  | true => exact iff_of_false (by simp) fun agrees => by simp [agrees.alive] at dead
  | false =>
      rw [if_neg Bool.false_ne_true]
      cases numpad : isNumpad st r.key with
      | true =>
          rw [numpad, if_pos rfl] at down
          rw [if_pos rfl, mapCode_iff down]
          exact ⟨fun code => ⟨dead, fun _ => code, fun other => by simp [numpad] at other⟩,
            fun agrees => agrees.numpad numpad⟩
      | false =>
          rw [numpad, if_neg Bool.false_ne_true] at down
          rw [if_neg Bool.false_ne_true]
          split at down
          · cases down
          cases loud : isSilentKey st r with
          | true =>
              exact iff_of_false (by simp) fun agrees => by simp [(agrees.plain numpad).loud] at loud
          | false =>
              rw [if_neg Bool.false_ne_true, plainCode_iff press release loud down]
              exact ⟨fun plain => ⟨dead, fun is => by simp [numpad] at is, fun _ => plain⟩,
                fun agrees => agrees.plain numpad⟩

/-- A release puts up what the press has put down if and only if they agree. -/
theorem readAs_iff (same : r.key = p.key) (press : p.isPress = true) (release : r.isPress = false)
    (down : readAs st p = some c) : readAs st r = some c ↔ Agrees st p r := by
  unfold readAs at down ⊢
  unfold Agrees
  cases mode : st.mode with
  | map =>
      rw [mode] at down
      exact mapCode_iff down
  | translate =>
      rw [mode] at down
      exact translateCode_iff same press release down
  | legacy =>
      rw [mode] at down
      dsimp only at down ⊢
      split at down
      · cases down
      · next desktop =>
          rw [if_neg desktop]
          exact legacyCode_iff same down

theorem controlKey_not_command (key : Key) :
    controlKey key ≠ some .ctrlAltDel ∧ controlKey key ≠ some .lockScreen := by
  cases key with
  | other name =>
      have none_ : controlKey (.other name) = none := rfl
      simp [none_]
  | _ => decide

theorem chr_not_command (code : UInt32) : Code.chr code ∉ commands := by simp [commands]

theorem mapCode_not_command (read : mapCode st x = some c) : c ∉ commands := by
  obtain ⟨code, rfl⟩ := chr_of_mapCode read
  exact chr_not_command code

theorem legacyCode_not_command (read : legacyCode st x = some c) : c ∉ commands := by
  unfold legacyCode at read
  split at read
  · cases read
  split at read
  · next ck named =>
      obtain rfl := Option.some.inj read
      have other := controlKey_not_command (legacyKey st x)
      rw [named, ne_eq, ne_eq, Option.some.injEq, Option.some.injEq] at other
      simpa [commands] using other
  · dsimp only at read
    split at read
    · cases read
    · obtain rfl := Option.some.inj read
      exact chr_not_command _

theorem plainCode_not_command (read : plainCode st x = some c) : c ∉ commands := by
  unfold plainCode at read
  split_ifs at read
  · obtain rfl := Option.some.inj read
    simp [commands]
  · exact mapCode_not_command read

/-- No event is read as a command. -/
theorem readAs_not_command (read : readAs st x = some c) : c ∉ commands := by
  unfold readAs at read
  split at read
  · exact mapCode_not_command read
  · unfold translateCode at read
    split_ifs at read
    · exact mapCode_not_command read
    · exact plainCode_not_command read
  · split at read
    · cases read
    · exact legacyCode_not_command read

end Agrees

/-- What was put down was a command, or it is what a press is read as. -/
def Origin (st : Setting) (e : Sent) : Prop :=
  ∀ c, e.evt.down = true → e.evt.code = some c →
    c ∈ commands ∨ e.stroke.isPress = true ∧ readAs st e.stroke = some c

section Stroke
variable {st : Setting} {s : State} {x : Stroke} {e : Sent} {c : Code}

theorem mem_signals_of_read {down : Bool} {code : Option Code} :
    (down, c) ∈ code.toList.map (x.isPress, ·) ↔ x.isPress = down ∧ code = some c := by
  simp only [List.mem_map, Option.mem_toList, Prod.mk.injEq]
  constructor
  · rintro ⟨c', read, isDown, rfl⟩
    exact ⟨isDown, read⟩
  · rintro ⟨isDown, read⟩
    exact ⟨c, read, isDown, rfl⟩

theorem down_of_emitted (down : (true, c) ∈ signals (s.emitted st x)) :
    c ∈ commands ∨ x.isPress = true ∧ readAs st x = some c := by
  cases long : s.isLongPress x.event with
  | true =>
      rw [emitted_of_isLongPress long] at down
      cases down
  | false =>
      obtain ⟨ofCommand, ofPlain⟩ := @signals_emitted st s x long
      cases is : isCommand st s x with
      | true =>
          obtain ⟨ck, member, signal⟩ := ofCommand is
          rw [signal, List.mem_singleton, Prod.mk.injEq] at down
          exact .inl (down.2 ▸ member)
      | false =>
          rw [ofPlain is, mem_signals_of_read] at down
          exact .inr down

theorem origin_processEvent (origin : ∀ e ∈ s.sent, Origin st e) :
    ∀ e ∈ (s.processEvent st x).sent, Origin st e := by
  intro e member
  rw [sent_processEvent] at member
  rcases List.mem_append.mp member with before | here
  · exact origin e before
  · obtain ⟨evt, isIn, rfl⟩ := List.mem_map.mp here
    intro c down code
    exact down_of_emitted (mem_signals.mpr ⟨evt, isIn, down, code⟩)

theorem Owed.code (owed : Owed s.sent e) : ∃ c, e.evt.code = some c := by
  obtain ⟨before, after, -, -, some_, -⟩ := owed
  exact Option.ne_none_iff_exists'.mp some_

/-- A press may put something down for its own key only. -/
theorem owed_of_press (owed : Owed (s.processEvent st x).sent e) :
    Owed s.sent e ∨ e.stroke.key = x.key := by
  obtain ⟨c, code⟩ := owed.code
  rcases (owed_processEvent code).mp owed with ⟨before, -⟩ | here
  · exact .inl before
  · exact .inr (congrArg Stroke.key (signal_of_owed code here).1)

/-- A release reads like the presses that have put down what is down, or it is a command. -/
theorem reads_iff (origin : Origin st e) (owed : Owed s.sent e) (code : e.evt.code = some c)
    (same : e.stroke.key = x.key) (release : x.isPress = false) :
    readAs st x = some c ↔ (∀ c ∈ commands, e.evt.code ≠ some c) ∧ Agrees st e.stroke x := by
  obtain ⟨before, after, -, down, -, -⟩ := owed
  rcases origin c down code with isCommand | ⟨press, read⟩
  · exact iff_of_false (fun read => readAs_not_command read isCommand)
      fun both => both.1 c isCommand code
  · have plain : ∀ c ∈ commands, e.evt.code ≠ some c := by
      intro c' isCommand same
      obtain rfl := Option.some.inj (code.symm.trans same)
      exact readAs_not_command read isCommand
    rw [readAs_iff same.symm press release read]
    exact ⟨fun agrees => ⟨plain, agrees⟩, And.right⟩

/-- A release that is no command puts up what it is read as. -/
theorem owed_of_release (plain : isCommand st s x = false) (release : x.isPress = false)
    (code : e.evt.code = some c) :
    Owed (s.processEvent st x).sent e ↔ Owed s.sent e ∧ readAs st x ≠ some c := by
  have signal := (signals_emitted (not_isLongPress release)).2 plain
  rw [owed_processEvent code, signal, mem_signals_of_read]
  have nothing : ¬Owed ((s.emitted st x).map (Sent.mk x)) e := by
    intro owed
    have down := (signal_of_owed code owed).2
    rw [signal, mem_signals_of_read, release] at down
    cases down.1
  simp [release, nothing]

/-- A command is owed as soon as it is sent. -/
theorem owed_of_command (is : isCommand st s x = true) (release : x.isPress = false) :
    ∃ e, Owed (s.processEvent st x).sent e ∧ e.stroke.key = x.key := by
  obtain ⟨c, -, signal⟩ := (signals_emitted (not_isLongPress release)).1 is
  have down : (true, c) ∈ signals (s.emitted st x) := by rw [signal]; exact List.mem_singleton_self _
  obtain ⟨evt, member, isDown, code⟩ := mem_signals.mp down
  obtain ⟨before, after, split⟩ := List.append_of_mem member
  have owed : Owed ((s.emitted st x).map (Sent.mk x)) ⟨x, evt⟩ := by
    refine ⟨before.map (Sent.mk x), after.map (Sent.mk x), by simp [split], isDown, by simp [code], ?_⟩
    intro later isLater isUp same
    obtain ⟨evt', isIn, rfl⟩ := List.mem_map.mp isLater
    have up : (false, c) ∈ signals (s.emitted st x) :=
      mem_signals.mpr ⟨evt', by simp [split, isIn], isUp, same.trans code⟩
    rw [signal] at up
    simp at up
  exact ⟨⟨x, evt⟩, (owed_processEvent code).mpr (.inr owed), rfl⟩

/-- What a release leaves of what is down for its key. -/
theorem keeps_iff_meets (origin : ∀ e ∈ s.sent, Origin st e) :
    Keeps st s (.processEvent x) ↔ Meets st s (.processEvent x) := by
  unfold Keeps Meets MeetsStroke
  refine forall_congr' fun release => ?_
  cases is : isCommand st s x with
  | true =>
      obtain ⟨e, owed, same⟩ := owed_of_command is release
      exact iff_of_false (fun keeps => keeps e owed same) (by simp)
  | false =>
      simp only [true_and]
      refine forall_congr' fun e => ?_
      constructor
      · intro keeps owed same
        obtain ⟨c, code⟩ := owed.code
        apply (reads_iff (origin e owed.mem) owed code same release).mp
        by_contra other
        exact keeps ((owed_of_release is release code).mpr ⟨owed, other⟩) same
      · intro agrees owed same
        obtain ⟨c, code⟩ := owed.code
        obtain ⟨before, other⟩ := (owed_of_release is release code).mp owed
        exact other ((reads_iff (origin e before.mem) before code same release).mpr (agrees before same))

/-- Behind a release that meets the condition, only other keys have something down. -/
theorem owed_of_meets (origin : ∀ e ∈ s.sent, Origin st e) (meets : MeetsStroke st s x)
    (release : x.isPress = false) (owed : Owed (s.processEvent st x).sent e) :
    Owed s.sent e ∧ e.stroke.key ≠ x.key := by
  obtain ⟨c, code⟩ := owed.code
  exact ⟨((owed_of_release (meets release).1 release code).mp owed).1,
    (keeps_iff_meets origin).mpr meets release e owed⟩

end Stroke

/-- What is down for a key is in `TO_RELEASE` for `release_remote_keys`. -/
structure Inv (st : Setting) (s : State) : Prop where
  origin : ∀ e ∈ s.sent, Origin st e
  noted : ∀ e, Owed s.sent e → e.stroke.key ∈ s.toRelease

section Runs
variable {st : Setting} {s : State} {x : Stroke} {key : Key} {only : Key → Prop}

theorem origin_exec {strokes : List Stroke} (origin : ∀ e ∈ s.sent, Origin st e) :
    ∀ e ∈ (exec (State.processEvent st) s strokes).sent, Origin st e := by
  induction strokes generalizing s with
  | nil => exact origin
  | cons x rest ih => exact ih (origin_processEvent origin)

theorem origin_step (origin : ∀ e ∈ s.sent, Origin st e) (call : Call) :
    ∀ e ∈ (step st s call).sent, Origin st e := by
  cases call with
  | processEvent x => exact origin_processEvent origin
  | releaseRemoteKeys visit machines =>
      exact @origin_exec st { s with toRelease := ∅ } (s.strokes visit machines) origin

theorem inv_processEvent (inv : Inv st s) (meets : MeetsStroke st s x) :
    Inv st (s.processEvent st x) := by
  refine ⟨origin_processEvent inv.origin, fun e owed => ?_⟩
  cases long : s.isLongPress x.event with
  | true =>
      rw [toRelease_of_isLongPress long] at owed ⊢
      exact inv.noted e owed
  | false =>
      rw [mem_processEvent long]
      cases press : x.isPress with
      | true =>
          rcases owed_of_press owed with before | here
          · exact .inr (inv.noted e before)
          · exact .inl here
      | false =>
          obtain ⟨before, other⟩ := owed_of_meets inv.origin meets press owed
          exact ⟨other, inv.noted e before⟩

/-- A release of the key leaves nothing down for it. -/
theorem only_of_release (origin : ∀ e ∈ s.sent, Origin st e) (meets : MeetsStroke st s x)
    (release : x.isPress = false) (isKey : x.key = key)
    (before : ∀ e, Owed s.sent e → e.stroke.key = key ∨ only e.stroke.key) :
    ∀ e, Owed (s.processEvent st x).sent e → only e.stroke.key := by
  intro e owed
  obtain ⟨old, other⟩ := owed_of_meets origin meets release owed
  exact (before e old).resolve_left fun same => other (same.trans isKey.symm)

/-- The releases of one key leave nothing down for it. -/
theorem only_of_releaseStrokes (event : Event) (machines : Machines)
    (origin : ∀ e ∈ s.sent, Origin st e)
    (meets : Along (State.processEvent st) (MeetsStroke st) s (releaseStrokes key event machines))
    (before : ∀ e, Owed s.sent e → e.stroke.key = key ∨ only e.stroke.key) :
    ∀ e, Owed (exec (State.processEvent st) s (releaseStrokes key event machines)).sent e →
      only e.stroke.key := by
  unfold releaseStrokes at meets ⊢
  dsimp only at meets ⊢
  split at meets
  · next alt =>
      obtain ⟨first, -, last, -⟩ := meets
      rw [if_pos alt]
      refine @only_of_release st _ _ key only (origin_processEvent (origin_processEvent origin)) last
        rfl rfl fun e owed => ?_
      rcases owed_of_press owed with old | here
      · exact .inr (@only_of_release st _ _ key only origin first rfl rfl before e old)
      · exact .inl here
  · next other =>
      rw [if_neg other]
      exact @only_of_release st _ _ key only origin meets.1 rfl rfl before

/-- The loop of `release_remote_keys` leaves nothing down for any of its keys. -/
theorem none_of_strokes (events : AList fun _ : Key => Event) (machines : Key → Machines)
    (keys : List Key) (origin : ∀ e ∈ s.sent, Origin st e) (noted : ∀ key ∈ keys, key ∈ events)
    (meets : Along (State.processEvent st) (MeetsStroke st) s
      (keys.flatMap fun key => strokesOf events machines key))
    (before : ∀ e, Owed s.sent e → e.stroke.key ∈ keys) :
    ∀ e, ¬Owed (exec (State.processEvent st) s
      (keys.flatMap fun key => strokesOf events machines key)).sent e := by
  induction keys generalizing s with
  | nil =>
      intro e owed
      cases before e owed
  | cons key rest ih =>
      rw [List.flatMap_cons] at meets ⊢
      obtain ⟨event, found⟩ :=
        Option.isSome_iff_exists.mp (AList.lookup_isSome.mpr (noted key List.mem_cons_self))
      have own : strokesOf events machines key = releaseStrokes key event (machines key) := by
        rw [strokesOf, found]
      rw [own] at meets ⊢
      rw [along_append] at meets
      rw [exec_append]
      apply ih (origin_exec origin) (fun other member => noted other (List.mem_cons_of_mem _ member)) meets.2
      exact @only_of_releaseStrokes st s key (· ∈ rest) event (machines key) origin meets.1
        fun e owed => List.mem_cons.mp (before e owed)

theorem inv_step (inv : Inv st s) (call : Call) (meets : Meets st s call) :
    Inv st (step st s call) ∧ Keeps st s call := by
  cases call with
  | processEvent x => exact ⟨inv_processEvent inv meets, (keeps_iff_meets inv.origin).mpr meets⟩
  | releaseRemoteKeys visit machines =>
      have none_ : ∀ e, ¬Owed (s.releaseRemoteKeys st visit machines).sent e := by
        apply @none_of_strokes st { s with toRelease := ∅ } s.toRelease machines
          (visit.visit s.toRelease.keys) inv.origin _ meets
        · intro e owed
          exact (visit.perm s.toRelease.keys).mem_iff.mpr (AList.mem_keys.mpr (inv.noted e owed))
        · intro key member
          exact AList.mem_keys.mp ((visit.perm s.toRelease.keys).mem_iff.mp member)
      exact ⟨⟨origin_step inv.origin (.releaseRemoteKeys visit machines), fun e owed => absurd owed (none_ e)⟩,
        none_⟩

theorem inv_start : Inv st {} where
  origin _ member := absurd member List.not_mem_nil
  noted _ owed := absurd owed.mem List.not_mem_nil

/-- What a key has put down is put up by its release or by `release_remote_keys`, in every run in
which the releases are read like the presses. For one release the condition is exact, in whatever
state the run has led to. -/
theorem along_keeps (st : Setting) (calls : List Call) :
    (Along (step st) (Meets st) {} calls → Along (step st) (Keeps st) {} calls) ∧
      ∀ x, Keeps st (exec (step st) {} calls) (.processEvent x) ↔
        Meets st (exec (step st) {} calls) (.processEvent x) := by
  have origin : ∀ e ∈ (exec (step st) {} calls).sent, Origin st e := by
    have start : ∀ e ∈ ({} : State).sent, Origin st e := inv_start.origin
    generalize ({} : State) = s at start ⊢
    induction calls generalizing s with
    | nil => exact start
    | cons call rest ih => exact ih _ (origin_step start call)
  exact ⟨along_of_along (fun s call inv meets => inv_step inv call meets) inv_start,
    fun x => keeps_iff_meets origin⟩

/-- A table that knows no code of another system. -/
def noCodes : Codes where
  winScancodeToMacosIsoCode _ := none
  winScancodeToMacosCode _ := none
  winScancodeToAndroidKeyCode _ := none
  winScancodeToLinuxCode _ := none
  macosCodeToWinScancode _ := none
  macosCodeToAndroidKeyCode _ := none
  macosCodeToLinuxCode _ := none
  linuxCodeToWinScancode _ := none
  linuxCodeToMacosIsoCode _ := none
  linuxCodeToMacosCode _ := none
  linuxCodeToAndroidKeyCode _ := none
  usbHidCodeToWinScancode _ := none
  usbHidCodeToLinuxCode _ := none
  usbHidCodeToMacosIsoCode _ := none
  usbHidCodeToMacosCode _ := none
  usbHidCodeToAndroidKeyCode _ := none

/-- A client on Linux that is in the `Legacy` mode, with a peer on Windows. -/
def toWindows : Setting where
  os := .linux
  peerPlatform := "Windows".toList
  keyboardMode := "legacy".toList
  isoLayout := false
  codes := noCodes
  tables := CustomServers.sharpS

def kp1Pressed : Stroke := { event := { eventType := .keyPress .kp1 }, here := { numLock := true } }

def kp1Released (numLock : Bool) : Stroke :=
  { event := { eventType := .keyRelease .kp1 }, here := { numLock } }

def numpad1Down : KeyEvent where
  down := true
  union := some (.controlKey .numpad1)
  modifiers := [.numLock]

theorem kp1_released : Along (step toWindows) (Keeps toWindows) {}
    [.processEvent kp1Pressed, .processEvent (kp1Released true)] := by
  have press : Meets toWindows {} (.processEvent kp1Pressed) := fun release => by cases release
  have release : Meets toWindows (step toWindows {} (.processEvent kp1Pressed))
      (.processEvent (kp1Released true)) := by
    refine fun _ => ⟨by decide, fun e owed _ => ?_⟩
    have only : e = ⟨kp1Pressed, numpad1Down⟩ :=
      List.mem_singleton.mp owed.mem
    rw [only]
    exact ⟨by decide, ⟨by decide, by decide, by decide⟩⟩
  exact (along_keeps toWindows [.processEvent kp1Pressed, .processEvent (kp1Released true)]).1
    ⟨press, release, trivial⟩

/-- NumLock goes off while a key of the numpad is down: `Numpad1` goes down and `End` up. -/
theorem not_along_keeps :
    ¬∀ (st : Setting) (calls : List Call), Along (step st) (Keeps st) {} calls := by
  intro law
  have keeps := (law toWindows [.processEvent kp1Pressed, .processEvent (kp1Released false)]).2.1 rfl
  have owed : Owed (step toWindows (step toWindows {} (.processEvent kp1Pressed))
      (.processEvent (kp1Released false))).sent
      ⟨kp1Pressed, numpad1Down⟩ := by
    refine ⟨[], [⟨kp1Released false, { union := some (.controlKey .end_) }⟩], rfl, rfl, by decide, ?_⟩
    intro later member _
    rw [List.mem_singleton.mp member]
    decide
  exact keeps _ owed rfl

end Runs

end RemoteControl.LocalKeyboard
