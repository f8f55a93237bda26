import Mathlib.Data.List.Basic

/-! # Keys and their record numbers

A key event names a key by the number of a control key, by a character or by a
raw code. A key pressed through Enigo is recorded under a number of its own:
the control key's number, or the character's number above `KEY_CHAR_START`.
-/

namespace RemoteControl.Keyboard

/-- The keys Enigo takes: the named ones, a character of the layout, a raw code. -/
inductive Key where
  | alt | backspace | capsLock | control | delete | downArrow | end_ | escape | f1 | f10 | f11
  | f12 | f2 | f3 | f4 | f5 | f6 | f7 | f8 | f9 | home | leftArrow | meta_ | option | pageDown
  | pageUp | return_ | rightArrow | shift | space | tab | upArrow | numpad0 | numpad1 | numpad2
  | numpad3 | numpad4 | numpad5 | numpad6 | numpad7 | numpad8 | numpad9 | cancel | clear
  | pause | kana | hangul | junja | final_ | hanja | kanji | convert | select | print | execute
  | snapshot | insert | help | sleep | separator | scroll | numLock | rWin | apps | multiply
  | add | subtract | decimal | divide | equals | numpadEnter | rightAlt | rightControl
  | rightShift
  | layout (chr : Char)
  | raw (code : UInt16)
  deriving DecidableEq

/-- The keys rdev takes here. -/
inductive RdevKey where
  | rawKey (code : UInt32)
  | shiftLeft
  | shiftRight
  deriving DecidableEq

/-- A recorded key. -/
inductive KeysDown where
  | rdevKey (rawkey : UInt32)
  | enigoKey (record : UInt64)
  deriving DecidableEq

namespace ControlKey

-- The numbers of the control keys that the code names.
def alt : Int32 := 1
def control : Int32 := 4
def meta_ : Int32 := 23
def shift : Int32 := 29
def rWin : Int32 := 64
def rShift : Int32 := 73
def rControl : Int32 := 74
def rAlt : Int32 := 75
def ctrlAltDel : Int32 := 100
def lockScreen : Int32 := 101

end ControlKey

/-- The keys of the control keys, by number. -/
def keyMap : List (Int32 × Key) :=
  [ (1, .alt), (2, .backspace), (3, .capsLock), (4, .control), (5, .delete), (6, .downArrow),
    (7, .end_), (8, .escape), (9, .f1), (10, .f10), (11, .f11), (12, .f12), (13, .f2), (14, .f3),
    (15, .f4), (16, .f5), (17, .f6), (18, .f7), (19, .f8), (20, .f9), (21, .home),
    (22, .leftArrow), (23, .meta_), (24, .option), (25, .pageDown), (26, .pageUp), (27, .return_),
    (28, .rightArrow), (29, .shift), (30, .space), (31, .tab), (32, .upArrow), (33, .numpad0),
    (34, .numpad1), (35, .numpad2), (36, .numpad3), (37, .numpad4), (38, .numpad5),
    (39, .numpad6), (40, .numpad7), (41, .numpad8), (42, .numpad9), (43, .cancel), (44, .clear),
    (45, .alt), (46, .pause), (47, .kana), (48, .hangul), (49, .junja), (50, .final_),
    (51, .hanja), (52, .kanji), (53, .convert), (54, .select), (55, .print), (56, .execute),
    (57, .snapshot), (58, .insert), (59, .help), (60, .sleep), (61, .separator), (62, .scroll),
    (63, .numLock), (64, .rWin), (65, .apps), (66, .multiply), (67, .add), (68, .subtract),
    (69, .decimal), (70, .divide), (71, .equals), (72, .numpadEnter), (75, .rightAlt),
    (74, .rightControl), (73, .rightShift) ]

def KEY_CHAR_START : UInt64 := 9999

def controlKeyValueToKey (value : Int32) : Option Key :=
  keyMap.lookup value

/-- `char::try_from`. -/
def charTryFrom (value : UInt32) : Option Char :=
  if value.toNat.isValidChar then some (Char.ofNat value.toNat) else none

def charValueToKey (value : UInt32) : Key :=
  .layout ((charTryFrom value).getD (Char.ofNat 0))

def recordKeyIsControlKey (recordKey : UInt64) : Bool :=
  recordKey < KEY_CHAR_START

/-- The key a record number stands for. -/
def recordKeyToKey (recordKey : UInt64) : Option Key :=
  if recordKeyIsControlKey recordKey then
    controlKeyValueToKey recordKey.toUInt32.toInt32
  else
    some (charValueToKey (recordKey - KEY_CHAR_START).toUInt32)

/-- The record number of a control key. A number that names none may still be the record
    number of a character: one above `KEY_CHAR_START`, or a negative one. -/
def controlKeyRecord (value : Int32) : UInt64 :=
  value.toInt64.toUInt64

/-- The record number of a character. -/
def charRecord (chr : UInt32) : UInt64 :=
  chr.toUInt64 + KEY_CHAR_START

theorem not_charRecord_lt (chr : UInt32) : ¬ charRecord chr < KEY_CHAR_START := by
  have bound := chr.toNat_lt
  simp only [charRecord, KEY_CHAR_START, UInt64.lt_iff_toNat_lt, UInt64.toNat_add,
    UInt32.toNat_toUInt64]
  simp
  omega

/-- A character's record stands for the character's key. -/
theorem recordKeyToKey_charRecord (chr : UInt32) :
    recordKeyToKey (charRecord chr) = some (charValueToKey chr) := by
  simp only [recordKeyToKey, recordKeyIsControlKey, not_charRecord_lt, decide_false]
  simp [charRecord]

theorem keyMap_records :
    ∀ entry ∈ keyMap, recordKeyToKey (controlKeyRecord entry.1) = some entry.2 := by
  decide

/-- A control key's record stands for its key, when it has one. -/
theorem recordKeyToKey_controlKeyRecord {value : Int32} {key : Key}
    (named : controlKeyValueToKey value = some key) :
    recordKeyToKey (controlKeyRecord value) = some key := by
  obtain ⟨before, after, split, -⟩ := List.lookup_eq_some_iff.mp named
  exact keyMap_records (value, key) (by simp [split])

end RemoteControl.Keyboard
