import RemoteControl.Keyboard.Keys
import RemoteControl.Presses
import RemoteControl.Runs

/-! # Keys on Wayland

The service with the virtual device takes key messages from the server process. Control
keys and raw codes go to the device. A character goes to the desktop portal, or to the device
when there is no session or the portal refuses, with Shift where the character needs it.

Which of the two it is, is found out anew for each message, also between the press of
a character and its release.
-/

namespace RemoteControl.Keyboard.Uinput

open Presses
open Runs (exec Always Along)

/-- Where a key is down -/
inductive Place where
  | portal (keysym : Nat)
  | device (code : Nat)
  deriving DecidableEq

/-- The session of `RDP_SESSION_INFO`, and what its portal says to notifications -/
inductive Portal where
  | absent
  | refusing
  | accepting
  deriving DecidableEq

inductive DataKeyboard where
  | sequence (seq : List Char)
  | keyDown (key : Key)
  | keyUp (key : Key)
  | keyClick (key : Key)

def KEY_LEFTSHIFT : Nat := 42

/-- The codes of `evdev` for the keys. -/
def KEY_MAP : List (Key × Nat) :=
  [ (.alt, 56), (.backspace, 14), (.capsLock, 58), (.control, 29), (.delete, 111), (.downArrow, 108),
    (.end_, 107), (.escape, 1), (.f1, 59), (.f10, 68), (.f11, 87), (.f12, 88), (.f2, 60), (.f3, 61),
    (.f4, 62), (.f5, 63), (.f6, 64), (.f7, 65), (.f8, 66), (.f9, 67), (.home, 102), (.leftArrow, 105),
    (.meta_, 125), (.option, 357), (.pageDown, 109), (.pageUp, 104), (.return_, 28),
    (.rightArrow, 106), (.shift, 42), (.space, 57), (.tab, 15), (.upArrow, 103), (.numpad0, 82),
    (.numpad1, 79), (.numpad2, 80), (.numpad3, 81), (.numpad4, 75), (.numpad5, 76), (.numpad6, 77),
    (.numpad7, 71), (.numpad8, 72), (.numpad9, 73), (.cancel, 223), (.clear, 355), (.pause, 119),
    (.kana, 90), (.hangul, 122), (.hanja, 123), (.select, 353), (.print, 210), (.snapshot, 99),
    (.insert, 110), (.help, 138), (.sleep, 142), (.scroll, 70), (.numLock, 69), (.rWin, 126),
    (.apps, 127), (.multiply, 55), (.add, 78), (.subtract, 74), (.decimal, 121), (.divide, 98),
    (.equals, 117), (.numpadEnter, 96), (.rightAlt, 100), (.rightControl, 97), (.rightShift, 54) ]

/-- The characters of each code, without and with Shift. -/
def KEY_MAP_LAYOUT : List (Char × Char × Nat) :=
  [ ('a', 'A', 30), ('b', 'B', 48), ('c', 'C', 46), ('d', 'D', 32), ('e', 'E', 18), ('f', 'F', 33),
    ('g', 'G', 34), ('h', 'H', 35), ('i', 'I', 23), ('j', 'J', 36), ('k', 'K', 37), ('l', 'L', 38),
    ('m', 'M', 50), ('n', 'N', 49), ('o', 'O', 24), ('p', 'P', 25), ('q', 'Q', 16), ('r', 'R', 19),
    ('s', 'S', 31), ('t', 'T', 20), ('u', 'U', 22), ('v', 'V', 47), ('w', 'W', 17), ('x', 'X', 45),
    ('y', 'Y', 21), ('z', 'Z', 44), ('0', ')', 11), ('1', '!', 2), ('2', '@', 3), ('3', '#', 4),
    ('4', '$', 5), ('5', '%', 6), ('6', '^', 7), ('7', '&', 8), ('8', '*', 9), ('9', '(', 10),
    (Char.ofNat 96, '~', 41), ('-', '_', 12), ('=', '+', 13), ('[', Char.ofNat 123, 26),
    (']', Char.ofNat 125, 27), (Char.ofNat 92, '|', 43), (',', '<', 51), ('.', '>', 52),
    ('/', '?', 53), (';', ':', 39), (Char.ofNat 39, Char.ofNat 34, 40),
    (' ', ' ', 57) ]

def mapLayout (c : Char) : Option (Nat × Bool) :=
  KEY_MAP_LAYOUT.findSome? fun (plain, shifted, code) =>
    if c = plain then some (code, false) else if c = shifted then some (code, true) else none

def mapKey (key : Key) : Option (Nat × Bool) :=
  match KEY_MAP.lookup key with
  | some k => some (k, false)
  | none =>
      match key with
      | .layout c => mapLayout c
      | _ => none

def charToKeysym (c : Char) : Nat :=
  let codepoint := c.toNat
  if codepoint = 0 then 0
  else if 0x20 ≤ codepoint ∧ codepoint ≤ 0x7E then codepoint
  else if 0xA0 ≤ codepoint ∧ codepoint ≤ 0xFF then codepoint
  else 0x01000000 ||| codepoint

def canInputViaKeysym (c : Char) (keysym : Nat) : Bool :=
  0x20 ≤ c.toNat && c.toNat ≤ 0x7E && keysym != 0

/-- One character of `input_text_wayland` -/
def inputCharWayland (portal : Portal) (c : Char) : List (Act Place) :=
  let keysym := charToKeysym c
  if canInputViaKeysym c keysym then
    if portal = .accepting then [.press (.portal keysym), .release (.portal keysym)]
    else
      match mapKey (.layout c) with
      | some (key, true) =>
          [.press (.device KEY_LEFTSHIFT), .press (.device key), .release (.device key),
            .release (.device KEY_LEFTSHIFT)]
      | some (key, false) => [.press (.device key), .release (.device key)]
      | none => []
  else []

def inputTextWayland (portal : Portal) (text : List Char) : List (Act Place) :=
  text.flatMap (inputCharWayland portal)

def inputCharWaylandKeyEvent (portal : Portal) (chr : Char) (down : Bool) : List (Act Place) :=
  let keysym := charToKeysym chr
  if canInputViaKeysym chr keysym then
    if portal = .accepting then
      [if down then .press (.portal keysym) else .release (.portal keysym)]
    else
      match mapKey (.layout chr) with
      | some (key, isShift) =>
          if down then
            (if isShift then [.press (.device KEY_LEFTSHIFT)] else []) ++ [.press (.device key)]
          else
            [.release (.device key)] ++ if isShift then [.release (.device KEY_LEFTSHIFT)] else []
      | none => []
  else []

/-- A key that `map_key` knows, or a raw code, which is 8 more than that of the device. -/
def deviceKey (key : Key) : Option Nat :=
  match key with
  | .raw code => if code < 8 then none else some (code - 8).toNat
  | key => (mapKey key).map (·.1)

def handleKeyboard (portal : Portal) (data : DataKeyboard) : List (Act Place) :=
  match data with
  | .sequence seq => inputTextWayland portal seq
  | .keyDown (.layout chr) => inputCharWaylandKeyEvent portal chr true
  | .keyUp (.layout chr) => inputCharWaylandKeyEvent portal chr false
  | .keyDown key => ((deviceKey key).map fun k => .press (.device k)).toList
  | .keyUp key => ((deviceKey key).map fun k => .release (.device k)).toList
  | .keyClick (.layout chr) => inputTextWayland portal [chr]
  | .keyClick key =>
      match mapKey key with
      | some (k, _) => [.press (.device k), .release (.device k)]
      | none => []

/-- Where a `KeyDown` presses the key and a `KeyUp` releases it, while the portal is so. -/
def places (portal : Portal) (key : Key) : List Place :=
  match key with
  | .layout chr =>
      let keysym := charToKeysym chr
      if canInputViaKeysym chr keysym then
        if portal = .accepting then [.portal keysym]
        else
          match mapKey (.layout chr) with
          | some (key, isShift) => (if isShift then [.device KEY_LEFTSHIFT] else []) ++ [.device key]
          | none => []
      else []
  | key => ((deviceKey key).map .device).toList

theorem handleKeyboard_places (portal : Portal) (key : Key) :
    handleKeyboard portal (.keyDown key) = (places portal key).map .press ∧
      handleKeyboard portal (.keyUp key) = (places portal key).reverse.map .release := by
  cases key with
  | layout chr =>
      simp only [handleKeyboard, inputCharWaylandKeyEvent, places]
      split
      case isFalse => exact ⟨rfl, rfl⟩
      case isTrue =>
        split
        case isTrue => exact ⟨rfl, rfl⟩
        case isFalse =>
          split
          case h_1 k isShift _ => cases isShift <;> exact ⟨rfl, rfl⟩
          case h_2 => exact ⟨rfl, rfl⟩
  | _ =>
      simp only [handleKeyboard, places]
      cases deviceKey _ <;> exact ⟨rfl, rfl⟩

theorem inputCharWayland_taps (portal : Portal) (c : Char) : Taps (inputCharWayland portal c) := by
  unfold inputCharWayland
  dsimp only
  split
  case isFalse => exact taps_nil
  case isTrue =>
    split
    case isTrue => exact taps_nil.around _
    case isFalse =>
      split
      case h_1 => exact (taps_nil.around _).around _
      case h_2 => exact taps_nil.around _
      case h_3 => exact taps_nil

structure State where
  portal : Portal := .absent
  down : Finset Place := ∅
  /-- The keys of a `KeyDown` that no `KeyUp` has followed. -/
  held : Finset Key := ∅

inductive Event where
  | portal (portal : Portal)
  | keyboard (data : DataKeyboard)

namespace State

def step (s : State) : Event → State
  | .portal portal => { s with portal }
  | .keyboard data =>
      { s with
        down := leaves s.down (handleKeyboard s.portal data)
        held :=
          match data with
          | .keyDown key => insert key s.held
          | .keyUp key => s.held.erase key
          | _ => s.held }

/-- The place is one where a `KeyDown` of the key may press it. -/
def Of (key : Key) (place : Place) : Prop := ∃ portal, place ∈ places portal key

/-- Once every `KeyDown` has been followed by a `KeyUp`, nothing is down. -/
def AllUp (s : State) : Prop := s.held = ∅ → s.down = ∅

/-- A message that types characters. -/
def typed : DataKeyboard → List Char
  | .sequence seq => seq
  | .keyDown (.layout chr) | .keyUp (.layout chr) | .keyClick (.layout chr) => [chr]
  | _ => []

/-- Typing leaves a Shift down that is held by `KeyDown(Shift)`. -/
def LeavesShift (s : State) : Event → Prop
  | .keyboard data => typed data ≠ [] → .shift ∈ s.held → .device KEY_LEFTSHIFT ∈ s.down →
      .device KEY_LEFTSHIFT ∈ (s.step (.keyboard data)).down
  | .portal _ => True

/-- The characters that a message releases. -/
def releasedChars : DataKeyboard → List Char
  | .sequence seq => seq
  | .keyUp (.layout chr) | .keyClick (.layout chr) => [chr]
  | _ => []

/-- A `KeyUp` comes while the portal is such that it reaches all that is down for its key
    alone. -/
def UpReaches (s : State) : DataKeyboard → Prop
  | .keyUp key => ∀ place ∈ s.down, Of key place →
      place ∈ places s.portal key ∨ ∃ other ∈ s.held.erase key, Of other place
  | _ => True

/-- No character is released on the device with a Shift that is held. -/
def SparesShift (s : State) (data : DataKeyboard) : Prop :=
  .shift ∈ s.held → .device KEY_LEFTSHIFT ∈ s.down →
    ∀ c ∈ releasedChars data, .device KEY_LEFTSHIFT ∉ places s.portal (.layout c)

def Reaches (s : State) : Event → Prop
  | .keyboard data => UpReaches s data ∧ SparesShift s data
  | .portal _ => True

instance (key : Key) (place : Place) : Decidable (Of key place) :=
  decidable_of_iff (place ∈ places .absent key ∨ place ∈ places .accepting key) <| by
    constructor
    · rintro (absent | accepting)
      · exact ⟨.absent, absent⟩
      · exact ⟨.accepting, accepting⟩
    · rintro ⟨portal, member⟩
      cases portal with
      | absent => exact .inl member
      | refusing => exact .inl member
      | accepting => exact .inr member

instance : DecidablePred AllUp := fun s => inferInstanceAs (Decidable (s.held = ∅ → s.down = ∅))

instance (s : State) : (data : DataKeyboard) → Decidable (UpReaches s data)
  | .keyUp key => inferInstanceAs (Decidable (∀ place ∈ s.down, Of key place →
      place ∈ places s.portal key ∨ ∃ other ∈ s.held.erase key, Of other place))
  | .sequence _ | .keyDown _ | .keyClick _ => inferInstanceAs (Decidable True)

instance (s : State) (data : DataKeyboard) : Decidable (SparesShift s data) :=
  -- by the list, not by all characters there are
  have : Decidable (∀ c ∈ releasedChars data, .device KEY_LEFTSHIFT ∉ places s.portal (.layout c)) :=
    List.decidableBAll _ _
  inferInstanceAs (Decidable (.shift ∈ s.held → .device KEY_LEFTSHIFT ∈ s.down →
    ∀ c ∈ releasedChars data, .device KEY_LEFTSHIFT ∉ places s.portal (.layout c)))

instance (s : State) : (e : Event) → Decidable (Reaches s e)
  | .keyboard _ => inferInstanceAs (Decidable (_ ∧ _))
  | .portal _ => inferInstanceAs (Decidable True)

/-! ## What each message keeps -/

variable {s : State}

/-- Whatever is down belongs to a key that is held. -/
def Owned (s : State) : Prop := ∀ place ∈ s.down, ∃ key ∈ s.held, Of key place

theorem sequence_taps (portal : Portal) (seq : List Char) :
    Taps (handleKeyboard portal (.sequence seq)) :=
  taps_flatMap (inputCharWayland_taps portal) seq

theorem keyClick_taps (portal : Portal) (key : Key) : Taps (handleKeyboard portal (.keyClick key)) := by
  cases key with
  | layout chr => exact taps_flatMap (inputCharWayland_taps portal) [chr]
  | _ =>
      simp only [handleKeyboard]
      split
      case h_1 => exact taps_nil.around _
      case h_2 => exact taps_nil

theorem Owned.step {e : Event} (owned : Owned s) (reaches : Reaches s e) : Owned (s.step e) := by
  cases e with
  | portal portal => exact owned
  | keyboard data =>
      cases data with
      | keyDown key =>
          intro place down
          simp only [State.step, (handleKeyboard_places ..).1, mem_leaves_presses] at down
          rcases down with new | old
          · exact ⟨key, Finset.mem_insert_self key s.held, s.portal, new⟩
          · obtain ⟨key', held, of⟩ := owned place old
            exact ⟨key', Finset.mem_insert_of_mem held, of⟩
      | keyUp key =>
          intro place down
          simp only [State.step, (handleKeyboard_places ..).2, mem_leaves_releases, List.mem_reverse] at down
          obtain ⟨key', held, of⟩ := owned place down.1
          by_cases same : key' = key
          · subst same
            exact (reaches.1 place down.1 of).resolve_left down.2
          · exact ⟨key', Finset.mem_erase.mpr ⟨same, held⟩, of⟩
      | sequence seq =>
          intro place down
          exact owned place ((sequence_taps s.portal seq).mem_leaves.mp down).1
      | keyClick key =>
          intro place down
          exact owned place ((keyClick_taps s.portal key).mem_leaves.mp down).1

theorem Owned.allUp (owned : Owned s) : AllUp s := by
  intro none_
  refine Finset.eq_empty_of_forall_notMem fun place down => ?_
  obtain ⟨key, held, -⟩ := owned place down
  simp [none_] at held

/-- What a typed character releases is where a `KeyUp` of it would release. -/
theorem release_mem_inputCharWayland {portal : Portal} {c : Char} {place : Place}
    (released : .release place ∈ inputCharWayland portal c) : place ∈ places portal (.layout c) := by
  unfold inputCharWayland at released
  unfold places
  dsimp only at released ⊢
  split at released
  case isFalse => cases released
  case isTrue can =>
    rw [if_pos can]
    split at released
    case isTrue accepting => simpa [accepting] using released
    case isFalse refuses =>
      rw [if_neg refuses]
      split at released
      case h_1 key mapped => simpa [mapped, or_comm] using released
      case h_2 key mapped => simpa [mapped] using released
      case h_3 => cases released

theorem leavesShift {e : Event} (reaches : Reaches s e) : LeavesShift s e := by
  cases e with
  | portal portal => trivial
  | keyboard data =>
      intro types held down
      have spared := reaches.2 held down
      cases data with
      | keyDown key =>
          simp only [State.step, (handleKeyboard_places ..).1, mem_leaves_presses]
          exact .inr down
      | keyUp key =>
          cases key with
          | layout chr =>
              simp only [State.step, (handleKeyboard_places ..).2, mem_leaves_releases, List.mem_reverse]
              exact ⟨down, spared chr List.mem_cons_self⟩
          | _ => exact (types rfl).elim
      | sequence seq =>
          refine (sequence_taps s.portal seq).mem_leaves.mpr ⟨down, fun released => ?_⟩
          obtain ⟨c, member, here⟩ := List.mem_flatMap.mp released
          exact spared c member (release_mem_inputCharWayland here)
      | keyClick key =>
          cases key with
          | layout chr =>
              refine (keyClick_taps s.portal (.layout chr)).mem_leaves.mpr ⟨down, fun released => ?_⟩
              obtain ⟨c, member, here⟩ := List.mem_flatMap.mp released
              exact spared c member (release_mem_inputCharWayland here)
          | _ => exact (types rfl).elim

/-- When each `KeyUp` reaches what is down for its key, and no character takes a held Shift
    away, nothing stays down and Shift stays held, however the portal comes and
    goes. -/
theorem keys_let_go (events : List Event) (reaches : Along step Reaches {} events) :
    Always step AllUp {} events ∧ Along step LeavesShift {} events := by
  have start : Owned {} := by simp [Owned]
  have keep (s : State) (e : Event) (owned : Owned s) (here : Reaches s e) := owned.step here
  constructor
  · exact (Runs.always_of_along keep start reaches).mono fun _ owned => owned.allUp
  · exact Runs.along_of_along (fun s e owned here => ⟨owned.step here, leavesShift here⟩) start reaches

theorem keys_let_go_four :
    let events : List Event :=
      [.portal .accepting, .keyboard (.keyDown .shift), .keyboard (.keyDown (.layout 'A')),
      .keyboard (.keyUp (.layout 'A')), .portal .absent, .keyboard (.keyClick (.layout 'b')),
      .keyboard (.keyUp .shift), .keyboard (.sequence ['H', 'i'])]
    Always step AllUp {} events ∧ Along step LeavesShift {} events :=
  keys_let_go _ (by decide +kernel)

/-- The portal appears between the press of a character and its release. -/
theorem released_elsewhere :
    ¬ ∀ events, Always step AllUp {} events ∧ Along step LeavesShift {} events := by
  intro always
  have broken := (always [.keyboard (.keyDown (.layout 'a')), .portal .accepting,
    .keyboard (.keyUp (.layout 'a'))]).1.last
  revert broken
  decide +kernel

end State

end RemoteControl.Keyboard.Uinput
