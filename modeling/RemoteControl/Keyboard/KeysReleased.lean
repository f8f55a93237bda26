import RemoteControl.Keyboard.InputService

/-! # No key stays down

`fix_key_down_timeout(true)` releases every key that has a record, so it leaves no key
down exactly when every key down has one. The invariant is that the records cover the
keys down, while a `Legacy` event is handled up to the modifiers pressed for it.

Four kinds of events break it: a raw key on Wayland is pressed and never recorded, a
function key leaves the modifiers pressed for it down, a control key that has no key of
its own takes a character's record off, and so does a character that uinput leaves to the
clipboard.
-/

namespace RemoteControl.Keyboard

open Ledger Runs

variable {κ : Type} {b : Backend κ} {s s' : State κ} {spare : List Key} {evt : KeyEvent}

/-- Every key down has a record, the spare ones aside. -/
def Covers (b : Backend κ) (spare : List Key) (s : State κ) : Prop :=
  Covered b.stands (spare.map fun key => b.code (.enigo key)) s.down s.keysDown

/-- The records are the same and no other keys are down. -/
structure Quiet (s s' : State κ) : Prop where
  keysDown : s'.keysDown = s.keysDown
  down : ∀ c ∈ s'.down, c ∈ s.down

theorem Quiet.refl (s : State κ) : Quiet s s := ⟨rfl, fun _ member => member⟩

theorem Quiet.trans {s'' : State κ} (first : Quiet s s') (second : Quiet s' s'') : Quiet s s'' :=
  ⟨second.keysDown.trans first.keysDown, fun c member => first.down c (second.down c member)⟩

theorem Covers.quiet (covers : Covers b spare s) (quiet : Quiet s s') : Covers b spare s' := by
  unfold Covers
  rw [quiet.keysDown]
  exact covers.fewer quiet.down

/-- What every pass of a loop keeps quiet, the loop does. -/
theorem quiet_foldl {α : Type} {f : State κ → α → State κ} (pass : ∀ s a, Quiet s (f s a))
    (l : List α) : Quiet s (l.foldl f s) := by
  induction l generalizing s with
  | nil => exact .refl s
  | cons a rest ih => exact (pass s a).trans ih

/-- Unless the press fails, a record stands for the key it presses. -/
def Recorded (b : Backend κ) (s : State κ) (source : Source) : Prop :=
  b.accepts s.tries = true → Stands b.stands s.keysDown (b.code source)

/-- The key that the record stands for is not down, or another record stands for it. -/
def Spared (b : Backend κ) (s : State κ) (recordKey : KeysDown) : Prop :=
  ∀ c ∈ s.down, b.stands recordKey = some c → Stands b.stands (strike recordKey s.keysDown) c

variable {recordKey : KeysDown} {source : Source} {ck : Int32} {chr : UInt32}

theorem Covers.record (covers : Covers b spare s) :
    Covers b spare (s.recordPressedKey recordKey true) :=
  covers.noted

theorem stands_recorded {c : κ} (standing : b.stands recordKey = some c) :
    Stands b.stands (s.recordPressedKey recordKey true).keysDown c :=
  stands_note.mpr (.inl standing)

theorem covers_strike_iff (covers : Covers b [] s) :
    Covers b [] (s.recordPressedKey recordKey false) ↔ Spared b s recordKey :=
  covered_strike covers

theorem stands_controlKeyRecord {key : Key} (named : controlKeyValueToKey ck = some key) :
    b.stands (.enigoKey (controlKeyRecord ck)) = some (b.code (.enigo key)) := by
  simp [Backend.stands, recordKeyToKey_controlKeyRecord named]

theorem stands_charRecord (chr : UInt32) :
    b.stands (.enigoKey (charRecord chr)) = some (b.code (.enigo (charValueToKey chr))) := by
  simp [Backend.stands, recordKeyToKey_charRecord]

variable [DecidableEq κ]

theorem keyUp_quiet (source : Source) : Quiet s (s.keyUp b source) :=
  ⟨rfl, fun _ member => Finset.mem_of_mem_erase member⟩

@[simp] theorem keyDown_keysDown (source : Source) :
    (s.keyDown b source).1.keysDown = s.keysDown := by
  unfold State.keyDown
  split <;> rfl

/-- What happens between a press and the release of the same key is all that counts. -/
theorem quiet_of_pressed (within : Quiet (s.keyDown b source).1 s') :
    Quiet s (s'.keyUp b source) := by
  obtain ⟨records, within⟩ := within
  have before : ∀ c ∈ (s.keyDown b source).1.down, c = b.code source ∨ c ∈ s.down := by
    unfold State.keyDown
    split
    · intro c member
      exact Finset.mem_insert.mp member
    · intro c member
      exact .inr member
  constructor
  · exact records.trans (keyDown_keysDown source)
  · intro c member
    obtain ⟨other, member⟩ := Finset.mem_erase.mp member
    exact (before c (within c member)).resolve_left other

theorem keyDown_failed_quiet (failed : (s.keyDown b source).2 = false) :
    Quiet s (s.keyDown b source).1 := by
  unfold State.keyDown at failed ⊢
  split at failed
  · cases failed
  · rename_i refused
    rw [if_neg refused]
    exact ⟨rfl, fun _ member => member⟩

theorem keySequence_quiet (sequence : List Char) : Quiet s (s.keySequence b sequence) := by
  apply quiet_foldl
  intro s chr
  exact quiet_of_pressed (.refl _)

theorem fixModifier_quiet (modifiers : List Int32) (key0 : Int32) (key1 : Key) :
    Quiet s (s.fixModifier b modifiers key0 key1) := by
  unfold State.fixModifier
  split
  · exact keyUp_quiet (.enigo key1)
  · exact .refl s

theorem releaseUnpressedModifiers_quiet (evt : KeyEvent) :
    Quiet s (s.releaseUnpressedModifiers b evt) := by
  apply quiet_foldl
  intro s fixed
  dsimp only
  split
  · exact fixModifier_quiet evt.modifiers _ _
  · exact .refl s

theorem releaseShift_quiet (key : Key) (rdevKey : RdevKey) :
    Quiet s (s.releaseShift b key rdevKey) := by
  unfold State.releaseShift
  split
  · split
    · exact keyUp_quiet (.enigo key)
    · exact keyUp_quiet (.rdev rdevKey)
  · exact .refl s

theorem releaseShiftForCharInput_quiet : Quiet s (s.releaseShiftForCharInput b) := by
  unfold State.releaseShiftForCharInput
  split
  · exact .refl s
  · exact (releaseShift_quiet .shift .shiftLeft).trans (releaseShift_quiet .rightShift .shiftRight)

theorem inputTextViaClipboardServer_quiet (text : List Char) :
    Quiet s (s.inputTextViaClipboardServer b text) := by
  unfold State.inputTextViaClipboardServer
  split
  · exact .refl s
  split
  all_goals
    rename_i s₁ set
    have copied : Quiet s s₁ := by
      obtain rfl : s₁ = (s.setClipboard b).1 := by rw [set]
      exact ⟨rfl, fun _ member => member⟩
  · exact copied
  apply copied.trans
  split
  · rename_i s₂ shift
    obtain rfl : s₂ = (s₁.keyDown b (.enigo .shift)).1 := by rw [shift]
    exact keyDown_failed_quiet (by rw [shift])
  · rename_i s₂ shift
    obtain rfl : s₂ = (s₁.keyDown b (.enigo .shift)).1 := by rw [shift]
    split
    · rename_i s₃ insert
      obtain rfl := congrArg Prod.fst insert
      exact quiet_of_pressed (keyDown_failed_quiet (by rw [insert]))
    · rename_i s₃ insert
      obtain rfl := congrArg Prod.fst insert
      exact quiet_of_pressed (quiet_of_pressed (.refl _))

theorem processUnicode_quiet (chr : UInt32) : Quiet s (s.processUnicode b chr) := by
  unfold State.processUnicode
  split
  · split
    · exact inputTextViaClipboardServer_quiet _
    · exact keySequence_quiet _
  · exact .refl s

theorem processSeq_quiet (sequence : List Char) : Quiet s (s.processSeq b sequence) := by
  unfold State.processSeq
  split
  · exact inputTextViaClipboardServer_quiet sequence
  · exact keySequence_quiet sequence

theorem covers_keyDown (source : Source) : Covers b spare (s.keyDown b source).1 ↔
    (b.accepts s.tries = true → b.code source ∈ spare.map (fun key => b.code (.enigo key)) ∨
      Stands b.stands s.keysDown (b.code source)) ∧ Covers b spare s := by
  unfold State.keyDown
  split
  · rename_i accepted
    simp only [Covers, covered_insert, accepted, true_imp_iff]
  · rename_i refused
    simp only [Covers, refused, false_imp_iff, true_and, Bool.false_eq_true]

theorem covers_keyDown_iff (covers : Covers b [] s) (source : Source) :
    Covers b [] (s.keyDown b source).1 ↔ Recorded b s source := by
  simp [covers_keyDown, covers, Recorded]

section

variable (covers : Covers b spare s)

include covers

theorem Covers.keyDown (standing : Stands b.stands s.keysDown (b.code source)) :
    Covers b spare (s.keyDown b source).1 := by
  rw [covers_keyDown]
  exact ⟨fun _ => .inr standing, covers⟩

/-- A press that is recorded before it is made. -/
theorem Covers.press (standing : b.stands recordKey = some (b.code source)) :
    Covers b spare ((s.recordPressedKey recordKey true).keyDown b source).1 :=
  covers.record.keyDown (stands_recorded standing)

/-- A release whose record is taken off before it is made. -/
theorem Covers.release (standing : b.stands recordKey = some (b.code source)) :
    Covers b spare ((s.recordPressedKey recordKey false).keyUp b source) := by
  have struck := Covered.struck (r := recordKey) covers
  rw [standing] at struck
  exact struck

theorem Covers.releaseKeys : Covers b [] (s.releaseKeys b spare) := by
  induction spare generalizing s with
  | nil => exact covers
  | cons key rest ih =>
      apply ih
      exact Covered.returned covers

end

theorem Covers.pressModifiers (covers : Covers b [] s) (evt : KeyEvent) :
    Covers b (s.pressModifiers b evt).2 (s.pressModifiers b evt).1 := by
  have keep (pressed : State κ × List Key) (ck : Int32) (_ : True)
      (covers : Covers b pressed.2 pressed.1) :
      Covers b (State.pressModifier b pressed ck).2 (State.pressModifier b pressed ck).1 := by
    unfold State.pressModifier
    split
    · rename_i key _
      rw [covers_keyDown]
      constructor
      · intro _
        left
        simp
      · apply Covered.spared covers
        intro c member
        simp [List.map_append, member]
    · exact covers
  exact (always_of_events keep (s := (s, [])) (fun _ _ => trivial) covers).last

theorem Covers.syncModifiers (covers : Covers b [] s) (evt : KeyEvent) :
    Covers b (s.syncModifiers b evt).2 (s.syncModifiers b evt).1 := by
  unfold State.syncModifiers
  split
  · exact (covers.quiet (releaseUnpressedModifiers_quiet evt)).pressModifiers evt
  · exact covers

/-- Each modifier that has to be pressed has a record. -/
def ModifiersRecorded (b : Backend κ) (s : State κ) (modifiers : List Int32) : Prop :=
  Along (State.pressModifier b)
    (fun pressed ck => ∀ key ∈ pressed.1.modifierToPress b ck, Recorded b pressed.1 (.enigo key))
    (s, []) modifiers

theorem covers_pressModifiers_iff (covers : Covers b [] s) (evt : KeyEvent) :
    Covers b [] (s.pressModifiers b evt).1 ↔ ModifiersRecorded b s evt.modifiers := by
  have before (pressed : State κ × List Key) (ck : Int32)
      (after : Covers b [] (State.pressModifier b pressed ck).1) : Covers b [] pressed.1 := by
    unfold State.pressModifier at after
    split at after
    · exact (covers_keyDown _).mp after |>.2
    · exact after
  have exact_ (pressed : State κ × List Key) (ck : Int32) (covers : Covers b [] pressed.1) :
      Covers b [] (State.pressModifier b pressed ck).1 ↔
        ∀ key ∈ pressed.1.modifierToPress b ck, Recorded b pressed.1 (.enigo key) := by
    unfold State.pressModifier
    cases pressed.1.modifierToPress b ck with
    | none => simp [covers]
    | some key => simp [covers_keyDown_iff covers]
  unfold ModifiersRecorded
  rw [← always_iff_along (p := fun pressed => Covers b [] pressed.1) exact_ covers]
  exact (always_iff_last (p := fun (pressed : State κ × List Key) => Covers b [] pressed.1) before).symm

theorem releaseRecordKey_eq (recordKey : KeysDown) :
    (s.recordPressedKey recordKey false).releaseRecordKey b recordKey =
      { s with
        down := giveBack s.down (b.stands recordKey)
        keysDown := strike recordKey s.keysDown } := by
  cases recordKey with
  | rdevKey rawkey => rfl
  | enigoKey record =>
      simp only [State.releaseRecordKey, Backend.stands]
      cases recordKeyToKey record <;> rfl

theorem Covers.fixKeyDownTimeout (covers : Covers b [] s) (force : Bool)
    (expired : KeysDown → Bool) : Covers b [] (s.fixKeyDownTimeout b force expired) := by
  unfold State.fixKeyDownTimeout
  induction b.visit s.keysDown generalizing s with
  | nil => exact covers
  | cons recordKey rest ih =>
      rw [List.foldl_cons]
      apply ih
      split
      · rw [releaseRecordKey_eq]
        exact covers.struck
      · exact covers

theorem down_fixKeyDownTimeout (expired : KeysDown → Bool) :
    (s.fixKeyDownTimeout b true expired).down = settle b.stands s.down (b.visit s.keysDown) := by
  unfold State.fixKeyDownTimeout settle
  induction b.visit s.keysDown generalizing s with
  | nil => rfl
  | cons recordKey rest ih =>
      rw [List.foldl_cons, List.foldl_cons, ih, Bool.true_or, if_pos rfl, releaseRecordKey_eq]

theorem down_fixKeyDownTimeout_eq_empty (expired : KeysDown → Bool) :
    (s.fixKeyDownTimeout b true expired).down = ∅ ↔ Covers b [] s := by
  rw [down_fixKeyDownTimeout]
  exact settle_eq_empty (b.visit_perm s.keysDown)

theorem processControlKey_eq_none (unnamed : controlKeyValueToKey ck = none) (down : Bool) :
    s.processControlKey b ck down = s := by
  unfold State.processControlKey
  rw [unnamed]

/-- What a `Legacy` event must meet for every key down to have a record after it. -/
def LegacyAccounted (b : Backend κ) (s : State κ) (evt : KeyEvent) : Prop :=
  match evt.union with
  | some (.controlKey ck) =>
      if State.isFunctionKey ck then
        evt.down = true → ModifiersRecorded b (s.releaseUnpressedModifiers b evt) evt.modifiers
      else
        evt.down = false → controlKeyValueToKey ck = none →
          Spared b s (.enigoKey (controlKeyRecord ck))
  | some (.chr chr) =>
      let s := s.releaseShiftForCharInput b
      evt.down = false → b.waylandUseUinput = true → s.isHotkeyModifierPressed b = false →
        Spared b s (.enigoKey (charRecord chr))
  | _ => True

/-- What an event must meet for every key down to have a record after it. -/
def Accounted (b : Backend κ) (s : State κ) : Event → Prop
  | .handleKey evt =>
      s.exiting = false →
        match evt.mode with
        | .map => b.isX11 = false → evt.down = true → Recorded b s (.enigo (.raw evt.chr.toUInt16))
        | .translate =>
            match evt.union with
            | some (.chr chr) =>
                b.isX11 = false → evt.down = true → Recorded b s (.enigo (.raw chr.toUInt16))
            | _ => True
        | _ => LegacyAccounted b s evt
  | _ => True

instance (b : Backend κ) (s : State κ) (source : Source) : Decidable (Recorded b s source) :=
  inferInstanceAs (Decidable (_ → Stands ..))

instance (b : Backend κ) (s : State κ) (recordKey : KeysDown) : Decidable (Spared b s recordKey) :=
  inferInstanceAs (Decidable (∀ c ∈ s.down, _ → Stands ..))

instance (b : Backend κ) (s : State κ) (modifiers : List Int32) :
    Decidable (ModifiersRecorded b s modifiers) :=
  inferInstanceAs (Decidable (Along ..))

instance (b : Backend κ) (s : State κ) : (evt : KeyEvent) → Decidable (LegacyAccounted b s evt)
  | ⟨_, some (.controlKey ck), _, _⟩ =>
      inferInstanceAs (Decidable
        (if State.isFunctionKey ck then _ → ModifiersRecorded b .. else _ → _ → Spared b ..))
  | ⟨_, some (.chr _), _, _⟩ => inferInstanceAs (Decidable (_ → _ → _ → Spared b ..))
  | ⟨_, none, _, _⟩ | ⟨_, some (.unicode _), _, _⟩ | ⟨_, some (.seq _), _, _⟩
  | ⟨_, some (.win2winHotkey _), _, _⟩ => isTrue trivial

instance (b : Backend κ) (s : State κ) : (e : Event) → Decidable (Accounted b s e)
  | .handleKey ⟨_, _, _, .map⟩ => inferInstanceAs (Decidable (_ → _ → _ → Recorded ..))
  | .handleKey ⟨_, some (.chr _), _, .translate⟩ =>
      inferInstanceAs (Decidable (_ → _ → _ → Recorded ..))
  | .handleKey ⟨_, none, _, .translate⟩ | .handleKey ⟨_, some (.controlKey _), _, .translate⟩
  | .handleKey ⟨_, some (.unicode _), _, .translate⟩ | .handleKey ⟨_, some (.seq _), _, .translate⟩
  | .handleKey ⟨_, some (.win2winHotkey _), _, .translate⟩ => isTrue fun _ => trivial
  | .handleKey ⟨_, _, _, .legacy⟩ | .handleKey ⟨_, _, _, .other⟩ =>
      inferInstanceAs (Decidable (_ → LegacyAccounted ..))
  | .fixKeyDownTimeout .. | .fixKeyDownTimeoutAtExit => isTrue trivial

theorem syncModifiers_up (up : evt.down = false) : s.syncModifiers b evt = (s, []) := by
  simp [State.syncModifiers, up]

theorem Covers.processControlKey (covers : Covers b spare s) :
    Covers b spare ((s.recordPressedKey (.enigoKey (controlKeyRecord ck)) true).processControlKey b ck
      true) := by
  unfold State.processControlKey
  split
  · rename_i key named
    exact covers.press (stands_controlKeyRecord named)
  · exact covers.record

theorem covers_legacy_controlKey (covers : Covers b [] s)
    (union : evt.union = some (.controlKey ck)) :
    Covers b [] (s.legacyKeyboardMode b evt) ↔ LegacyAccounted b s evt := by
  simp only [State.legacyKeyboardMode, LegacyAccounted, union]
  have synced := covers.syncModifiers evt
  by_cases function : State.isFunctionKey ck
  · simp only [function, if_true]
    unfold State.syncModifiers
    cases evt.down with
    | true =>
        simp only [if_true, true_imp_iff]
        exact covers_pressModifiers_iff (covers.quiet (releaseUnpressedModifiers_quiet evt)) evt
    | false => simpa using covers
  simp only [function, if_false, Bool.false_eq_true]
  cases held : evt.down with
  | true =>
      simp only [Bool.true_eq_false, false_imp_iff, iff_true]
      exact synced.processControlKey.releaseKeys
  | false =>
      simp only [syncModifiers_up held, true_imp_iff]
      cases named : controlKeyValueToKey ck with
      | none =>
          simp only [processControlKey_eq_none named, true_imp_iff]
          exact covers_strike_iff covers
      | some key =>
          simp only [State.processControlKey, named, reduceCtorEq, false_imp_iff, iff_true]
          exact (covers.release (stands_controlKeyRecord named)).releaseKeys

theorem Covers.processChrKey (covers : Covers b spare s) :
    Covers b spare ((s.recordPressedKey (.enigoKey (charRecord chr)) true).processChrKey b chr
      true) := by
  have pressed := covers.press (stands_charRecord chr)
  simp only [State.processChrKey, if_true]
  split
  · rename_i after press
    rw [press] at pressed
    exact pressed
  · rename_i after press
    rw [press] at pressed
    split
    · exact pressed.quiet (keySequence_quiet _)
    · exact pressed

section

variable (covers : Covers b [] s)

include covers

/-- Only a character left to the clipboard is not released. -/
theorem covers_processChr_up :
    Covers b [] ((s.recordPressedKey (.enigoKey (charRecord chr)) false).processChr b chr false) ↔
      (b.waylandUseUinput = true → s.isHotkeyModifierPressed b = false →
        Spared b s (.enigoKey (charRecord chr))) := by
  have same : (s.recordPressedKey (.enigoKey (charRecord chr)) false).isHotkeyModifierPressed b =
      s.isHotkeyModifierPressed b := rfl
  have released := covers.release (stands_charRecord chr)
  rw [State.processChr, same]
  cases b.waylandUseUinput with
  | false =>
      simp only [Bool.false_and, Bool.false_eq_true, if_false, false_imp_iff, iff_true]
      exact released
  | true =>
      cases s.isHotkeyModifierPressed b with
      | true =>
          simp only [Bool.not_true, Bool.and_false, Bool.false_eq_true, if_false, reduceCtorEq,
            false_imp_iff, true_imp_iff, iff_true]
          exact released
      | false =>
          simp only [Bool.not_false, Bool.and_true, if_true, Bool.false_eq_true, if_false, true_imp_iff]
          exact covers_strike_iff covers

theorem covers_legacy_chr (union : evt.union = some (.chr chr)) :
    Covers b [] (s.legacyKeyboardMode b evt) ↔ LegacyAccounted b s evt := by
  simp only [State.legacyKeyboardMode, LegacyAccounted, union]
  have synced := (covers.syncModifiers evt).quiet (releaseShiftForCharInput_quiet (b := b))
  cases held : evt.down with
  | true =>
      simp only [Bool.true_eq_false, false_imp_iff, iff_true]
      apply Covers.releaseKeys
      unfold State.processChr
      split
      · simp only [if_true]
        split
        · exact synced.record.quiet (inputTextViaClipboardServer_quiet _)
        · exact synced.record
      · exact synced.processChrKey
  | false =>
      simp only [syncModifiers_up held, true_imp_iff]
      exact covers_processChr_up (covers.quiet (releaseShiftForCharInput_quiet (b := b)))

theorem covers_legacy (evt : KeyEvent) :
    Covers b [] (s.legacyKeyboardMode b evt) ↔ LegacyAccounted b s evt := by
  have synced := covers.syncModifiers evt
  cases union : evt.union with
  | none => simpa [State.legacyKeyboardMode, LegacyAccounted, union] using synced.releaseKeys
  | some payload =>
      cases payload with
      | controlKey ck => exact covers_legacy_controlKey covers union
      | chr chr => exact covers_legacy_chr covers union
      | unicode chr =>
          simp only [State.legacyKeyboardMode, LegacyAccounted, union, iff_true]
          apply Covers.releaseKeys
          exact (synced.quiet releaseShiftForCharInput_quiet).quiet (processUnicode_quiet chr)
      | seq seq =>
          simp only [State.legacyKeyboardMode, LegacyAccounted, union, iff_true]
          apply Covers.releaseKeys
          exact synced.quiet (processSeq_quiet seq)
      | win2winHotkey code =>
          simpa [State.legacyKeyboardMode, LegacyAccounted, union] using synced.releaseKeys

theorem covers_rawKey (code : UInt32) (down : Bool) :
    Covers b [] (if !b.isX11 then s.waylandSendRawKey b code.toUInt16 down
      else s.simRdevRawkeyPosition b code down) ↔
      (b.isX11 = false → down = true → Recorded b s (.enigo (.raw code.toUInt16))) := by
  cases b.isX11 with
  | true =>
      simp only [Bool.not_true, Bool.false_eq_true, if_false, reduceCtorEq, false_imp_iff, iff_true]
      cases down with
      | true => exact covers.press rfl
      | false => exact covers.release rfl
  | false =>
      simp only [Bool.not_false, if_true, true_imp_iff]
      cases down with
      | true => exact (covers_keyDown_iff covers _).trans (by simp)
      | false =>
          simp only [Bool.false_eq_true, false_imp_iff, iff_true]
          exact covers.quiet (keyUp_quiet _)

theorem covers_translate (evt : KeyEvent) :
    Covers b [] (s.translateKeyboardMode b evt) ↔
      match evt.union with
      | some (.chr chr) =>
          b.isX11 = false → evt.down = true → Recorded b s (.enigo (.raw chr.toUInt16))
      | _ => True := by
  cases union : evt.union with
  | none => simpa [State.translateKeyboardMode, union] using covers
  | some payload =>
      cases payload with
      | controlKey ck => simpa [State.translateKeyboardMode, union] using covers
      | chr chr =>
        simpa only [State.translateKeyboardMode, union] using covers_rawKey covers chr evt.down
      | unicode chr => simpa [State.translateKeyboardMode, union] using covers
      | seq seq =>
          simp only [State.translateKeyboardMode, union, iff_true]
          split
          · split
            · exact covers.quiet (keySequence_quiet seq)
            · exact covers.quiet
                (releaseShiftForCharInput_quiet.trans (inputTextViaClipboardServer_quiet seq))
          · exact covers.quiet (releaseShiftForCharInput_quiet.trans (keySequence_quiet seq))
      | win2winHotkey code => simpa [State.translateKeyboardMode, union] using covers

/-- One event: the records go on covering the keys down exactly when it is accounted for. -/
theorem covers_step (e : Event) :
    Covers b [] (step b s e) ↔ Accounted b s e := by
  cases e with
  | handleKey evt =>
      simp only [step, State.handleKey_, Accounted]
      cases s.exiting with
      | true => simp [covers]
      | false =>
          simp only [Bool.false_eq_true, if_false, true_imp_iff]
          cases evt.mode with
          | map => exact covers_rawKey covers evt.chr evt.down
          | translate => exact covers_translate covers evt
          | legacy => exact covers_legacy covers evt
          | other => exact covers_legacy covers evt
  | fixKeyDownTimeout force expired =>
      simp only [step, Accounted, iff_true]
      exact covers.fixKeyDownTimeout force expired
  | fixKeyDownTimeoutAtExit =>
      simp only [step, Accounted, iff_true, State.fixKeyDownTimeoutAtExit]
      split
      · exact covers
      · exact Covers.fixKeyDownTimeout (s := { s with exiting := true }) covers true _

end

/-- Whatever comes in and whenever the last subscriber leaves, no key stays down: exactly
    in the runs in which each event is accounted for. -/
theorem keys_released (start : s.down = ∅) (expired : KeysDown → Bool) (events : List Event) :
    Always (step b) (fun s => (s.fixKeyDownTimeout b true expired).down = ∅) s events ↔
      Along (step b) (Accounted b) s events := by
  have covers : Covers b [] s := by
    rw [Covers, start]
    exact covered_empty
  simp only [down_fixKeyDownTimeout_eq_empty]
  exact always_iff_along (fun s e covers => covers_step covers e) covers

/-- A machine on which every key is its own and every press succeeds. -/
def machine (isX11 isServer : Bool) : Backend Source where
  isX11
  isServer
  code := id
  keyState down key := .enigo key ∈ down
  accepts _ := true
  toUppercase chr := [chr]
  visit := id
  visit_perm := .refl

/-- The hotkey Ctrl+C in `Legacy` mode. -/
def copy : List Event :=
  [ .handleKey ⟨true, some (.controlKey ControlKey.control), [], .legacy⟩,
    .handleKey ⟨true, some (.chr 99), [ControlKey.control], .legacy⟩,
    .handleKey ⟨false, some (.chr 99), [ControlKey.control], .legacy⟩,
    .handleKey ⟨false, some (.controlKey ControlKey.control), [], .legacy⟩ ]

theorem copy_released : Always (step (machine false true))
    (fun s => (s.fixKeyDownTimeout (machine false true) true fun _ => false).down = ∅) {} copy :=
  (keys_released rfl _ copy).mpr (by decide)

/-- The keys still down once the last subscriber has left. -/
def leftDown (b : Backend κ) (events : List KeyEvent) : Finset κ :=
  ((exec (step b) {} (events.map .handleKey)).fixKeyDownTimeout b true fun _ => false).down

/-- A raw key on Wayland; locking the screen through uinput, which is a Meta+L of the program's
    own; Ctrl+Alt+Del with a modifier that was not down; a control key whose number is the record
    of a character. -/
theorem keys_left_down :
    leftDown (machine false false) [⟨true, some (.chr 38), [], .map⟩] = {.enigo (.raw 38)} ∧
      leftDown (machine false true) [lockScreenEvent true, lockScreenEvent false] =
        {.enigo (.layout 'l')} ∧
      leftDown (machine true false)
        [⟨true, some (.controlKey ControlKey.ctrlAltDel), [ControlKey.control], .legacy⟩] =
        {.enigo .control} ∧
      leftDown (machine true false)
        [ ⟨true, some (.chr 97), [], .legacy⟩,
          ⟨false, some (.controlKey (9999 + 97)), [], .legacy⟩ ] = {.enigo (.layout 'a')} := by
  decide

end RemoteControl.Keyboard
