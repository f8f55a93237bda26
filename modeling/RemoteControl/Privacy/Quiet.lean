import RemoteControl.Privacy.Implementations

/-! # Nothing left behind

Without a connection that privacy mode is on for, the displays show what they are to show and
nothing takes the input. An attempt to turn it on that fails leads back there.
-/

namespace RemoteControl.Privacy

/-- What the user at the machine notices of privacy mode. -/
structure View where
  active : Bool
  hooked : Bool
  shown : Bool
  settings : Nat → DevMode

def Platform.view (p : Platform) : View :=
  ⟨p.active, p.hooked, p.window = some true, fun i => p.settings (.physical i)⟩

/-- Nothing of privacy mode. -/
structure Platform.Quiet (p : Platform) : Prop where
  active : p.active = false
  hooked : p.hooked = false
  shown : p.window ≠ some true
  pending : ∀ d, p.pending d = none

/-- The calls that put the displays back work. -/
def Outcomes.Restores (o : Outcomes) : Prop := (∀ d, o.restore d = true) ∧ o.restoreCommit = true

section Platform

variable {p p' : Platform} {o : Outcomes} {d : Device}

/-- Quiet platforms with the same displays look the same. -/
theorem view_eq (quiet : p.Quiet) (quiet' : p'.Quiet)
    (settings : ∀ i, p'.settings (.physical i) = p.settings (.physical i)) : p'.view = p.view := by
  simp [Platform.view, quiet.active, quiet.hooked, quiet.shown, quiet'.active, quiet'.hooked,
    quiet'.shown, settings]

theorem hide_shown (p : Platform) : (p.showWindow false).window ≠ some true := by
  cases window : p.window <;> simp [Platform.showWindow, window]

/-- Telling the connection manager changes nothing else. -/
theorem tell_eq (p : Platform) (preConnId connId : Nat) (state : Option PrivacyModeState)
    (implKey : String) :
    ∃ told, p.tell preConnId connId state implKey = { p with told } := by
  cases state with
  | none => exact ⟨p.told, rfl⟩
  | some state =>
      unfold Platform.tell
      dsimp only
      split
      case isTrue => exact ⟨p.told, rfl⟩
      case isFalse => exact ⟨_, rfl⟩

end Platform

/-- Nobody has privacy mode on. -/
theorem checkOn_off {preConnId connId : Nat} (off : preConnId = 0) (some_ : 0 < connId) :
    checkOnConnId preConnId connId = .ok false := by
  subst off
  simp [checkOnConnId, Nat.ne_of_lt some_]

theorem checkOff_cases (preConnId connId : Nat) :
    (preConnId ≠ 0 ∧ connId ≠ 0 ∧ preConnId ≠ connId ∧
      checkOffConnId preConnId connId = .error turnOffOtherId) ∨
      checkOffConnId preConnId connId = .ok () := by
  unfold checkOffConnId
  split
  case isTrue other => exact .inl ⟨other.1, other.2.1, other.2.2, rfl⟩
  case isFalse => exact .inr rfl

/-- A call that was to turn privacy mode on, and has it off before. -/
structure Attempted {ι : Type} (Fits : ι → Platform → Prop) (connId : ι → Nat) (p : Platform)
    (d : Done ι Bool) :
    Prop where
  fits : Fits d.mode d.platform
  failed : d.answer ≠ .ok true → connId d.mode = 0 ∧ d.platform.view = p.view

namespace MacOs

structure Fit (m : Impl) (p : Platform) : Prop where
  hooked : p.hooked = false
  shown : p.window ≠ some true
  pending : ∀ d, p.pending d = none
  active : m.connId = 0 → p.active = false

variable {m : Impl} {p : Platform} {connId : Nat} {o : Outcomes}

theorem Fit.quiet (fit : Fit m p) (off : m.connId = 0) : p.Quiet :=
  ⟨fit.active off, fit.hooked, fit.shown, fit.pending⟩

theorem mac_off (p : Platform) (o : Outcomes) :
    (p.macSetPrivacyMode false o).1 = { p with active := false } := by
  obtain ⟨active⟩ := p
  cases active <;> rfl

theorem turnOn_attempted (fit : Fit m p) (off : m.connId = 0) (some_ : 0 < connId) :
    Attempted Fit Impl.connId p (turnOnPrivacy m p connId o) := by
  have active := fit.active off
  unfold turnOnPrivacy
  simp only [checkOn_off off some_, Platform.macSetPrivacyMode, active]
  cases o.blackout with
  | true => exact ⟨⟨fit.hooked, fit.shown, fit.pending, fun no => by simp at no; omega⟩,
    fun no => absurd rfl no⟩
  | false => exact ⟨fit, fun _ => ⟨off, rfl⟩⟩

theorem turnOn_works (off : m.connId = 0) (some_ : 0 < connId) (works : o.blackout = true) :
    (turnOnPrivacy m p connId o).answer = .ok true := by
  unfold turnOnPrivacy
  simp only [checkOn_off off some_, Platform.macSetPrivacyMode, works]
  cases p.active <;> rfl

theorem turnOn_fails (fit : Fit m p) (off : m.connId = 0) (some_ : 0 < connId)
    (fails : o.blackout = false) :
    (turnOnPrivacy m p connId o).answer ≠ .ok true := by
  have active := fit.active off
  unfold turnOnPrivacy
  simp [checkOn_off off some_, Platform.macSetPrivacyMode, fails, active]

theorem clear_quiet (fit : Fit m p) : (clear m p o).2.Quiet ∧ (clear m p o).1.connId = 0 := by
  refine ⟨?_, rfl⟩
  rw [clear, mac_off]
  exact ⟨rfl, fit.hooked, fit.shown, fit.pending⟩

theorem drop_quiet (quiet : p.Quiet) : (drop m p o).Quiet := by
  rw [drop, clear, mac_off]
  exact ⟨rfl, quiet.hooked, quiet.shown, quiet.pending⟩

theorem turnOff_fit (fit : Fit m p) :
    Fit (turnOffPrivacy m p connId o).mode (turnOffPrivacy m p connId o).platform := by
  unfold turnOffPrivacy
  split
  case h_1 => exact fit
  case h_2 =>
    have off := mac_off p o
    dsimp only
    generalize p.macSetPrivacyMode false o = after at off
    obtain ⟨p', success⟩ := after
    obtain rfl := off
    cases success
    · exact ⟨fit.hooked, fit.shown, fit.pending, fun _ => rfl⟩
    · exact ⟨fit.hooked, fit.shown, fit.pending, fun _ => rfl⟩

theorem turnOn_implKey : (turnOnPrivacy m p connId o).mode.implKey = m.implKey := by
  unfold turnOnPrivacy
  split
  case h_1 => rfl
  case h_2 => rfl
  case h_3 => dsimp only; split <;> rfl

theorem turnOff_implKey : (turnOffPrivacy m p connId o).mode.implKey = m.implKey := by
  unfold turnOffPrivacy
  split
  case h_1 => rfl
  case h_2 => dsimp only; split <;> rfl

end MacOs

namespace TopmostWindow

structure Fit (m : Impl) (p : Platform) : Prop where
  active : p.active = false
  pending : ∀ d, p.pending d = none
  hooked : m.connId = 0 → p.hooked = false
  shown : m.connId = 0 → p.window ≠ some true

variable {m : Impl} {p : Platform} {connId : Nat} {o : Outcomes} {state : Option PrivacyModeState}

theorem Fit.quiet (fit : Fit m p) (off : m.connId = 0) : p.Quiet :=
  ⟨fit.active, fit.hooked off, fit.shown off, fit.pending⟩

/-- A window that has come up is hidden. -/
theorem start_fit (fit : Fit m p) (off : m.connId = 0) :
    Fit (start m p o).1.1 (start m p o).1.2 ∧ (start m p o).1.1.connId = 0 ∧
      (start m p o).1.2.view = p.view := by
  have shown := fit.shown off
  unfold start
  split
  case isTrue => exact ⟨fit, off, rfl⟩
  case isFalse =>
    split
    case h_1 => exact ⟨fit, off, rfl⟩
    case h_2 =>
      refine ⟨⟨fit.active, fit.pending, fit.hooked, fun _ => by simp⟩, off, ?_⟩
      simp [Platform.view, shown]
    case h_3 => exact ⟨⟨fit.active, fit.pending, fit.hooked, fit.shown⟩, off, rfl⟩

theorem hook_cases (not : p.hooked = false) :
    (p.hook o = ({ p with hooked := true }, .ok ()) ∧ o.hook = .ok ()) ∨
      ∃ e, p.hook o = (p, .error e) ∧ o.hook = .error e := by
  cases result : o.hook with
  | ok _ => exact .inl ⟨by simp [Platform.hook, not, result], rfl⟩
  | error e => exact .inr ⟨e, by simp [Platform.hook, not, result], rfl⟩

theorem cover_attempted (fit : Fit m p) (off : m.connId = 0) (some_ : 0 < connId) :
    Attempted Fit Impl.connId p (cover m p connId o) := by
  unfold cover
  split
  case isTrue => exact ⟨fit, fun _ => ⟨off, rfl⟩⟩
  case isFalse =>
    rcases hook_cases (o := o) (fit.hooked off) with ⟨same, -⟩ | ⟨e, same, -⟩
    · rw [same]
      exact ⟨⟨fit.active, fit.pending, fun no => by simp at no; omega, fun no => by simp at no; omega⟩,
        fun no => absurd rfl no⟩
    · rw [same]
      exact ⟨fit, fun _ => ⟨off, rfl⟩⟩

theorem turnOn_attempted (fit : Fit m p) (off : m.connId = 0) (some_ : 0 < connId) :
    Attempted Fit Impl.connId p (turnOnPrivacy m p connId o) := by
  have started := start_fit (o := o) fit off
  unfold turnOnPrivacy
  simp only [checkOn_off off some_]
  split
  case h_1 => exact ⟨fit, fun _ => ⟨off, rfl⟩⟩
  case h_2 =>
    split_ifs
    · exact ⟨fit, fun _ => ⟨off, rfl⟩⟩
    · exact ⟨fit, fun _ => ⟨off, rfl⟩⟩
    · generalize start m p o = after at started ⊢
      obtain ⟨⟨m', p'⟩, result⟩ := after
      obtain ⟨fit', off', same⟩ := started
      cases result with
      | error e => exact ⟨fit', fun _ => ⟨off', same⟩⟩
      | ok _ =>
          obtain ⟨fits, failed⟩ := cover_attempted (o := o) fit' off' some_
          exact ⟨fits, fun no => ⟨(failed no).1, (failed no).2.trans same⟩⟩

/-- What has to work. -/
def Works (o : Outcomes) : Prop :=
  (∃ exeFile, o.exeFile = .ok exeFile) ∧ o.hasParent = true ∧ o.dll = true ∧ o.launch = .ok true ∧
    o.hook = .ok ()

/-- One of these is enough for an error, or for nothing to happen. -/
def Fails (o : Outcomes) : Prop :=
  (∃ e, o.exeFile = .error e) ∨ o.hasParent = false ∨ o.dll = false ∨ ∃ e, o.hook = .error e

theorem turnOn_works (fit : Fit m p) (off : m.connId = 0) (new : m.started = false) (some_ : 0 < connId)
    (works : Works o) : (turnOnPrivacy m p connId o).answer = .ok true := by
  obtain ⟨⟨exeFile, exe⟩, parent, dll, launch, hook⟩ := works
  have hooked := fit.hooked off
  unfold turnOnPrivacy
  simp only [checkOn_off off some_, exe, parent, dll, Bool.not_true, Bool.false_eq_true, if_false]
  cases window : p.window with
  | some shown => simp [start, cover, window, Platform.hook, hooked, hook]
  | none => simp [start, cover, window, new, launch, Platform.hook, hooked, hook]

theorem turnOn_fails (off : m.connId = 0) (some_ : 0 < connId) (fails : Fails o) :
    (turnOnPrivacy m p connId o).answer ≠ .ok true := by
  unfold turnOnPrivacy
  simp only [checkOn_off off some_]
  rcases fails with ⟨e, exe⟩ | parent | dll | ⟨e, hook⟩
  · simp [exe]
  · split <;> simp [parent]
  · split
    case h_1 => simp
    case h_2 => split_ifs <;> simp_all
  · have covered (m : Impl) (p : Platform) : (cover m p connId o).answer ≠ .ok true := by
      unfold cover Platform.hook
      rw [hook]
      split
      case isTrue => simp
      case isFalse => split_ifs <;> simp
    split
    case h_1 => simp
    case h_2 =>
      split_ifs
      · simp
      · simp
      · split
        case h_1 => simp
        case h_2 => exact covered _ _

theorem unhook_cases (p : Platform) (o : Outcomes) :
    (p.unhook o = ({ p with hooked := false }, .ok ())) ∨ ∃ e e',
      p.unhook o = (p, .error e) ∧ o.post = .error e' := by
  obtain ⟨active, hooked⟩ := p
  unfold Platform.unhook
  cases hooked with
  | false => exact .inl rfl
  | true =>
      cases post : o.post with
      | ok _ => exact .inl rfl
      | error e => exact .inr ⟨_, e, rfl, rfl⟩

/-- Either nothing happens, or everything is put back. -/
theorem turnOff_cases (connId : Nat) (state : Option PrivacyModeState) (fit : Fit m p) :
    ((turnOffPrivacy m p connId o state).mode = m ∧ (turnOffPrivacy m p connId o state).platform = p ∧
        ((∃ e, o.post = .error e) ∨ m.connId ≠ connId)) ∨
      (turnOffPrivacy m p connId o state).platform.Quiet ∧
        (turnOffPrivacy m p connId o state).mode.connId = 0 ∧
        ∀ i, (turnOffPrivacy m p connId o state).platform.settings i = p.settings i := by
  unfold turnOffPrivacy
  rcases checkOff_cases m.connId connId with ⟨-, -, other, same⟩ | same
  · rw [same]
    exact .inl ⟨rfl, rfl, .inr other⟩
  · rw [same]
    rcases unhook_cases p o with same | ⟨e, e', same, post⟩
    · rw [same]
      dsimp only
      obtain ⟨told, same⟩ :=
        tell_eq (Platform.showWindow { p with hooked := false } false) m.connId connId state implWinMag
      rw [same]
      exact .inr ⟨⟨fit.active, rfl, hide_shown _, fit.pending⟩, rfl, fun _ => rfl⟩
    · rw [same]
      exact .inl ⟨rfl, rfl, .inl ⟨e', post⟩⟩

theorem turnOff_fit (fit : Fit m p) :
    Fit (turnOffPrivacy m p connId o state).mode (turnOffPrivacy m p connId o state).platform := by
  rcases turnOff_cases (o := o) connId state fit with ⟨mode, platform, -⟩ | ⟨quiet, -, -⟩
  · rw [mode, platform]
    exact fit
  · exact ⟨quiet.active, quiet.pending, fun _ => quiet.hooked, fun _ => quiet.shown⟩

theorem turnOff_implKey : (turnOffPrivacy m p connId o state).mode.implKey = m.implKey := by
  unfold turnOffPrivacy
  split
  case h_1 => rfl
  case h_2 => split <;> rfl

theorem turnOn_implKey : (turnOnPrivacy m p connId o).mode.implKey = m.implKey := by
  have started : (start m p o).1.1.implKey = m.implKey := by
    unfold start
    split
    case isTrue => rfl
    case isFalse => split <;> rfl
  have covered (m : Impl) (p : Platform) : (cover m p connId o).mode.implKey = m.implKey := by
    unfold cover
    split
    case isTrue => rfl
    case isFalse => split <;> rfl
  unfold turnOnPrivacy
  split
  case h_1 => rfl
  case h_2 => rfl
  case h_3 =>
    split
    case h_1 => rfl
    case h_2 =>
      split_ifs
      · rfl
      · rfl
      · generalize start m p o = after at started ⊢
        obtain ⟨⟨m', p'⟩, result⟩ := after
        cases result with
        | error e => exact started
        | ok _ => exact (covered m' p').trans started

theorem drop_quiet (quiet : p.Quiet) (off : m.connId = 0) : (drop m p o).Quiet := by
  unfold drop
  simp only [off, ne_eq, not_true_eq_false, if_false]
  split
  case isTrue => exact ⟨quiet.active, quiet.hooked, by simp, quiet.pending⟩
  case isFalse => exact quiet

end TopmostWindow

end RemoteControl.Privacy
