import RemoteControl.Privacy.Displays
import RemoteControl.Privacy.Mode

/-! # What the implementations leave behind

Whichever implementation there is, privacy mode is turned on as a whole or not at all, and what
it does to the platform ends when it is turned off.
-/

namespace RemoteControl.Privacy

namespace Impl

/-- What privacy mode leaves on the platform belongs to the implementation, and there is
    nothing of it when no connection has it on. -/
def Fit : Impl → Platform → Prop
  | .macos m, p => MacOs.Fit m p
  | .topmostWindow m, p => TopmostWindow.Fit m p
  | .virtualDisplay m, p => VirtualDisplay.Fit m p

/-- The displays can be put back, where that is needed. -/
def Restores (kind : Kind) (o : Outcomes) : Prop := kind = .virtualDisplay → o.Restores

/-- What has to work for privacy mode to be turned on. -/
def Works (kind : Kind) (p : Platform) (o : Outcomes) : Prop :=
  match kind with
  | .macos => o.blackout = true
  | .topmostWindow => TopmostWindow.Works o
  | .virtualDisplay => VirtualDisplay.Works p o

/-- What makes turning on fail. -/
def Fails (kind : Kind) (o : Outcomes) : Prop :=
  match kind with
  | .macos => o.blackout = false
  | .topmostWindow => TopmostWindow.Fails o
  | .virtualDisplay => VirtualDisplay.Fails o

variable {m : Impl} {p : Platform} {connId : Nat} {o : Outcomes} {state : Option PrivacyModeState}
  {kind : Kind} {implKey : String}

theorem Fit.quiet (fit : Fit m p) (off : m.connId = 0) : p.Quiet := by
  cases m with
  | macos m => exact MacOs.Fit.quiet fit off
  | topmostWindow m => exact TopmostWindow.Fit.quiet fit off
  | virtualDisplay m => exact VirtualDisplay.Fit.quiet fit off

theorem new_fit (quiet : p.Quiet) : Fit (.new implKey kind) p := by
  cases kind with
  | macos => exact ⟨quiet.hooked, quiet.shown, quiet.pending, fun _ => quiet.active⟩
  | topmostWindow => exact ⟨quiet.active, quiet.pending, fun _ => quiet.hooked, fun _ => quiet.shown⟩
  | virtualDisplay =>
    exact ⟨quiet.active, quiet.shown, quiet.pending, nofun, fun _ => quiet.hooked, fun _ => rfl⟩

@[simp] theorem new_connId : (Impl.new implKey kind).connId = 0 := by cases kind <;> rfl

@[simp] theorem new_implKey : (Impl.new implKey kind).implKey = implKey := by cases kind <;> rfl

@[simp] theorem new_kind : (Impl.new implKey kind).kind = kind := by cases kind <;> rfl

theorem turnOn_attempted (fit : Fit m p) (off : m.connId = 0) (some_ : 0 < connId)
    (restores : Restores m.kind o) :
    Attempted Fit Impl.connId p (m.turnOnPrivacy p connId o) := by
  cases m with
  | macos m =>
      obtain ⟨fits, failed⟩ := MacOs.turnOn_attempted (o := o) fit off some_
      exact ⟨fits, failed⟩
  | topmostWindow m =>
      obtain ⟨fits, failed⟩ := TopmostWindow.turnOn_attempted (o := o) fit off some_
      exact ⟨fits, failed⟩
  | virtualDisplay m =>
      obtain ⟨fits, failed⟩ := VirtualDisplay.turnOn_attempted fit off some_ (restores rfl)
      exact ⟨fits, failed⟩

/-- A new implementation has no process of its own yet. -/
theorem new_works (quiet : p.Quiet) (some_ : 0 < connId) (works : Works kind p o) :
    ((Impl.new implKey kind).turnOnPrivacy p connId o).answer = .ok true := by
  have fit : Fit (.new implKey kind) p := new_fit quiet
  cases kind with
  | macos => exact MacOs.turnOn_works rfl some_ works
  | topmostWindow => exact TopmostWindow.turnOn_works fit rfl rfl some_ works
  | virtualDisplay => exact VirtualDisplay.turnOn_works rfl some_ works

theorem turnOn_fails (fit : Fit m p) (off : m.connId = 0) (some_ : 0 < connId)
    (fails : Fails m.kind o) :
    (m.turnOnPrivacy p connId o).answer ≠ .ok true := by
  cases m with
  | macos m => exact MacOs.turnOn_fails fit off some_ fails
  | topmostWindow m => exact TopmostWindow.turnOn_fails off some_ fails
  | virtualDisplay m => exact VirtualDisplay.turnOn_fails off some_ fails

theorem turnOff_fit (connId : Nat) (state : Option PrivacyModeState) (fit : Fit m p)
    (restores : Restores m.kind o) :
    Fit (m.turnOffPrivacy p connId state o).mode (m.turnOffPrivacy p connId state o).platform := by
  cases m with
  | macos m => exact MacOs.turnOff_fit fit
  | topmostWindow m => exact TopmostWindow.turnOff_fit fit
  | virtualDisplay m => exact VirtualDisplay.turnOff_fit fit (restores rfl)

theorem clear_fit (fit : Fit m p) (restores : Restores m.kind o) :
    Fit (m.clear p o).1 (m.clear p o).2 := by
  cases m with
  | macos m =>
      obtain ⟨quiet, off⟩ := MacOs.clear_quiet (o := o) fit
      exact ⟨quiet.hooked, quiet.shown, quiet.pending, fun _ => quiet.active⟩
  | topmostWindow m => exact TopmostWindow.turnOff_fit fit
  | virtualDisplay m => exact VirtualDisplay.turnOff_fit fit (restores rfl)

/-- What has been cleared is quiet, and where nothing was on, the displays stay as they are. -/
theorem clear_quiet (fit : Fit m p) (restores : Restores m.kind o)
    (post : m.connId ≠ 0 → o.post = .ok ()) :
    (m.clear p o).2.Quiet ∧ (m.clear p o).1.connId = 0 ∧
      (m.connId = 0 → ∀ i, (m.clear p o).2.settings (.physical i) = p.settings (.physical i)) := by
  have untouched (stuck : (∃ e, o.post = .error e) ∨ m.connId ≠ m.connId) : m.connId = 0 := by
    by_contra on
    obtain ⟨e, error⟩ := stuck.resolve_right (not_not.mpr rfl)
    rw [post on] at error
    cases error
  cases m with
  | macos m =>
      obtain ⟨quiet, off⟩ := MacOs.clear_quiet (o := o) fit
      refine ⟨quiet, off, fun _ _ => ?_⟩
      simp only [clear, MacOs.clear, MacOs.mac_off]
  | topmostWindow m =>
      rcases TopmostWindow.turnOff_cases (o := o) m.connId none fit with ⟨mode, platform,
        stuck⟩ | ⟨quiet, off, same⟩
      · have off := untouched stuck
        simp only [clear, TopmostWindow.clear, mode, platform]
        exact ⟨TopmostWindow.Fit.quiet fit off, off, fun _ _ => trivial⟩
      · exact ⟨quiet, off, fun _ _ => same _⟩
  | virtualDisplay m =>
      rcases VirtualDisplay.turnOff_cases m.connId none fit (restores rfl) with ⟨mode, platform,
        stuck⟩ | ⟨quiet, off, -, same⟩
      · have off := untouched stuck
        simp only [clear, VirtualDisplay.clear, mode, platform]
        exact ⟨VirtualDisplay.Fit.quiet fit off, off, fun _ _ => trivial⟩
      · exact ⟨quiet, off, same⟩

/-- An implementation without any connection leaves nothing when it is dropped. -/
theorem drop_quiet (quiet : p.Quiet) (off : m.connId = 0) :
    (m.drop p o).Quiet ∧ (m.drop p o).settings = p.settings ∧ (m.drop p o).devices = p.devices := by
  cases m with
  | macos m =>
      refine ⟨MacOs.drop_quiet quiet, ?_⟩
      simp only [drop, MacOs.drop, MacOs.clear, MacOs.mac_off, and_self]
  | topmostWindow m =>
      have off : m.connId = 0 := off
      refine ⟨TopmostWindow.drop_quiet quiet off, ?_⟩
      simp only [drop, TopmostWindow.drop, off, ne_eq, not_true_eq_false, if_false]
      split <;> exact ⟨rfl, rfl⟩
  | virtualDisplay m =>
      have off : m.connId = 0 := off
      simp only [drop, VirtualDisplay.drop, off, ne_eq, not_true_eq_false, if_false]
      exact ⟨quiet, trivial, trivial⟩

/-- Only the virtual display has to do with the settings of the displays. -/
theorem clear_displays (other : m.kind ≠ .virtualDisplay) :
    (m.clear p o).2.settings = p.settings ∧ (m.clear p o).2.devices = p.devices := by
  cases m with
  | macos m => simp only [clear, MacOs.clear, MacOs.mac_off, and_self]
  | topmostWindow m =>
      have cleared (d : Done TopmostWindow.Impl Unit)
          (same : d = TopmostWindow.turnOffPrivacy m p m.connId o none) :
          d.platform.settings = p.settings ∧ d.platform.devices = p.devices := by
        subst same
        unfold TopmostWindow.turnOffPrivacy
        split
        case h_1 => exact ⟨rfl, rfl⟩
        case h_2 =>
          rcases TopmostWindow.unhook_cases p o with same | ⟨e, e', same, -⟩
          · rw [same]
            exact ⟨rfl, rfl⟩
          · rw [same]
            exact ⟨rfl, rfl⟩
      exact cleared _ rfl
  | virtualDisplay m => exact absurd rfl other

/-- Others cannot turn it off. -/
theorem turnOff_other (p : Platform) (state : Option PrivacyModeState) (o : Outcomes)
    (on : m.connId ≠ 0) (some_ : connId ≠ 0) (other : m.connId ≠ connId) :
    m.turnOffPrivacy p connId state o = ⟨m, p, .error turnOffOtherId⟩ := by
  have refused : checkOffConnId m.connId connId = .error turnOffOtherId := if_pos ⟨on, some_, other⟩
  cases m with
  | macos m =>
      have refused : checkOffConnId m.connId connId = .error turnOffOtherId := refused
      simp [turnOffPrivacy, MacOs.turnOffPrivacy, refused]
  | topmostWindow m =>
      have refused : checkOffConnId m.connId connId = .error turnOffOtherId := refused
      simp [turnOffPrivacy, TopmostWindow.turnOffPrivacy, refused]
  | virtualDisplay m =>
      have refused : checkOffConnId m.connId connId = .error turnOffOtherId := refused
      simp [turnOffPrivacy, VirtualDisplay.turnOffPrivacy, refused]

/-- It stays the implementation that it is. -/
theorem turnOn_same (m : Impl) (p : Platform) (connId : Nat) (o : Outcomes) :
    (m.turnOnPrivacy p connId o).mode.implKey = m.implKey ∧
    (m.turnOnPrivacy p connId o).mode.kind = m.kind := by
  cases m with
  | macos m => exact ⟨MacOs.turnOn_implKey, rfl⟩
  | topmostWindow m => exact ⟨TopmostWindow.turnOn_implKey, rfl⟩
  | virtualDisplay m => exact ⟨VirtualDisplay.turnOn_implKey, rfl⟩

theorem turnOff_same (m : Impl) (p : Platform) (connId : Nat) (state : Option PrivacyModeState)
    (o : Outcomes) :
    (m.turnOffPrivacy p connId state o).mode.implKey = m.implKey ∧
    (m.turnOffPrivacy p connId state o).mode.kind = m.kind := by
  cases m with
  | macos m => exact ⟨MacOs.turnOff_implKey, rfl⟩
  | topmostWindow m => exact ⟨TopmostWindow.turnOff_implKey, rfl⟩
  | virtualDisplay m => exact ⟨VirtualDisplay.turnOff_implKey, rfl⟩

theorem clear_same : (m.clear p o).1.implKey = m.implKey ∧ (m.clear p o).1.kind = m.kind := by
  cases m with
  | macos m => exact ⟨rfl, rfl⟩
  | topmostWindow m => exact ⟨TopmostWindow.turnOff_implKey, rfl⟩
  | virtualDisplay m => exact ⟨VirtualDisplay.turnOff_implKey, rfl⟩

end Impl

end RemoteControl.Privacy
