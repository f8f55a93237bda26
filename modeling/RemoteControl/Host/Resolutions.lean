import Mathlib.Data.List.AList
import RemoteControl.Runs

/-! # Resolutions that were changed

`display_service.rs` remembers the resolution that each display had before it was changed first.
`restore_resolutions` changes the displays back under the read lock, whether that works or not, and
clears the record under the write lock. Between the two anybody can change a display.
-/

namespace RemoteControl.Resolutions

open Runs (exec Always Along)

abbrev Size := Int × Int

structure ChangedResolution where
  original : Size
  changed : Size
  deriving DecidableEq

/-- `CHANGED_RESOLUTIONS` -/
abbrev ChangedResolutions := AList fun _ : String => ChangedResolution

def setLastChangedResolution (displayName : String) (original changed : Size) (lock : ChangedResolutions) :
    ChangedResolutions :=
  match lock.lookup displayName with
  | some res => lock.insert displayName { res with changed := changed }
  | none => lock.insert displayName ⟨original, changed⟩

/-- The calls of `change_resolution` in the loop of `restore_resolutions`. -/
def restorePass (lock : ChangedResolutions) : List (String × Size) :=
  lock.entries.map fun e => (e.1, e.2.original)

structure State where
  changedResolutions : ChangedResolutions := ∅
  /-- The calls of `restore_resolutions` that are between the loop and the clearing. -/
  restoring : Nat := 0
  /-- The resolution that a display had when it was changed first, since it was last changed back
  to that. -/
  before : String → Option Size := fun _ => none

inductive Event where
  | set (displayName : String) (original changed : Size)
  /-- The loop of `restore_resolutions`, and for which displays `change_resolution` succeeds. -/
  | pass (succeeds : String → Bool)
  | clear

def step (s : State) : Event → State
  | .set displayName original changed =>
      { s with
        changedResolutions := setLastChangedResolution displayName original changed s.changedResolutions
        before := Function.update s.before displayName (some ((s.before displayName).getD original)) }
  | .pass succeeds =>
      { s with
        restoring := s.restoring + 1
        before := fun name =>
          (s.before name).filter fun original =>
            !(succeeds name && decide ((name, original) ∈ restorePass s.changedResolutions)) }
  | .clear =>
      if 0 < s.restoring then { s with changedResolutions := ∅, restoring := s.restoring - 1 } else s

/-- Each changed display has a record with its first resolution. -/
def Remembered (s : State) : Prop :=
  ∀ name original, s.before name = some original →
    ∃ res, s.changedResolutions.lookup name = some res ∧ res.original = original

/-- A record that is left of a display that was changed back serves a later change if that starts from
the same resolution. When the record is cleared, every display must have been changed back. -/
def Safe (s : State) : Event → Prop
  | .set displayName original _ =>
      s.before displayName = none →
        ∀ res, s.changedResolutions.lookup displayName = some res → res.original = original
  | .pass _ => True
  | .clear => 0 < s.restoring → ∀ name, s.before name = none

theorem lookup_setLastChangedResolution (displayName : String) (original changed : Size)
    (lock : ChangedResolutions) : (setLastChangedResolution displayName original changed lock).lookup displayName =
      some ⟨((lock.lookup displayName).map ChangedResolution.original).getD original, changed⟩ := by
  unfold setLastChangedResolution
  split
  · next res known => rw [AList.lookup_insert, known, Option.map_some, Option.getD_some]
  · next unknown => rw [AList.lookup_insert, unknown, Option.map_none, Option.getD_none]

theorem lookup_setLastChangedResolution_ne {displayName name : String} (other : name ≠ displayName)
    (original changed : Size) (lock : ChangedResolutions) :
    (setLastChangedResolution displayName original changed lock).lookup name = lock.lookup name := by
  unfold setLastChangedResolution
  split <;> exact AList.lookup_insert_ne other

theorem remembered_set_iff {s : State} (now : Remembered s) (displayName : String) (original changed : Size) :
    Remembered (step s (.set displayName original changed)) ↔ Safe s (.set displayName original changed) := by
  have record := lookup_setLastChangedResolution displayName original changed s.changedResolutions
  constructor
  · intro later back res known
    obtain ⟨res', known', same⟩ := later displayName original (by simp [step, back])
    obtain rfl := Option.some.inj (record.symm.trans known')
    rw [← same, known]
    rfl
  · intro safe name first changed_
    by_cases here : name = displayName
    · subst here
      refine ⟨_, record, ?_⟩
      cases earlier : s.before name with
      | some first' =>
          obtain ⟨res, known, same⟩ := now name first' earlier
          simp only [step, Function.update_self, earlier, Option.getD_some] at changed_
          rw [known, Option.map_some, Option.getD_some, same]
          exact Option.some.inj changed_
      | none =>
          simp only [step, Function.update_self, earlier, Option.getD_none] at changed_
          obtain rfl := Option.some.inj changed_
          cases known : s.changedResolutions.lookup name with
          | none => rfl
          | some res => exact safe earlier res known
    · have earlier : s.before name = some first := (Function.update_of_ne here ..).symm.trans changed_
      obtain ⟨res, known, same⟩ := now name first earlier
      exact ⟨res, (lookup_setLastChangedResolution_ne here ..).trans known, same⟩

theorem remembered_step_iff {s : State} (now : Remembered s) (e : Event) :
    Remembered (step s e) ↔ Safe s e := by
  cases e with
  | set displayName original changed => exact remembered_set_iff now displayName original changed
  | pass succeeds =>
      exact iff_of_true (fun name original left => now name original (Option.filter_eq_some_iff.mp left).1) trivial
  | clear =>
      by_cases open_ : 0 < s.restoring
      · rw [step, if_pos open_]
        constructor
        · intro later _ name
          by_contra some_
          obtain ⟨original, left⟩ := Option.ne_none_iff_exists'.mp some_
          obtain ⟨res, known, -⟩ := later name original left
          cases known
        · intro safe name original left
          rw [safe open_ name] at left
          cases left
      · rw [step, if_neg open_]
        exact iff_of_true now fun given => absurd given open_

/-- The record knows every changed display in all states of a run exactly if every step is safe. -/
theorem remembered_iff (events : List Event) :
    Always step Remembered {} events ↔ Along step Safe {} events :=
  Runs.always_iff_along (fun _ e now => remembered_step_iff now e) nofun

/-- A display that cannot be changed back is forgotten. -/
theorem forgotten : ¬∀ events : List Event, Always step Remembered {} events := by
  intro all
  have last := (all [.set "DISPLAY1" (1920, 1080) (800, 600), .pass fun _ => false, .clear]).last
  obtain ⟨res, known, -⟩ := last "DISPLAY1" (1920, 1080) rfl
  cases known

end RemoteControl.Resolutions
