import RemoteControl.Config.Options

/-! # Layers of settings

An option is read from three maps: what the vendor has fixed, what was stored, and what
holds otherwise. `get_options` puts the maps on top of each other and `get_option` asks
one after the other. What is stored never says again what one of the other two says: such
an option is taken out of the store.
-/

namespace RemoteControl.OptionStore

/-- A call of one of the two setters. -/
inductive SetCall where
  | setOption (k v : String)
  | setOptions (v : Options)

namespace Settings

/-- The stored options after a call. -/
def apply (c : Settings) (options : Options) : SetCall → Options
  | .setOption k v => c.setOption options k v
  | .setOptions v => c.setOptions v

/-- Nothing is stored that another map fixes or has already. -/
def Clean (c : Settings) (options : Options) : Prop :=
  ∀ k v, options k = some v → c.overwrite k = none ∧ c.default k ≠ some v

variable {c : Settings} {options : Options} {k v : String}

theorem isOptionCanSave_iff :
    c.isOptionCanSave k v = true ↔ c.overwrite k = none ∧ c.default k ≠ some v := by
  simp [isOptionCanSave]

theorem clean_purifyOptions (v : Options) : c.Clean (c.purifyOptions v) := by
  intro k value stored
  obtain ⟨-, saved⟩ := Option.filter_eq_some_iff.mp stored
  exact isOptionCanSave_iff.mp saved

/-- Only the one key changes, whatever becomes of it. -/
theorem setOption_other {k' : String} (other : k' ≠ k) : c.setOption options k v k' = options k' := by
  unfold setOption change
  split_ifs
  · exact Function.update_of_ne other ..
  · exact Function.update_of_ne other ..
  · exact Function.update_of_ne other ..

theorem setOption_of_saved (saved : c.isOptionCanSave k v = true) (filled : v ≠ "") :
    c.setOption options k v k = some v := by
  rw [setOption, if_pos saved, change, if_neg filled, Function.update_self]

theorem setOption_of_not_saved (fixed : c.isOptionCanSave k v = false) :
    c.setOption options k v k = none := by
  rw [setOption, if_neg (Bool.not_eq_true _ ▸ fixed), Function.update_self]

theorem Clean.setOption (clean : c.Clean options) (k v : String) :
    c.Clean (c.setOption options k v) := by
  intro k' value stored
  by_cases same : k' = k
  · subst same
    cases saved : c.isOptionCanSave k' v with
    | false =>
        rw [setOption_of_not_saved saved] at stored
        cases stored
    | true =>
        by_cases empty : v = ""
        · rw [Settings.setOption, if_pos saved, change, if_pos empty, Function.update_self] at stored
          cases stored
        · rw [setOption_of_saved saved empty] at stored
          cases stored
          exact isOptionCanSave_iff.mp saved
  · rw [setOption_other same] at stored
    exact clean k' value stored

theorem Clean.apply (clean : c.Clean options) (call : SetCall) : c.Clean (c.apply options call) := by
  cases call with
  | setOption k v => exact clean.setOption k v
  | setOptions v => exact clean_purifyOptions v

/-- The two readers agree. -/
theorem getOption_eq (options : Options) (k : String) :
    c.getOption options k = (c.getOptions options k).getD "" := rfl

/-- What is set is read again, unless something else is fixed. -/
theorem getOption_setOption (filled : v ≠ "") :
    c.getOption (c.setOption options k v) k = (c.overwrite k).getD v := by
  cases saved : c.isOptionCanSave k v with
  | true =>
      obtain ⟨free, -⟩ := isOptionCanSave_iff.mp saved
      rw [getOption, setOption_of_saved saved filled, free]
      rfl
  | false =>
      rw [getOption, setOption_of_not_saved saved]
      cases fixed : c.overwrite k with
      | some value => rfl
      | none =>
          -- the value that would be stored is the default
          have usual : c.default k = some v := by
            by_contra other
            rw [isOptionCanSave_iff.mpr ⟨fixed, other⟩] at saved
            cases saved
          rw [usual]
          rfl

theorem getOption_other {k' : String} (other : k' ≠ k) :
    c.getOption (c.setOption options k v) k' = c.getOption options k' := by
  rw [getOption, setOption_other other, getOption]

end Settings

open Runs (exec)

/-- After any calls of the setters, from no options on: the store says nothing that another
    map says, the readers agree on every key, and an option that is set next is read as it
    was set or as it is fixed, with all others as before. -/
theorem settings_overlay (c : Settings) (calls : List SetCall) :
    let options := exec c.apply (fun _ => none) calls
    c.Clean options ∧ (∀ k, c.getOption options k = (c.getOptions options k).getD "") ∧
      ∀ k v, v ≠ "" →
        c.getOption (c.setOption options k v) k = (c.overwrite k).getD v ∧
          ∀ k', k' ≠ k → c.getOption (c.setOption options k v) k' = c.getOption options k' := by
  intro options
  refine ⟨?_, Settings.getOption_eq options, ?_⟩
  · have always : Runs.Always c.apply c.Clean (fun _ => none) calls :=
      Runs.always_of_events (fun _ call (_ : True) clean => clean.apply call)
        (fun _ _ => trivial) nofun
    exact always.last
  · exact fun k v filled => ⟨Settings.getOption_setOption filled, fun k' => Settings.getOption_other⟩

end RemoteControl.OptionStore
