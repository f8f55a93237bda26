import Mathlib.Data.Finset.Basic

/-! # Presses and releases

What a list of presses and releases leaves down. A key is down at the end exactly when it
was pressed, or was down before, and was not released after that.
-/

namespace RemoteControl.Presses

inductive Act (κ : Type) where
  | press (key : κ)
  | release (key : κ)
  deriving DecidableEq

variable {κ : Type} [DecidableEq κ]

def Act.apply (down : Finset κ) : Act κ → Finset κ
  | .press key => insert key down
  | .release key => down.erase key

/-- The keys that are down after the acts. -/
def leaves (down : Finset κ) (acts : List (Act κ)) : Finset κ := acts.foldl Act.apply down

variable {key : κ} {down : Finset κ} {acts : List (Act κ)} {acts' : List (Act κ)} {act : Act κ}
  {keys : List κ}

@[simp] theorem leaves_nil : leaves down [] = down := rfl

@[simp] theorem leaves_cons : leaves down (act :: acts) = leaves (act.apply down) acts := rfl

@[simp] theorem leaves_append : leaves down (acts ++ acts') = leaves (leaves down acts) acts' :=
  List.foldl_append ..

/-- A press of the key that no release comes after. -/
def Unreleased (key : κ) (acts : List (Act κ)) : Prop :=
  ∃ before after, acts = before ++ .press key :: after ∧ .release key ∉ after

omit [DecidableEq κ] in
theorem unreleased_cons :
    Unreleased key (act :: acts) ↔ act = .press key ∧ .release key ∉ acts ∨ Unreleased key acts := by
  constructor
  · rintro ⟨before, after, eq, unreleased⟩
    cases before with
    | nil =>
        obtain ⟨rfl, rfl⟩ := List.cons.inj eq
        exact .inl ⟨rfl, unreleased⟩
    | cons first rest =>
        obtain ⟨rfl, rfl⟩ := List.cons.inj eq
        exact .inr ⟨rest, after, rfl, unreleased⟩
  · rintro (⟨rfl, unreleased⟩ | ⟨before, after, rfl, unreleased⟩)
    · exact ⟨[], acts, rfl, unreleased⟩
    · exact ⟨act :: before, after, rfl, unreleased⟩

omit [DecidableEq κ] in
theorem Unreleased.append (h : Unreleased key acts) (first : List (Act κ)) :
    Unreleased key (first ++ acts) := by
  obtain ⟨before, after, rfl, unreleased⟩ := h
  exact ⟨first ++ before, after, by simp, unreleased⟩

theorem mem_leaves :
    key ∈ leaves down acts ↔ Unreleased key acts ∨ key ∈ down ∧ .release key ∉ acts := by
  induction acts generalizing down with
  | nil => simp [Unreleased]
  | cons act rest ih =>
      rw [leaves_cons, ih, unreleased_cons]
      cases act with
      | press key' =>
          by_cases same : key = key'
          · subst same
            simp [Act.apply]
            tauto
          · simp [Act.apply, same, Ne.symm same]
      | release key' =>
          by_cases same : key = key'
          · subst same
            simp [Act.apply]
          · simp [Act.apply, same]

omit [DecidableEq κ] in
theorem Unreleased.of_append (h : Unreleased key (acts ++ acts')) :
    Unreleased key acts ∨ Unreleased key acts' := by
  induction acts with
  | nil => exact .inr h
  | cons act rest ih =>
      rw [List.cons_append, unreleased_cons] at h
      rw [unreleased_cons]
      rcases h with ⟨press, unreleased⟩ | later
      · exact .inl (.inl ⟨press, fun released => unreleased (List.mem_append_left _ released)⟩)
      · exact (ih later).imp_left .inr

/-- Acts that release whatever they press. -/
def Taps (acts : List (Act κ)) : Prop := ∀ key, ¬ Unreleased key acts

omit [DecidableEq κ] in
theorem taps_nil : Taps ([] : List (Act κ)) := by
  simp [Taps, Unreleased]

omit [DecidableEq κ] in
theorem Taps.append (taps : Taps acts) (taps' : Taps acts') : Taps (acts ++ acts') :=
  fun key h => h.of_append.elim (taps key) (taps' key)

omit [DecidableEq κ] in
theorem Taps.around {inner : List (Act κ)} (taps : Taps inner) (key : κ) :
    Taps (.press key :: (inner ++ [.release key])) := by
  intro key' h
  rcases unreleased_cons.mp h with ⟨press, unreleased⟩ | later
  · obtain rfl := Act.press.inj press
    exact unreleased (List.mem_append_right _ List.mem_cons_self)
  · rcases later.of_append with within | last
    · exact taps key' within
    · rcases unreleased_cons.mp last with ⟨press, -⟩ | rest
      · cases press
      · exact taps_nil key' rest

omit [DecidableEq κ] in
theorem taps_flatMap {α : Type} {f : α → List (Act κ)} (taps : ∀ a, Taps (f a)) (l : List α) :
    Taps (l.flatMap f) := by
  induction l with
  | nil => exact taps_nil
  | cons a rest ih =>
      rw [List.flatMap_cons]
      exact (taps a).append ih

theorem Taps.mem_leaves (taps : Taps acts) :
    key ∈ leaves down acts ↔ key ∈ down ∧ .release key ∉ acts := by
  simp [Presses.mem_leaves, taps key]

theorem mem_leaves_presses : key ∈ leaves down (keys.map .press) ↔ key ∈ keys ∨ key ∈ down := by
  induction keys generalizing down with
  | nil => simp
  | cons key' rest ih =>
      simp only [List.map_cons, leaves_cons, ih, Act.apply, Finset.mem_insert, List.mem_cons]
      exact or_left_comm.trans or_assoc.symm

theorem mem_leaves_releases : key ∈ leaves down (keys.map .release) ↔ key ∈ down ∧ key ∉ keys := by
  induction keys generalizing down with
  | nil => simp
  | cons key' rest ih =>
      simp only [List.map_cons, leaves_cons, ih, Act.apply, Finset.mem_erase, List.mem_cons, not_or]
      exact (and_congr_left' and_comm).trans and_assoc

/-- What is done in between without a press leaves no more down. -/
theorem mem_leaves_of_quiet {before between after : List (Act κ)}
    (quiet : ∀ act ∈ between, act ≠ .press key)
    (down_ : key ∈ leaves down (before ++ (between ++ after))) :
    key ∈ leaves down (before ++ after) := by
  have fewer (down : Finset κ) (down_ : key ∈ leaves down between) : key ∈ down := by
    rcases mem_leaves.mp down_ with ⟨first, rest, rfl, -⟩ | old
    · exact (quiet _ (List.mem_append_right _ List.mem_cons_self) rfl).elim
    · exact old.1
  rw [leaves_append, leaves_append, mem_leaves] at down_
  rw [leaves_append, mem_leaves]
  exact down_.imp_right (And.imp_left (fewer _))

end RemoteControl.Presses
