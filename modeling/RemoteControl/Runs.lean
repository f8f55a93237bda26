import Mathlib.Data.List.Basic

/-! # Runs of event-driven systems

A system is a total step function from a state and an event to the next state.
A run is the list of events it consumes, so quantifying over lists of events is
quantifying over every order and number of them.

`Always` looks at every state a run passes through and `Along` at every step it
takes. The rules below are the only way the rest of the development reasons
about whole runs: prove what one step does, then apply the matching rule.
-/

namespace RemoteControl.Runs

variable {σ ε : Type*}

/-- The state a run ends in. -/
def exec (step : σ → ε → σ) (s : σ) (events : List ε) : σ :=
  events.foldl step s

/-- Every state the run passes through, the first and the last included,
    satisfies `p`. -/
def Always (step : σ → ε → σ) (p : σ → Prop) : σ → List ε → Prop
  | s, [] => p s
  | s, e :: rest => p s ∧ Always step p (step s e) rest

/-- Every step of the run meets `guard`, which sees the state before the step
    and the event about to be handled. -/
def Along (step : σ → ε → σ) (guard : σ → ε → Prop) : σ → List ε → Prop
  | _, [] => True
  | s, e :: rest => guard s e ∧ Along step guard (step s e) rest

instance decidableAlways (step : σ → ε → σ) (p : σ → Prop) [DecidablePred p] :
    (s : σ) → (events : List ε) → Decidable (Always step p s events)
  | s, [] => inferInstanceAs (Decidable (p s))
  | s, e :: rest =>
      have := decidableAlways step p (step s e) rest
      inferInstanceAs (Decidable (p s ∧ Always step p (step s e) rest))

instance decidableAlong (step : σ → ε → σ) (guard : σ → ε → Prop)
    [∀ s e, Decidable (guard s e)] : (s : σ) → (events : List ε) → Decidable (Along step guard s events)
  | _, [] => inferInstanceAs (Decidable True)
  | s, e :: rest =>
      have := decidableAlong step guard (step s e) rest
      inferInstanceAs (Decidable (guard s e ∧ Along step guard (step s e) rest))

@[simp] theorem exec_nil (step : σ → ε → σ) (s : σ) : exec step s [] = s := rfl

@[simp] theorem exec_cons (step : σ → ε → σ) (s : σ) (e : ε) (rest : List ε) :
    exec step s (e :: rest) = exec step (step s e) rest := rfl

theorem exec_append (step : σ → ε → σ) (s : σ) (left right : List ε) :
    exec step s (left ++ right) = exec step (exec step s left) right :=
  List.foldl_append

variable {step : σ → ε → σ} {q p : σ → Prop} {guard : σ → ε → Prop} {admits : ε → Prop} {s : σ}
  {events : List ε}

/-- The simulation rule: what pairs of steps keep, pairs of runs keep. -/
theorem exec_rel {τ : Type*} {step' : τ → ε → τ} {rel : σ → τ → Prop}
    (keep : ∀ s t e, rel s t → rel (step s e) (step' t e)) {t : τ} (start : rel s t) :
    rel (exec step s events) (exec step' t events) := by
  induction events generalizing s t with
  | nil => exact start
  | cons e rest ih => exact ih (keep s t e start)

/-- What the steps of a run put out, one after the other. -/
def outputs {α : Type*} (step : σ → ε → σ) (out : σ → ε → List α) : σ → List ε → List α
  | _, [] => []
  | s, e :: rest => out s e ++ outputs step out (step s e) rest

theorem Always.last (always : Always step p s events) : p (exec step s events) := by
  induction events generalizing s with
  | nil => exact always
  | cons e rest ih => exact ih always.2

theorem Always.first (always : Always step p s events) : p s := by
  cases events with
  | nil => exact always
  | cons e rest => exact always.1

/-- What no step brings back holds all along when it holds in the end. -/
theorem always_iff_last (before : ∀ s e, p (step s e) → p s) :
    Always step p s events ↔ p (exec step s events) := by
  constructor
  · exact Always.last
  · intro last
    induction events generalizing s with
    | nil => exact last
    | cons e rest ih =>
        have later := ih last
        exact ⟨before s e later.first, later⟩

theorem Always.mono (always : Always step p s events) (weaken : ∀ s, p s → q s) :
    Always step q s events := by
  induction events generalizing s with
  | nil => exact weaken s always
  | cons e rest ih => exact ⟨weaken s always.1, ih always.2⟩

/-- What a state guarantees for its next step, a run through such states guarantees for
    each of its steps. -/
theorem Always.along (always : Always step p s events) (meets : ∀ s e, p s → guard s e) :
    Along step guard s events := by
  induction events generalizing s with
  | nil => trivial
  | cons e rest ih => exact ⟨meets s e always.1, ih always.2⟩

theorem along_and {g g' : σ → ε → Prop} :
    Along step (fun s e => g s e ∧ g' s e) s events ↔
      Along step g s events ∧ Along step g' s events := by
  induction events generalizing s with
  | nil => exact ⟨fun _ => ⟨trivial, trivial⟩, fun _ => trivial⟩
  | cons e rest ih =>
      constructor
      · rintro ⟨⟨here, here'⟩, later⟩
        exact ⟨⟨here, (ih.mp later).1⟩, here', (ih.mp later).2⟩
      · rintro ⟨⟨here, later⟩, here', later'⟩
        exact ⟨⟨here, here'⟩, ih.mpr ⟨later, later'⟩⟩

/-- A guard that looks only at the event. -/
theorem along_of_events (admitted : ∀ e ∈ events, admits e) :
    Along step (fun _ e => admits e) s events := by
  induction events generalizing s with
  | nil => trivial
  | cons e rest ih =>
      exact ⟨admitted e (List.mem_cons_self ..), ih fun e' member =>
        admitted e' (List.mem_cons_of_mem e member)⟩

theorem along_append {left right : List ε} :
    Along step guard s (left ++ right) ↔
      Along step guard s left ∧ Along step guard (exec step s left) right := by
  induction left generalizing s with
  | nil => exact ⟨fun along => ⟨trivial, along⟩, fun along => along.2⟩
  | cons e rest ih => exact (and_congr_right fun _ => ih).trans and_assoc.symm

/-- Two guards that agree on the states of an invariant and the events of the run
    agree on the run. -/
theorem along_congr_of_events {g g' : σ → ε → Prop} (keep : ∀ s e, admits e → q s → q (step s e))
    (agree : ∀ s e, admits e → q s → (g s e ↔ g' s e)) (admitted : ∀ e ∈ events, admits e)
    (inv : q s) : Along step g s events ↔ Along step g' s events := by
  induction events generalizing s with
  | nil => exact .rfl
  | cons e rest ih =>
      have here := admitted e (List.mem_cons_self ..)
      exact and_congr (agree s e here inv) (ih (fun e' member =>
        admitted e' (List.mem_cons_of_mem e member)) (keep s e here inv))

/-- The invariant rule: what every guarded step keeps, a guarded run keeps. -/
theorem always_of_along (keep : ∀ s e, p s → guard s e → p (step s e)) (start : p s)
    (along : Along step guard s events) : Always step p s events := by
  induction events generalizing s with
  | nil => exact start
  | cons e rest ih => exact ⟨start, ih (keep s e start along.1) along.2⟩

/-- With the invariant, what a guarded step respects, a guarded run respects. -/
theorem along_of_along {respects : σ → ε → Prop}
    (keep : ∀ s e, p s → guard s e → p (step s e) ∧ respects s e) (start : p s)
    (along : Along step guard s events) : Along step respects s events := by
  induction events generalizing s with
  | nil => trivial
  | cons e rest ih =>
      obtain ⟨next, here⟩ := keep s e start along.1
      exact ⟨here, ih next along.2⟩

/-- The invariant rule for a run all of whose events are of one kind. -/
theorem always_of_events (keep : ∀ s e, admits e → p s → p (step s e))
    (admitted : ∀ e ∈ events, admits e) (start : p s) : Always step p s events := by
  induction events generalizing s with
  | nil => exact start
  | cons e rest ih =>
      have here := admitted e (List.mem_cons_self ..)
      exact ⟨start, ih (fun e' member => admitted e' (List.mem_cons_of_mem e member))
        (keep s e here start)⟩

/-- When, in states of an invariant `q` and for steps that meet `meets`, the guard is
    exactly what a step needs to keep `p`, the runs that never leave `p` are exactly
    the guarded ones. -/
theorem always_iff_along_of_along {meets : σ → ε → Prop}
    (keep : ∀ s e, meets s e → q s → p s → q (step s e))
    (exact_ : ∀ s e, meets s e → q s → p s → (p (step s e) ↔ guard s e))
    (met : Along step meets s events) (inv : q s) (start : p s) :
    Always step p s events ↔ Along step guard s events := by
  induction events generalizing s with
  | nil => exact ⟨fun _ => trivial, fun _ => start⟩
  | cons e rest ih =>
      have later_ (next : p (step s e)) := ih met.2 (keep s e met.1 inv start) next
      constructor
      · rintro ⟨-, later⟩
        have next := later.first
        exact ⟨(exact_ s e met.1 inv start).mp next, (later_ next).mp later⟩
      · rintro ⟨here, later⟩
        have next := (exact_ s e met.1 inv start).mpr here
        exact ⟨start, (later_ next).mpr later⟩

theorem always_iff_along_of_events (keep : ∀ s e, admits e → q s → q (step s e))
    (exact_ : ∀ s e, admits e → q s → p s → (p (step s e) ↔ guard s e))
    (admitted : ∀ e ∈ events, admits e) (inv : q s) (start : p s) :
    Always step p s events ↔ Along step guard s events :=
  always_iff_along_of_along (fun s e here inv _ => keep s e here inv) exact_
    (along_of_events admitted) inv start

theorem always_iff_along_of_inv (keep : ∀ s e, q s → q (step s e))
    (exact_ : ∀ s e, q s → p s → (p (step s e) ↔ guard s e)) (inv : q s) (start : p s) :
    Always step p s events ↔ Along step guard s events :=
  always_iff_along_of_events (fun s e (_ : True) => keep s e) (fun s e _ => exact_ s e)
    (fun _ _ => trivial) inv start

/-- The same, where the invariant is only kept as long as `p` holds. -/
theorem always_iff_along_of_both
    (exact_ : ∀ s e, q s → p s → q (step s e) ∧ (p (step s e) ↔ guard s e)) (inv : q s)
    (start : p s) : Always step p s events ↔ Along step guard s events :=
  always_iff_along_of_along (fun s e _ inv now => (exact_ s e inv now).1)
    (fun s e _ inv now => (exact_ s e inv now).2)
    (along_of_events fun _ _ => trivial : Along step (fun _ _ => True) s events) inv start

theorem always_iff_along (exact_ : ∀ s e, p s → (p (step s e) ↔ guard s e)) (start : p s) :
    Always step p s events ↔ Along step guard s events :=
  always_iff_along_of_inv (q := fun _ => True) (fun _ _ _ => trivial)
    (fun s e _ => exact_ s e) trivial start

end RemoteControl.Runs
