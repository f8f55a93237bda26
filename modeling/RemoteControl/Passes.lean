import Mathlib.Data.List.Basic

/-! # Passes over files

A script is a row of passes, each of which reads one file and writes it back, or fails and
ends the script. What a script does to a file is decided by its passes over that file, so
whether it may be broken off and started again is a question about each file alone.
-/

namespace RemoteControl.Passes

variable {φ κ : Type*} {passes : List (κ → Option κ)} {x : κ}

/-- The passes over one file, up to the first that fails -/
def runFile : List (κ → Option κ) → κ → Option κ
  | [], x => some x
  | pass :: rest, x => (pass x).bind (runFile rest)

theorem runFile_append (front back : List (κ → Option κ)) (x : κ) :
    runFile (front ++ back) x = (runFile front x).bind (runFile back) := by
  induction front generalizing x with
  | nil => rfl
  | cons pass rest ih =>
      simp only [List.cons_append, runFile]
      cases pass x with
      | none => rfl
      | some y => exact ih y

theorem runFile_of_fixed (fixed : ∀ pass ∈ passes, pass x = some x) :
    runFile passes x = some x := by
  induction passes with
  | nil => rfl
  | cons pass rest ih =>
      simp only [runFile, fixed pass (List.mem_cons_self ..), Option.bind_some]
      exact ih fun pass' member => fixed pass' (List.mem_cons_of_mem pass member)

/-- Broken off after some of the passes and run again as a whole, they come to the same. -/
def Resumable (passes : List (κ → Option κ)) (x : κ) : Prop :=
  ∀ front back, passes = front ++ back → ∀ y z, runFile front x = some y → runFile passes x = some z →
    runFile passes y = some z

/-- It is enough that the passes made so far find nothing to do any more. -/
theorem resumable_of_fixed
    (fixed : ∀ front back, passes = front ++ back → ∀ y, runFile front x = some y →
      ∀ pass ∈ front, pass y = some y) : Resumable passes x := by
  intro front back split y z broken whole
  have past := runFile_of_fixed (fixed front back split y broken)
  rw [split, runFile_append, broken, Option.bind_some] at whole
  rw [split, runFile_append, past, Option.bind_some]
  exact whole

theorem resumable_single {pass : κ → Option κ} (again : ∀ y, pass x = some y → pass y = some y) :
    Resumable [pass] x := by
  apply resumable_of_fixed
  intro front back split y broken pass' member
  cases front with
  | nil => exact absurd member List.not_mem_nil
  | cons first rest =>
      obtain ⟨rfl, others⟩ := List.cons.inj split
      obtain ⟨rfl, rfl⟩ := List.append_eq_nil_iff.mp others.symm
      rw [List.mem_singleton.mp member]
      simp only [runFile, Option.bind_eq_some_iff, Option.some.injEq, exists_eq_right] at broken
      exact again y broken

theorem resumable_three {first second third : κ → Option κ}
    (once : ∀ y, first x = some y → first y = some y)
    (twice : ∀ y z, first x = some y → second y = some z → first z = some z ∧ second z = some z)
    (thrice : ∀ y z w, first x = some y → second y = some z → third z = some w →
      first w = some w ∧ second w = some w ∧ third w = some w) :
    Resumable [first, second, third] x := by
  apply resumable_of_fixed
  intro front back split y broken
  match front, split with
  | [], _ => exact fun pass member => absurd member List.not_mem_nil
  | [a], split =>
      obtain ⟨rfl, _⟩ := List.cons.inj split
      simp only [runFile, Option.bind_eq_some_iff, Option.some.injEq, exists_eq_right] at broken
      simpa using once y broken
  | [a, b], split =>
      obtain ⟨rfl, split'⟩ := List.cons.inj split
      obtain ⟨rfl, _⟩ := List.cons.inj split'
      simp only [runFile, Option.bind_eq_some_iff, Option.some.injEq, exists_eq_right] at broken
      obtain ⟨y', made, broken⟩ := broken
      simpa using twice y' y made broken
  | a :: b :: c :: rest, split =>
      obtain ⟨rfl, split'⟩ := List.cons.inj split
      obtain ⟨rfl, split''⟩ := List.cons.inj split'
      obtain ⟨rfl, others⟩ := List.cons.inj split''
      obtain ⟨rfl, rfl⟩ := List.append_eq_nil_iff.mp others.symm
      simp only [runFile, Option.bind_eq_some_iff, Option.some.injEq, exists_eq_right] at broken
      obtain ⟨y', made, y'', made', broken⟩ := broken
      simpa using thrice y' y'' y made made' broken

structure Pass (φ κ : Type*) where
  file : φ
  change : κ → Option κ

variable [DecidableEq φ]

def Pass.apply (pass : Pass φ κ) (tree : φ → κ) : Option (φ → κ) :=
  (pass.change (tree pass.file)).map fun x => Function.update tree pass.file x

def run : List (Pass φ κ) → (φ → κ) → Option (φ → κ)
  | [], tree => some tree
  | pass :: rest, tree => (pass.apply tree).bind (run rest)

/-- The passes of a script over one file -/
def passesOf (file : φ) (script : List (Pass φ κ)) : List (κ → Option κ) :=
  (script.filter fun pass => pass.file = file).map Pass.change

theorem passesOf_append (file : φ) (front back : List (Pass φ κ)) :
    passesOf file (front ++ back) = passesOf file front ++ passesOf file back := by
  simp [passesOf]

/-- A script does to each file what its passes over that file do. -/
theorem run_eq_some_iff {script : List (Pass φ κ)} {tree tree' : φ → κ} :
    run script tree = some tree' ↔
      ∀ file, runFile (passesOf file script) (tree file) = some (tree' file) := by
  induction script generalizing tree with
  | nil =>
      simp only [run, passesOf, List.filter_nil, List.map_nil, runFile, Option.some.injEq]
      exact funext_iff
  | cons pass rest ih =>
      have own : passesOf pass.file (pass :: rest) = pass.change :: passesOf pass.file rest := by
        simp [passesOf]
      have others {file : φ} (other : file ≠ pass.file) :
          passesOf file (pass :: rest) = passesOf file rest := by
        simp [passesOf, Ne.symm other]
      simp only [run, Pass.apply]
      cases changed : pass.change (tree pass.file) with
      | none =>
          simp only [Option.map_none, Option.bind_none, reduceCtorEq, false_iff]
          intro all
          have here := all pass.file
          rw [own] at here
          simp [runFile, changed] at here
      | some x =>
          simp only [Option.map_some, Option.bind_some, ih]
          apply forall_congr'
          intro file
          by_cases here : file = pass.file
          · subst here
            rw [own, Function.update_self]
            simp only [runFile, changed, Option.bind_some]
          · rw [others here, Function.update_of_ne here]

/-- A script resumes if the passes over each file do. -/
theorem run_resumes {script front back : List (Pass φ κ)} {tree tree' final : φ → κ}
    (resumable : ∀ file, Resumable (passesOf file script) (tree file)) (split : script = front ++ back)
    (broken : run front tree = some tree') (whole : run script tree = some final) :
    run script tree' = some final := by
  rw [run_eq_some_iff] at broken whole ⊢
  intro file
  have parts : passesOf file script = passesOf file front ++ passesOf file back := by
    rw [split, passesOf_append]
  exact resumable file _ _ parts _ _ (broken file) (whole file)

end RemoteControl.Passes
