import Mathlib.Data.Finset.Erase
import Mathlib.Data.Finset.Insert

/-! # Ledgers of held resources

Resources are taken and given back one at a time, and a ledger of records says
which ones are out: `stands` is the resource that giving a record back gives
back, when there is one. Whoever settles the ledger gives back what every
record stands for, so nothing stays held exactly when every resource held has
a record standing for it.

`spare` lists resources whose holder gives them back without the ledger.
-/

namespace RemoteControl.Ledger

variable {κ ρ : Type*} {stands : ρ → Option κ} {spare : List κ} {held : Finset κ}
  {ledger order : List ρ} {c : κ} {r : ρ}

/-- Some record of the ledger stands for the resource. -/
def Stands (stands : ρ → Option κ) (ledger : List ρ) (c : κ) : Prop :=
  ∃ r ∈ ledger, stands r = some c

/-- Every resource held is a spare one or has a record. -/
def Covered (stands : ρ → Option κ) (spare : List κ) (held : Finset κ) (ledger : List ρ) : Prop :=
  ∀ c ∈ held, c ∈ spare ∨ Stands stands ledger c

instance [DecidableEq κ] (stands : ρ → Option κ) (ledger : List ρ) (c : κ) :
    Decidable (Stands stands ledger c) :=
  inferInstanceAs (Decidable (∃ r ∈ ledger, stands r = some c))

/-- Enter a record, once. -/
def note [DecidableEq ρ] (r : ρ) (ledger : List ρ) : List ρ :=
  if r ∈ ledger then ledger else r :: ledger

/-- Take a record off. -/
def strike [DecidableEq ρ] (r : ρ) (ledger : List ρ) : List ρ :=
  ledger.filter (· ≠ r)

/-- Give back what a record stands for, if anything. -/
def giveBack [DecidableEq κ] (held : Finset κ) : Option κ → Finset κ
  | some c => held.erase c
  | none => held

/-- Give back what the records stand for, in the order given. -/
def settle [DecidableEq κ] (stands : ρ → Option κ) (held : Finset κ) (order : List ρ) : Finset κ :=
  order.foldl (fun held r => giveBack held (stands r)) held

@[simp] theorem mem_note [DecidableEq ρ] {r' : ρ} : r' ∈ note r ledger ↔ r' = r ∨ r' ∈ ledger := by
  unfold note
  split <;> grind

@[simp] theorem mem_strike [DecidableEq ρ] {r' : ρ} : r' ∈ strike r ledger ↔ r' ∈ ledger ∧ r' ≠ r := by
  simp [strike]

@[simp] theorem mem_giveBack [DecidableEq κ] {target : Option κ} :
    c ∈ giveBack held target ↔ c ∈ held ∧ target ≠ some c := by
  cases target with
  | none => simp [giveBack]
  | some c' =>
      simp only [giveBack, Finset.mem_erase, ne_eq, Option.some.injEq]
      grind

@[simp] theorem stands_note [DecidableEq ρ] :
    Stands stands (note r ledger) c ↔ stands r = some c ∨ Stands stands ledger c := by
  simp [Stands]

theorem mem_settle [DecidableEq κ] :
    c ∈ settle stands held order ↔ c ∈ held ∧ ∀ r ∈ order, stands r ≠ some c := by
  induction order generalizing held with
  | nil => simp [settle]
  | cons r rest ih =>
      rw [settle, List.foldl_cons, ← settle, ih, mem_giveBack]
      simp [and_assoc]

namespace Covered

section

variable (covered : Covered stands spare held ledger)

include covered

/-- Fewer resources held are covered by the same ledger. -/
theorem fewer {fewer : Finset κ}
    (subset : ∀ c ∈ fewer, c ∈ held) : Covered stands spare fewer ledger := by
  intro c member
  exact covered c (subset c member)

theorem spared {more : List κ} (subset : ∀ c ∈ spare, c ∈ more) : Covered stands more held ledger := by
  intro c member
  exact (covered c member).imp_left (subset c)

/-- More records cover no less. -/
theorem noted [DecidableEq ρ] :
    Covered stands spare held (note r ledger) := by
  intro c member
  apply (covered c member).imp_right
  rintro ⟨r', entered, standing⟩
  exact ⟨r', by simp [entered], standing⟩

end

/-- A spare resource that is given back need not be spare any more. -/
theorem returned [DecidableEq κ] (covered : Covered stands (c :: spare) held ledger) :
    Covered stands spare (held.erase c) ledger := by
  intro c' member
  obtain ⟨other, member⟩ := Finset.mem_erase.mp member
  apply (covered c' member).imp_left
  intro listed
  exact (List.mem_cons.mp listed).resolve_left other

/-- A record may go together with what it stands for. -/
theorem struck [DecidableEq κ] [DecidableEq ρ] (covered : Covered stands spare held ledger) :
    Covered stands spare (giveBack held (stands r)) (strike r ledger) := by
  intro c member
  obtain ⟨member, other⟩ := mem_giveBack.mp member
  apply (covered c member).imp_right
  rintro ⟨r', entered, standing⟩
  have apart : r' ≠ r := by
    rintro rfl
    exact other standing
  exact ⟨r', by simp [entered, apart], standing⟩

end Covered

@[simp] theorem covered_empty : Covered stands spare ∅ ledger := by
  intro c member
  exact absurd member (Finset.notMem_empty c)

/-- Taking a resource is all right exactly when it is a spare one or has a record. -/
theorem covered_insert [DecidableEq κ] : Covered stands spare (insert c held) ledger ↔
    (c ∈ spare ∨ Stands stands ledger c) ∧ Covered stands spare held ledger :=
  Finset.forall_mem_insert ..

/-- A record may go while what it stands for stays held exactly when another record
    stands for that too. -/
theorem covered_strike [DecidableEq ρ] (covered : Covered stands [] held ledger) :
    Covered stands [] held (strike r ledger) ↔
      ∀ c ∈ held, stands r = some c → Stands stands (strike r ledger) c := by
  constructor
  · intro after c member _
    exact (after c member).resolve_left List.not_mem_nil
  · intro other c member
    obtain ⟨r', entered, standing⟩ := (covered c member).resolve_left List.not_mem_nil
    right
    by_cases same : r' = r
    · subst same
      exact other c member standing
    · exact ⟨r', by simp [entered, same], standing⟩

/-- Settling the ledger gives everything back exactly when it covers what is held,
    in whatever order its records are gone through. -/
theorem settle_eq_empty [DecidableEq κ] (perm : order.Perm ledger) :
    settle stands held order = ∅ ↔ Covered stands [] held ledger := by
  simp only [Finset.eq_empty_iff_forall_notMem, mem_settle, Covered, Stands, perm.mem_iff,
    List.not_mem_nil, false_or]
  grind

end RemoteControl.Ledger
