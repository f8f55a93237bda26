import Mathlib.Data.List.Chain
import Mathlib.Data.Set.Finite.Basic
import Mathlib.Order.WellFounded

/-! # Descents in a finite graph

Where a relation comes to a cycle, one can go on for ever. Where it does not and the type is
finite, going down is well-founded, and no way down is longer than the type is large.
-/

namespace RemoteControl.Descents

open Relation (ReflTransGen TransGen)

variable {α : Type*} {r r' : α → α → Prop} {a b : α}

/-- From `a` one comes to an element that comes to itself. -/
def Endless (r : α → α → Prop) (a : α) : Prop := ∃ c, ReflTransGen r a c ∧ TransGen r c c

theorem Endless.of_reach (endless : Endless r b) (reach : ReflTransGen r a b) : Endless r a := by
  obtain ⟨c, later, cycle⟩ := endless
  exact ⟨c, reach.trans later, cycle⟩

theorem Endless.mono (endless : Endless r a) (weaken : r ≤ r') : Endless r' a := by
  obtain ⟨c, reach, cycle⟩ := endless
  exact ⟨c, ReflTransGen.mono weaken _ _ reach, TransGen.mono weaken _ _ cycle⟩

/-- One can always go on. -/
theorem Endless.step (endless : Endless r a) : ∃ b, r a b ∧ Endless r b := by
  obtain ⟨c, reach, cycle⟩ := endless
  cases reach.cases_head with
  | inl here =>
      subst here
      obtain ⟨b, first, back⟩ := TransGen.head'_iff.mp cycle
      exact ⟨b, first, a, back, cycle⟩
  | inr more =>
      obtain ⟨b, first, later⟩ := more
      exact ⟨b, first, c, later, cycle⟩

/-- The way down from `a` ends, whichever way is taken. -/
theorem acc_of_not_endless [Finite α] (ends : ¬ Endless r a) : Acc (fun y x => r x y) a := by
  -- among what `a` comes to, the closure of the relation is an order
  let below := { b : α // ReflTransGen r a b }
  let down : below → below → Prop := fun y x => TransGen r x.1 y.1
  have transitive : IsTrans below down := ⟨fun _ _ _ first second => second.trans first⟩
  have irreflexive : Std.Irrefl down := ⟨fun b cycle => ends ⟨b.1, b.2, cycle⟩⟩
  have wellFounded : WellFounded down := Finite.wellFounded_of_trans_of_irrefl down
  have all (b : below) : Acc (fun y x => r x y) b.1 := by
    induction b using wellFounded.induction with
    | _ b ih =>
        constructor
        intro y step
        exact ih ⟨y, b.2.tail step⟩ (.single step)
  exact all ⟨a, .refl⟩

/-- No element is met twice on the way down. -/
theorem nodup_of_not_endless (ends : ¬ Endless r a) {way : List α} (chain : (a :: way).IsChain r) :
    (a :: way).Nodup := by
  have closed : (a :: way).IsChain (TransGen r) := chain.imp fun _ _ => .single
  have ordered : (a :: way).Pairwise (TransGen r) := List.isChain_iff_pairwise.mp closed
  have reach (b : α) (member : b ∈ a :: way) : ReflTransGen r a b := by
    cases List.mem_cons.mp member with
    | inl here => exact here ▸ .refl
    | inr later => exact (List.rel_of_pairwise_cons ordered later).to_reflTransGen
  rw [List.nodup_iff_pairwise_ne]
  refine ordered.imp_of_mem ?_
  rintro x y inside - step rfl
  exact ends ⟨x, reach x inside, step⟩

/-- A way down has fewer steps than there are elements. -/
theorem length_lt_card [Fintype α] (ends : ¬ Endless r a) {way : List α}
    (chain : (a :: way).IsChain r) : way.length < Fintype.card α := by
  have bound := (nodup_of_not_endless ends chain).length_le_card
  rw [List.length_cons] at bound
  omega

end RemoteControl.Descents
