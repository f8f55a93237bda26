import Mathlib.Computability.RegularExpressions

/-! # Patterns

What regular expressions are written with besides sums, products and stars: classes of letters,
`r{m,n}` and `r+`.
-/

namespace RemoteControl.Patterns

variable {α : Type} {r : RegularExpression α} {letters x : List α}

/-- A class of letters, `[abc]`. -/
def oneOf (letters : List α) : RegularExpression α := (letters.map RegularExpression.char).sum

/-- `r{least,most}` -/
def between (least most : Nat) (r : RegularExpression α) : RegularExpression α :=
  ((List.range' least (most + 1 - least)).map (r ^ ·)).sum

/-- `r+` -/
def plus (r : RegularExpression α) : RegularExpression α := r * r.star

theorem mem_sum {rs : List (RegularExpression α)} :
    x ∈ rs.sum.matches' ↔ ∃ r ∈ rs, x ∈ r.matches' := by
  induction rs with
  | nil =>
      rw [List.sum_nil, RegularExpression.matches'_zero]
      simp [Language.notMem_zero]
  | cons r rs ih =>
      rw [List.sum_cons, RegularExpression.matches'_add, Language.mem_add, ih, List.exists_mem_cons_iff]

theorem mem_oneOf : x ∈ (oneOf letters).matches' ↔ ∃ a ∈ letters, x = [a] := by
  rw [oneOf, mem_sum]
  constructor
  · rintro ⟨_, member, inside⟩
    obtain ⟨a, there, rfl⟩ := List.mem_map.mp member
    exact ⟨a, there, inside⟩
  · rintro ⟨a, there, rfl⟩
    exact ⟨.char a, List.mem_map_of_mem there, Set.mem_singleton [a]⟩

/-- Texts of one length over a class. -/
theorem mem_pow_oneOf {n : Nat} :
    x ∈ (oneOf letters ^ n).matches' ↔ x.length = n ∧ ∀ a ∈ x, a ∈ letters := by
  rw [RegularExpression.matches'_pow]
  induction n generalizing x with
  | zero =>
      rw [pow_zero, Language.mem_one, List.length_eq_zero_iff]
      exact ⟨fun empty => ⟨empty, by rw [empty]; exact List.forall_mem_nil _⟩, And.left⟩
  | succ n ih =>
      rw [pow_succ', Language.mem_mul]
      constructor
      · rintro ⟨first, head, rest, tail, rfl⟩
        obtain ⟨a, inside, rfl⟩ := mem_oneOf.mp head
        obtain ⟨length, all⟩ := ih.mp tail
        exact ⟨by rw [List.length_append, length, List.length_singleton, Nat.add_comm],
          List.forall_mem_cons.mpr ⟨inside, all⟩⟩
      · rintro ⟨length, all⟩
        obtain ⟨a, rest, rfl⟩ := List.exists_cons_of_length_eq_add_one length
        obtain ⟨inside, all⟩ := List.forall_mem_cons.mp all
        exact ⟨[a], mem_oneOf.mpr ⟨a, inside, rfl⟩, rest, ih.mpr ⟨Nat.succ.inj length, all⟩, rfl⟩

theorem mem_between_oneOf {least most : Nat} :
    x ∈ (between least most (oneOf letters)).matches' ↔
      least ≤ x.length ∧ x.length ≤ most ∧ ∀ a ∈ x, a ∈ letters := by
  rw [between, mem_sum]
  constructor
  · rintro ⟨_, power, inside⟩
    obtain ⟨n, range, rfl⟩ := List.mem_map.mp power
    obtain ⟨length, all⟩ := mem_pow_oneOf.mp inside
    have bounds := List.mem_range'_1.mp range
    exact ⟨by omega, by omega, all⟩
  · rintro ⟨low, high, all⟩
    refine ⟨_, List.mem_map.mpr ⟨x.length, List.mem_range'_1.mpr ⟨low, by omega⟩, rfl⟩, ?_⟩
    exact mem_pow_oneOf.mpr ⟨rfl, all⟩

theorem mem_plus :
    x ∈ (plus r).matches' ↔
      ∃ (first : List α) (rest : List (List α)), first ∈ r.matches' ∧ (∀ y ∈ rest, y ∈ r.matches') ∧
        first ++ rest.flatten = x := by
  rw [plus, RegularExpression.matches'_mul, Language.mem_mul, RegularExpression.matches'_star]
  constructor
  · rintro ⟨first, head, _, tail, rfl⟩
    obtain ⟨rest, rfl, all⟩ := Language.mem_kstar.mp tail
    exact ⟨first, rest, head, all, rfl⟩
  · rintro ⟨first, rest, head, all, rfl⟩
    exact ⟨first, head, rest.flatten, Language.join_mem_kstar all, rfl⟩

theorem mem_plus_oneOf :
    x ∈ (plus (oneOf letters)).matches' ↔ x ≠ [] ∧ ∀ a ∈ x, a ∈ letters := by
  rw [mem_plus]
  constructor
  · rintro ⟨first, rest, head, all, rfl⟩
    obtain ⟨a, inside, rfl⟩ := mem_oneOf.mp head
    refine ⟨List.cons_ne_nil a _, List.forall_mem_cons.mpr ⟨inside, fun b there => ?_⟩⟩
    obtain ⟨y, member, there⟩ := List.mem_flatten.mp there
    obtain ⟨c, inside, rfl⟩ := mem_oneOf.mp (all y member)
    rwa [List.mem_singleton.mp there]
  · rintro ⟨some_, all⟩
    obtain ⟨a, rest, rfl⟩ := List.exists_cons_of_ne_nil some_
    obtain ⟨inside, all⟩ := List.forall_mem_cons.mp all
    refine ⟨[a], rest.map ([·]), mem_oneOf.mpr ⟨a, inside, rfl⟩, fun y member => ?_, ?_⟩
    · obtain ⟨b, there, rfl⟩ := List.mem_map.mp member
      exact mem_oneOf.mpr ⟨b, all b there, rfl⟩
    · rw [← List.flatMap_def, List.flatMap_singleton', List.singleton_append]

end RemoteControl.Patterns
