import Mathlib.Data.List.Basic
import Mathlib.Data.List.Induction

/-! # Counting votes

Votes are counted in the order in which they come up, and the first of those with the most
votes wins. Which of them that is depends on the order only in a tie.
-/

namespace RemoteControl.Tally

variable {α : Type*} [DecidableEq α]

def add (vote : α) : List (α × Nat) → List (α × Nat)
  | [] => [(vote, 1)]
  | (p, count) :: rest =>
      if p = vote then (p, count + 1) :: rest else (p, count) :: add vote rest

def counts (votes : List α) : List (α × Nat) :=
  votes.foldl (fun counts vote => add vote counts) []

/-- The first one with the most votes. -/
def winner (votes : List α) : Option α :=
  let maxCount := ((counts votes).map Prod.snd).max?.getD 0
  ((counts votes).find? fun entry => entry.2 = maxCount).map Prod.fst

/-- The first vote of those for either is for the first one. -/
def ComesBefore (votes : List α) (p q : α) : Prop :=
  votes.find? (fun r => r = p ∨ r = q) = some p

instance (votes : List α) (p q : α) : Decidable (ComesBefore votes p q) :=
  inferInstanceAs (Decidable (_ = _))

/-- There are votes for `p`, and more than for any other, or as many and earlier ones. -/
def Wins (votes : List α) (p : α) : Prop :=
  p ∈ votes ∧ ∀ q ∈ votes, q ≠ p →
    votes.count q < votes.count p ∨ votes.count q = votes.count p ∧ ComesBefore votes p q

theorem counts_concat (votes : List α) (vote : α) :
    counts (votes ++ [vote]) = add vote (counts votes) := by
  simp [counts]

theorem keys_add (vote : α) (entries : List (α × Nat)) :
    (add vote entries).map Prod.fst =
      if vote ∈ entries.map Prod.fst then entries.map Prod.fst
      else entries.map Prod.fst ++ [vote] := by
  induction entries with
  | nil => simp [add]
  | cons entry rest ih =>
      obtain ⟨p, count⟩ := entry
      by_cases same : p = vote
      · simp [add, same]
      · have other : vote ≠ p := fun eq => same eq.symm
        simp only [add, if_neg same, List.map_cons, ih, List.mem_cons, other, false_or]
        split <;> rfl

theorem mem_keys_counts (votes : List α) (p : α) : p ∈ (counts votes).map Prod.fst ↔ p ∈ votes := by
  induction votes using List.reverseRecOn with
  | nil => simp [counts]
  | append_singleton votes vote ih =>
      rw [counts_concat, keys_add, List.mem_append, ← ih]
      split
      · rename_i counted
        constructor
        · exact Or.inl
        · rintro (before | last)
          · exact before
          · rw [List.mem_singleton.mp last]
            exact counted
      · rw [List.mem_append]

/-- The candidates stand in the order of their first votes. -/
theorem find?_keys_counts (votes : List α) (p : α → Bool) :
    ((counts votes).map Prod.fst).find? p = votes.find? p := by
  induction votes using List.reverseRecOn with
  | nil => rfl
  | append_singleton votes vote ih =>
      rw [counts_concat, keys_add, List.find?_append, ← ih]
      split
      · rename_i counted
        by_cases fits : p vote = true
        · have found : (((counts votes).map Prod.fst).find? p).isSome := by
            rw [List.find?_isSome]
            exact ⟨vote, counted, fits⟩
          obtain ⟨first, eq⟩ := Option.isSome_iff_exists.mp found
          simp [eq]
        · simp [fits]
      · rw [List.find?_append]

theorem nodup_keys_counts (votes : List α) : ((counts votes).map Prod.fst).Nodup := by
  induction votes using List.reverseRecOn with
  | nil => simp [counts]
  | append_singleton votes vote ih =>
      rw [counts_concat, keys_add]
      split
      · exact ih
      · rename_i new
        rw [List.nodup_append]
        refine ⟨ih, by simp, ?_⟩
        intro q counted r last
        rw [List.mem_singleton.mp last]
        rintro rfl
        exact new counted

/-- Adding a vote adds one to what its candidate had, and nothing to the others. -/
theorem add_counted {vote : α} {f : α → Nat} {entries : List (α × Nat)}
    (nodup : (entries.map Prod.fst).Nodup) (counted : ∀ entry ∈ entries, entry.2 = f entry.1)
    (new : vote ∉ entries.map Prod.fst → f vote = 0) :
    ∀ entry ∈ add vote entries, entry.2 = f entry.1 + if entry.1 = vote then 1 else 0 := by
  induction entries with
  | nil =>
      intro entry member
      simp only [add, List.mem_singleton] at member
      subst member
      simp [new]
  | cons entry rest ih =>
      obtain ⟨p, n⟩ := entry
      simp only [List.map_cons, List.nodup_cons] at nodup
      have head : n = f p := counted (p, n) (by simp)
      have tail : ∀ entry ∈ rest, entry.2 = f entry.1 := fun entry member =>
        counted entry (by simp [member])
      by_cases same : p = vote
      · subst same
        intro entry member
        simp only [add, if_true, List.mem_cons] at member
        rcases member with rfl | later
        · simp [head]
        · have other : entry.1 ≠ p := by
            intro eq
            exact nodup.1 (eq ▸ List.mem_map_of_mem later)
          simp [other, tail entry later]
      · intro entry member
        simp only [add, if_neg same, List.mem_cons] at member
        rcases member with rfl | later
        · simp [same, head]
        · apply ih nodup.2 tail _ entry later
          intro absent
          apply new
          have other : vote ≠ p := fun eq => same eq.symm
          simpa [other] using absent

theorem counts_eq_count (votes : List α) : ∀ entry ∈ counts votes, entry.2 = votes.count entry.1 := by
  induction votes using List.reverseRecOn with
  | nil => simp [counts]
  | append_singleton votes vote ih =>
      intro entry member
      rw [counts_concat] at member
      have new : vote ∉ (counts votes).map Prod.fst → votes.count vote = 0 := by
        rw [mem_keys_counts]
        exact List.count_eq_zero.mpr
      have added := add_counted (f := votes.count) (nodup_keys_counts votes) ih new entry member
      rw [added, List.count_append, List.count_singleton, Nat.add_right_inj]
      by_cases same : entry.1 = vote
      · simp [same]
      · simp [same, Ne.symm same]

variable {votes : List α} {p : α}

theorem mem_counts (voted : p ∈ votes) : (p, votes.count p) ∈ counts votes := by
  obtain ⟨entry, member, rfl⟩ := List.mem_map.mp ((mem_keys_counts votes p).mpr voted)
  rw [← counts_eq_count votes entry member]
  exact member

/-- The one who wins. -/
theorem wins_of_winner (won : winner votes = some p) : Wins votes p := by
  simp only [winner, Option.map_eq_some_iff] at won
  obtain ⟨entry, found, rfl⟩ := won
  obtain ⟨most, before, after, split, earlier⟩ := List.find?_eq_some_iff_append.mp found
  have member : entry ∈ counts votes := by simp [split]
  have voted := (mem_keys_counts votes entry.1).mp (List.mem_map_of_mem member)
  have count := counts_eq_count votes entry member
  have most : ((counts votes).map Prod.snd).max?.getD 0 = votes.count entry.1 := by
    rw [← count]
    exact (of_decide_eq_true most).symm
  refine ⟨voted, fun q votedQ other => ?_⟩
  have memberQ := mem_counts votedQ
  have le : votes.count q ≤ votes.count entry.1 := by
    rw [← most]
    exact List.le_max?_getD_of_mem (List.mem_map_of_mem memberQ)
  rcases Nat.lt_or_eq_of_le le with less | same
  · exact Or.inl less
  · refine Or.inr ⟨same, ?_⟩
    rw [ComesBefore, ← find?_keys_counts, split, List.map_append, List.find?_append]
    have none_ : (before.map Prod.fst).find? (fun r => r = entry.1 ∨ r = q) = none := by
      rw [List.find?_eq_none]
      intro r key hit
      obtain ⟨entry', ahead, rfl⟩ := List.mem_map.mp key
      have count' := counts_eq_count votes entry' (by simp [split, ahead])
      have notMost := earlier entry' ahead
      simp only [decide_eq_true_eq] at hit
      have equal : votes.count entry'.1 = votes.count entry.1 := by
        rcases hit with hit | hit
        · rw [hit]
        · rw [hit, same]
      simp [most, count', equal] at notMost
    rw [none_]
    simp

theorem winner_isSome (some_ : votes ≠ []) : (winner votes).isSome := by
  obtain ⟨p, voted⟩ := List.exists_mem_of_ne_nil votes some_
  have present : votes.count p ∈ (counts votes).map Prod.snd := List.mem_map_of_mem (mem_counts voted)
  obtain ⟨most, isMost⟩ : ∃ most, ((counts votes).map Prod.snd).max? = some most := by
    cases none_ : ((counts votes).map Prod.snd).max? with
    | none =>
        rw [List.max?_eq_none_iff] at none_
        simp [none_] at present
    | some most => exact ⟨most, rfl⟩
  obtain ⟨entry, member, count⟩ := List.mem_map.mp (List.max?_mem isMost)
  rw [winner, isMost, Option.isSome_map, List.find?_isSome]
  exact ⟨entry, member, by simp [count]⟩

theorem wins_unique {q : α} (first : Wins votes p) (second : Wins votes q) : p = q := by
  by_contra other
  rcases first.2 q second.1 (Ne.symm other) with less | ⟨same, before⟩
  · rcases second.2 p first.1 other with less' | ⟨same, -⟩ <;> omega
  · rcases second.2 p first.1 other with less | ⟨-, before'⟩
    · omega
    · simp only [ComesBefore, or_comm] at before before'
      rw [before] at before'
      exact other (Option.some.inj before')

theorem winner_eq_none_iff : winner votes = none ↔ votes = [] := by
  constructor
  · intro none_
    by_contra some_
    have := winner_isSome some_
    simp [none_] at this
  · rintro rfl
    rfl

/-- Leaving out the votes for others changes nothing between two. -/
theorem comesBefore_filter {keep : α → Bool} {q : α} (first : keep p = true)
    (second : keep q = true) : ComesBefore (votes.filter keep) p q ↔ ComesBefore votes p q := by
  have same : (fun r => decide (keep r = true ∧ decide (r = p ∨ r = q) = true)) =
      fun r => decide (r = p ∨ r = q) := by
    funext r
    by_cases hit : r = p ∨ r = q
    · have kept : keep r = true := by
        rcases hit with rfl | rfl
        · exact first
        · exact second
      simp [kept]
    · simp [hit]
  rw [ComesBefore, ComesBefore, List.find?_filter, same]

end RemoteControl.Tally
