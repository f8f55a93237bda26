import Mathlib.Data.List.Basic

/-! # Replacing and splitting at a word

`str::replace` and `str::split` with a word for a pattern, from left to right and without
overlaps.
-/

namespace RemoteControl.Splitting

/-- `str::replace`; the first argument is what is still to be passed over of the last match. -/
def replaceFrom (p by_ : List Char) : Nat → List Char → List Char
  | _, [] => []
  | skip + 1, _ :: rest => replaceFrom p by_ skip rest
  | 0, c :: rest =>
      if p.isPrefixOf (c :: rest) then by_ ++ replaceFrom p by_ (p.length - 1) rest
      else c :: replaceFrom p by_ 0 rest

def replace (p by_ : List Char) (s : List Char) : List Char := replaceFrom p by_ 0 s

/-- `str::split` -/
def splitFrom (p : List Char) : Nat → List Char → List (List Char)
  | _, [] => [[]]
  | skip + 1, _ :: rest => splitFrom p skip rest
  | 0, c :: rest =>
      if p.isPrefixOf (c :: rest) then [] :: splitFrom p (p.length - 1) rest
      else (splitFrom p 0 rest).modifyHead (c :: ·)

def split (p : List Char) (s : List Char) : List (List Char) := splitFrom p 0 s

section Once

variable {x : Char} {p left right : List Char}

theorem splitFrom_skip (q : List Char) (skipped : List Char) (s : List Char) :
    splitFrom q skipped.length (skipped ++ s) = splitFrom q 0 s := by
  induction skipped with
  | nil => rfl
  | cons c skipped ih => exact ih

theorem split_of_not_mem (absent : x ∉ right) : split (x :: p) right = [right] := by
  unfold split
  induction right with
  | nil => rfl
  | cons c right ih =>
      obtain ⟨different, later⟩ := List.ne_and_not_mem_of_not_mem_cons absent
      have not : (x :: p).isPrefixOf (c :: right) = false := by
        rw [List.isPrefixOf_cons_cons, beq_eq_false_iff_ne.mpr different, Bool.false_and]
      unfold splitFrom
      rw [not, if_neg nofun, ih later]
      rfl

/-- A word whose first letter is nowhere else splits a text in two. -/
theorem split_once (before : x ∉ left) (after : x ∉ right) :
    split (x :: p) (left ++ (x :: p ++ right)) = [left, right] := by
  unfold split
  induction left with
  | nil =>
      have begins : (x :: p).isPrefixOf (x :: (p ++ right)) = true :=
        List.isPrefixOf_iff_prefix.mpr (List.prefix_append (x :: p) right)
      rw [List.nil_append, List.cons_append]
      unfold splitFrom
      rw [if_pos begins, show (x :: p).length - 1 = p.length from rfl, splitFrom_skip]
      exact congrArg ([] :: ·) (split_of_not_mem after)
  | cons c left ih =>
      obtain ⟨different, later⟩ := List.ne_and_not_mem_of_not_mem_cons before
      have not : (x :: p).isPrefixOf (c :: (left ++ (x :: p ++ right))) = false := by
        rw [List.isPrefixOf_cons_cons, beq_eq_false_iff_ne.mpr different, Bool.false_and]
      rw [List.cons_append]
      unfold splitFrom
      rw [not, if_neg nofun, ih later]
      rfl

end Once

variable {x : Char} {p by_ left right s : List Char} {skip : Nat}

/-- A match does not reach over a letter that is not in the word. -/
theorem prefix_append_cons_iff (absent : x ∉ p) : p <+: left ++ x :: right ↔ p <+: left := by
  induction left generalizing p with
  | nil =>
      cases p with
      | nil => simp
      | cons c p =>
          obtain ⟨different, -⟩ := List.ne_and_not_mem_of_not_mem_cons absent
          simp [List.cons_prefix_cons, different.symm]
  | cons d left ih =>
      cases p with
      | nil => simp
      | cons c p =>
          obtain ⟨-, later⟩ := List.ne_and_not_mem_of_not_mem_cons absent
          simp [List.cons_prefix_cons, ih later]

theorem replaceFrom_append_cons (word : p ≠ []) (absent : x ∉ p) (inside : skip ≤ left.length) :
    replaceFrom p by_ skip (left ++ x :: right) =
      replaceFrom p by_ skip left ++ x :: replaceFrom p by_ 0 right := by
  induction left generalizing skip with
  | nil =>
      have here : skip = 0 := Nat.le_zero.mp inside
      have not : p.isPrefixOf (x :: right) = false := by
        rw [Bool.eq_false_iff, ne_eq, List.isPrefixOf_iff_prefix]
        intro begins
        exact word (List.prefix_nil.mp ((@prefix_append_cons_iff x p [] right absent).mp begins))
      subst here
      simp [replaceFrom, not]
  | cons d left ih =>
      cases skip with
      | succ skip => exact ih (Nat.le_of_succ_le_succ inside)
      | zero =>
          have same : p.isPrefixOf (d :: (left ++ x :: right)) = p.isPrefixOf (d :: left) := by
            rw [Bool.eq_iff_iff, List.isPrefixOf_iff_prefix, List.isPrefixOf_iff_prefix]
            exact @prefix_append_cons_iff x p (d :: left) right absent
          simp only [List.cons_append, replaceFrom, same]
          split
          · next begins =>
              have short := (List.isPrefixOf_iff_prefix.mp begins).length_le
              rw [List.length_cons] at short
              rw [ih (by omega), List.append_assoc]
          · rw [ih (Nat.zero_le _)]
            rfl

/-- What is in front of a letter that is not in the word is replaced on its own. -/
theorem replace_append_cons (word : p ≠ []) (absent : x ∉ p) :
    replace p by_ (left ++ x :: right) = replace p by_ left ++ x :: replace p by_ right :=
  replaceFrom_append_cons word absent (Nat.zero_le _)

theorem replaceFrom_of_not_infix (absent : ¬p <:+: s) : replaceFrom p by_ 0 s = s := by
  induction s with
  | nil => rfl
  | cons c s ih =>
      have not : p.isPrefixOf (c :: s) = false := by
        rw [Bool.eq_false_iff, ne_eq, List.isPrefixOf_iff_prefix]
        exact fun begins => absent begins.isInfix
      have later : ¬p <:+: s := fun inside => absent (inside.trans (List.suffix_cons c s).isInfix)
      simp [replaceFrom, not, ih later]

theorem replace_of_not_infix (absent : ¬p <:+: s) : replace p by_ s = s := replaceFrom_of_not_infix absent

/-- A longer word in place of another makes no text shorter, and a text with a match longer. -/
theorem length_replaceFrom (word : p ≠ []) (longer : p.length < by_.length) (skip : Nat)
    (s : List Char) : s.length ≤ (replaceFrom p by_ skip s).length + skip ∧
      (p <:+: s.drop skip → s.length < (replaceFrom p by_ skip s).length + skip) := by
  induction s generalizing skip with
  | nil => simp [replaceFrom, word]
  | cons c s ih =>
      cases skip with
      | succ skip =>
          obtain ⟨weak, strict⟩ := ih skip
          simp only [replaceFrom, List.length_cons, List.drop_succ_cons]
          exact ⟨by omega, fun inside => by have := strict inside; omega⟩
      | zero =>
          by_cases begins : p.isPrefixOf (c :: s) = true
          · obtain ⟨weak, -⟩ := ih (p.length - 1)
            have := List.length_pos_iff.mpr word
            simp only [replaceFrom, begins, if_true, List.length_cons, List.length_append]
            exact ⟨by omega, fun _ => by omega⟩
          · obtain ⟨weak, strict⟩ := ih 0
            simp only [replaceFrom, begins, List.length_cons, List.drop_zero]
            refine ⟨by simpa using weak, fun inside => ?_⟩
            have later : p <:+: s := by
              rcases List.infix_cons_iff.mp inside with here | later
              · exact absurd (List.isPrefixOf_iff_prefix.mpr here) begins
              · exact later
            simpa using strict later

theorem length_le_replace (word : p ≠ []) (longer : p.length < by_.length) :
    s.length ≤ (replace p by_ s).length := (length_replaceFrom word longer 0 s).1

theorem length_lt_replace (word : p ≠ []) (longer : p.length < by_.length) (inside : p <:+: s) :
    s.length < (replace p by_ s).length := (length_replaceFrom word longer 0 s).2 inside

theorem mem_replaceFrom {c : Char} (member : c ∈ replaceFrom p by_ skip s) : c ∈ s ∨ c ∈ by_ := by
  induction s generalizing skip with
  | nil => cases skip <;> cases member
  | cons d s ih =>
      cases skip with
      | succ skip => exact (ih member).imp_left (List.mem_cons_of_mem d)
      | zero =>
          simp only [replaceFrom] at member
          split at member
          · rcases List.mem_append.mp member with put | later
            · exact .inr put
            · exact (ih later).imp_left (List.mem_cons_of_mem d)
          · rcases List.mem_cons.mp member with rfl | later
            · exact .inl List.mem_cons_self
            · exact (ih later).imp_left (List.mem_cons_of_mem d)

end RemoteControl.Splitting
