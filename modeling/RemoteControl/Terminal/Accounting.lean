import RemoteControl.Runs
import RemoteControl.Terminal.Appending

/-! # The size of the output buffer

`total_size` is meant to be the length of all chunks, and the loop that trims the buffer goes
by it. The append that completes a line does not count what it adds to that line, so that
the two differ from then on. And the append that goes on with a line comes back before the
loop, so that a line without an end is never trimmed.
-/

namespace RemoteControl.Terminal.OutputBuffer

open Runs

/-- The bytes that the chunks hold. -/
def held (b : OutputBuffer) : Nat := b.lines.flatten.length

/-- The buffer after one more append; there is none once an append does not return. -/
def next (b : Option OutputBuffer) (data : Bytes) : Option OutputBuffer := b.bind (·.append data)

/-- The append completes a line that was begun before. -/
def Completes (b : OutputBuffer) (data : Bytes) : Prop :=
  b.lastLineIncomplete = true ∧ b.lines ≠ [] ∧ newline ∈ data

instance (b : OutputBuffer) (data : Bytes) : Decidable (b.Completes data) :=
  inferInstanceAs (Decidable (_ ∧ _ ∧ _))

/-- Everything the append adds is counted. -/
def Counts : Option OutputBuffer → Bytes → Prop
  | some b, data => ¬ b.Completes data
  | none, _ => True

instance : (b : Option OutputBuffer) → (data : Bytes) → Decidable (Counts b data)
  | some b, data => inferInstanceAs (Decidable (¬ b.Completes data))
  | none, _ => inferInstanceAs (Decidable True)

/-- The append has returned, and `total_size` is the length of all chunks. -/
def Accounted (b : Option OutputBuffer) : Prop := ∃ b', b = some b' ∧ b'.totalSize = b'.held

/-- The loop of the append ends, and no subtraction goes below zero. -/
def Accepts (b : Option OutputBuffer) (data : Bytes) : Prop := ∀ b' ∈ b, b'.accepts data = true

/-- The chunks and the data are in memory together. -/
def InMemory (b : Option OutputBuffer) (data : Bytes) : Prop := ∀ b' ∈ b, b'.held + data.length < 2 ^ 63

/-! ## Trimming -/

/-- What the loop leaves when no subtraction goes below zero. -/
theorem trim_covered {total : Nat} {lines : List Bytes} (fine : covered total lines = true) :
    ∃ front rest left, trim total lines = some (left, rest) ∧ lines = front ++ rest ∧
      total = left + front.flatten.length ∧ left ≤ maxOutputBufferSize ∧
        rest.length ≤ maxBufferLines := by
  induction lines generalizing total with
  | nil =>
      by_cases full : maxOutputBufferSize < total ∨ maxBufferLines < ([] : List Bytes).length
      · simp only [covered, if_pos full, Bool.false_eq_true] at fine
      · rw [not_or, Nat.not_lt, Nat.not_lt] at full
        refine ⟨[], [], total, ?_, rfl, rfl, full⟩
        simp only [trim, if_neg (not_or.mpr ⟨Nat.not_lt.mpr full.1, Nat.not_lt.mpr full.2⟩)]
  | cons removed later ih =>
      by_cases full : maxOutputBufferSize < total ∨ maxBufferLines < (removed :: later).length
      · simp only [covered, if_pos full, Bool.and_eq_true, decide_eq_true_eq] at fine
        obtain ⟨front, rest, left, trimmed, rfl, size, bounds⟩ := ih fine.2
        refine ⟨removed :: front, rest, left, ?_, rfl, ?_, bounds⟩
        · rw [trim, if_pos full, wrappingSub, if_pos fine.1]
          exact trimmed
        · rw [List.flatten_cons, List.length_append]
          omega
      · refine ⟨[], removed :: later, total, by rw [trim, if_neg full], rfl, rfl, ?_⟩
        rw [not_or, Nat.not_lt, Nat.not_lt] at full
        exact full

/-- With the length of all chunks for a total the loop is fine. -/
theorem covered_of_exact (lines : List Bytes) : covered lines.flatten.length lines = true := by
  induction lines with
  | nil => rfl
  | cons removed later ih =>
      by_cases full : maxOutputBufferSize < (removed :: later).flatten.length ∨
        maxBufferLines < (removed :: later).length
      · have shorter : removed.length ≤ (removed :: later).flatten.length := by
          rw [List.flatten_cons, List.length_append]
          omega
        have left : (removed :: later).flatten.length - removed.length = later.flatten.length := by
          rw [List.flatten_cons, List.length_append]
          omega
        rw [covered, if_pos full, left, ih, Bool.and_true]
        exact decide_eq_true shorter
      · rw [covered, if_neg full]

section Step

variable {b : OutputBuffer} {data : Bytes}

/-- A buffer that is trimmed with an exact total. -/
theorem trimmed_of_exact (counted : b.totalSize = b.held) :
    ∃ b', b.trimmed = some b' ∧ b'.totalSize = b'.held ∧ b'.held ≤ maxOutputBufferSize ∧
      b'.lines.length ≤ maxBufferLines := by
  have fine : covered b.totalSize b.lines = true := by
    rw [counted]
    exact covered_of_exact b.lines
  obtain ⟨front, rest, left, trims, split, size, small, few⟩ := trim_covered fine
  have same : left = rest.flatten.length := by
    have whole : b.held = front.flatten.length + rest.flatten.length := by
      rw [held, split, List.flatten_append, List.length_append]
    omega
  refine ⟨{ b with totalSize := left, lines := rest }, ?_, same, ?_, few⟩
  · rw [trimmed, trims]
    rfl
  · rw [held, ← same]
    exact small

/-- The append goes on with a line and does not trim. -/
def Continues (b : OutputBuffer) (data : Bytes) : Prop :=
  b.lastLineIncomplete = true ∧ b.lines ≠ [] ∧ newline ∉ data

instance (b : OutputBuffer) (data : Bytes) : Decidable (b.Continues data) :=
  inferInstanceAs (Decidable (_ ∧ _ ∧ _))

/-- An append that counts everything keeps the total exact. It goes on with a line, or the
    bounds hold after it. -/
theorem append_counted (counted : b.totalSize = b.held) (counts : ¬ b.Completes data) :
    b.accepts data = true ∧ ∃ b', b.append data = some b' ∧ b'.totalSize = b'.held ∧
      if b.Continues data then b'.held = b.held + data.length ∧ b'.lines.length = b.lines.length
      else b' = b ∨ b'.held ≤ maxOutputBufferSize ∧ b'.lines.length ≤ maxBufferLines := by
  have fills := fills_filled b data
  unfold accepts append
  generalize b.filled data = result at fills
  cases fills with
  | nothing =>
      refine ⟨rfl, b, rfl, counted, ?_⟩
      split_ifs
      · exact ⟨rfl, rfl⟩
      · exact .inl rfl
  | @continues front line _ incomplete lines nonempty plain =>
      have goesOn : b.Continues data := ⟨incomplete, by simp [lines], plain⟩
      have longer :
          held ⟨front ++ [line ++ data], b.totalSize + data.length, true⟩ =
          b.held + data.length := by
        simp [held, lines, Nat.add_assoc]
      refine ⟨rfl, _, rfl, ?_, ?_⟩
      · rw [longer, ← counted]
      · rw [if_pos goesOn]
        refine ⟨longer, ?_⟩
        simp [lines]
  | @completes front line text rest incomplete lines plain =>
      have some_ : b.lines ≠ [] := by simp [lines]
      exact absurd ⟨incomplete, some_, by simp⟩ counts
  | @starts _ fresh nonempty =>
      have other : ¬ b.Continues data := by
        rintro ⟨incomplete, some_, -⟩
        rcases fresh with complete | none_
        · rw [incomplete] at complete
          cases complete
        · exact some_ none_
      have exact_ : OutputBuffer.totalSize ⟨b.lines ++ cut data, b.totalSize + data.length,
          b.lastLineIncomplete || unfinished data⟩ =
            held ⟨b.lines ++ cut data, b.totalSize + data.length,
          b.lastLineIncomplete || unfinished data⟩ := by
        simp [held, flatten_cut, counted]
      obtain ⟨b', trims, same, bounds⟩ := trimmed_of_exact exact_
      refine ⟨?_, b', trims, same, ?_⟩
      · have fine := covered_of_exact (b.lines ++ cut data)
        have total : b.totalSize + data.length = (b.lines ++ cut data).flatten.length := exact_
        dsimp only
        rw [total, fine]
        rfl
      · rw [if_neg other]
        exact .inr bounds

/-- An append that completes a line leaves a total that is too small, or never returns. -/
theorem append_completing (counted : b.totalSize = b.held) (completes : b.Completes data)
    (inMemory : b.held + data.length < 2 ^ 63) : ¬ Accounted (b.append data) := by
  rintro ⟨b', appended, exact_⟩
  have fills := fills_filled b data
  unfold append at appended
  generalize b.filled data = result at fills appended
  cases fills with
  | nothing => exact (List.not_mem_nil completes.2.2).elim
  | continues incomplete lines nonempty plain => exact plain completes.2.2
  | starts fresh nonempty =>
      rcases fresh with complete | none_
      · rw [completes.1] at complete
        cases complete
      · exact completes.2.1 none_
  | @completes front line text rest incomplete lines plain =>
      have before : b.held = front.flatten.length + line.length := by
        simp [held, lines]
      have after : (front ++ [line ++ (text ++ [newline])] ++ cut rest).flatten.length =
          b.totalSize + rest.length + (text.length + 1) := by
        simp only [List.flatten_append, List.flatten_singleton, flatten_cut, List.length_append,
          List.length_singleton]
        omega
      have small : (front ++ [line ++ (text ++ [newline])] ++ cut rest).flatten.length < 2 ^ 63 := by
        rw [List.length_append, List.length_cons] at inMemory
        omega
      simp only [if_true, trimmed, Option.map_eq_some_iff] at appended
      obtain ⟨⟨left, kept⟩, trims, rfl⟩ := appended
      have fine := (trim_isSome_iff small).mp (by rw [trims]; rfl)
      obtain ⟨front', rest', left', trims', split, size, -⟩ := trim_covered fine
      obtain ⟨rfl, rfl⟩ := Prod.mk.inj (Option.some.inj (trims.symm.trans trims'))
      have total : left = kept.flatten.length := exact_
      rw [split, List.flatten_append, List.length_append] at after
      omega

end Step

theorem accounted_next {b : Option OutputBuffer} {data : Bytes} (accounted : Accounted b)
    (counts : Counts b data) :
    Accounted (next b data) ∧ Accepts b data := by
  obtain ⟨b, rfl, counted⟩ := accounted
  obtain ⟨accepts, b', appended, exact_, -⟩ := append_counted counted counts
  refine ⟨⟨b', appended, exact_⟩, ?_⟩
  rintro _ ⟨⟩
  exact accepts

/-- As long as no append completes a line that was begun before, `total_size` is the length of
    all chunks after each append, each append returns, and none of its subtractions goes below
    zero. With the buffer in memory, there is no other case in which it stays exact. -/
theorem total_size_exact_iff (received : List Bytes) :
    (Along next Counts (some {}) received →
      Always next Accounted (some {}) received ∧ Along next Accepts (some {}) received) ∧
    (Along next InMemory (some {}) received →
      (Always next Accounted (some {}) received ↔ Along next Counts (some {}) received)) := by
  have start : Accounted (some {}) := ⟨{}, rfl, rfl⟩
  constructor
  · intro counts
    exact ⟨always_of_along (fun _ _ accounted here => (accounted_next accounted here).1) start counts,
      along_of_along (fun _ _ accounted here => accounted_next accounted here) start counts⟩
  · intro inMemory
    refine always_iff_along_of_along (q := fun _ => True)
      (fun _ _ _ _ _ => trivial) ?_ inMemory trivial start
    rintro b data fits - accounted
    constructor
    · intro after
      obtain ⟨b, rfl, counted⟩ := accounted
      intro completes
      exact append_completing counted completes (fits b rfl) after
    · intro counts
      exact (accounted_next accounted counts).1

/-- A line that came in two parts has three bytes, of which one is counted. -/
theorem completed_line_uncounted : ¬ ∀ received, Always next Accounted (some {}) received := by
  intro always
  obtain ⟨b, after, exact_⟩ := (always [[97], [98, newline]]).last
  have buffer :
      exec next (some {}) [[97], [98, newline]] = some ⟨[[97, 98, newline]], 1, false⟩ := by decide
  obtain rfl := Option.some.inj (buffer.symm.trans after)
  cases exact_

/-- The append has returned, and the chunks keep to the limits. -/
def Bounded (b : Option OutputBuffer) : Prop :=
  ∃ b', b = some b' ∧ b'.held ≤ maxOutputBufferSize ∧ b'.lines.length ≤ maxBufferLines

/-- What goes on with a line fits into the buffer. -/
def HasRoom : Option OutputBuffer → Bytes → Prop
  | some b, data => b.Continues data → b.held + data.length ≤ maxOutputBufferSize
  | none, _ => True

instance : (b : Option OutputBuffer) → (data : Bytes) → Decidable (HasRoom b data)
  | some b, data =>
    inferInstanceAs (Decidable (b.Continues data → b.held + data.length ≤ maxOutputBufferSize))
  | none, _ => inferInstanceAs (Decidable True)

/-- Where everything is counted, the buffer keeps to its limits after each append exactly
    when no line without an end outgrows it. -/
theorem buffer_bounded_iff (received : List Bytes) (counts : Along next Counts (some {}) received) :
    Always next Bounded (some {}) received ↔ Along next HasRoom (some {}) received := by
  refine always_iff_along_of_along (q := Accounted)
    (fun _ _ here accounted _ => (accounted_next accounted here).1)
    ?_ counts ⟨{}, rfl, rfl⟩ ⟨{}, rfl, Nat.zero_le _, Nat.zero_le _⟩
  rintro _ data here ⟨b, rfl, counted⟩ ⟨b', same, small, few⟩
  obtain rfl := Option.some.inj same
  obtain ⟨-, after, appended, exact_, bounds⟩ := append_counted counted here
  have next_ : next (some b) data = some after := appended
  rw [next_]
  by_cases goesOn : b.Continues data
  · rw [if_pos goesOn] at bounds
    constructor
    · rintro ⟨b', same, size, -⟩ -
      obtain rfl := Option.some.inj same
      rw [← bounds.1]
      exact size
    · intro room
      refine ⟨after, rfl, ?_, ?_⟩
      · rw [bounds.1]
        exact room goesOn
      · rw [bounds.2]
        exact few
  · rw [if_neg goesOn] at bounds
    refine iff_of_true ?_ fun other => absurd other goesOn
    rcases bounds with rfl | ⟨size, count⟩
    · exact ⟨after, rfl, small, few⟩
    · exact ⟨after, rfl, size, count⟩

theorem buffer_bounded_three : Always next Bounded (some {}) [[97, newline], [98], [99]] :=
  (buffer_bounded_iff _ (by decide)).mpr (by decide)

theorem append_more {b : OutputBuffer} {front : List Bytes} {line data : Bytes}
    (incomplete : b.lastLineIncomplete = true) (lines : b.lines = front ++ [line]) (some_ : data ≠ [])
    (plain : newline ∉ data) :
    b.append data = some ⟨front ++ [line ++ data], b.totalSize + data.length, true⟩ := by
  have position : data.findIdx? (· == newline) = none := by
    rw [List.findIdx?_eq_none_iff]
    intro c here
    simpa using ne_of_mem_of_not_mem here plain
  simp [append, filled, some_, incomplete, lines, position]

/-- As much as the reader reads at once, without a newline. -/
def slice : Bytes := List.replicate 4096 120

theorem length_slice : slice.length = 4096 := List.length_replicate

theorem exec_slices (n : Nat) :
    exec next (some {}) (List.replicate (n + 1) slice) =
      some ⟨[List.replicate (4096 * (n + 1)) 120], 4096 * (n + 1), true⟩ := by
  have plain : newline ∉ slice := by
    intro member
    have same := List.eq_of_mem_replicate member
    exact absurd same (by decide)
  have some_ : slice ≠ [] := List.ne_nil_of_length_pos (by rw [length_slice]; decide)
  induction n with
  | zero =>
      have starts : append {} slice = some ⟨[slice], slice.length, true⟩ := by
        rw [append_text rfl some_ plain]
        refine (trimmed_of_small ?_ ?_).trans ?_
        · rw [length_slice]
          decide
        · decide
        · rw [List.nil_append, Nat.zero_add]
      rw [List.replicate_succ, exec_cons, List.replicate_zero, exec_nil, next, Option.bind_some, starts,
        length_slice, slice, Nat.zero_add, Nat.mul_one]
  | succ n ih =>
      have goesOn : append ⟨[List.replicate (4096 * (n + 1)) 120], 4096 * (n + 1), true⟩ slice =
          some ⟨[] ++ [List.replicate (4096 * (n + 1)) 120 ++ slice], 4096 * (n + 1) + slice.length,
            true⟩ :=
        append_more rfl rfl some_ plain
      have line :
          List.replicate (4096 * (n + 1)) (120 : UInt8) ++ slice =
          List.replicate (4096 * (n + 1 + 1)) 120 := by
        rw [slice, List.replicate_append_replicate, ← Nat.mul_succ]
      have total : 4096 * (n + 1) + slice.length = 4096 * (n + 1 + 1) := by
        rw [length_slice, ← Nat.mul_succ]
      rw [List.replicate_succ', exec_append, ih, exec_cons, exec_nil, next, Option.bind_some,
        goesOn, line, total, List.nil_append]

/-- Output without a newline is never trimmed: 257 slices are more than a mebibyte. -/
theorem endless_line_outgrows :
    ¬ ∀ received : List Bytes, (∀ data ∈ received, data.length ≤ 4096) →
      Always next Bounded (some {}) received := by
  intro always
  have slices : ∀ data ∈ List.replicate (256 + 1) slice, data.length ≤ 4096 := by
    intro data member
    exact Nat.le_of_eq ((congrArg List.length (List.eq_of_mem_replicate member)).trans length_slice)
  obtain ⟨b, after, small, -⟩ := (always _ slices).last
  obtain rfl := Option.some.inj ((exec_slices 256).symm.trans after)
  rw [held, List.flatten_singleton, List.length_replicate] at small
  exact absurd small (by decide)

end RemoteControl.Terminal.OutputBuffer
