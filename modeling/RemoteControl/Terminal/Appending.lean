import RemoteControl.Terminal.OutputBuffer

/-! # What an append leaves

The chunks of an `OutputBuffer` are the data cut after each newline. An append goes on with
the last chunk if that has no newline yet, and cuts what follows; only then are chunks taken
off the front. Everything else about the buffer is read off these cases.
-/

namespace RemoteControl.Terminal

/-- The bytes cut after each newline. -/
def cut : Bytes → List Bytes
  | [] => []
  | c :: rest =>
      if c = newline then [c] :: cut rest
      else
        match cut rest with
        | [] => [[c]]
        | line :: lines => (c :: line) :: lines

/-- The last line has no newline. -/
def unfinished (bytes : Bytes) : Bool := bytes ≠ [] && bytes.getLast? ≠ some newline

/-- Bytes are a text without a newline, or a line and more bytes. -/
theorem lines_induction {P : Bytes → Prop} (text : ∀ text, newline ∉ text → P text)
    (line : ∀ text more, newline ∉ text → P more → P (text ++ newline :: more)) (bytes : Bytes) :
    P bytes := by
  induction length : bytes.length using Nat.strongRecOn generalizing bytes with
  | ind n ih =>
      by_cases member : newline ∈ bytes
      · obtain ⟨front, more, rfl, first⟩ := List.eq_append_cons_of_mem member
        rw [List.length_append, List.length_cons] at length
        exact line front more first (ih more.length (by omega) more rfl)
      · exact text bytes member

variable {text : Bytes}

theorem cut_text (plain : newline ∉ text) (some_ : text ≠ []) : cut text = [text] := by
  induction text with
  | nil => exact absurd rfl some_
  | cons c rest ih =>
      rw [List.mem_cons, not_or] at plain
      cases rest with
      | nil => simp [cut, Ne.symm plain.1]
      | cons d rest =>
          rw [cut, if_neg (Ne.symm plain.1), ih plain.2 (List.cons_ne_nil d rest)]

theorem cut_line (plain : newline ∉ text) (more : Bytes) :
    cut (text ++ newline :: more) = (text ++ [newline]) :: cut more := by
  induction text with
  | nil => simp [cut]
  | cons c rest ih =>
      rw [List.mem_cons, not_or] at plain
      rw [List.cons_append, cut, if_neg (Ne.symm plain.1), ih plain.2]
      rfl

theorem flatten_cut (bytes : Bytes) : (cut bytes).flatten = bytes := by
  induction bytes using lines_induction with
  | text text plain =>
      cases text with
      | nil => rfl
      | cons c rest => rw [cut_text plain (List.cons_ne_nil c rest), List.flatten_singleton]
  | line text more plain ih =>
      rw [cut_line plain, List.flatten_cons, ih, List.append_assoc]
      rfl

/-- Every chunk but the last has a newline at its end; if `closed`, so has the last. -/
structure Lined (closed : Bool) (lines : List Bytes) : Prop where
  inner : ∀ line ∈ lines.dropLast, line.getLast? = some newline
  last : closed = true → ∀ line ∈ lines.getLast?, line.getLast? = some newline

theorem Lined.all {lines : List Bytes} (lined : Lined true lines) :
    ∀ line ∈ lines, line.getLast? = some newline := by
  intro line member
  rcases List.eq_nil_or_concat' lines with rfl | ⟨front, last, rfl⟩
  · cases member
  · rcases List.mem_append.mp member with inside | here
    · exact lined.inner line (by rwa [List.dropLast_concat])
    · exact lined.last rfl line (by rw [List.getLast?_concat, List.mem_singleton.mp here]; rfl)

theorem Lined.append {closed : Bool} {lines more : List Bytes}
    (lined : ∀ line ∈ lines, line.getLast? = some newline) (later : Lined closed more) :
    Lined closed (lines ++ more) := by
  rcases List.eq_nil_or_concat' more with rfl | ⟨front, last, rfl⟩
  · rw [List.append_nil]
    exact ⟨fun line member => lined line (List.dropLast_subset _ member),
      fun _ line member => lined line (List.mem_of_mem_getLast? member)⟩
  · constructor
    · intro line member
      rw [← List.append_assoc, List.dropLast_concat] at member
      rcases List.mem_append.mp member with early | late
      · exact lined line early
      · exact later.inner line (by rwa [List.dropLast_concat])
    · intro isClosed line member
      rw [← List.append_assoc, List.getLast?_concat] at member
      exact later.last isClosed line (by rwa [List.getLast?_concat])

theorem lined_single (closed : Bool) {line : Bytes}
    (ends : closed = true → line.getLast? = some newline) :
    Lined closed [line] := by
  refine ⟨nofun, fun isClosed other same => ?_⟩
  obtain rfl : line = other := Option.some.inj same
  exact ends isClosed

theorem unfinished_line (text : Bytes) {more : Bytes} :
    unfinished (text ++ newline :: more) = unfinished more := by
  cases more with
  | nil => simp [unfinished]
  | cons c more => simp [unfinished, List.getLast?_append, List.getLast?_cons_cons]

theorem unfinished_text (plain : newline ∉ text) (some_ : text ≠ []) :
    unfinished text = true := by
  have last : text.getLast? ≠ some newline := fun here => plain (List.mem_of_getLast? here)
  simp [unfinished, some_, last]

theorem lined_cut (bytes : Bytes) : Lined (!unfinished bytes) (cut bytes) := by
  induction bytes using lines_induction with
  | text text plain =>
      cases text with
      | nil => exact ⟨nofun, fun _ => nofun⟩
      | cons c rest =>
          have some_ := List.cons_ne_nil c rest
          rw [cut_text plain some_, unfinished_text plain some_]
          exact lined_single _ nofun
  | line text more plain ih =>
      rw [cut_line plain, unfinished_line]
      have ends : ∀ line ∈ [text ++ [newline]], line.getLast? = some newline := by
        intro line member
        rw [List.mem_singleton.mp member, List.getLast?_concat]
      exact Lined.append ends ih

namespace OutputBuffer

theorem split_text (plain : newline ∉ text) : text.splitOnP (· == newline) = [text] := by
  apply List.splitOnP_eq_singleton
  intro c member
  simpa using ne_of_mem_of_not_mem member plain

theorem split_line (plain : newline ∉ text) (more : Bytes) :
    (text ++ newline :: more).splitOnP (· == newline) = text :: more.splitOnP (· == newline) := by
  apply List.splitOnP_append_cons_of_forall_mem
  · intro c member
    simpa using ne_of_mem_of_not_mem member plain
  · rfl

/-- The turns of the loop from line `i` on. -/
theorem foldl_pushLine (bytes : Bytes) (b : OutputBuffer) (i last : Nat) (ends : Bool)
    (count : last + 1 = i + (bytes.splitOnP (· == newline)).length)
    (end_ : bytes ≠ [] → ends = (bytes.getLast? == some newline)) :
    ((bytes.splitOnP (· == newline)).zipIdx i).foldl (pushLine last ends) b =
      { lines := b.lines ++ cut bytes
        totalSize := b.totalSize + bytes.length
        lastLineIncomplete := b.lastLineIncomplete || unfinished bytes } := by
  induction bytes using lines_induction generalizing b i with
  | text text plain =>
      rw [split_text plain, List.length_singleton] at count
      obtain rfl : last = i := Nat.add_right_cancel count
      rw [split_text plain]
      cases text with
      | nil => simp [pushLine, cut, unfinished]
      | cons c rest =>
          have some_ := List.cons_ne_nil c rest
          have open_ : ends = false := by
            rw [end_ some_, beq_eq_false_iff_ne]
            exact fun here => plain (List.mem_of_getLast? here)
          rw [cut_text plain some_, unfinished_text plain some_]
          simp [pushLine, open_]
  | line text more plain ih =>
      have some_ : 0 < (more.splitOnP (· == newline)).length :=
        List.length_pos_of_ne_nil (List.splitOnP_ne_nil _ more)
      rw [split_line plain, List.length_cons] at count
      rw [split_line plain, List.zipIdx_cons, List.foldl_cons, cut_line plain, unfinished_line]
      have inside : i < last := by omega
      have turn : pushLine last ends b (text, i) =
          { b with
            lines := b.lines ++ [text ++ [newline]]
            totalSize := b.totalSize + (text.length + 1) } := by
        have notLast : i ≠ last := Nat.ne_of_lt inside
        simp [pushLine, inside, notLast]
      have later : more ≠ [] → ends = (more.getLast? == some newline) := by
        intro nonempty
        rw [end_ (by simp)]
        cases more with
        | nil => exact absurd rfl nonempty
        | cons c more => simp [List.getLast?_append, List.getLast?_cons_cons]
      rw [turn, ih _ _ (by omega) later]
      simp [Nat.add_assoc, Nat.add_comm 1]

theorem pushLines_eq (b : OutputBuffer) (bytes : Bytes) :
    b.pushLines bytes =
      { lines := b.lines ++ cut bytes
        totalSize := b.totalSize + bytes.length
        lastLineIncomplete := b.lastLineIncomplete || unfinished bytes } := by
  have some_ : 0 < (bytes.splitOnP (· == newline)).length :=
    List.length_pos_of_ne_nil (List.splitOnP_ne_nil _ bytes)
  exact foldl_pushLine bytes b 0 _ _ (by omega) fun _ => rfl

/-- What `append` does before the loop that trims the buffer. -/
inductive Fills (b : OutputBuffer) : Bytes → OutputBuffer × Bool → Prop where
  | nothing : Fills b [] (b, false)
  /-- The last chunk goes on. -/
  | continues {front : List Bytes} {line data : Bytes} : b.lastLineIncomplete = true →
      b.lines = front ++ [line] → data ≠ [] → newline ∉ data →
      Fills b data (⟨front ++ [line ++ data], b.totalSize + data.length, true⟩, false)
  /-- The last chunk comes to its end, whose length is not counted. -/
  | completes {front : List Bytes} {line text rest : Bytes} : b.lastLineIncomplete = true →
      b.lines = front ++ [line] → newline ∉ text →
      Fills b (text ++ newline :: rest)
        (⟨front ++ [line ++ (text ++ [newline])] ++ cut rest, b.totalSize + rest.length,
          unfinished rest⟩, true)
  | starts {data : Bytes} : b.lastLineIncomplete = false ∨ b.lines = [] → data ≠ [] →
      Fills b data
        (⟨b.lines ++ cut data, b.totalSize + data.length, b.lastLineIncomplete || unfinished data⟩,
          true)

theorem fills_filled (b : OutputBuffer) (data : Bytes) : Fills b data (b.filled data) := by
  by_cases nothing : data = []
  · subst nothing
    exact .nothing
  rw [filled, if_neg nothing]
  cases incomplete : b.lastLineIncomplete with
  | false =>
      simp only [pushLines_eq, incomplete]
      have start := Fills.starts (b := b) (.inl incomplete) nothing
      rwa [incomplete] at start
  | true =>
      rcases List.eq_nil_or_concat' b.lines with none_ | ⟨front, line, lines⟩
      · have start := Fills.starts (b := b) (.inr none_) nothing
        simp only [none_, List.getLast?_nil, pushLines_eq, incomplete]
        rwa [none_, incomplete] at start
      · simp only [lines, List.getLast?_concat, List.dropLast_concat]
        by_cases member : newline ∈ data
        · obtain ⟨text, rest, rfl, plain⟩ := List.eq_append_cons_of_mem member
          have position : (text ++ newline :: rest).findIdx? (· == newline) = some text.length := by
            rw [List.findIdx?_append, List.findIdx?_eq_none_iff.mpr]
            · simp [List.findIdx?_cons]
            · intro c here
              simpa using ne_of_mem_of_not_mem here plain
          have before : (text ++ newline :: rest).take (text.length + 1) = text ++ [newline] := by
            rw [List.take_length_add_append]
            rfl
          have after : (text ++ newline :: rest).drop (text.length + 1) = rest := by
            rw [List.drop_length_add_append]
            rfl
          simp only [position, before, after, pushLines_eq, Bool.false_or]
          exact .completes incomplete lines plain
        · have position : data.findIdx? (· == newline) = none := by
            rw [List.findIdx?_eq_none_iff]
            intro c here
            simpa using ne_of_mem_of_not_mem here member
          simp only [position]
          exact .continues incomplete lines nothing member

end OutputBuffer

end RemoteControl.Terminal
