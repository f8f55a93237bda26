import Mathlib.Algebra.Ring.Int.Defs
import Mathlib.Algebra.Ring.Nat
import Mathlib.Data.List.Basic

/-! # The output buffer of a terminal

`OutputBuffer` of `terminal_service.rs`: the last lines a terminal has put out, from which
a client that comes back gets its history.

`append` keeps `total_size` itself. Where new data completes a line it does not count what
it adds to that line, so `total_size` can be less than what the lines hold, and the loop
that trims the buffer can take more off than there is. The subtraction wraps around then,
and the loop pops every line and never ends: `append` has no result. (With overflow checks
it panics.)
-/

namespace RemoteControl.Terminal

abbrev Bytes := List UInt8

/-- `MAX_OUTPUT_BUFFER_SIZE` -/
def maxOutputBufferSize : Nat := 1024 * 1024

/-- `MAX_BUFFER_LINES` -/
def maxBufferLines : Nat := 10000

/-- `b'\n'` -/
def newline : UInt8 := 10

/-- `-=` on a `usize`, which wraps around. -/
def wrappingSub (a b : Nat) : Nat := if b ≤ a then a - b else 2 ^ 64 - (b - a)

structure OutputBuffer where
  lines : List Bytes := []
  totalSize : Nat := 0
  lastLineIncomplete : Bool := false
  deriving DecidableEq

namespace OutputBuffer

/-- The loop that trims the buffer: the lines and the total size it leaves. Once the lines
    are used up and the total is still too large, it goes round for ever. -/
def trim : Nat → List Bytes → Option (Nat × List Bytes)
  | total, lines =>
      if maxOutputBufferSize < total ∨ maxBufferLines < lines.length then
        match lines with
        | [] => none
        | removed :: rest => trim (wrappingSub total removed.length) rest
      else some (total, lines)

/-- While there is too much, there is a line, and no line is longer than the total. -/
def covered : Nat → List Bytes → Bool
  | total, lines =>
      if maxOutputBufferSize < total ∨ maxBufferLines < lines.length then
        match lines with
        | [] => false
        | removed :: rest => decide (removed.length ≤ total) && covered (total - removed.length) rest
      else true

variable {b : OutputBuffer} {total : Nat} {lines : List Bytes}

/-- A total that has wrapped around uses up all the lines. -/
theorem trim_of_large (large : maxOutputBufferSize + lines.flatten.length < total) :
    trim total lines = none := by
  induction lines generalizing total with
  | nil =>
      have full : maxOutputBufferSize < total := by simpa using large
      simp [trim, full]
  | cons removed rest ih =>
      simp only [List.flatten_cons, List.length_append] at large
      have full : maxOutputBufferSize < total := by omega
      have le : removed.length ≤ total := by omega
      simp only [trim, full, true_or, if_true, wrappingSub, if_pos le]
      apply ih
      omega

theorem trim_of_covered (fine : covered total lines = true) : (trim total lines).isSome = true := by
  induction lines generalizing total with
  | nil =>
      by_cases full : maxOutputBufferSize < total <;> simp_all [trim, covered]
  | cons removed rest ih =>
      by_cases full : maxOutputBufferSize < total ∨ maxBufferLines < (removed :: rest).length
      · simp only [covered, if_pos full, Bool.and_eq_true, decide_eq_true_eq] at fine
        simp only [trim, if_pos full, wrappingSub, if_pos fine.1]
        exact ih fine.2
      · simp only [trim, if_neg full, Option.isSome_some]

/-- The loop ends exactly when no pop takes off more than the total. -/
theorem trim_isSome_iff (fits : lines.flatten.length < 2 ^ 63) :
    (trim total lines).isSome = true ↔ covered total lines = true := by
  refine ⟨fun ends => ?_, trim_of_covered⟩
  induction lines generalizing total with
  | nil => by_cases full : maxOutputBufferSize < total <;> simp_all [trim, covered]
  | cons removed rest ih =>
      simp only [List.flatten_cons, List.length_append] at fits
      by_cases full : maxOutputBufferSize < total ∨ maxBufferLines < (removed :: rest).length
      · simp only [trim, if_pos full, wrappingSub] at ends
        by_cases le : removed.length ≤ total
        · rw [if_pos le] at ends
          simp [covered, le, ih (by omega) ends]
        · have wrapped :
              maxOutputBufferSize + rest.flatten.length < 2 ^ 64 - (removed.length - total) := by
            unfold maxOutputBufferSize
            omega
          rw [if_neg le, trim_of_large wrapped] at ends
          cases ends
      · simp only [covered, if_neg full]

/-- One turn of the loop over the lines of the data, `last` of which is the last. -/
def pushLine (last : Nat) (endsWithNewline : Bool) (b : OutputBuffer) : Bytes × Nat → OutputBuffer
  | (line, i) =>
      let incomplete := b.lastLineIncomplete || decide (i = last ∧ endsWithNewline = false ∧ line ≠ [])
      if line ≠ [] ∨ i < last then
        let lineData := if i < last ∨ endsWithNewline then line ++ [newline] else line
        { lines := b.lines ++ [lineData]
          totalSize := b.totalSize + lineData.length
          lastLineIncomplete := incomplete }
      else { b with lastLineIncomplete := incomplete }

def pushLines (b : OutputBuffer) (remaining : Bytes) : OutputBuffer :=
  let endsWithNewline := remaining.getLast? == some newline
  let lines := remaining.splitOnP (· == newline)
  lines.zipIdx.foldl (pushLine (lines.length - 1) endsWithNewline) b

/-- The lines are in place, what is too much goes. -/
def trimmed (b : OutputBuffer) : Option OutputBuffer :=
  (trim b.totalSize b.lines).map fun (total, lines) => { b with totalSize := total, lines := lines }

/-- What `append` does before the loop that trims the buffer, and whether it comes to it. What
    is added to a line that the data completes is not counted. -/
def filled (b : OutputBuffer) (data : Bytes) : OutputBuffer × Bool :=
  if data = [] then (b, false)
  else
    match b.lastLineIncomplete, b.lines.getLast? with
    | true, some line =>
        match data.findIdx? (· == newline) with
        | some pos =>
            let completed := { b with
              lines := b.lines.dropLast ++ [line ++ data.take (pos + 1)]
              lastLineIncomplete := false }
            (completed.pushLines (data.drop (pos + 1)), true)
        | none =>
            ({ b with
              lines := b.lines.dropLast ++ [line ++ data]
              totalSize := b.totalSize + data.length }, false)
    | _, _ => (b.pushLines data, true)

def append (b : OutputBuffer) (data : Bytes) : Option OutputBuffer :=
  let (filled, trims) := b.filled data
  if trims then filled.trimmed else some filled

/-- The buffer can take the data: trimming it ends. -/
def accepts (b : OutputBuffer) (data : Bytes) : Bool :=
  let (filled, trims) := b.filled data
  !trims || covered filled.totalSize filled.lines

theorem append_of_accepts {data : Bytes} (accepts : b.accepts data = true) :
    ∃ b', b.append data = some b' := by
  unfold append
  unfold OutputBuffer.accepts at accepts
  cases trims : (b.filled data).2 with
  | false => simp [trims]
  | true =>
      simp only [trims, Bool.not_true, Bool.false_or] at accepts
      simpa [trims, trimmed] using Option.isSome_iff_exists.mp (trim_of_covered accepts)

def acceptsAll : OutputBuffer → List Bytes → Bool
  | _, [] => true
  | b, data :: rest =>
      b.accepts data &&
        match b.append data with
        | some b => acceptsAll b rest
        | none => false

theorem appends_of_acceptsAll {received : List Bytes} (accepts : b.acceptsAll received = true) :
    ∃ b', received.foldlM append b = some b' := by
  induction received generalizing b with
  | nil => exact ⟨b, rfl⟩
  | cons data rest ih =>
      simp only [acceptsAll, Bool.and_eq_true] at accepts
      obtain ⟨next, appended⟩ := append_of_accepts accepts.1
      simp only [appended] at accepts
      simpa [appended] using ih accepts.2

/-- `while skipped < 3 && offset < line.len() && (line[offset] & 0b1100_0000) == 0b1000_0000`,
    from `line[offset..]` on. -/
def skipContinuation : Nat → Bytes → Bytes
  | skipped + 1, c :: rest =>
      if c &&& 0b11000000 = 0b10000000 then skipContinuation skipped rest else c :: rest
  | _, line => line

/-- The chunks that `get_recent` collects from the lines, the newest first. -/
def recentChunks (maxBytes : Nat) : Nat → List Bytes → List Bytes
  | _, [] => []
  | size, line :: older =>
      if maxBytes < size + line.length then
        if size = 0 ∧ maxBytes < line.length then
          let tail := skipContinuation 3 (line.drop (line.length - maxBytes))
          if tail ≠ [] then [tail] else []
        else []
      else line :: recentChunks maxBytes (size + line.length) older

def getRecent (b : OutputBuffer) (maxBytes : Nat) : Bytes :=
  if maxBytes = 0 then [] else (recentChunks maxBytes 0 b.lines.reverse).reverse.flatten

/-! ## Lines that are not counted -/

theorem trimmed_of_small (size : b.totalSize ≤ maxOutputBufferSize)
    (count : b.lines.length ≤ maxBufferLines) : b.trimmed = some b := by
  have fine : ¬ (maxOutputBufferSize < b.totalSize ∨ maxBufferLines < b.lines.length) := by omega
  unfold trimmed trim
  rw [if_neg fine]
  rfl

/-- Text without a newline starts a line. -/
theorem append_text {text : Bytes} (complete : b.lastLineIncomplete = false) (some_ : text ≠ [])
    (noNewline : newline ∉ text) :
    b.append text = trimmed
      { lines := b.lines ++ [text], totalSize := b.totalSize + text.length,
        lastLineIncomplete := true } := by
  have alone : text.splitOnP (· == newline) = [text] := by
    apply List.splitOnP_eq_singleton
    intro c member
    simpa using ne_of_mem_of_not_mem member noNewline
  have open_end : (text.getLast? == some newline) = false := by
    simp only [beq_eq_false_iff_ne, ne_eq]
    intro last
    exact noNewline (List.mem_of_getLast? last)
  simp [append, filled, some_, complete, pushLines, alone, open_end, pushLine]

/-- Text up to a newline completes a line, and its length is not counted. -/
theorem append_rest {front : List Bytes} {line text : Bytes}
    (incomplete : b.lastLineIncomplete = true) (lines : b.lines = front ++ [line])
    (noNewline : newline ∉ text) :
    b.append (text ++ [newline]) = trimmed
      { lines := front ++ [line ++ (text ++ [newline])]
        totalSize := b.totalSize
        lastLineIncomplete := false } := by
  have position : (text ++ [newline]).findIdx? (· == newline) = some text.length := by
    rw [List.findIdx?_append, List.findIdx?_eq_none_iff.mpr]
    · simp
    · intro c member
      simpa using ne_of_mem_of_not_mem member noNewline
  have whole : (text ++ [newline]).take (text.length + 1) = text ++ [newline] :=
    List.take_of_length_le (by simp)
  simp [append, filled, incomplete, lines, position, whole, pushLines, List.splitOnP_nil, pushLine]

/-- Newlines alone are lines of their own. -/
theorem pushLines_newlines (b : OutputBuffer) (n : Nat) :
    b.pushLines (List.replicate (n + 1) newline) =
      { b with
        lines := b.lines ++ List.replicate (n + 1) [newline]
        totalSize := b.totalSize + (n + 1) } := by
  have pieces (k : Nat) :
      (List.replicate k newline).splitOnP (· == newline) = List.replicate (k + 1) [] := by
    induction k with
    | zero => rfl
    | succ k ih =>
        rw [List.replicate_succ, List.splitOnP_cons_eq_if_modifyHead, ih]
        simp [List.replicate_succ]
  have pushes (k : Nat) (b : OutputBuffer) (i : Nat) (left : i + k = n + 1) :
      ((List.replicate (k + 1) ([] : Bytes)).zipIdx i).foldl (pushLine (n + 1) true) b =
        { b with
          lines := b.lines ++ List.replicate k [newline]
          totalSize := b.totalSize + k } := by
    induction k generalizing b i with
    | zero => simp [pushLine, show ¬ i < n + 1 by omega]
    | succ k ih =>
        rw [List.replicate_succ, List.zipIdx_cons, List.foldl_cons, ih _ _ (by omega)]
        simp [pushLine, show i < n + 1 by omega, List.replicate_succ, Nat.add_comm 1 k, Nat.add_assoc]
  have ends : ((List.replicate (n + 1) newline).getLast? == some newline) = true := by
    simp [List.getLast?_replicate]
  unfold pushLines
  simp only [ends, pieces, List.length_replicate, Nat.add_sub_cancel]
  exact pushes (n + 1) b 0 (Nat.zero_add _)

theorem append_newlines (complete : b.lastLineIncomplete = false) (n : Nat) :
    b.append (List.replicate (n + 1) newline) = trimmed
      { lines := b.lines ++ List.replicate (n + 1) [newline]
        totalSize := b.totalSize + (n + 1)
        lastLineIncomplete := false } := by
  have some_ : List.replicate (n + 1) newline ≠ [] := by simp
  simp [append, filled, some_, complete, pushLines_newlines]

/-- A line that came in two parts. -/
def longLine : Bytes := 97 :: (List.replicate 4095 120 ++ [newline])

/-- Three long lines, each of which comes in two parts, and many empty ones. -/
def undercounted : List Bytes :=
  [[97], List.replicate 4095 120 ++ [newline], [97], List.replicate 4095 120 ++ [newline], [97],
    List.replicate 4095 120 ++ [newline], List.replicate 4096 newline, List.replicate 4096 newline,
    List.replicate 1808 newline]

theorem append_longLine (lines : List Bytes) (total : Nat) (size : total < maxOutputBufferSize)
    (count : lines.length < maxBufferLines) :
    (append ⟨lines, total, false⟩ [97]).bind (·.append (List.replicate 4095 120 ++ [newline])) =
      some ⟨lines ++ [longLine], total + 1, false⟩ := by
  have plain : newline ∉ List.replicate 4095 (120 : UInt8) := by
    intro member
    have same := List.eq_of_mem_replicate member
    exact absurd same (by decide)
  have starts : append ⟨lines, total, false⟩ [97] = some ⟨lines ++ [[97]], total + 1, true⟩ := by
    rw [append_text rfl (by decide) (by decide)]
    apply trimmed_of_small (Nat.succ_le_of_lt size)
    rw [List.length_append]
    exact Nat.succ_le_of_lt count
  rw [starts, Option.bind_some, append_rest rfl rfl plain]
  apply trimmed_of_small (Nat.succ_le_of_lt size)
  rw [List.length_append]
  exact Nat.succ_le_of_lt count

/-- With 10000 more lines the third long line is longer than the total. -/
theorem trim_longLines (count : lines.length = 10000) (size : lines.flatten.length ≤ 10000) :
    trim 10003 (longLine :: longLine :: longLine :: lines) = none := by
  have long : longLine.length = 4097 := by
    simp only [longLine, List.length_cons, List.length_append, List.length_replicate, List.length_nil]
  have wrapped : trim (2 ^ 64 - (4097 - 1809)) lines = none := by
    apply trim_of_large
    unfold maxOutputBufferSize
    omega
  simpa [trim, count, maxBufferLines, wrappingSub, long] using wrapped

theorem append_emptyLines (lines : List Bytes) (total n : Nat)
    (size : total + (n + 1) ≤ maxOutputBufferSize)
    (count : lines.length + (n + 1) ≤ maxBufferLines) :
    append ⟨lines, total, false⟩ (List.replicate (n + 1) newline) =
      some ⟨lines ++ List.replicate (n + 1) [newline], total + (n + 1), false⟩ := by
  rw [append_newlines rfl]
  apply trimmed_of_small size
  rwa [List.length_append, List.length_replicate]

/-- A terminal can put this out, and the buffer does not take it. -/
theorem undercounted_overflows : undercounted.foldlM append ({} : OutputBuffer) = none := by
  have first := append_longLine [] 0 (by decide) (by decide)
  have second := append_longLine [longLine] 1 (by decide) (by decide)
  have third := append_longLine [longLine, longLine] 2 (by decide) (by decide)
  have fourth := append_emptyLines [longLine, longLine, longLine] 3 4095 (by decide) (by decide)
  have fifth :=
    append_emptyLines ([longLine, longLine, longLine] ++ List.replicate 4096 [newline]) 4099 4095
    (by decide) (by rw [List.length_append, List.length_replicate]; decide)
  have lines (n : Nat) : (List.replicate n [newline]).flatten.length = n := by
    simp
  have last : append ⟨[longLine, longLine, longLine] ++ List.replicate 4096 [newline] ++
      List.replicate 4096 [newline], 8195, false⟩ (List.replicate 1808 newline) = none := by
    rw [append_newlines rfl, trimmed, List.append_assoc, List.append_assoc]
    have stuck : trim 10003 (longLine :: longLine :: longLine :: (List.replicate 4096 [newline] ++
        (List.replicate 4096 [newline] ++ List.replicate 1808 [newline]))) = none :=
      trim_longLines (by simp only [List.length_append, List.length_replicate])
        (by simp only [List.flatten_append, List.length_append, lines]; decide)
    exact congrArg (Option.map _) stuck
  obtain ⟨_, letter1, line1⟩ := Option.bind_eq_some_iff.mp first
  obtain ⟨_, letter2, line2⟩ := Option.bind_eq_some_iff.mp second
  obtain ⟨_, letter3, line3⟩ := Option.bind_eq_some_iff.mp third
  simp only [undercounted, List.foldlM_cons, Option.bind_eq_bind]
  rw [letter1, Option.bind_some, line1, Option.bind_some, List.nil_append, letter2,
    Option.bind_some, line2, Option.bind_some, List.singleton_append, letter3, Option.bind_some,
    line3, Option.bind_some]
  simp only [List.cons_append, List.nil_append] at fourth fifth last ⊢
  rw [fourth, Option.bind_some, fifth, Option.bind_some, last]
  rfl

end OutputBuffer

end RemoteControl.Terminal
