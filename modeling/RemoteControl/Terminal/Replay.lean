import RemoteControl.Terminal.Appending
import RemoteControl.Utf8

/-! # What a client gets of the history

The chunks of the buffer are a suffix of all that was appended, cut after newlines, and
`get_recent` takes whole chunks from the end of it, or the end of the last chunk where that is
too long. So a client that comes back sees what was put out last, in order and without
gaps, and no character is cut apart.

All of this holds at any turn of the loop that trims the buffer, also of a loop that never
ends.
-/

namespace RemoteControl.Terminal.OutputBuffer

open Utf8 (Valid)

/-- One turn of the loop that trims the buffer. -/
def turn (b : OutputBuffer) : OutputBuffer :=
  if maxOutputBufferSize < b.totalSize ∨ maxBufferLines < b.lines.length then
    match b.lines with
    | [] => b
    | removed :: rest => { b with lines := rest, totalSize := wrappingSub b.totalSize removed.length }
  else b

def turns : Nat → OutputBuffer → OutputBuffer
  | 0, b => b
  | n + 1, b => turns n b.turn

variable {all : Bytes} {b : OutputBuffer} {b' : OutputBuffer}

/-- A loop that ends does so after some turns. -/
theorem turns_of_trimmed (trims : b.trimmed = some b') : ∃ n, turns n b = b' := by
  obtain ⟨lines, total, incomplete⟩ := b
  simp only [trimmed, Option.map_eq_some_iff] at trims
  obtain ⟨⟨left, kept⟩, trims, rfl⟩ := trims
  induction lines generalizing total with
  | nil =>
      by_cases full : maxOutputBufferSize < total ∨ maxBufferLines < ([] : List Bytes).length
      · rw [trim, if_pos full] at trims
        cases trims
      · rw [trim, if_neg full] at trims
        cases trims
        exact ⟨0, rfl⟩
  | cons removed rest ih =>
      by_cases full : maxOutputBufferSize < total ∨ maxBufferLines < (removed :: rest).length
      · rw [trim, if_pos full] at trims
        obtain ⟨n, later⟩ := ih _ trims
        refine ⟨n + 1, ?_⟩
        rw [turns, turn, if_pos full]
        exact later
      · rw [trim, if_neg full] at trims
        cases trims
        exact ⟨0, rfl⟩

/-- The chunks are lines from the end of what was appended. -/
structure Recent (all : Bytes) (b : OutputBuffer) : Prop where
  kept : b.lines.flatten <:+ all
  lined : Lined (!b.lastLineIncomplete) b.lines

theorem recent_new : Recent [] {} := ⟨List.nil_suffix, nofun, fun _ => nofun⟩

section

variable (recent : Recent all b)

include recent

theorem Recent.turn : Recent all b.turn := by
  unfold OutputBuffer.turn
  split_ifs
  · cases lines : b.lines with
    | nil => exact recent
    | cons removed rest =>
        obtain ⟨kept, inner, last⟩ := recent
        rw [lines] at kept inner last
        refine ⟨?_, ?_, ?_⟩
        · rw [List.flatten_cons] at kept
          exact (List.suffix_append _ _).trans kept
        · intro line member
          cases rest with
          | nil => cases member
          | cons next rest => exact inner line (List.mem_cons_of_mem removed member)
        · intro closed line member
          cases rest with
          | nil => cases member
          | cons next rest => exact last closed line (by rwa [List.getLast?_cons_cons])
  · exact recent

theorem Recent.turns (n : Nat) : Recent all (turns n b) := by
  induction n generalizing b with
  | zero => exact recent
  | succ n ih => exact ih recent.turn

/-- The data are added at the end, and cut after newlines. -/
theorem Recent.filled (data : Bytes) :
    Recent (all ++ data) (b.filled data).1 := by
  obtain ⟨⟨before, rfl⟩, lined⟩ := recent
  have fills := fills_filled b data
  generalize b.filled data = result at fills
  cases fills with
  | nothing =>
      rw [List.append_nil]
      exact ⟨List.suffix_append _ _, lined⟩
  | @continues front line _ incomplete lines nonempty plain =>
      rw [incomplete, lines] at lined
      refine ⟨⟨before, by simp [lines]⟩, ?_, nofun⟩
      intro other member
      rw [List.dropLast_concat] at member
      exact lined.inner other (by rwa [List.dropLast_concat])
  | @completes front line text rest incomplete lines plain =>
      rw [incomplete, lines] at lined
      refine ⟨⟨before, by simp [lines, flatten_cut]⟩, Lined.append ?_ (lined_cut rest)⟩
      intro other member
      rcases List.mem_append.mp member with early | here
      · exact lined.inner other (by rwa [List.dropLast_concat])
      · rw [List.mem_singleton.mp here, ← List.append_assoc, List.getLast?_concat]
  | starts fresh nonempty =>
      refine ⟨⟨before, by simp [flatten_cut]⟩, ?_⟩
      have cuts := lined_cut data
      rcases fresh with complete | none_
      · rw [complete] at lined ⊢
        exact Lined.append lined.all cuts
      · rw [none_]
        refine ⟨cuts.inner, fun closed => cuts.last ?_⟩
        dsimp only at closed
        rw [Bool.not_or, Bool.and_eq_true] at closed
        exact closed.2

theorem Recent.append {data : Bytes} (appended : b.append data = some b') :
    Recent (all ++ data) b' := by
  have later := recent.filled data
  unfold OutputBuffer.append at appended
  cases trims : (b.filled data).2 with
  | false =>
      simp only [trims, Bool.false_eq_true, if_false, Option.some.injEq] at appended
      exact appended ▸ later
  | true =>
      simp only [trims, if_true] at appended
      obtain ⟨n, rfl⟩ := turns_of_trimmed appended
      exact later.turns n

theorem Recent.appends {received : List Bytes}
    (appended : received.foldlM OutputBuffer.append b = some b') :
    Recent (all ++ received.flatten) b' := by
  induction received generalizing all b with
  | nil =>
      cases appended
      rwa [List.flatten_nil, List.append_nil]
  | cons data rest ih =>
      rw [List.foldlM_cons, Option.bind_eq_bind, Option.bind_eq_some_iff] at appended
      obtain ⟨next, first, later⟩ := appended
      rw [List.flatten_cons, ← List.append_assoc]
      exact ih (recent.append first) later

end

/-- The lines, the newest first, of which the first ones are taken: as many as fit, or the end
    of the first one that has something in it. -/
theorem recentChunks_cases (maxBytes size : Nat) (lines : List Bytes) (fits : size ≤ maxBytes) :
    ∃ newer older chunks, lines = newer ++ older ∧ size + newer.flatten.length ≤ maxBytes ∧
      recentChunks maxBytes size lines = newer ++ chunks ∧
      (chunks = [] ∧ (∀ line ∈ older.head?, maxBytes < size + newer.flatten.length + line.length) ∨
        size + newer.flatten.length = 0 ∧ ∃ line rest, older = line :: rest ∧ maxBytes < line.length ∧
          chunks.reverse.flatten = skipContinuation 3 (line.drop (line.length - maxBytes))) := by
  induction lines generalizing size with
  | nil => exact ⟨[], [], [], rfl, fits, rfl, .inl ⟨rfl, nofun⟩⟩
  | cons line older ih =>
      by_cases large : maxBytes < size + line.length
      · by_cases first : size = 0 ∧ maxBytes < line.length
        · refine ⟨[], line :: older, recentChunks maxBytes size (line :: older), rfl, fits, rfl,
            .inr ⟨first.1, line, older, rfl, first.2, ?_⟩⟩
          rw [recentChunks, if_pos large, if_pos first]
          by_cases some_ : skipContinuation 3 (line.drop (line.length - maxBytes)) ≠ []
          · simp [some_]
          · simp [not_not.mp some_]
        · refine ⟨[], line :: older, [], rfl, fits, ?_, .inl ⟨rfl, ?_⟩⟩
          · rw [recentChunks, if_pos large, if_neg first]
            rfl
          · rintro _ ⟨⟩
            exact large
      · obtain ⟨newer, rest, chunks, rfl, short, taken, what⟩ :=
          ih (size + line.length) (Nat.not_lt.mp large)
        refine ⟨line :: newer, rest, chunks, rfl, ?_, ?_, ?_⟩
        · rw [List.flatten_cons, List.length_append, ← Nat.add_assoc]
          exact short
        · rw [recentChunks, if_neg large, taken]
          rfl
        · rw [List.flatten_cons, List.length_append, ← Nat.add_assoc]
          exact what

theorem getRecent_cases {maxBytes : Nat} (some_ : maxBytes ≠ 0) :
    ∃ older newer, b.lines = older ++ newer ∧ newer.flatten.length ≤ maxBytes ∧
      (b.getRecent maxBytes = newer.flatten ∧
          (∀ line ∈ older.getLast?, maxBytes < newer.flatten.length + line.length) ∨
        newer.flatten = [] ∧ ∃ front line, older = front ++ [line] ∧ maxBytes < line.length ∧
          b.getRecent maxBytes = skipContinuation 3 (line.drop (line.length - maxBytes))) := by
  obtain ⟨newer, older, chunks, lines, short, taken, what⟩ :=
    recentChunks_cases maxBytes 0 b.lines.reverse (Nat.zero_le _)
  have length : newer.reverse.flatten.length = newer.flatten.length := by
    rw [List.length_flatten, List.length_flatten, List.map_reverse, List.sum_reverse]
  rw [Nat.zero_add] at short what
  refine ⟨older.reverse, newer.reverse, ?_, length ▸ short, ?_⟩
  · rw [← List.reverse_append, ← lines, List.reverse_reverse]
  · rw [getRecent, if_neg some_, taken, List.reverse_append, List.flatten_append, length]
    rcases what with ⟨rfl, next⟩ | ⟨zero, line, rest, rfl, long, tail⟩
    · exact .inl ⟨rfl, by rwa [List.getLast?_reverse]⟩
    · have nothing : newer.reverse.flatten = [] := List.eq_nil_of_length_eq_zero (length.trans zero)
      refine .inr ⟨nothing, rest.reverse, line, List.reverse_cons, long, ?_⟩
      rw [nothing, List.append_nil, tail]

theorem skipContinuation_suffix (n : Nat) (line : Bytes) : skipContinuation n line <:+ line := by
  induction line generalizing n with
  | nil =>
      cases n <;> exact List.suffix_rfl
  | cons c rest ih =>
      cases n with
      | zero => exact List.suffix_rfl
      | succ n =>
          rw [skipContinuation]
          split_ifs
          · exact (ih n).trans (List.suffix_cons c rest)
          · exact List.suffix_rfl

section Recent

variable {all : Bytes} {b : OutputBuffer} {maxBytes : Nat}

theorem getRecent_suffix (b : OutputBuffer) (maxBytes : Nat) :
    b.getRecent maxBytes <:+ b.lines.flatten := by
  by_cases some_ : maxBytes = 0
  · rw [getRecent, if_pos some_]
    exact List.nil_suffix
  · obtain ⟨older, newer, lines, -, whole | part⟩ := getRecent_cases (b := b) some_
    · rw [whole.1, lines, List.flatten_append]
      exact List.suffix_append _ _
    · obtain ⟨nothing, front, line, rfl, -, tail⟩ := part
      rw [tail, lines, List.flatten_append, nothing, List.append_nil, List.flatten_append,
        List.flatten_singleton]
      exact ((skipContinuation_suffix _ _).trans (List.drop_suffix _ _)).trans (List.suffix_append _ _)

theorem length_getRecent_le (b : OutputBuffer) (maxBytes : Nat) :
    (b.getRecent maxBytes).length ≤ maxBytes := by
  by_cases some_ : maxBytes = 0
  · rw [getRecent, if_pos some_]
    exact Nat.zero_le _
  · obtain ⟨older, newer, -, short, whole | part⟩ := getRecent_cases (b := b) some_
    · rw [whole.1]
      exact short
    · obtain ⟨-, front, line, -, long, tail⟩ := part
      have shorter := (skipContinuation_suffix 3 (line.drop (line.length - maxBytes))).length_le
      rw [List.length_drop] at shorter
      rw [tail]
      omega

/-- The newest chunks that fit are in it. -/
theorem newest_suffix_getRecent {newest : List Bytes} (newest_ : newest <:+ b.lines)
    (fits : newest.flatten.length ≤ maxBytes) : newest.flatten <:+ b.getRecent maxBytes := by
  by_cases some_ : maxBytes = 0
  · rw [some_] at fits
    rw [List.eq_nil_of_length_eq_zero (Nat.le_zero.mp fits)]
    exact List.nil_suffix
  obtain ⟨older, newer, lines, -, what⟩ := getRecent_cases (b := b) some_
  have inside : newer <:+ b.lines := by
    rw [lines]
    exact List.suffix_append _ _
  rcases List.suffix_or_suffix_of_suffix newest_ inside with ⟨more, rfl⟩ | ⟨more, rfl⟩
  · rcases what with whole | part
    · rw [whole.1, List.flatten_append]
      exact List.suffix_append _ _
    · have nothing := part.1
      rw [List.flatten_append, List.append_eq_nil_iff] at nothing
      rw [nothing.2]
      exact List.nil_suffix
  · rw [lines] at newest_
    have older_ : more <:+ older := List.suffix_append_self_iff.mp newest_
    rcases List.eq_nil_or_concat' more with rfl | ⟨front, line, rfl⟩
    · rcases what with whole | part
      · exact ⟨[], whole.1.symm⟩
      · rw [List.nil_append, part.1]
        exact List.nil_suffix
    · -- one chunk more is too much
      obtain ⟨before, rfl⟩ := older_
      simp only [List.flatten_append, List.flatten_singleton, List.length_append] at fits
      rcases what with ⟨-, next⟩ | ⟨-, front', line', same, long, -⟩
      · have large := next line (by rw [← List.append_assoc, List.getLast?_concat]; rfl)
        omega
      · rw [← List.append_assoc] at same
        have last : [line] = [line'] := List.append_inj_right' same rfl
        obtain rfl : line = line' := (List.cons.inj last).1
        omega

theorem continuation_iff (c : UInt8) : c &&& 0b11000000 = 0b10000000 ↔ Utf8.Continues c := by
  have bytes : ∀ n < 256, (UInt8.ofNat n &&& 0b11000000 = 0b10000000) ↔ 0x80 ≤ n ∧ n < 0xC0 := by
    decide +kernel
  have here := bytes c.toNat c.toNat_lt
  rwa [UInt8.ofNat_toNat] at here

/-- The rest of a character is skipped. -/
theorem skipContinuation_middle {n : Nat} {middle rest : Bytes} (short : middle.length ≤ n)
    (continues : ∀ c ∈ middle, Utf8.Continues c) (begins : ∀ c ∈ rest.head?, ¬ Utf8.Continues c) :
    skipContinuation n (middle ++ rest) = rest := by
  induction middle generalizing n with
  | nil =>
      cases n with
      | zero => rfl
      | succ n =>
          cases rest with
          | nil => rfl
          | cons c rest =>
              rw [List.nil_append, skipContinuation, if_neg]
              rw [continuation_iff]
              exact begins c rfl
  | cons c middle ih =>
      cases n with
      | zero => cases short
      | succ n =>
          rw [List.forall_mem_cons] at continues
          rw [List.cons_append, skipContinuation, if_pos ((continuation_iff c).mpr continues.1)]
          exact ih (Nat.le_of_succ_le_succ short) continues.2

theorem valid_nil : Valid [] := ⟨[], rfl⟩

/-- A cut between chunks is a cut between characters. -/
theorem Recent.valid_newer {older newer : List Bytes} (recent : Recent all b)
    (lines : b.lines = older ++ newer) (valid : Valid b.lines.flatten) : Valid newer.flatten := by
  rcases List.eq_nil_or_concat' older with rfl | ⟨front, line, rfl⟩
  · rwa [lines] at valid
  · cases newer with
    | nil => exact valid_nil
    | cons next newer =>
        have inner : line ∈ b.lines.dropLast := by
          rw [lines, List.append_assoc, List.dropLast_append_of_ne_nil (by simp)]
          exact List.mem_append_right _ (List.mem_cons_self ..)
        obtain ⟨text, rfl⟩ := List.getLast?_eq_some_iff.mp (recent.lined.inner line inner)
        have whole :
            b.lines.flatten = (front.flatten ++ text) ++ newline :: (next :: newer).flatten := by
          simp [lines]
        rw [whole] at valid
        exact Utf8.valid_of_ascii (by decide) valid

theorem Recent.valid_getRecent (recent : Recent all b) (valid : Valid b.lines.flatten)
    (maxBytes : Nat) :
    Valid (b.getRecent maxBytes) := by
  by_cases some_ : maxBytes = 0
  · rw [getRecent, if_pos some_]
    exact valid_nil
  · obtain ⟨older, newer, lines, -, whole | part⟩ := getRecent_cases (b := b) some_
    · rw [whole.1]
      exact recent.valid_newer lines valid
    · obtain ⟨nothing, front, line, rfl, -, tail⟩ := part
      rw [List.append_assoc] at lines
      have text := recent.valid_newer lines valid
      rw [List.singleton_append, List.flatten_cons, nothing, List.append_nil] at text
      obtain ⟨s, rfl⟩ := text
      obtain ⟨middle, t, behind, short, continues⟩ :=
        Utf8.drop_encode s ((Utf8.encode s).length - maxBytes)
      rw [tail, behind, skipContinuation_middle short continues (Utf8.encode_head t)]
      exact ⟨t, rfl⟩

end Recent

/-- The history that the buffer gives is what was put out last. -/
structure Faithful (all : Bytes) (b : OutputBuffer) : Prop where
  lines : b.lines.flatten <:+ all
  recent : ∀ maxBytes, b.getRecent maxBytes <:+ all
  short : ∀ maxBytes, (b.getRecent maxBytes).length ≤ maxBytes
  newest : ∀ maxBytes newest, newest <:+ b.lines → newest.flatten.length ≤ maxBytes →
    newest.flatten <:+ b.getRecent maxBytes
  text : Valid b.lines.flatten → ∀ maxBytes, Valid (b.getRecent maxBytes)

theorem Recent.faithful (recent : Recent all b) : Faithful all b where
  lines := recent.kept
  recent := fun maxBytes => (getRecent_suffix b maxBytes).trans recent.kept
  short := length_getRecent_le b
  newest := fun _ _ newest fits => newest_suffix_getRecent newest fits
  text := recent.valid_getRecent

/-- After any appends that have returned, and at any turn of the loop of the next one, also
    when that one never returns. -/
theorem replay_faithful (received : List Bytes) (b : OutputBuffer)
    (appended : received.foldlM append {} = some b) :
    Faithful received.flatten b ∧
      ∀ data n, Faithful (received.flatten ++ data) (turns n (b.filled data).1) := by
  have recent := recent_new.appends appended
  rw [List.nil_append] at recent
  exact ⟨recent.faithful, fun data n => ((recent.filled data).turns n).faithful⟩

/-- The last line has a character of three bytes, of which two bytes do not fit. -/
theorem replay_faithful_two :
    Faithful [97, newline, 226, 130, 172, 98] ⟨[[97, newline], [226, 130, 172, 98]], 6, true⟩ :=
  (replay_faithful [[97, newline, 226], [130, 172, 98]] _ (by decide)).1

end RemoteControl.Terminal.OutputBuffer
