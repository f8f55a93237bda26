import RemoteControl.Clipboard.FileList

/-! # Descriptors from a hostile peer

`FileDescription::parse_file_descriptors` once more, with everything that can go wrong in
it: a read past the end of the buffer and a number that does not fit its type. The bytes
are those of a peer and may be any.

The lengths are checked before, so that no read goes past the end. The time of a file is
multiplied by 100 without a check: a build with overflow checks panics where the product does
not fit, and one without them goes on with what is left of it.
-/

namespace RemoteControl.Clipboard

inductive Fault where
  | pastEnd
  | overflow
  deriving DecidableEq

/-- `get_u32_le` and the like -/
def getLeChecked (width : Nat) (bytes : Bytes) : Except Fault (Nat × Bytes) :=
  if bytes.length < width then .error .pastEnd else .ok (getLe width bytes)

/-- `Bytes::advance` -/
def advance (n : Nat) (bytes : Bytes) : Except Fault Bytes :=
  if bytes.length < n then .error .pastEnd else .ok (bytes.drop n)

/-- `&bytes[..n]` -/
def slice (n : Nat) (bytes : Bytes) : Except Fault Bytes :=
  if bytes.length < n then .error .pastEnd else .ok (bytes.take n)

section Parser

variable (checks : Bool)

/-- A number of 64 bits, in a build with or without overflow checks. -/
def u64 (n : Nat) : Except Fault Nat :=
  if n < 2 ^ 64 then .ok n else if checks then .error .overflow else .ok (n % 2 ^ 64)

/-- `((high as u64) << 32) + low as u64` -/
def fileSize (high low : Nat) : Except Fault Nat := u64 checks (high * 2 ^ 32 + low)

/-- Nanoseconds since 1970; as many as 64 bits hold are a `SystemTime`. -/
def lastModifiedChecked (flags lastWriteTime : Nat) : Except Fault Nat :=
  if flags &&& LocalFile.flagsFdLastWrite ≠ 0 ∧ LocalFile.ldapEpochDelta ≤ lastWriteTime then
    u64 checks ((lastWriteTime - LocalFile.ldapEpochDelta) * 100)
  else .ok 0

def parseFileDescriptorChecked (connId : Int32) (bytes : Bytes) :
    Except Fault (Except CliprdrError FileDescription × Bytes) := do
  let (flags, bytes) ← getLeChecked 4 bytes
  let bytes ← advance 32 bytes
  let (attributes, bytes) ← getLeChecked 4 bytes
  let bytes ← advance 12 bytes
  let (mode, bytes) ← getLeChecked 4 bytes
  let (lastWriteTime, bytes) ← getLeChecked 8 bytes
  let (fileSizeHigh, bytes) ← getLeChecked 4 bytes
  let (fileSizeLow, bytes) ← getLeChecked 4 bytes
  -- the name is read with another pointer
  let block := bytes
  let bytes ← advance 520 bytes
  let block ← slice 520 block
  match Utf16.decodeLe block with
  | none => return (.error .conversionFailure, bytes)
  | some text =>
      if flags &&& LocalFile.flagsFdAttributes = 0 then
        return (.error (.invalidRequest "file description must have valid attributes"), bytes)
      else
        let size ← fileSize checks fileSizeHigh fileSizeLow
        let lastModified ← lastModifiedChecked checks flags lastWriteTime
        return (.ok
          { connId := connId
            name := cleanName text
            kind := if attributes &&& 0x10 ≠ 0 then .directory else .file
            atime := lastModified
            lastModified := lastModified
            lastMetadataChanged := lastModified
            creationTime := lastModified
            size := size
            perm := permOf flags attributes (mode % 2 ^ 16) }, bytes)

def parseLoopChecked (connId : Int32) :
    Nat → Bytes → Except Fault (Except CliprdrError (List FileDescription))
  | 0, _ => .ok (.ok [])
  | count + 1, bytes => do
      match ← parseFileDescriptorChecked checks connId bytes with
      | (.error e, _) => return .error e
      | (.ok desc, bytes) =>
          match ← parseLoopChecked connId count bytes with
          | .error e => return .error e
          | .ok files => return .ok (desc :: files)

/-- `usize` has 64 bits. -/
def parseFileDescriptorsChecked (pdu : Bytes) (connId : Int32) :
    Except Fault (Except CliprdrError (List FileDescription)) := do
  if pdu.length < 4 then
    return .error (.invalidRequest "file descriptor request with infficient length")
  else
    let (count, data) ← getLeChecked 4 pdu
    if data.length = 0 ∧ count = 0 then return .ok []
    else
      let expected ← u64 checks (592 * count)
      if data.length ≠ expected then
        return .error (.invalidRequest "file descriptor request with invalid length")
      else parseLoopChecked checks connId count data

end Parser

/-- The number of `width` bytes that starts at `offset`. -/
def field (offset width : Nat) (descriptor : Bytes) : Nat :=
  ofLe ((descriptor.drop offset).take width)

/-- The descriptor passes the checks: its name is text and its attributes are valid. -/
def Accepted (descriptor : Bytes) : Prop :=
  (Utf16.decodeLe ((descriptor.drop 72).take 520)).isSome = true ∧
    field 0 4 descriptor &&& LocalFile.flagsFdAttributes ≠ 0

/-- The time of the descriptor is used, and its nanoseconds since 1970 are too many for 64
    bits: it lies after the year 2554. -/
def LateTime (descriptor : Bytes) : Prop :=
  field 0 4 descriptor &&& LocalFile.flagsFdLastWrite ≠ 0 ∧
    LocalFile.ldapEpochDelta ≤ field 56 8 descriptor ∧
    2 ^ 64 ≤ (field 56 8 descriptor - LocalFile.ldapEpochDelta) * 100

/-- The descriptor with the given index. -/
def descriptorAt (data : Bytes) (i : Nat) : Bytes := data.drop (592 * i)

/-- A descriptor that passes the checks has a late time, and so do all before it pass. -/
def LateTimeReached (count : Nat) (data : Bytes) : Prop :=
  ∃ i < count, (∀ j ≤ i, Accepted (descriptorAt data j)) ∧ LateTime (descriptorAt data i)

/-- The count field of a list. -/
def countField (pdu : Bytes) : Nat := field 0 4 pdu

/-- The list has the length its count field asks for, and a late time is reached in it. -/
def HasLateTime (pdu : Bytes) : Prop :=
  pdu.length = 4 + 592 * countField pdu ∧ LateTimeReached (countField pdu) (pdu.drop 4)

/-! ## One descriptor -/

section Descriptor

variable {checks : Bool} {connId : Int32} {bytes : Bytes} {n width : Nat} {offset : Nat}

theorem ok_bind {α β : Type} (a : α) (next : α → Except Fault β) :
    (Except.ok a >>= next) = next a := rfl

theorem getLe_drop (offset : Nat) :
    getLe width (bytes.drop offset) = (field offset width bytes, bytes.drop (offset + width)) := by
  rw [getLe, List.drop_drop]
  rfl

theorem getLe_start : getLe width bytes = (field 0 width bytes, bytes.drop width) := rfl

theorem getLeChecked_drop (enough : offset + width ≤ bytes.length) :
    getLeChecked width (bytes.drop offset) =
      .ok (field offset width bytes, bytes.drop (offset + width)) := by
  have here : ¬ (bytes.drop offset).length < width := by
    rw [List.length_drop]
    omega
  rw [getLeChecked, if_neg here, getLe_drop]

theorem getLeChecked_start (enough : width ≤ bytes.length) :
    getLeChecked width bytes = .ok (field 0 width bytes, bytes.drop width) :=
  if_neg (not_lt.mpr enough)

theorem advance_drop (enough : offset + n ≤ bytes.length) :
    advance n (bytes.drop offset) = .ok (bytes.drop (offset + n)) := by
  have here : ¬ (bytes.drop offset).length < n := by
    rw [List.length_drop]
    omega
  rw [advance, if_neg here, List.drop_drop]

theorem slice_drop (enough : offset + n ≤ bytes.length) :
    slice n (bytes.drop offset) = .ok ((bytes.drop offset).take n) := by
  have here : ¬ (bytes.drop offset).length < n := by
    rw [List.length_drop]
    omega
  rw [slice, if_neg here]

theorem field_lt (offset width : Nat) (bytes : Bytes) : field offset width bytes < 256 ^ width :=
  lt_of_lt_of_le (ofLe_lt _) (Nat.pow_le_pow_right (by omega) (List.length_take_le _ _))

theorem lastModifiedChecked_of_not_lateTime (early : checks = true → ¬ LateTime bytes) :
    lastModifiedChecked checks (field 0 4 bytes) (field 56 8 bytes) =
      .ok (lastModifiedOf (field 0 4 bytes) (field 56 8 bytes)) := by
  unfold lastModifiedChecked lastModifiedOf
  split_ifs with used
  · unfold u64
    split_ifs with small checked
    · rw [Nat.mod_eq_of_lt small]
    · exact absurd ⟨used.1, used.2, not_lt.mp small⟩ (early checked)
    · rfl
  · rfl

theorem lastModifiedChecked_of_lateTime (late : LateTime bytes) :
    lastModifiedChecked true (field 0 4 bytes) (field 56 8 bytes) = .error .overflow := by
  obtain ⟨used, since, large⟩ := late
  rw [lastModifiedChecked, if_pos ⟨used, since⟩, u64, if_neg (not_lt.mpr large), if_pos rfl]

theorem fileSize_fields :
    fileSize checks (field 64 4 bytes) (field 68 4 bytes) =
      .ok (field 64 4 bytes * 2 ^ 32 + field 68 4 bytes) := by
  have high := field_lt 64 4 bytes
  have low := field_lt 68 4 bytes
  rw [fileSize, u64, if_pos (by omega)]

theorem parseFileDescriptor_rest :
    (parseFileDescriptor connId bytes).2 = bytes.drop 592 := by
  unfold parseFileDescriptor
  simp only [getLe, List.drop_drop]
  split
  · rfl
  · split_ifs <;> rfl

/-- Whether a descriptor is read is seen in its name and attributes. -/
theorem parseFileDescriptor_accepted_iff :
    (∃ desc, (parseFileDescriptor connId bytes).1 = .ok desc) ↔ Accepted bytes := by
  unfold parseFileDescriptor Accepted
  rw [getLe_start]
  simp only [getLe_drop, List.drop_drop, Nat.reduceAdd]
  cases Utf16.decodeLe ((bytes.drop 72).take 520) with
  | none => simp
  | some text =>
      dsimp only
      split_ifs with invalid <;> simp [invalid]

/-- With enough bytes, nothing is read past them. -/
theorem parseFileDescriptorChecked_of_early (enough : 592 ≤ bytes.length)
    (early : checks = true → Accepted bytes → ¬ LateTime bytes) :
    parseFileDescriptorChecked checks connId bytes = .ok (parseFileDescriptor connId bytes) := by
  unfold parseFileDescriptorChecked parseFileDescriptor
  rw [getLe_start]
  simp (disch := omega) only [getLeChecked_start, getLeChecked_drop, advance_drop, slice_drop,
    ok_bind, getLe_drop, List.drop_drop, Nat.reduceAdd]
  unfold Accepted at early
  cases decoded : Utf16.decodeLe ((bytes.drop 72).take 520) with
  | none => rfl
  | some text =>
      dsimp only
      by_cases invalid : field 0 4 bytes &&& LocalFile.flagsFdAttributes = 0
      · rw [if_pos invalid, if_pos invalid]
        rfl
      · have early (checked : checks = true) : ¬ LateTime bytes :=
          early checked ⟨by rw [decoded]; rfl, invalid⟩
        rw [if_neg invalid, if_neg invalid, fileSize_fields, ok_bind,
          lastModifiedChecked_of_not_lateTime early, ok_bind]
        rfl

theorem parseFileDescriptorChecked_of_late (enough : 592 ≤ bytes.length)
    (accepted : Accepted bytes) (late : LateTime bytes) :
    parseFileDescriptorChecked true connId bytes = .error .overflow := by
  obtain ⟨named, valid⟩ := accepted
  obtain ⟨text, decoded⟩ := Option.isSome_iff_exists.mp named
  unfold parseFileDescriptorChecked
  simp (disch := omega) only [getLeChecked_start, getLeChecked_drop, advance_drop, slice_drop,
    ok_bind, Nat.reduceAdd, decoded, if_neg valid, fileSize_fields,
    lastModifiedChecked_of_lateTime late]
  rfl

end Descriptor

theorem descriptorAt_drop (data : Bytes) (i : Nat) :
    descriptorAt (data.drop 592) i = descriptorAt data (i + 1) := by
  rw [descriptorAt, descriptorAt, List.drop_drop, Nat.mul_succ, Nat.add_comm]

/-- A late time is reached in the first descriptor, or after it when it passes. -/
theorem lateTimeReached_succ_iff (count : Nat) (data : Bytes) :
    LateTimeReached (count + 1) data ↔
      Accepted data ∧ (LateTime data ∨ LateTimeReached count (data.drop 592)) := by
  unfold LateTimeReached
  simp only [descriptorAt_drop]
  constructor
  · rintro ⟨i, inside, accepted, late⟩
    refine ⟨accepted 0 (Nat.zero_le i), ?_⟩
    cases i with
    | zero => exact .inl late
    | succ i =>
        exact .inr ⟨i, by omega, fun j before => accepted (j + 1) (by omega), late⟩
  · rintro ⟨accepted, late | ⟨i, inside, later, late⟩⟩
    · refine ⟨0, by omega, ?_, late⟩
      intro j first
      obtain rfl : j = 0 := Nat.le_zero.mp first
      exact accepted
    · refine ⟨i + 1, by omega, ?_, late⟩
      intro j before
      cases j with
      | zero => exact accepted
      | succ j => exact later j (by omega)

section Loop

variable {checks : Bool} {connId : Int32} {count : Nat} {data : Bytes}

theorem parseLoopChecked_of_late (length : data.length = 592 * count)
    (late : LateTimeReached count data) :
    parseLoopChecked true connId count data = .error .overflow := by
  induction count generalizing data with
  | zero =>
      obtain ⟨i, inside, -⟩ := late
      omega
  | succ count ih =>
      obtain ⟨accepted, here | later⟩ := (lateTimeReached_succ_iff count data).mp late
      · rw [parseLoopChecked, parseFileDescriptorChecked_of_late (by omega) accepted here]
        rfl
      · by_cases here : LateTime data
        · rw [parseLoopChecked, parseFileDescriptorChecked_of_late (by omega) accepted here]
          rfl
        · obtain ⟨desc, parsed⟩ := (@parseFileDescriptor_accepted_iff connId data).mpr accepted
          have rest := @parseFileDescriptor_rest connId data
          have fails := ih (by rw [List.length_drop]; omega) later
          rw [parseLoopChecked, parseFileDescriptorChecked_of_early (by omega) fun _ _ => here, ok_bind]
          generalize parseFileDescriptor connId data = result at parsed rest
          obtain ⟨outcome, bytes⟩ := result
          cases parsed
          cases rest
          dsimp only
          rw [fails]
          rfl

theorem parseLoopChecked_of_early (length : data.length = 592 * count)
    (early : checks = true → ¬ LateTimeReached count data) :
    parseLoopChecked checks connId count data = .ok (parseLoop connId count data) := by
  induction count generalizing data with
  | zero => rfl
  | succ count ih =>
      rw [lateTimeReached_succ_iff] at early
      have here (checked : checks = true) : Accepted data → ¬ LateTime data := fun accepted late =>
        early checked ⟨accepted, .inl late⟩
      have rest := @parseFileDescriptor_rest connId data
      have accepted := @parseFileDescriptor_accepted_iff connId data
      rw [parseLoopChecked, parseFileDescriptorChecked_of_early (by omega) here, ok_bind, parseLoop]
      generalize parseFileDescriptor connId data = result at rest accepted
      obtain ⟨outcome, bytes⟩ := result
      cases rest
      cases outcome with
      | error e => rfl
      | ok desc =>
          have later := ih (by rw [List.length_drop]; omega) fun checked late =>
            early checked ⟨accepted.mp ⟨desc, rfl⟩, .inr late⟩
          dsimp only
          rw [later, ok_bind]
          cases parseLoop connId count (data.drop 592) with
          | error e => rfl
          | ok files => rfl

/-- As many entries as the count says. -/
theorem length_parseLoop {files : List FileDescription}
    (parsed : parseLoop connId count data = .ok files) : files.length = count := by
  induction count generalizing data files with
  | zero =>
      cases parsed
      rfl
  | succ count ih =>
      unfold parseLoop at parsed
      split at parsed
      · cases parsed
      · split at parsed
        · cases parsed
        · rename_i later
          cases parsed
          rw [List.length_cons, ih later]

end Loop

section List

variable {checks : Bool} {pdu : Bytes} {connId : Int32}

theorem length_parseFileDescriptors {files : List FileDescription}
    (parsed : parseFileDescriptors pdu connId = .ok files) : files.length = countField pdu := by
  unfold parseFileDescriptors at parsed
  rw [getLe_start] at parsed
  dsimp only at parsed
  by_cases short : pdu.length < 4
  · rw [if_pos short] at parsed
    cases parsed
  · rw [if_neg short] at parsed
    by_cases empty : (pdu.drop 4).length = 0 ∧ field 0 4 pdu = 0
    · rw [if_pos empty] at parsed
      cases parsed
      exact empty.2.symm
    · rw [if_neg empty] at parsed
      by_cases wrong : (pdu.drop 4).length ≠ 592 * field 0 4 pdu
      · rw [if_pos wrong] at parsed
        cases parsed
      · rw [if_neg wrong] at parsed
        exact length_parseLoop parsed

/-- A list that is long enough for a count, and not empty, comes to the length check and, if
    it passes, to the loop. -/
theorem parseFileDescriptorsChecked_of_count (counted : 4 ≤ pdu.length)
    (filled : ¬ ((pdu.drop 4).length = 0 ∧ countField pdu = 0)) :
    parseFileDescriptorsChecked checks pdu connId =
      if (pdu.drop 4).length ≠ 592 * countField pdu then
        .ok (.error (.invalidRequest "file descriptor request with invalid length"))
      else parseLoopChecked checks connId (countField pdu) (pdu.drop 4) := by
  have word := field_lt 0 4 pdu
  have expected : u64 checks (592 * field 0 4 pdu) = .ok (592 * field 0 4 pdu) := if_pos (by omega)
  unfold parseFileDescriptorsChecked
  rw [if_neg (not_lt.mpr counted), getLeChecked_start counted, ok_bind]
  dsimp only
  unfold countField at filled ⊢
  rw [if_neg filled, expected, ok_bind]
  rfl

theorem parseFileDescriptorsChecked_of_late (late : HasLateTime pdu) :
    parseFileDescriptorsChecked true pdu connId = .error .overflow := by
  obtain ⟨length, reached⟩ := late
  have data : (pdu.drop 4).length = 592 * countField pdu := by
    rw [List.length_drop]
    omega
  have filled : ¬ ((pdu.drop 4).length = 0 ∧ countField pdu = 0) := by
    obtain ⟨i, inside, -⟩ := reached
    omega
  rw [parseFileDescriptorsChecked_of_count (by omega) filled, if_neg (not_not.mpr data)]
  exact parseLoopChecked_of_late data reached

/-- Without the checks a late time is no fault. -/
theorem parseFileDescriptorsChecked_of_early (early : checks = true → ¬ HasLateTime pdu) :
    parseFileDescriptorsChecked checks pdu connId = .ok (parseFileDescriptors pdu connId) := by
  by_cases short : pdu.length < 4
  · rw [parseFileDescriptorsChecked, parseFileDescriptors, if_pos short, if_pos short]
    rfl
  · by_cases empty : (pdu.drop 4).length = 0 ∧ field 0 4 pdu = 0
    · rw [parseFileDescriptorsChecked, parseFileDescriptors, if_neg short, if_neg short,
        getLeChecked_start (not_lt.mp short), ok_bind, getLe_start]
      dsimp only
      rw [if_pos empty, if_pos empty]
      rfl
    · rw [parseFileDescriptorsChecked_of_count (not_lt.mp short) empty, parseFileDescriptors,
        if_neg short, getLe_start]
      have counted : field 0 4 pdu = countField pdu := rfl
      dsimp only
      rw [if_neg empty, counted]
      by_cases wrong : (pdu.drop 4).length ≠ 592 * countField pdu
      · rw [if_pos wrong, if_pos wrong]
      · have data : (pdu.drop 4).length = 592 * countField pdu := not_not.mp wrong
        have length : pdu.length = 4 + 592 * countField pdu := by
          rw [List.length_drop] at data
          omega
        rw [if_neg wrong, if_neg wrong]
        exact parseLoopChecked_of_early data fun checked reached => early checked ⟨length, reached⟩

end List

/-- The bytes of a peer are read without reading past them and without an overflow, and as
    many entries as the count says come of them if any do, exactly when no late time is
    reached in them. -/
theorem descriptors_read_safely_iff (pdu : Bytes) (connId : Int32) :
    (∃ outcome, parseFileDescriptorsChecked true pdu connId = .ok outcome ∧
        outcome = parseFileDescriptors pdu connId ∧
        ∀ files, outcome = .ok files → files.length = countField pdu) ↔
      ¬ HasLateTime pdu := by
  constructor
  · rintro ⟨outcome, read, -⟩ late
    cases read.symm.trans (parseFileDescriptorsChecked_of_late late)
  · intro early
    exact ⟨_, parseFileDescriptorsChecked_of_early fun _ => early, rfl, fun _ => length_parseFileDescriptors⟩

/-- Whatever the bytes, no build reads past them: one with the checks stops at a late time, and
one without them reads the whole list. -/
theorem never_pastEnd (checks : Bool) (pdu : Bytes) (connId : Int32) :
    parseFileDescriptorsChecked checks pdu connId ≠ .error .pastEnd := by
  intro past
  by_cases late : checks = true ∧ HasLateTime pdu
  · obtain ⟨rfl, late⟩ := late
    cases past.symm.trans (parseFileDescriptorsChecked_of_late late)
  · have early (checked : checks = true) : ¬ HasLateTime pdu := fun has => late ⟨checked, has⟩
    cases past.symm.trans (parseFileDescriptorsChecked_of_early early)

/-- A list of one file with no name, whose time is the last one there is. -/
def lastTimePdu : Bytes :=
  toLe 4 1 ++ (toLe 4 (LocalFile.flagsFdAttributes ||| LocalFile.flagsFdLastWrite) ++
    List.replicate 52 0 ++ toLe 8 (2 ^ 64 - 1) ++ List.replicate 528 0)

theorem last_time_overflows :
    parseFileDescriptorsChecked true lastTimePdu 0 = .error .overflow ∧
      ¬ ∃ outcome, parseFileDescriptorsChecked true lastTimePdu 0 = .ok outcome := by
  have overflows : parseFileDescriptorsChecked true lastTimePdu 0 = .error .overflow := by
    decide +kernel
  refine ⟨overflows, ?_⟩
  rintro ⟨outcome, read⟩
  cases overflows.symm.trans read

end RemoteControl.Clipboard
