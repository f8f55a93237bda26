import RemoteControl.Clipboard.FileContents

/-! # Reading files that change

`LocalFile::read_exact_at` on a file whose content changes from call to call. What the
reader has read ahead is given out as the file was then, which is what a buffer is for; all
else is as the file is now. Both come from the place that was asked for, unless an earlier
read of the same handle has failed: then the reader stands somewhere else than the cached
offset says.
-/

namespace RemoteControl.Clipboard

/-- The file at the time of a call, and whether its path can be opened then. -/
structure Moment where
  content : Bytes
  opens : Bool

/-- The disk at that time, as far as opening goes. -/
def Moment.disk (m : Moment) : Disk := fun _ =>
  some
    { metadata := { len := 0, kind := .file, mode := 0, modified := none, signed := by decide }
      content := if m.opens then some m.content else none
      long := fun _ _ => Nat.zero_le _ }

/-- `read_exact_at`: an open handle goes on reading its file, whatever its path leads to. -/
def LocalFile.readExactNow (m : Moment) (n offset : Nat) (f : LocalFile) :
    LocalFile × Except CliprdrError Bytes :=
  match f.loadHandle m.disk with
  | (f, .error err) => (f, .error err)
  | (f, .ok ()) =>
      match f.handle with
      | none => (f, .error (.fileError f.path.toStringLossy "file handle not found"))
      | some r => f.readHandleAt m.content n offset r

inductive FileCall where
  | loadHandle
  | readExactAt (n offset : Nat)
  deriving DecidableEq

/-- A file, what its content was when the reader last filled its buffer, and whether the
    last read of the handle has failed. -/
structure TrackedFile where
  file : LocalFile
  filled : Bytes
  lost : Bool

namespace TrackedFile

/-- The bytes that a read at `offset` finds in the buffer. -/
def ahead (offset : Nat) (s : TrackedFile) : Nat :=
  match s.file.handle with
  | some r => if offset = s.file.offset then r.buffer.length else 0
  | none => 0

/-- The read goes on where the last one of the handle has failed. -/
def TakesUpLost (offset : Nat) (s : TrackedFile) : Prop := s.lost = true ∧ offset = s.file.offset

def SeekFails (offset : Nat) (s : TrackedFile) : Prop := offset ≠ s.file.offset ∧ 2 ^ 63 ≤ offset

instance (offset : Nat) (s : TrackedFile) : Decidable (s.SeekFails offset) :=
  inferInstanceAs (Decidable (_ ∧ _))

def load (m : Moment) (s : TrackedFile) : TrackedFile × Except CliprdrError Unit :=
  let (file, loaded) := s.file.loadHandle m.disk
  let filled := if s.file.handle.isNone then m.content else s.filled
  (⟨file, filled, s.lost⟩, loaded)

/-- `read_exact_at` with a handle. A seek that fails leaves the reader as it is. -/
def readLoaded (m : Moment) (n offset : Nat) (r : BufReader) (s : TrackedFile) :
    TrackedFile × Except CliprdrError Bytes :=
  let (file, read) := s.file.readHandleAt m.content n offset r
  if s.SeekFails offset then (⟨file, s.filled, s.lost⟩, read)
  else
    let filled := if n ≤ s.ahead offset then s.filled else m.content
    let lost :=
      match read with
      | .ok _ => s.lost && decide (offset = s.file.offset) && file.handle.isSome
      | .error _ => true
    (⟨file, filled, lost⟩, read)

def read (m : Moment) (n offset : Nat) (s : TrackedFile) : TrackedFile × Except CliprdrError Bytes :=
  match s.load m with
  | (s, .error err) => (s, .error err)
  | (s, .ok ()) =>
      match s.file.handle with
      | none => (s, .error (.fileError s.file.path.toStringLossy "file handle not found"))
      | some r => s.readLoaded m n offset r

def step (s : TrackedFile) (e : Moment × FileCall) : TrackedFile :=
  match e.2 with
  | .loadHandle => (s.load e.1).1
  | .readExactAt n offset => (s.read e.1 n offset).1

/-- What was read ahead comes first, as the file was then, and the rest as it is now. -/
def mixed (m : Moment) (n offset : Nat) (s : TrackedFile) : Bytes :=
  let ahead := min n (s.ahead offset)
  (s.filled.drop offset).take ahead ++ (m.content.drop (offset + ahead)).take (n - ahead)

/-- A read that succeeds, and does not take up a lost handle, brings the bytes at its
    offset. -/
def Answers (s : TrackedFile) (e : Moment × FileCall) : Prop :=
  match e.2 with
  | .loadHandle => True
  | .readExactAt n offset =>
      ∀ data, (s.read e.1 n offset).2 = .ok data → ¬ s.TakesUpLost offset →
        data.length = n ∧ data = (s.load e.1).1.mixed e.1 n offset

/-- The reader stands where the file says, unless it is lost. -/
structure Placed (s : TrackedFile) : Prop where
  closed : s.file.handle = none → s.file.offset = 0 ∧ s.lost = false
  opened : ∀ r, s.file.handle = some r → s.lost = false → r.At s.filled s.file.offset

end TrackedFile

/-! ## Reading from a buffer -/

namespace BufReader

variable {past content : Bytes} {pos n : Nat} {r r' : BufReader} {data : Bytes}

theorem At.of_empty (at_ : At past pos r) (empty : r.buffer = []) : At content pos r := by
  have place := at_.place
  refine ⟨place, ?_⟩
  rw [empty]
  exact List.nil_prefix

/-- A reader that has something in its buffer does not look at the file. -/
theorem read_of_buffer (filled : r.buffer ≠ []) :
    r.read content n = (⟨r.pos, r.buffer.drop n⟩, r.buffer.take n) := by
  rw [BufReader.read, if_neg fun large => filled large.1, fillBuf, if_neg filled]

/-- What the buffer does not have is read after it. -/
theorem readLoop_of_buffer {turns : Nat} (filled : r.buffer ≠ [])
    (ok : r.readLoop content (turns + 1) (n + 1) = (r', .ok data)) :
    ∃ rest, data = r.buffer.take (n + 1) ++ rest ∧
      (⟨r.pos, r.buffer.drop (n + 1)⟩ : BufReader).readLoop content turns
        (n + 1 - (r.buffer.take (n + 1)).length) = (r', .ok rest) := by
  have read := @read_of_buffer content (n + 1) r filled
  cases chunk : r.buffer.take (n + 1) with
  | nil =>
      cases List.take_eq_nil_iff.mp chunk with
      | inl zero => cases zero
      | inr empty => exact absurd empty filled
  | cons b chunk' =>
      rw [chunk] at read
      have length : n + 1 - (b :: chunk').length = n - chunk'.length := by
        rw [List.length_cons]
        omega
      simp only [BufReader.readLoop, read] at ok
      rw [length]
      split at ok
      · rename_i r₂ rest more
        cases ok
        exact ⟨rest, rfl, more⟩
      · cases ok

/-- The buffer comes first, and then what is missing from the file. -/
theorem At.readExact_ok (at_ : At past pos r) (ok : r.readExact content n = (r', .ok data)) :
    data = (past.drop pos).take (min n r.buffer.length) ++
        (content.drop (pos + min n r.buffer.length)).take (n - min n r.buffer.length) ∧
      At (if n ≤ r.buffer.length then past else content) (pos + n) r' := by
  unfold BufReader.readExact at ok
  cases n with
  | zero =>
      cases ok
      rw [Nat.zero_min, if_pos (Nat.zero_le _)]
      exact ⟨rfl, at_⟩
  | succ n =>
      by_cases empty : r.buffer = []
      · obtain ⟨same, after⟩ := (at_.of_empty empty).readLoop_ok ok
        rw [empty, List.length_nil, Nat.min_zero, if_neg (by omega)]
        exact ⟨same, after⟩
      · obtain ⟨rest, rfl, more⟩ := readLoop_of_buffer empty ok
        obtain ⟨isPrefix, -, after, -⟩ := at_.read (n + 1)
        rw [read_of_buffer empty] at isPrefix after
        dsimp only at isPrefix after
        have taken : (r.buffer.take (n + 1)).length = min (n + 1) r.buffer.length := List.length_take
        have ahead : r.buffer.take (n + 1) = (past.drop pos).take (min (n + 1) r.buffer.length) := by
          rw [← taken]
          exact (List.prefix_iff_eq_take.mp isPrefix)
        rw [taken] at more after
        rw [ahead]
        by_cases enough : n + 1 ≤ r.buffer.length
        · rw [Nat.min_eq_left enough, Nat.sub_self] at more
          rw [Nat.min_eq_left enough] at after
          have done : rest = [] ∧ r' = ⟨r.pos, r.buffer.drop (n + 1)⟩ := by
            cases n <;> (cases more; exact ⟨rfl, rfl⟩)
          obtain ⟨rfl, rfl⟩ := done
          rw [if_pos enough, Nat.min_eq_left enough, Nat.sub_self]
          exact ⟨rfl, after⟩
        · have all : r.buffer.drop (n + 1) = [] := List.drop_eq_nil_of_le (by omega)
          obtain ⟨rfl, after'⟩ := (after.of_empty all).readLoop_ok more
          rw [if_neg enough]
          refine ⟨rfl, ?_⟩
          have place : pos + min (n + 1) r.buffer.length + (n + 1 - min (n + 1) r.buffer.length) =
              pos + (n + 1) := by omega
          rwa [place] at after'

end BufReader

namespace TrackedFile

variable {m : Moment} {s : TrackedFile} {n offset : Nat} {r : BufReader}

theorem Placed.load (placed : s.Placed) : (s.load m).1.Placed := by
  unfold TrackedFile.load LocalFile.loadHandle
  cases handle : s.file.handle with
  | some r =>
      -- an open handle stays as it is
      have opened := placed.opened r handle
      simp only [Option.isNone_some, Bool.and_false, Bool.false_eq_true, if_false]
      refine ⟨fun closed => ?_, fun r' handle' notLost => ?_⟩
      · cases handle.symm.trans closed
      · cases handle.symm.trans handle'
        exact opened notLost
  | none =>
      obtain ⟨start, found⟩ := placed.closed handle
      have content : m.disk.content s.file.path = if m.opens then some m.content else none := rfl
      simp only [Option.isNone_none, Bool.and_true, if_true]
      split_ifs
      · rw [content]
        cases m.opens with
        | false =>
            refine ⟨fun _ => ⟨start, found⟩, fun r' handle' => ?_⟩
            cases handle.symm.trans handle'
        | true =>
            refine ⟨nofun, ?_⟩
            rintro r ⟨⟩ -
            rw [start]
            exact (BufReader.at_empty m.content 0).fillBuf.1
      · refine ⟨fun _ => ⟨start, found⟩, fun r' handle' => ?_⟩
        cases handle.symm.trans handle'

/-- The reader from which a request is read, if the seek does not fail. -/
def sought (offset : Nat) (r : BufReader) (s : TrackedFile) : BufReader :=
  if offset = s.file.offset then r else ⟨offset, []⟩

theorem readHandleAt_of_seekFails (content : Bytes) (fails : s.SeekFails offset) :
    ∃ e, s.file.readHandleAt content n offset r = ({ s.file with handle := some r }, .error e) := by
  obtain ⟨other, large⟩ := fails
  unfold LocalFile.readHandleAt
  rw [if_pos other, BufReader.seek, if_neg (Nat.not_lt.mpr large)]
  exact ⟨_, rfl⟩

theorem readHandleAt_of_sought (content : Bytes) (seeks : ¬ s.SeekFails offset) :
    s.file.readHandleAt content n offset r =
      match (s.sought offset r).readExact content n with
      | (r, .error err) =>
          ({ s.file with handle := some r }, .error (.fileError s.file.path.toStringLossy err))
      | (r, .ok data) =>
          if offset + n ≥ s.file.size.toNat then ({ s.file with handle := none, offset := 0 }, .ok data)
          else ({ s.file with handle := some r, offset := offset + n }, .ok data) := by
  have turned : (if offset ≠ s.file.offset then r.seek offset else (r, .ok ())) =
      (s.sought offset r, .ok ()) := by
    unfold sought
    by_cases same : offset = s.file.offset
    · rw [if_neg (not_not_intro same), if_pos same]
    · have small : offset < 2 ^ 63 := by
        apply Nat.lt_of_not_le
        exact fun large => seeks ⟨same, large⟩
      rw [if_pos same, if_neg same, BufReader.seek, if_pos small]
  unfold LocalFile.readHandleAt
  exact turned ▸ rfl

theorem length_sought (handle : s.file.handle = some r) :
    (s.sought offset r).buffer.length = s.ahead offset := by
  unfold sought ahead
  rw [handle]
  dsimp only
  split_ifs <;> rfl

theorem Placed.sought (placed : s.Placed) (handle : s.file.handle = some r)
    (found : ¬ s.TakesUpLost offset) : (s.sought offset r).At s.filled offset := by
  unfold TrackedFile.sought
  split_ifs with same
  · have notLost : s.lost = false := by
      cases lost : s.lost with
      | false => rfl
      | true => exact absurd ⟨lost, same⟩ found
    rw [same]
    exact placed.opened r handle notLost
  · exact BufReader.at_empty _ _

/-- A call with a handle keeps the reader in place, or knows that it is lost. -/
theorem Placed.readLoaded (placed : s.Placed) (handle : s.file.handle = some r) :
    (s.readLoaded m n offset r).1.Placed ∧
      ∀ data, (s.readLoaded m n offset r).2 = .ok data → ¬ s.TakesUpLost offset →
        data = s.mixed m n offset := by
  by_cases fails : s.SeekFails offset
  · obtain ⟨e, failed⟩ := @readHandleAt_of_seekFails s n offset r m.content fails
    have same : s.readLoaded m n offset r =
        (⟨{ s.file with handle := some r }, s.filled, s.lost⟩, .error e) := by
      rw [TrackedFile.readLoaded, failed]
      exact if_pos fails
    rw [same]
    refine ⟨⟨nofun, ?_⟩, nofun⟩
    rintro r' ⟨⟩
    exact placed.opened r handle
  · have reads := @readHandleAt_of_sought s n offset r m.content fails
    have length := @length_sought s offset r handle
    unfold TrackedFile.readLoaded
    rw [reads]
    simp only [if_neg fails]
    generalize exact_ : (s.sought offset r).readExact m.content n = result
    obtain ⟨r', data | data⟩ := result
    · exact ⟨⟨nofun, fun _ _ found => by cases found⟩, nofun⟩
    · have brings (found : ¬ s.TakesUpLost offset) := (placed.sought handle found).readExact_ok exact_
      rw [length] at brings
      dsimp only
      by_cases ended : offset + n ≥ s.file.size.toNat
      · simp only [if_pos ended]
        refine ⟨⟨fun _ => ⟨rfl, by simp⟩, nofun⟩, ?_⟩
        rintro _ ⟨⟩ found
        exact (brings found).1
      · simp only [if_neg ended]
        refine ⟨⟨nofun, ?_⟩, ?_⟩
        · rintro _ ⟨⟩ notLost
          refine (brings ?_).2
          rintro ⟨lost, same⟩
          simp [lost, same] at notLost
        · rintro _ ⟨⟩ found
          exact (brings found).1

theorem load_offset : (s.load m).1.file.offset = s.file.offset := by
  unfold TrackedFile.load LocalFile.loadHandle
  dsimp only
  split_ifs
  · split <;> rfl
  · rfl

/-- The file of a tracked one is read by `read_exact_at`. -/
theorem read_file :
    ((s.read m n offset).1.file, (s.read m n offset).2) = s.file.readExactNow m n offset := by
  unfold TrackedFile.read LocalFile.readExactNow TrackedFile.load
  generalize s.file.loadHandle m.disk = result
  obtain ⟨f, e | ok⟩ := result
  · rfl
  · dsimp only
    cases f.handle with
    | none => rfl
    | some r =>
        unfold TrackedFile.readLoaded
        dsimp only
        split_ifs <;> rfl

theorem length_readLoaded {data : Bytes} (ok : (s.readLoaded m n offset r).2 = .ok data) :
    data.length = n := by
  unfold TrackedFile.readLoaded at ok
  generalize read : s.file.readHandleAt m.content n offset r = result at ok
  obtain ⟨file, outcome⟩ := result
  have same : outcome = .ok data := by
    dsimp only at ok
    split_ifs at ok <;> exact ok
  exact LocalFile.length_readHandleAt (read.trans (congrArg (file, ·) same))

theorem Placed.read (placed : s.Placed) :
    (s.read m n offset).1.Placed ∧ s.Answers (m, .readExactAt n offset) := by
  have loaded := placed.load (m := m)
  have sameOffset := @load_offset m s
  have sameLost : (s.load m).1.lost = s.lost := rfl
  unfold Answers TrackedFile.read
  generalize s.load m = result at loaded sameOffset sameLost
  obtain ⟨s₁, e | ok⟩ := result
  · exact ⟨loaded, nofun⟩
  · dsimp only
    cases handle : s₁.file.handle with
    | none => exact ⟨loaded, nofun⟩
    | some r =>
        obtain ⟨after, answer⟩ := @Placed.readLoaded m s₁ n offset r loaded handle
        refine ⟨after, fun data ok found => ⟨length_readLoaded ok, answer data ok ?_⟩⟩
        unfold TakesUpLost at found ⊢
        rwa [sameOffset, sameLost]

theorem Placed.step (placed : s.Placed) (e : Moment × FileCall) : (s.step e).Placed := by
  obtain ⟨m, call⟩ := e
  cases call with
  | loadHandle => exact placed.load
  | readExactAt n offset => exact placed.read.1

theorem Placed.answers (placed : s.Placed) (e : Moment × FileCall) : s.Answers e := by
  obtain ⟨m, call⟩ := e
  cases call with
  | loadHandle => trivial
  | readExactAt n offset => exact placed.read.2

end TrackedFile

/-- A file that was just listed. -/
def LocalFile.Listed (f : LocalFile) : Prop := f.handle = none ∧ f.offset = 0

/-- However a listed file is opened and read, at whatever offsets, while it changes from call
    to call: every call that succeeds, and does not take up a handle whose last read has
    failed, brings the bytes at its offset, first those that were read ahead and then those
    that are there. -/
theorem reads_positioned (f : LocalFile) (listed : f.Listed) (filled : Bytes)
    (calls : List (Moment × FileCall)) :
    Runs.Along TrackedFile.step TrackedFile.Answers ⟨f, filled, false⟩ calls := by
  have start : TrackedFile.Placed ⟨f, filled, false⟩ := by
    refine ⟨fun _ => ⟨listed.2, rfl⟩, fun r handle => ?_⟩
    cases listed.1.symm.trans handle
  have placed : Runs.Always TrackedFile.step TrackedFile.Placed ⟨f, filled, false⟩ calls :=
    Runs.always_of_events (fun s e (_ : True) placed => placed.step e) (fun _ _ => trivial) start
  exact placed.along fun s e placed => placed.answers e

theorem reads_positioned_three :
    TrackedFile.Answers
      (Runs.exec TrackedFile.step ⟨onlyFile 3, [], false⟩ [(⟨[1, 2, 3], true⟩, .readExactAt 1 0)])
      (⟨[1, 2, 4], true⟩, .readExactAt 1 2) := by
  have along := reads_positioned (onlyFile 3) ⟨rfl, rfl⟩ []
    [(⟨[1, 2, 3], true⟩, .readExactAt 1 0), (⟨[1, 2, 4], true⟩, .readExactAt 1 2)]
  exact along.2.1

/-- Two bytes of a file that was opened as 1, 2, 3 and is now 4, 5, 6: what was read ahead is
    given out, and not what is there. -/
theorem read_ahead_goes_stale :
    (((onlyFile 3).loadHandle (Moment.disk ⟨[1, 2, 3], true⟩)).1.readExactNow ⟨[4, 5, 6], true⟩ 2 0).2 =
        .ok [1, 2] ∧
      ([4, 5, 6].drop 0).take 2 ≠ [1, 2] :=
  ⟨rfl, by decide⟩

/-- Of a file that is shorter than it was listed, a read fails; when it has grown, the next
    one at the same offset brings what comes after the bytes that were there. -/
theorem failed_read_misplaces :
    ((onlyFile 4).readExactNow ⟨[1, 2], true⟩ 4 0).2 =
        .error (.fileError [] "failed to fill whole buffer") ∧
      (((onlyFile 4).readExactNow ⟨[1, 2], true⟩ 4 0).1.readExactNow ⟨[1, 2, 3, 4], true⟩ 2 0).2 =
        .ok [3, 4] :=
  ⟨rfl, rfl⟩

end RemoteControl.Clipboard
