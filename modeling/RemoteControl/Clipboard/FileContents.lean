import RemoteControl.Clipboard.LocalFile
import RemoteControl.LittleEndian
import RemoteControl.Runs

/-! # Requests for the contents of files

A peer that pastes files asks for them piece by piece. The request is made by
`FuseServer::read_node` on one side and served by `read_file_contents` on the other. The
offset travels as two signed halves and the length as a signed number, and each of the
three is widened with its sign before it is used.
-/

namespace RemoteControl.Clipboard

structure ContentsRequest where
  streamId : Int32
  listIndex : Int32
  dwFlags : Int32
  nPositionLow : Int32
  nPositionHigh : Int32
  cbRequested : Int32
  deriving DecidableEq

/-- The messages about the contents of files; `other` stands for the rest. -/
inductive ClipboardFile where
  | files (files : List (List Char × UInt64))
  | fileContentsRequest (r : ContentsRequest)
  | fileContentsResponse (msgFlags streamId : Int32) (requestedData : Bytes)
  | other
  deriving DecidableEq

/-- `n as u64` -/
def asU64 (n : Int32) : Nat := (n.toInt % 2 ^ 64).toNat

/-- The offset that two halves stand for. -/
def position (high low : Int32) : Nat := ((asU64 high <<< 32) % 2 ^ 64) ||| asU64 low

inductive FileContentsRequest where
  | size (streamId : Int32) (fileIdx : Nat)
  | range (streamId : Int32) (fileIdx offset length : Nat)
  deriving DecidableEq

/-- The files that were copied. A vector never has more elements than fit in the address
    space. -/
structure ClipFiles where
  fileList : List LocalFile
  firstFileIndex : Nat
  fits : fileList.length < 2 ^ 63

/-- What a request computes that may go wrong. -/
inductive Op where
  | add (a b : Nat)
  | sub (a b : Nat)
  /-- A buffer of `n` bytes for what follows `offset` in a file of `size` bytes. -/
  | buffer (n size offset : Nat)
  deriving DecidableEq

inductive Answer where
  | ok (m : ClipboardFile)
  | err (e : CliprdrError)
  | panics
  deriving DecidableEq

structure Served where
  files : ClipFiles
  ops : List Op
  answer : Answer

/-- Opens the first file of the list that is no directory. -/
def hotReload (disk : Disk) : List LocalFile → List LocalFile × Except CliprdrError Unit
  | [] => ([], .ok ())
  | f :: rest =>
      if f.isDir then
        let (rest, reloaded) := hotReload disk rest
        (f :: rest, reloaded)
      else
        let (f, reloaded) := f.loadHandle disk
        (f :: rest, reloaded)

theorem length_hotReload (disk : Disk) (files : List LocalFile) :
    (hotReload disk files).1.length = files.length := by
  induction files with
  | nil => rfl
  | cons f rest ih =>
      unfold hotReload
      split_ifs
      · exact congrArg (· + 1) ih
      · rfl

/-- The bytes that are read. -/
def readSize (size offset length : Nat) : Nat :=
  if (offset + length) % 2 ^ 64 > size then size - offset else length

def rangeOps (size offset length : Nat) : List Op :=
  if (offset + length) % 2 ^ 64 > size then
    [.add offset length, .sub size offset, .buffer (readSize size offset length) size offset]
  else [.add offset length, .buffer (readSize size offset length) size offset]

namespace ClipFiles

variable (disk : Disk)

def setFile (i : Nat) (f : LocalFile) (c : ClipFiles) : ClipFiles :=
  { c with fileList := c.fileList.set i f, fits := by rw [List.length_set]; exact c.fits }

/-- The next file after `fileIdx` is made ready. -/
def reloadAfter (fileIdx : Nat) (c : ClipFiles) : ClipFiles × Except CliprdrError Unit :=
  let reloaded := hotReload disk (c.fileList.drop (fileIdx + 1))
  ({ c with
      fileList := c.fileList.take (fileIdx + 1) ++ reloaded.1
      fits := by
        rw [List.length_append, length_hotReload, ← List.length_append, List.take_append_drop]
        exact c.fits }, reloaded.2)

def getFilesForAudit (request : FileContentsRequest) (c : ClipFiles) : Option ClipboardFile :=
  match request with
  | .range _ fileIdx offset _ =>
      if fileIdx = c.firstFileIndex ∧ offset = 0 then
        let files := (c.fileList.filter fun f => disk.isFile f.path).map fun f =>
          (f.path.toStringLossy, f.size)
        if files = [] then none else some (.files files)
      else none
  | .size _ _ => none

/-- The end of `serve_file_contents`, with the answer that is ready. -/
def finish (fileIdx : Nat) (ops : List Op) (m : ClipboardFile) (c : ClipFiles) : Served :=
  match c.reloadAfter disk fileIdx with
  | (c, .ok ()) => ⟨c, ops ++ [.add fileIdx 1], .ok m⟩
  | (c, .error e) => ⟨c, ops ++ [.add fileIdx 1], .err e⟩

/-- The part of `serve_file_contents` for a range of a file that is there. The sum is
    checked or wraps, as the program was built. -/
def serveRange (checks : Bool) (streamId : Int32) (fileIdx offset length : Nat) (f : LocalFile)
    (c : ClipFiles) : Served :=
  if checks && decide (2 ^ 64 ≤ offset + length) then ⟨c, [.add offset length], .panics⟩
  else
    let size := f.size.toNat
    let n := readSize size offset length
    -- no vector is longer than `isize::MAX`
    if 2 ^ 63 ≤ n then ⟨c, rangeOps size offset length, .panics⟩
    else
      match f.readExactAt disk n offset with
      | (f, .error e) => ⟨c.setFile fileIdx f, rangeOps size offset length, .err e⟩
      | (f, .ok buf) =>
          (c.setFile fileIdx f).finish disk fileIdx
            (rangeOps size offset length ++ [.add offset buf.length])
            (.fileContentsResponse 1 streamId buf)

def serveFileContents (checks : Bool) (connId : Int32) (request : FileContentsRequest)
    (c : ClipFiles) : Served :=
  match request with
  | .size streamId fileIdx =>
      match c.fileList[fileIdx]? with
      | none =>
          ⟨c, [], .err (.invalidRequest s!"invalid file index {fileIdx} requested from conn: {connId}")⟩
      | some f =>
          c.finish disk fileIdx [] (.fileContentsResponse 1 streamId (toLe 8 f.size.toNat))
  | .range streamId fileIdx offset length =>
      match c.fileList[fileIdx]? with
      | none =>
          ⟨c, [], .err (.invalidRequest s!"invalid file index {fileIdx} requested from conn: {connId}")⟩
      | some f =>
          if offset > f.size.toNat then
            ⟨c, [], .err (.invalidRequest s!"invalid reading offset requested from conn: {connId}")⟩
          else c.serveRange disk checks streamId fileIdx offset length f

end ClipFiles

/-- The request the numbers of a message stand for. -/
def ContentsRequest.decode (r : ContentsRequest) : Except CliprdrError FileContentsRequest :=
  if r.dwFlags = 1 then .ok (.size r.streamId (asU64 r.listIndex))
  else if r.dwFlags = 2 then
    .ok (.range r.streamId (asU64 r.listIndex) (position r.nPositionHigh r.nPositionLow)
      (asU64 r.cbRequested))
  else
    let flags := r.dwFlags
    .error (.invalidRequest s!"got invalid FileContentsRequest, dw_flats: {flags}")

/-- What comes of a request: the files, what was computed and the answers. -/
structure Read where
  files : ClipFiles
  ops : List Op
  answers : List Answer

def readFileContents (disk : Disk) (checks : Bool) (connId : Int32) (r : ContentsRequest)
    (c : ClipFiles) : Read :=
  match r.decode with
  | .error e => ⟨c, [], [.err e]⟩
  | .ok request =>
      let audit := (c.getFilesForAudit disk request).toList.map Answer.ok
      let served := c.serveFileContents disk checks connId request
      ⟨served.files, served.ops, audit ++ [served.answer]⟩

/-! ## Overflows and buffers -/

/-- The operation stays in range, and the buffer in the file. -/
def Op.Safe : Op → Prop
  | .add a b => a + b < 2 ^ 64
  | .sub a b => b ≤ a
  | .buffer n size offset => offset ≤ size ∧ n ≤ size - offset

/-- The request names a file and an offset in it, and its end is beyond all numbers. -/
def ClipFiles.Overflows (r : ContentsRequest) (c : ClipFiles) : Prop :=
  r.dwFlags = 2 ∧ ∃ f, c.fileList[asU64 r.listIndex]? = some f ∧
    position r.nPositionHigh r.nPositionLow ≤ f.size.toNat ∧
    2 ^ 64 ≤ position r.nPositionHigh r.nPositionLow + asU64 r.cbRequested

/-- With sizes that a file system has, such a request asks for a negative number of bytes, from an
offset that this number leads back into the file. -/
theorem ClipFiles.overflows_iff {r : ContentsRequest} {c : ClipFiles}
    (sizes : ∀ f ∈ c.fileList, f.size.toNat < 2 ^ 63) :
    c.Overflows r ↔ r.dwFlags = 2 ∧ r.cbRequested.toInt < 0 ∧
      ∃ f, c.fileList[asU64 r.listIndex]? = some f ∧
        -r.cbRequested.toInt ≤ position r.nPositionHigh r.nPositionLow ∧
          position r.nPositionHigh r.nPositionLow ≤ f.size.toNat := by
  have least := r.cbRequested.le_toInt
  have most := r.cbRequested.toInt_lt
  have length : (asU64 r.cbRequested : Int) =
      if r.cbRequested.toInt < 0 then r.cbRequested.toInt + 2 ^ 64 else r.cbRequested.toInt := by
    unfold asU64
    omega
  constructor
  · rintro ⟨isRange, f, found, inside, large⟩
    have small := sizes f (List.mem_of_getElem? found)
    split_ifs at length with negative
    · exact ⟨isRange, negative, f, found, by omega, inside⟩
    · omega
  · rintro ⟨isRange, negative, f, found, back, inside⟩
    rw [if_pos negative] at length
    exact ⟨isRange, f, found, inside, by omega⟩

section Safe

variable {disk : Disk} {checks : Bool} {c : ClipFiles} {f : LocalFile} {fileIdx offset length : Nat}

theorem ClipFiles.finish_ops (ops : List Op) (m : ClipboardFile) :
    (c.finish disk fileIdx ops m).ops = ops ++ [.add fileIdx 1] := by
  unfold finish
  split <;> rfl

theorem ClipFiles.index_lt (listed : c.fileList[fileIdx]? = some f) : fileIdx + 1 < 2 ^ 64 := by
  have inside := (List.getElem?_eq_some_iff.mp listed).1
  have fits := c.fits
  omega

theorem readSize_eq (size : Nat) (small : offset + length < 2 ^ 64) :
    readSize size offset length = min length (size - offset) := by
  unfold readSize
  rw [Nat.mod_eq_of_lt small]
  split_ifs <;> omega

theorem add_mem_rangeOps (size : Nat) : .add offset length ∈ rangeOps size offset length := by
  unfold rangeOps
  split_ifs <;> exact List.mem_cons_self ..

theorem rangeOps_safe {size : Nat} (inside : offset ≤ size) (small : offset + length < 2 ^ 64) :
    ∀ op ∈ rangeOps size offset length, op.Safe := by
  have bound := (readSize_eq size small).trans_le (Nat.min_le_right ..)
  unfold rangeOps
  split_ifs <;> simp only [List.forall_mem_cons, Op.Safe]
  · exact ⟨small, inside, ⟨inside, bound⟩, nofun⟩
  · exact ⟨small, ⟨inside, bound⟩, nofun⟩

/-- The sum that may overflow comes first, whatever follows. -/
theorem ClipFiles.add_mem_serveRange_ops (streamId : Int32) :
    .add offset length ∈ (c.serveRange disk checks streamId fileIdx offset length f).ops := by
  unfold serveRange
  dsimp only
  split_ifs
  · exact List.mem_singleton_self _
  · exact add_mem_rangeOps _
  · split
    · exact add_mem_rangeOps _
    · rw [finish_ops]
      exact List.mem_append_left _ (List.mem_append_left _ (add_mem_rangeOps _))

theorem ClipFiles.serveRange_safe_iff (streamId : Int32) (listed : c.fileList[fileIdx]? = some f)
    (inside : offset ≤ f.size.toNat) :
    (∀ op ∈ (c.serveRange disk checks streamId fileIdx offset length f).ops, op.Safe) ↔
      offset + length < 2 ^ 64 := by
  have index := ClipFiles.index_lt listed
  have size := f.size.toNat_lt
  constructor
  · intro safe
    exact safe _ (add_mem_serveRange_ops streamId)
  · intro small
    have safe := rangeOps_safe inside small
    have bound := (readSize_eq f.size.toNat small).trans_le (Nat.min_le_right ..)
    have unchecked : (checks && decide (2 ^ 64 ≤ offset + length)) = false := by
      rw [decide_eq_false (not_le.mpr small), Bool.and_false]
    unfold serveRange
    dsimp only
    rw [unchecked]
    simp only [Bool.false_eq_true, if_false]
    split_ifs
    · exact safe
    · split
      · exact safe
      · rename_i f' buf read
        rw [finish_ops, LocalFile.length_readExactAt read]
        intro op member
        rcases List.mem_append.mp member with earlier | last
        · rcases List.mem_append.mp earlier with range | stored
          · exact safe op range
          · rw [List.mem_singleton.mp stored]
            exact (show offset + readSize f.size.toNat offset length < 2 ^ 64 by omega)
        · rw [List.mem_singleton.mp last]
          exact index

end Safe

/-- In any state, a request is served without an overflow and without a buffer that is
    larger than the rest of the file exactly when its end is a number that exists. -/
theorem request_safe_iff (disk : Disk) (checks : Bool) (connId : Int32) (r : ContentsRequest)
    (c : ClipFiles) :
    (∀ op ∈ (readFileContents disk checks connId r c).ops, op.Safe) ↔ ¬ c.Overflows r := by
  unfold readFileContents ContentsRequest.decode
  by_cases isSize : r.dwFlags = 1
  · have other : ¬ c.Overflows r := by
      rintro ⟨isRange, -⟩
      cases isSize.symm.trans isRange
    rw [if_pos isSize]
    refine iff_of_true ?_ other
    simp only [ClipFiles.serveFileContents]
    split
    · exact nofun
    · rename_i f listed
      rw [ClipFiles.finish_ops]
      rintro op (_ | ⟨_, ⟨⟩⟩)
      exact ClipFiles.index_lt listed
  · rw [if_neg isSize]
    by_cases isRange : r.dwFlags = 2
    · rw [if_pos isRange]
      simp only [ClipFiles.serveFileContents, ClipFiles.Overflows, isRange, true_and]
      split
      · rename_i unlisted
        refine iff_of_true nofun ?_
        rintro ⟨f, listed, -⟩
        cases unlisted.symm.trans listed
      · rename_i f listed
        split_ifs with past
        · refine iff_of_true nofun ?_
          rintro ⟨f', listed', inside, -⟩
          cases listed.symm.trans listed'
          omega
        · have inside := not_lt.mp past
          rw [ClipFiles.serveRange_safe_iff r.streamId listed inside]
          constructor
          · rintro small ⟨f', -, -, large⟩
            omega
          · intro safe
            by_contra large
            exact safe ⟨f, listed, inside, not_lt.mp large⟩
    · rw [if_neg isRange]
      refine iff_of_true nofun ?_
      rintro ⟨isRange', -⟩
      exact isRange isRange'

/-- The one file that is listed. -/
def onlyFile (len : UInt64) : LocalFile where
  relativeRoot := []
  path := []
  handle := none
  offset := 0
  size := len
  lastWriteTime := 0
  isDir := false
  perm := 0o644
  readOnly := false
  hidden := false
  system := false
  archive := false
  normal := true

def onlyFiles (len : UInt64) : ClipFiles := ⟨[onlyFile len], 0, by rw [List.length_singleton]; decide⟩

/-- A request for -1 bytes from offset 1 on: the end is 2^64, which wraps to 0, and a buffer
    for 2^64 - 1 bytes of a file of 5 is asked for. -/
theorem minus_one_overflows :
    (readFileContents (fun _ => none) false 0 ⟨7, 0, 2, 1, 0, -1⟩ (onlyFiles 5)).ops =
        [.add 1 (2 ^ 64 - 1), .buffer (2 ^ 64 - 1) 5 1] ∧
      (readFileContents (fun _ => none) false 0 ⟨7, 0, 2, 1, 0, -1⟩ (onlyFiles 5)).answers =
        [.panics] ∧
      ¬ ∀ op ∈ (readFileContents (fun _ => none) false 0 ⟨7, 0, 2, 1, 0, -1⟩ (onlyFiles 5)).ops,
        op.Safe := by
  have ops : (readFileContents (fun _ => none) false 0 ⟨7, 0, 2, 1, 0, -1⟩ (onlyFiles 5)).ops =
      [.add 1 (2 ^ 64 - 1), .buffer (2 ^ 64 - 1) 5 1] := by decide
  refine ⟨ops, by decide, ?_⟩
  rw [ops]
  intro safe
  have small : 1 + (2 ^ 64 - 1) < 2 ^ 64 := safe _ (List.mem_cons_self ..)
  omega

end RemoteControl.Clipboard
