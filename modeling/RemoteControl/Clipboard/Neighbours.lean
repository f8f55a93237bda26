import RemoteControl.Clipboard.FileRanges

/-! # Neighbours on the clipboard

When the answer for a file is ready, `serve_file_contents` opens the next file that is no
directory, to be ahead of the next request. If that fails, its error is returned in place
of the answer: a file that can be read is not served when the one after it cannot be
opened.
-/

namespace RemoteControl.Clipboard

/-- The file is open, or can be opened now. -/
def LocalFile.Opens (disk : Disk) (f : LocalFile) : Prop :=
  f.handle.isSome = true ∨ (disk.content f.path).isSome = true

/-- The first file of the list that is no directory opens. -/
def FirstOpens (disk : Disk) (files : List LocalFile) : Prop :=
  ∀ f, files.find? (fun f => !f.isDir) = some f → f.Opens disk

/-- What the error of a file that cannot be opened says. -/
def LocalFile.openError (f : LocalFile) : CliprdrError :=
  .fileError f.path.toStringLossy "Permission denied"

def FileContentsRequest.fileIdx : FileContentsRequest → Nat
  | .size _ fileIdx => fileIdx
  | .range _ fileIdx _ _ => fileIdx

/-- The answer to a valid request for a file whose own bytes can be read: they fit in
    memory and the disk gives them. -/
inductive ClipFiles.OwnAnswer (disk : Disk) (c : ClipFiles) :
    FileContentsRequest → ClipboardFile → Prop where
  | size {f : LocalFile} {fileIdx : Nat} (streamId : Int32)
      (listed : c.fileList[fileIdx]? = some f) :
      OwnAnswer disk c (.size streamId fileIdx)
        (.fileContentsResponse 1 streamId (toLe 8 f.size.toNat))
  | range {f f' : LocalFile} {fileIdx offset length : Nat} {buf : Bytes} (streamId : Int32)
      (listed : c.fileList[fileIdx]? = some f) (inside : offset ≤ f.size.toNat)
      (small : offset + length < 2 ^ 64) (fits : min length (f.size.toNat - offset) < 2 ^ 63)
      (read : f.readExactAt disk (min length (f.size.toNat - offset)) offset = (f', .ok buf)) :
      OwnAnswer disk c (.range streamId fileIdx offset length)
        (.fileContentsResponse 1 streamId buf)

section Opening

variable {disk : Disk} {f : LocalFile}

theorem LocalFile.loadHandle_of_opens (opens : f.Opens disk) :
    (f.loadHandle disk).2 = .ok () := by
  unfold loadHandle
  split_ifs with due
  · have closed : f.handle.isNone = true := ((Bool.and_eq_true _ _).mp due).2
    cases opens with
    | inl opened => simp_all
    | inr readable =>
        obtain ⟨content, found⟩ := Option.isSome_iff_exists.mp readable
        rw [found]
  · rfl

theorem LocalFile.loadHandle_of_not_opens (isFile : f.isDir = false) (fails : ¬ f.Opens disk) :
    (f.loadHandle disk).2 = .error f.openError := by
  obtain ⟨closed, unreadable⟩ := not_or.mp fails
  have due : (!f.isDir && f.handle.isNone) = true := by
    simp_all
  have missing : disk.content f.path = none := by
    simpa using unreadable
  unfold loadHandle
  rw [if_pos due, missing]
  rfl

/-- The loop stops at the first file that is no directory, with what opening it gives. -/
theorem hotReload_find? (files : List LocalFile) :
    (hotReload disk files).2 =
      match files.find? (fun f => !f.isDir) with
      | none => .ok ()
      | some f => (f.loadHandle disk).2 := by
  induction files with
  | nil => rfl
  | cons f rest ih =>
      cases isDir : f.isDir <;> simp [hotReload, isDir, ih]

theorem hotReload_of_firstOpens {files : List LocalFile} (opens : FirstOpens disk files) :
    (hotReload disk files).2 = .ok () := by
  rw [hotReload_find?]
  cases first : files.find? (fun f => !f.isDir) with
  | none => rfl
  | some f => exact f.loadHandle_of_opens (opens f first)

/-- The error is that of the file that does not open. -/
theorem hotReload_of_not_firstOpens {files : List LocalFile} (fails : ¬ FirstOpens disk files) :
    ∃ f, files.find? (fun f => !f.isDir) = some f ∧
      (hotReload disk files).2 = .error f.openError := by
  unfold FirstOpens at fails
  push Not at fails
  obtain ⟨f, first, closed⟩ := fails
  have isFile : f.isDir = false := by simpa using List.find?_some first
  refine ⟨f, first, ?_⟩
  rw [hotReload_find?, first]
  exact f.loadHandle_of_not_opens isFile closed

theorem hotReload_ok_iff (files : List LocalFile) :
    (hotReload disk files).2 = .ok () ↔ FirstOpens disk files := by
  constructor
  · intro ok
    by_contra fails
    obtain ⟨f, -, error⟩ := hotReload_of_not_firstOpens fails
    cases ok.symm.trans error
  · exact hotReload_of_firstOpens

end Opening

namespace ClipFiles

variable {disk : Disk} {checks : Bool} {connId : Int32} {c : ClipFiles} {fileIdx : Nat}
  {request : FileContentsRequest} {m : ClipboardFile}

theorem finish_answer (ops : List Op) (m : ClipboardFile) :
    (c.finish disk fileIdx ops m).answer =
      match (hotReload disk (c.fileList.drop (fileIdx + 1))).2 with
      | .ok () => .ok m
      | .error e => .err e := by
  unfold finish
  generalize reloaded : c.reloadAfter disk fileIdx = result
  obtain ⟨c', outcome⟩ := result
  have same : (hotReload disk (c.fileList.drop (fileIdx + 1))).2 = outcome :=
    congrArg Prod.snd reloaded
  rw [same]
  cases outcome <;> rfl

theorem drop_setFile (f : LocalFile) :
    (c.setFile fileIdx f).fileList.drop (fileIdx + 1) = c.fileList.drop (fileIdx + 1) := by
  simp [setFile, List.drop_set]

/-- When a request could be answered, what is returned hangs on the files after it alone. -/
theorem OwnAnswer.answer (own : c.OwnAnswer disk request m) :
    (c.serveFileContents disk checks connId request).answer =
      match (hotReload disk (c.fileList.drop (request.fileIdx + 1))).2 with
      | .ok () => .ok m
      | .error e => .err e := by
  cases own with
  | size streamId listed =>
      simp only [serveFileContents, listed, finish_answer]
      rfl
  | @range f f' fileIdx offset length buf streamId listed inside small fits read =>
      have unchecked : (checks && decide (2 ^ 64 ≤ offset + length)) = false := by
        rw [decide_eq_false (not_le.mpr small), Bool.and_false]
      have bytes := readSize_eq f.size.toNat small
      simp only [serveFileContents, listed, if_neg (not_lt.mpr inside), serveRange, unchecked,
        Bool.false_eq_true, if_false, bytes, if_neg (not_le.mpr fits), read, finish_answer,
        drop_setFile]
      rfl

/-- The request is answered with an error exactly when the next file does not open, and the
    error is the one of that file. -/
theorem OwnAnswer.error_iff (own : c.OwnAnswer disk request m) (e : CliprdrError) :
    (c.serveFileContents disk checks connId request).answer = .err e ↔
      ∃ f, (c.fileList.drop (request.fileIdx + 1)).find? (fun f => !f.isDir) = some f ∧
        ¬ f.Opens disk ∧ e = f.openError := by
  rw [own.answer]
  by_cases opens : FirstOpens disk (c.fileList.drop (request.fileIdx + 1))
  · rw [hotReload_of_firstOpens opens]
    refine iff_of_false nofun ?_
    rintro ⟨f, first, closed, -⟩
    exact closed (opens f first)
  · obtain ⟨f, first, error⟩ := hotReload_of_not_firstOpens opens
    have closed : ¬ f.Opens disk := by
      intro opened
      refine opens fun f' first' => ?_
      cases first.symm.trans first'
      exact opened
    rw [error]
    constructor
    · rintro ⟨⟩
      exact ⟨f, first, closed, rfl⟩
    · rintro ⟨f', first', -, rfl⟩
      cases first.symm.trans first'
      rfl

end ClipFiles

/-- Of a list of files in any state, a file that can be read is served exactly when the
    next one that is no directory is open or can be opened. -/
theorem served_alone_iff (disk : Disk) (checks : Bool) (connId : Int32) (c : ClipFiles)
    (request : FileContentsRequest) (m : ClipboardFile) (own : c.OwnAnswer disk request m) :
    (c.serveFileContents disk checks connId request).answer = .ok m ↔
      FirstOpens disk (c.fileList.drop (request.fileIdx + 1)) := by
  rw [own.answer, ← hotReload_ok_iff]
  cases (hotReload disk (c.fileList.drop (request.fileIdx + 1))).2 with
  | ok => exact iff_of_true rfl rfl
  | error e => exact iff_of_false nofun nofun

/-- A disk on which every path is a file of one byte, and only the empty path can be
    opened. -/
def oneReadable : Disk := fun path =>
  some
    { metadata := { len := 1, kind := .file, mode := 0o644, modified := none, signed := by decide }
      content := if path = [] then some [7] else none
      long := by
        intro c opened
        split_ifs at opened
        cases opened
        decide }

/-- A file that can be read and one that cannot. -/
def twoFiles : ClipFiles :=
  ⟨[onlyFile 1, { onlyFile 1 with path := [.char 'b'] }], 0, by
    rw [List.length_cons, List.length_singleton]
    decide⟩

theorem served_alone_last :
    (twoFiles.serveFileContents (diskOf 1 [7] (by decide) (by decide)) false 0
      (.range 5 0 0 1)).answer = .ok (.fileContentsResponse 1 5 [7]) := by
  refine (served_alone_iff _ false 0 twoFiles (.range 5 0 0 1) _
    (.range 5 rfl (by decide) (by decide) (by decide) rfl)).mpr ?_
  rintro f ⟨⟩
  exact .inr rfl

/-- Of two listed files the second cannot be opened: no request for the first is answered,
    although its byte can be read. -/
theorem neighbour_spoils_answer :
    tryOpenAll oneReadable [] [[], [.char 'b']] = .ok twoFiles.fileList ∧
      twoFiles.OwnAnswer oneReadable (.size 5 0)
        (.fileContentsResponse 1 5 [1, 0, 0, 0, 0, 0, 0, 0]) ∧
      twoFiles.OwnAnswer oneReadable (.range 5 0 0 1) (.fileContentsResponse 1 5 [7]) ∧
      (twoFiles.serveFileContents oneReadable false 0 (.size 5 0)).answer =
        .err (.fileError ['b'] "Permission denied") ∧
      (twoFiles.serveFileContents oneReadable false 0 (.range 5 0 0 1)).answer =
        .err (.fileError ['b'] "Permission denied") := by
  have size : twoFiles.OwnAnswer oneReadable (.size 5 0)
      (.fileContentsResponse 1 5 [1, 0, 0, 0, 0, 0, 0, 0]) := .size (f := onlyFile 1) 5 rfl
  have range : twoFiles.OwnAnswer oneReadable (.range 5 0 0 1) (.fileContentsResponse 1 5 [7]) :=
    .range 5 rfl (by decide) (by decide) (by decide) rfl
  have closed : ∃ f, (twoFiles.fileList.drop 1).find? (fun f => !f.isDir) = some f ∧
      ¬ f.Opens oneReadable ∧ .fileError ['b'] "Permission denied" = f.openError := by
    refine ⟨_, rfl, ?_, rfl⟩
    rintro (⟨⟨⟩⟩ | ⟨⟨⟩⟩)
  exact ⟨rfl, size, range, (size.error_iff _).mpr closed, (range.error_iff _).mpr closed⟩

end RemoteControl.Clipboard
