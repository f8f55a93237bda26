import RemoteControl.Clipboard.PasteTask

/-! # What a paste keeps

The operations of a task change the volume in a few ways only. A property of the volume and
the remembered path that each of them keeps is kept by every event, whatever fails.
-/

namespace RemoteControl.Clipboard.Paste

open Transfer (Text Place)

/-- The open file is the one of the current entry, and it is where the path leads. -/
structure OpenAt (w : Working) (writer : BufWriter) : Prop where
  located : w.volume.locate w.progress.downloadFilePath = some writer.place
  file : ∃ content modified, w.volume.tree.node writer.place = some (.file content modified)
  index : w.progress.downloadFileIndex = w.progress.listIndex ∧ 0 ≤ w.progress.listIndex ∧
    w.progress.listIndex < asI32 w.handle.files.length
  desc : ∃ desc, w.handle.files[w.progress.listIndex.toNat]? = some desc ∧ desc.kind = .file ∧
    desc.size ≠ 0 ∧ w.progress.downloadFileSize = desc.size

/-- The operations keep `Q`, which is about the remembered path and the volume, as long as no
    file is opened. -/
structure Preserves (Q : Text → Volume → Prop) (files : List FileDescription) (targetDir : Text) :
    Prop where
  append : ∀ {path v p content modified} data, Q path v → v.locate path = some p →
    v.tree.node p = some (.file content modified) → Q path { v with tree := appendTo v.tree p data }
  forget : ∀ {path v}, Q path v → Q [] v
  remove : ∀ {path v v'}, Q path v → v.removeFile path = some v' → Q path v'
  rename : ∀ {path v v' p content modified desc target}, Q path v → v.locate path = some p →
    v.tree.node p = some (.file content modified) → desc ∈ files → desc.kind = .file →
    getNewFilename v targetDir desc = some target → v.rename path target = some v' → Q [] v'
  createEmpty : ∀ {path v v' p desc target}, Q path v → desc ∈ files → desc.kind = .file →
    getNewFilename v targetDir desc = some target → v.create target = some (p, v') → Q path v'
  createDir : ∀ {path v desc} upTo, Q path v → desc ∈ files → desc.kind = .directory →
    v.exists_ (join targetDir desc.name) = false →
    Q path (v.createDirAll (join targetDir desc.name) upTo).1
  createParent : ∀ {path v desc target} upTo,
    Q path v → desc ∈ files → desc.kind = .file → desc.size ≠ 0 →
    getFirstFilename v (join targetDir desc.name ++ '.' :: downloadExtension) desc.kind = some target →
    Q path (v.createDirAll (parent target) upTo).1

/-- All operations keep `Q`. -/
structure Opens (Q : Text → Volume → Prop) (files : List FileDescription) (targetDir : Text) : Prop
    extends Preserves Q files targetDir where
  download : ∀ {path v v' v'' p desc target},
    Q path v → desc ∈ files → desc.kind = .file → desc.size ≠ 0 →
    getFirstFilename v (join targetDir desc.name ++ '.' :: downloadExtension) desc.kind = some target →
    v.Keeps v' → Q path v' → v'.create target = some (p, v'') → Q target v''

/-- A task in order: its open file is there, and `Q` holds. -/
structure Good (Q : Text → Volume → Prop) (files : List FileDescription) (targetDir : Text)
    (w : Working) : Prop where
  files : w.handle.files = files
  targetDir : w.handle.targetDir = targetDir
  open_ : ∀ writer ∈ w.progress.fileHandle, OpenAt w writer
  holds : Q w.progress.downloadFilePath w.volume

variable {Q : Text → Volume → Prop} {files : List FileDescription} {targetDir : Text} {w w' : Working}
  {writer : BufWriter} {o : Outcomes} {desc : FileDescription}

/-- An open file belongs to an entry of the list. -/
theorem OpenAt.unfinished (open_ : OpenAt w writer) (error : w.progress.error = none)
    (running : w.progress.isCanceled = false) : w.handle.isFinished = false := by
  have early := open_.index.2.2
  unfold Working.progress at *
  simp [PasteTaskHandle.isFinished, running, error, early]

variable {path : Text} {v : Volume} {i : Nat} {p : Place}

/-- Appending keeps the file of a path where it is. -/
theorem append_located (data : Bytes) (located : v.locate path = some p)
    (file : ∃ content modified, v.tree.node p = some (.file content modified)) :
    ({ v with tree := appendTo v.tree p data } : Volume).locate path = some p ∧
      ∃ content modified, (appendTo v.tree p data).node p = some (.file content modified) := by
  obtain ⟨content, modified, file⟩ := file
  exact ⟨Volume.keeps_appendTo.locate located, _, _, appendTo_node_self file⟩

/-- `Q` of a volume whose file at the path is still there. -/
def Present (Q : Text → Volume → Prop) (path : Text) (p : Place) (v : Volume) : Prop :=
  Q path v ∧ v.locate path = some p ∧ ∃ content modified, v.tree.node p = some (.file content modified)

section

variable (preserves : Preserves Q files targetDir)

include preserves

theorem Preserves.appended (present : Present Q path p v)
    (data : Bytes) : Present Q path p { v with tree := appendTo v.tree p data } := by
  obtain ⟨holds, located, file⟩ := present
  have after := append_located data located file
  obtain ⟨content, modified, file⟩ := file
  exact ⟨preserves.append data holds located file, after⟩

theorem Preserves.flushed (present : Present Q path writer.place v) (fault : Option Nat) :
    Present Q path writer.place (writer.flushBuf v fault).1 :=
  preserves.appended present _

theorem Preserves.written (data : Bytes) (present : Present Q path writer.place v) :
    Present Q path writer.place (writer.write v data o).1 ∧
      (writer.write v data o).2.1.place = writer.place := by
  unfold BufWriter.write
  dsimp only
  split
  case isTrue => exact ⟨present, rfl⟩
  case isFalse =>
    have first :
        Present Q path writer.place (if BufWriter.capacity - writer.buffer.length < data.length then
        writer.flushBuf v o.writeBuffer else (v, writer)).1 ∧
        (if BufWriter.capacity - writer.buffer.length < data.length then
          writer.flushBuf v o.writeBuffer else (v, writer)).2.place = writer.place := by
      split
      case isTrue => exact ⟨preserves.flushed present _, rfl⟩
      case isFalse => exact ⟨present, rfl⟩
    generalize (if BufWriter.capacity - writer.buffer.length < data.length then
        writer.flushBuf v o.writeBuffer else (v, writer)) = flushed at first ⊢
    obtain ⟨v', writer'⟩ := flushed
    obtain ⟨present', place⟩ := first
    dsimp only at present' place ⊢
    split_ifs
    · exact ⟨present', place⟩
    · exact ⟨place ▸ preserves.appended present' _, place⟩
    · exact ⟨present', place⟩

end

theorem Good.present (good : Good Q files targetDir w) (opened : w.progress.fileHandle = some writer) :
    Present Q w.progress.downloadFilePath writer.place w.volume :=
  ⟨good.holds, (good.open_ writer opened).located, (good.open_ writer opened).file⟩

/-- Without an open file only `Q` counts. -/
theorem Good.of_closed (good : Good Q files targetDir w) (same : w'.handle.files = w.handle.files)
    (same' : w'.handle.targetDir = w.handle.targetDir) (closed : w'.progress.fileHandle = none)
    (holds : Q w'.progress.downloadFilePath w'.volume) : Good Q files targetDir w' :=
  ⟨same.trans good.files, same'.trans good.targetDir, by simp [closed], holds⟩

/-- What becomes of the counters and the notes does not matter. -/
theorem Good.of_same (good : Good Q files targetDir w) (same : w'.handle.files = w.handle.files)
    (same' : w'.handle.targetDir = w.handle.targetDir)
    (path : w'.progress.downloadFilePath = w.progress.downloadFilePath)
    (writer : w'.progress.fileHandle = w.progress.fileHandle)
    (index : w'.progress.listIndex = w.progress.listIndex)
    (index' : w'.progress.downloadFileIndex = w.progress.downloadFileIndex)
    (size : w'.progress.downloadFileSize = w.progress.downloadFileSize)
    (volume : w'.volume = w.volume) : Good Q files targetDir w' where
  files := same.trans good.files
  targetDir := same'.trans good.targetDir
  open_ writer' opened := by
    obtain ⟨located, file, index₀, desc⟩ := good.open_ writer' (writer ▸ opened)
    exact ⟨by rw [volume, path]; exact located, by rw [volume]; exact file, by rw [index', index, same]; exact index₀,
      by rw [same, index, size]; exact desc⟩
  holds := by
    rw [path, volume]
    exact good.holds

section

variable (preserves : Preserves Q files targetDir)

include preserves

theorem Good.onCancelled (good : Good Q files targetDir w) (remove : Bool) :
    Good Q files targetDir (w.onCancelled o remove) ∧
      (w.onCancelled o remove).progress.fileHandle = none := by
  refine ⟨good.of_closed rfl rfl rfl ?_, rfl⟩
  have flushed : Q w.progress.downloadFilePath
      (w.progress.fileHandle.elim w.volume fun writer => (writer.flushBuf w.volume o.drop).1) := by
    cases opened : w.progress.fileHandle with
    | none => exact good.holds
    | some writer => exact (preserves.flushed (good.present opened) o.drop).1
  simp only [Working.onCancelled]
  split
  case isTrue =>
    cases removed : Volume.removeFile (w.progress.fileHandle.elim w.volume fun writer =>
        (writer.flushBuf w.volume o.drop).1) w.progress.downloadFilePath with
    | none => exact flushed
    | some v => exact preserves.remove flushed removed
  case isFalse => exact flushed

theorem Good.onError (good : Good Q files targetDir w) (error : PasteError) :
    Good Q files targetDir (w.onError error o) ∧ (w.onError error o).progress.fileHandle = none :=
  (good.of_same rfl rfl rfl rfl rfl rfl rfl rfl :
    Good Q files targetDir
      (w.setProgress { w.progress with error := some error })).onCancelled preserves _

theorem Good.closeWriter (good : Good Q files targetDir w)
    (opened : w.progress.fileHandle = some writer) :
    Present Q w.progress.downloadFilePath writer.place (w.closeWriter writer o).volume := by
  have closed : Present Q w.progress.downloadFilePath writer.place
      ((writer.flushBuf w.volume o.flush).2.flushBuf (writer.flushBuf w.volume o.flush).1 o.drop).1 :=
    preserves.appended (preserves.flushed (good.present opened) o.flush) _
  unfold Working.closeWriter
  dsimp only
  split <;> exact closed

end

theorem closeWriter_handle (w : Working) (writer : BufWriter) (o : Outcomes) :
    (w.closeWriter writer o).handle =
      (w.setProgress { w.progress with fileHandle := none }).handle := by
  unfold Working.closeWriter
  dsimp only
  split <;> rfl

theorem Good.onDone (preserves : Preserves Q files targetDir) (good : Good Q files targetDir w) :
    Good Q files targetDir (w.onDone o) ∧ (w.onDone o).progress.fileHandle = none := by
  unfold Working.onDone
  cases opened : w.progress.fileHandle with
  | none => exact ⟨good, opened⟩
  | some writer =>
      obtain ⟨-, -, ⟨index, nonneg, -⟩, desc, listed, isFile, -, -⟩ := good.open_ writer opened
      have valid : w.progress.downloadFileIndex ≠ invalidFileIndex := by
        rw [index, invalidFileIndex]
        omega
      simp only [if_neg valid]
      have closed := good.closeWriter (o := o) preserves opened
      have handle := closeWriter_handle w writer o
      have progress : (w.closeWriter writer o).progress = { w.progress with fileHandle := none } := by
        rw [Working.progress, handle]
        rfl
      generalize w.closeWriter writer o = w' at closed handle progress ⊢
      have listed' : w'.handle.files[w'.progress.downloadFileIndex.toNat]? = some desc := by
        rw [handle, progress]
        simpa [Working.setProgress, index] using listed
      have dir : w'.handle.targetDir = targetDir := by
        rw [handle]
        exact good.targetDir
      simp only [listed']
      have member : desc ∈ files := good.files ▸ List.mem_of_getElem? listed
      have same : w'.handle.files = w.handle.files := by rw [handle]; rfl
      have same' : w'.handle.targetDir = w.handle.targetDir := by rw [handle]; rfl
      have path : w'.progress.downloadFilePath = w.progress.downloadFilePath := by rw [progress]
      have none_ : w'.progress.fileHandle = none := by rw [progress]
      obtain ⟨holds, located, content, modified, file⟩ := closed
      split
      case h_1 =>
        refine ⟨good.of_closed same same' none_ ?_, none_⟩
        exact (path ▸ holds : Q w'.progress.downloadFilePath w'.volume)
      case h_2 target found =>
        rw [dir] at found
        unfold Working.renameDownload
        dsimp only
        split
        case h_1 v renamed =>
          refine ⟨good.of_closed same same' none_ ?_, none_⟩
          split at renamed
          case isTrue => exact preserves.rename holds located file member isFile found (path ▸ renamed)
          case isFalse => cases renamed
        case h_2 => exact ⟨good.of_closed same same' none_ (preserves.forget holds), none_⟩

/-- The loop works on a closed task. -/
structure Closed (Q : Text → Volume → Prop) (files : List FileDescription) (targetDir : Text)
    (w : Working) : Prop extends Good Q files targetDir w where
  closed : w.progress.fileHandle = none

theorem Closed.of_volume (good : Closed Q files targetDir w)
    (holds : Q w.progress.downloadFilePath v) : Closed Q files targetDir { w with volume := v } :=
  ⟨good.of_closed rfl rfl good.closed holds, good.closed⟩

theorem Closed.note (good : Closed Q files targetDir w) (n : Note) :
    Closed Q files targetDir (w.note n) :=
  ⟨good.of_same rfl rfl rfl rfl rfl rfl rfl rfl, good.closed⟩

theorem Closed.createEmpty (preserves : Preserves Q files targetDir)
    (good : Closed Q files targetDir w) (member : desc ∈ files) (isFile : desc.kind = .file) :
    Closed Q files targetDir (w.createEmpty i desc o) := by
  unfold Working.createEmpty
  split
  case h_1 => exact good.note _
  case h_2 path found =>
    split
    case h_1 p v created =>
      apply good.of_volume
      split at created
      case isTrue =>
        exact preserves.createEmpty good.holds member isFile (good.targetDir ▸ found) created
      case isFalse => cases created
    case h_2 => exact good.note _

theorem Closed.createDirectory (preserves : Preserves Q files targetDir)
    (good : Closed Q files targetDir w) (member : desc ∈ files) (isDir : desc.kind = .directory) :
    Closed Q files targetDir (w.createDirectory i desc o) := by
  have made : Q w.progress.downloadFilePath
      (if w.volume.exists_ (join w.handle.targetDir desc.name) then w.volume
        else (w.volume.createDirAll (join w.handle.targetDir desc.name) (o.createDir i)).1) := by
    split
    case isTrue => exact good.holds
    case isFalse missing =>
      rw [good.targetDir] at missing ⊢
      exact preserves.createDir _ good.holds member isDir (by simpa using missing)
  unfold Working.createDirectory
  dsimp only
  generalize (if w.volume.exists_ (join w.handle.targetDir desc.name) then w.volume
    else (w.volume.createDirAll (join w.handle.targetDir desc.name) (o.createDir i)).1) = v at made ⊢
  split
  case isTrue => exact good.of_volume made
  case isFalse => exact (good.of_volume made).note _

theorem createEmpty_handle (i : Nat) : (w.createEmpty i desc o).handle = w.handle := by
  unfold Working.createEmpty
  split
  case h_1 => rfl
  case h_2 => split <;> rfl

theorem createDirectory_handle (i : Nat) : (w.createDirectory i desc o).handle = w.handle := by
  unfold Working.createDirectory
  dsimp only
  generalize (if w.volume.exists_ (join w.handle.targetDir desc.name) then w.volume
    else (w.volume.createDirAll (join w.handle.targetDir desc.name) (o.createDir i)).1) = v
  split <;> rfl

/-- A writer is opened for the current entry, or the task stays closed. -/
theorem Closed.openNewWriter (opens : Opens Q files targetDir) (good : Closed Q files targetDir w)
    (nonneg : 0 ≤ w.progress.listIndex) (early : w.progress.listIndex < asI32 files.length)
    (listed : files[w.progress.listIndex.toNat]? = some desc)
    (isFile : desc.kind = .file) (some_ : desc.size ≠ 0) :
    Good Q files targetDir (w.openNewWriter o).1 ∧
      ((w.openNewWriter o).1.progress.fileHandle = none →
        (w.openNewWriter o).1.progress.downloadFilePath = w.progress.downloadFilePath) := by
  have member : desc ∈ files := List.mem_of_getElem? listed
  have listed' : w.handle.files[w.progress.listIndex.toNat]? = some desc := good.files ▸ listed
  unfold Working.openNewWriter
  simp only [listed']
  split
  case h_1 => exact ⟨good.toGood, fun _ => rfl⟩
  case h_2 path found =>
    have found' := found
    rw [good.targetDir] at found'
    have made : Q w.progress.downloadFilePath (if w.volume.exists_ (parent path) then (w.volume, true)
        else w.volume.createDirAll (parent path) o.createParent).1 ∧
        w.volume.Keeps (if w.volume.exists_ (parent path) then (w.volume, true)
          else w.volume.createDirAll (parent path) o.createParent).1 := by
      split
      case isTrue => exact ⟨good.holds, .refl⟩
      case isFalse =>
        exact ⟨opens.createParent _ good.holds member isFile some_ found', Volume.keeps_createDirAll⟩
    generalize (if w.volume.exists_ (parent path) then (w.volume, true)
      else w.volume.createDirAll (parent path) o.createParent) = making at made ⊢
    obtain ⟨v, ok⟩ := making
    obtain ⟨holds, keeps⟩ := made
    dsimp only at holds keeps ⊢
    split
    case isTrue => exact ⟨(good.of_volume holds).toGood, fun _ => rfl⟩
    case isFalse =>
      split
      case h_1 p v' created =>
        split at created
        case isFalse => cases created
        case isTrue =>
          have opened := opens.download good.holds member isFile some_ found' keeps holds created
          obtain ⟨plain, located, noDir, rfl⟩ := Volume.of_create created
          have located' :
              Volume.locate { v with tree := v.tree.put p (some (.file [] 0)) } path = some p :=
            (Volume.keeps_put noDir _).locate located
          have whole (w' : Working) (files_ : w'.handle.files = w.handle.files)
              (dir : w'.handle.targetDir = w.handle.targetDir)
              (volume : w'.volume = { v with tree := v.tree.put p (some (.file [] 0)) })
              (progress : w'.progress = { w.progress with
                downloadFileIndex := w.progress.listIndex
                downloadFileSize := desc.size
                downloadFilePath := path
                downloadFileCurrentSize := 0
                fileHandle := some { place := p } }) :
              Good Q files targetDir w' ∧ (w'.progress.fileHandle = none →
                w'.progress.downloadFilePath = w.progress.downloadFilePath) := by
            refine ⟨⟨files_.trans good.files, dir.trans good.targetDir, ?_, ?_⟩, ?_⟩
            · intro writer opened
              rw [progress] at opened
              cases opened
              refine ⟨?_, ?_, ?_, ?_⟩
              · rw [volume, progress]
                exact located'
              · rw [volume]
                exact ⟨[], 0, FileTree.put_node_self ..⟩
              · rw [progress, files_, good.files]
                exact ⟨rfl, nonneg, early⟩
              · rw [progress, files_]
                exact ⟨desc, listed', isFile, some_, rfl⟩
            · rw [volume, progress]
              exact opened
            · rw [progress]
              exact nofun
          split
          case isTrue => exact whole _ rfl rfl rfl rfl
          case isFalse => exact whole _ rfl rfl rfl rfl
      case h_2 =>
        exact ⟨(good.of_volume holds).of_same rfl rfl rfl rfl rfl rfl rfl rfl, fun _ => rfl⟩

theorem Closed.updateLoop (opens : Opens Q files targetDir) (good : Closed Q files targetDir w)
    {entries : List (FileDescription × Nat)}
    (listed : ∀ e ∈ entries, files[e.2]? = some e.1 ∧ (e.2 : Int) < asI32 files.length) :
    Good Q files targetDir (w.updateLoop o entries).1 ∧
      ((w.updateLoop o entries).1.progress.fileHandle = none →
        (w.updateLoop o entries).1.progress.downloadFilePath = w.progress.downloadFilePath) := by
  induction entries generalizing w with
  | nil => exact ⟨good.toGood, fun _ => rfl⟩
  | cons entry rest ih =>
      obtain ⟨desc, i⟩ := entry
      obtain ⟨here, early⟩ := listed (desc, i) List.mem_cons_self
      have member : desc ∈ files := List.mem_of_getElem? here
      have later : ∀ e ∈ rest, files[e.2]? = some e.1 ∧ (e.2 : Int) < asI32 files.length :=
        fun e inside => listed e (List.mem_cons_of_mem _ inside)
      unfold Working.updateLoop
      cases kind : desc.kind with
      | file =>
          simp only
          split
          case isTrue =>
            obtain ⟨after, path⟩ :=
              ih (good.createEmpty (i := i) (o := o) opens.toPreserves member kind) later
            refine ⟨after, fun none_ => (path none_).trans ?_⟩
            rw [Working.progress, createEmpty_handle, Working.progress]
          case isFalse some_ =>
            have moved : Closed Q files targetDir
                (w.setProgress { w.progress with listIndex := i, offset := 0 }) :=
              ⟨good.of_closed rfl rfl good.closed good.holds, good.closed⟩
            exact moved.openNewWriter opens (Int.natCast_nonneg i) early here kind some_
      | directory =>
          obtain ⟨after, path⟩ :=
            ih (good.createDirectory (i := i) (o := o) opens.toPreserves member kind) later
          refine ⟨after, fun none_ => (path none_).trans ?_⟩
          rw [Working.progress, createDirectory_handle, Working.progress]
      | symlink => exact ih good later

theorem Good.settle (good : Good Q files targetDir w) : Good Q files targetDir w.settle := by
  unfold Working.settle
  split
  case isTrue closed =>
    have none_ : w.progress.fileHandle = none := Option.isNone_iff_eq_none.mp closed
    exact good.of_closed rfl rfl none_ good.holds
  case isFalse => exact good

theorem entriesLeft_listed (w : Working) : ∀ e ∈ w.entriesLeft,
    w.handle.files[e.2]? = some e.1 ∧ (e.2 : Int) < asI32 w.handle.files.length := by
  intro e member
  have taken := List.mem_of_mem_drop member
  refine ⟨List.mem_zipIdx_iff_getElem?.mp (List.mem_of_mem_take taken), ?_⟩
  obtain ⟨k, bound, rfl⟩ := List.getElem_of_mem taken
  rw [List.getElem_take, List.getElem_zipIdx]
  rw [List.length_take] at bound
  dsimp only
  omega

theorem settle_ready (w : Working) :
    w.settle.handle.isFinished = true ∨ w.settle.progress.fileHandle ≠ none := by
  unfold Working.settle
  split
  case isTrue => exact .inl (by simp [Working.setProgress, PasteTaskHandle.isFinished])
  case isFalse some_ => exact .inr (by simpa using some_)

/-- Between the events a task has a file open, unless it is finished or could not open its
    first one. -/
def Ready (w : Working) : Prop :=
  w.handle.isFinished = true ∨ w.progress.fileHandle ≠ none ∨ w.progress.downloadFilePath = []

/-- The invariant of `update_next`, which starts with a closed task or goes on with an open
    file. -/
theorem Good.updateNext (opens : Opens Q files targetDir) (good : Good Q files targetDir w)
    (start : w.progress.listIndex = -1 → w.progress.fileHandle = none) (size : Nat) :
    Good Q files targetDir (w.updateNext size o).1 ∧
      ((w.updateNext size o).2 = none ∨ w.progress.listIndex = -1 ∧ w.progress.downloadFilePath = [] →
        Ready (w.updateNext size o).1) := by
  unfold Working.updateNext
  split
  case isTrue finished => exact ⟨good, fun _ => .inl finished⟩
  case isFalse =>
    have counted : Good Q files targetDir
        (w.setProgress { w.progress with currentSize := wrap (w.progress.currentSize + size) }) :=
      good.of_same rfl rfl rfl rfl rfl rfl rfl rfl
    have index :
        (w.setProgress { w.progress with currentSize := wrap (w.progress.currentSize + size) }).progress.listIndex =
      w.progress.listIndex := rfl
    have path :
        (w.setProgress { w.progress with currentSize := wrap (w.progress.currentSize + size) }).progress.downloadFilePath =
      w.progress.downloadFilePath := rfl
    have writer :
        (w.setProgress { w.progress with currentSize := wrap (w.progress.currentSize + size) }).progress.fileHandle =
      w.progress.fileHandle := rfl
    generalize w.setProgress { w.progress with currentSize := wrap (w.progress.currentSize + size) } = w'
      at counted index path writer ⊢
    dsimp only
    split
    case isTrue =>
      have closed : Closed Q files targetDir (if w'.progress.listIndex = -1 then w' else w'.onDone o) ∧
          (w.progress.listIndex = -1 ∧ w.progress.downloadFilePath = [] →
            (if w'.progress.listIndex = -1 then w' else w'.onDone o).progress.downloadFilePath =
              []) := by
        rw [index]
        split
        case isTrue isStart =>
          exact ⟨⟨counted, writer.trans (start isStart)⟩, fun fresh => path.trans fresh.2⟩
        case isFalse later =>
          obtain ⟨done, none_⟩ := counted.onDone (o := o) opens.toPreserves
          exact ⟨⟨done, none_⟩, fun fresh => absurd fresh.1 later⟩
      generalize (if w'.progress.listIndex = -1 then w' else w'.onDone o) = w'' at closed ⊢
      obtain ⟨closed, empty⟩ := closed
      have loop := closed.updateLoop (o := o) opens
        (closed.files ▸ entriesLeft_listed w'')
      cases result : w''.updateLoop o w''.entriesLeft with
      | mk after error =>
          rw [result] at loop
          obtain ⟨good', kept⟩ := loop
          cases error with
          | some e =>
              refine ⟨good', ?_⟩
              rintro (no | fresh)
              · cases no
              · by_cases none_ : after.progress.fileHandle = none
                · exact .inr (.inr ((kept none_).trans (empty fresh)))
                · exact .inr (.inl none_)
          | none =>
              exact ⟨good'.settle, fun _ => (settle_ready after).imp id .inl⟩
    case isFalse =>
      have advanced : Good Q files targetDir (w'.setProgress
          { w'.progress with
            offset := wrap (w'.progress.offset + size)
            downloadFileCurrentSize := wrap (w'.progress.downloadFileCurrentSize + size) }) :=
        counted.of_same rfl rfl rfl rfl rfl rfl rfl rfl
      exact ⟨advanced.settle, fun _ => (settle_ready _).imp id .inl⟩

theorem Good.handleFileContentsResponse (opens : Opens Q files targetDir)
    (good : Good Q files targetDir w) (data : Bytes) :
    Good Q files targetDir (w.handleFileContentsResponse data o).1 ∧
      ((w.handleFileContentsResponse data o).2 = none →
        Ready (w.handleFileContentsResponse data o).1) := by
  unfold Working.handleFileContentsResponse
  cases opened : w.progress.fileHandle with
  | none => exact ⟨good, nofun⟩
  | some writer =>
      obtain ⟨⟨holds, located, file⟩, place⟩ := opens.written (o := o) data (good.present opened)
      dsimp only
      generalize writer.write w.volume data o = written at holds located file place ⊢
      obtain ⟨v, writer', ok⟩ := written
      dsimp only at holds located file place ⊢
      have good' : Good Q files targetDir
          { w.setProgress { w.progress with fileHandle := some writer' } with volume := v } := by
        refine ⟨good.files, good.targetDir, ?_, holds⟩
        intro other same
        cases same
        obtain ⟨-, -, index, desc⟩ := good.open_ writer opened
        exact ⟨place ▸ located, place ▸ file, index, desc⟩
      have started : w.progress.listIndex ≠ -1 := by
        have := (good.open_ writer opened).index.2.1
        omega
      split
      case isTrue =>
        obtain ⟨after, ready⟩ :=
          good'.updateNext (o := o) opens (fun start => absurd start started) data.length
        exact ⟨after, fun fine => ready (.inl fine)⟩
      case isFalse => exact ⟨good', nofun⟩

theorem Good.onFinished (preserves : Preserves Q files targetDir) (good : Good Q files targetDir w) :
    Good Q files targetDir (w.onFinished o) ∧ (w.onFinished o).progress.fileHandle = none := by
  have ended : Good Q files targetDir
      (if w.progress.error.isSome then w.onCancelled o o.removeAgain else w.onDone o) ∧
      (if w.progress.error.isSome then w.onCancelled o o.removeAgain else w.onDone o).progress.fileHandle =
        none := by
    split
    case isTrue => exact good.onCancelled preserves _
    case isFalse => exact good.onDone preserves
  unfold Working.onFinished
  dsimp only
  generalize (if w.progress.error.isSome then w.onCancelled o o.removeAgain else w.onDone o) =
    w' at ended ⊢
  split
  case isTrue => exact ⟨ended.1.of_same rfl rfl rfl rfl rfl rfl rfl rfl, ended.2⟩
  case isFalse => exact ended

theorem isFinished_onDone (w : Working) (o : Outcomes) :
    (w.onDone o).handle.isFinished = w.handle.isFinished := by
  unfold Working.onDone
  split
  case h_1 => rfl
  case h_2 writer opened =>
    split
    case isTrue => rfl
    case isFalse =>
      have handle := closeWriter_handle w writer o
      dsimp only
      generalize w.closeWriter writer o = w' at handle ⊢
      have closed : w'.handle.isFinished = w.handle.isFinished := by
        rw [handle]
        rfl
      split
      case h_1 => exact closed
      case h_2 =>
        split
        case h_1 => exact closed
        case h_2 =>
          unfold Working.renameDownload
          dsimp only
          split <;> exact closed

theorem isFinished_onFinished (finished : w.handle.isFinished = true) :
    (w.onFinished o).handle.isFinished = true := by
  have ended : (if w.progress.error.isSome then w.onCancelled o o.removeAgain
      else w.onDone o).handle.isFinished = true := by
    split
    case isTrue => exact finished
    case isFalse => rw [isFinished_onDone, finished]
  unfold Working.onFinished
  dsimp only
  generalize (if w.progress.error.isSome then w.onCancelled o o.removeAgain else w.onDone o) =
    w' at ended ⊢
  split
  case isTrue => simp [Working.setProgress, PasteTaskHandle.isFinished]
  case isFalse => exact ended

/-- Between the events the task is in order, and a finished one has no file open. -/
structure InOrder (Q : Text → Volume → Prop) (files : List FileDescription) (targetDir : Text)
    (w : Working) : Prop extends Good Q files targetDir w where
  ready : Ready w
  finished : w.handle.isFinished = true → w.progress.fileHandle = none

namespace State

variable {s : State} {h : PasteTaskHandle} {r : FileContentsResponse}

/-- The task that the state holds is in order. -/
def Holds (P : Working → Prop) (s : State) : Prop := ∀ h ∈ s.task, P (s.working h)

theorem holds_put {P : Working → Prop} {s' : State} (task : s'.task = some w.handle)
    (volume : s'.volume = w.volume) (notes : s'.notes = w.notes) (holds : P w) : Holds P s' := by
  intro h is
  rw [task, Option.mem_some_iff] at is
  subst is
  rw [working, volume, notes]
  exact holds

/-! A task stays until the next one is started. -/

@[simp] theorem isSome_request : (s.request w o).task.isSome = true := by
  unfold request
  split <;> rfl

@[simp] theorem isSome_goOn : (s.goOn w o).task.isSome = true := by
  unfold goOn
  split
  case isTrue => rfl
  case isFalse => exact isSome_request

theorem isSome_start : (s.start targetDir files o).task.isSome = true := by
  unfold start
  split
  case isTrue busy =>
    cases task : s.task with
    | none => simp [task] at busy
    | some h => rfl
  case isFalse =>
    dsimp only
    split
    case isTrue => rfl
    case isFalse => exact isSome_request

theorem isSome_response (some_ : s.task.isSome = true) : (s.response r o).task.isSome = true := by
  unfold response
  split
  case h_1 => exact some_
  case h_2 =>
    split_ifs
    · exact some_
    · exact some_
    · exact isSome_goOn
    · split
      case h_1 => exact some_
      case h_2 => split_ifs <;> (try split) <;> simp [some_]

theorem isSome_step (e : Event) (some_ : s.task.isSome = true) : (s.step e).task.isSome = true := by
  cases e with
  | start targetDir files o => exact isSome_start
  | cancel o =>
      simp only [step, cancel]
      split
      case h_1 => exact some_
      case h_2 => rfl
  | response r o => exact isSome_response some_
  | timeout late o =>
      simp only [step, timeout]
      split
      case h_1 => exact some_
      case h_2 => split <;> simp [some_, put]
  | other p n =>
      simp only [step, other]
      split <;> exact some_

theorem ended (good : Good Q files targetDir w) (closed : w.progress.fileHandle = none)
    (finished : w.handle.isFinished = true) : InOrder Q files targetDir w :=
  ⟨good, .inl finished, fun _ => closed⟩

theorem holds_request (preserves : Preserves Q files targetDir) (good : Good Q files targetDir w)
    (ready : Ready w) (unfinished : ¬ w.handle.isFinished = true) :
    Holds (InOrder Q files targetDir) (s.request w o) := by
  unfold request
  split
  case h_1 =>
    exact holds_put rfl rfl rfl ⟨good, ready, fun finished => absurd finished unfinished⟩
  case h_2 e _ =>
    obtain ⟨failed, closed⟩ := good.onError (o := o) preserves e
    exact holds_put rfl rfl rfl (ended failed closed (by
      simp [Working.onError, Working.onCancelled, Working.setProgress, Working.progress,
        PasteTaskHandle.isFinished]))

theorem holds_goOn (preserves : Preserves Q files targetDir) (good : Good Q files targetDir w)
    (ready : Ready w) : Holds (InOrder Q files targetDir) (s.goOn w o) := by
  unfold goOn
  split
  case isTrue finished =>
    obtain ⟨after, closed⟩ := good.onFinished (o := o) preserves
    exact holds_put rfl rfl rfl (ended after closed (isFinished_onFinished finished))
  case isFalse unfinished => exact holds_request preserves good ready unfinished

theorem start_busy {o : Outcomes} (busy : ¬ ∀ h ∈ s.task, h.isFinished = true) :
    s.start targetDir files o = s := by
  unfold start
  rw [if_pos]
  cases task : s.task with
  | none => simp [task] at busy
  | some h => simpa [task] using busy

theorem holds_start (opens : Opens Q files targetDir) (volume : Q [] s.volume)
    (free : ∀ h ∈ s.task, h.isFinished = true) :
    Holds (InOrder Q files targetDir) (s.start targetDir files o) := by
  have free' : s.task.any (!·.isFinished) = false := by
    cases task : s.task with
    | none => rfl
    | some h => simp [free h task]
  unfold start
  rw [if_neg (by simp [free'])]
  dsimp only
  have fresh : Good Q files targetDir
      ⟨⟨{ totalSize := wrap (files.map (·.size)).sum }, targetDir, files⟩, s.volume, []⟩ :=
    ⟨rfl, rfl, nofun, volume⟩
  obtain ⟨good, ready⟩ := fresh.updateNext (o := o) opens (fun _ => rfl) 0
  have ready := ready (.inr ⟨rfl, rfl⟩)
  split
  case isTrue finished =>
    obtain ⟨after, closed⟩ := good.onFinished (o := o) opens.toPreserves
    exact holds_put rfl rfl rfl (ended after closed (isFinished_onFinished finished))
  case isFalse unfinished => exact holds_request opens.toPreserves good ready unfinished

theorem holds_cancel (preserves : Preserves Q files targetDir)
    (inOrder : Holds (InOrder Q files targetDir) s) :
    Holds (InOrder Q files targetDir) (s.cancel o) := by
  unfold cancel
  split
  case h_1 => exact inOrder
  case h_2 h is =>
    have good : Good Q files targetDir
        ((s.working h).setProgress { (s.working h).progress with isCanceled := true }) :=
      (inOrder h is).of_same rfl rfl rfl rfl rfl rfl rfl rfl
    obtain ⟨after, closed⟩ := good.onCancelled (o := o) preserves o.remove
    exact holds_put rfl rfl rfl (ended after closed rfl)

theorem holds_response (opens : Opens Q files targetDir)
    (inOrder : Holds (InOrder Q files targetDir) s) :
    Holds (InOrder Q files targetDir) (s.response r o) := by
  unfold response
  split
  case h_1 => exact inOrder
  case h_2 h is =>
    have now := inOrder h is
    split
    case isTrue => exact inOrder
    case isFalse unfinished =>
      split
      case isTrue => exact inOrder
      case isFalse =>
        split
        case isTrue =>
          unfold failedResponse
          dsimp only
          split
          case isTrue =>
            exact holds_goOn opens.toPreserves (now.of_same rfl rfl rfl rfl rfl rfl rfl rfl)
              (.inl (by simp [Working.setProgress, PasteTaskHandle.isFinished]))
          case isFalse => exact holds_goOn opens.toPreserves now.toGood now.ready
        case isFalse =>
          split
          case h_1 => exact inOrder
          case h_2 =>
            split
            case isTrue => exact inOrder
            case isFalse =>
              have handled := now.handleFileContentsResponse (o := o) opens r.requestedData
              split
              case h_1 w same =>
                rw [same] at handled
                exact holds_goOn opens.toPreserves handled.1 (handled.2 rfl)
              case h_2 w e same =>
                rw [same] at handled
                obtain ⟨failed, closed⟩ := handled.1.onError (o := o) opens.toPreserves e
                exact holds_goOn opens.toPreserves failed (.inl (by
                  simp [Working.onError, Working.onCancelled, Working.setProgress, Working.progress,
                    PasteTaskHandle.isFinished]))

theorem holds_timeout (preserves : Preserves Q files targetDir) {late : Bool}
    (inOrder : Holds (InOrder Q files targetDir) s) :
    Holds (InOrder Q files targetDir) (s.timeout late o) := by
  unfold timeout
  split
  case h_1 => exact inOrder
  case h_2 h is =>
    split
    case isTrue => exact inOrder
    case isFalse =>
      dsimp only
      have good : Good Q files targetDir ((s.working h).setProgress { (s.working h).progress with
          error := some (.invalidRequest "Failed to read file contents") }) :=
        (inOrder h is).of_same rfl rfl rfl rfl rfl rfl rfl rfl
      obtain ⟨after, closed⟩ := good.onFinished (o := o) preserves
      exact holds_put rfl rfl rfl (ended after closed (isFinished_onFinished (by
        simp [Working.setProgress, PasteTaskHandle.isFinished])))

end State

end RemoteControl.Clipboard.Paste
