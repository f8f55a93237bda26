import RemoteControl.Clipboard.PasteContainment

/-! # What a download leaves

As long as nothing fails unnoticed, the bytes that are handed to a writer are in its file and
its buffer, in this order, and all of them are in the file once it has got its name. Nothing
else that is on the volume goes away.
-/

namespace RemoteControl.Clipboard.Paste

open Transfer (Text Place)

/-- A failure that is not reported. -/
def Note.isFailure : Note → Bool
  | .renamed _ _ => false
  | _ => true

def Working.Quiet (w : Working) : Prop := ∀ n ∈ w.notes, n.isFailure = false

/-- What is there stays, apart from what is at `busy`. -/
structure Grows (busy : Option Place) (v v' : Volume) : Prop where
  keeps : v.Keeps v'
  nodes : ∀ p n, busy ≠ some p → v.tree.node p = some n → v'.tree.node p = some n

/-- The bytes are in the file of the writer and, as far as they are not yet, in its buffer. -/
def Holding (writer : BufWriter) (v : Volume) (bytes : Bytes) : Prop :=
  ∃ content modified, v.tree.node writer.place = some (.file content modified) ∧
    content ++ writer.buffer = bytes

/-- The names that an entry may get. -/
def IsName (targetDir : Text) (desc : FileDescription) (name : Text) : Prop :=
  name = join targetDir desc.name ∨ ∃ i, name = numbered (join targetDir desc.name) desc.kind i

/-- The file of the entry is at the place, under one of its names. -/
def Arrived (v : Volume) (targetDir : Text) (desc : FileDescription) (bytes : Bytes) (p : Place) :
    Prop :=
  ∃ name modified, IsName targetDir desc name ∧ v.locate name = some p ∧
    v.tree.node p = some (.file bytes modified)

section Volumes

variable {busy busy' : Option Place} {v v' v'' : Volume} {p : Place} {writer : BufWriter} {bytes : Bytes}

theorem Grows.refl : Grows busy v v := ⟨.refl, fun _ _ _ => id⟩

theorem Grows.trans (first : Grows busy v v') (second : Grows busy v' v'') : Grows busy v v'' :=
  ⟨first.keeps.trans second.keeps,
    fun p n other there => second.nodes p n other (first.nodes p n other there)⟩

/-- Without an exception more is said. -/
theorem Grows.of_none (grows : Grows none v v') : Grows busy v v' :=
  ⟨grows.keeps, fun p n _ => grows.nodes p n nofun⟩

theorem grows_put (free : v.tree.node p = none ∨ busy = some p) (noDir : v.tree.node p ≠ some .dir)
    (n : Option Node) : Grows busy v { v with tree := v.tree.put p n } where
  keeps := Volume.keeps_put noDir n
  nodes q m other there := by
    have different : q ≠ p := by
      rintro rfl
      rcases free with free | same
      · simp [free] at there
      · exact other same
    exact (FileTree.put_node_of_ne v.tree n different).trans there

theorem grows_createDirAll (path : Text) (upTo : Option Nat) :
    Grows busy v (v.createDirAll path upTo).1 :=
  ⟨Volume.keeps_createDirAll, fun _ _ _ => Volume.createDirAll_node_of_some⟩

theorem grows_appendTo (data : Bytes) : Grows (some p) v { v with tree := appendTo v.tree p data } where
  keeps := Volume.keeps_appendTo
  nodes _ _ other there := (appendTo_node_of_ne fun same => other (congrArg some same.symm)).trans there

theorem holding_flushBuf (holding : Holding writer v bytes) (fault : Option Nat) :
    Holding (writer.flushBuf v fault).2 (writer.flushBuf v fault).1 bytes := by
  obtain ⟨content, modified, file, rfl⟩ := holding
  refine ⟨_, 0, appendTo_node_self file, ?_⟩
  simp [BufWriter.flushBuf, List.append_assoc]

theorem grows_flushBuf (fault : Option Nat) : Grows (some writer.place) v (writer.flushBuf v fault).1 :=
  grows_appendTo _

/-- Data that was taken as a whole comes after what was there. -/
theorem holding_write (holding : Holding writer v bytes) {data : Bytes} {o : Outcomes}
    {written : Volume × BufWriter × Bool} (same : writer.write v data o = written)
    (ok : written.2.2 = true) :
    Holding written.2.1 written.1 (bytes ++ data) ∧ Grows (some writer.place) v written.1 ∧
      written.2.1.place = writer.place := by
  subst same
  have buffered {writer' : BufWriter} {v' : Volume} (held : Holding writer' v' bytes) :
      Holding { writer' with buffer := writer'.buffer ++ data } v' (bytes ++ data) := by
    obtain ⟨content, modified, file, rfl⟩ := held
    exact ⟨content, modified, file, by simp⟩
  unfold BufWriter.write at ok ⊢
  dsimp only at ok ⊢
  split at ok
  case isTrue small =>
    rw [if_pos small]
    exact ⟨buffered holding, .refl, rfl⟩
  case isFalse large =>
    rw [if_neg large]
    have flushed : ∃ v' writer', (if BufWriter.capacity - writer.buffer.length < data.length then
        writer.flushBuf v o.writeBuffer else (v, writer)) = (v', writer') ∧ Holding writer' v' bytes ∧
        Grows (some writer.place) v v' ∧ writer'.place = writer.place ∧
        (¬ BufWriter.capacity - writer.buffer.length < data.length →
          writer'.buffer = writer.buffer) := by
      split
      case isTrue beyond =>
        exact ⟨_, _, rfl, holding_flushBuf holding _, grows_flushBuf _, rfl, fun no => absurd beyond no⟩
      case isFalse => exact ⟨_, _, rfl, holding, .refl, rfl, fun _ => rfl⟩
    obtain ⟨v', writer', same, held, grows, place, kept⟩ := flushed
    rw [same] at ok ⊢
    dsimp only at ok ⊢
    split_ifs at ok ⊢ with left direct
    · -- past the buffer, which is empty by now
      have empty : writer'.buffer = [] := by
        by_cases beyond : BufWriter.capacity - writer.buffer.length < data.length
        · by_contra some_
          exact left ⟨beyond, some_⟩
        · have none_ : writer.buffer.length = 0 := by
            have := Nat.lt_of_not_le (fun le : BufWriter.capacity ≤ 0 => absurd le (by decide))
            omega
          rw [kept beyond, List.eq_nil_of_length_eq_zero none_]
      obtain ⟨content, modified, file, rfl⟩ := held
      have all : data.take (o.writeData.getD data.length) = data :=
        List.take_of_length_le (of_decide_eq_true ok)
      have grown :
          Grows (some writer'.place) v' { v' with tree := appendTo v'.tree writer'.place data } :=
        grows_appendTo data
      rw [all]
      refine ⟨⟨_, 0, appendTo_node_self file, by simp [empty]⟩, grows.trans (place ▸ grown), place⟩
    · exact ⟨buffered held, grows, place⟩

end Volumes

section Operations

variable {w : Working} {writer : BufWriter} {desc : FileDescription} {o : Outcomes} {bytes : Bytes} {i : Nat}

theorem Working.Quiet.flushed (quiet : w.Quiet) : .notFlushed ∉ w.notes :=
  fun member => absurd (quiet .notFlushed member) (by decide)

theorem Working.Quiet.of_suffix {w' : Working} (quiet : w'.Quiet) (earlier : w.notes <:+ w'.notes) :
    w.Quiet :=
  fun n member => quiet n (earlier.subset member)

/-- The file has got its name, and the task knows no download file any more. -/
structure Landed (w w' : Working) (writer : BufWriter) (desc : FileDescription) (bytes : Bytes) :
    Prop where
  handle : w'.handle =
    { w.handle with
      progress := { w.progress with
        fileHandle := none
        downloadFilePath := []
        downloadFileIndex := invalidFileIndex } }
  notes : w'.notes = .renamed w.progress.downloadFileIndex bytes :: w.notes
  grows : Grows (some writer.place) w.volume w'.volume
  arrived : ∃ p, w.volume.tree.node p = none ∧ Arrived w'.volume w.handle.targetDir desc bytes p

theorem closeWriter_notes (w : Working) (writer : BufWriter) (o : Outcomes) :
    w.notes <:+ (w.closeWriter writer o).notes := by
  unfold Working.closeWriter
  dsimp only
  split
  case isTrue => exact List.suffix_refl _
  case isFalse => exact List.suffix_cons _ _

/-- All of the bytes are in the file when flushing has not failed. -/
theorem closeWriter_holding (holding : Holding writer w.volume bytes)
    (flushed : .notFlushed ∉ (w.closeWriter writer o).notes) :
    (∃ modified, (w.closeWriter writer o).volume.tree.node writer.place = some (.file bytes modified)) ∧
      Grows (some writer.place) w.volume (w.closeWriter writer o).volume ∧
      (w.closeWriter writer o).notes = w.notes := by
  have held := holding_flushBuf (holding_flushBuf holding o.flush) o.drop
  have grows : Grows (some writer.place) w.volume
      ((writer.flushBuf w.volume o.flush).2.flushBuf (writer.flushBuf w.volume o.flush).1 o.drop).1 :=
    (grows_flushBuf o.flush).trans (grows_appendTo _)
  unfold Working.closeWriter at flushed ⊢
  dsimp only at flushed ⊢
  split at flushed
  case isTrue empty =>
    rw [if_pos empty]
    obtain ⟨content, modified, file, rfl⟩ := held
    rw [empty, List.append_nil]
    exact ⟨⟨modified, file⟩, grows, rfl⟩
  case isFalse => exact absurd (List.mem_cons_self ..) flushed

theorem isName_of_getNewFilename {v : Volume} {targetDir name : Text}
    (found : getNewFilename v targetDir desc = some name) : IsName targetDir desc name :=
  (getNewFilename_cases found).2

theorem renameDownload_notes (w : Working) (writer : BufWriter) (target : Text) (o : Outcomes) :
    w.notes <:+ (w.renameDownload writer target o).notes := by
  unfold Working.renameDownload
  dsimp only
  split <;> exact List.suffix_cons _ _

theorem onDone_notes (w : Working) (o : Outcomes) : w.notes <:+ (w.onDone o).notes := by
  unfold Working.onDone
  split
  case h_1 => exact List.suffix_refl _
  case h_2 writer _ =>
    split
    case isTrue => exact List.suffix_refl _
    case isFalse =>
      have closed := closeWriter_notes w writer o
      dsimp only
      split
      case h_1 => exact closed
      case h_2 =>
        split
        case h_1 => exact closed.trans (List.suffix_cons _ _)
        case h_2 => exact closed.trans (renameDownload_notes ..)

/-- The renamed file is at the new name and nothing else has changed. -/
theorem renameDownload_landed {modified : Nat} {target : Text}
    (located : w.volume.locate w.progress.downloadFilePath = some writer.place)
    (file : w.volume.tree.node writer.place = some (.file bytes modified))
    (found : getNewFilename w.volume w.handle.targetDir desc = some target)
    (quiet : (w.renameDownload writer target o).Quiet) :
    (w.renameDownload writer target o).handle =
        { w.handle with
          progress :=
            { w.progress with downloadFilePath := [], downloadFileIndex := invalidFileIndex } } ∧
      (w.renameDownload writer target o).notes =
        .renamed w.progress.downloadFileIndex bytes :: w.notes ∧
      Grows (some writer.place) w.volume (w.renameDownload writer target o).volume ∧
      ∃ p ≠ writer.place, w.volume.tree.node p = none ∧
        Arrived (w.renameDownload writer target o).volume w.handle.targetDir desc bytes p := by
  unfold Working.renameDownload at quiet ⊢
  dsimp only at quiet ⊢
  split at quiet
  case h_2 => exact absurd (quiet .notRenamed (List.mem_cons_self ..)) (by decide)
  case h_1 v renamed =>
    split at renamed
    case isFalse => cases renamed
    case isTrue =>
      obtain ⟨plain, b, located', noDir, rfl⟩ := Volume.of_rename located file renamed
      have free : w.volume.tree.node b = none :=
        Volume.free_of_exists (getNewFilename_cases found).1 located' plain
      have different : b ≠ writer.place := by
        rintro rfl
        simp [file] at free
      have gone : Grows (some writer.place) w.volume
          { w.volume with tree := w.volume.tree.put writer.place none } :=
        grows_put (.inr rfl) (by simp [file]) none
      have free' : (w.volume.tree.put writer.place none).node b = none :=
        (FileTree.put_node_of_ne w.volume.tree none different).trans free
      have grows := gone.trans (grows_put (.inl free') (by simp [free']) (some (.file bytes modified)))
      have content : w.contentAt writer.place = bytes := by simp [Working.contentAt, file]
      refine ⟨rfl, ?_, grows, b, different, free, target, modified, isName_of_getNewFilename found,
        grows.keeps.locate located', FileTree.put_node_self ..⟩
      simp [Working.note, Working.setProgress, content]

theorem onDone_landed (opened : w.progress.fileHandle = some writer) (open_ : OpenAt w writer)
    (holding : Holding writer w.volume bytes)
    (listed : w.handle.files[w.progress.listIndex.toNat]? = some desc) (quiet : (w.onDone o).Quiet) :
    Landed w (w.onDone o) writer desc bytes := by
  obtain ⟨located, -, ⟨index, nonneg, -⟩, -⟩ := open_
  have valid : w.progress.downloadFileIndex ≠ invalidFileIndex := by
    rw [index, invalidFileIndex]
    omega
  unfold Working.onDone at quiet ⊢
  simp only [opened, if_neg valid] at quiet ⊢
  have handle := closeWriter_handle w writer o
  have closed := closeWriter_holding (o := o) holding
  generalize w.closeWriter writer o = w' at handle closed quiet ⊢
  have listed' : w'.handle.files[w'.progress.downloadFileIndex.toNat]? = some desc := by
    rw [Working.progress, handle]
    simpa [Working.setProgress, index] using listed
  simp only [listed'] at quiet ⊢
  cases found : getNewFilename w'.volume w'.handle.targetDir desc with
  | none =>
      simp only [found] at quiet
      exact absurd (quiet .noNewName (List.mem_cons_self ..)) (by decide)
  | some target =>
      simp only [found] at quiet ⊢
      obtain ⟨⟨modified, file⟩, grows, notes⟩ :=
        closed (quiet.of_suffix (renameDownload_notes ..)).flushed
      have path : w'.progress.downloadFilePath = w.progress.downloadFilePath := by
        rw [Working.progress, handle]
        rfl
      obtain ⟨handle', notes', grows', p, different, free, arrived⟩ :=
        renameDownload_landed (path ▸ grows.keeps.locate located) file found quiet
      have free' : w.volume.tree.node p = none := by
        by_contra some_
        obtain ⟨n, there⟩ := Option.ne_none_iff_exists'.mp some_
        rw [grows.nodes p n (fun same => different (Option.some.inj same).symm) there] at free
        cases free
      have dir : w'.handle.targetDir = w.handle.targetDir := by
        rw [handle]
        rfl
      refine ⟨?_, ?_, grows.trans grows', p, free', dir ▸ arrived⟩
      · rw [handle', Working.progress, handle]
        rfl
      · rw [notes', notes, Working.progress, handle]
        rfl

theorem createEmpty_notes (w : Working) (i : Nat) (desc : FileDescription) (o : Outcomes) :
    w.notes <:+ (w.createEmpty i desc o).notes := by
  unfold Working.createEmpty
  split
  case h_1 => exact List.suffix_cons _ _
  case h_2 =>
    split
    case h_1 => exact List.suffix_refl _
    case h_2 => exact List.suffix_cons _ _

theorem createEmpty_arrived (quiet : (w.createEmpty i desc o).Quiet) :
    (w.createEmpty i desc o).notes = w.notes ∧ Grows none w.volume (w.createEmpty i desc o).volume ∧
      ∃ p, w.volume.tree.node p = none ∧
        Arrived (w.createEmpty i desc o).volume w.handle.targetDir desc [] p := by
  unfold Working.createEmpty at quiet ⊢
  cases found : getNewFilename w.volume w.handle.targetDir desc with
  | none =>
      simp only [found] at quiet
      exact absurd (quiet (.notCreated i) (List.mem_cons_self ..)) (by simp [Note.isFailure])
  | some path =>
      simp only [found] at quiet ⊢
      split at quiet
      case h_2 =>
        exact absurd (quiet (.notCreated i) (List.mem_cons_self ..)) (by simp [Note.isFailure])
      case h_1 p v created =>
        split at created
        case isFalse => cases created
        case isTrue =>
          obtain ⟨plain, located, noDir, rfl⟩ := Volume.of_create created
          have free : w.volume.tree.node p = none :=
            Volume.free_of_exists (getNewFilename_cases found).1 located plain
          have grows : Grows none w.volume
              { w.volume with tree := w.volume.tree.put p (some (.file [] 0)) } :=
            grows_put (.inl free) noDir _
          exact ⟨rfl, grows, p, free, path, 0, isName_of_getNewFilename found,
            grows.keeps.locate located,
            FileTree.put_node_self ..⟩

theorem createDirectory_notes (w : Working) (i : Nat) (desc : FileDescription) (o : Outcomes) :
    w.notes <:+ (w.createDirectory i desc o).notes := by
  unfold Working.createDirectory
  dsimp only
  generalize (if w.volume.exists_ (join w.handle.targetDir desc.name) then w.volume
    else (w.volume.createDirAll (join w.handle.targetDir desc.name) (o.createDir i)).1) = v
  split
  case isTrue => exact List.suffix_refl _
  case isFalse => exact List.suffix_cons _ _

theorem createDirectory_made (quiet : (w.createDirectory i desc o).Quiet) :
    (w.createDirectory i desc o).notes = w.notes ∧
      Grows none w.volume (w.createDirectory i desc o).volume ∧
      (w.createDirectory i desc o).volume.isDir (join w.handle.targetDir desc.name) = true := by
  have grows :
      Grows none w.volume (if w.volume.exists_ (join w.handle.targetDir desc.name) then w.volume
      else (w.volume.createDirAll (join w.handle.targetDir desc.name) (o.createDir i)).1) := by
    split
    case isTrue => exact .refl
    case isFalse => exact grows_createDirAll ..
  unfold Working.createDirectory at quiet ⊢
  dsimp only at quiet ⊢
  generalize (if w.volume.exists_ (join w.handle.targetDir desc.name) then w.volume
    else (w.volume.createDirAll (join w.handle.targetDir desc.name) (o.createDir i)).1) =
      v at grows quiet ⊢
  split at quiet
  case isTrue isDir =>
    rw [if_pos isDir]
    exact ⟨rfl, grows, isDir⟩
  case isFalse =>
    exact absurd (quiet (.noDirectory i) (List.mem_cons_self ..)) (by simp [Note.isFailure])

theorem openNewWriter_notes (w : Working) (o : Outcomes) : w.notes <:+ (w.openNewWriter o).1.notes := by
  unfold Working.openNewWriter
  dsimp only
  split
  case h_1 => exact List.suffix_refl _
  case h_2 =>
    split
    case h_1 => exact List.suffix_refl _
    case h_2 path _ =>
      generalize (if w.volume.exists_ (parent path) then (w.volume, true)
        else w.volume.createDirAll (parent path) o.createParent) = dirs
      split
      case isTrue => exact List.suffix_refl _
      case isFalse =>
        split
        case h_1 =>
          split
          case isTrue => exact List.suffix_cons _ _
          case isFalse => exact List.suffix_refl _
        case h_2 => exact List.suffix_refl _

/-- A file has been opened where nothing was. -/
structure Opened (w w' : Working) (p : Place) (desc : FileDescription) : Prop where
  files : w'.handle.files = w.handle.files
  targetDir : w'.handle.targetDir = w.handle.targetDir
  progress : ∃ path, w'.progress = { w.progress with
    downloadFileIndex := w.progress.listIndex
    downloadFileSize := desc.size
    downloadFilePath := path
    downloadFileCurrentSize := 0
    fileHandle := some { place := p } }
  notes : w'.notes = w.notes
  grows : Grows none w.volume w'.volume
  free : w.volume.tree.node p = none
  file : w'.volume.tree.node p = some (.file [] 0)

theorem openNewWriter_opened (listed : w.handle.files[w.progress.listIndex.toNat]? = some desc)
    (quiet : (w.openNewWriter o).1.Quiet) (fine : (w.openNewWriter o).2 = none) :
    (w.openNewWriter o).1.progress.error.isSome = true ∨ ∃ p,
      Opened w (w.openNewWriter o).1 p desc := by
  unfold Working.openNewWriter at quiet fine ⊢
  simp only [listed] at quiet fine ⊢
  cases found : getFirstFilename w.volume
    (join w.handle.targetDir desc.name ++ '.' :: downloadExtension)
    desc.kind with
  | none => simp [found] at fine
  | some path =>
    simp only [found] at quiet fine ⊢
    have made : Grows none w.volume (if w.volume.exists_ (parent path) then (w.volume, true)
        else w.volume.createDirAll (parent path) o.createParent).1 := by
      split
      case isTrue => exact .refl
      case isFalse => exact grows_createDirAll ..
    generalize (if w.volume.exists_ (parent path) then (w.volume, true)
      else w.volume.createDirAll (parent path) o.createParent) = dirs at made quiet fine ⊢
    obtain ⟨v, made_⟩ := dirs
    dsimp only at made quiet fine ⊢
    split at fine
    case isTrue => cases fine
    case isFalse ok =>
      rw [if_neg ok] at quiet ⊢
      split at quiet
      case h_2 => exact .inl rfl
      case h_1 p v' created =>
        right
        split at created
        case isFalse => cases created
        case isTrue =>
          obtain ⟨-, -, noDir, rfl⟩ := Volume.of_create created
          cases there : v.tree.exists_ p with
          | true =>
              rw [if_pos there] at quiet
              exact absurd (quiet (.truncated p) (List.mem_cons_self ..)) (by simp [Note.isFailure])
          | false =>
              have free : v.tree.node p = none := by simpa [FileTree.exists_] using there
              have free' : w.volume.tree.node p = none := by
                by_contra some_
                obtain ⟨n, before⟩ := Option.ne_none_iff_exists'.mp some_
                rw [made.nodes p n nofun before] at free
                cases free
              have grows : Grows none w.volume { v with tree := v.tree.put p (some (.file [] 0)) } :=
                made.trans (grows_put (.inl free) noDir _)
              simp only [Bool.false_eq_true, if_false]
              exact ⟨p, rfl, rfl, ⟨path, rfl⟩, rfl, grows, free', FileTree.put_node_self ..⟩

theorem updateLoop_notes (w : Working) (o : Outcomes) (entries : List (FileDescription × Nat)) :
    w.notes <:+ (w.updateLoop o entries).1.notes := by
  induction entries generalizing w with
  | nil => exact List.suffix_refl _
  | cons entry rest ih =>
      obtain ⟨desc, i⟩ := entry
      unfold Working.updateLoop
      split
      case h_1 =>
        split
        case isTrue => exact (createEmpty_notes ..).trans (ih _)
        case isFalse =>
          exact openNewWriter_notes (w.setProgress { w.progress with listIndex := i, offset := 0 }) o
      case h_2 => exact (createDirectory_notes ..).trans (ih _)
      case h_3 => exact ih _

theorem settle_notes (w : Working) : w.settle.notes = w.notes := by
  unfold Working.settle
  split <;> rfl

/-- The task after data was written to the open file. -/
def written (w : Working) (v : Volume) (writer : BufWriter) : Working :=
  { w.setProgress { w.progress with fileHandle := some writer } with volume := v }

theorem openAt_written {writer writer' : BufWriter} {v : Volume} {bytes : Bytes}
    (open_ : OpenAt w writer)
    (grows : Grows (some writer.place) w.volume v) (place : writer'.place = writer.place)
    (holding : Holding writer' v bytes) :
    OpenAt (written w v writer') writer' := by
  obtain ⟨content, modified, file, -⟩ := holding
  exact ⟨place ▸ grows.keeps.locate open_.located, ⟨content, modified, file⟩, open_.index, open_.desc⟩

end Operations

/-- The answer is for the current file of the task. -/
def Accepts (h : PasteTaskHandle) (r : FileContentsResponse) : Prop :=
  h.isFinished = false ∧ r.streamId.toInt = h.progress.listIndex ∧ r.msgFlags = 1 ∧
    ∃ file, h.files[h.progress.listIndex.toNat]? = some file ∧ file.connId = r.connId

/-- The answer tells of an error with the current file. -/
def Refuses (h : PasteTaskHandle) (r : FileContentsResponse) : Prop :=
  h.isFinished = false ∧ r.streamId.toInt = h.progress.listIndex ∧ r.msgFlags ≠ 1

/-- What an accepted answer leads to. -/
def State.accepted (s : State) (h : PasteTaskHandle) (r : FileContentsResponse) (o : Outcomes) :
    State :=
  match (s.working h).handleFileContentsResponse r.requestedData o with
  | (w, none) => s.goOn w o
  | (w, some e) => s.goOn (w.onError e o) o

theorem State.response_cases (s : State) (r : FileContentsResponse) (o : Outcomes) :
    (∀ h ∈ s.task, ¬ Accepts h r ∧ ¬ Refuses h r) ∧ s.response r o = s ∨
      (∃ h, s.task = some h ∧ Refuses h r ∧ s.response r o = s.failedResponse (s.working h) r o) ∨
      ∃ h, s.task = some h ∧ Accepts h r ∧ s.response r o = s.accepted h r o := by
  unfold State.response
  cases task : s.task with
  | none => exact .inl ⟨fun _ is => absurd is (Option.not_mem_none _), rfl⟩
  | some h =>
      dsimp only
      by_cases finished : h.isFinished = true
      · refine .inl ⟨?_, if_pos finished⟩
        rintro _ ⟨⟩
        simp [Accepts, Refuses, finished]
      · rw [if_neg finished]
        by_cases index : r.streamId.toInt = h.progress.listIndex
        · rw [if_neg (not_not.mpr index)]
          by_cases fine : r.msgFlags = 1
          · rw [if_neg (not_not.mpr fine), index]
            cases listed : h.files[h.progress.listIndex.toNat]? with
            | none =>
                refine .inl ⟨?_, rfl⟩
                rintro _ ⟨⟩
                simp [Accepts, Refuses, listed, fine]
            | some file =>
                by_cases conn : file.connId = r.connId
                · refine .inr
                    (.inr ⟨h, rfl, ⟨by simpa using finished, index, fine, file, listed, conn⟩, ?_⟩)
                  exact if_neg (not_not.mpr conn)
                · refine .inl ⟨?_, if_pos conn⟩
                  rintro _ ⟨⟩
                  simp [Accepts, Refuses, listed, fine, conn]
          · exact .inr (.inl ⟨h, rfl, ⟨by simpa using finished, index, fine⟩, if_pos fine⟩)
        · refine .inl ⟨?_, if_pos index⟩
          rintro _ ⟨⟩
          simp [Accepts, Refuses, index]

end RemoteControl.Clipboard.Paste
