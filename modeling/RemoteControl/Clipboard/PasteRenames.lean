import RemoteControl.Clipboard.PasteCounting

/-! # What is renamed

The file of an entry gets its name with the bytes that were written to it, provided that the
buffer was flushed. After that a new file is begun, if there is another one.
-/

namespace RemoteControl.Clipboard.Paste

open Transfer (Text Place)

/-- The files that have got their names, the last one first. -/
def renames (notes : List Note) : List (Int × Bytes) :=
  notes.filterMap fun
    | .renamed index content => some (index, content)
    | _ => none

variable {w : Working} {writer : BufWriter} {desc : FileDescription} {o : Outcomes} {bytes : Bytes} {i : Nat}

theorem renames_note (w : Working) {n : Note} (failure : n.isFailure = true) :
    renames (w.note n).notes = renames w.notes := by
  cases n <;> first | rfl | cases failure

theorem closeWriter_renames : renames (w.closeWriter writer o).notes = renames w.notes := by
  unfold Working.closeWriter
  dsimp only
  split
  case isTrue => rfl
  case isFalse => exact renames_note _ rfl

/-- At most the file that is over gets its name, with all of its bytes. -/
theorem onDone_renames (opened : w.progress.fileHandle = some writer) (holding : Holding writer w.volume bytes)
    (flushed : .notFlushed ∉ (w.onDone o).notes) :
    renames (w.onDone o).notes = renames w.notes ∨
      renames (w.onDone o).notes = (w.progress.downloadFileIndex, bytes) :: renames w.notes := by
  have suffix {w' : Working} (earlier : (w.closeWriter writer o).notes <:+ w'.notes) (flushed : .notFlushed ∉ w'.notes) :
      .notFlushed ∉ (w.closeWriter writer o).notes := fun member => flushed (earlier.subset member)
  unfold Working.onDone at flushed ⊢
  simp only [opened] at flushed ⊢
  split at flushed
  case isTrue invalid =>
    rw [if_pos invalid]
    exact .inl rfl
  case isFalse valid =>
    rw [if_neg valid]
    have handle := closeWriter_handle w writer o
    have closed := closeWriter_holding (o := o) holding
    have same : renames (w.closeWriter writer o).notes = renames w.notes := closeWriter_renames
    generalize w.closeWriter writer o = w' at handle closed same suffix flushed ⊢
    have index : w'.progress.downloadFileIndex = w.progress.downloadFileIndex := by
      rw [Working.progress, handle]
      rfl
    cases listed : w'.handle.files[w'.progress.downloadFileIndex.toNat]? with
    | none => exact .inl same
    | some desc =>
        simp only [listed] at flushed ⊢
        cases found : getNewFilename w'.volume w'.handle.targetDir desc with
        | none => exact .inl ((renames_note w' rfl).trans same)
        | some target =>
            simp only [found] at flushed ⊢
            obtain ⟨⟨modified, file⟩, -⟩ := closed (suffix (renameDownload_notes ..) flushed)
            have content : w'.contentAt writer.place = bytes := by simp [Working.contentAt, file]
            unfold Working.renameDownload
            dsimp only
            split
            case h_1 =>
              right
              rw [content, index, ← same]
              rfl
            case h_2 => exact .inl ((renames_note _ rfl).trans same)

/-- The file is closed, and the task stays at its entry. -/
theorem onDone_closed (opened : w.progress.fileHandle = some writer)
    (valid : w.progress.downloadFileIndex ≠ invalidFileIndex) :
    (w.onDone o).progress.fileHandle = none ∧ (w.onDone o).progress.listIndex = w.progress.listIndex := by
  have handle := closeWriter_handle w writer o
  unfold Working.onDone
  simp only [opened, if_neg valid]
  generalize w.closeWriter writer o = w' at handle ⊢
  have closed : w'.progress.fileHandle = none ∧ w'.progress.listIndex = w.progress.listIndex := by
    rw [Working.progress, handle]
    exact ⟨rfl, rfl⟩
  split
  case h_1 => exact closed
  case h_2 =>
    split
    case h_1 => exact closed
    case h_2 =>
      unfold Working.renameDownload
      dsimp only
      split <;> exact closed

theorem createEmpty_renames : renames (w.createEmpty i desc o).notes = renames w.notes := by
  unfold Working.createEmpty
  split
  case h_1 => exact renames_note _ rfl
  case h_2 =>
    split
    case h_1 => rfl
    case h_2 => exact renames_note _ rfl

theorem createDirectory_renames : renames (w.createDirectory i desc o).notes = renames w.notes := by
  unfold Working.createDirectory
  dsimp only
  generalize (if w.volume.exists_ (join w.handle.targetDir desc.name) then w.volume
    else (w.volume.createDirAll (join w.handle.targetDir desc.name) (o.createDir i)).1) = v
  split
  case isTrue => rfl
  case isFalse => exact renames_note _ rfl

/-- A new file is empty, whatever there was. -/
theorem openNewWriter_begun (closed : w.progress.fileHandle = none) (start : w.progress.offset = 0) :
    renames (w.openNewWriter o).1.notes = renames w.notes ∧
      ((w.openNewWriter o).1.progress.fileHandle = none ∨ ∃ writer,
        (w.openNewWriter o).1.progress.fileHandle = some writer ∧
          Holding writer (w.openNewWriter o).1.volume [] ∧ (w.openNewWriter o).1.progress.offset = 0 ∧
          (w.openNewWriter o).1.progress.listIndex = w.progress.listIndex) := by
  unfold Working.openNewWriter
  dsimp only
  split
  case h_1 => exact ⟨rfl, .inl closed⟩
  case h_2 =>
    split
    case h_1 => exact ⟨rfl, .inl closed⟩
    case h_2 path _ =>
      generalize (if w.volume.exists_ (parent path) then (w.volume, true)
        else w.volume.createDirAll (parent path) o.createParent) = dirs
      split
      case isTrue => exact ⟨rfl, .inl closed⟩
      case isFalse =>
        split
        case h_2 => exact ⟨rfl, .inl closed⟩
        case h_1 p v created =>
          split at created
          case isFalse => cases created
          case isTrue =>
            obtain ⟨-, -, -, rfl⟩ := Volume.of_create created
            have holding (v : Volume) : Holding { place := p }
                { v with tree := v.tree.put p (some (.file [] 0)) } [] :=
              ⟨[], 0, FileTree.put_node_self .., rfl⟩
            dsimp only
            split
            case isTrue =>
              exact ⟨renames_note _ rfl, .inr ⟨_, rfl, holding _, start, rfl⟩⟩
            case isFalse => exact ⟨rfl, .inr ⟨_, rfl, holding _, start, rfl⟩⟩

/-- After a loop that begins without an open file either none is open or a new one is. -/
def Begun (w : Working) (entries : List (FileDescription × Nat)) : Prop :=
  w.progress.fileHandle = none ∨ ∃ writer, w.progress.fileHandle = some writer ∧
    Holding writer w.volume [] ∧ w.progress.offset = 0 ∧ ∃ e ∈ entries, w.progress.listIndex = e.2

theorem Begun.later {entry : FileDescription × Nat} {rest : List (FileDescription × Nat)} (begun : Begun w rest) :
    Begun w (entry :: rest) := by
  rcases begun with closed | ⟨writer, opened, holding, start, e, member, index⟩
  · exact .inl closed
  · exact .inr ⟨writer, opened, holding, start, e, List.mem_cons_of_mem _ member, index⟩

theorem updateLoop_begun {entries : List (FileDescription × Nat)} (closed : w.progress.fileHandle = none) :
    renames (w.updateLoop o entries).1.notes = renames w.notes ∧ Begun (w.updateLoop o entries).1 entries := by
  induction entries generalizing w with
  | nil => exact ⟨rfl, .inl closed⟩
  | cons entry rest ih =>
      obtain ⟨desc, i⟩ := entry
      unfold Working.updateLoop
      cases kind : desc.kind with
      | file =>
          simp only
          split
          case isTrue =>
            have closed' : (w.createEmpty i desc o).progress.fileHandle = none := by
              rw [Working.progress, createEmpty_handle]
              exact closed
            obtain ⟨same, begun⟩ := ih closed'
            exact ⟨same.trans createEmpty_renames, begun.later⟩
          case isFalse =>
            obtain ⟨same, begun⟩ := openNewWriter_begun (o := o)
              (w := w.setProgress { w.progress with listIndex := i, offset := 0 }) closed rfl
            refine ⟨same, begun.imp id ?_⟩
            rintro ⟨writer, opened, holding, start, index⟩
            exact ⟨writer, opened, holding, start, _, List.mem_cons_self .., index⟩
      | directory =>
          have closed' : (w.createDirectory i desc o).progress.fileHandle = none := by
            rw [Working.progress, createDirectory_handle]
            exact closed
          obtain ⟨same, begun⟩ := ih closed'
          exact ⟨same.trans createDirectory_renames, begun.later⟩
      | symlink =>
          obtain ⟨same, begun⟩ := ih closed
          exact ⟨same, begun.later⟩

theorem entriesLeft_later (w : Working) : ∀ e ∈ w.entriesLeft, w.progress.listIndex < e.2 := by
  intro e member
  unfold Working.entriesLeft at member
  obtain ⟨k, bound, rfl⟩ := List.getElem_of_mem member
  rw [List.getElem_drop, List.getElem_take, List.getElem_zipIdx]
  dsimp only
  omega

/-- A new file is open, further on in the list. -/
def Onward (index : Int) (w : Working) : Prop :=
  w.progress.fileHandle = none ∨ ∃ writer, w.progress.fileHandle = some writer ∧
    Holding writer w.volume [] ∧ w.progress.offset = 0 ∧ index < w.progress.listIndex

theorem goThrough_onward (closed : w.progress.fileHandle = none) :
    renames (goThrough w o).1.notes = renames w.notes ∧ Onward w.progress.listIndex (goThrough w o).1 := by
  obtain ⟨same, begun⟩ : renames (w.updateLoop o w.entriesLeft).1.notes = renames w.notes ∧
      Begun (w.updateLoop o w.entriesLeft).1 w.entriesLeft := updateLoop_begun closed
  have onward : Onward w.progress.listIndex (w.updateLoop o w.entriesLeft).1 := by
    refine begun.imp id ?_
    rintro ⟨writer, opened, holding, start, e, member, index⟩
    exact ⟨writer, opened, holding, start, index ▸ entriesLeft_later w e member⟩
  unfold goThrough
  split
  case h_1 after e result =>
    rw [result] at same onward
    exact ⟨same, onward⟩
  case h_2 after result =>
    rw [result] at same onward
    refine ⟨(congrArg renames (settle_notes after)).trans same, ?_⟩
    unfold Working.settle
    split
    case isTrue none_ => exact .inl (Option.isNone_iff_eq_none.mp none_)
    case isFalse => exact onward

/-- The loop has stopped at an entry. -/
theorem goThrough_stuck {e : PasteError} (stuck : (goThrough w o).2 = some e) :
    0 ≤ (goThrough w o).1.progress.listIndex := by
  have loop := updateLoop_stuck (w := w) (o := o) (e := e) fun e member => (entriesLeft_listed w e member).1
  unfold goThrough at stuck ⊢
  generalize w.updateLoop o w.entriesLeft = result at loop stuck ⊢
  obtain ⟨after, error⟩ := result
  cases error with
  | none => cases stuck
  | some e' =>
      obtain ⟨i, -, handle⟩ := loop stuck
      dsimp only
      rw [Working.progress, handle]
      exact Int.natCast_nonneg i

theorem goThrough_ready (fine : (goThrough w o).2 = none) :
    (goThrough w o).1.handle.isFinished = true ∨ (goThrough w o).1.progress.fileHandle ≠ none := by
  unfold goThrough at fine ⊢
  split
  case h_1 same =>
    rw [same] at fine
    cases fine
  case h_2 => exact settle_ready _

theorem updateNext_ready (size : Nat) (unfinished : w.handle.isFinished = false)
    (fine : (w.updateNext size o).2 = none) :
    (w.updateNext size o).1.handle.isFinished = true ∨ (w.updateNext size o).1.progress.fileHandle ≠ none := by
  rw [updateNext_eq unfinished] at fine ⊢
  split_ifs at fine ⊢
  · exact goThrough_ready fine
  · exact goThrough_ready fine
  · exact settle_ready _

/-- Bytes for the open file: either it goes on with them, or it is over and gets its name at
    most. -/
theorem updateNext_renames {size : Nat} (unfinished : w.handle.isFinished = false)
    (opened : w.progress.fileHandle = some writer) (open_ : OpenAt w writer) (holding : Holding writer w.volume bytes)
    (length : bytes.length = w.progress.offset + size) (fits : bytes.length < 2 ^ 64)
    (flushed : .notFlushed ∉ (w.updateNext size o).1.notes) :
    (renames (w.updateNext size o).1.notes = renames w.notes ∧
      (w.updateNext size o).1.progress.fileHandle = some writer ∧
      (w.updateNext size o).1.progress.listIndex = w.progress.listIndex ∧
      (w.updateNext size o).1.progress.offset = bytes.length ∧
      bytes.length < (w.updateNext size o).1.progress.downloadFileSize ∧
      Holding writer (w.updateNext size o).1.volume bytes) ∨
    (renames (w.updateNext size o).1.notes = renames w.notes ∨
      renames (w.updateNext size o).1.notes = (w.progress.listIndex, bytes) :: renames w.notes) ∧
      Onward w.progress.listIndex (w.updateNext size o).1 := by
  have some_ : w.progress.listIndex ≠ -1 := by
    have := open_.index.2.1
    omega
  have offset : wrap (w.progress.offset + size) = bytes.length := by
    rw [← length]
    exact Nat.mod_eq_of_lt fits
  rw [updateNext_eq unfinished, if_neg some_, offset] at flushed ⊢
  split at flushed
  case isTrue enough =>
    rw [if_pos enough]
    right
    have flushed : .notFlushed ∉ ((w.counting size).onDone o).notes := fun member =>
      flushed ((goThrough_notes ..).subset member)
    have done := onDone_renames (w := w.counting size) (o := o) opened holding flushed
    have valid : (w.counting size).progress.downloadFileIndex ≠ invalidFileIndex := by
      have index : (w.counting size).progress.downloadFileIndex = w.progress.listIndex := open_.index.1
      have := open_.index.2.1
      rw [index, invalidFileIndex]
      omega
    obtain ⟨closed, index⟩ := onDone_closed (w := w.counting size) (o := o) opened valid
    obtain ⟨same, onward⟩ := goThrough_onward (o := o) closed
    rw [same]
    have index' : (w.counting size).progress.downloadFileIndex = w.progress.listIndex := open_.index.1
    rw [index'] at done
    exact ⟨done, (index.trans rfl : _ = w.progress.listIndex) ▸ onward⟩
  case isFalse early =>
    rw [if_neg early]
    left
    have opened' : ((w.counting size).advanced size).progress.fileHandle = some writer := opened
    unfold Working.settle
    rw [if_neg (by simp [opened'])]
    exact ⟨rfl, opened, rfl, offset, Nat.lt_of_not_le early, holding⟩

/-! Nothing of this cancels a task -/

theorem onDone_isCanceled (w : Working) (o : Outcomes) :
    (w.onDone o).progress.isCanceled = w.progress.isCanceled := by
  unfold Working.onDone
  split
  case h_1 => rfl
  case h_2 writer _ =>
    split
    case isTrue => rfl
    case isFalse =>
      have handle := closeWriter_handle w writer o
      dsimp only
      generalize w.closeWriter writer o = w' at handle ⊢
      have same : w'.progress.isCanceled = w.progress.isCanceled := by
        rw [Working.progress, handle]
        rfl
      split
      case h_1 => exact same
      case h_2 =>
        split
        case h_1 => exact same
        case h_2 =>
          unfold Working.renameDownload
          dsimp only
          split <;> exact same

theorem openNewWriter_isCanceled (w : Working) (o : Outcomes) :
    (w.openNewWriter o).1.progress.isCanceled = w.progress.isCanceled := by
  unfold Working.openNewWriter
  dsimp only
  split
  case h_1 => rfl
  case h_2 =>
    split
    case h_1 => rfl
    case h_2 path _ =>
      generalize (if w.volume.exists_ (parent path) then (w.volume, true)
        else w.volume.createDirAll (parent path) o.createParent) = dirs
      split
      case isTrue => rfl
      case isFalse =>
        split
        case h_1 => dsimp only; split <;> rfl
        case h_2 => rfl

theorem updateLoop_isCanceled (w : Working) (o : Outcomes) (entries : List (FileDescription × Nat)) :
    (w.updateLoop o entries).1.progress.isCanceled = w.progress.isCanceled := by
  induction entries generalizing w with
  | nil => rfl
  | cons entry rest ih =>
      obtain ⟨desc, i⟩ := entry
      unfold Working.updateLoop
      split
      case h_1 =>
        split
        case isTrue => rw [ih, Working.progress, createEmpty_handle, Working.progress]
        case isFalse => exact openNewWriter_isCanceled (w.setProgress { w.progress with listIndex := i, offset := 0 }) o
      case h_2 => rw [ih, Working.progress, createDirectory_handle, Working.progress]
      case h_3 => exact ih w

theorem settle_isCanceled (w : Working) : w.settle.progress.isCanceled = w.progress.isCanceled := by
  unfold Working.settle
  split <;> rfl

theorem goThrough_isCanceled (w : Working) (o : Outcomes) :
    (goThrough w o).1.progress.isCanceled = w.progress.isCanceled := by
  have loop := updateLoop_isCanceled w o w.entriesLeft
  unfold goThrough
  split
  case h_1 same => rwa [same] at loop
  case h_2 same =>
    rw [same] at loop
    exact (settle_isCanceled _).trans loop

theorem updateNext_isCanceled (w : Working) (size : Nat) (o : Outcomes) :
    (w.updateNext size o).1.progress.isCanceled = w.progress.isCanceled := by
  by_cases finished : w.handle.isFinished = true
  · rw [Working.updateNext, if_pos finished]
  · rw [updateNext_eq (by simpa using finished)]
    split_ifs
    · exact goThrough_isCanceled ..
    · exact (goThrough_isCanceled ..).trans (onDone_isCanceled ..)
    · exact settle_isCanceled _

end RemoteControl.Clipboard.Paste
