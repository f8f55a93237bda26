import RemoteControl.Clipboard.PasteDownload

/-! # What a paste counts

A task counts the bytes that it is given. As long as nothing fails unnoticed, the entries up
to the current one are there, and either the bytes of each are as many as it has and the
counter is their sum, or the counter is past that sum.
-/

namespace RemoteControl.Clipboard.Paste

open Transfer (Text Place)

/-- The entry is there, a file at the given place. -/
def Delivered (v : Volume) (targetDir : Text) (desc : FileDescription) (p : Place) : Prop :=
  match desc.kind with
  | .file => ∃ bytes, Arrived v targetDir desc bytes p ∧ bytes.length = desc.size
  | .directory => v.isDir (join targetDir desc.name) = true
  | .symlink => True

/-- The first `k` entries are there, the files at places of their own and none of them at the
    busy one. -/
def Upto (v : Volume) (targetDir : Text) (files : List FileDescription) (busy : Option Place)
    (k : Nat) : Prop :=
  ∃ place : Nat → Place,
    (∀ i desc, i < k → files[i]? = some desc →
      Delivered v targetDir desc (place i) ∧ (desc.kind = .file → busy ≠ some (place i))) ∧
    ∀ i j desc desc', i < j → j < k → files[i]? = some desc → files[j]? = some desc' →
      desc.kind = .file → desc'.kind = .file → place i ≠ place j

section Delivered

variable {v v' : Volume} {targetDir : Text} {files : List FileDescription} {busy busy' : Option Place}
  {k : Nat} {desc : FileDescription} {bytes : Bytes} {p : Place}

theorem Arrived.grow (arrived : Arrived v targetDir desc bytes p) (grows : Grows busy v v')
    (other : busy ≠ some p) : Arrived v' targetDir desc bytes p := by
  obtain ⟨name, modified, isName, located, file⟩ := arrived
  exact ⟨name, modified, isName, grows.keeps.locate located, grows.nodes p _ other file⟩

theorem Delivered.grow (delivered : Delivered v targetDir desc p) (grows : Grows busy v v')
    (other : desc.kind = .file → busy ≠ some p) : Delivered v' targetDir desc p := by
  unfold Delivered at delivered ⊢
  cases kind : desc.kind with
  | file =>
      simp only [kind] at delivered ⊢
      obtain ⟨bytes, arrived, size⟩ := delivered
      exact ⟨bytes, arrived.grow grows (other kind), size⟩
  | directory =>
      simp only [kind] at delivered ⊢
      exact grows.keeps.isDir delivered
  | symlink => trivial

theorem Delivered.some (delivered : Delivered v targetDir desc p) (isFile : desc.kind = .file) :
    v.tree.node p ≠ none := by
  simp only [Delivered, isFile] at delivered
  obtain ⟨bytes, ⟨name, modified, -, -, file⟩, -⟩ := delivered
  simp [file]

theorem upto_zero : Upto v targetDir files busy 0 := ⟨fun _ => [], nofun, nofun⟩

variable (upto : Upto v targetDir files busy k)

include upto

/-- What was delivered stays, and is not where nothing was before. -/
theorem Upto.grow (grows : Grows busy v v')
    (apart : ∀ p, busy' = some p → busy = some p ∨ v.tree.node p = none) :
    Upto v' targetDir files busy' k := by
  obtain ⟨place, delivered, distinct⟩ := upto
  refine ⟨place, fun i desc early listed => ?_, distinct⟩
  obtain ⟨before, other⟩ := delivered i desc early listed
  refine ⟨before.grow grows other, fun isFile same => ?_⟩
  rcases apart _ same with same | free
  · exact other isFile same
  · exact before.some isFile free

/-- One entry more, at the busy place if it is a file. -/
theorem Upto.add (listed : files[k]? = some desc)
    (delivered : Delivered v targetDir desc p) (here : desc.kind = .file → busy = some p) :
    Upto v targetDir files none (k + 1) := by
  obtain ⟨place, before, distinct⟩ := upto
  refine ⟨Function.update place k p, fun i desc' early listed' => ⟨?_, nofun⟩, ?_⟩
  · rcases Nat.lt_succ_iff_lt_or_eq.mp early with early | rfl
    · rw [Function.update_of_ne (by omega)]
      exact (before i desc' early listed').1
    · obtain rfl := Option.some.inj (listed.symm.trans listed')
      rwa [Function.update_self]
  · intro i j desc₁ desc₂ first early listed₁ listed₂ isFile₁ isFile₂
    have older : i < k := by omega
    rw [Function.update_of_ne (by omega)]
    rcases Nat.lt_succ_iff_lt_or_eq.mp early with early | rfl
    · rw [Function.update_of_ne (by omega)]
      exact distinct i j desc₁ desc₂ first early listed₁ listed₂ isFile₁ isFile₂
    · obtain rfl := Option.some.inj (listed.symm.trans listed₂)
      rw [Function.update_self]
      intro same
      exact (before i desc₁ older listed₁).2 isFile₁ (same ▸ here isFile₂)

theorem Upto.all (enough : files.length ≤ k) :
    Upto v targetDir files busy files.length := by
  obtain ⟨place, delivered, distinct⟩ := upto
  exact ⟨place, fun i desc early => delivered i desc (by omega),
    fun i j desc desc' first early => distinct i j desc desc' first (by omega)⟩

end Delivered

def fileSize (desc : FileDescription) : Nat := if desc.kind = .file then desc.size else 0

/-- The bytes of the regular files. -/
def fileSizes (files : List FileDescription) : Nat := (files.map fileSize).sum

theorem fileSizes_take {files : List FileDescription} {k : Nat} {desc : FileDescription}
    (listed : files[k]? = some desc) :
    fileSizes (files.take (k + 1)) = fileSizes (files.take k) + fileSize desc := by
  rw [fileSizes, fileSizes, List.take_add_one, listed]
  simp

/-- The first `k` entries are there and their bytes and some more were counted, or too many
    bytes were counted. -/
def Counted (w : Working) (busy : Option Place) (k more : Nat) : Prop :=
  Upto w.volume w.handle.targetDir w.handle.files busy k ∧
      w.progress.currentSize = fileSizes (w.handle.files.take k) + more ∨
    fileSizes (w.handle.files.take k) + more < w.progress.currentSize

/-- The list and the counters stay. -/
structure Steady (w w' : Working) : Prop where
  files : w'.handle.files = w.handle.files
  targetDir : w'.handle.targetDir = w.handle.targetDir
  totalSize : w'.progress.totalSize = w.progress.totalSize
  currentSize : w'.progress.currentSize = w.progress.currentSize
  isCanceled : w'.progress.isCanceled = w.progress.isCanceled

variable {w w' w'' : Working} {busy busy' : Option Place} {k more : Nat} {o : Outcomes}
  {writer : BufWriter} {desc : FileDescription} {p : Place} {i : Nat} {bytes : Bytes}
  {entries : List (FileDescription × Nat)} {e : PasteError} {rest : List (FileDescription × Nat)}
  {size : Nat}

theorem Steady.refl : Steady w w := ⟨rfl, rfl, rfl, rfl, rfl⟩

theorem Steady.trans (first : Steady w w') (second : Steady w' w'') : Steady w w'' :=
  ⟨second.files.trans first.files, second.targetDir.trans first.targetDir,
    second.totalSize.trans first.totalSize, second.currentSize.trans first.currentSize,
    second.isCanceled.trans first.isCanceled⟩

theorem steady_of_handle (same : w'.handle = w.handle) : Steady w w' := by
  constructor <;> simp only [Working.progress, same]

theorem Counted.grow (counted : Counted w busy k more) (steady : Steady w w')
    (grows : Grows busy w.volume w'.volume)
    (apart : ∀ p, busy' = some p → busy = some p ∨ w.volume.tree.node p = none) :
    Counted w' busy' k more := by
  unfold Counted at counted ⊢
  rw [steady.files, steady.targetDir, steady.currentSize]
  exact counted.imp (fun ⟨upto, exact_⟩ => ⟨upto.grow grows apart, exact_⟩) id

/-- One entry is over, with at least as many bytes as it has. -/
theorem Counted.next (counted : Counted w busy k more) (listed : w.handle.files[k]? = some desc)
    (enough : fileSize desc ≤ more)
    (delivered : fileSize desc = more → Delivered w.volume w.handle.targetDir desc p)
    (here : desc.kind = .file → busy = some p) : Counted w none (k + 1) 0 := by
  unfold Counted at counted ⊢
  rw [fileSizes_take listed]
  rcases counted with ⟨upto, exact_⟩ | beyond
  · by_cases same : fileSize desc = more
    · exact .inl ⟨upto.add listed (delivered same) here, by omega⟩
    · exact .inr (by omega)
  · exact .inr (by omega)

theorem Counted.all (counted : Counted w busy k more) (enough : w.handle.files.length ≤ k) :
    Counted w busy w.handle.files.length more := by
  unfold Counted at counted ⊢
  rw [List.take_of_length_le enough] at counted
  rw [List.take_length]
  exact counted.imp (fun ⟨upto, exact_⟩ => ⟨upto.all enough, exact_⟩) id

/-- What a task with an open file has counted and received. -/
structure Receiving (w : Working) (writer : BufWriter) : Prop where
  counted : Counted w (some writer.place) w.progress.listIndex.toNat w.progress.offset
  holding : ∃ bytes, Holding writer w.volume bytes ∧ bytes.length = w.progress.offset

/-- A file is open, or all entries are over. -/
def Settled (w : Working) : Prop :=
  w.progress.fileHandle = none ∧ Counted w none w.handle.files.length 0 ∨
    ∃ writer, w.progress.fileHandle = some writer ∧ Receiving w writer

/-- Nothing is left to download in the entries. -/
def NoneLeft (entries : List (FileDescription × Nat)) : Prop :=
  ∀ e ∈ entries, e.1.kind = .file → e.1.size = 0

theorem cons_drop_zipIdx {files : List FileDescription}
    (drop : files.zipIdx.drop k = (desc, i) :: rest) :
    i = k ∧ files[k]? = some desc ∧ rest = files.zipIdx.drop (k + 1) := by
  have first : files.zipIdx[k]? = some (desc, i) := by
    rw [← List.head?_drop, drop]
    rfl
  rw [List.getElem?_zipIdx] at first
  obtain ⟨desc', listed, same⟩ := Option.map_eq_some_iff.mp first
  obtain ⟨rfl, rfl⟩ := Prod.mk.inj same
  refine ⟨by omega, listed, ?_⟩
  rw [← List.tail_drop, drop]
  rfl

theorem Opened.receiving (opened : Opened w w' p desc)
    (counted : Counted w none w.progress.listIndex.toNat 0)
    (start : w.progress.offset = 0) : Receiving w' { place := p } := by
  obtain ⟨path, progress⟩ := opened.progress
  have steady : Steady w w' := by
    refine ⟨opened.files, opened.targetDir, ?_, ?_, ?_⟩ <;> rw [progress]
  refine ⟨?_, [], ⟨[], 0, opened.file, rfl⟩, ?_⟩
  · rw [progress, start]
    exact counted.grow steady opened.grows fun q same => .inr (Option.some.inj same ▸ opened.free)
  · rw [progress]
    exact start.symm

theorem createEmpty_counted (counted : Counted w none k 0) (listed : w.handle.files[k]? = some desc)
    (isFile : desc.kind = .file) (empty : desc.size = 0) (quiet : (w.createEmpty i desc o).Quiet) :
    Counted (w.createEmpty i desc o) none (k + 1) 0 := by
  obtain ⟨-, grows, p, free, arrived⟩ := createEmpty_arrived quiet
  have steady : Steady w (w.createEmpty i desc o) := steady_of_handle (createEmpty_handle i)
  have here : Counted (w.createEmpty i desc o) (some p) k 0 :=
    counted.grow steady grows fun q same => .inr (Option.some.inj same ▸ free)
  refine here.next (steady.files ▸ listed) (by simp [fileSize, empty]) (fun _ => ?_) fun _ => rfl
  rw [steady.targetDir]
  simp only [Delivered, isFile]
  exact ⟨[], arrived, empty.symm⟩

theorem createDirectory_counted (counted : Counted w none k 0)
    (listed : w.handle.files[k]? = some desc) (isDir : desc.kind = .directory)
    (quiet : (w.createDirectory i desc o).Quiet) :
    Counted (w.createDirectory i desc o) none (k + 1) 0 := by
  obtain ⟨-, grows, made⟩ := createDirectory_made quiet
  have steady : Steady w (w.createDirectory i desc o) := steady_of_handle (createDirectory_handle i)
  have here : Counted (w.createDirectory i desc o) none k 0 := counted.grow steady grows nofun
  refine here.next (p := []) (steady.files ▸ listed) (by simp [fileSize, isDir]) (fun _ => ?_)
    (by simp [isDir])
  rw [steady.targetDir]
  simpa only [Delivered, isDir] using made

theorem NoneLeft.cons (left : NoneLeft rest) (here : desc.kind = .file → desc.size = 0) :
    NoneLeft ((desc, i) :: rest) :=
  List.forall_mem_cons.mpr ⟨here, left⟩

/-- After the loop a file is open or all entries are over, unless an error is known. -/
theorem updateLoop_settled (left : w.handle.files.zipIdx.drop k = entries)
    (closed : w.progress.fileHandle = none) (counted : Counted w none k 0)
    (quiet : (w.updateLoop o entries).1.Quiet) (fine : (w.updateLoop o entries).2 = none) :
    (w.updateLoop o entries).1.progress.error.isSome = true ∨
      Steady w (w.updateLoop o entries).1 ∧ Settled (w.updateLoop o entries).1 ∧
        ((w.updateLoop o entries).1.progress.fileHandle = none → NoneLeft entries) := by
  induction entries generalizing w k with
  | nil =>
      have enough : w.handle.files.length ≤ k := by simpa [List.drop_eq_nil_iff] using left
      exact .inr ⟨.refl, .inl ⟨closed, counted.all enough⟩, fun _ => nofun⟩
  | cons entry rest ih =>
      obtain ⟨desc, i⟩ := entry
      obtain ⟨rfl, listed, same⟩ := cons_drop_zipIdx left
      unfold Working.updateLoop at quiet fine ⊢
      cases kind : desc.kind with
      | file =>
          simp only [kind] at quiet fine ⊢
          by_cases empty : desc.size = 0
          · rw [if_pos empty] at quiet fine ⊢
            have handle : (w.createEmpty i desc o).handle = w.handle := createEmpty_handle i
            have counted' := createEmpty_counted counted listed kind empty
              (quiet.of_suffix (updateLoop_notes ..))
            have closed' : (w.createEmpty i desc o).progress.fileHandle = none := by
              rw [Working.progress, handle]
              exact closed
            refine (ih (by rw [handle, same]) closed' counted' quiet fine).imp id ?_
            rintro ⟨steady, settled, none_⟩
            exact ⟨(steady_of_handle handle).trans steady, settled,
              fun closed => (none_ closed).cons fun _ => empty⟩
          · rw [if_neg empty] at quiet fine ⊢
            refine (openNewWriter_opened listed quiet fine).imp id ?_
            rintro ⟨p, opened⟩
            obtain ⟨path, progress⟩ := opened.progress
            have counted' :
                Counted (w.setProgress { w.progress with listIndex := i, offset := 0 }) none i 0 :=
              counted
            have steady : Steady w (Working.openNewWriter
                (w.setProgress { w.progress with listIndex := i, offset := 0 }) o).1 := by
              refine ⟨opened.files, opened.targetDir, ?_, ?_, ?_⟩ <;> rw [progress] <;> rfl
            refine ⟨steady, .inr ⟨_, by rw [progress], opened.receiving counted' rfl⟩,
              fun closed' => ?_⟩
            rw [progress] at closed'
            cases closed'
      | directory =>
          simp only [kind] at quiet fine ⊢
          have handle : (w.createDirectory i desc o).handle = w.handle := createDirectory_handle i
          have counted' :=
            createDirectory_counted counted listed kind (quiet.of_suffix (updateLoop_notes ..))
          have closed' : (w.createDirectory i desc o).progress.fileHandle = none := by
            rw [Working.progress, handle]
            exact closed
          refine (ih (by rw [handle, same]) closed' counted' quiet fine).imp id ?_
          rintro ⟨steady, settled, none_⟩
          exact ⟨(steady_of_handle handle).trans steady, settled,
            fun closed => (none_ closed).cons (by simp [kind])⟩
      | symlink =>
          simp only [kind] at quiet fine ⊢
          have counted' : Counted w none (i + 1) 0 :=
            counted.next (p := []) listed (by simp [fileSize, kind])
              (fun _ => by simp [Delivered, kind])
              (by simp [kind])
          refine (ih same.symm closed counted' quiet fine).imp id ?_
          rintro ⟨steady, settled, none_⟩
          exact ⟨steady, settled, fun closed => (none_ closed).cons (by simp [kind])⟩

theorem openNewWriter_stuck (stuck : (w.openNewWriter o).2 = some e) :
    (w.openNewWriter o).1.handle = w.handle := by
  unfold Working.openNewWriter at stuck ⊢
  dsimp only at stuck ⊢
  split
  case h_1 => rfl
  case h_2 file listed =>
    simp only [listed] at stuck
    split
    case h_1 => rfl
    case h_2 path found =>
      simp only [found] at stuck
      generalize (if w.volume.exists_ (parent path) then (w.volume, true)
        else w.volume.createDirAll (parent path) o.createParent) = dirs at stuck ⊢
      split
      case isTrue => rfl
      case isFalse ok =>
        rw [if_neg ok] at stuck
        split at stuck <;> cases stuck

/-- The loop ends early when it cannot open the file of an entry. -/
theorem updateLoop_stuck (listed : ∀ e ∈ entries, w.handle.files[e.2]? = some e.1)
    (stuck : (w.updateLoop o entries).2 = some e) :
    ∃ i < w.handle.files.length, (w.updateLoop o entries).1.handle =
      (w.setProgress { w.progress with listIndex := (i : Nat), offset := 0 }).handle := by
  induction entries generalizing w with
  | nil => cases stuck
  | cons entry rest ih =>
      obtain ⟨desc, i⟩ := entry
      have later : ∀ e ∈ rest, w.handle.files[e.2]? = some e.1 := fun e member =>
        listed e (List.mem_cons_of_mem _ member)
      have here : w.handle.files[i]? = some desc := listed (desc, i) (List.mem_cons_self ..)
      unfold Working.updateLoop at stuck ⊢
      cases kind : desc.kind with
      | file =>
          simp only [kind] at stuck ⊢
          by_cases empty : desc.size = 0
          · rw [if_pos empty] at stuck ⊢
            have handle : (w.createEmpty i desc o).handle = w.handle := createEmpty_handle i
            obtain ⟨j, early, same⟩ := ih (handle ▸ later) stuck
            refine ⟨j, handle ▸ early, same.trans ?_⟩
            simp only [Working.setProgress, Working.progress, handle]
          · rw [if_neg empty] at stuck ⊢
            exact ⟨i, (List.getElem?_eq_some_iff.mp here).1, openNewWriter_stuck stuck⟩
      | directory =>
          simp only [kind] at stuck ⊢
          have handle : (w.createDirectory i desc o).handle = w.handle := createDirectory_handle i
          obtain ⟨j, early, same⟩ := ih (handle ▸ later) stuck
          refine ⟨j, handle ▸ early, same.trans ?_⟩
          simp only [Working.setProgress, Working.progress, handle]
      | symlink =>
          simp only [kind] at stuck ⊢
          exact ih later stuck

theorem entriesLeft_eq (small : w.handle.files.length < 2 ^ 31) :
    w.entriesLeft = w.handle.files.zipIdx.drop (w.progress.listIndex + 1).toNat := by
  have count : (asI32 w.handle.files.length).toNat = w.handle.files.length := by
    unfold asI32
    omega
  rw [Working.entriesLeft, count, List.take_of_length_le (by simp)]

theorem Settled.settle (settled : Settled w) : Settled w.settle := by
  unfold Working.settle
  split
  case isTrue closed =>
    rcases settled with ⟨-, counted⟩ | ⟨writer, opened, -⟩
    · exact .inl ⟨Option.isNone_iff_eq_none.mp closed, counted⟩
    · simp [opened] at closed
  case isFalse => exact settled

theorem Settled.receiving (settled : Settled w) :
    ∀ writer ∈ w.progress.fileHandle, Receiving w writer := by
  intro writer opened
  rcases settled with ⟨closed, -⟩ | ⟨writer', opened', receiving⟩
  · simp [closed] at opened
  · obtain rfl := Option.some.inj (opened'.symm.trans opened)
    exact receiving

theorem steady_settle (w : Working) :
    Steady w w.settle ∧ w.settle.progress.fileHandle = w.progress.fileHandle ∧
    w.settle.progress.error = w.progress.error := by
  unfold Working.settle
  split
  case isTrue => exact ⟨⟨rfl, rfl, rfl, rfl, rfl⟩, rfl, rfl⟩
  case isFalse => exact ⟨.refl, rfl, rfl⟩

/-- What `update_next` does once the open file is over. -/
def goThrough (w : Working) (o : Outcomes) : Working × Option PasteError :=
  match w.updateLoop o w.entriesLeft with
  | (w, some e) => (w, some e)
  | (w, none) => (w.settle, none)

theorem goThrough_notes (w : Working) (o : Outcomes) : w.notes <:+ (goThrough w o).1.notes := by
  have loop := updateLoop_notes w o w.entriesLeft
  unfold goThrough
  split
  case h_1 same => rwa [same] at loop
  case h_2 same =>
    rw [same] at loop
    rwa [settle_notes]

theorem goThrough_settled (small : w.handle.files.length < 2 ^ 31)
    (closed : w.progress.fileHandle = none)
    (counted : Counted w none (w.progress.listIndex + 1).toNat 0) (quiet : (goThrough w o).1.Quiet)
    (fine : (goThrough w o).2 = none) :
    (goThrough w o).1.progress.error.isSome = true ∨
      Steady w (goThrough w o).1 ∧ Settled (goThrough w o).1 ∧
        ((goThrough w o).1.progress.fileHandle = none → NoneLeft w.entriesLeft) := by
  have loop := updateLoop_settled (o := o) (entriesLeft_eq small).symm closed counted
  unfold goThrough at quiet fine ⊢
  generalize w.updateLoop o w.entriesLeft = result at loop quiet fine ⊢
  obtain ⟨after, error⟩ := result
  cases error with
  | some e => cases fine
  | none =>
      dsimp only at quiet ⊢
      obtain ⟨steady, handle, error⟩ := steady_settle after
      rw [error, handle]
      refine (loop (by rwa [Working.Quiet, settle_notes] at quiet) rfl).imp id ?_
      rintro ⟨steady', settled, none_⟩
      exact ⟨steady'.trans steady, settled.settle, none_⟩

theorem Counted.le (counted : Counted w busy k more) : more ≤ w.progress.currentSize := by
  unfold Counted at counted
  omega

/-- The counters after more data. -/
def Working.counting (w : Working) (size : Nat) : Working :=
  w.setProgress { w.progress with currentSize := wrap (w.progress.currentSize + size) }

theorem Counted.count (counted : Counted w busy k more)
    (room : w.progress.currentSize + size < 2 ^ 64) :
    Counted (w.counting size) busy k (more + size) := by
  have same : (w.counting size).progress.currentSize = w.progress.currentSize + size :=
    Nat.mod_eq_of_lt room
  unfold Counted at counted ⊢
  rw [same]
  exact counted.imp (fun ⟨upto, exact_⟩ => ⟨upto, by rw [exact_]; exact Nat.add_assoc ..⟩)
    fun beyond => by
      have list : (w.counting size).handle.files = w.handle.files := rfl
      rw [list]
      omega

/-- The file that is over is one of the delivered entries. -/
theorem onDone_counted (opened : w.progress.fileHandle = some writer) (open_ : OpenAt w writer)
    (holding : Holding writer w.volume bytes)
    (counted : Counted w (some writer.place) w.progress.listIndex.toNat bytes.length)
    (enough : w.progress.downloadFileSize ≤ bytes.length) (quiet : (w.onDone o).Quiet) :
    Steady w (w.onDone o) ∧ (w.onDone o).progress.fileHandle = none ∧
      (w.onDone o).progress.listIndex = w.progress.listIndex ∧
      Counted (w.onDone o) none (w.progress.listIndex.toNat + 1) 0 := by
  obtain ⟨desc, listed, isFile, -, size⟩ := open_.desc
  obtain ⟨handle, -, grows, p, free, arrived⟩ := onDone_landed opened open_ holding listed quiet
  have steady : Steady w (w.onDone o) := by
    constructor <;> simp only [Working.progress, handle]
  have here : Counted (w.onDone o) (some p) w.progress.listIndex.toNat bytes.length :=
    counted.grow steady grows fun q same => .inr (Option.some.inj same ▸ free)
  have fileSize_ : fileSize desc = desc.size := if_pos isFile
  refine ⟨steady, by rw [Working.progress, handle], by rw [Working.progress, handle], ?_⟩
  refine here.next (steady.files ▸ listed) (by omega) (fun same => ?_) fun _ => rfl
  rw [steady.targetDir]
  simp only [Delivered, isFile]
  exact ⟨bytes, arrived, by omega⟩

/-- The task in the middle of a file. -/
def Working.advanced (w : Working) (size : Nat) : Working :=
  w.setProgress
    { w.progress with
      offset := wrap (w.progress.offset + size)
      downloadFileCurrentSize := wrap (w.progress.downloadFileCurrentSize + size) }

theorem updateNext_eq (unfinished : w.handle.isFinished = false) (size : Nat) :
    w.updateNext size o =
      if w.progress.listIndex = -1 then goThrough (w.counting size) o
      else if w.progress.downloadFileSize ≤ wrap (w.progress.offset + size) then
        goThrough ((w.counting size).onDone o) o
      else (((w.counting size).advanced size).settle, none) := by
  unfold Working.updateNext
  rw [if_neg (by simp [unfinished])]
  change (if w.progress.listIndex = -1 ∨ w.progress.downloadFileSize ≤ wrap (w.progress.offset + size) then
      goThrough (if w.progress.listIndex = -1 then w.counting size else (w.counting size).onDone o) o
    else (((w.counting size).advanced size).settle, none)) = _
  split_ifs <;> simp_all

variable (small : w.handle.files.length < 2 ^ 31) (unfinished : w.handle.isFinished = false)

include small unfinished

/-- A list that is started. -/
theorem updateNext_start (index : w.progress.listIndex = -1) (closed : w.progress.fileHandle = none)
    (nothing : w.progress.currentSize = 0) (quiet : (w.updateNext 0 o).1.Quiet)
    (fine : (w.updateNext 0 o).2 = none) :
    (w.updateNext 0 o).1.progress.error.isSome = true ∨
      Steady w (w.updateNext 0 o).1 ∧ Settled (w.updateNext 0 o).1 := by
  rw [updateNext_eq unfinished, if_pos index] at quiet fine ⊢
  have same : (w.counting 0).progress.currentSize = 0 := by
    change wrap (w.progress.currentSize + 0) = 0
    rw [nothing]
    rfl
  have counted : Counted (w.counting 0) none ((w.counting 0).progress.listIndex + 1).toNat 0 := by
    have none_ : ((w.counting 0).progress.listIndex + 1).toNat = 0 := by
      have index' : (w.counting 0).progress.listIndex = -1 := index
      rw [index']
      rfl
    rw [none_]
    exact .inl ⟨upto_zero, by rw [same]; rfl⟩
  refine (goThrough_settled (w := w.counting 0) small closed counted quiet fine).imp id ?_
  rintro ⟨steady, settled, -⟩
  exact ⟨⟨steady.files, steady.targetDir, steady.totalSize, by rw [steady.currentSize, same, nothing],
    steady.isCanceled⟩, settled⟩

/-- A list whose first file cannot be opened is left as it is. -/
theorem updateNext_stuck (index : w.progress.listIndex = -1)
    (closed : w.progress.fileHandle = none) (stuck : (w.updateNext 0 o).2 = some e) :
    (w.updateNext 0 o).1.handle.isFinished = false ∧
      (w.updateNext 0 o).1.progress.fileHandle = none := by
  rw [updateNext_eq unfinished, if_pos index] at stuck ⊢
  have loop := updateLoop_stuck (w := w.counting 0) (o := o) (e := e)
    fun e member => (entriesLeft_listed (w.counting 0) e member).1
  unfold goThrough at stuck ⊢
  generalize (w.counting 0).updateLoop o (w.counting 0).entriesLeft = result at loop stuck ⊢
  obtain ⟨after, error⟩ := result
  cases error with
  | none => cases stuck
  | some e' =>
      obtain ⟨i, early, handle⟩ := loop stuck
      have count : asI32 w.handle.files.length = w.handle.files.length := by
        unfold asI32
        omega
      have early : i < w.handle.files.length := early
      simp only [PasteTaskHandle.isFinished, Bool.or_eq_false_iff] at unfinished
      obtain ⟨⟨running, error⟩, -⟩ := unfinished
      dsimp only
      rw [Working.progress, handle]
      refine ⟨?_, closed⟩
      simp only [PasteTaskHandle.isFinished, Working.counting, Working.setProgress,
        Working.progress, count, running, error]
      simp
      omega

/-- A task goes on after data that was written to its open file. -/
theorem updateNext_settled (opened : w.progress.fileHandle = some writer)
    (open_ : OpenAt w writer) (holding : Holding writer w.volume bytes)
    (length : bytes.length = w.progress.offset + size)
    (counted : Counted w (some writer.place) w.progress.listIndex.toNat w.progress.offset)
    (room : w.progress.currentSize + size < 2 ^ 64) (quiet : (w.updateNext size o).1.Quiet)
    (fine : (w.updateNext size o).2 = none) :
    (w.updateNext size o).1.progress.error.isSome = true ∨
      Steady (w.counting size) (w.updateNext size o).1 ∧ Settled (w.updateNext size o).1 ∧
        ((w.updateNext size o).1.progress.fileHandle = none →
          w.progress.downloadFileSize ≤ w.progress.offset + size ∧ NoneLeft w.entriesLeft) := by
  have some_ : w.progress.listIndex ≠ -1 := by
    have := open_.index.2.1
    omega
  have offset : wrap (w.progress.offset + size) = w.progress.offset + size := by
    have := counted.le
    exact Nat.mod_eq_of_lt (by omega)
  have counted' := counted.count room
  rw [updateNext_eq unfinished, if_neg some_, offset] at quiet fine ⊢
  by_cases enough : w.progress.downloadFileSize ≤ w.progress.offset + size
  · rw [if_pos enough] at quiet fine ⊢
    have open_' : OpenAt (w.counting size) writer :=
      ⟨open_.located, open_.file, open_.index, open_.desc⟩
    obtain ⟨steady, closed, index, done⟩ :=
      onDone_counted (o := o) (w := w.counting size) opened open_' holding
      (length ▸ counted') (length ▸ enough) (quiet.of_suffix (goThrough_notes ..))
    have next :
        ((w.counting size).progress.listIndex + 1).toNat =
        (w.counting size).progress.listIndex.toNat + 1 :=
      Int.toNat_add open_.index.2.1 (by decide)
    have left : ((w.counting size).onDone o).entriesLeft = w.entriesLeft := by
      rw [Working.entriesLeft, steady.files, index]
      rfl
    refine (goThrough_settled (steady.files ▸ small) closed
      (by rw [index, next]; exact done) quiet fine).imp id ?_
    rintro ⟨steady', settled, none_⟩
    exact ⟨steady.trans steady', settled, fun closed' => ⟨enough, left ▸ none_ closed'⟩⟩
  · rw [if_neg enough]
    right
    obtain ⟨steady, handle, -⟩ := steady_settle ((w.counting size).advanced size)
    have opened' : ((w.counting size).advanced size).progress.fileHandle = some writer := opened
    have offset' : ((w.counting size).advanced size).progress.offset = w.progress.offset + size :=
      offset
    have receiving : Receiving ((w.counting size).advanced size) writer := by
      refine ⟨?_, bytes, holding, length.trans offset'.symm⟩
      rw [offset']
      exact counted'
    have advanced : Steady (w.counting size) ((w.counting size).advanced size) :=
      ⟨rfl, rfl, rfl, rfl, rfl⟩
    refine ⟨advanced.trans steady, Settled.settle (.inr ⟨writer, opened', receiving⟩), fun closed => ?_⟩
    rw [handle, opened'] at closed
    cases closed

end RemoteControl.Clipboard.Paste
