import RemoteControl.Clipboard.PasteCounting

/-! # What a successful paste has made

In the end a task compares the bytes that it has counted with the sizes of the list. This
says that every file is complete only when nothing has failed on the way without being
reported, and when no answer was so long that it makes up for what a directory or a link has
for a size.
-/

namespace RemoteControl.Clipboard.Paste

open Runs (Always Along)
open Transfer (Text Place)

/-- A task that reports success has delivered every entry. -/
def Complete (s : State) : Prop :=
  ∀ h ∈ s.task, h.isFinished = true → h.progress.error = none → h.progress.isCanceled = false →
    Upto s.volume h.targetDir h.files none h.files.length

/-- With so much more data nothing is left to ask for. -/
def IsLast (w : Working) (size : Nat) : Prop :=
  w.progress.downloadFileSize ≤ w.progress.offset + size ∧ NoneLeft w.entriesLeft

/-- The counter does not wrap, and what it says in the end is the size of the files when it
    agrees with the total, which counts the sizes of directories and links, too. -/
def Honest (w : Working) (size : Nat) : Prop :=
  w.progress.currentSize + size < 2 ^ 64 ∧
    (IsLast w size → w.progress.currentSize + size = w.progress.totalSize →
      w.progress.totalSize = fileSizes w.handle.files)

/-- What must hold of an event: no failure goes unreported, and the numbers fit. -/
def Sound (s : State) (e : Event) : Prop :=
  (∀ n ∈ (s.step e).notes, n.isFailure = false) ∧
    match e with
    | .start _ files _ => (∀ h ∈ s.task, h.isFinished = true) → files.length < 2 ^ 31
    | .response r _ => ∀ h ∈ s.task, Accepts h r → Honest (s.working h) r.requestedData.length
    | _ => True

def Anything : Text → Volume → Prop := fun _ _ => True

theorem anything_opens {files : List FileDescription} {targetDir : Text} :
    Opens Anything files targetDir := by
  constructor
  · constructor <;> intros <;> trivial
  · intros
    trivial

namespace State

/-- The invariant of the runs. -/
structure Whole (s : State) : Prop where
  small : ∀ h ∈ s.task, h.files.length < 2 ^ 31
  inOrder : ∀ h ∈ s.task, InOrder Anything h.files h.targetDir (s.working h)
  receiving : ∀ h ∈ s.task, h.isFinished = false → ∀ writer ∈ h.progress.fileHandle,
    Receiving (s.working h) writer
  complete : Complete s

/-- A task that cannot succeed any more. -/
def Failed (w : Working) : Prop := w.progress.error.isSome = true ∨ w.progress.isCanceled = true

/-- What an event may make of a task. -/
structure Fine (w : Working) : Prop where
  settled : Settled w
  running : w.progress.isCanceled = false
  honest : w.progress.fileHandle = none → w.progress.currentSize = w.progress.totalSize →
    w.progress.totalSize = fileSizes w.handle.files

variable {s s' : State} {files : List FileDescription} {targetDir : Text} {w : Working} {o : Outcomes}
  {h : PasteTaskHandle} {p : Place} {n : Node} {r : FileContentsResponse}

theorem Failed.isFinished (failed : Failed w) : w.handle.isFinished = true := by
  unfold Failed Working.progress at failed
  rcases failed with failed | failed <;> simp [PasteTaskHandle.isFinished, failed]

theorem whole_of_task (task : s.task = some w.handle) (volume : s.volume = w.volume)
    (notes : s.notes = w.notes)
    (inOrder : InOrder Anything files targetDir w) (small : files.length < 2 ^ 31)
    (receiving : w.handle.isFinished = false → ∀ writer ∈ w.progress.fileHandle, Receiving w writer)
    (complete : w.handle.isFinished = true → w.progress.error = none → w.progress.isCanceled = false →
      Upto w.volume w.handle.targetDir w.handle.files none w.handle.files.length) : Whole s := by
  have same : files = w.handle.files ∧ targetDir = w.handle.targetDir :=
    ⟨inOrder.files.symm, inOrder.targetDir.symm⟩
  obtain ⟨rfl, rfl⟩ := same
  have now : s.working w.handle = w := by rw [working, volume, notes]
  refine ⟨?_, ?_, ?_, ?_⟩ <;> intro h is <;> obtain rfl := Option.some.inj (task.symm.trans is)
  · exact small
  · rwa [now]
  · rw [now]
    exact receiving
  · rw [volume]
    exact complete

theorem whole_of_failed (task : s.task = some w.handle) (volume : s.volume = w.volume)
    (notes : s.notes = w.notes)
    (inOrder : InOrder Anything files targetDir w) (small : files.length < 2 ^ 31) (failed : Failed w) :
    Whole s := by
  refine whole_of_task task volume notes inOrder small (fun unfinished => ?_) fun _ error running => ?_
  · simp [failed.isFinished] at unfinished
  · rcases failed with failed | failed
    · simp [error] at failed
    · simp [running] at failed

theorem failed_onError (e : PasteError) : Failed (w.onError e o) := .inl rfl

theorem failed_onFinished (error : w.progress.error.isSome = true) : Failed (w.onFinished o) := by
  left
  unfold Working.onFinished
  rw [if_pos error]
  dsimp only
  split
  case isTrue => rfl
  case isFalse => exact error

/-- A closed task without an error is successful when its numbers agree. -/
theorem onFinished_closed (error : w.progress.error = none) (closed : w.progress.fileHandle = none) :
    w.progress.currentSize = w.progress.totalSize ∧ w.onFinished o = w ∨ Failed (w.onFinished o) := by
  have same : w.onFinished o = if w.progress.currentSize ≠ w.progress.totalSize then
      w.setProgress { w.progress with error := some (.invalidRequest "Failed to download all files") } else w := by
    simp [Working.onFinished, Working.onDone, error, closed]
  rw [same]
  by_cases agree : w.progress.currentSize = w.progress.totalSize
  · exact .inl ⟨agree, if_neg (not_not.mpr agree)⟩
  · rw [if_pos agree]
    exact .inr (.inl rfl)

/-- The counters agree: every entry is there. -/
theorem Fine.complete (fine : Fine w) (closed : w.progress.fileHandle = none)
    (agree : w.progress.currentSize = w.progress.totalSize) :
    Upto w.volume w.handle.targetDir w.handle.files none w.handle.files.length := by
  have size := fine.honest closed agree
  rcases fine.settled with ⟨-, ⟨upto, -⟩ | beyond⟩ | ⟨writer, opened, -⟩
  · exact upto
  · rw [List.take_length] at beyond
    omega
  · simp [closed] at opened

/-- What the task does after an event on it, also when it has just been started. -/
theorem whole_goOn (good : Good Anything files targetDir w) (ready : Ready w)
    (small : files.length < 2 ^ 31)
    (fine : w.handle.isFinished = true → w.progress.error.isSome = true ∨ Fine w)
    (receiving : w.handle.isFinished = false → ∀ writer ∈ w.progress.fileHandle, Receiving w writer) :
    Whole (s.goOn w o) := by
  unfold goOn
  split
  case isTrue finished =>
    obtain ⟨after, closed⟩ := good.onFinished (o := o) anything_opens.toPreserves
    have inOrder := ended after closed (isFinished_onFinished finished)
    cases error : w.progress.error with
    | some e =>
        exact whole_of_failed rfl rfl rfl inOrder small (failed_onFinished (by simp [error]))
    | none =>
        have fine := (fine finished).resolve_left (by simp [error])
        cases opened : w.progress.fileHandle with
        | some writer =>
            have := (good.open_ writer opened).unfinished error fine.running
            simp [this] at finished
        | none =>
            rcases onFinished_closed (o := o) error opened with ⟨agree, same⟩ | failed
            · rw [same] at inOrder ⊢
              exact whole_of_task rfl rfl rfl inOrder small
                (fun unfinished => by simp [finished] at unfinished)
                fun _ _ _ => fine.complete opened agree
            · exact whole_of_failed rfl rfl rfl inOrder small failed
  case isFalse unfinished =>
    unfold request
    split
    case h_1 =>
      exact whole_of_task rfl rfl rfl ⟨good, ready, fun finished => absurd finished unfinished⟩ small
        receiving fun finished => absurd finished unfinished
    case h_2 e _ =>
      obtain ⟨failed, closed⟩ := good.onError (o := o) anything_opens.toPreserves e
      have inOrder := ended failed closed (Failed.isFinished (failed_onError e))
      exact whole_of_failed rfl rfl rfl inOrder small (failed_onError e)

theorem whole_of_same (whole : Whole s) (task : s'.task = s.task) (volume : s'.volume = s.volume)
    (notes : s'.notes = s.notes) : Whole s' := by
  have now (h : PasteTaskHandle) : s'.working h = s.working h := by rw [working, working, volume, notes]
  refine ⟨?_, ?_, ?_, ?_⟩
  · rw [task]
    exact whole.small
  · simp only [task, now]
    exact whole.inOrder
  · simp only [task, now]
    exact whole.receiving
  · rw [Complete, task, volume]
    exact whole.complete

theorem onFinished_notes (w : Working) (o : Outcomes) : w.notes <:+ (w.onFinished o).notes := by
  have ended :
      w.notes <:+ (if w.progress.error.isSome then w.onCancelled o o.removeAgain else w.onDone o).notes := by
    split
    case isTrue => exact List.suffix_refl _
    case isFalse => exact onDone_notes w o
  unfold Working.onFinished
  dsimp only
  generalize (if w.progress.error.isSome then w.onCancelled o o.removeAgain else w.onDone o) =
    w' at ended ⊢
  split <;> exact ended

theorem goOn_notes (s : State) (w : Working) (o : Outcomes) : w.notes <:+ (s.goOn w o).notes := by
  unfold goOn
  split
  case isTrue => exact onFinished_notes w o
  case isFalse =>
    unfold request
    split <;> exact List.suffix_refl _

/-- A task that has just been started. -/
def fresh (v : Volume) (targetDir : Text) (files : List FileDescription) : Working :=
  ⟨⟨{ totalSize := wrap (files.map (·.size)).sum }, targetDir, files⟩, v, []⟩

theorem start_eq (free : ∀ h ∈ s.task, h.isFinished = true) :
    s.start targetDir files o =
      if ((fresh s.volume targetDir files).updateNext 0 o).1.handle.isFinished then
        { s with foreign := s.volume.tree.node }.put
          (((fresh s.volume targetDir files).updateNext 0 o).1.onFinished o)
      else { s with foreign := s.volume.tree.node }.request
        ((fresh s.volume targetDir files).updateNext 0 o).1 o := by
  have free' : ¬ s.task.any (!·.isFinished) = true := by
    cases task : s.task with
    | none => simp
    | some h => simp [free h task]
  unfold start
  rw [if_neg free']
  rfl

/-- What is started goes on as after an answer. -/
theorem start_view (targetDir : Text) (files : List FileDescription) (o : Outcomes)
    (free : ∀ h ∈ s.task, h.isFinished = true) :
    let s' := s.goOn ((fresh s.volume targetDir files).updateNext 0 o).1 o
    (s.start targetDir files o).task = s'.task ∧ (s.start targetDir files o).volume = s'.volume ∧
      (s.start targetDir files o).notes = s'.notes := by
  rw [start_eq free]
  generalize ((fresh s.volume targetDir files).updateNext 0 o).1 = w
  dsimp only
  unfold goOn
  split
  case isTrue => exact ⟨rfl, rfl, rfl⟩
  case isFalse =>
    unfold request
    split <;> exact ⟨rfl, rfl, rfl⟩

theorem fresh_unfinished (v : Volume) (targetDir : Text) (small : files.length < 2 ^ 31) :
    (fresh v targetDir files).handle.isFinished = false := by
  have count : asI32 files.length = files.length := by
    unfold asI32
    omega
  simp [fresh, PasteTaskHandle.isFinished, count]
  omega

theorem not_error (unfinished : w.handle.isFinished = false) : ¬ w.progress.error.isSome = true := by
  intro error
  simp [Failed.isFinished (.inl error)] at unfinished

/-- Without any data the counters only agree when nothing was to be downloaded. -/
theorem fine_of_start {v : Volume} (settled : Settled w)
    (steady : Steady (fresh v targetDir files) w) : Fine w where
  settled := settled
  running := steady.isCanceled
  honest closed agree := by
    have zero : w.progress.currentSize = 0 := steady.currentSize
    rcases settled with ⟨-, ⟨-, exact_⟩ | beyond⟩ | ⟨writer, opened, -⟩
    · rw [List.take_length] at exact_
      omega
    · omega
    · simp [closed] at opened

theorem whole_start (whole : Whole s)
    (small : (∀ h ∈ s.task, h.isFinished = true) → files.length < 2 ^ 31)
    (quiet : ∀ n ∈ (s.start targetDir files o).notes, n.isFailure = false) :
    Whole (s.start targetDir files o) := by
  by_cases free : ∀ h ∈ s.task, h.isFinished = true
  · have small := small free
    obtain ⟨task, volume, notes⟩ := start_view targetDir files o free
    refine whole_of_same ?_ task volume notes
    rw [notes] at quiet
    have quiet : ((fresh s.volume targetDir files).updateNext 0 o).1.Quiet :=
      fun n member => quiet n ((goOn_notes ..).subset member)
    have good : Good Anything files targetDir (fresh s.volume targetDir files) :=
      ⟨rfl, rfl, nofun, trivial⟩
    obtain ⟨after, ready⟩ := good.updateNext (o := o) anything_opens (fun _ => rfl) 0
    have unfinished := fresh_unfinished s.volume targetDir small
    cases result : ((fresh s.volume targetDir files).updateNext 0 o).2 with
    | none =>
        have settled :=
          updateNext_start
          (w := fresh s.volume targetDir files) small unfinished rfl rfl rfl quiet result
        refine whole_goOn after (ready (.inr ⟨rfl, rfl⟩)) small
          (fun _ => settled.imp id ?_) fun unfinished' => ?_
        · rintro ⟨steady, settled⟩
          exact fine_of_start settled steady
        · exact (settled.resolve_left (not_error unfinished')).2.receiving
    | some e =>
        obtain ⟨unfinished', closed⟩ :=
          updateNext_stuck (w := fresh s.volume targetDir files) small unfinished rfl rfl result
        refine whole_goOn after (ready (.inr ⟨rfl, rfl⟩)) small (fun finished => ?_) fun _ => ?_
        · simp [finished] at unfinished'
        · simp [closed]
  · rwa [start_busy free]

/-- An error that is reported ends the task. -/
theorem whole_onError (good : Good Anything files targetDir w) (small : files.length < 2 ^ 31)
    (e : PasteError) :
    Whole (s.goOn (w.onError e o) o) := by
  obtain ⟨after, -⟩ := good.onError (o := o) anything_opens.toPreserves e
  have finished := Failed.isFinished (failed_onError (w := w) (o := o) e)
  refine whole_goOn after (.inl finished) small (fun _ => .inl rfl) fun unfinished => ?_
  simp [finished] at unfinished

/-- Data that was written whole and counted. -/
theorem settled_of_write {writer writer' : BufWriter} {v : Volume} {data : Bytes}
    (small : w.handle.files.length < 2 ^ 31)
    (unfinished : w.handle.isFinished = false) (open_ : OpenAt w writer)
    (receiving : Receiving w writer) (honest : Honest w data.length)
    (written_ : writer.write w.volume data o = (v, writer', true))
    (quiet : ((written w v writer').updateNext data.length o).1.Quiet)
    (fine : ((written w v writer').updateNext data.length o).2 = none) :
    ((written w v writer').updateNext data.length o).1.progress.error.isSome = true ∨
      Fine ((written w v writer').updateNext data.length o).1 := by
  obtain ⟨bytes, holding, length⟩ := receiving.holding
  obtain ⟨holding', grows, place⟩ := holding_write holding written_ rfl
  dsimp only at holding' grows place
  have counted :
      Counted (written w v writer')
      (some writer'.place) w.progress.listIndex.toNat w.progress.offset :=
    receiving.counted.grow ⟨rfl, rfl, rfl, rfl, rfl⟩ grows fun p same => .inl (place ▸ same)
  have length' : (bytes ++ data).length = (written w v writer').progress.offset + data.length := by
    rw [List.length_append, length]
    rfl
  refine (updateNext_settled (w := written w v writer') small unfinished rfl
    (openAt_written open_ grows place holding') holding' length' counted honest.1 quiet fine).imp id ?_
  rintro ⟨steady, settled, last⟩
  have running : w.progress.isCanceled = false := by
    simp only [PasteTaskHandle.isFinished, Bool.or_eq_false_iff] at unfinished
    exact unfinished.1.1
  refine ⟨settled, steady.isCanceled.trans running, fun closed agree => ?_⟩
  have counter : wrap (w.progress.currentSize + data.length) = w.progress.currentSize + data.length :=
    Nat.mod_eq_of_lt honest.1
  rw [steady.currentSize, steady.totalSize] at agree
  rw [steady.totalSize, steady.files]
  exact honest.2 (last closed) (counter.symm.trans agree)

theorem whole_accepted (whole : Whole s) (task : s.task = some h) (accepts : Accepts h r)
    (honest : Honest (s.working h) r.requestedData.length)
    (quiet : ∀ n ∈ (s.accepted h r o).notes, n.isFailure = false) : Whole (s.accepted h r o) := by
  have small := whole.small h task
  have inOrder := whole.inOrder h task
  obtain ⟨after, ready⟩ := inOrder.handleFileContentsResponse (o := o) anything_opens r.requestedData
  unfold accepted at quiet ⊢
  cases opened : (s.working h).progress.fileHandle with
  | none =>
      simp only [Working.handleFileContentsResponse, opened]
      exact whole_onError inOrder.toGood small _
  | some writer =>
      cases result : (s.working h).handleFileContentsResponse r.requestedData o with
      | mk w error =>
          rw [result] at after ready quiet
          cases error with
          | some e => exact whole_onError after small e
          | none =>
              have quiet : w.Quiet := fun n member => quiet n ((goOn_notes ..).subset member)
              have receiving := whole.receiving h task accepts.1 writer opened
              have fine : w.progress.error.isSome = true ∨ Fine w := by
                simp only [Working.handleFileContentsResponse, opened] at result
                cases written_ : writer.write (s.working h).volume r.requestedData o with
                | mk v rest =>
                    obtain ⟨writer', ok⟩ := rest
                    rw [written_] at result
                    cases ok with
                    | false => cases result
                    | true =>
                        have same :
                            (written (s.working h) v writer').updateNext r.requestedData.length o =
                          (w, none) := result
                        have settled :=
                          settled_of_write (o := o) small accepts.1 (inOrder.open_ writer opened)
                          receiving honest written_
                        rw [same] at settled
                        exact settled quiet rfl
              refine whole_goOn after (ready rfl) small (fun _ => fine) fun unfinished => ?_
              exact (fine.resolve_left (not_error unfinished)).settled.receiving

theorem whole_refused (whole : Whole s) (task : s.task = some h) (refuses : Refuses h r) :
    Whole (s.failedResponse (s.working h) r o) := by
  have small := whole.small h task
  have inOrder := whole.inOrder h task
  unfold failedResponse
  dsimp only
  split
  case isTrue =>
    have good : Good Anything h.files h.targetDir ((s.working h).setProgress
        { (s.working h).progress with
          error := some (.invalidRequest ("Failed to read file contents, stream id: " ++
            toString r.streamId ++ ", msg_flags: " ++ toString r.msgFlags)) }) :=
      inOrder.of_same rfl rfl rfl rfl rfl rfl rfl rfl
    have finished : (((s.working h).setProgress
        { (s.working h).progress with
          error := some (.invalidRequest ("Failed to read file contents, stream id: " ++
            toString r.streamId ++ ", msg_flags: " ++ toString r.msgFlags)) })).handle.isFinished =
              true :=
      Failed.isFinished (.inl rfl)
    refine whole_goOn good (.inl finished) small (fun _ => .inl rfl) fun unfinished => ?_
    rw [finished] at unfinished
    cases unfinished
  case isFalse =>
    refine whole_goOn inOrder.toGood inOrder.ready small (fun finished => ?_) fun unfinished => ?_
    · exact absurd (refuses.1.symm.trans finished) nofun
    · exact whole.receiving h task unfinished

theorem whole_cancel (whole : Whole s) : Whole (s.cancel o) := by
  cases task : s.task with
  | none => simpa [cancel, task] using whole
  | some h =>
      have inOrder := whole.inOrder h task
      have good : Good Anything h.files h.targetDir
          ((s.working h).setProgress { (s.working h).progress with isCanceled := true }) :=
        inOrder.of_same rfl rfl rfl rfl rfl rfl rfl rfl
      obtain ⟨after, closed⟩ := good.onCancelled (o := o) anything_opens.toPreserves o.remove
      simp only [cancel, task]
      exact whole_of_failed rfl rfl rfl (ended after closed rfl) (whole.small h task) (.inr rfl)

theorem whole_timeout (whole : Whole s) {late : Bool} : Whole (s.timeout late o) := by
  cases task : s.task with
  | none => simpa [timeout, task] using whole
  | some h =>
      simp only [timeout, task]
      split
      case isTrue => exact whole
      case isFalse =>
        have inOrder := whole.inOrder h task
        have good : Good Anything h.files h.targetDir ((s.working h).setProgress
            { (s.working h).progress with error := some (.invalidRequest "Failed to read file contents") }) :=
          inOrder.of_same rfl rfl rfl rfl rfl rfl rfl rfl
        obtain ⟨after, closed⟩ := good.onFinished (o := o) anything_opens.toPreserves
        have failed := failed_onFinished (o := o) (w := (s.working h).setProgress
          { (s.working h).progress with error := some (.invalidRequest "Failed to read file contents") }) rfl
        exact whole_of_failed rfl rfl rfl (ended after closed failed.isFinished)
          (whole.small h task) failed

theorem grows_other : Grows none s.volume (s.other p n).volume :=
  ⟨keeps_other, fun _ _ _ => node_other⟩

theorem whole_other (whole : Whole s) : Whole (s.other p n) := by
  obtain ⟨task, -⟩ := other_task (s := s) p n
  refine ⟨?_, fun h is => ?_, fun h is unfinished writer opened => ?_,
    fun h is finished error running => ?_⟩
  · rw [task]
    exact whole.small
  · obtain ⟨good, ready, closed⟩ := whole.inOrder h (task ▸ is)
    exact ⟨⟨rfl, rfl, fun writer opened => openAt_other (good.open_ writer opened), trivial⟩, ready,
      closed⟩
  · obtain ⟨counted, bytes, ⟨content, modified, file, same⟩, length⟩ :=
      whole.receiving h (task ▸ is) unfinished writer opened
    exact ⟨counted.grow ⟨rfl, rfl, rfl, rfl, rfl⟩ grows_other.of_none fun _ => .inl,
      bytes, ⟨content, modified, node_other file, same⟩, length⟩
  · exact (whole.complete h (task ▸ is) finished error running).grow grows_other nofun

theorem whole_step (whole : Whole s) (e : Event) (sound : Sound s e) : Whole (s.step e) := by
  obtain ⟨quiet, sound⟩ := sound
  cases e with
  | start targetDir files o => exact whole_start whole sound quiet
  | cancel o => exact whole_cancel whole
  | response r o =>
      simp only [step] at quiet ⊢
      rcases s.response_cases r o with ⟨-, same⟩ | ⟨h, task, refuses, same⟩ | ⟨h, task, accepts, same⟩
      · rwa [same]
      · rw [same]
        exact whole_refused whole task refuses
      · rw [same] at quiet ⊢
        exact whole_accepted whole task accepts (sound h task accepts) quiet
  | timeout late o => exact whole_timeout whole
  | other p n => exact whole_other whole

theorem whole_initial (v : Volume) : Whole (initial v) := by
  have idle {p : PasteTaskHandle → Prop} : ∀ h ∈ (initial v).task, p h :=
    fun _ is => absurd is (Option.not_mem_none _)
  exact ⟨idle, idle, idle, idle⟩

end State

/-- In a run of sound events a paste that is reported as successful is complete. -/
theorem successful_paste_complete (v : Volume) (events : List Event)
    (sound : Along State.step Sound (State.initial v) events) :
    Always State.step Complete (State.initial v) events := by
  have always : Always State.step State.Whole (State.initial v) events :=
    Runs.always_of_along (fun s e whole now => State.whole_step whole e now)
      (State.whole_initial v) sound
  exact always.mono fun s whole => whole.complete

theorem successful_paste_complete_one :
    Always State.step Complete (State.initial withTarget)
      [.start ['/', 't'] (filesOf (oneFile [.char 'a']) 0) {},
        .response (answer [1, 2, 3, 4, 5]) {}] := by
  apply successful_paste_complete
  refine ⟨⟨by decide +kernel, fun _ => by decide +kernel⟩, ⟨by decide +kernel, ?_⟩, trivial⟩
  rintro h is -
  constructor
  · revert h
    decide +kernel
  · rintro -
    revert h
    decide +kernel

/-- A list with one directory. -/
def oneDirectory : List FileDescription := [⟨0, ['d'], .directory, 0, 0, 0, 0, 0, 0o755⟩]

/-- Nobody hears of a directory that could not be made. -/
theorem missing_directory_unreported :
    ¬ Always State.step Complete (State.initial withTarget)
      [.start ['/', 't'] oneDirectory { createDir := fun _ => some 0 }] := by
  intro always
  have last := always.last
  have started : ((State.initial withTarget).start ['/', 't'] oneDirectory
      { createDir := fun _ => some 0 }).task.isSome = true := State.isSome_start
  obtain ⟨h, is⟩ := Option.isSome_iff_exists.mp started
  have success : h.isFinished = true ∧ h.progress.error = none ∧ h.progress.isCanceled = false ∧
      h.targetDir = ['/', 't'] ∧ h.files = oneDirectory := by
    revert h
    decide +kernel
  obtain ⟨finished, error, running, dir, files⟩ := success
  obtain ⟨place, delivered, -⟩ := last h is finished error running
  rw [dir, files] at delivered
  have made : (((State.initial withTarget).start ['/', 't'] oneDirectory
      { createDir := fun _ => some 0 }).volume).isDir (join ['/', 't'] ['d']) = true :=
    (delivered 0 _ (by decide) rfl).1
  revert made
  decide +kernel

end RemoteControl.Clipboard.Paste
