import RemoteControl.Transfer.Client
import RemoteControl.Transfer.Reading

/-! # When a read job is done

A read job says `Done` when it has its turn and is neither confirmed nor waiting. That
is so after its last file, but also in the very round in which a file could not be
opened, or its digest not be read: the error resets both flags before the job is asked
whether it is complete. The files after the failed one are then never looked at.

Here is one read job among others, with the files it has dealt with on the side. A
round may or may not be its turn; the tree and what the system refuses are new in
every round. A directory that stands in the place of a file ends the job in this way on
Windows only: elsewhere it opens, and is reported when it is read.
-/

namespace RemoteControl.Transfer

open Host (SendConfirm)
open TransferJob

/-- A read job, what it has sent, the files it was told to skip and those it has
    reported an error for. -/
structure Sender where
  job : Option TransferJob
  sent : List Response := []
  skipped : List Int := []
  failed : List Int := []

inductive SenderEvent where
  /-- A tick of `handle_read_jobs`; `stat` is what the system says of a directory. -/
  | round (t : Tree) (stat : FileDigest) (faults : Faults) (turn : Bool)
  | confirm (t : Tree) (r : SendConfirm)

/-- As many times a file as there are errors. -/
def errorsAbout (fileNum : Int) (msgs : List Response) : List Int :=
  msgs.filterMap fun
    | .error _ _ _ => some fileNum
    | _ => none

namespace TransferJob

/-- The files the errors of a round are about. The number in the message is that of the
    next file where the job has gone on to it. -/
def reported (lib : Library) (t : Tree) (faults : Faults) (turn : Bool) (job : TransferJob) :
    List Int :=
  if job.isLastJob then []
  else
    let (begun, msgs) := job.initJob lib t faults
    errorsAbout job.fileNum msgs ++
      if turn then errorsAbout begun.fileNum (begun.takeTurn lib t faults).2 else []

/-- A directory in the place of the current file. `File::open` takes it on Unix, and only
    the reads fail. -/
def opensDir (lib : Library) (t : Tree) (job : TransferJob) : Bool :=
  match job.entry? job.fileNum with
  | none => false
  | some e => !lib.windows && t.node (job.target lib e) = some .dir

/-- The tree as the job finds it at its file: a directory that opens has a size and a time
    as a file has. -/
def found (lib : Library) (t : Tree) (stat : FileDigest) (job : TransferJob) : Tree :=
  match job.entry? job.fileNum with
  | none => t
  | some e =>
      if job.opensDir lib t then
        t.put (job.target lib e) (some (.file (List.replicate stat.size 0) stat.modified))
      else t

/-- What is refused to the job at its file, reading a directory included. -/
def refused (lib : Library) (t : Tree) (faults : Faults) (job : TransferJob) : Faults :=
  if job.opensDir lib t && !job.stream.any (·.mode = .write) then
    { faults with read := some (faults.read.getD "Is a directory") }
  else faults

end TransferJob

namespace Sender

def round (lib : Library) (t : Tree) (faults : Faults) (turn : Bool) (job : TransferJob)
    (s : Sender) : Sender :=
  let (after, msgs) := job.handleReadJob lib t faults turn
  { s with
    job := after
    sent := s.sent ++ msgs
    failed := s.failed ++ job.reported lib t faults turn }

def confirm (lib : Library) (t : Tree) (r : SendConfirm) (job : TransferJob) (s : Sender) : Sender :=
  if r.id ≠ job.id then s
  else if job.confirmPanics r then { s with job := none }
  else
    let skips := job.fileNum = r.fileNum ∧ r.union = some (.skip true)
    { s with
      job := some (job.confirm lib t r)
      skipped := if skips then s.skipped ++ [job.fileNum] else s.skipped }

def step (lib : Library) (s : Sender) (event : SenderEvent) : Sender :=
  match s.job, event with
  | none, _ => s
  | some job, .round t stat faults turn =>
      s.round lib (job.found lib t stat) (job.refused lib t faults) turn job
  | some job, .confirm t r => s.confirm lib (job.found lib t ⟨0, 0⟩) r job

/-- The file was sent to its end, skipped, or reported. -/
def Dealt (s : Sender) (id i : Int) : Prop :=
  .block ⟨id, i, [], false⟩ ∈ s.sent ∨ i ∈ s.skipped ∨ i ∈ s.failed

/-- Once the job is done, every file from the one it started with has been dealt with. -/
def Complete (start : TransferJob) (s : Sender) : Prop :=
  ∀ n, .done start.id n ∈ s.sent →
    ∀ i : Nat, i < start.files.length → start.fileNum ≤ i → s.Dealt start.id i

end Sender

/-- A turn that ends the job although there are files left: a file before the last one
    fails while the job asks before it sends, or the job has a negative number. -/
def TransferJob.EndsEarly (lib : Library) (t : Tree) (faults : Faults) (job : TransferJob) : Prop :=
  job.enableOverwriteDetection = true ∧ job.beginFails lib t faults = true ∧
      job.fileNum + 1 < job.files.length ∨
    job.fileNum < 0 ∧ job.files ≠ [] ∧ job.jobError = none ∧
      (job.enableOverwriteDetection = true → job.fileConfirmed = false)

instance (lib : Library) (t : Tree) (faults : Faults) (job : TransferJob) :
    Decidable (job.EndsEarly lib t faults) :=
  inferInstanceAs (Decidable (_ ∨ _))

/-- No turn ends the job early. -/
def Sender.Lasting (lib : Library) (s : Sender) : SenderEvent → Prop
  | .round t stat faults true => ∀ job, s.job = some job →
      ¬ job.EndsEarly lib (job.found lib t stat) (job.refused lib t faults)
  | _ => True

namespace TransferJob

variable {lib : Library} {t : Tree} {faults : Faults} {job : TransferJob}

theorem entry?_isSome_iff {n : Int} :
    (job.entry? n).isSome = true ↔ 0 ≤ n ∧ n < job.files.length := by
  unfold entry?
  split_ifs with negative
  · simp only [Option.isSome_none, Bool.false_eq_true, false_iff]
    omega
  · rw [Option.isSome_iff_ne_none, ne_eq, List.getElem?_eq_none_iff]
    omega

theorem entry?_eq_none_iff {n : Int} :
    job.entry? n = none ↔ n < 0 ∨ (job.files.length : Int) ≤ n := by
  rw [← Option.isNone_iff_eq_none, ← Option.not_isSome, Bool.not_eq_true', ← Bool.not_eq_true,
    entry?_isSome_iff]
  omega

/-- A directory that opens is no failure to begin the file, unless its digest is refused. -/
theorem beginFails_of_opensDir (opens : job.opensDir lib t = true) (closed : job.stream = none)
    (granted : faults.open_ = none) (stat : FileDigest) :
    job.beginFails lib (job.found lib t stat) (job.refused lib t faults) =
      (job.enableOverwriteDetection && faults.digest.isSome) := by
  cases listed : job.entry? job.fileNum with
  | none =>
      rw [opensDir, listed] at opens
      cases opens
  | some e =>
      have file : (job.found lib t stat).isFile (job.target lib e) = true := by
        simp only [found, listed, opens, if_true, FileTree.isFile, FileTree.put_node_self]
      have granted' : (job.refused lib t faults).open_ = none := by
        unfold refused
        split_ifs <;> exact granted
      have digest : (job.refused lib t faults).digest = faults.digest := by
        unfold refused
        split_ifs <;> rfl
      simp [beginFails, listed, openFails, digestFails, closed, file, granted', digest]

/-! ## The turn that ends a job -/

/-- The job ends if it has its turn now. -/
def Finished (job : TransferJob) : Prop :=
  if job.enableOverwriteDetection then job.fileConfirmed = false ∧ job.fileIsWaiting = false
  else job.entry? job.fileNum = none

theorem Finished.idle (finished : job.Finished) (detection : job.enableOverwriteDetection = true) :
    job.fileConfirmed = false ∧ job.fileIsWaiting = false := by
  rwa [Finished, if_pos detection] at finished

theorem Finished.unlisted (finished : job.Finished)
    (undetected : job.enableOverwriteDetection = false) : job.entry? job.fileNum = none := by
  rw [Finished, undetected] at finished
  exact finished

theorem finished_of_idle (detection : job.enableOverwriteDetection = true)
    (unconfirmed : job.fileConfirmed = false) (idle : job.fileIsWaiting = false) : job.Finished := by
  rw [Finished, if_pos detection]
  exact ⟨unconfirmed, idle⟩

theorem finished_of_unlisted (undetected : job.enableOverwriteDetection = false)
    (unlisted : job.entry? job.fileNum = none) : job.Finished := by
  rw [Finished, undetected]
  exact unlisted

theorem jobError_of_many (many : 1 < job.files.length) : job.jobError = none := by
  have several : (job.files.length = 1) = False := by simp; omega
  simp [jobError, several]

theorem farewell_of_no_error (fine : job.jobError = none) :
    job.farewell = .done job.id job.fileNum := by
  simp only [farewell, fine]

theorem farewell_of_error {err : String} (error : job.jobError = some err) :
    job.farewell = .error job.id job.fileNum err := by
  simp only [farewell, error]

theorem takeTurn_of_finished (finished : job.Finished) :
    job.takeTurn lib t faults = (none, [job.farewell]) := by
  cases detection : job.enableOverwriteDetection with
  | true =>
      obtain ⟨unconfirmed, idle⟩ := finished.idle detection
      simp [takeTurn, read, jobCompleted, detection, unconfirmed, idle]
  | false =>
      simp only [takeTurn, read, jobCompleted, detection, finished.unlisted detection]
      rfl

theorem Turned.finished {after : Option TransferJob} {msgs : List Response}
    (turned : Turned lib t job after msgs) (gone : after = none) : job.Finished := by
  cases turned with
  | ended idle unlisted =>
      cases detection : job.enableOverwriteDetection with
      | true => exact finished_of_idle detection (idle detection).1 (idle detection).2
      | false => exact finished_of_unlisted detection (unlisted detection)
  | waits | stalls | streamless | sent | last | failed => cases gone

end TransferJob

namespace Sender

/-- The job has sent something while at file `fileNum`. -/
def put (after : Option TransferJob) (msgs : List Response) (fileNum : Int) (s : Sender) : Sender :=
  { s with
    job := after
    sent := s.sent ++ msgs
    failed := s.failed ++ errorsAbout fileNum msgs }

variable {lib : Library} {t : Tree} {faults : Faults} {s : Sender} {job start : TransferJob}

/-- A round begins the current file. -/
def begin_ (lib : Library) (t : Tree) (faults : Faults) (job : TransferJob) (s : Sender) : Sender :=
  s.put (some (job.initJob lib t faults).1) (job.initJob lib t faults).2 job.fileNum

theorem round_without_turn (active : job.isLastJob = false) :
    s.round lib t faults false job = s.begin_ lib t faults job := by
  simp [round, begin_, put, handleReadJob, reported, active]

theorem round_with_turn (active : job.isLastJob = false) :
    s.round lib t faults true job =
      (s.begin_ lib t faults job).put ((job.initJob lib t faults).1.takeTurn lib t faults).1
        ((job.initJob lib t faults).1.takeTurn lib t faults).2
          (job.initJob lib t faults).1.fileNum := by
  simp [round, begin_, put, handleReadJob, reported, active]

variable {after : Option TransferJob} {msgs : List Response} {k : Int} {job' : TransferJob}

theorem dealt_put_iff {id i : Int} :
    (s.put after msgs k).Dealt id i ↔
      s.Dealt id i ∨ .block ⟨id, i, [], false⟩ ∈ msgs ∨ i ∈ errorsAbout k msgs := by
  simp only [Dealt, put, List.mem_append]
  tauto

/-- What is dealt with does not change any more. -/
theorem Dealt.put {id i : Int} (dealt : s.Dealt id i) : (s.put after msgs k).Dealt id i :=
  dealt_put_iff.mpr (.inl dealt)

theorem eq_of_mem_errorsAbout {i : Int} (member : i ∈ errorsAbout k msgs) : i = k := by
  obtain ⟨msg, -, about⟩ := List.mem_filterMap.mp member
  cases msg with
  | error id fileNum err => exact (Option.some.inj about).symm
  | dir | digest | block | done => cases about

/-- The job has dealt with the files before its number and with none after it, and is not
    done yet. -/
structure Inv (start : TransferJob) (s : Sender) (job : TransferJob) : Prop where
  alike : Alike start job
  waiting : job.fileIsWaiting = true → (job.entry? job.fileNum).isSome = true
  onward : start.fileNum ≤ job.fileNum
  dealt : ∀ i, start.fileNum ≤ i → i < job.fileNum → s.Dealt start.id i
  ahead : ∀ i, s.Dealt start.id i → i ≤ job.fileNum
  undone : ∀ n, .done start.id n ∉ s.sent

theorem Inv.complete (inv : Inv start s job) : s.Complete start := by
  intro n done
  exact absurd done (inv.undone n)

section Put

variable {job' : TransferJob} {msgs : List Response}

/-- What is sent about the current file keeps everything but the job's number. -/
theorem Inv.put_ahead (inv : Inv start s job)
    (own : ∀ i, .block ⟨start.id, i, [], false⟩ ∈ msgs → i = job.fileNum) {i : Int}
    (dealt : (s.put (some job') msgs job.fileNum).Dealt start.id i) : i ≤ job.fileNum := by
  rcases dealt_put_iff.mp dealt with before | block | error
  · exact inv.ahead i before
  · exact (own i block).le
  · exact (eq_of_mem_errorsAbout error).le

theorem Inv.put_undone (inv : Inv start s job) (undone : ∀ n, .done start.id n ∉ msgs) (n : Int) :
    .done start.id n ∉ (s.put (some job') msgs job.fileNum).sent := by
  intro done
  rcases List.mem_append.mp done with before | new
  · exact inv.undone n before
  · exact undone n new

/-- The job stays at its file. -/
theorem Inv.stay (inv : Inv start s job) (alike : Alike start job')
    (fileNum : job'.fileNum = job.fileNum)
    (waiting : job'.fileIsWaiting = true → (job.entry? job.fileNum).isSome = true)
    (own : ∀ i, .block ⟨start.id, i, [], false⟩ ∈ msgs → i = job.fileNum)
    (undone : ∀ n, .done start.id n ∉ msgs) :
    Inv start (s.put (some job') msgs job.fileNum) job' where
  alike := alike
  waiting := by
    intro isWaiting
    have listed := entry?_isSome_iff.mp (waiting isWaiting)
    rw [inv.alike.files, ← alike.files, ← fileNum] at listed
    exact entry?_isSome_iff.mpr listed
  onward := fileNum ▸ inv.onward
  dealt := fun i first before => (inv.dealt i first (fileNum ▸ before)).put
  ahead := fun i dealt => fileNum ▸ inv.put_ahead own dealt
  undone := inv.put_undone undone

/-- The job goes on to the next file. -/
theorem Inv.next (inv : Inv start s job) (alike : Alike start job')
    (fileNum : job'.fileNum = job.fileNum + 1) (idle : job'.fileIsWaiting = false)
    (here : .block ⟨start.id, job.fileNum, [], false⟩ ∈ msgs ∨
      job.fileNum ∈ errorsAbout job.fileNum msgs)
    (own : ∀ i, .block ⟨start.id, i, [], false⟩ ∈ msgs → i = job.fileNum)
    (undone : ∀ n, .done start.id n ∉ msgs) :
    Inv start (s.put (some job') msgs job.fileNum) job' where
  alike := alike
  waiting := by
    intro isWaiting
    cases idle.symm.trans isWaiting
  onward := by
    rw [fileNum]
    exact inv.onward.trans (by omega)
  dealt := by
    intro i first before
    rw [fileNum] at before
    rcases (Int.lt_add_one_iff.mp before).lt_or_eq with earlier | rfl
    · exact (inv.dealt i first earlier).put
    · exact dealt_put_iff.mpr (.inr here)
  ahead := by
    intro i dealt
    have := inv.put_ahead own dealt
    omega
  undone := inv.put_undone undone

end Put

/-- Beginning a file keeps the invariant. -/
theorem Inv.begin_ (inv : Inv start s job) :
    Inv start (s.begin_ lib t faults job) (job.initJob lib t faults).1 := by
  have alike := inv.alike
  unfold Sender.begin_
  generalize (job.initJob lib t faults).1 = begun, (job.initJob lib t faults).2 = msgs,
    @initJob_cases lib t job faults = cases_
  cases cases_ with
  | past unlisted =>
      exact inv.stay ⟨alike.id, alike.files, alike.detection, alike.active⟩ rfl inv.waiting
        (by simp) (by simp)
  | ready listed =>
      exact inv.stay alike rfl inv.waiting (by simp) (by simp)
  | opened listed =>
      exact inv.stay ⟨alike.id, alike.files, alike.detection, alike.active⟩ rfl nofun
        (by simp) (by simp)
  | asked listed =>
      exact inv.stay ⟨alike.id, alike.files, alike.detection, alike.active⟩ rfl (fun _ => listed)
        (by simp) (by simp)
  | unopened err listed =>
      exact inv.next ⟨alike.id, alike.files, alike.detection, alike.active⟩ rfl rfl
        (.inr (List.mem_singleton_self _)) (by simp) (by simp)
  | undigested err listed =>
      exact inv.stay ⟨alike.id, alike.files, alike.detection, alike.active⟩ rfl nofun
        (by simp) (by simp)

/-- A turn keeps the invariant unless it ends the job. -/
theorem Inv.turn (inv : Inv start s job) (left : (job.takeTurn lib t faults).1 = some job') :
    Inv start (s.put (job.takeTurn lib t faults).1 (job.takeTurn lib t faults).2 job.fileNum) job' := by
  have alike := inv.alike
  have cases_ := @takeTurn_cases lib t job faults
  rw [left] at cases_ ⊢
  generalize (job.takeTurn lib t faults).2 = msgs at cases_ ⊢
  cases cases_ with
  | waits => exact inv.stay alike rfl inv.waiting (by simp) (by simp)
  | stalls =>
      exact inv.stay ⟨alike.id, alike.files, alike.detection, alike.active⟩ rfl inv.waiting
        (by simp) (by simp)
  | streamless => exact inv.stay alike rfl inv.waiting (by simp) (by simp)
  | sent =>
      exact inv.stay ⟨alike.id, alike.files, alike.detection, alike.active⟩ rfl inv.waiting
        (by simp) (by simp)
  | last =>
      exact inv.next ⟨alike.id, alike.files, alike.detection, alike.active⟩ rfl rfl
        (.inl (by simp [alike.id])) (by simp) (by simp)
  | failed err =>
      exact inv.next ⟨alike.id, alike.files, alike.detection, alike.active⟩ rfl rfl
        (.inr (List.mem_singleton_self _)) (by simp) (by simp)

theorem Inv.confirm {r : SendConfirm} (inv : Inv start s job)
    (left : (s.confirm lib t r job).job = some job') (present : s.job = some job) :
    Inv start (s.confirm lib t r job) job' := by
  have alike := inv.alike
  unfold Sender.confirm at left ⊢
  split_ifs at left ⊢ with other panics
  · cases present.symm.trans left
    exact inv
  · cases left
    dsimp only
    by_cases skips : job.fileNum = r.fileNum ∧ r.union = some (.skip true)
    · rw [confirm_of_skip skips.1 skips.2, if_pos skips]
      refine ⟨⟨alike.id, alike.files, alike.detection, alike.active⟩, nofun, ?_, ?_, ?_, inv.undone⟩
      · exact inv.onward.trans (Int.le_add_one le_rfl)
      · intro i first before
        rcases (Int.lt_add_one_iff.mp before).lt_or_eq with earlier | rfl
        · rcases inv.dealt i first earlier with block | skipped | failed
          · exact .inl block
          · exact .inr (.inl (List.mem_append_left _ skipped))
          · exact .inr (.inr failed)
        · exact .inr (.inl (List.mem_append_right _ (List.mem_singleton_self _)))
      · have next : job.setFileSkipped.fileNum = job.fileNum + 1 := rfl
        rintro i (block | skipped | failed)
        · exact (inv.ahead i (.inl block)).trans (by omega)
        · rcases List.mem_append.mp skipped with before | here
          · exact (inv.ahead i (.inr (.inl before))).trans (by omega)
          · rw [List.mem_singleton.mp here]
            omega
        · exact (inv.ahead i (.inr (.inr failed))).trans (by omega)
    · obtain ⟨stream, transferred, finishedSize, confirmed, skipped, shape, -⟩ :=
        @confirm_stays lib t job r skips
      rw [shape, if_neg skips]
      exact ⟨⟨alike.id, alike.files, alike.detection, alike.active⟩, inv.waiting, inv.onward,
        inv.dealt, inv.ahead, inv.undone⟩

/-- All the job's files have been dealt with. -/
def AllDealt (start : TransferJob) (s : Sender) : Prop :=
  ∀ i : Nat, i < start.files.length → start.fileNum ≤ i → s.Dealt start.id i

/-- The farewell of a job is all it sends, and it needs all files. -/
theorem Inv.complete_farewell_iff (inv : Inv start s job) :
    (s.put none [job.farewell] k).Complete start ↔ (job.jobError = none → s.AllDealt start) := by
  have dealt_iff (fine : job.jobError = none) (i : Int) :
      (s.put none [job.farewell] k).Dealt start.id i ↔ s.Dealt start.id i := by
    rw [dealt_put_iff, farewell_of_no_error fine]
    simp [errorsAbout]
  cases error : job.jobError with
  | none =>
      constructor
      · intro complete _ i listed first
        refine (dealt_iff error i).mp (complete job.fileNum ?_ i listed first)
        rw [farewell_of_no_error error, inv.alike.id]
        exact List.mem_append_right _ (List.mem_singleton_self _)
      · intro all n _ i listed first
        exact (dealt_iff error i).mpr (all rfl i listed first)
  | some err =>
      refine iff_of_true ?_ nofun
      intro n done
      rcases List.mem_append.mp done with before | new
      · exact absurd before (inv.undone n)
      · rw [farewell_of_error error] at new
        cases List.mem_singleton.mp new

/-- The job is past its last file. -/
theorem Inv.allDealt_of_past (inv : Inv start s job) (past : (start.files.length : Int) ≤ job.fileNum) :
    s.AllDealt start := by
  intro i listed first
  exact inv.dealt i first (by omega)

/-- The file after a failed one has not been dealt with. -/
theorem Inv.not_allDealt (inv : Inv start s job)
    (silent : ∀ i, .block ⟨start.id, i, [], false⟩ ∉ msgs) (first : 0 ≤ job.fileNum)
    (more : job.fileNum + 1 < start.files.length) :
    ¬ (s.put after msgs job.fileNum).AllDealt start := by
  intro all
  have onward := inv.onward
  have index : ((job.fileNum + 1).toNat : Int) = job.fileNum + 1 := by omega
  have dealt := all (job.fileNum + 1).toNat (by omega) (by omega)
  rw [index] at dealt
  rcases dealt_put_iff.mp dealt with before | block | error
  · have := inv.ahead _ before
    omega
  · exact silent _ block
  · have := eq_of_mem_errorsAbout error
    omega

/-- A job with a negative number has dealt with nothing. -/
theorem Inv.allDealt_of_negative (inv : Inv start s job) (negative : job.fileNum < 0) :
    s.AllDealt start ↔ start.files = [] := by
  constructor
  · intro all
    by_contra some_
    have onward := inv.onward
    have dealt := all 0 (List.length_pos_iff.mpr some_) (by omega)
    have := inv.ahead _ dealt
    omega
  · intro none_ i listed
    rw [none_] at listed
    cases listed

/-- The job's turn would say that it is done, and it is not. -/
def DoneTooEarly (start : TransferJob) (s : Sender) (job : TransferJob) : Prop :=
  job.Finished ∧ job.jobError = none ∧ ¬ s.AllDealt start

theorem not_endsEarly_of_fine (first : 0 ≤ job.fileNum) (fine : job.beginFails lib t faults = false) :
    ¬ job.EndsEarly lib t faults := by
  rintro (⟨-, fails, -⟩ | ⟨negative, -⟩)
  · cases fine.symm.trans fails
  · omega

theorem endsEarly_iff_of_fails (first : 0 ≤ job.fileNum) (fails : job.beginFails lib t faults = true) :
    job.EndsEarly lib t faults ↔
      job.enableOverwriteDetection = true ∧ job.fileNum + 1 < job.files.length := by
  constructor
  · rintro (⟨detection, -, more⟩ | ⟨negative, -⟩)
    · exact ⟨detection, more⟩
    · omega
  · rintro ⟨detection, more⟩
    exact .inl ⟨detection, fails, more⟩

theorem beginFails_of_unlisted (unlisted : job.entry? job.fileNum = none) :
    job.beginFails lib t faults = false := by
  simp only [beginFails, unlisted]

/-- There is no file at the job's number: only a negative number leaves files over. -/
theorem Inv.tooEarly_past_iff (inv : Inv start s job) (unlisted : job.entry? job.fileNum = none)
    (begun : Inv start (s.put (some { job with stream := none }) [] job.fileNum)
      { job with stream := none }) :
    DoneTooEarly start (s.put (some { job with stream := none }) [] job.fileNum)
      { job with stream := none } ↔ job.EndsEarly lib t faults := by
  have fine := @beginFails_of_unlisted lib t faults job unlisted
  have files := inv.alike.files
  have idle : job.fileIsWaiting = false := by
    by_contra waiting
    have listed := inv.waiting (Bool.not_eq_false _ ▸ waiting)
    rw [unlisted] at listed
    cases listed
  rcases entry?_eq_none_iff.mp unlisted with negative | past
  · rw [DoneTooEarly, begun.allDealt_of_negative negative]
    constructor
    · rintro ⟨finished, noError, left⟩
      exact .inr ⟨negative, files ▸ left, noError, fun detection => (finished.idle detection).1⟩
    · rintro (⟨-, fails, -⟩ | ⟨-, left, noError, unasked⟩)
      · cases fine.symm.trans fails
      · refine ⟨?_, noError, files ▸ left⟩
        by_cases detection : job.enableOverwriteDetection = true
        · exact finished_of_idle detection (unasked detection) idle
        · exact finished_of_unlisted (Bool.not_eq_true _ ▸ detection) unlisted
  · have all := begun.allDealt_of_past (files ▸ past)
    exact iff_of_false (fun early => early.2.2 all) (not_endsEarly_of_fine (by omega) fine)

section Failed

variable {job' : TransferJob} {msgs : List Response}

/-- A file that fails is not the last one: the job ends in its place only if it asks
    before it sends. -/
theorem Inv.tooEarly_of_more (inv : Inv start s job) (alike : Alike start job')
    (silent : ∀ i, .block ⟨start.id, i, [], false⟩ ∉ msgs) (first : 0 ≤ job.fileNum)
    (more : job.fileNum + 1 < start.files.length) (finished : job'.Finished) :
    DoneTooEarly start (s.put (some job') msgs job.fileNum) job' := by
  refine ⟨finished, jobError_of_many ?_, inv.not_allDealt silent first more⟩
  rw [alike.files]
  omega

/-- The file cannot be opened. -/
theorem Inv.tooEarly_unopened_iff (inv : Inv start s job) (err : String)
    (listed : (job.entry? job.fileNum).isSome = true) (fails : job.beginFails lib t faults = true)
    (begun : Inv start (s.put (some job.nextFile) [.error job.id (job.fileNum + 1) err] job.fileNum)
      job.nextFile) :
    DoneTooEarly start (s.put (some job.nextFile) [.error job.id (job.fileNum + 1) err] job.fileNum)
      job.nextFile ↔ job.EndsEarly lib t faults := by
  obtain ⟨first, inside⟩ := entry?_isSome_iff.mp listed
  have files := inv.alike.files
  rw [endsEarly_iff_of_fails first fails, files]
  constructor
  · rintro ⟨finished, -, left⟩
    have more : job.fileNum + 1 < start.files.length := by
      by_contra past
      exact left (begun.allDealt_of_past (not_lt.mp past))
    refine ⟨?_, more⟩
    by_contra undetected
    -- the job would have the next file to begin with
    have outside := entry?_eq_none_iff.mp (finished.unlisted (Bool.not_eq_true _ ▸ undetected))
    change job.fileNum + 1 < 0 ∨ (job.files.length : Int) ≤ job.fileNum + 1 at outside
    rw [files] at outside
    omega
  · rintro ⟨detection, more⟩
    exact inv.tooEarly_of_more begun.alike (by simp) first more (finished_of_idle detection rfl rfl)

/-- The file has no digest to ask about. -/
theorem Inv.tooEarly_undigested_iff (inv : Inv start s job) (err : String)
    (listed : (job.entry? job.fileNum).isSome = true) (fails : job.beginFails lib t faults = true)
    (detection : job.enableOverwriteDetection = true) (alike : Alike start job')
    (finished : job'.Finished) :
    DoneTooEarly start (s.put (some job') [.error job.id job.fileNum err] job.fileNum) job' ↔
      job.EndsEarly lib t faults := by
  obtain ⟨first, inside⟩ := entry?_isSome_iff.mp listed
  rw [endsEarly_iff_of_fails first fails, inv.alike.files]
  constructor
  · rintro ⟨-, -, left⟩
    refine ⟨detection, ?_⟩
    by_contra last
    refine left ?_
    intro i inFiles from_
    by_cases here : (i : Int) = job.fileNum
    · rw [here]
      exact dealt_put_iff.mpr (.inr (.inr (List.mem_singleton_self _)))
    · exact (inv.dealt i from_ (by rw [inv.alike.files] at inside; omega)).put
  · rintro ⟨-, more⟩
    exact inv.tooEarly_of_more alike (by simp) first more finished

end Failed

/-- A turn is the end of the job, with files left, exactly when `EndsEarly` says so of the
    job before the round. -/
theorem Inv.tooEarly_iff (inv : Inv start s job) :
    DoneTooEarly start (s.begin_ lib t faults job) (job.initJob lib t faults).1 ↔
      job.EndsEarly lib t faults := by
  have begun := @Inv.begin_ lib t faults s job start inv
  unfold Sender.begin_ at begun ⊢
  generalize (job.initJob lib t faults).1 = job', (job.initJob lib t faults).2 = msgs,
    @initJob_cases lib t job faults = cases_ at begun
  -- a file that is there: the job goes on with it
  have goesOn (listed : (job.entry? job.fileNum).isSome = true)
      (fine : job.beginFails lib t faults = false) (unfinished : ¬ job'.Finished) :
      DoneTooEarly start (s.put (some job') msgs job.fileNum) job' ↔ job.EndsEarly lib t faults :=
    iff_of_false (fun early => unfinished early.1)
      (not_endsEarly_of_fine (entry?_isSome_iff.mp listed).1 fine)
  cases cases_ with
  | past unlisted => exact inv.tooEarly_past_iff unlisted begun
  | ready listed fine stream settled =>
      refine goesOn listed fine ?_
      intro finished
      cases detection : job.enableOverwriteDetection with
      | true =>
          obtain ⟨unconfirmed, idle⟩ := finished.idle detection
          rcases settled detection with confirmed | waiting
          · cases unconfirmed.symm.trans confirmed
          · cases idle.symm.trans waiting
      | false =>
          rw [finished.unlisted detection] at listed
          cases listed
  | @opened e listed fine undetected =>
      refine goesOn (by rw [listed]; rfl) fine ?_
      intro finished
      cases (finished.unlisted undetected).symm.trans listed
  | asked listed fine detection file =>
      refine goesOn listed fine ?_
      intro finished
      cases (finished.idle detection).2
  | unopened err listed fails => exact inv.tooEarly_unopened_iff err listed fails begun
  | undigested err listed fails detection =>
      exact inv.tooEarly_undigested_iff err listed fails detection begun.alike
        (finished_of_idle detection rfl rfl)

/-- A round with a turn, exactly. -/
theorem Inv.complete_round_iff (inv : Inv start s job) :
    (s.round lib t faults true job).Complete start ↔ ¬ job.EndsEarly lib t faults := by
  have begun := @Inv.begin_ lib t faults s job start inv
  rw [round_with_turn inv.alike.active, ← @Inv.tooEarly_iff lib t faults s job start inv, DoneTooEarly]
  by_cases finished : (job.initJob lib t faults).1.Finished
  · rw [takeTurn_of_finished finished, begun.complete_farewell_iff]
    simp only [finished, true_and, not_and, not_not]
  · refine iff_of_true ?_ (fun early => finished early.1)
    cases left : ((job.initJob lib t faults).1.takeTurn lib t faults).1 with
    | none => exact absurd ((takeTurn_cases faults).finished left) finished
    | some job' => exact left ▸ (begun.turn left).complete

/-- The invariant of a job as long as there is one. -/
def Good (start : TransferJob) (s : Sender) : Prop := ∀ job, s.job = some job → Inv start s job

theorem step_of_gone (gone : s.job = none) (event : SenderEvent) : s.step lib event = s := by
  simp only [step, gone]

theorem step_round (present : s.job = some job) (stat : FileDigest) (turn : Bool) :
    s.step lib (.round t stat faults turn) =
      s.round lib (job.found lib t stat) (job.refused lib t faults) turn job := by
  simp only [step, present]

theorem step_confirm (present : s.job = some job) (r : SendConfirm) :
    s.step lib (.confirm t r) = s.confirm lib (job.found lib t ⟨0, 0⟩) r job := by
  simp only [step, present]

theorem confirm_sent (r : SendConfirm) : (s.confirm lib t r job).sent = s.sent := by
  unfold confirm
  split_ifs <;> rfl

theorem Good.step (good : s.Good start) (event : SenderEvent) : (s.step lib event).Good start := by
  cases present : s.job with
  | none =>
      rw [step_of_gone present]
      exact good
  | some job =>
      have inv := good job present
      intro job' left
      cases event with
      | confirm t r =>
          rw [step_confirm present] at left ⊢
          exact inv.confirm left present
      | round t stat faults turn =>
          rw [step_round present] at left ⊢
          cases turn with
          | false =>
              rw [round_without_turn inv.alike.active] at left ⊢
              cases left
              exact inv.begin_
          | true =>
              rw [round_with_turn inv.alike.active] at left ⊢
              exact inv.begin_.turn left

theorem Good.complete_step_iff (good : s.Good start) (complete : s.Complete start)
    (event : SenderEvent) : (s.step lib event).Complete start ↔ s.Lasting lib event := by
  cases present : s.job with
  | none =>
      rw [step_of_gone present]
      refine iff_of_true complete ?_
      unfold Lasting
      split
      · intro job' present'
        cases present.symm.trans present'
      · trivial
  | some job =>
      have inv := good job present
      cases event with
      | confirm t r =>
          rw [step_confirm present]
          refine iff_of_true ?_ trivial
          intro n done
          rw [confirm_sent] at done
          exact absurd done (inv.undone n)
      | round t stat faults turn =>
          rw [step_round present]
          cases turn with
          | false =>
              rw [round_without_turn inv.alike.active]
              exact iff_of_true inv.begin_.complete trivial
          | true =>
              rw [inv.complete_round_iff]
              constructor
              · rintro lasts _ present'
                cases present.symm.trans present'
                exact lasts
              · intro lasts
                exact lasts job present

end Sender

/-- A job is done only when all its files, from the one it starts with, have been sent,
    skipped or reported, exactly in the runs in which no turn ends it early. -/
theorem done_after_all_files_iff (lib : Library) (id : Int) (path : Text) (fileNum : Int)
    (files : List FileEntry) (detection isResume : Bool) (events : List SenderEvent) :
    let start := { TransferJob.newRead id path fileNum files detection with isResume := isResume }
    Runs.Always (Sender.step lib) (Sender.Complete start) { job := some start } events ↔
      Runs.Along (Sender.step lib) (Sender.Lasting lib) { job := some start } events := by
  intro start
  refine Runs.always_iff_along_of_inv (fun s event (good : s.Good start) => good.step event)
    (fun s event good complete => good.complete_step_iff complete event) ?_ nofun
  rintro job ⟨⟩
  refine ⟨⟨rfl, rfl, rfl, rfl⟩, nofun, le_rfl, ?_, ?_, nofun⟩
  · intro i first before
    exact absurd before (not_lt.mpr first)
  · rintro i (block | skipped | failed)
    · cases block
    · cases skipped
    · cases failed

/-- While a job has not ended it has dealt with every file before its number and with none
    beyond, waits only for an answer about a listed file, and has not said that it is done. -/
theorem files_dealt_in_order (lib : Library) (id : Int) (path : Text) (fileNum : Int)
    (files : List FileEntry) (detection isResume : Bool) (events : List SenderEvent) :
    let start := { TransferJob.newRead id path fileNum files detection with isResume := isResume }
    Runs.Always (Sender.step lib)
      (fun s => ∀ job, s.job = some job → fileNum ≤ job.fileNum ∧
        (∀ i, fileNum ≤ i → i < job.fileNum → s.Dealt id i) ∧
        (∀ i, s.Dealt id i → i ≤ job.fileNum) ∧
        (job.fileIsWaiting = true → (job.entry? job.fileNum).isSome = true) ∧
        ∀ n, .done id n ∉ s.sent) { job := some start } events := by
  intro start
  have first : Sender.Good start { job := some start } := by
    rintro _ ⟨⟩
    exact ⟨⟨rfl, rfl, rfl, rfl⟩, fun waiting => absurd waiting Bool.false_ne_true, le_rfl,
      fun i from_ before => absurd before (not_lt.mpr from_),
      fun i dealt => absurd dealt (by simp [Sender.Dealt]), fun _ => List.not_mem_nil⟩
  have always : Runs.Always (Sender.step lib) (Sender.Good start) { job := some start } events :=
    Runs.always_of_events (fun s event (_ : True) good => good.step event) (fun _ _ => trivial) first
  refine always.mono fun s good job present => ?_
  have inv := good job present
  exact ⟨inv.onward, inv.dealt, inv.ahead, inv.waiting, inv.undone⟩

/-- Two files, the first of which cannot be opened. The error and the end of the job are
    sent in the same round, and nothing ever about the second file. -/
theorem unopened_file_ends_job :
    let start := TransferJob.newRead 1 ['/', 'd'] 0 [⟨['a'], 5, 1⟩, ⟨['b'], 5, 1⟩] true
    let refused : SenderEvent := .round ⟨fun _ => none, []⟩ ⟨0, 0⟩
      { open_ := some "Permission denied" } true
    (Sender.step Setting.plain.lib { job := some start } refused).sent =
        [.error 1 1 "Permission denied", .done 1 1] ∧
      ¬ Runs.Always (Sender.step Setting.plain.lib) (Sender.Complete start) { job := some start }
        [refused] := by
  intro start refused
  refine ⟨by decide, fun always => ?_⟩
  have dealt := always.last 1 (by decide) 1 (by decide) (by decide)
  revert dealt
  unfold Sender.Dealt
  decide

/-- A directory in the place of the first file, on Unix: the job asks about it and goes on. -/
example :
    let start := TransferJob.newRead 1 ['/', 'd'] 0 [⟨['a'], 5, 1⟩, ⟨['b'], 5, 1⟩] true
    let tree : Tree := ⟨fun p => if p = [['d'], ['a']] then some .dir else none, []⟩
    let s := Sender.step Setting.plain.lib { job := some start } (.round tree ⟨40, 2⟩ {} true)
    s.sent = [.digest { id := 1, fileNum := 0, lastModified := 2, fileSize := 40 }] ∧
      s.job.isSome = true := by
  decide

end RemoteControl.Transfer
