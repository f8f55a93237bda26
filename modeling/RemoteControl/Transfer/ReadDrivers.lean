import RemoteControl.Runs
import RemoteControl.Transfer.Reading

/-! # The two drivers of a read job

A read job is driven by the connection (`handle_read_jobs`) or, when the files are those
of the logged-in user, by the connection manager (`handle_read_jobs_tick`), which sends
its results through the connection. The manager gives a job up at its first error, where
the connection may go on with the next file. Up to there the two agree.
-/

namespace RemoteControl.Transfer

open Host (Bytes SendConfirm)
open Runs (exec)

/-- What the manager sends to the connection about a read job. -/
inductive FromCM where
  | fileBlockFromCM (b : FileTransferBlock)
  | fileReadDone (id fileNum : Int)
  | fileReadError (id fileNum : Int) (err : String)
  | fileDigestFromCM (id fileNum : Int) (lastModified fileSize : Nat) (isResume : Bool)
  deriving DecidableEq

/-- What the connection makes of it for the client. -/
def FromCM.response : FromCM → Response
  | .fileBlockFromCM b => .block b
  | .fileReadDone id fileNum => .done id fileNum
  | .fileReadError id fileNum err => .error id fileNum err
  | .fileDigestFromCM id fileNum lastModified fileSize isResume =>
      .digest { id := id, fileNum := fileNum, lastModified := lastModified, fileSize := fileSize
                isResume := isResume }

namespace TransferJob

/-- `get_current_digest`: when the open file was modified, and its size. -/
def getCurrentDigest (t : Tree) (faults : Faults) (job : TransferJob) : Except String (Nat × Nat) :=
  match faults.digest, job.stream.bind fun s => t.node s.place with
  | none, some (.file content modified) => .ok (modified, content.length)
  | fault, _ => .error (fault.getD "file is None")

def initDataStreamForCm (lib : Library) (t : Tree) (faults : Faults) (job : TransferJob) :
    TransferJob × Except String (Option (Nat × Nat)) :=
  match job.openDataStream lib t faults with
  | (job, .error err) => (job, .error err)
  | (job, .ok true) => (job, .ok none)
  | (job, .ok false) =>
      if job.enableOverwriteDetection && !job.fileConfirmed && !job.fileIsWaiting then
        match job.getCurrentDigest t faults with
        | .ok digest => ({ job with fileIsWaiting := true }, .ok (some digest))
        | .error err => (job, .error err)
      else (job, .ok none)

def initReadJobForCm (lib : Library) (t : Tree) (faults : Faults) (job : TransferJob) :
    TransferJob × Except String (List FromCM) :=
  match job.initDataStreamForCm lib t faults with
  | (job, .error err) => (job, .error err)
  | (job, .ok (some (lastModified, fileSize))) =>
      (job, .ok [.fileDigestFromCM job.id job.fileNum lastModified fileSize job.isResume])
  | (job, .ok none) => (job, .ok [])

/-- The last message about a job that has sent all its files. -/
def cmFarewell (job : TransferJob) : FromCM :=
  match job.jobError with
  | some err => .fileReadError job.id job.fileNum err
  | none => .fileReadDone job.id job.fileNum

/-- One tick of the manager for its only job; it is gone when it is finished. -/
def handleReadJobsTick (lib : Library) (t : Tree) (faults : Faults) (job : TransferJob) :
    Option TransferJob × List FromCM :=
  if job.isLastJob then (some job, [])
  else
    match job.initReadJobForCm lib t faults with
    | (job, .error err) => (none, [.fileReadError job.id job.fileNum err])
    | (job, .ok begun) =>
        match job.read lib t faults with
        | (job, .error err) => (none, begun ++ [.fileReadError job.id job.fileNum err])
        | (job, .ok (some b)) => (some job, begun ++ [.fileBlockFromCM b])
        | (job, .ok none) =>
            if job.jobCompleted then (none, begun ++ [job.cmFarewell]) else (some job, begun)

end TransferJob

/-- A job and what was sent about it. -/
structure Driven where
  job : Option TransferJob
  sent : List Response := []

/-- The system may answer differently at every tick. -/
inductive DriverEvent where
  | tick (t : Tree) (faults : TransferJob.Faults)
  | confirm (t : Tree) (r : SendConfirm)

namespace Driven

variable (lib : Library)

def confirm (t : Tree) (r : SendConfirm) (s : Driven) : Driven :=
  { s with job := s.job.map fun job => job.confirm lib t r }

/-- The job is driven by `handle_read_jobs`. -/
def networkStep (s : Driven) : DriverEvent → Driven
  | .tick t faults =>
      match s.job with
      | none => s
      | some job =>
          let (job, sent) := job.handleReadJob lib t faults true
          ⟨job, s.sent ++ sent⟩
  | .confirm t r => s.confirm lib t r

/-- The job is driven by `handle_read_jobs_tick`. -/
def managerStep (s : Driven) : DriverEvent → Driven
  | .tick t faults =>
      match s.job with
      | none => s
      | some job =>
          let (job, sent) := job.handleReadJobsTick lib t faults
          ⟨job, s.sent ++ sent.map FromCM.response⟩
  | .confirm t r => s.confirm lib t r

end Driven

/-! ## Up to the first error -/

/-- What is sent up to the first error, which is the last of it. -/
def upToError : List Response → List Response
  | [] => []
  | r :: rest => if r.isError then [r] else r :: upToError rest

def hasError (sent : List Response) : Bool := sent.any Response.isError

theorem hasError_append (front back : List Response) :
    hasError (front ++ back) = (hasError front || hasError back) := List.any_append

theorem upToError_append_of_clean {front back : List Response} (clean : hasError front = false) :
    upToError (front ++ back) = front ++ upToError back := by
  induction front with
  | nil => rfl
  | cons r rest ih =>
      rw [hasError, List.any_cons, Bool.or_eq_false_iff] at clean
      rw [List.cons_append, upToError, clean.1, if_neg Bool.false_ne_true, ih clean.2, List.cons_append]

theorem upToError_append_of_error {front back : List Response} (fails : hasError front = true) :
    upToError (front ++ back) = upToError front := by
  induction front with
  | nil => cases fails
  | cons r rest ih =>
      rw [List.cons_append, upToError, upToError]
      cases isError : r.isError with
      | true => rfl
      | false =>
          rw [hasError, List.any_cons, isError, Bool.false_or] at fails
          rw [if_neg Bool.false_ne_true, if_neg Bool.false_ne_true, ih fails]

theorem upToError_of_clean {sent : List Response} (clean : hasError sent = false) :
    upToError sent = sent := by
  rw [← List.append_nil sent, upToError_append_of_clean clean]
  rfl

theorem upToError_singleton (r : Response) : upToError [r] = [r] := ite_self _

namespace TransferJob

variable {lib : Library} {t : Tree} {faults : Faults} {job : TransferJob} {begun : List FromCM}

theorem currentDigest_eq : job.currentDigest t faults =
    (job.getCurrentDigest t faults).map fun (modified, size) =>
      { id := job.id, fileNum := job.fileNum, lastModified := modified, fileSize := size
        isResume := job.isResume } := by
  unfold currentDigest getCurrentDigest
  match faults.digest, job.stream.bind fun s => t.node s.place with
  | some _, _ | none, none | none, some .dir | none, some (.file _ _) => rfl

/-- The two ways of beginning a file do the same and say the same. -/
theorem initDataStream_eq : job.initDataStream lib t faults =
    ((job.initReadJobForCm lib t faults).1,
      (job.initReadJobForCm lib t faults).2.map (List.map FromCM.response)) := by
  unfold initReadJobForCm initDataStreamForCm initDataStream
  match job.openDataStream lib t faults with
  | (job', .error err) => rfl
  | (job', .ok true) => rfl
  | (job', .ok false) =>
      dsimp only
      split_ifs
      · rw [currentDigest_eq]
        cases job'.getCurrentDigest t faults <;> rfl
      · rfl

/-- Beginning a file sends no error but the one it ends with. -/
theorem initReadJobForCm_clean {job' : TransferJob}
    (begins : job.initReadJobForCm lib t faults = (job', .ok begun)) :
    hasError (begun.map FromCM.response) = false := by
  unfold initReadJobForCm at begins
  split at begins
  · cases begins
  · cases begins
    rfl
  · cases begins
    rfl

theorem response_cmFarewell : job.cmFarewell.response = job.farewell := by
  unfold cmFarewell farewell
  cases job.jobError <;> rfl

/-- The turn of a job whose file has been begun, as the manager has it. -/
theorem tick_of_begun {job' : TransferJob} (active : job.isLastJob = false)
    (begins : job.initReadJobForCm lib t faults = (job', .ok begun)) :
    (job.handleReadJobsTick lib t faults).2.map FromCM.response =
        begun.map FromCM.response ++ upToError (job'.takeTurn lib t faults).2 ∧
      (job.handleReadJobsTick lib t faults).1 =
        if hasError (job'.takeTurn lib t faults).2 then none else (job'.takeTurn lib t faults).1 := by
  have ticked : job.handleReadJobsTick lib t faults =
      match job'.read lib t faults with
      | (job, .error err) => (none, begun ++ [.fileReadError job.id job.fileNum err])
      | (job, .ok (some b)) => (some job, begun ++ [.fileBlockFromCM b])
      | (job, .ok none) =>
          if job.jobCompleted then (none, begun ++ [job.cmFarewell]) else (some job, begun) := by
    unfold handleReadJobsTick
    simp only [active, Bool.false_eq_true, if_false, begins]
  rw [ticked]
  unfold takeTurn
  match job'.read lib t faults with
  | (job'', .error err) => exact ⟨List.map_append, rfl⟩
  | (job'', .ok (some b)) => exact ⟨List.map_append, rfl⟩
  | (job'', .ok none) =>
      cases completed : job''.jobCompleted with
      | true =>
          simp only [completed, if_true]
          refine ⟨?_, (ite_self _).symm⟩
          rw [List.map_append, List.map_singleton, response_cmFarewell, upToError_singleton]
      | false =>
          simp only [completed, Bool.false_eq_true, if_false]
          exact ⟨(List.append_nil _).symm, rfl⟩

/-- One tick of the two drivers for the same job. -/
theorem tick_agrees :
    (job.handleReadJobsTick lib t faults).2.map FromCM.response =
        upToError (job.handleReadJob lib t faults true).2 ∧
      (job.handleReadJobsTick lib t faults).1 =
        if hasError (job.handleReadJob lib t faults true).2 then none
        else (job.handleReadJob lib t faults true).1 := by
  cases active : job.isLastJob with
  | true =>
      unfold handleReadJobsTick handleReadJob
      rw [active, if_pos rfl, if_pos rfl]
      exact ⟨rfl, rfl⟩
  | false =>
      have started := @initDataStream_eq lib t faults job
      cases begins : job.initReadJobForCm lib t faults with
      | mk job' result =>
          rw [begins] at started
          cases result with
          | error err =>
              have shape : job.handleReadJob lib t faults true = ((job'.takeTurn lib t faults).1,
                  .error job'.id job'.fileNum err :: (job'.takeTurn lib t faults).2) := by
                rw [handleReadJob_of_active faults true active, if_pos rfl]
                simp only [initJob, started, Except.map, List.singleton_append]
              have ticked : job.handleReadJobsTick lib t faults =
                  (none, [.fileReadError job'.id job'.fileNum err]) := by
                simp only [handleReadJobsTick, active, Bool.false_eq_true, if_false, begins]
              rw [shape, ticked]
              exact ⟨rfl, rfl⟩
          | ok begun =>
              have shape : job.handleReadJob lib t faults true = ((job'.takeTurn lib t faults).1,
                  begun.map FromCM.response ++ (job'.takeTurn lib t faults).2) := by
                rw [handleReadJob_of_active faults true active, if_pos rfl]
                simp only [initJob, started, Except.map]
              have clean := initReadJobForCm_clean begins
              have errors : hasError (begun.map FromCM.response ++ (job'.takeTurn lib t faults).2) =
                  hasError (job'.takeTurn lib t faults).2 := by
                rw [hasError_append, clean, Bool.false_or]
              simp only [shape, upToError_append_of_clean clean, errors]
              exact tick_of_begun active begins

end TransferJob

namespace Driven

section Agree

variable {lib : Library}

/-- The manager is where the connection was at its first error, if there was one. -/
structure Agrees (network manager : Driven) : Prop where
  sent : manager.sent = upToError network.sent
  kept : manager.job = if hasError network.sent then none else network.job

variable {network manager : Driven}

theorem Agrees.tick (agrees : Agrees network manager) (t : Tree) (faults : TransferJob.Faults) :
    Agrees (network.networkStep lib (.tick t faults)) (manager.managerStep lib (.tick t faults)) := by
  obtain ⟨sent, kept⟩ := agrees
  cases failed : hasError network.sent with
  | true =>
      simp only [failed, if_true] at kept
      have stopped : manager.managerStep lib (.tick t faults) = manager := by
        simp only [managerStep, kept]
      rw [stopped]
      cases left : network.job with
      | none =>
          have idle : network.networkStep lib (.tick t faults) = network := by
            simp only [networkStep, left]
          rw [idle]
          exact ⟨sent, by simp only [kept, failed, if_true]⟩
      | some job =>
          have further : (network.networkStep lib (.tick t faults)).sent =
              network.sent ++ (job.handleReadJob lib t faults true).2 := by
            simp only [networkStep, left]
          refine ⟨?_, ?_⟩
          · rw [further, upToError_append_of_error failed, sent]
          · simp only [further, hasError_append, failed, Bool.true_or, if_true, kept]
  | false =>
      simp only [failed, Bool.false_eq_true, if_false] at kept
      rw [upToError_of_clean failed] at sent
      cases left : network.job with
      | none =>
          rw [left] at kept
          simp only [networkStep, managerStep, left, kept]
          refine ⟨?_, ?_⟩
          · rw [sent, upToError_of_clean failed]
          · simp only [kept, left, ite_self]
      | some job =>
          rw [left] at kept
          obtain ⟨said, left'⟩ := @TransferJob.tick_agrees lib t faults job
          simp only [networkStep, managerStep, left, kept]
          refine ⟨?_, ?_⟩
          · rw [sent, said, upToError_append_of_clean failed]
          · simp only [hasError_append, failed, Bool.false_or]
            exact left'

theorem Agrees.confirm (agrees : Agrees network manager) (t : Tree) (r : SendConfirm) :
    Agrees (network.confirm lib t r) (manager.confirm lib t r) := by
  obtain ⟨sent, kept⟩ := agrees
  refine ⟨sent, ?_⟩
  have kept' : (network.confirm lib t r).sent = network.sent := rfl
  simp only [kept']
  simp only [Driven.confirm, kept]
  cases hasError network.sent <;> rfl

theorem Agrees.step (agrees : Agrees network manager) (event : DriverEvent) :
    Agrees (network.networkStep lib event) (manager.managerStep lib event) := by
  cases event with
  | tick t faults => exact agrees.tick t faults
  | confirm t r => exact agrees.confirm t r

/-- The two drivers of one job say the same and keep it up to the first error; there
    the manager drops the job and says nothing more. -/
theorem drivers_agree_until_error (lib : Library) (job : TransferJob) (events : List DriverEvent) :
    (exec (managerStep lib) ⟨some job, []⟩ events).sent =
        upToError (exec (networkStep lib) ⟨some job, []⟩ events).sent ∧
      (exec (managerStep lib) ⟨some job, []⟩ events).job =
        if hasError (exec (networkStep lib) ⟨some job, []⟩ events).sent then none
        else (exec (networkStep lib) ⟨some job, []⟩ events).job := by
  have start : Agrees ⟨some job, []⟩ ⟨some job, []⟩ := ⟨rfl, rfl⟩
  have agrees : Agrees (exec (networkStep lib) ⟨some job, []⟩ events)
      (exec (managerStep lib) ⟨some job, []⟩ events) :=
    Runs.exec_rel (fun _ _ event agrees => agrees.step event) start
  exact ⟨agrees.sent, agrees.kept⟩

end Agree

def twoFilesTree : Tree where
  node p := if p = [['s'], ['b']] then some (.file [1, 2] 7) else none
  touched := []

def twoFilesJob : TransferJob := .newRead 1 ['/', 's'] 0 [⟨['a'], 7, 3⟩, ⟨['b'], 7, 2⟩] false

def plainLibrary : Library where
  windows := false
  compress := id
  decompress := id
  encodeDigest _ := []
  decodeDigest _ := none

/-- The connection goes on to the second file, the manager has dropped the job. -/
theorem manager_drops_job_at_missing_file :
    let network (n : Nat) := exec (networkStep plainLibrary) ⟨some twoFilesJob, []⟩
      (List.replicate n (.tick twoFilesTree {}))
    let manager (n : Nat) := exec (managerStep plainLibrary) ⟨some twoFilesJob, []⟩
      (List.replicate n (.tick twoFilesTree {}))
    (network 1).job.isSome = true ∧ (manager 1).job = none ∧
      (network 4).sent =
        [.error 1 1 "No such file or directory", .error 1 1 "data stream is None",
          .block ⟨1, 1, [1, 2], false⟩, .block ⟨1, 1, [], false⟩, .done 1 2] ∧
      (manager 4).sent = [.error 1 1 "No such file or directory"] := by
  decide +kernel

end Driven

end RemoteControl.Transfer
