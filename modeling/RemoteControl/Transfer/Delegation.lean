import RemoteControl.Transfer.ReadDrivers

/-! # Reads delegated to the connection manager

On Windows the connection has the files it sends read by the manager. The peer's actions go
to the manager over one channel, what it reads comes back over another. The connection
itself keeps no more than the ids of the jobs it waits for.

The number of the request that a job, a message or a confirmation belongs to is not in
the code: it is counted here beside it, to say what answers what.
-/

namespace RemoteControl.Transfer.Delegation

open Host (SendConfirm)
open Runs (exec)

/-- What the connection asks of the manager about reads -/
inductive FS where
  | readFile (request : Nat) (path : Text) (id fileNum : Int) (includeHidden overwriteDetection : Bool)
  | cancelRead (id : Int)
  | sendConfirmForRead (request : Nat) (id fileNum : Int) (skip : Bool) (offsetBlk : Nat)
  deriving DecidableEq

/-- What the manager says about reads -/
inductive Data where
  | readJobInitResult (id fileNum : Int) (result : Except String (List FileEntry))
  | fromCm (m : FromCM)

def cmId : FromCM → Int
  | .fileBlockFromCM b => b.id
  | .fileReadDone id _ => id
  | .fileReadError id _ _ => id
  | .fileDigestFromCM id _ _ _ _ => id

def Data.id : Data → Int
  | .readJobInitResult id _ _ => id
  | .fromCm m => cmId m

/-- A job of the manager, and the request it was started for -/
structure Served where
  request : Nat
  job : TransferJob

structure State where
  cmReadJobIds : List Int := []
  toManager : List FS := []
  readJobs : List Served := []
  toConnection : List (Nat × Data) := []
  /-- A panic has aborted the manager. -/
  gone : Bool := false
  /-- How many reads were delegated so far -/
  sends : Nat := 0
  /-- The last of them with an id -/
  latest : Int → Option Nat := fun _ => none
  /-- It was cancelled, or its end was forwarded. -/
  isOver : Int → Bool := fun _ => false

/-- `TransferJob::new_read` for a path, run as a task of its own -/
inductive NewRead where
  | files (files : List FileEntry)
  | invalid (err : String)
  | failed (err : String)

/-- What the manager finds on its host as it handles a message -/
structure Env where
  tree : Tree
  newRead : Text → Bool → NewRead
  maxFiles : Nat
  /-- The list of files as bytes -/
  writeToBytes : Except String Unit := .ok ()

inductive Event where
  | send (path : Text) (id fileNum : Int) (includeHidden overwriteDetection : Bool)
  | cancel (id : Int)
  /-- Jobs that the connection reads itself, which are of printers, take theirs first. -/
  | sendConfirm (r : SendConfirm) (ownJob : Bool)
  | manage (env : Env)
  | tick (t : Tree) (faults : Nat → TransferJob.Faults)
  | deliver (parsed : Bool)

def checkFileCountLimit (maxFiles fileCount : Nat) : Except String Unit :=
  if fileCount > maxFiles then
    .error ("file transfer rejected: too many files (" ++ toString fileCount ++
      " files exceeds limit of " ++ toString maxFiles ++
      "). Adjust 'file-transfer-max-files' option to increase limit.")
  else .ok ()

def startReadJob (env : Env) (request : Nat) (path : Text) (id fileNum : Int)
    (includeHidden overwriteDetection : Bool) : Option Served × Data :=
  match env.newRead path includeHidden with
  | .files files =>
      match checkFileCountLimit env.maxFiles files.length, env.writeToBytes with
      | .error msg, _ => (none, .readJobInitResult id fileNum (.error msg))
      | .ok (), .error e => (none, .readJobInitResult id fileNum (.error ("serialize failed: " ++ e)))
      | .ok (), .ok () =>
          (some ⟨request, .newRead id path fileNum files overwriteDetection⟩,
            .readJobInitResult id fileNum (.ok files))
  | .invalid e => (none, .readJobInitResult id fileNum (.error ("validation failed: " ++ e)))
  | .failed e => (none, .readJobInitResult id fileNum (.error ("validation task failed: " ++ e)))

def removeJob (id : Int) (jobs : List Served) : List Served :=
  jobs.eraseP fun served => served.job.id = id

def getJob (id : Int) (jobs : List Served) : Option Served :=
  jobs.find? fun served => served.job.id = id

/-- A change to the job that `get_job` finds -/
def modifyJob (id : Int) (f : TransferJob → TransferJob) : List Served → List Served
  | [] => []
  | served :: rest =>
      if served.job.id = id then { served with job := f served.job } :: rest
      else served :: modifyJob id f rest

/-- The confirmation as the manager makes it up again, at the file its job is at. -/
def rebuilt (id : Int) (skip : Bool) (offsetBlk : Nat) (job : TransferJob) : SendConfirm where
  id := id
  fileNum := job.fileNum
  union := some (if skip then .skip true else .offsetBlk offsetBlk)

namespace State

variable (lib : Library)

def handleFs (env : Env) (s : State) : FS → State
  | .readFile request path id fileNum includeHidden overwriteDetection =>
      let (job, result) := startReadJob env request path id fileNum includeHidden overwriteDetection
      { s with
        readJobs := s.readJobs ++ job.toList
        toConnection := s.toConnection ++ [(request, result)] }
  | .cancelRead id => { s with readJobs := removeJob id s.readJobs }
  | .sendConfirmForRead _ id _ skip offsetBlk =>
      if (getJob id s.readJobs).any fun served =>
          served.job.confirmPanics (rebuilt id skip offsetBlk served.job) then
        { s with readJobs := [], gone := true }
      else
        { s with
          readJobs := modifyJob id (fun job => job.confirm lib env.tree (rebuilt id skip offsetBlk job))
            s.readJobs }

/-- The manager takes the next message. -/
def manage (env : Env) (s : State) : State :=
  if s.gone then s
  else
    match s.toManager with
    | [] => s
    | fs :: rest => { s with toManager := rest }.handleFs lib env fs

end State

/-- The jobs after one tick, the ids of those that are finished, and what is sent. The
    first job that can be begun is the last that has its turn. -/
def tickJobs (lib : Library) (t : Tree) (faults : Nat → TransferJob.Faults) :
    Nat → List Served → List Served × List Int × List (Nat × Data)
  | _, [] => ([], [], [])
  | number, served :: rest =>
      let tag (sent : List FromCM) := sent.map fun m => (served.request, Data.fromCm m)
      if served.job.isLastJob then
        let (jobs, finished, sent) := tickJobs lib t faults (number + 1) rest
        (served :: jobs, finished, sent)
      else
        match served.job.initReadJobForCm lib t (faults number) with
        | (job, .error err) =>
            let (jobs, finished, sent) := tickJobs lib t faults (number + 1) rest
            ({ served with job := job } :: jobs, job.id :: finished,
              tag [.fileReadError job.id job.fileNum err] ++ sent)
        | (job, .ok begun) =>
            match job.read lib t (faults number) with
            | (job, .error err) =>
                ({ served with job := job } :: rest, [job.id],
                  tag (begun ++ [.fileReadError job.id job.fileNum err]))
            | (job, .ok (some block)) =>
                ({ served with job := job } :: rest, [], tag (begun ++ [.fileBlockFromCM block]))
            | (job, .ok none) =>
                if job.jobCompleted then
                  ({ served with job := job } :: rest, [job.id], tag (begun ++ [job.cmFarewell]))
                else ({ served with job := job } :: rest, [], tag begun)

def handleReadJobsTick (lib : Library) (t : Tree) (faults : Nat → TransferJob.Faults)
    (jobs : List Served) : List Served × List (Nat × Data) :=
  let (jobs, finished, sent) := tickJobs lib t faults 0 jobs
  (finished.foldl (fun jobs id => removeJob id jobs) jobs, sent)

namespace State

/-- What the handlers of the manager's messages have in common: the message is dropped unless
    its id is waited for, and after the last one the id is waited for no longer. -/
def forward (isLast : Bool) (id : Int) (r : Response) (s : State) : State × List Response :=
  if id ∈ s.cmReadJobIds then
    (if isLast then
      { s with
        cmReadJobIds := s.cmReadJobIds.filter (· ≠ id)
        isOver := Function.update s.isOver id true }
    else s, [r])
  else (s, [])

def handleReadJobInitResult (parsed : Bool) (id : Int) (result : Except String (List FileEntry)) :
    State → State × List Response :=
  match result with
  | .error err => forward true id (.error id 0 err)
  | .ok entries =>
      if parsed then forward false id (.dir id entries) else forward true id
        (.error id 0 "internal error")

def handleFileBlockFromCm (b : FileTransferBlock) : State → State × List Response :=
  forward false b.id (.block b)

def handleFileReadDone (id fileNum : Int) : State → State × List Response :=
  forward true id (.done id fileNum)

def handleFileReadError (id fileNum : Int) (err : String) : State → State × List Response :=
  forward true id (.error id fileNum err)

def handleFileDigestFromCm (id fileNum : Int) (lastModified fileSize : Nat) (isResume : Bool) :
    State → State × List Response :=
  forward false id
    (.digest { id := id, fileNum := fileNum, lastModified := lastModified, fileSize := fileSize
               isUpload := false, isResume := isResume })

def handleData (parsed : Bool) : Data → State → State × List Response
  | .readJobInitResult id _ result => handleReadJobInitResult parsed id result
  | .fromCm (.fileBlockFromCM b) => handleFileBlockFromCm b
  | .fromCm (.fileReadDone id fileNum) => handleFileReadDone id fileNum
  | .fromCm (.fileReadError id fileNum err) => handleFileReadError id fileNum err
  | .fromCm (.fileDigestFromCM id fileNum lastModified fileSize isResume) =>
      handleFileDigestFromCm id fileNum lastModified fileSize isResume

/-- The connection takes the next message of the manager: the state after it, and what goes
    to the peer, with the request it was produced for. -/
def deliver (parsed : Bool) (s : State) : State × List (Nat × Response) :=
  match s.toConnection with
  | [] => (s, [])
  | (request, data) :: rest =>
      let (s, sent) := { s with toConnection := rest }.handleData parsed data
      (s, sent.map fun r => (request, r))

def onSend (path : Text) (id fileNum : Int) (includeHidden overwriteDetection : Bool) (s : State) :
    State :=
  { s with
    cmReadJobIds := s.cmReadJobIds.insert id
    toManager :=
      s.toManager ++ [.readFile (s.sends + 1) path id fileNum includeHidden overwriteDetection]
    sends := s.sends + 1
    latest := Function.update s.latest id (some (s.sends + 1))
    isOver := Function.update s.isOver id false }

def onCancel (id : Int) (s : State) : State :=
  { s with
    cmReadJobIds := s.cmReadJobIds.filter (· ≠ id)
    toManager := s.toManager ++ [.cancelRead id]
    isOver := Function.update s.isOver id true }

/-- `r.skip()` and `r.offset_blk()`, which have a default each -/
def confirmParts : Option Host.ConfirmUnion → Bool × Nat
  | some (.skip skip) => (skip, 0)
  | some (.offsetBlk offset) => (false, offset)
  | none => (false, 0)

def onSendConfirm (r : SendConfirm) (ownJob : Bool) (s : State) : State :=
  if ownJob then s
  else if r.id ∈ s.cmReadJobIds then
    let (skip, offsetBlk) := confirmParts r.union
    { s with
      toManager :=
        s.toManager ++ [.sendConfirmForRead ((s.latest r.id).getD 0) r.id r.fileNum skip offsetBlk] }
  else s

section Step
variable (lib : Library)

def step (s : State) : Event → State
  | .send path id fileNum includeHidden overwriteDetection =>
      s.onSend path id fileNum includeHidden overwriteDetection
  | .cancel id => s.onCancel id
  | .sendConfirm r ownJob => s.onSendConfirm r ownJob
  | .manage env => s.manage lib env
  | .tick t faults =>
      let (jobs, sent) := handleReadJobsTick lib t faults s.readJobs
      { s with readJobs := jobs, toConnection := s.toConnection ++ sent }
  | .deliver parsed => (s.deliver parsed).1

end Step

/-- What a step sends to the peer -/
def forwarded (s : State) : Event → List (Nat × Response)
  | .deliver parsed => (s.deliver parsed).2
  | _ => []

end State

end RemoteControl.Transfer.Delegation
