import RemoteControl.Runs
import RemoteControl.Transfer.Job

/-! # Jobs of either source

`TransferJob` of `hbb_common/fs.rs` for files and for a buffer in memory, for generic jobs and
for printing. What the system and the peer answer is part of the inputs, and the number of the
file is one of 32 bits that the peer may have chosen.
-/

namespace RemoteControl.Transfer.Sources

open Host (Bytes SendConfirm JobType)

inductive DataSource where
  /-- A path, with the text of its last component if it has one. -/
  | filePath (fileName : Text)
  | memoryCursor
  deriving DecidableEq

inductive DataStream where
  | fileStream
  | bufStream
  deriving DecidableEq

structure Job where
  id : Int
  jobType : JobType
  dataSource : DataSource
  fileNum : Int
  files : List FileEntry
  dataStream : Option DataStream := none
  finishedSize : Nat := 0
  transferred : Nat := 0
  enableOverwriteDetection : Bool
  fileConfirmed : Bool := false
  fileSkipped : Bool := false
  fileIsWaiting : Bool := false
  deriving DecidableEq

/-- `as usize` of an `i32`. -/
def usize (n : Int) : Nat := (n % 2 ^ 64).toNat

/-- `+ 1` on an `i32`. -/
def next (n : Int) : Int := (n + 1).bmod (2 ^ 32)

namespace Job

def newWrite (id : Int) (jobType : JobType) (dataSource : DataSource) (fileNum : Int)
    (files : List FileEntry) (enableOverwriteDetection : Bool) : Job :=
  { id, jobType, dataSource, fileNum, files, enableOverwriteDetection }

/-- `listed` is what `get_recursive_files` returns. -/
def newRead (id : Int) (jobType : JobType) (dataSource : DataSource) (fileNum : Int)
    (listed : List FileEntry) (enableOverwriteDetection : Bool) : Job :=
  let files :=
    match dataSource with
    | .filePath _ => listed
    | .memoryCursor => []
  { id, jobType, dataSource, fileNum, files, enableOverwriteDetection }

/-- The job has files and stands after the last of them. -/
def pastEnd (job : Job) : Bool :=
  match job.dataSource with
  | .filePath _ => decide (job.files.length ≤ usize job.fileNum)
  | .memoryCursor => false

def setFileConfirmed (confirmed : Bool) (job : Job) : Job :=
  { job with fileConfirmed := confirmed, fileSkipped := false }

def setFileSkipped (job : Job) : Job :=
  { ({ job with dataStream := none }.setFileConfirmed false) with
    fileIsWaiting := false
    fileNum := next job.fileNum
    fileSkipped := true }

/-- `none` is a panic. `sought`: a file could be opened and sought. -/
def setStreamOffset (fileNum offset : Nat) (sought : Bool) (job : Job) : Option Job :=
  match job.dataSource with
  | .memoryCursor => some job
  | .filePath _ =>
      match job.files[fileNum]? with
      | none => none
      | some _ =>
          if sought then
            some { job with
              dataStream := some .fileStream
              transferred := job.transferred + offset
              finishedSize := job.finishedSize + offset }
          else some job

def confirm (r : SendConfirm) (sought : Bool) (job : Job) : Option Job :=
  if job.fileNum ≠ r.fileNum then some job
  else
    match r.union with
    | some (.skip s) => some (if s then job.setFileSkipped else job.setFileConfirmed true)
    | some (.offsetBlk offset) =>
        let job := job.setFileConfirmed true
        if offset > 0 then job.setStreamOffset (usize r.fileNum) offset sought else some job
    | none => some job

/-- What the system refuses while a block is written. -/
structure WriteFaults where
  sync : Option String := none
  removeDigest : Option String := none
  create : Option String := none
  write : Option String := none
  deriving DecidableEq

/-- The part of `write` that turns to the file of a block. -/
def beginFile (fileNum : Int) (faults : WriteFaults) (job : Job) : Job × Except String Unit :=
  match (if job.dataStream = some .fileStream then faults.sync else none) with
  | some err => (job, .error err)
  | none =>
      let job := { job with fileNum := fileNum }
      match (if job.jobType = .printer then none else faults.removeDigest), faults.create with
      | some err, _ => (job, .error err)
      | none, some err => (job, .error err)
      | none, none => ({ job with dataStream := some .fileStream }, .ok ())

/-- The part of `write` that finds the stream of a block. -/
def chooseStream (b : FileTransferBlock) (faults : WriteFaults) (job : Job) :
    Job × Except String Unit :=
  match job.dataSource with
  | .filePath _ =>
      if job.files.length ≤ usize b.fileNum then (job, .error "Wrong file number")
      else if usize b.fileNum ≠ usize job.fileNum ∨ job.dataStream = none then job.beginFile b.fileNum faults
      else (job, .ok ())
  | .memoryCursor =>
      (if job.dataStream = none then { job with dataStream := some .bufStream } else job, .ok ())

def write (decompress : Bytes → Bytes) (b : FileTransferBlock) (faults : WriteFaults) (job : Job) :
    Job × Except String Unit :=
  if b.id ≠ job.id then (job, .error "Wrong id")
  else
    match job.chooseStream b faults with
    | (job, .error err) => (job, .error err)
    | (job, .ok ()) =>
        match job.dataStream, faults.write with
        | none, _ => (job, .error (if b.compressed then "data stream is None" else "file is None"))
        | some _, some err => (job, .error err)
        | some _, none =>
            let data := if b.compressed then decompress b.data else b.data
            ({ job with
                finishedSize := job.finishedSize + data.length
                transferred := job.transferred + b.data.length }, .ok ())

def nextFile (job : Job) : Job :=
  { job with
    fileNum := next job.fileNum
    dataStream := none
    fileConfirmed := false
    fileIsWaiting := false }

/-- What the system refuses while the stream of a job is opened and its digest sent. -/
structure OpenFaults where
  open_ : Option String := none
  digest : Option String := none
  deriving DecidableEq

/-- `Ok(true)` when the job is done. -/
def openDataStream (faults : OpenFaults) (job : Job) : Job × Except String Bool :=
  match job.dataSource with
  | .filePath _ =>
      if job.files.length ≤ usize job.fileNum then ({ job with dataStream := none }, .ok true)
      else if job.dataStream = none then
        match faults.open_ with
        | none =>
            ({ job with dataStream := some .fileStream, fileConfirmed := false, fileIsWaiting := false }, .ok false)
        | some err => (job.nextFile, .error err)
      else (job, .ok false)
  | .memoryCursor =>
      (if job.dataStream = none then { job with dataStream := some .bufStream } else job, .ok false)

def currentDigest (faults : OpenFaults) (job : Job) : Except String Unit :=
  match job.dataStream, faults.digest with
  | none, _ => .error "file is None"
  | some .bufStream, _ => .error "No digest for buf stream"
  | some .fileStream, some err => .error err
  | some .fileStream, none => .ok ()

def initDataStream (faults : OpenFaults) (job : Job) : Job × Except String Unit :=
  match job.openDataStream faults with
  | (job, .error err) => (job, .error err)
  | (job, .ok true) => (job, .ok ())
  | (job, .ok false) =>
      if job.jobType = .generic ∧ job.enableOverwriteDetection ∧ !job.fileConfirmed ∧ !job.fileIsWaiting then
        match job.currentDigest faults with
        | .ok () => ({ job with fileIsWaiting := true }, .ok ())
        | .error err => (job, .error err)
      else (job, .ok ())

/-- The loop of `read`: it stops at the end of the file and when the buffer is full. -/
def fill : List (Except String Bytes) → Bytes → Except String Bytes
  | [], buf => .ok buf
  | .error err :: _, _ => .error err
  | .ok chunk :: rest, buf =>
      let chunk := chunk.take (TransferJob.bufSize - buf.length)
      let buf := buf ++ chunk
      if chunk = [] ∨ buf.length = TransferJob.bufSize then .ok buf else fill rest buf

/-- The name that decides about compression. -/
def sentName (fileName : Text) (e : FileEntry) (job : Job) : Text :=
  if job.files.length = 1 ∧ e.name = [] then fileName else e.name

/-- The data of a block, and whether they are compressed. `name` is the name of the file, if
    the data are from one. -/
def pack (compress : Bytes → Bytes) (name : Option Text) (buf : Bytes) : Bytes × Bool :=
  match name with
  | none => (buf, false)
  | some name =>
      if TransferJob.isCompressedFile name then (buf, false)
      else
        let tmp := compress buf
        if tmp.length < buf.length then (tmp, true) else (buf, false)

/-- The part of `read` with the name at hand. -/
def readBlock (compress : Bytes → Bytes) (name : Option Text) (chunks : List (Except String Bytes))
    (job : Job) :
    Job × Except String (Option FileTransferBlock) :=
  match job.dataStream with
  | none => (job, .error "data stream is None")
  | some _ =>
      match fill chunks [] with
      | .error err => (job.nextFile, .error err)
      | .ok buf =>
          if buf = [] then
            match job.dataSource with
            | .memoryCursor => ({ job with dataStream := none }, .ok none)
            | .filePath _ => (job.nextFile, .ok (some ⟨job.id, job.fileNum, [], false⟩))
          else
            let packed := pack compress name buf
            ({ job with
                finishedSize := job.finishedSize + buf.length
                transferred := job.transferred + packed.1.length },
              .ok (some ⟨job.id, job.fileNum, packed.1, packed.2⟩))

/-- `chunks` is what the stream gives, one read after the other. -/
def read (compress : Bytes → Bytes) (chunks : List (Except String Bytes)) (job : Job) :
    Job × Except String (Option FileTransferBlock) :=
  if job.jobType = .generic ∧ job.enableOverwriteDetection ∧ !job.fileConfirmed then (job, .ok none)
  else
    match job.dataSource with
    | .filePath fileName =>
        match job.files[usize job.fileNum]? with
        | none => ({ job with dataStream := none }, .ok none)
        | some e => job.readBlock compress (some (job.sentName fileName e)) chunks
    | .memoryCursor => job.readBlock compress none chunks

end Job

end RemoteControl.Transfer.Sources
