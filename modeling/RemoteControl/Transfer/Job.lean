import Mathlib.Algebra.Ring.Int.Defs
import Mathlib.Algebra.Ring.Nat
import RemoteControl.Host.Messages
import RemoteControl.Transfer.Path

/-! # Transfer jobs

`TransferJob` of `hbb_common/fs.rs` for generic jobs on files: a read job sends the
files of a folder one after the other, a write job receives them. A file is
received under its name with `.download` added, next to a `.digest` that says which
file it will be, and takes its own name once the next file begins or the job is
done.

The job and the tree of its host are passed through every function. What the
system may refuse beyond the shape of the tree is part of the inputs.
-/

namespace RemoteControl.Transfer

open Host (Bytes SendConfirm)

abbrev Tree := FileTree Text

structure FileEntry where
  name : Text
  modifiedTime : Nat
  size : Nat
  deriving DecidableEq

structure FileDigest where
  size : Nat
  modified : Nat
  deriving DecidableEq

inductive Mode where
  | read
  | write
  deriving DecidableEq

/-- An open file. -/
structure Stream where
  place : Place
  pos : Nat
  mode : Mode
  deriving DecidableEq

structure FileTransferDigest where
  id : Int
  fileNum : Int
  lastModified : Nat
  fileSize : Nat
  isUpload : Bool := false
  isIdentical : Bool := false
  transferredSize : Nat := 0
  isResume : Bool := false
  deriving DecidableEq

structure FileTransferBlock where
  id : Int
  fileNum : Int
  data : Bytes
  compressed : Bool
  deriving DecidableEq

/-- `FileResponse` -/
inductive Response where
  | dir (id : Int) (entries : List FileEntry)
  | digest (d : FileTransferDigest)
  | block (b : FileTransferBlock)
  | done (id fileNum : Int)
  | error (id fileNum : Int) (err : String)
  deriving DecidableEq

/-- What a job uses of its host: the kind of paths, the compression and the text of
    a `.digest` file. -/
structure Library where
  windows : Bool
  compress : Bytes → Bytes
  decompress : Bytes → Bytes
  encodeDigest : FileDigest → Bytes
  decodeDigest : Bytes → Option FileDigest

structure TransferJob where
  id : Int
  /-- `data_source` -/
  path : Text
  isLastJob : Bool := false
  isResume : Bool := false
  fileNum : Int
  files : List FileEntry
  stream : Option Stream := none
  finishedSize : Nat := 0
  transferred : Nat := 0
  enableOverwriteDetection : Bool
  fileConfirmed : Bool := false
  fileSkipped : Bool := false
  fileIsWaiting : Bool := false
  defaultOverwriteStrategy : Option Bool := none
  digest : FileDigest := ⟨0, 0⟩

namespace TransferJob

/-- `self.files.get(file_num as usize)`; a negative number is out of any range. -/
def entry? (job : TransferJob) (fileNum : Int) : Option FileEntry :=
  if fileNum < 0 then none else job.files[fileNum.toNat]?

section Places

variable (lib : Library) (job : TransferJob) (e : FileEntry)

def filePath : Text := join lib.windows job.path e.name

def target : Place := resolve lib.windows (job.filePath lib e)

def downloadPlace : Place := resolve lib.windows (job.filePath lib e ++ downloadSuffix)

def digestPlace : Place := resolve lib.windows (job.filePath lib e ++ digestSuffix)

end Places

def setFileConfirmed (confirmed : Bool) (job : TransferJob) : TransferJob :=
  { job with fileConfirmed := confirmed, fileSkipped := false }

def setFileSkipped (job : TransferJob) : TransferJob :=
  { ({ job with stream := none }.setFileConfirmed false) with
    fileIsWaiting := false
    fileNum := job.fileNum + 1
    fileSkipped := true }

/-- Seeks in what is left of a download, or else in the file itself. A number out of
    range has no effect here; the source panics, see `confirmPanics`. -/
def setStreamOffset (lib : Library) (t : Tree) (fileNum : Int) (offset : Nat) (job : TransferJob) :
    TransferJob :=
  match job.entry? fileNum with
  | none => job
  | some e =>
      let seek (place : Place) (mode : Mode) : TransferJob :=
        if t.isFile place then
          { job with
            stream := some ⟨place, offset, mode⟩
            transferred := job.transferred + offset
            finishedSize := job.finishedSize + offset }
        else job
      if t.exists_ (job.downloadPlace lib e) && t.exists_ (job.digestPlace lib e) then
        seek (job.downloadPlace lib e) .write
      else seek (job.target lib e) .read

def confirm (lib : Library) (t : Tree) (r : SendConfirm) (job : TransferJob) : TransferJob :=
  if job.fileNum ≠ r.fileNum then job
  else
    match r.union with
    | some (.skip s) => if s then job.setFileSkipped else job.setFileConfirmed true
    | some (.offsetBlk offset) =>
        let job := job.setFileConfirmed true
        if offset > 0 then job.setStreamOffset lib t r.fileNum offset else job
    | none => job

/-- The request makes the job seek in a file that is not listed: the index panics. -/
def confirmPanics (r : SendConfirm) (job : TransferJob) : Bool :=
  job.fileNum = r.fileNum && (job.entry? job.fileNum).isNone &&
    match r.union with
    | some (.offsetBlk offset) => offset > 0
    | _ => false

/-- An open file follows its new name. -/
def renamed (a b : Place) (s : Stream) : Stream :=
  if s.place = a then { s with place := b } else s

/-- Gives the current file its own name and time. -/
def modifyTime (lib : Library) (job : TransferJob) (t : Tree) : TransferJob × Tree :=
  match job.entry? job.fileNum with
  | none => (job, t)
  | some e =>
      let t := (t.removeFile (job.digestPlace lib e)).getD t
      match t.rename (job.downloadPlace lib e) (job.target lib e) with
      | some t =>
          let stream := job.stream.map (renamed (job.downloadPlace lib e) (job.target lib e))
          ({ job with stream := stream }, t.setModified (job.target lib e) e.modifiedTime)
      | none => (job, t.setModified (job.target lib e) e.modifiedTime)

def removeDownloadFile (lib : Library) (job : TransferJob) (t : Tree) : Tree :=
  match job.entry? job.fileNum with
  | none => t
  | some e =>
      let t := (t.removeFile (job.downloadPlace lib e)).getD t
      (t.removeFile (job.digestPlace lib e)).getD t

/-- The part of `write` that opens the download of a file. -/
def startFile (lib : Library) (now : Nat) (e : FileEntry) (job : TransferJob) (t : Tree) :
    TransferJob × Tree × Except String Unit :=
  let t := t.createDirAll (parents lib.windows (job.filePath lib e))
  match t.clear (job.digestPlace lib e) with
  | none => (job, t, .error "Is a directory")
  | some t =>
      match t.create (job.downloadPlace lib e) now with
      | none => (job, t, .error (if t.exists_ (job.downloadPlace lib e) then "Is a directory"
          else "No such file or directory"))
      | some t =>
          ({ job with stream := some ⟨job.downloadPlace lib e, 0, .write⟩ },
            t.writeFile (job.digestPlace lib e) (lib.encodeDigest job.digest) now, .ok ())

/-- The part of `write` that turns to another file, or to the first one. -/
def beginFile (lib : Library) (now : Nat) (fileNum : Int) (e : FileEntry) (job : TransferJob)
    (t : Tree) : TransferJob × Tree × Except String Unit :=
  let (job, t) := job.modifyTime lib t
  { job with fileNum := fileNum }.startFile lib now e t

/-- `write_all` on the open file. -/
def writeData (lib : Library) (now : Nat) (b : FileTransferBlock) (job : TransferJob) (t : Tree) :
    TransferJob × Tree × Except String Unit :=
  match job.stream with
  | some ⟨place, pos, .write⟩ =>
      let data := if b.compressed then lib.decompress b.data else b.data
      ({ job with
          stream := some ⟨place, pos + data.length, .write⟩
          finishedSize := job.finishedSize + data.length
          transferred := job.transferred + b.data.length },
        t.writeAt place pos data now, .ok ())
  | some _ => (job, t, .error "Bad file descriptor")
  | none => (job, t, .error (if b.compressed then "data stream is None" else "file is None"))

/-- `TransferJob::write` -/
def write (lib : Library) (now : Nat) (b : FileTransferBlock) (job : TransferJob) (t : Tree) :
    TransferJob × Tree × Except String Unit :=
  if b.id ≠ job.id then (job, t, .error "Wrong id")
  else
    match job.entry? b.fileNum with
    | none => (job, t, .error "Wrong file number")
    | some e =>
        if b.fileNum ≠ job.fileNum ∨ job.stream = none then
          match job.beginFile lib now b.fileNum e t with
          | (job, t, .error err) => (job, t, .error err)
          | (job, t, .ok ()) => job.writeData lib now b t
        else job.writeData lib now b t

/-- What the system refuses while a read job has its turn. -/
structure Faults where
  open_ : Option String := none
  digest : Option String := none
  read : Option String := none
  deriving DecidableEq

def nextFile (job : TransferJob) : TransferJob :=
  { job with
    fileNum := job.fileNum + 1
    stream := none
    fileConfirmed := false
    fileIsWaiting := false }

/-- `Ok(true)` when the job is done. A directory is refused here, as on Windows; on Unix
    it opens, and is shown to a job as a file that cannot be read where that matters. -/
def openDataStream (lib : Library) (t : Tree) (faults : Faults) (job : TransferJob) :
    TransferJob × Except String Bool :=
  match job.entry? job.fileNum with
  | none => ({ job with stream := none }, .ok true)
  | some e =>
      if job.stream.isSome then (job, .ok false)
      else
        match faults.open_, t.node (job.target lib e) with
        | none, some (.file _ _) =>
            ({ job with
                stream := some ⟨job.target lib e, 0, .read⟩
                fileConfirmed := false
                fileIsWaiting := false }, .ok false)
        | fault, _ => (job.nextFile, .error (fault.getD "No such file or directory"))

/-- The digest of the open file. -/
def currentDigest (t : Tree) (faults : Faults) (job : TransferJob) :
    Except String FileTransferDigest :=
  match faults.digest, job.stream.bind fun s => t.node s.place with
  | none, some (.file content modified) =>
      .ok { id := job.id, fileNum := job.fileNum, lastModified := modified
            fileSize := content.length, isResume := job.isResume }
  | fault, _ => .error (fault.getD "file is None")

def initDataStream (lib : Library) (t : Tree) (faults : Faults) (job : TransferJob) :
    TransferJob × Except String (List Response) :=
  match job.openDataStream lib t faults with
  | (job, .error err) => (job, .error err)
  | (job, .ok true) => (job, .ok [])
  | (job, .ok false) =>
      if job.enableOverwriteDetection && !job.fileConfirmed && !job.fileIsWaiting then
        match job.currentDigest t faults with
        | .ok d => ({ job with fileIsWaiting := true }, .ok [.digest d])
        | .error err => (job, .error err)
      else (job, .ok [])

/-- The text after the last dot. -/
def getExt (name : Text) : Text :=
  if '.' ∈ name then (name.reverse.takeWhile (· ≠ '.')).reverse else []

def isCompressedFile (name : Text) : Bool :=
  getExt name ∈ ["xz", "gz", "zip", "7z", "rar", "bz2", "tgz", "png", "jpg"].map String.toList

def bufSize : Nat := 128 * 1024

/-- The name that decides about compression: that of the folder for a single file
    without one. -/
def sentName (lib : Library) (job : TransferJob) (e : FileEntry) : Text :=
  if job.files.length = 1 ∧ e.name = [] then
    ((components lib.windows job.path).getLast?.filter (· ≠ dotDot)).getD []
  else e.name

/-- A block of the open file; `none` while the file waits for its confirmation or
    there is no further file. -/
def read (lib : Library) (t : Tree) (faults : Faults) (job : TransferJob) :
    TransferJob × Except String (Option FileTransferBlock) :=
  if job.enableOverwriteDetection && !job.fileConfirmed then (job, .ok none)
  else
    match job.entry? job.fileNum with
    | none => ({ job with stream := none }, .ok none)
    | some e =>
        match job.stream with
        | none => (job, .error "data stream is None")
        | some s =>
            match faults.read, s.mode, t.node s.place with
            | none, .read, some (.file content _) =>
                let buf := (content.drop s.pos).take bufSize
                if buf = [] then
                  (job.nextFile, .ok (some ⟨job.id, job.fileNum, [], false⟩))
                else
                  let small := lib.compress buf
                  let compressed := !isCompressedFile (job.sentName lib e) &&
                    decide (small.length < buf.length)
                  let data := if compressed then small else buf
                  ({ job with
                      stream := some ⟨s.place, s.pos + buf.length, s.mode⟩
                      finishedSize := job.finishedSize + buf.length
                      transferred := job.transferred + data.length },
                    .ok (some ⟨job.id, job.fileNum, data, compressed⟩))
            | fault, _, _ => (job.nextFile, .error (fault.getD "Bad file descriptor"))

def jobCompleted (job : TransferJob) : Bool :=
  !job.enableOverwriteDetection || !job.fileConfirmed && !job.fileIsWaiting

def jobError (job : TransferJob) : Option String :=
  if job.fileSkipped && job.files.length = 1 then some "skipped" else none

/-- The part of a read job in `init_jobs`. -/
def initJob (lib : Library) (t : Tree) (faults : Faults) (job : TransferJob) :
    TransferJob × List Response :=
  match job.initDataStream lib t faults with
  | (job, .ok msgs) => (job, msgs)
  | (job, .error err) => (job, [.error job.id job.fileNum err])

/-- What is sent when a read job is finished. -/
def farewell (job : TransferJob) : Response :=
  match job.jobError with
  | some err => .error job.id job.fileNum err
  | none => .done job.id job.fileNum

/-- The turn of a read job; it is gone when it is finished. -/
def takeTurn (lib : Library) (t : Tree) (faults : Faults) (job : TransferJob) :
    Option TransferJob × List Response :=
  match job.read lib t faults with
  | (job, .error err) => (some job, [.error job.id job.fileNum err])
  | (job, .ok (some b)) => (some job, [.block b])
  | (job, .ok none) => if job.jobCompleted then (none, [job.farewell]) else (some job, [])

/-- The part of a read job in one round of `handle_read_jobs`: every job is initialised,
    but only the first one has its `turn`. -/
def handleReadJob (lib : Library) (t : Tree) (faults : Faults) (turn : Bool) (job : TransferJob) :
    Option TransferJob × List Response :=
  if job.isLastJob then (some job, [])
  else
    let (job, begun) := job.initJob lib t faults
    if turn then
      let (job, sent) := job.takeTurn lib t faults
      (job, begun ++ sent)
    else (some job, begun)

inductive DigestCheckResult where
  | isSame
  | needConfirm (d : FileTransferDigest)
  | noSuchFile
  deriving DecidableEq

/-- What is left of an earlier download of the same file; a directory counts as
    nothing. -/
def leftover (lib : Library) (t : Tree) (download digestFile : Place) (d : FileTransferDigest) :
    Option Nat :=
  match t.node download, t.node digestFile with
  | some (.file content _), some (.file text _) =>
      if lib.decodeDigest text = some ⟨d.fileSize, d.lastModified⟩ ∧ content.length > 0 then
        some content.length
      else none
  | _, _ => none

def isWriteNeedConfirmation (lib : Library) (isResume : Bool) (t : Tree) (filePath : Text)
    (d : FileTransferDigest) : DigestCheckResult :=
  let resumed := if isResume then
      leftover lib t (resolve lib.windows (filePath ++ downloadSuffix))
        (resolve lib.windows (filePath ++ digestSuffix)) d
    else none
  match resumed with
  | some transferredSize =>
      .needConfirm { id := d.id, fileNum := d.fileNum, lastModified := d.lastModified
                     fileSize := d.fileSize, isIdentical := true
                     transferredSize := transferredSize }
  | none =>
      match t.node (resolve lib.windows filePath) with
      | some (.file content modified) =>
          .needConfirm { id := d.id, fileNum := d.fileNum, lastModified := modified
                         fileSize := content.length
                         isIdentical := d.lastModified = modified && d.fileSize = content.length }
      | _ => .noSuchFile

/-- `set_finished_size_on_resume` -/
def setFinishedSizeOnResume (job : TransferJob) : TransferJob :=
  if job.isResume && job.fileNum > 0 then
    { job with finishedSize := ((job.files.take job.fileNum.toNat).map (·.size)).sum }
  else job

end TransferJob

end RemoteControl.Transfer
