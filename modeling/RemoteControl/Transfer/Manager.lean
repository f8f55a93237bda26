import RemoteControl.Transfer.Job

/-! # The connection manager

Uploads are received by the connection manager of the controlled host. Its
`handle_fs` is what is left of a message of the peer after the connection has
forwarded it; here is the part for one write job.
-/

namespace RemoteControl.Transfer

open Host (SendConfirm ConfirmUnion)

def validateFileNameNoTraversal (windows : Bool) (name : Text) : Except String Unit :=
  if '\x00' ∈ name then .error "file name contains null bytes"
  else if ((name.splitOnP fun c => c = '/' || c = '\\').filter (· ≠ [])).contains dotDot then
    .error "path traversal detected in file name"
  else if hasDrive windows name then .error "absolute path detected in file name"
  else if name.head? = some '/' ∨ name.head? = some '\\' then
    .error "absolute path detected in file name"
  else .ok ()

def isSingleFileWithEmptyName (files : List (Text × Nat)) : Bool :=
  files.length = 1 && files.head?.any (·.1 = [])

/-- The check of the names that are left. -/
def validateNames (windows : Bool) : List (Text × Nat) → Except String Unit
  | [] => .ok ()
  | (name, _) :: rest =>
      if name = [] then .error "empty file name in multi-file transfer"
      else
        match validateFileNameNoTraversal windows name with
        | .error err => .error err
        | .ok () => validateNames windows rest

def validateTransferFileNames (windows : Bool) (files : List (Text × Nat)) : Except String Unit :=
  if isSingleFileWithEmptyName files then .ok () else validateNames windows files

/-- `ipc::FS`, as far as it is about a write job. -/
inductive FS where
  | newWrite (path : Text) (id fileNum : Int) (files : List (Text × Nat)) (overwriteDetection : Bool)
  | cancelWrite (id : Int)
  | writeDone (id fileNum : Int)
  | writeError (id fileNum : Int) (err : String)
  | writeBlock (b : FileTransferBlock)
  | checkDigest (id fileNum : Int) (fileSize lastModified : Nat) (isUpload isResume : Bool)
  | sendConfirm (r : SendConfirm)

/-- What the manager sends to the peer. -/
inductive Reply where
  | response (r : Response)
  | confirm (r : SendConfirm)
  deriving DecidableEq

/-- The messages of the peer that the connection hands on. -/
def forward : Response → Option FS
  | .dir _ _ => none
  | .digest d => some (.checkDigest d.id d.fileNum d.fileSize d.lastModified true d.isResume)
  | .block b => some (.writeBlock b)
  | .done id fileNum => some (.writeDone id fileNum)
  | .error id fileNum err => some (.writeError id fileNum err)

/-- A write job of the manager and the tree of its host. -/
structure Manager where
  job : Option TransferJob := none
  tree : Tree

/-- A write job that knows its files from the beginning. -/
def TransferJob.newWrite (id : Int) (path : Text) (fileNum : Int) (files : List FileEntry)
    (enableOverwriteDetection : Bool) : TransferJob where
  id := id
  path := path
  fileNum := fileNum
  files := files
  enableOverwriteDetection := enableOverwriteDetection

namespace Manager

variable (lib : Library)

/-- `NewWrite`; the size of a file is not known here. -/
def newWrite (path : Text) (id fileNum : Int) (files : List (Text × Nat))
    (overwriteDetection : Bool) (m : Manager) : Manager × List Reply :=
  match validateTransferFileNames lib.windows files with
  | .error err => (m, [.response (.error id fileNum err)])
  | .ok () =>
      let entries := files.map fun f => ⟨f.1, f.2, 0⟩
      -- a second job of the same number would never be found
      (if m.job.isSome then m
        else { m with job := some (.newWrite id path fileNum entries overwriteDetection) }, [])

/-- `CheckDigest` -/
def checkDigest (id fileNum : Int) (fileSize lastModified : Nat) (isUpload isResume : Bool)
    (job : TransferJob) (m : Manager) : Manager × List Reply :=
  match job.entry? fileNum with
  | none => (m, [])
  | some e =>
      let digest : FileTransferDigest :=
        { id := id, fileNum := fileNum, lastModified := lastModified, fileSize := fileSize }
      let reply : Reply :=
        match TransferJob.isWriteNeedConfirmation lib isResume m.tree (job.filePath lib e) digest with
        | .isSame => .confirm ⟨id, fileNum, some (.skip true)⟩
        | .needConfirm existing => .response (.digest { existing with isUpload := isUpload })
        | .noSuchFile => .confirm ⟨id, fileNum, some (.offsetBlk 0)⟩
      ({ m with job := some { job with digest := ⟨fileSize, lastModified⟩ } }, [reply])

/-- `handle_fs` -/
def handleFs (now : Nat) (fs : FS) (m : Manager) : Manager × List Reply :=
  match fs, m.job with
  | .newWrite path id fileNum files overwriteDetection, _ =>
      m.newWrite lib path id fileNum files overwriteDetection
  | _, none => (m, [])
  | .cancelWrite id, some job =>
      if id = job.id then ({ m with job := none, tree := job.removeDownloadFile lib m.tree }, [])
      else (m, [])
  | .writeDone id fileNum, some job =>
      if id = job.id then
        ({ m with job := none, tree := (job.modifyTime lib m.tree).2 },
          [.response (.done id fileNum)])
      else (m, [])
  | .writeError id fileNum err, some job =>
      if id = job.id then ({ m with job := none }, [.response (.error id fileNum err)]) else (m, [])
  | .writeBlock b, some job =>
      if b.id = job.id then
        match job.write lib now b m.tree with
        | (job, tree, .ok ()) => ({ m with job := some job, tree := tree }, [])
        | (job, tree, .error err) =>
            ({ m with job := some job, tree := tree }, [.response (.error b.id b.fileNum err)])
      else (m, [])
  | .checkDigest id fileNum fileSize lastModified isUpload isResume, some job =>
      if id = job.id then
        m.checkDigest lib id fileNum fileSize lastModified isUpload isResume job
      else (m, [])
  | .sendConfirm r, some job =>
      if r.id = job.id then ({ m with job := some (job.confirm lib m.tree r) }, []) else (m, [])

end Manager

end RemoteControl.Transfer
