import RemoteControl.Runs
import RemoteControl.Transfer.Manager

/-! # The controlling client

The client keeps one job for each folder it downloads or uploads; here is what
`io_loop.rs` does for one of them. A download is a write job that is fed by the
responses of the peer, an upload a read job that is steered by its confirmations.
Either may ask the user whether a file is to be overwritten.
-/

namespace RemoteControl.Transfer

open Host (SendConfirm ConfirmUnion)
open TransferJob (Faults)

/-- What stays the same while the client is connected to a peer. -/
structure Setting where
  lib : Library
  /-- `peer_platform() == "Windows"` -/
  peerWindows : Bool
  /-- `is_support_file_transfer_resume_num(peer_ver)` -/
  supportResume : Bool

/-- A setting in which data is sent as it is and no digest is ever read. -/
def Setting.plain : Setting where
  lib := ⟨false, id, id, fun _ => [], fun _ => none⟩
  peerWindows := false
  supportResume := true

/-- One job of the client, its tree, the file the user is being asked about and what
    was sent to the peer. -/
structure Client where
  job : Option TransferJob
  tree : Tree
  question : Option Int := none
  sent : List SendConfirm := []

/-- The answer of the user as a confirmation. -/
def overrideUnion (needOverride : Bool) : ConfirmUnion :=
  if needOverride then .offsetBlk 0 else .skip true

/-- The overwrite strategy and offset a digest of an existing file leads to. -/
def overwriteStrategy (job : TransferJob) (d : FileTransferDigest) : Option ConfirmUnion :=
  if d.isIdentical && job.isResume && d.transferredSize > 0 then
    some (.offsetBlk (d.transferredSize % 2 ^ 32))
  else job.defaultOverwriteStrategy.map overrideUnion

namespace Client

variable (st : Setting)

/-- The entries of a folder as this host writes their names. -/
def receivedEntries (entries : List FileEntry) : List FileEntry :=
  if !st.lib.windows && st.peerWindows then
    entries.map fun e => { e with name := transformWindowsPath e.name }
  else entries

/-- Confirms a file, here and to the peer. -/
def confirmBoth (job : TransferJob) (fileNum : Int) (u : ConfirmUnion) (c : Client) : Client :=
  let r : SendConfirm := ⟨job.id, fileNum, some u⟩
  { c with job := some (job.confirm st.lib c.tree r), sent := c.sent ++ [r] }

/-- A digest for a write job. -/
def onDigest (d : FileTransferDigest) (job : TransferJob) (c : Client) : Client :=
  match job.entry? d.fileNum with
  | none => c
  | some e =>
      let job := { job with digest := ⟨d.fileSize, d.lastModified⟩ }
      match TransferJob.isWriteNeedConfirmation st.lib (st.supportResume && job.isResume) c.tree
          (job.filePath st.lib e) d with
      | .isSame => c.confirmBoth st job d.fileNum (.skip true)
      | .needConfirm existing =>
          match overwriteStrategy job existing with
          | some u => c.confirmBoth st job d.fileNum u
          | none => { c with job := some job, question := some d.fileNum }
      | .noSuchFile => c.confirmBoth st job d.fileNum (.offsetBlk 0)

/-- A response of the peer for a write job. -/
def onResponse (now : Nat) (r : Response) (c : Client) : Client :=
  match c.job with
  | none => c
  | some job =>
      match r with
      | .dir id entries =>
          if id = job.id then
            let job := { job with files := receivedEntries st entries }
            { c with job := some job.setFinishedSizeOnResume }
          else c
      | .digest d => if d.id = job.id ∧ d.isUpload = false then c.onDigest st d job else c
      | .block b =>
          -- an error of `write` is dropped
          let (job, tree, _) := job.write st.lib now b c.tree
          { c with job := some job, tree := tree }
      | .done id _ =>
          if id = job.id then { c with job := none, tree := (job.modifyTime st.lib c.tree).2 } else c
      | .error id _ _ => if id = job.id then { c with job := none } else c

/-- `SetConfirmOverrideFile` for a write job. -/
def onAnswer (fileNum : Int) (needOverride remember : Bool) (c : Client) : Client :=
  match c.job with
  | none => c
  | some job =>
      let job := if remember then { job with defaultOverwriteStrategy := some needOverride } else job
      { c with question := none }.confirmBoth st job fileNum (overrideUnion needOverride)

/-- `CancelJob` -/
def onCancel (c : Client) : Client :=
  match c.job with
  | none => c
  | some job => { c with job := none, tree := job.removeDownloadFile st.lib c.tree }

end Client

/-- What can happen to a write job of the client. -/
inductive ClientEvent where
  | response (now : Nat) (r : Response)
  | answer (fileNum : Int) (needOverride remember : Bool)
  | cancel

def Client.step (st : Setting) (c : Client) : ClientEvent → Client
  | .response now r => c.onResponse st now r
  | .answer fileNum needOverride remember => c.onAnswer st fileNum needOverride remember
  | .cancel => c.onCancel st

/-- `Data::SendFiles` with `is_remote`: a new write job that does not know its files
    yet. -/
def Client.sendFiles (id : Int) (folder : Text) (fileNum : Int) (overwriteDetection : Bool)
    (t : Tree) : Client where
  job := some (.newWrite id folder fileNum [] overwriteDetection)
  tree := t

/-- A read job of the client, the file the user is being asked about and the files that
    were skipped so far. -/
structure Uploader where
  id : Int
  job : Option TransferJob
  question : Option Int := none
  skipped : List Int := []

/-- The file a confirmation skips. -/
def skippedBy (r : SendConfirm) : List Int :=
  if r.union = some (.skip true) then [r.fileNum] else []

namespace Uploader

variable (st : Setting) (source : Tree)

def confirm (r : SendConfirm) (job : TransferJob) (u : Uploader) : Uploader :=
  { u with job := some (job.confirm st.lib source r), skipped := u.skipped ++ skippedBy r }

/-- A digest of a file that is there already. -/
def onDigest (d : FileTransferDigest) (job : TransferJob) (u : Uploader) : Uploader × List FS :=
  match job.entry? d.fileNum with
  | none => (u, [])
  | some _ =>
      match overwriteStrategy job d with
      | some union => (u.confirm st source ⟨d.id, d.fileNum, some union⟩ job,
          [.sendConfirm ⟨d.id, d.fileNum, some union⟩])
      | none => ({ u with question := some d.fileNum }, [])

/-- What the manager has sent. -/
def onReply (reply : Reply) (u : Uploader) : Uploader × List FS :=
  match u.job with
  | none => (u, [])
  | some job =>
      match reply with
      | .confirm r => (if r.id = job.id then u.confirm st source r job else u, [])
      | .response (.digest d) =>
          if d.id = job.id ∧ d.isUpload = true then u.onDigest st source d job else (u, [])
      | .response (.error id _ _) => (if id = job.id then { u with job := none } else u, [])
      | .response _ => (u, [])

/-- `SetConfirmOverrideFile` for a read job: the manager is not told. -/
def onAnswer (needOverride remember : Bool) (u : Uploader) : Uploader :=
  match u.job, u.question with
  | some job, some fileNum =>
      let job := if remember then { job with defaultOverwriteStrategy := some needOverride } else job
      { u with question := none }.confirm st source
        ⟨job.id, fileNum, some (overrideUnion needOverride)⟩ job
  | _, _ => { u with question := none }

/-- `CancelJob`, which the user may also send when the job is gone. -/
def onCancel (u : Uploader) : Uploader × List FS :=
  ({ u with job := none, question := none }, [.cancelWrite u.id])

def onRound (faults : Faults) (turn : Bool) (u : Uploader) : Uploader × List FS :=
  match u.job with
  | none => (u, [])
  | some job =>
      let (job, sent) := job.handleReadJob st.lib source faults turn
      ({ u with job := job }, sent.filterMap forward)

end Uploader

/-- The list of files as it is sent to the peer. -/
def sentFiles (st : Setting) (files : List FileEntry) : List (Text × Nat) :=
  if st.lib.windows && !st.peerWindows then
    files.map fun e => (transformWindowsPath e.name, e.modifiedTime)
  else files.map fun e => (e.name, e.modifiedTime)

end RemoteControl.Transfer
