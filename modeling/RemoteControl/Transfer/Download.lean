import RemoteControl.Transfer.Client
import RemoteControl.Transfer.Receiving

/-! # Downloads that are resumed

A download is a read job of the peer and a write job of the client. The client answers
each digest with a confirmation that it also gives to its own job: from where the file
is to be sent, so that what is left of an earlier download can be kept.

The client's job only takes a confirmation for the file it is at, which is the file
before until the first block of the next one comes. An offset for any file but the
first one of a transfer is thus lost on the receiving side while the sender goes by it,
and the file ends up without its beginning.
-/

namespace RemoteControl.Transfer

open Host (SendConfirm ConfirmUnion)
open Runs (exec Along Always)
open TransferJob

structure Download where
  peer : Option TransferJob
  toClient : List Response := []
  client : Client
  /-- How many of the client's confirmations the peer has taken. -/
  delivered : Nat := 0

inductive DownloadEvent where
  /-- A tick of the peer's timer. -/
  | round (faults : Faults) (turn : Bool)
  /-- The client takes the next response. -/
  | receive (now : Nat)
  /-- The peer takes the next confirmation. -/
  | confirm
  /-- The user answers the question. -/
  | answer (needOverride remember : Bool)

namespace Download

/-- The client's setting, and the host and files of the peer. -/
structure Ends where
  st : Setting
  peerLib : Library
  source : Tree

def round (ends : Ends) (faults : Faults) (turn : Bool) (s : Download) : Download :=
  match s.peer with
  | none => s
  | some job =>
      let (job, sent) := job.handleReadJob ends.peerLib ends.source faults turn
      { s with peer := job, toClient := s.toClient ++ sent }

def receive (ends : Ends) (now : Nat) (s : Download) : Download :=
  match s.toClient with
  | [] => s
  | r :: rest => { s with client := s.client.onResponse ends.st now r, toClient := rest }

def confirm (ends : Ends) (s : Download) : Download :=
  match s.client.sent[s.delivered]? with
  | none => s
  | some r =>
      { s with
        peer := s.peer.map fun job =>
          if r.id = job.id then job.confirm ends.peerLib ends.source r else job
        delivered := s.delivered + 1 }

def answer (ends : Ends) (needOverride remember : Bool) (s : Download) : Download :=
  match s.client.question with
  | none => s
  | some fileNum => { s with client := s.client.onAnswer ends.st fileNum needOverride remember }

def step (ends : Ends) (s : Download) : DownloadEvent → Download
  | .round faults turn => s.round ends faults turn
  | .receive now => s.receive ends now
  | .confirm => s.confirm ends
  | .answer needOverride remember => s.answer ends needOverride remember

/-- What a download is about. -/
structure Request where
  id : Int
  /-- The folder of the peer. -/
  path : Text
  /-- The folder of the client. -/
  folder : Text
  fileNum : Int
  files : List FileEntry
  isResume : Bool

/-- The read job of the peer. -/
def Request.reads (r : Request) : TransferJob := .newRead r.id r.path r.fileNum r.files true

/-- The write job of the client. -/
def Request.writes (r : Request) (files : List FileEntry) : TransferJob :=
  { TransferJob.newWrite r.id r.folder r.fileNum files true with isResume := r.isResume }

/-- The client has been told the files. -/
def start (ends : Ends) (r : Request) (t : Tree) : Download where
  peer := some r.reads
  client := ({ job := some (r.writes []), tree := t } : Client).onResponse ends.st 0 (.dir r.id r.files)

/-- The files the client was asked to skip, or has skipped by itself. -/
def skipped (s : Download) (i : Int) : Prop :=
  ∃ r ∈ s.client.sent, r.fileNum = i ∧ r.union = some (.skip true)

/-- The offset the client will ask for: what is left of an earlier download. -/
def resumeOffset (st : Setting) (job : TransferJob) (t : Tree) (d : FileTransferDigest) : Nat :=
  match job.entry? d.fileNum with
  | none => 0
  | some e =>
      if st.supportResume && job.isResume then
        (leftover st.lib t (job.downloadPlace st.lib e) (job.digestPlace st.lib e) d).getD 0 % 2 ^ 32
      else 0

/-- The client is about to ask for an offset in a file that its own job is not at. -/
def losesOffset (ends : Ends) (s : Download) : DownloadEvent → Bool
  | .receive _ =>
      match s.toClient, s.client.job with
      | .digest d :: _, some job =>
          job.fileNum ≠ d.fileNum && resumeOffset ends.st job s.client.tree d > 0
      | _, _ => false
  | _ => false

end Download

/-! ## What the client agrees to -/

section Digest

variable {lib : Library} {t : Tree} {d : FileTransferDigest} {filePath : Text} {k : Nat}

theorem leftover_eq_some {download digest : Place}
    (left : leftover lib t download digest d = some k) :
    ∃ front modified, t.node download = some (.file front modified) ∧ t.exists_ digest = true ∧
      k = front.length ∧ 0 < k := by
  unfold leftover at left
  split at left
  · rename_i front modified text modified' there there'
    split_ifs at left with fits
    cases left
    exact ⟨front, modified, there, by rw [FileTree.exists_, there']; rfl, rfl, fits.2⟩
  · cases left

theorem leftover_congr {t' : Tree} {d' : FileTransferDigest} {download digest : Place}
    (same : t'.node download = t.node download) (same' : t'.node digest = t.node digest)
    (size : d'.fileSize = d.fileSize) (time : d'.lastModified = d.lastModified) :
    leftover lib t' download digest d' = leftover lib t download digest d := by
  unfold leftover
  rw [same, same', size, time]

theorem isWriteNeedConfirmation_of_leftover
    (left : leftover lib t (resolve lib.windows (filePath ++ downloadSuffix))
      (resolve lib.windows (filePath ++ digestSuffix)) d = some k) :
    isWriteNeedConfirmation lib true t filePath d =
      .needConfirm { id := d.id, fileNum := d.fileNum, lastModified := d.lastModified
                     fileSize := d.fileSize, isIdentical := true, transferredSize := k } := by
  unfold isWriteNeedConfirmation
  rw [if_pos rfl, left]

/-- Nothing is left, or it is not to be used: the question is whether there is a file. -/
theorem isWriteNeedConfirmation_of_none {isResume : Bool}
    (nothing : isResume = true → leftover lib t (resolve lib.windows (filePath ++ downloadSuffix))
      (resolve lib.windows (filePath ++ digestSuffix)) d = none) :
    isWriteNeedConfirmation lib isResume t filePath d = .noSuchFile ∨
      ∃ existing, isWriteNeedConfirmation lib isResume t filePath d = .needConfirm existing ∧
        existing.transferredSize = 0 := by
  have unused : (if isResume = true then
      leftover lib t (resolve lib.windows (filePath ++ downloadSuffix))
        (resolve lib.windows (filePath ++ digestSuffix)) d else none) = none := by
    split_ifs with resume
    · exact nothing resume
    · rfl
  unfold isWriteNeedConfirmation
  rw [unused]
  dsimp only
  split
  · exact .inr ⟨_, rfl, rfl⟩
  · exact .inl rfl

theorem overwriteStrategy_of_whole {job : TransferJob} (whole : d.transferredSize = 0) :
    overwriteStrategy job d = job.defaultOverwriteStrategy.map overrideUnion := by
  simp [overwriteStrategy, whole]

/-- What is confirmed without an offset. -/
theorem overrideUnion_cases (needOverride : Bool) :
    overrideUnion needOverride = .skip true ∨ overrideUnion needOverride = .offsetBlk 0 := by
  cases needOverride with
  | false => exact .inl rfl
  | true => exact .inr rfl

variable {st : Setting} {c : Client} {job : TransferJob} {e : FileEntry}

/-- The client asks the user, or confirms: to skip the file, to send all of it, or to go
    on where an earlier download was left. -/
theorem Client.onDigest_cases (listed : job.entry? d.fileNum = some e) :
    c.onDigest st d job =
        { c with
          job := some { job with digest := ⟨d.fileSize, d.lastModified⟩ }
          question := some d.fileNum } ∨
      ∃ u, c.onDigest st d job =
          c.confirmBoth st { job with digest := ⟨d.fileSize, d.lastModified⟩ } d.fileNum u ∧
        (u = .skip true ∨ u = .offsetBlk 0 ∨
          ∃ k, leftover st.lib c.tree (job.downloadPlace st.lib e) (job.digestPlace st.lib e) d =
            some k ∧
            u = .offsetBlk (k % 2 ^ 32) ∧ Download.resumeOffset st job c.tree d = k % 2 ^ 32) := by
  have path : TransferJob.filePath st.lib
      { job with digest := ⟨d.fileSize, d.lastModified⟩ } e = job.filePath st.lib e := rfl
  unfold Client.onDigest
  rw [listed]
  dsimp only
  rw [path]
  by_cases used : (st.supportResume && job.isResume) = true ∧ ∃ k, leftover st.lib c.tree
      (job.downloadPlace st.lib e) (job.digestPlace st.lib e) d = some k
  · obtain ⟨resume, k, left⟩ := used
    obtain ⟨-, -, -, -, -, some_⟩ := leftover_eq_some left
    have isResume : job.isResume = true := (Bool.and_eq_true_iff.mp resume).2
    rw [resume, isWriteNeedConfirmation_of_leftover left]
    refine .inr ⟨.offsetBlk (k % 2 ^ 32), ?_, .inr (.inr ⟨k, left, rfl, ?_⟩)⟩
    · simp [overwriteStrategy, isResume, some_]
    · simp only [Download.resumeOffset, listed, resume, left, if_true, Option.getD_some]
  · have nothing (resume : (st.supportResume && job.isResume) = true) : leftover st.lib c.tree
        (job.downloadPlace st.lib e) (job.digestPlace st.lib e) d = none := by
      rw [Option.eq_none_iff_forall_not_mem]
      exact fun k left => used ⟨resume, k, left⟩
    rcases isWriteNeedConfirmation_of_none nothing with absent | ⟨existing, present, whole⟩
    · rw [absent]
      exact .inr ⟨.offsetBlk 0, rfl, .inr (.inl rfl)⟩
    · rw [present]
      dsimp only
      rw [overwriteStrategy_of_whole whole]
      cases strategy : job.defaultOverwriteStrategy with
      | none => exact .inl rfl
      | some needOverride =>
          rw [Option.map_some]
          refine .inr ⟨overrideUnion needOverride, rfl, ?_⟩
          rcases overrideUnion_cases needOverride with skip | whole
          · exact .inl skip
          · exact .inr (.inl whole)

end Digest

namespace Plan

variable {plan : Plan} {skipped : Int → Prop} {n : Int} {id : Int} {job : TransferJob} {t : Tree}
  {e : FileEntry}

/-- What the client has once a file is confirmed: the next one may come, or it has this
    one up to where it will be sent from. -/
inductive Agreed (plan : Plan) (skipped : Int → Prop) (n : Int) (job : TransferJob) (t : Tree) :
    ConfirmUnion → Prop where
  | skip (ready : plan.Ready skipped (n + 1) job t) : Agreed plan skipped n job t (.skip true)
  | offset {pos : Option Nat} (reached : plan.At skipped n pos job t) :
      Agreed plan skipped n job t (.offsetBlk (pos.getD 0))

theorem Ready.skip (ready : plan.Ready skipped n job t) (isSkipped : skipped n) :
    plan.Ready skipped (n + 1) (job.confirm plan.lib t ⟨id, n, some (.skip true)⟩) t := by
  cases ready with
  | fresh closed current finished =>
      rw [confirm_of_skip current rfl]
      refine .fresh rfl (by rw [← current]; rfl) ?_
      intro j e first before listed unskipped
      have other : j ≠ n := by
        rintro rfl
        exact unskipped isSkipped
      exact finished j e first (by omega) listed unskipped
  | @after f content original progress earlier between =>
      have elsewhere : job.fileNum ≠ n := progress.current.trans_ne earlier.ne
      rw [confirm, if_pos elsewhere]
      refine .after original progress (by omega) ?_
      intro j after before
      by_cases same : j = n
      · exact same ▸ isSkipped
      · exact between j after (by omega)

theorem Ready.whole (ready : plan.Ready skipped n job t) :
    plan.Ready skipped n (job.confirm plan.lib t ⟨id, n, some (.offsetBlk 0)⟩) t := by
  cases ready with
  | fresh closed current finished =>
      rw [confirm, if_neg (not_not.mpr current)]
      exact .fresh closed current finished
  | after original progress earlier between =>
      have elsewhere : job.fileNum ≠ n := progress.current.trans_ne earlier.ne
      rw [confirm, if_pos elsewhere]
      exact .after original progress earlier between

/-- What is left of an earlier download is the beginning of the file, and the job is at
    that file. -/
structure Resumes (plan : Plan) (n : Int) (offset : Nat) (job : TransferJob) (t : Tree) : Prop where
  current : job.fileNum = n
  positive : 0 < offset
  left : ∃ e content front modified, plan.base.entry? n = some e ∧ plan.original n = some content ∧
    t.node (plan.base.downloadPlace plan.lib e) = some (.file front modified) ∧
    t.exists_ (plan.base.digestPlace plan.lib e) = true ∧ front <+: content ∧ offset ≤ front.length

theorem Ready.resume {offset : Nat} (ready : plan.Ready skipped n job t) (same : Same plan.base job)
    (resumes : plan.Resumes n offset job t) :
    plan.Progress skipped n offset (job.confirm plan.lib t ⟨id, n, some (.offsetBlk offset)⟩) t := by
  obtain ⟨current, positive, e, content, front, modified, listed, original, file, digest, isPrefix,
    inside⟩ := resumes
  have finished : plan.Finished skipped n t := by
    cases ready with
    | fresh _ _ finished => exact finished
    | after _ progress earlier => exact absurd (progress.current.symm.trans current) earlier.ne
  have exists_ : t.exists_ (plan.base.downloadPlace plan.lib e) = true := by
    rw [FileTree.exists_, file]
    rfl
  have isFile : t.isFile (plan.base.downloadPlace plan.lib e) = true := by
    rw [FileTree.isFile, file]
  have place : (job.setFileConfirmed true).downloadPlace plan.lib e =
      plan.base.downloadPlace plan.lib e := by
    rw [downloadPlace, downloadPlace, ← same.filePath]
    rfl
  have place' : (job.setFileConfirmed true).digestPlace plan.lib e =
      plan.base.digestPlace plan.lib e := by
    rw [digestPlace, digestPlace, ← same.filePath]
    rfl
  have listed' : entry? (job.setFileConfirmed true) n = some e := (same.entry n).trans listed
  rw [confirm, if_neg (not_not.mpr current)]
  dsimp only
  rw [if_pos positive, setStreamOffset, listed']
  dsimp only
  rw [place, place', exists_, digest, isFile, Bool.and_self, if_pos rfl, if_pos rfl]
  exact ⟨current, finished, e, content, front, modified, listed, original, rfl, file, isPrefix, inside⟩

/-- What may be confirmed without losing an offset. -/
inductive Answer (plan : Plan) (n : Int) (job : TransferJob) (t : Tree) : ConfirmUnion → Prop where
  | skip : Answer plan n job t (.skip true)
  | whole : Answer plan n job t (.offsetBlk 0)
  | resume {offset : Nat} (resumes : plan.Resumes n offset job t) :
      Answer plan n job t (.offsetBlk offset)

theorem Ready.agree {more : Int → Prop} {u : ConfirmUnion} (ready : plan.Ready skipped n job t)
    (same : Same plan.base job) (answer : plan.Answer n job t u)
    (grows : ∀ j, skipped j → more j) (told : u = .skip true → more n) :
    plan.Agreed more n (job.confirm plan.lib t ⟨id, n, some u⟩) t u := by
  have ready := ready.mono grows
  cases answer with
  | skip => exact .skip (ready.skip (told rfl))
  | whole => exact @Agreed.offset plan more n _ t none ready.whole
  | @resume offset resumes =>
    exact @Agreed.offset plan more n _ t (some offset) (ready.resume same resumes)

end Plan

end RemoteControl.Transfer
