import RemoteControl.Transfer.Client
import RemoteControl.Transfer.Reading

/-! # Uploads

An upload is a read job of the client and a write job of the connection manager, with
a queue in each direction. A file that is there already is only sent after the user,
or a strategy he chose before, has decided about it.

What the manager makes of its messages is here too: which file it is at afterwards,
what it answers, and which files a message leaves alone.
-/

namespace RemoteControl.Transfer

open Host (SendConfirm)
open FileTree (Within)
open TransferJob

structure Upload where
  uploader : Uploader
  toManager : List FS := []
  manager : Manager
  toUploader : List Reply := []

inductive UploadEvent where
  /-- A tick of the client's timer. -/
  | round (faults : Faults) (turn : Bool)
  /-- The manager takes the next message. -/
  | manage (now : Nat)
  /-- The client takes the next reply. -/
  | reply
  /-- The user answers the question. -/
  | answer (needOverride remember : Bool)
  | cancel

namespace Upload

/-- The client's setting and files, and the manager's host. -/
structure Ends where
  st : Setting
  source : Tree
  lib : Library

/-- The client has moved on and has sent something. -/
def send (after : Uploader × List FS) (toUploader : List Reply) (s : Upload) : Upload :=
  { s with
    uploader := after.1
    toManager := s.toManager ++ after.2
    toUploader := toUploader }

def round (ends : Ends) (faults : Faults) (turn : Bool) (s : Upload) : Upload :=
  s.send (s.uploader.onRound ends.st ends.source faults turn) s.toUploader

def manage (ends : Ends) (now : Nat) (s : Upload) : Upload :=
  match s.toManager with
  | [] => s
  | fs :: rest =>
      let (m, replies) := s.manager.handleFs ends.lib now fs
      { s with toManager := rest, manager := m, toUploader := s.toUploader ++ replies }

def reply (ends : Ends) (s : Upload) : Upload :=
  match s.toUploader with
  | [] => s
  | r :: rest => s.send (s.uploader.onReply ends.st ends.source r) rest

def answer (ends : Ends) (needOverride remember : Bool) (s : Upload) : Upload :=
  s.send (s.uploader.onAnswer ends.st ends.source needOverride remember, []) s.toUploader

def cancel (s : Upload) : Upload := s.send s.uploader.onCancel s.toUploader

def step (ends : Ends) (s : Upload) : UploadEvent → Upload
  | .round faults turn => s.round ends faults turn
  | .manage now => s.manage ends now
  | .reply => s.reply ends
  | .answer needOverride remember => s.answer ends needOverride remember
  | .cancel => s.cancel

/-- The client has a new read job, and the manager has been told about it. -/
def start (ends : Ends) (folder : Text) (job : TransferJob) (t : Tree) : Upload :=
  let (m, replies) := Manager.handleFs ends.lib 0
    (.newWrite folder job.id job.fileNum (sentFiles ends.st job.files) job.enableOverwriteDetection)
    { tree := t }
  { uploader := { id := job.id, job := some job }, manager := m, toUploader := replies }

end Upload

/-! ## The manager's file -/

namespace FS

/-- The file the manager is at after a message, if it was at the given one before. -/
def moves (base : TransferJob) (current : Int) : FS → Int
  | .writeBlock b =>
      if b.id = base.id ∧ (base.entry? b.fileNum).isSome = true then b.fileNum else current
  | .sendConfirm r =>
      if r.id = base.id ∧ current = r.fileNum ∧ r.union = some (.skip true) then current + 1
      else current
  | _ => current

/-- The message makes the manager neither write to a file nor finish it. -/
def Spares (i current : Int) : FS → Prop
  | .writeBlock b => b.fileNum ≠ i ∧ current ≠ i
  | .writeDone _ _ => current ≠ i
  | .sendConfirm r => (∃ offset, r.union = some (.offsetBlk offset)) → r.fileNum ≠ i
  | _ => True

/-- The file a message asks about. -/
def asks : FS → Option Int
  | .checkDigest _ fileNum _ _ _ _ => some fileNum
  | _ => none

def isNewWrite : FS → Bool
  | .newWrite _ _ _ _ _ => true
  | _ => false

end FS

/-- The file a reply is about. -/
def Reply.decides : Reply → Option Int
  | .confirm r => some r.fileNum
  | .response (.digest d) => some d.fileNum
  | _ => none

namespace TransferJob

/-- The files of an entry are away from a place. -/
structure Apart (lib : Library) (job : TransferJob) (p : Place) (e : FileEntry) : Prop where
  target : ¬ job.target lib e <+: p
  download : ¬ job.downloadPlace lib e <+: p
  digest : job.digestPlace lib e ≠ p

/-- No other file of the job has its files at the target of this one, or above it. -/
def Alone (lib : Library) (job : TransferJob) (i : Int) (e : FileEntry) : Prop :=
  ∀ k e', k ≠ i → job.entry? k = some e' → Apart lib job (job.target lib e) e'

section Same

variable {lib : Library} {base job : TransferJob}

theorem Same.moves (same : Same base job) (current : Int) (fs : FS) :
    fs.moves job current = fs.moves base current := by
  cases fs with
  | writeBlock b => simp only [FS.moves, same.1, same.entry]
  | sendConfirm r => simp only [FS.moves, same.1]
  | newWrite | cancelWrite | writeDone | writeError | checkDigest => rfl

end Same

variable {lib : Library} {job : TransferJob} {t : Tree} {now : Nat}

theorem startFile_fileNum {e : FileEntry} :
    (job.startFile lib now e t).1.fileNum = job.fileNum := by
  unfold startFile
  dsimp only
  split
  · rfl
  · split <;> rfl

variable {b : FileTransferBlock}

theorem writeData_fileNum :
    (job.writeData lib now b t).1.fileNum = job.fileNum := by
  unfold writeData
  split <;> rfl

theorem beginFile_fileNum {fileNum : Int} {e : FileEntry} :
    (job.beginFile lib now fileNum e t).1.fileNum = fileNum :=
  startFile_fileNum

theorem write_fileNum :
    (job.write lib now b t).1.fileNum = (FS.writeBlock b).moves job job.fileNum := by
  rw [FS.moves]
  unfold write
  by_cases other : b.id ≠ job.id
  · rw [if_pos other, if_neg fun same => other same.1]
  · rw [if_neg other]
    rw [not_not] at other
    cases listed : job.entry? b.fileNum with
    | none => rw [if_neg fun both => Bool.false_ne_true both.2]
    | some e =>
        rw [if_pos ⟨other, rfl⟩]
        dsimp only
        split_ifs with begins
        · have begun := @beginFile_fileNum lib job t now b.fileNum e
          split
          · rename_i same
            rwa [same] at begun
          · rename_i same
            rw [same] at begun
            exact writeData_fileNum.trans begun
        · rw [writeData_fileNum]
          rw [not_or, not_not] at begins
          exact begins.1.symm

theorem confirm_fileNum {r : SendConfirm} (own : r.id = job.id) :
    (job.confirm lib t r).fileNum = (FS.sendConfirm r).moves job job.fileNum := by
  rw [FS.moves]
  by_cases skips : job.fileNum = r.fileNum ∧ r.union = some (.skip true)
  · rw [if_pos ⟨own, skips⟩, confirm_of_skip skips.1 skips.2]
    rfl
  · obtain ⟨stream, transferred, finishedSize, confirmed, skipped, shape, -⟩ :=
      @confirm_stays lib t job r skips
    rw [if_neg fun all => skips all.2, shape]

end TransferJob

namespace Manager

variable {lib : Library} {m : Manager} {job : TransferJob} {now : Nat} {fs : FS}

theorem handleFs_writeBlock (present : m.job = some job) (own : b.id = job.id) :
    (m.handleFs lib now (.writeBlock b)).1 =
      { m with job := some (job.write lib now b m.tree).1, tree := (job.write lib now b m.tree).2.1 } := by
  simp only [handleFs, present, if_pos own]
  split
  · rename_i same
    rw [same]
  · rename_i same
    rw [same]

theorem handleFs_of_none (idle : m.job = none) (old : fs.isNewWrite = false) :
    m.handleFs lib now fs = (m, []) := by
  cases fs with
  | newWrite => cases old
  | cancelWrite | writeDone | writeError | writeBlock | checkDigest | sendConfirm =>
      simp only [handleFs, idle]

/-- The job stays the same but for its file and what is open. -/
theorem handleFs_job {job' : TransferJob} (present : m.job = some job)
    (old : fs.isNewWrite = false) (left : (m.handleFs lib now fs).1.job = some job') :
    Same job job' ∧ job'.fileNum = fs.moves job job.fileNum := by
  cases fs with
  | newWrite => cases old
  | cancelWrite id | writeDone id | writeError id =>
      simp only [handleFs, present] at left
      split_ifs at left
      · cases present.symm.trans left
        exact ⟨.refl, rfl⟩
  | writeBlock b =>
      by_cases own : b.id = job.id
      · rw [handleFs_writeBlock present own] at left
        cases left
        exact ⟨write_same, write_fileNum⟩
      · simp only [handleFs, present, if_neg own] at left
        cases left
        exact ⟨.refl, by simp only [FS.moves, own, false_and, if_false]⟩
  | checkDigest id fileNum =>
      simp only [handleFs, present] at left
      split_ifs at left
      · unfold checkDigest at left
        split at left
        · cases present.symm.trans left
          exact ⟨.refl, rfl⟩
        · cases left
          exact ⟨.refl, rfl⟩
      · cases present.symm.trans left
        exact ⟨.refl, rfl⟩
  | sendConfirm r =>
      by_cases own : r.id = job.id
      · simp only [handleFs, present, if_pos own] at left
        cases left
        exact ⟨confirm_same, confirm_fileNum own⟩
      · simp only [handleFs, present, if_neg own] at left
        cases left
        exact ⟨.refl, by simp only [FS.moves, own, false_and, if_false]⟩

/-- A digest has at most one answer, and the manager does not skip by itself. -/
theorem checkDigest_replies {id fileNum : Int} {fileSize lastModified : Nat}
    {isUpload isResume : Bool} :
    (m.checkDigest lib id fileNum fileSize lastModified isUpload isResume job).2 = [] ∨
      ∃ reply, (m.checkDigest lib id fileNum fileSize lastModified isUpload isResume job).2 = [reply] ∧
        reply.decides = some fileNum ∧ ∀ r, reply = .confirm r → r.union = some (.offsetBlk 0) := by
  unfold checkDigest
  split
  · exact .inl rfl
  · refine .inr ⟨_, rfl, ?_⟩
    unfold isWriteNeedConfirmation
    dsimp only
    split <;> rename_i found <;> split at found
    · cases found
    · split at found <;> cases found
    · cases found
      exact ⟨rfl, nofun⟩
    · split at found
      · cases found
        exact ⟨rfl, nofun⟩
      · cases found
    · cases found
    · refine ⟨rfl, ?_⟩
      rintro r ⟨⟩
      rfl

/-- Only a digest is answered with something that decides about a file. -/
theorem handleFs_replies (old : fs.isNewWrite = false) :
    (∀ reply ∈ (m.handleFs lib now fs).2, reply.decides = none) ∨
      ∃ k reply, fs.asks = some k ∧ (m.handleFs lib now fs).2 = [reply] ∧ reply.decides = some k ∧
        ∀ r, reply = .confirm r → r.union = some (.offsetBlk 0) := by
  cases present : m.job with
  | none =>
      rw [handleFs_of_none present old]
      exact .inl (List.forall_mem_nil _)
  | some job =>
      cases fs with
      | newWrite => cases old
      | cancelWrite | writeDone | writeError | sendConfirm =>
          left
          simp only [handleFs, present]
          split_ifs <;> simp [Reply.decides]
      | writeBlock b =>
          left
          simp only [handleFs, present]
          split_ifs
          · split <;> simp [Reply.decides]
          · exact List.forall_mem_nil _
      | checkDigest id fileNum fileSize lastModified isUpload isResume =>
          simp only [handleFs, present]
          split_ifs
          · rcases @checkDigest_replies lib m job id fileNum fileSize lastModified isUpload isResume
              with none_ | ⟨reply, one, about, offers⟩
            · left
              rw [none_]
              exact List.forall_mem_nil _
            · exact .inr ⟨fileNum, reply, rfl, one, about, offers⟩
          · exact .inl (List.forall_mem_nil _)

variable {base : TransferJob} {i : Int} {e e' : FileEntry} {p : Place} {t : Tree}

theorem apart_of_same (same : Same base job) (apart : Apart lib base p e) : Apart lib job p e := by
  have path := @Same.filePath lib base job same e
  refine ⟨?_, ?_, ?_⟩
  · rw [target, path]
    exact apart.target
  · rw [downloadPlace, path]
    exact apart.download
  · rw [digestPlace, path]
    exact apart.digest

theorem own_of_apart (apart : Apart lib job p e) : Own lib (· ≠ p) (fun a => ¬ a <+: p) t job e where
  target := fun same => apart.target (same ▸ List.prefix_refl _)
  download := fun same => apart.download (same ▸ List.prefix_refl _)
  digest := apart.digest
  whole := fun _ => ⟨apart.download, apart.target⟩

theorem roomy_of_present (present : (t.node p).isSome = true) :
    Roomy lib (· ≠ p) (fun a => ¬ a <+: p) t job e := by
  intro q _
  by_cases same : q = p
  · subst same
    exact .inr ⟨present, fun a isPrefix => not_not.mpr isPrefix⟩
  · exact .inl same

/-- What is at a place stays as it is, and closed. -/
def Spared (p : Place) (m m' : Manager) : Prop :=
  m'.tree.node p = m.tree.node p ∧ ∀ job, m'.job = some job → StreamIn (· ≠ p) job

theorem Spared.refl (stream : ∀ job, m.job = some job → StreamIn (· ≠ p) job) : Spared p m m :=
  ⟨rfl, stream⟩

theorem Spared.of_within {t' : Tree} (within : Within (· ≠ p) (fun a => ¬ a <+: p) m.tree t')
    (stream : StreamIn (· ≠ p) job) : Spared p m ⟨some job, t'⟩ := by
  refine ⟨within.node p (not_not.mpr rfl) fun _ isPrefix => not_not.mpr isPrefix, ?_⟩
  rintro job' ⟨⟩
  exact stream

theorem Spared.of_gone {t' : Tree} (within : Within (· ≠ p) (fun a => ¬ a <+: p) m.tree t') :
    Spared p m ⟨none, t'⟩ := by
  refine ⟨within.node p (not_not.mpr rfl) fun _ isPrefix => not_not.mpr isPrefix, ?_⟩
  intro job gone
  cases gone

/-- A message that spares a file leaves it alone. -/
theorem handleFs_spared (present : m.job = some job) (same : Same base job)
    (listed : base.entry? i = some e) (alone : Alone lib base i e)
    (there : (m.tree.node (base.target lib e)).isSome = true)
    (stream : StreamIn (· ≠ base.target lib e) job) (old : fs.isNewWrite = false)
    (spares : fs.Spares i job.fileNum) :
    Spared (base.target lib e) m (m.handleFs lib now fs).1 := by
  have apart (k : Int) (e' : FileEntry) (other : k ≠ i) (listed' : job.entry? k = some e') :
      Apart lib job (base.target lib e) e' :=
    apart_of_same same (alone k e' other (same.entry k ▸ listed'))
  have stays : Spared (base.target lib e) m m := by
    refine .refl fun job' present' => ?_
    cases present.symm.trans present'
    exact stream
  -- a message for another job is dropped
  cases fs with
  | newWrite => cases old
  | cancelWrite id =>
      simp only [handleFs, present]
      split_ifs
      · refine .of_gone (removeDownloadFile_within ?_)
        intro e' current
        by_cases here : job.fileNum = i
        · rw [here, same.entry, listed] at current
          cases current
          rw [downloadPlace, digestPlace, same.filePath]
          exact ⟨resolve_suffix_ne _ (.inl rfl), resolve_suffix_ne _ (.inr rfl)⟩
        · have own := @own_of_apart lib job e' _ m.tree (apart _ e' here current)
          exact ⟨own.download, own.digest⟩
      · exact stays
  | writeDone id fileNum =>
      simp only [handleFs, present]
      split_ifs
      · refine .of_gone (modifyTime_within ?_)
        intro e' current
        exact own_of_apart (apart _ e' spares current)
      · exact stays
  | writeError id fileNum err =>
      simp only [handleFs, present]
      split_ifs
      · exact .of_gone .refl
      · exact stays
  | writeBlock b =>
      by_cases own : b.id = job.id
      · rw [handleFs_writeBlock present own]
        have written := @write_within lib (· ≠ base.target lib e)
          (fun a => ¬ a <+: base.target lib e) job m.tree now b
          (fun e' current => own_of_apart (apart _ e' spares.2 current))
          (fun e' next =>
            have own := @own_of_apart lib job e' _ m.tree (apart _ e' spares.1 next)
            ⟨own.download, own.digest, roomy_of_present there⟩) stream
        exact .of_within written.1 written.2
      · simp only [handleFs, present, if_neg own]
        exact stays
  | checkDigest id fileNum =>
      simp only [handleFs, present]
      split_ifs
      · unfold checkDigest
        split
        · exact stays
        · exact .of_within .refl stream
      · exact stays
  | sendConfirm r =>
      simp only [handleFs, present]
      split_ifs
      · refine .of_within .refl (confirm_streamIn ?_ stream)
        intro e' offset listed' union
        have own := @own_of_apart lib job e' _ m.tree (apart _ e' (spares ⟨offset, union⟩) listed')
        exact ⟨own.target, own.download⟩
      · exact stays

end Manager

end RemoteControl.Transfer
