import RemoteControl.Transfer.Frames

/-! # The rounds of a read job

One round of `handle_read_jobs` first begins the current file, opening it and asking
about it, and then, if the job has its turn, sends a part of it. `Begun` lists what can
come of the first and `Turned` of the second; `initJob_cases` and `takeTurn_cases` say
that nothing else does. Everything the rest of the development knows about the sending
side comes from there.
-/

namespace RemoteControl.Transfer

open Host (SendConfirm)

def Response.isError : Response → Bool
  | .error _ _ _ => true
  | _ => false

def Response.isDone : Response → Bool
  | .done _ _ => true
  | _ => false

namespace TransferJob

/-- A read job of the given files. -/
def newRead (id : Int) (path : Text) (fileNum : Int) (files : List FileEntry)
    (enableOverwriteDetection : Bool) : TransferJob where
  id := id
  path := path
  fileNum := fileNum
  files := files
  enableOverwriteDetection := enableOverwriteDetection

section Fails

variable (lib : Library) (t : Tree) (faults : Faults) (job : TransferJob)

/-- The file is closed and cannot be opened. -/
def openFails (e : FileEntry) : Bool :=
  job.stream.isNone && (faults.open_.isSome || !t.isFile (job.target lib e))

/-- The digest of the file is due and cannot be read. -/
def digestFails : Bool :=
  match job.stream with
  | none => faults.digest.isSome
  | some s =>
      !job.fileConfirmed && !job.fileIsWaiting && (faults.digest.isSome || !t.isFile s.place)

/-- The current file cannot be opened or, if it is asked about, has no digest. -/
def beginFails : Bool :=
  match job.entry? job.fileNum with
  | none => false
  | some e =>
      job.openFails lib t faults e || job.enableOverwriteDetection && job.digestFails t faults

end Fails

/-- What comes of the beginning: the job and what is sent. -/
inductive Begun (lib : Library) (t : Tree) (faults : Faults) (job : TransferJob) :
    TransferJob → List Response → Prop where
  | past (unlisted : job.entry? job.fileNum = none) :
      Begun lib t faults job { job with stream := none } []
  | ready (listed : (job.entry? job.fileNum).isSome = true) (fine : job.beginFails lib t faults = false)
      (stream : job.stream.isSome = true)
      (settled : job.enableOverwriteDetection = true →
        job.fileConfirmed = true ∨ job.fileIsWaiting = true) :
      Begun lib t faults job job []
  | opened {e : FileEntry} (listed : job.entry? job.fileNum = some e)
      (fine : job.beginFails lib t faults = false) (undetected : job.enableOverwriteDetection = false) :
      Begun lib t faults job
        { job with
          stream := some ⟨job.target lib e, 0, .read⟩
          fileConfirmed := false
          fileIsWaiting := false }
        []
  | asked {s : Stream} {content : Host.Bytes} {modified : Nat}
      (listed : (job.entry? job.fileNum).isSome = true) (fine : job.beginFails lib t faults = false)
      (detection : job.enableOverwriteDetection = true)
      (file : t.node s.place = some (.file content modified))
      (opened : job.stream.isSome = true ∨
        ∃ e, job.entry? job.fileNum = some e ∧ s = ⟨job.target lib e, 0, .read⟩) :
      Begun lib t faults job
        { job with stream := some s, fileConfirmed := false, fileIsWaiting := true }
        [.digest { id := job.id, fileNum := job.fileNum, lastModified := modified
                   fileSize := content.length, isResume := job.isResume }]
  | unopened (err : String) (listed : (job.entry? job.fileNum).isSome = true)
      (fails : job.beginFails lib t faults = true) :
      Begun lib t faults job job.nextFile [.error job.id (job.fileNum + 1) err]
  | undigested {s : Stream} (err : String) (listed : (job.entry? job.fileNum).isSome = true)
      (fails : job.beginFails lib t faults = true) (detection : job.enableOverwriteDetection = true) :
      Begun lib t faults job
        { job with stream := some s, fileConfirmed := false, fileIsWaiting := false }
        [.error job.id job.fileNum err]

section Begun

variable {lib : Library} {t : Tree} {job : TransferJob} {e : FileEntry} (faults : Faults)

theorem openDataStream_of_openFails (listed : job.entry? job.fileNum = some e)
    (fails : job.openFails lib t faults e = true) :
    ∃ err, job.openDataStream lib t faults = (job.nextFile, .error err) := by
  obtain ⟨closed, refused⟩ := (Bool.and_eq_true _ _).mp fails
  have isClosed : job.stream.isSome = false := by
    rw [Option.isNone_iff_eq_none.mp closed]
    rfl
  cases fault : faults.open_ with
  | some err => exact ⟨err, by simp [openDataStream, listed, isClosed, fault]⟩
  | none =>
      rw [fault, Option.isSome_none, Bool.false_or, Bool.not_eq_true'] at refused
      refine ⟨"No such file or directory", ?_⟩
      unfold FileTree.isFile at refused
      split at refused
      · cases refused
      · rename_i noFile
        simp only [openDataStream, listed, isClosed, fault, Bool.false_eq_true, if_false]
        split
        · rename_i content modified _ node
          exact absurd node (noFile content modified)
        · rfl

theorem openDataStream_of_closed (listed : job.entry? job.fileNum = some e)
    (closed : job.stream = none) (opens : job.openFails lib t faults e = false) :
    t.isFile (job.target lib e) = true ∧
      job.openDataStream lib t faults =
        ({ job with
            stream := some ⟨job.target lib e, 0, .read⟩
            fileConfirmed := false
            fileIsWaiting := false }, .ok false) := by
  simp only [openFails, closed, Option.isNone_none, Bool.true_and, Bool.or_eq_false_iff,
    Bool.not_eq_false'] at opens
  obtain ⟨noFault, isFile⟩ := opens
  refine ⟨isFile, ?_⟩
  have fault : faults.open_ = none := by
    rwa [Option.isSome_eq_false_iff, Option.isNone_iff_eq_none] at noFault
  unfold FileTree.isFile at isFile
  split at isFile
  · rename_i content modified node
    simp [openDataStream, listed, closed, fault, node]
  · cases isFile

/-- The digest is sent, or the reason why there is none. -/
theorem currentDigest_cases (s : Stream) (stream : job.stream = some s) :
    ((faults.digest.isSome || !t.isFile s.place) = false ∧ ∃ content modified,
      t.node s.place = some (.file content modified) ∧
      job.currentDigest t faults =
        .ok { id := job.id, fileNum := job.fileNum, lastModified := modified
              fileSize := content.length, isResume := job.isResume }) ∨
      (faults.digest.isSome || !t.isFile s.place) = true ∧
        ∃ err, job.currentDigest t faults = .error err := by
  cases fault : faults.digest with
  | some err => exact .inr ⟨rfl, err, by simp [currentDigest, fault]⟩
  | none =>
      simp only [FileTree.isFile, currentDigest, fault, stream, Option.bind_some]
      split
      · rename_i content modified node
        exact .inl ⟨rfl, content, modified, node, by rw [node]⟩
      · rename_i noFile
        refine .inr ⟨rfl, "file is None", ?_⟩
        split
        · rename_i content modified _ node
          exact absurd node (noFile content modified)
        · rfl

variable {s : Stream}

/-- The file is open and its digest is due. -/
theorem initJob_of_due (listed : (job.entry? job.fileNum).isSome = true)
    (detection : job.enableOverwriteDetection = true)
    (failing : job.beginFails lib t faults = (faults.digest.isSome || !t.isFile s.place))
    (begun : job.openDataStream lib t faults =
      ({ job with stream := some s, fileConfirmed := false, fileIsWaiting := false }, .ok false))
    (opened : job.stream.isSome = true ∨
      ∃ e, job.entry? job.fileNum = some e ∧ s = ⟨job.target lib e, 0, .read⟩) :
    Begun lib t faults job (job.initJob lib t faults).1 (job.initJob lib t faults).2 := by
  have due : (job.enableOverwriteDetection && !false && !false) = true := by rw [detection]; rfl
  simp only [initJob, initDataStream, begun, due, if_true]
  rcases @currentDigest_cases t
      { job with stream := some s, fileConfirmed := false, fileIsWaiting := false } faults s rfl with
    ⟨fine, content, modified, file, digest⟩ | ⟨fails, err, digest⟩
  · rw [digest]
    exact .asked listed (failing.trans fine) detection file opened
  · rw [digest]
    exact .undigested err listed (failing.trans fails) detection

theorem initJob_of_closed (listed : job.entry? job.fileNum = some e) (closed : job.stream = none)
    (opens : job.openFails lib t faults e = false) :
    Begun lib t faults job (job.initJob lib t faults).1 (job.initJob lib t faults).2 := by
  obtain ⟨isFile, begun⟩ := openDataStream_of_closed faults listed closed opens
  have failing : job.beginFails lib t faults =
      (job.enableOverwriteDetection && faults.digest.isSome) := by
    simp only [beginFails, listed, opens, digestFails, closed, Bool.false_or]
  cases detection : job.enableOverwriteDetection with
  | false =>
      have opened : job.initJob lib t faults =
          ({ job with
              stream := some ⟨job.target lib e, 0, .read⟩
              fileConfirmed := false
              fileIsWaiting := false }, []) := by
        simp [initJob, initDataStream, begun, detection]
      rw [opened]
      rw [detection, Bool.false_and] at failing
      exact .opened listed failing detection
  | true =>
      refine initJob_of_due faults (by rw [listed]; rfl) detection ?_ begun (.inr ⟨e, listed, rfl⟩)
      rw [failing, detection, isFile, Bool.not_true, Bool.or_false, Bool.true_and]

theorem initJob_of_stream (listed : job.entry? job.fileNum = some e) (stream : job.stream = some s) :
    Begun lib t faults job (job.initJob lib t faults).1 (job.initJob lib t faults).2 := by
  have isListed : (job.entry? job.fileNum).isSome = true := by rw [listed]; rfl
  have isOpen : job.stream.isSome = true := by rw [stream]; rfl
  have begun : job.openDataStream lib t faults = (job, .ok false) := by
    simp only [openDataStream, listed, isOpen, if_true]
  have failing : job.beginFails lib t faults =
      (job.enableOverwriteDetection && !job.fileConfirmed && !job.fileIsWaiting &&
        (faults.digest.isSome || !t.isFile s.place)) := by
    simp only [beginFails, listed, openFails, digestFails, stream, Option.isNone_some,
      Bool.false_and, Bool.false_or, Bool.and_assoc]
  cases due : job.enableOverwriteDetection && !job.fileConfirmed && !job.fileIsWaiting with
  | false =>
      simp only [initJob, initDataStream, begun, due, Bool.false_eq_true, if_false]
      rw [due, Bool.false_and] at failing
      refine .ready isListed failing isOpen ?_
      intro detection
      rwa [detection, Bool.true_and, Bool.and_eq_false_iff, Bool.not_eq_false', Bool.not_eq_false']
        at due
  | true =>
      rw [due, Bool.true_and] at failing
      simp only [Bool.and_eq_true, Bool.not_eq_true'] at due
      obtain ⟨⟨detection, unconfirmed⟩, idle⟩ := due
      refine initJob_of_due faults isListed detection failing ?_ (.inl isOpen)
      rw [begun]
      cases job
      cases stream
      cases unconfirmed
      cases idle
      rfl

theorem initJob_cases :
    Begun lib t faults job (job.initJob lib t faults).1 (job.initJob lib t faults).2 := by
  cases listed : job.entry? job.fileNum with
  | none =>
      simp only [initJob, initDataStream, openDataStream, listed]
      exact .past listed
  | some e =>
      cases stream : job.stream with
      | some s => exact initJob_of_stream faults listed stream
      | none =>
          cases opens : job.openFails lib t faults e with
          | false => exact initJob_of_closed faults listed stream opens
          | true =>
              obtain ⟨err, refused⟩ := openDataStream_of_openFails faults listed opens
              simp only [initJob, initDataStream, refused]
              refine .unopened err (by rw [listed]; rfl) ?_
              simp only [beginFails, listed, opens, Bool.true_or]

end Begun

/-- What comes of the turn: the job, unless it is finished, and what is sent. -/
inductive Turned (lib : Library) (t : Tree) (job : TransferJob) :
    Option TransferJob → List Response → Prop where
  | waits (detection : job.enableOverwriteDetection = true) (unconfirmed : job.fileConfirmed = false)
      (waiting : job.fileIsWaiting = true) : Turned lib t job (some job) []
  | stalls (detection : job.enableOverwriteDetection = true) (confirmed : job.fileConfirmed = true)
      (unlisted : job.entry? job.fileNum = none) :
      Turned lib t job (some { job with stream := none }) []
  | ended (idle : job.enableOverwriteDetection = true →
        job.fileConfirmed = false ∧ job.fileIsWaiting = false)
      (unlisted : job.enableOverwriteDetection = false → job.entry? job.fileNum = none) :
      Turned lib t job none [job.farewell]
  | streamless (confirmed : job.enableOverwriteDetection = true → job.fileConfirmed = true)
      (closed : job.stream = none) (listed : (job.entry? job.fileNum).isSome = true) :
      Turned lib t job (some job) [.error job.id job.fileNum "data stream is None"]
  | sent {s : Stream} {content data : Host.Bytes} {modified transferred : Nat} {compressed : Bool}
      (confirmed : job.enableOverwriteDetection = true → job.fileConfirmed = true)
      (listed : (job.entry? job.fileNum).isSome = true)
      (stream : job.stream = some s) (mode : s.mode = .read)
      (file : t.node s.place = some (.file content modified))
      (more : (content.drop s.pos).take bufSize ≠ [])
      (encoded : data = if compressed then lib.compress ((content.drop s.pos).take bufSize)
        else (content.drop s.pos).take bufSize) :
      Turned lib t job
        (some { job with
          stream := some ⟨s.place, s.pos + ((content.drop s.pos).take bufSize).length, s.mode⟩
          finishedSize := job.finishedSize + ((content.drop s.pos).take bufSize).length
          transferred := transferred })
        [.block ⟨job.id, job.fileNum, data, compressed⟩]
  | last {s : Stream} {content : Host.Bytes} {modified : Nat}
      (confirmed : job.enableOverwriteDetection = true → job.fileConfirmed = true)
      (listed : (job.entry? job.fileNum).isSome = true)
      (stream : job.stream = some s) (mode : s.mode = .read)
      (file : t.node s.place = some (.file content modified))
      (whole : (content.drop s.pos).take bufSize = []) :
      Turned lib t job (some job.nextFile) [.block ⟨job.id, job.fileNum, [], false⟩]
  | failed (err : String)
      (confirmed : job.enableOverwriteDetection = true → job.fileConfirmed = true)
      (listed : (job.entry? job.fileNum).isSome = true) :
      Turned lib t job (some job.nextFile) [.error job.id (job.fileNum + 1) err]

section Turned

variable {lib : Library} {t : Tree} {job : TransferJob} (faults : Faults)

/-- A file that may be sent: a block is read, its end is reached, or reading fails. -/
theorem takeTurn_of_stream {e : FileEntry}
    (confirmed : job.enableOverwriteDetection = true → job.fileConfirmed = true)
    (listed : job.entry? job.fileNum = some e) (stream : job.stream = some s) :
    Turned lib t job (job.takeTurn lib t faults).1 (job.takeTurn lib t faults).2 := by
  have isListed : (job.entry? job.fileNum).isSome = true := by rw [listed]; rfl
  have goesOn : (job.enableOverwriteDetection && !job.fileConfirmed) = false := by
    cases detection : job.enableOverwriteDetection with
    | false => rfl
    | true => rw [confirmed detection]; rfl
  have failing (err : String) (refused : job.read lib t faults = (job.nextFile, .error err)) :
      Turned lib t job (job.takeTurn lib t faults).1 (job.takeTurn lib t faults).2 := by
    simp only [takeTurn, refused]
    exact .failed err confirmed isListed
  cases fault : faults.read with
  | some err => exact failing err (by simp [read, goesOn, listed, stream, fault])
  | none =>
      cases mode : s.mode with
      | write => exact failing _ (by simp [read, goesOn, listed, stream, fault, mode]; rfl)
      | read =>
          cases node : t.node s.place with
          | none => exact failing _ (by simp [read, goesOn, listed, stream, fault, mode, node]; rfl)
          | some n =>
              cases n with
              | dir =>
                  exact failing _ (by simp [read, goesOn, listed, stream, fault, mode, node]; rfl)
              | file content modified =>
                  by_cases whole : (content.drop s.pos).take bufSize = []
                  · simp only [takeTurn, read, goesOn, listed, stream, fault, mode, node,
                      Bool.false_eq_true, if_false, if_pos whole]
                    exact .last confirmed isListed stream mode node whole
                  · simp only [takeTurn, read, goesOn, listed, stream, fault, mode, node,
                      Bool.false_eq_true, if_false, if_neg whole]
                    rw [← mode]
                    exact .sent confirmed isListed stream mode node whole rfl

theorem takeTurn_cases :
    Turned lib t job (job.takeTurn lib t faults).1 (job.takeTurn lib t faults).2 := by
  cases unasked : job.enableOverwriteDetection && !job.fileConfirmed with
  | true =>
      obtain ⟨detection, unconfirmed⟩ := (Bool.and_eq_true _ _).mp unasked
      rw [Bool.not_eq_true'] at unconfirmed
      cases waiting : job.fileIsWaiting with
      | true =>
          simp only [takeTurn, read, jobCompleted, detection, unconfirmed, waiting, Bool.not_true,
            Bool.not_false, Bool.and_self, Bool.and_false, Bool.or_self, Bool.false_eq_true,
            if_true, if_false]
          exact .waits detection unconfirmed waiting
      | false =>
          simp only [takeTurn, read, jobCompleted, detection, unconfirmed, waiting, Bool.not_true,
            Bool.not_false, Bool.and_self, Bool.or_true, if_true]
          refine .ended (fun _ => ⟨unconfirmed, waiting⟩) (fun undetected => ?_)
          cases undetected.symm.trans detection
  | false =>
      have confirmed : job.enableOverwriteDetection = true → job.fileConfirmed = true := by
        intro detection
        rwa [detection, Bool.true_and, Bool.not_eq_false'] at unasked
      cases listed : job.entry? job.fileNum with
      | some e =>
          cases stream : job.stream with
          | some s => exact takeTurn_of_stream faults confirmed listed stream
          | none =>
              simp only [takeTurn, read, unasked, listed, stream, Bool.false_eq_true, if_false]
              exact .streamless confirmed stream (by rw [listed]; rfl)
      | none =>
          cases detection : job.enableOverwriteDetection with
          | true =>
              have turned : job.takeTurn lib t faults = (some { job with stream := none }, []) := by
                simp [takeTurn, read, listed, jobCompleted, detection, confirmed detection]
              rw [turned]
              exact .stalls detection (confirmed detection) listed
          | false =>
              have turned : job.takeTurn lib t faults = (none, [job.farewell]) := by
                simp only [takeTurn, read, listed, jobCompleted, detection]
                rfl
              rw [turned]
              refine .ended (fun asked => ?_) (fun _ => listed)
              cases asked.symm.trans detection

end Turned

section Undetected

variable {lib : Library} {t : Tree} {job : TransferJob} (faults : Faults)

theorem initJob_of_undetected (undetected : job.enableOverwriteDetection = false) :
    (job.initJob lib t faults).1.enableOverwriteDetection = false ∧
      ∀ d, .digest d ∉ (job.initJob lib t faults).2 := by
  generalize (job.initJob lib t faults).1 = begun, (job.initJob lib t faults).2 = msgs,
    @initJob_cases lib t job faults = cases_
  cases cases_ with
  | past | ready | opened => exact ⟨undetected, fun _ => List.not_mem_nil⟩
  | unopened err => exact ⟨undetected, by simp⟩
  | asked _ _ detection => cases undetected.symm.trans detection
  | undigested _ _ _ detection => cases undetected.symm.trans detection

theorem takeTurn_of_undetected (undetected : job.enableOverwriteDetection = false) :
    (∀ job', (job.takeTurn lib t faults).1 = some job' → job'.enableOverwriteDetection = false) ∧
      ∀ d, .digest d ∉ (job.takeTurn lib t faults).2 := by
  generalize (job.takeTurn lib t faults).1 = after, (job.takeTurn lib t faults).2 = msgs,
    @takeTurn_cases lib t job faults = cases_
  cases cases_ with
  | waits detection => cases undetected.symm.trans detection
  | stalls detection => cases undetected.symm.trans detection
  | ended =>
      refine ⟨?_, ?_⟩
      · intro job' gone
        cases gone
      · unfold farewell
        split <;> simp
  | streamless | sent | last | failed =>
      refine ⟨?_, by simp⟩
      rintro job' ⟨⟩
      exact undetected

/-- A job that does not ask never comes to do so. -/
theorem handleReadJob_of_undetected (turn : Bool) (undetected : job.enableOverwriteDetection = false) :
    (∀ job', (job.handleReadJob lib t faults turn).1 = some job' →
        job'.enableOverwriteDetection = false) ∧
      ∀ d, .digest d ∉ (job.handleReadJob lib t faults turn).2 := by
  obtain ⟨stays, unasked⟩ := @initJob_of_undetected lib t job faults undetected
  obtain ⟨stays', unasked'⟩ := @takeTurn_of_undetected lib t _ faults stays
  unfold handleReadJob
  split_ifs
  · refine ⟨?_, fun _ => List.not_mem_nil⟩
    rintro job' ⟨⟩
    exact undetected
  · refine ⟨stays', ?_⟩
    intro d member
    rcases List.mem_append.mp member with begun | sent
    · exact unasked d begun
    · exact unasked' d sent
  · refine ⟨?_, unasked⟩
    rintro job' ⟨⟩
    exact stays

end Undetected

/-- What a read job keeps of the job it started as. -/
structure Alike (start job : TransferJob) : Prop where
  id : job.id = start.id
  files : job.files = start.files
  detection : job.enableOverwriteDetection = start.enableOverwriteDetection
  active : job.isLastJob = false

section Confirm

variable {lib : Library} {t : Tree} {job : TransferJob} {r : SendConfirm}

theorem confirm_of_skip (same : job.fileNum = r.fileNum) (skip : r.union = some (.skip true)) :
    job.confirm lib t r = job.setFileSkipped := by
  simp [confirm, same, skip]

theorem setStreamOffset_shape {fileNum : Int} {offset : Nat} :
    ∃ stream transferred finishedSize, job.setStreamOffset lib t fileNum offset =
      { job with stream := stream, transferred := transferred, finishedSize := finishedSize } ∧
      (job.stream.isSome = true → stream.isSome = true) := by
  unfold setStreamOffset
  split
  · exact ⟨job.stream, job.transferred, job.finishedSize, rfl, fun isSome => isSome⟩
  · dsimp only
    split_ifs
    · exact ⟨_, _, _, rfl, fun _ => rfl⟩
    · exact ⟨job.stream, job.transferred, job.finishedSize, rfl, fun isSome => isSome⟩
    · exact ⟨_, _, _, rfl, fun _ => rfl⟩
    · exact ⟨job.stream, job.transferred, job.finishedSize, rfl, fun isSome => isSome⟩

/-- A confirmation that does not skip leaves the job at its file. -/
theorem confirm_stays (keeps : ¬ (job.fileNum = r.fileNum ∧ r.union = some (.skip true))) :
    ∃ stream transferred finishedSize confirmed skipped, job.confirm lib t r =
      { job with
        stream := stream, transferred := transferred, finishedSize := finishedSize
        fileConfirmed := confirmed, fileSkipped := skipped } ∧
      (job.stream.isSome = true → stream.isSome = true) ∧
      (∀ offset, job.fileNum = r.fileNum → r.union = some (.offsetBlk offset) →
        confirmed = true) := by
  unfold confirm
  split_ifs with other
  · exact ⟨_, _, _, _, _, rfl, fun stays => stays, fun _ same => absurd same other⟩
  · rw [not_not] at other
    match union : r.union with
    | some (.skip true) => exact absurd ⟨other, union⟩ keeps
    | some (.skip false) => exact ⟨_, _, _, _, _, rfl, fun stays => stays, fun _ _ => nofun⟩
    | none => exact ⟨_, _, _, _, _, rfl, fun stays => stays, fun _ _ => nofun⟩
    | some (.offsetBlk offset) =>
        dsimp only
        split_ifs
        · obtain ⟨stream, transferred, finishedSize, shape, stays⟩ :=
            @setStreamOffset_shape lib t (job.setFileConfirmed true) r.fileNum offset
          exact ⟨stream, transferred, finishedSize, true, false, shape, stays, fun _ _ _ => rfl⟩
        · exact ⟨_, _, _, _, _, rfl, fun stays => stays, fun _ _ _ => rfl⟩

/-- A job that is sent an offset goes on from there, or has opened a file for writing
    that it cannot read. -/
theorem confirm_stream {r : SendConfirm} {offset : Nat} {e : FileEntry}
    (current : job.fileNum = r.fileNum) (union : r.union = some (.offsetBlk offset))
    (stream : job.stream = some ⟨job.target lib e, 0, .read⟩)
    (listed : job.entry? job.fileNum = some e) (isFile : t.isFile (job.target lib e) = true)
    (clear : t.node (job.downloadPlace lib e) = some .dir → t.exists_ (job.digestPlace lib e) = false) :
    ∃ s transferred finishedSize, job.confirm lib t r =
      { job with
        stream := some s, transferred := transferred, finishedSize := finishedSize
        fileConfirmed := true, fileSkipped := false } ∧
      (s = ⟨job.target lib e, offset, .read⟩ ∨ s.mode = .write) := by
  unfold confirm
  rw [if_neg (not_not.mpr current), union]
  dsimp only
  split_ifs with positive
  · unfold setStreamOffset
    have listed' : entry? (job.setFileConfirmed true) r.fileNum = some e := current ▸ listed
    rw [listed']
    dsimp only
    split_ifs with both open_ target
    · exact ⟨_, _, _, rfl, .inr rfl⟩
    · obtain ⟨there, there'⟩ := Bool.and_eq_true_iff.mp both
      exact absurd
        (there'.symm.trans (clear (FileTree.dir_of_not_isFile there open_))) Bool.true_eq_false.mp
    · exact ⟨_, _, _, rfl, .inl rfl⟩
    · exact absurd isFile target
  · refine ⟨⟨job.target lib e, 0, .read⟩, job.transferred, job.finishedSize, ?_, .inl ?_⟩
    · rw [← stream]
      rfl
    · rw [Nat.eq_zero_of_not_pos positive]

end Confirm

/-! A job that asks is idle before it has asked about its file, then waits, and sends the
file once it is confirmed. -/

structure Idle (job : TransferJob) : Prop where
  confirmed : job.fileConfirmed = false
  waiting : job.fileIsWaiting = false

structure Waiting (job : TransferJob) : Prop where
  stream : job.stream.isSome = true
  confirmed : job.fileConfirmed = false
  waiting : job.fileIsWaiting = true
  listed : (job.entry? job.fileNum).isSome = true

structure Sending (job : TransferJob) : Prop where
  stream : job.stream.isSome = true
  confirmed : job.fileConfirmed = true
  listed : (job.entry? job.fileNum).isSome = true

/-- A read job that asks before it sends. -/
structure Reads (job : TransferJob) : Prop where
  detection : job.enableOverwriteDetection = true
  active : job.isLastJob = false
  phase : Idle job ∨ Waiting job ∨ Sending job

/-- What comes of a round: the job, unless it is finished, and what is sent. -/
inductive Rounded (job : TransferJob) : Option TransferJob → List Response → Prop where
  | rests (settled : Waiting job ∨ Sending job) : Rounded job (some job) []
  | asks {job' : TransferJob} {d : FileTransferDigest} (idle : Idle job) (alike : Alike job job')
      (waiting : Waiting job') (same : job'.fileNum = job.fileNum) (id : d.id = job.id)
      (about : d.fileNum = job.fileNum) : Rounded job (some job') [.digest d]
  | sends {job' : TransferJob} {b : FileTransferBlock} (sending : Sending job)
      (alike : Alike job job') (still : Sending job') (same : job'.fileNum = job.fileNum)
      (about : b.fileNum = job.fileNum) : Rounded job (some job') [.block b]
  | finishes {b : FileTransferBlock} (sending : Sending job) (about : b.fileNum = job.fileNum) :
      Rounded job (some job.nextFile) [.block b]
  | idles {job' : TransferJob} {msgs : List Response} (decided : ¬ Waiting job)
      (alike : Alike job job') (idle : Idle job') (forth : job.fileNum ≤ job'.fileNum)
      (stays : job'.fileNum = job.fileNum → Idle job) (errors : ∀ r ∈ msgs, r.isError = true) :
      Rounded job (some job') msgs
  | ends {msgs : List Response} (decided : ¬ Waiting job)
      (final : ∀ r ∈ msgs, r.isError = true ∨ r.isDone = true) : Rounded job none msgs

variable {lib : Library} {t : Tree} {job : TransferJob} (faults : Faults) {r : SendConfirm}

theorem Idle.not_waiting (idle : Idle job) : ¬ Waiting job := by
  intro waiting
  cases idle.waiting.symm.trans waiting.waiting

theorem Sending.not_waiting (sending : Sending job) : ¬ Waiting job := by
  intro waiting
  cases sending.confirmed.symm.trans waiting.confirmed

/-- Nothing is begun while the file waits or is sent. -/
theorem initJob_of_settled (stream : job.stream.isSome = true)
    (listed : (job.entry? job.fileNum).isSome = true)
    (settled : job.fileConfirmed = true ∨ job.fileIsWaiting = true) :
    job.initJob lib t faults = (job, []) := by
  obtain ⟨e, entry⟩ := Option.isSome_iff_exists.mp listed
  rcases settled with confirmed | waiting
  · simp [initJob, initDataStream, openDataStream, entry, stream, confirmed]
  · simp [initJob, initDataStream, openDataStream, entry, stream, waiting]

theorem takeTurn_of_waiting (detection : job.enableOverwriteDetection = true)
    (waiting : Waiting job) : job.takeTurn lib t faults = (some job, []) := by
  simp [takeTurn, read, jobCompleted, detection, waiting.confirmed, waiting.waiting]

theorem takeTurn_of_idle (detection : job.enableOverwriteDetection = true) (idle : Idle job) :
    job.takeTurn lib t faults = (none, [job.farewell]) := by
  simp [takeTurn, read, jobCompleted, detection, idle.confirmed, idle.waiting]

theorem farewell_cases :
    job.farewell = .done job.id job.fileNum ∨
      ∃ err, job.farewell = .error job.id job.fileNum err := by
  unfold farewell
  split
  · exact .inr ⟨_, rfl⟩
  · exact .inl rfl

theorem farewell_isFinal : job.farewell.isError = true ∨ job.farewell.isDone = true := by
  rcases @farewell_cases job with done | ⟨err, error⟩
  · exact .inr (done ▸ rfl)
  · exact .inl (error ▸ rfl)

/-- A job that waits sends its file once it is told from where. -/
theorem confirm_of_offset {offset : Nat} (reads : Reads job) (waiting : Waiting job)
    (same : job.fileNum = r.fileNum) (union : r.union = some (.offsetBlk offset)) :
    Reads (job.confirm lib t r) ∧ Sending (job.confirm lib t r) ∧
      (job.confirm lib t r).fileNum = job.fileNum ∧ (job.confirm lib t r).id = job.id := by
  have keeps : ¬ (job.fileNum = r.fileNum ∧ r.union = some (.skip true)) := by
    rintro ⟨-, skip⟩
    cases union.symm.trans skip
  obtain ⟨stream, transferred, finishedSize, confirmed, skipped, shape, stays, confirms⟩ :=
    @confirm_stays lib t job r keeps
  obtain rfl := confirms offset same union
  rw [shape]
  have sending : Sending { job with
      stream := stream, transferred := transferred, finishedSize := finishedSize
      fileConfirmed := true, fileSkipped := skipped } :=
    ⟨stays waiting.stream, rfl, waiting.listed⟩
  exact ⟨⟨reads.detection, reads.active, .inr (.inr sending)⟩, sending, rfl, rfl⟩

theorem confirm_skips (reads : Reads job) (same : job.fileNum = r.fileNum)
    (skip : r.union = some (.skip true)) :
    Reads (job.confirm lib t r) ∧ (job.confirm lib t r).fileNum = job.fileNum + 1 ∧
      (job.confirm lib t r).id = job.id := by
  rw [confirm_of_skip same skip]
  exact ⟨⟨reads.detection, reads.active, .inl ⟨rfl, rfl⟩⟩, rfl, rfl⟩

/-- The turn of a job whose file is confirmed. -/
theorem takeTurn_of_sending (reads : Reads job) (sending : Sending job) :
    Rounded job (job.takeTurn lib t faults).1 (job.takeTurn lib t faults).2 := by
  obtain ⟨detection, active, -⟩ := reads
  have alike : Alike job job := ⟨rfl, rfl, rfl, active⟩
  generalize (job.takeTurn lib t faults).1 = after, (job.takeTurn lib t faults).2 = msgs,
    @takeTurn_cases lib t job faults = cases_
  cases cases_ with
  | waits _ unconfirmed => cases unconfirmed.symm.trans sending.confirmed
  | stalls _ _ unlisted =>
      have listed := sending.listed
      rw [unlisted] at listed
      cases listed
  | ended idle => cases (idle detection).1.symm.trans sending.confirmed
  | streamless _ closed =>
      have stream := sending.stream
      rw [closed] at stream
      cases stream
  | sent =>
      exact .sends sending ⟨rfl, rfl, rfl, active⟩ ⟨rfl, sending.confirmed, sending.listed⟩ rfl rfl
  | last => exact .finishes sending rfl
  | failed err =>
      have next : job.nextFile.fileNum = job.fileNum + 1 := rfl
      exact .idles sending.not_waiting ⟨rfl, rfl, rfl, active⟩ ⟨rfl, rfl⟩ (by omega)
        (fun same => by omega) (by simp [Response.isError])

/-- The beginning of a file that was not asked about yet. -/
theorem initJob_of_idle (reads : Reads job) (idle : Idle job) :
    Rounded job (some (job.initJob lib t faults).1) (job.initJob lib t faults).2 := by
  obtain ⟨detection, active, -⟩ := reads
  generalize (job.initJob lib t faults).1 = begun, (job.initJob lib t faults).2 = msgs,
    @initJob_cases lib t job faults = cases_
  cases cases_ with
  | past =>
      exact .idles idle.not_waiting ⟨rfl, rfl, rfl, active⟩ ⟨idle.confirmed, idle.waiting⟩ le_rfl
        (fun _ => idle) (List.forall_mem_nil _)
  | ready _ _ _ settled =>
      rcases settled detection with confirmed | waiting
      · cases idle.confirmed.symm.trans confirmed
      · cases idle.waiting.symm.trans waiting
  | opened _ _ undetected => cases undetected.symm.trans detection
  | asked listed =>
      exact .asks idle ⟨rfl, rfl, rfl, active⟩ ⟨rfl, rfl, rfl, listed⟩ rfl rfl rfl
  | unopened err =>
      exact .idles idle.not_waiting ⟨rfl, rfl, rfl, active⟩ ⟨rfl, rfl⟩ (Int.le_add_one le_rfl)
        (fun _ => idle) (by simp [Response.isError])
  | undigested err =>
      exact .idles idle.not_waiting ⟨rfl, rfl, rfl, active⟩ ⟨rfl, rfl⟩ le_rfl
        (fun _ => idle) (by simp [Response.isError])

theorem handleReadJob_of_active (turn : Bool) (active : job.isLastJob = false) :
    job.handleReadJob lib t faults turn =
      if turn then
        (((job.initJob lib t faults).1.takeTurn lib t faults).1,
          (job.initJob lib t faults).2 ++ ((job.initJob lib t faults).1.takeTurn lib t faults).2)
      else (some (job.initJob lib t faults).1, (job.initJob lib t faults).2) := by
  unfold handleReadJob
  rw [if_neg (by rw [active]; exact Bool.false_ne_true)]

theorem handleReadJob_of_waiting (turn : Bool) (active : job.isLastJob = false)
    (detection : job.enableOverwriteDetection = true) (waiting : Waiting job) :
    job.handleReadJob lib t faults turn = (some job, []) := by
  rw [handleReadJob_of_active faults turn active,
    initJob_of_settled faults waiting.stream waiting.listed (.inr waiting.waiting),
    takeTurn_of_waiting faults detection waiting, List.nil_append, ite_self]

theorem handleReadJob_of_sending (turn : Bool) (active : job.isLastJob = false)
    (sending : Sending job) :
    job.handleReadJob lib t faults turn =
      if turn then job.takeTurn lib t faults else (some job, []) := by
  rw [handleReadJob_of_active faults turn active,
    initJob_of_settled faults sending.stream sending.listed (.inl sending.confirmed)]
  rfl

theorem handleReadJob_cases (turn : Bool) (reads : Reads job) :
    Rounded job (job.handleReadJob lib t faults turn).1 (job.handleReadJob lib t faults turn).2 := by
  have detection := reads.detection
  rcases reads.phase with idle | waiting | sending
  · have begun := @initJob_of_idle lib t job faults reads idle
    rw [handleReadJob_of_active faults turn reads.active]
    generalize job.initJob lib t faults = after at begun ⊢
    obtain ⟨job', msgs⟩ := after
    cases turn with
    | false => exact begun
    | true =>
        dsimp only at begun ⊢
        cases begun with
        | rests settled =>
            rcases settled with waiting | sending
            · exact absurd waiting idle.not_waiting
            · cases idle.confirmed.symm.trans sending.confirmed
        | asks _ alike waiting same id about =>
            rw [if_pos rfl, takeTurn_of_waiting faults (alike.detection.trans detection) waiting]
            exact .asks idle alike waiting same id about
        | sends sending => cases idle.confirmed.symm.trans sending.confirmed
        | finishes sending => cases idle.confirmed.symm.trans sending.confirmed
        | idles decided alike idle' _ _ errors =>
            rw [if_pos rfl, takeTurn_of_idle faults (alike.detection.trans detection) idle']
            refine .ends decided ?_
            intro r member
            rcases List.mem_append.mp member with error | last
            · exact .inl (errors r error)
            · rw [List.mem_singleton.mp last]
              exact farewell_isFinal
  · rw [handleReadJob_of_waiting faults turn reads.active detection waiting]
    exact .rests (.inl waiting)
  · rw [handleReadJob_of_sending faults turn reads.active sending]
    cases turn with
    | false => exact .rests (.inr sending)
    | true => exact takeTurn_of_sending faults reads sending

end TransferJob

end RemoteControl.Transfer
