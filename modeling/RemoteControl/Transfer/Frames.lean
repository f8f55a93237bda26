import RemoteControl.Transfer.Job

/-! # What a job touches

Each function of a write job touches the files of the entry it is about: the target,
its `.download` and its `.digest`, and the directories above them as far as they are
missing. The lemmas leave open which places count as `ok`, so that one and the same
argument confines a job to a folder and keeps it away from a single file.
-/

namespace RemoteControl.Transfer.TransferJob

open FileTree (Within)

variable {lib : Library} {ok moved : Place → Prop} {job : TransferJob} {t : Tree}

/-- The files of an entry may be touched, and a directory in the place of its download
    may be moved. -/
structure Own (lib : Library) (ok moved : Place → Prop) (t : Tree) (job : TransferJob)
    (e : FileEntry) : Prop where
  target : ok (job.target lib e)
  download : ok (job.downloadPlace lib e)
  digest : ok (job.digestPlace lib e)
  whole : t.node (job.downloadPlace lib e) = some .dir →
    moved (job.downloadPlace lib e) ∧ moved (job.target lib e)

/-- The directories above an entry may be made, or something is there and stays. -/
def Roomy (lib : Library) (ok moved : Place → Prop) (t : Tree) (job : TransferJob)
    (e : FileEntry) : Prop :=
  ∀ p ∈ parents lib.windows (job.filePath lib e),
    ok p ∨ (t.node p).isSome = true ∧ ∀ a, a <+: p → ¬ moved a

/-- The open file may be touched. -/
def StreamIn (ok : Place → Prop) (job : TransferJob) : Prop := ∀ s, job.stream = some s → ok s.place

variable {now : Nat} {b : FileTransferBlock} {e : FileEntry} {job' : TransferJob} {fileNum : Int}
  {r : Host.SendConfirm}

theorem Roomy.dirs {t' : Tree} (roomy : Roomy lib ok moved t job e)
    (within : Within ok moved t t') :
    ∀ p ∈ parents lib.windows (job.filePath lib e), ok p ∨ (t'.node p).isSome = true := by
  intro p member
  by_cases inside : ok p
  · exact .inl inside
  · obtain ⟨present, still⟩ := (roomy p member).resolve_left inside
    rw [within.node p inside still]
    exact .inr present

theorem mem_of_entry (listed : job.entry? fileNum = some e) : e ∈ job.files := by
  unfold entry? at listed
  split_ifs at listed
  exact List.mem_of_getElem? listed

theorem node_of_removeFile_getD {p q : Place} {n : Node}
    (here : ((t.removeFile p).getD t).node q = some n) : t.node q = some n := by
  unfold FileTree.removeFile at here
  split at here
  · by_cases same : q = p
    · simp only [Option.getD_some, same, FileTree.put_node_self] at here
      cases here
    · rwa [Option.getD_some, FileTree.put_node_of_ne t _ same] at here
  · exact here

theorem modifyTime_within
    (own : ∀ e, job.entry? job.fileNum = some e → Own lib ok moved t job e) :
    Within ok moved t (job.modifyTime lib t).2 := by
  unfold modifyTime
  cases current : job.entry? job.fileNum with
  | none => exact .refl
  | some e =>
      have own := own e current
      have removed : Within ok moved t ((t.removeFile (job.digestPlace lib e)).getD t) :=
        .removeFile_getD own.digest
      dsimp only
      split
      · rename_i t₁ renamed
        have moves : Within ok moved _ t₁ := .rename own.download own.target
          (fun isDir => own.whole (node_of_removeFile_getD isDir)) renamed
        exact removed.trans (moves.trans (.setModified _ own.target))
      · exact removed.trans (.setModified _ own.target)

theorem modifyTime_streamIn
    (own : ∀ e, job.entry? job.fileNum = some e → ok (job.target lib e))
    (stream : StreamIn ok job) : StreamIn ok (job.modifyTime lib t).1 := by
  unfold modifyTime
  cases current : job.entry? job.fileNum with
  | none => exact stream
  | some e =>
      dsimp only
      split
      · intro s open_
        obtain ⟨s', open', rfl⟩ := Option.map_eq_some_iff.mp open_
        unfold renamed
        split_ifs
        · exact own e current
        · exact stream s' open'
      · exact stream

/-- Only the stream of a job follows the file. -/
theorem modifyTime_job : ∃ stream, (job.modifyTime lib t).1 = { job with stream := stream } := by
  unfold modifyTime
  cases job.entry? job.fileNum with
  | none => exact ⟨job.stream, rfl⟩
  | some e =>
      dsimp only
      split
      · exact ⟨_, rfl⟩
      · exact ⟨job.stream, rfl⟩

theorem removeDownloadFile_within
    (own : ∀ e, job.entry? job.fileNum = some e →
      ok (job.downloadPlace lib e) ∧ ok (job.digestPlace lib e)) :
    Within ok moved t (job.removeDownloadFile lib t) := by
  unfold removeDownloadFile
  cases current : job.entry? job.fileNum with
  | none => exact .refl
  | some e => exact .trans (.removeFile_getD (own e current).1) (.removeFile_getD (own e current).2)

theorem startFile_within (download : ok (job.downloadPlace lib e))
    (digest : ok (job.digestPlace lib e))
    (dirs : ∀ p ∈ parents lib.windows (job.filePath lib e), ok p ∨ (t.node p).isSome = true)
    (stream : StreamIn ok job) :
    Within ok moved t (job.startFile lib now e t).2.1 ∧
      StreamIn ok (job.startFile lib now e t).1 := by
  unfold startFile
  have made : Within ok moved t (t.createDirAll (parents lib.windows (job.filePath lib e))) :=
    .createDirAll dirs
  extract_lets t₁
  split
  · exact ⟨made, stream⟩
  · rename_i t₂ cleared
    have cleared := made.trans (.clear digest cleared)
    split
    · exact ⟨cleared, stream⟩
    · rename_i t₃ created
      refine ⟨cleared.trans (.trans (.create download created) (.writeFile _ _ digest)), ?_⟩
      rintro s ⟨⟩
      exact download

theorem beginFile_within (own : ∀ e, job.entry? job.fileNum = some e → Own lib ok moved t job e)
    (download : ok (job.downloadPlace lib e)) (digest : ok (job.digestPlace lib e))
    (roomy : Roomy lib ok moved t job e) (stream : StreamIn ok job) :
    Within ok moved t (job.beginFile lib now fileNum e t).2.1 ∧
      StreamIn ok (job.beginFile lib now fileNum e t).1 := by
  have within : Within ok moved t (job.modifyTime lib t).2 := modifyTime_within own
  have streamIn : StreamIn ok (job.modifyTime lib t).1 :=
    modifyTime_streamIn (fun e current => (own e current).target) stream
  obtain ⟨stream', shape⟩ := @modifyTime_job lib job t
  unfold beginFile
  generalize job.modifyTime lib t = finished at within streamIn shape
  obtain ⟨job₁, t₁⟩ := finished
  obtain rfl : job₁ = { job with stream := stream' } := shape
  let job₂ : TransferJob := { job with stream := stream', fileNum := fileNum }
  have started : Within ok moved t₁ (job₂.startFile lib now e t₁).2.1 ∧
      StreamIn ok (job₂.startFile lib now e t₁).1 :=
    startFile_within download digest (roomy.dirs within) streamIn
  exact ⟨within.trans started.1, started.2⟩

theorem writeData_within (stream : StreamIn ok job) :
    Within ok moved t (job.writeData lib now b t).2.1 := by
  unfold writeData
  split
  · rename_i place pos open_
    exact .writeAt _ _ _ (stream ⟨place, pos, .write⟩ open_)
  · exact .refl
  · exact .refl

theorem writeData_streamIn (stream : StreamIn ok job) :
    StreamIn ok (job.writeData lib now b t).1 := by
  unfold writeData
  split
  · rename_i place pos open_
    rintro s ⟨⟩
    exact stream ⟨place, pos, .write⟩ open_
  · exact stream
  · exact stream

/-- A block touches the files of its own entry and, if it begins that file, those of
    the file before. -/
theorem write_within (own : ∀ e, job.entry? job.fileNum = some e → Own lib ok moved t job e)
    (next : ∀ e, job.entry? b.fileNum = some e → ok (job.downloadPlace lib e) ∧
      ok (job.digestPlace lib e) ∧ Roomy lib ok moved t job e) (stream : StreamIn ok job) :
    Within ok moved t (job.write lib now b t).2.1 ∧ StreamIn ok (job.write lib now b t).1 := by
  unfold write
  by_cases wrongId : b.id ≠ job.id
  · rw [if_pos wrongId]
    exact ⟨.refl, stream⟩
  · rw [if_neg wrongId]
    cases listed : job.entry? b.fileNum with
    | none => exact ⟨.refl, stream⟩
    | some e =>
        obtain ⟨download, digest, roomy⟩ := next e listed
        dsimp only
        split_ifs
        · have begun := @beginFile_within lib ok moved job t now e b.fileNum own download digest
            roomy stream
          split
          · rename_i same
            rwa [same] at begun
          · rename_i same
            rw [same] at begun
            obtain ⟨within, streamIn⟩ := begun
            exact ⟨within.trans (writeData_within streamIn), writeData_streamIn streamIn⟩
        · exact ⟨writeData_within stream, writeData_streamIn stream⟩

/-- What no operation of a job changes but a new list of files. -/
def Same (job job' : TransferJob) : Prop :=
  job'.id = job.id ∧ job'.path = job.path ∧ job'.files = job.files ∧ job'.isResume = job.isResume ∧
    job'.enableOverwriteDetection = job.enableOverwriteDetection

theorem Same.trans {job'' : TransferJob} (first : Same job job') (second : Same job' job'') :
    Same job job'' := by
  obtain ⟨id, path, files, resume, detection⟩ := first
  obtain ⟨id', path', files', resume', detection'⟩ := second
  exact ⟨id'.trans id, path'.trans path, files'.trans files, resume'.trans resume,
    detection'.trans detection⟩

theorem Same.refl : Same job job := ⟨rfl, rfl, rfl, rfl, rfl⟩

theorem Same.entry (same : Same job job') (k : Int) : job'.entry? k = job.entry? k := by
  unfold TransferJob.entry?
  rw [same.2.2.1]

theorem Same.filePath (same : Same job job') (e : FileEntry) :
    job'.filePath lib e = job.filePath lib e := by
  simp only [TransferJob.filePath, same.2.1]

theorem modifyTime_same : Same job (job.modifyTime lib t).1 := by
  obtain ⟨stream, shape⟩ := @modifyTime_job lib job t
  rw [shape]
  exact .refl

theorem startFile_same : Same job (job.startFile lib now e t).1 := by
  unfold startFile
  dsimp only
  split
  · exact .refl
  · split <;> exact .refl

theorem writeData_same : Same job (job.writeData lib now b t).1 := by
  unfold writeData
  split <;> exact .refl

theorem write_same : Same job (job.write lib now b t).1 := by
  have begun (e : FileEntry) : Same job (job.beginFile lib now b.fileNum e t).1 :=
    (@modifyTime_same lib job t).trans startFile_same
  unfold write
  split_ifs
  · exact .refl
  · split
    · exact .refl
    · split
      · rename_i e _ _ _ _ _ same
        have begun := begun e
        rwa [same] at begun
      · rename_i e _ _ _ _ same
        have begun := begun e
        rw [same] at begun
        exact begun.trans writeData_same
  · split
    · exact .refl
    · exact writeData_same

theorem confirm_same : Same job (job.confirm lib t r) := by
  unfold confirm
  split_ifs
  · exact .refl
  · split
    · split_ifs <;> exact .refl
    · dsimp only
      split_ifs
      · unfold setStreamOffset
        split
        · exact .refl
        · dsimp only
          split_ifs <;> exact .refl
      · exact .refl
    · exact .refl

/-- A confirmation with an offset opens a file of the entry it is about. -/
theorem confirm_streamIn
    (own : ∀ e offset, job.entry? r.fileNum = some e → r.union = some (.offsetBlk offset) →
      ok (job.target lib e) ∧ ok (job.downloadPlace lib e)) (stream : StreamIn ok job) :
    StreamIn ok (job.confirm lib t r) := by
  unfold confirm
  split_ifs
  · exact stream
  · split
    · split_ifs
      · rintro s ⟨⟩
      · exact stream
    · rename_i offset union
      dsimp only
      split_ifs
      · unfold setStreamOffset
        split
        · exact stream
        · rename_i e listed
          dsimp only
          split_ifs
          · rintro s ⟨⟩
            exact (own e offset listed union).2
          · exact stream
          · rintro s ⟨⟩
            exact (own e offset listed union).1
          · exact stream
      · exact stream
    · exact stream

end RemoteControl.Transfer.TransferJob
