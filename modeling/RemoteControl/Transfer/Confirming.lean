import RemoteControl.Transfer.Sources

/-! # Confirming a file

A peer confirms a file by its number, and may ask for the bytes from some offset on.
`set_stream_offset` then takes the entry with that number out of the list of files, and the only
check before it is that the number is the one where the job stands.
-/

namespace RemoteControl.Transfer.Sources

open Host (Bytes SendConfirm JobType)
open Runs (exec Along)

inductive Event where
  | init (faults : Job.OpenFaults)
  | read (chunks : List (Except String Bytes))
  | write (block : FileTransferBlock) (faults : Job.WriteFaults)
  | confirm (r : SendConfirm) (sought : Bool)
  /-- `set_file_skipped` -/
  | skip

/-- The compression that the job uses. -/
structure Codec where
  compress : Bytes → Bytes
  decompress : Bytes → Bytes

namespace Job

/-- After a panic the job stays as it is. -/
def step (codec : Codec) (job : Job) : Event → Job
  | .init faults => (job.initDataStream faults).1
  | .read chunks => (job.read codec.compress chunks).1
  | .write block faults => (job.write codec.decompress block faults).1
  | .confirm r sought => (job.confirm r sought).getD job
  | .skip => job.setFileSkipped

/-- A job as `new_read` or `new_write` makes it. -/
inductive New : Job → Prop where
  | read (id : Int) (jobType : JobType) (dataSource : DataSource) (fileNum : Int)
    (listed : List FileEntry)
      (detection : Bool) : New (newRead id jobType dataSource fileNum listed detection)
  | write (id : Int) (jobType : JobType) (dataSource : DataSource) (fileNum : Int)
    (files : List FileEntry)
      (detection : Bool) : New (newWrite id jobType dataSource fileNum files detection)

/-- The step is no panic of `confirm`. -/
def InBounds (job : Job) : Event → Prop
  | .confirm r sought => job.confirm r sought ≠ none
  | _ => True

instance (job : Job) (e : Event) : Decidable (job.InBounds e) := by
  cases e <;> unfold InBounds <;> infer_instance

/-- The request is for the number where the job stands, from some byte on. -/
def Seeks (job : Job) (r : SendConfirm) : Prop :=
  r.fileNum = job.fileNum ∧ ∃ offset > 0, r.union = some (.offsetBlk offset)

/-- A job after the last of its files is not asked for more of the file where it stands. -/
def SeeksOnlyFiles (job : Job) : Event → Prop
  | .confirm r _ => job.pastEnd = true → ¬job.Seeks r
  | _ => True

theorem confirm_eq_none_iff {job : Job} {r : SendConfirm} {sought : Bool} :
    job.confirm r sought = none ↔ job.pastEnd = true ∧ job.Seeks r := by
  unfold confirm Seeks
  by_cases own : job.fileNum ≠ r.fileNum
  · rw [if_pos own]
    exact iff_of_false nofun fun seeks => own seeks.2.1.symm
  · rw [if_neg own]
    have same : r.fileNum = job.fileNum := (not_not.mp own).symm
    cases asked : r.union with
    | none => exact iff_of_false nofun fun ⟨_, _, _, _, asked'⟩ => nomatch asked'
    | some union =>
        cases union with
        | skip s => exact iff_of_false nofun fun ⟨_, _, _, _, asked'⟩ => nomatch asked'
        | offsetBlk offset =>
            dsimp only
            by_cases some_bytes : offset > 0
            · rw [if_pos some_bytes, same]
              unfold setStreamOffset pastEnd setFileConfirmed
              cases job.dataSource with
              | memoryCursor => exact iff_of_false nofun fun past => nomatch past.1
              | filePath fileName =>
                  dsimp only
                  by_cases there : job.files.length ≤ usize job.fileNum
                  · rw [List.getElem?_eq_none there]
                    exact iff_of_true rfl ⟨decide_eq_true there, rfl, offset, some_bytes, rfl⟩
                  · rw [List.getElem?_eq_getElem (Nat.not_le.mp there)]
                    refine iff_of_false ?_ fun past => there (of_decide_eq_true past.1)
                    dsimp only
                    split <;> nofun
            · rw [if_neg some_bytes]
              refine iff_of_false nofun fun ⟨_, _, offset', positive, asked'⟩ => some_bytes ?_
              cases asked'
              exact positive

theorem inBounds_iff (job : Job) (e : Event) : job.InBounds e ↔ job.SeeksOnlyFiles e := by
  cases e with
  | confirm r sought => exact (not_congr confirm_eq_none_iff).trans not_and
  | _ => exact Iff.rfl

/-! ## Runs -/

theorem along_inBounds_iff (codec : Codec) (job : Job) (events : List Event) :
    Along (step codec) InBounds job events ↔ Along (step codec) SeeksOnlyFiles job events :=
  Runs.along_congr_of_events (fun _ _ (_ : True) (_ : True) => trivial)
    (fun job e (_ : True) (_ : True) => inBounds_iff job e) (fun _ _ => trivial) trivial

/-- From `new_read` or `new_write` on, whatever is read, written, confirmed, opened and skipped:
    no confirmation reaches out of the list of files exactly when no peer asks for more of a
    file where the job stands past the last one. -/
theorem confirms_in_bounds_iff (codec : Codec) (id : Int) (jobType : JobType)
    (dataSource : DataSource) (fileNum : Int)
    (files : List FileEntry) (detection : Bool) (events : List Event) :
    (Along (step codec) InBounds (newRead id jobType dataSource fileNum files detection) events ↔
        Along (step codec) SeeksOnlyFiles
          (newRead id jobType dataSource fileNum files detection) events) ∧
      (Along (step codec) InBounds (newWrite id jobType dataSource fileNum files detection) events ↔
        Along (step codec) SeeksOnlyFiles
          (newWrite id jobType dataSource fileNum files detection) events) :=
  ⟨along_inBounds_iff codec _ events, along_inBounds_iff codec _ events⟩

/-- A folder without files, and the peer asks for its first file from the second byte on. -/
theorem empty_folder_out_of_bounds :
    ¬∀ (codec : Codec) (id : Int) (jobType : JobType) (dataSource : DataSource) (fileNum : Int)
      (files : List FileEntry) (detection : Bool) (events : List Event),
      Along (step codec) InBounds (newRead id jobType dataSource fileNum files detection) events ∧
        Along (step codec) InBounds
          (newWrite id jobType dataSource fileNum files detection) events := by
  intro claimed
  have inBounds := (claimed ⟨fun data => data, fun data => data⟩ 1 .generic (.filePath []) 0 [] true
    [.confirm ⟨1, 0, some (.offsetBlk 1)⟩ true]).1.1
  exact inBounds (by decide)

theorem next_of_lt {n : Nat} (small : n + 1 < 2 ^ 31) : next n = ((n + 1 : Nat) : Int) := by
  unfold next
  rw [Int.bmod_eq_of_le] <;> omega

/-- The number after some skips. -/
theorem fileNum_skips (codec : Codec) {job : Job} {start : Nat} (stands : job.fileNum = start)
    (count : Nat) (small : start + count < 2 ^ 31) :
    (exec (step codec) job (List.replicate count .skip)).fileNum = ((start + count : Nat) : Int) := by
  induction count generalizing job start with
  | zero => exact stands
  | succ count ih =>
      have moved : (job.step codec .skip).fileNum = ((start + 1 : Nat) : Int) := by
        show next job.fileNum = _
        rw [stands, next_of_lt (by omega)]
      rw [List.replicate_succ, Runs.exec_cons, ih moved (by omega)]
      congr 1
      omega

/-- Skipping leaves the files and the source. -/
theorem kept_skips (codec : Codec) (job : Job) (count : Nat) :
    (exec (step codec) job (List.replicate count .skip)).files = job.files ∧
      (exec (step codec) job (List.replicate count .skip)).dataSource = job.dataSource := by
  induction count generalizing job with
  | zero => exact ⟨rfl, rfl⟩
  | succ count ih => exact ih (job.step codec .skip)

/-- No list of files is safe: once the peer has skipped all of them, it can ask for one more. -/
theorem every_folder_out_of_bounds (codec : Codec) (id : Int) (jobType : JobType) (fileName : Text)
    (files : List FileEntry) (detection : Bool) (few : files.length < 2 ^ 31) :
    ¬Along (step codec) InBounds (newWrite id jobType (.filePath fileName) 0 files detection)
      (List.replicate files.length .skip ++ [.confirm ⟨id, files.length,
        some (.offsetBlk 1)⟩ true]) := by
  intro along
  have last := (Runs.along_append.mp along).2.1
  have stands :=
    @fileNum_skips codec
    (newWrite id jobType (.filePath fileName) 0 files detection) 0 rfl files.length
    (by omega)
  rw [Nat.zero_add] at stands
  have kept :=
    kept_skips codec (newWrite id jobType (.filePath fileName) 0 files detection) files.length
  refine (inBounds_iff _ _).mp last ?_ ⟨stands.symm, 1, by decide, rfl⟩
  unfold pastEnd
  rw [kept.2, kept.1, stands]
  refine decide_eq_true ?_
  show files.length ≤ usize files.length
  unfold usize
  omega

end Job

end RemoteControl.Transfer.Sources
