import RemoteControl.Transfer.Reading

/-! # Files that are received

Where `Frames` says what a write job may touch, here is what it makes: in a folder in
which the files of the list can be written and do not get in each other's way, a file
is opened, written and given its name without an error. The client drops such errors,
so that nothing less would do.
-/

namespace RemoteControl.Transfer

namespace TransferJob

section Layout

variable (lib : Library) (job : TransferJob)

/-- The places of an entry. -/
def places (e : FileEntry) : List Place :=
  [job.target lib e, job.downloadPlace lib e, job.digestPlace lib e]

/-- The paths of the files do not get in each other's way. -/
structure Laid : Prop where
  beside : ∀ e ∈ job.files, ∃ d ∈ parents lib.windows (job.filePath lib e),
    ∀ a ∈ job.places lib e, a.dropLast = d
  below : ∀ e ∈ job.files, ∀ e' ∈ job.files, ∀ a ∈ job.places lib e,
    a ∉ parents lib.windows (job.filePath lib e')
  apart : ∀ j k e e', j ≠ k → job.entry? j = some e → job.entry? k = some e' →
    ∀ a ∈ job.places lib e, a ∉ job.places lib e'

/-- The files can be written: no directory is in their place and no file above them. -/
structure Usable (t : Tree) : Prop where
  free : ∀ e ∈ job.files, ∀ a ∈ job.places lib e, t.node a ≠ some .dir
  above : ∀ e ∈ job.files, ∀ q ∈ parents lib.windows (job.filePath lib e),
    ∀ content modified, t.node q ≠ some (.file content modified)
  inside : ∀ e ∈ job.files, ∀ a ∈ job.places lib e, t.node a ≠ none →
    t.node a.dropLast = some .dir

/-- Only the files of an entry change, and directories above it are made. -/
structure Changes (e : FileEntry) (t t' : Tree) : Prop where
  dirs : ∀ q, t.node q = some .dir → t'.node q = some .dir
  same : ∀ q, q ∉ job.places lib e → t'.node q = t.node q ∨
    q ∈ parents lib.windows (job.filePath lib e) ∧ t'.node q = some .dir

end Layout

variable {lib : Library} {job : TransferJob} {e : FileEntry} {t t' t₁ : Tree}

namespace Changes

theorem refl : Changes lib job e t t := ⟨fun _ isDir => isDir, fun _ _ => .inl rfl⟩

theorem trans (first : Changes lib job e t t₁) (second : Changes lib job e t₁ t') :
    Changes lib job e t t' where
  dirs := fun q isDir => second.dirs q (first.dirs q isDir)
  same := by
    intro q outside
    rcases first.same q outside with same | ⟨above, isDir⟩
    · rcases second.same q outside with same' | made
      · exact .inl (same'.trans same)
      · exact .inr made
    · exact .inr ⟨above, second.dirs q isDir⟩

variable {a : Place}

/-- A file of the entry is written or removed. -/
theorem put {n : Option Node} (place : a ∈ job.places lib e)
    (free : t.node a ≠ some .dir) : Changes lib job e t (t.put a n) where
  dirs := by
    intro q isDir
    have different : q ≠ a := by
      rintro rfl
      exact free isDir
    rw [FileTree.put_node_of_ne t n different, isDir]
  same := fun q outside => .inl (FileTree.put_node_of_ne t n fun same => outside (same ▸ place))

variable {k : Int}

/-- The files of the others stay. -/
theorem other {j : Int} {e' : FileEntry} (changes : Changes lib job e t t')
    (laid : Laid lib job) (different : k ≠ j) (listed : job.entry? j = some e)
    (listed' : job.entry? k = some e') (place : a ∈ job.places lib e') : t'.node a = t.node a := by
  rcases changes.same a (laid.apart k j e' e different listed' listed a place) with same | ⟨above, -⟩
  · exact same
  · exact absurd above (laid.below e' (mem_of_entry listed') e (mem_of_entry listed) a place)

end Changes

namespace Usable

theorem of_changes (usable : Usable lib job t) (laid : Laid lib job) (member : e ∈ job.files)
    (changes : Changes lib job e t t') (free : ∀ a ∈ job.places lib e, t'.node a ≠ some .dir)
    (inside : ∀ a ∈ job.places lib e, t'.node a ≠ none → t'.node a.dropLast = some .dir) :
    Usable lib job t' where
  free := by
    intro e' member' a place isDir
    by_cases own : a ∈ job.places lib e
    · exact free a own isDir
    · rcases changes.same a own with same | ⟨above, -⟩
      · exact usable.free e' member' a place (same ▸ isDir)
      · exact laid.below e' member' e member a place above
  above := by
    intro e' member' q above content modified file
    by_cases own : q ∈ job.places lib e
    · exact laid.below e member e' member' q own above
    · rcases changes.same q own with same | ⟨-, isDir⟩
      · exact usable.above e' member' q above content modified (same ▸ file)
      · cases isDir.symm.trans file
  inside := by
    intro e' member' a place there
    by_cases own : a ∈ job.places lib e
    · exact inside a own there
    · rcases changes.same a own with same | ⟨above, -⟩
      · exact changes.dirs _ (usable.inside e' member' a place (same ▸ there))
      · exact absurd above (laid.below e' member' e member a place)

theorem put {n : Option Node} (usable : Usable lib job t) (laid : Laid lib job)
    (member : e ∈ job.files) (place : a ∈ job.places lib e) (file : n ≠ some .dir)
    (dir : n ≠ none → t.node a.dropLast = some .dir) : Usable lib job (t.put a n) := by
  refine usable.of_changes laid member (.put place (usable.free e member a place)) ?_ ?_
  · intro b own
    by_cases same : b = a
    · rw [same, FileTree.put_node_self]
      exact file
    · rw [FileTree.put_node_of_ne t n same]
      exact usable.free e member b own
  · intro b own there
    obtain ⟨d, above, beside⟩ := laid.beside e member
    have different : b.dropLast ≠ a := by
      rintro rfl
      exact laid.below e member e member _ place (beside b own ▸ above)
    rw [FileTree.put_node_of_ne t n different]
    by_cases same : b = a
    · rw [same, FileTree.put_node_self] at there
      rw [same]
      exact dir there
    · rw [FileTree.put_node_of_ne t n same] at there
      exact usable.inside e member b own there

theorem createDirAll (usable : Usable lib job t) (laid : Laid lib job) (member : e ∈ job.files) :
    Usable lib job (t.createDirAll (parents lib.windows (job.filePath lib e))) ∧
      Changes lib job e t (t.createDirAll (parents lib.windows (job.filePath lib e))) := by
  have changes : Changes lib job e t
      (t.createDirAll (parents lib.windows (job.filePath lib e))) := by
    refine ⟨fun q isDir => FileTree.createDirAll_node_of_some isDir, ?_⟩
    intro q _
    by_cases above : q ∈ parents lib.windows (job.filePath lib e)
    · exact .inr ⟨above, FileTree.createDirAll_node_of_mem above (usable.above e member)⟩
    · exact .inl (FileTree.createDirAll_node_of_not_mem above)
  have kept (a : Place) (own : a ∈ job.places lib e) :=
    @FileTree.createDirAll_node_of_not_mem _ _ t _ a (laid.below e member e member a own)
  refine ⟨usable.of_changes laid member changes ?_ ?_, changes⟩
  · intro a own
    rw [kept a own]
    exact usable.free e member a own
  · intro a own there
    rw [kept a own] at there
    exact changes.dirs _ (usable.inside e member a own there)

end Usable

section Places

theorem target_mem : job.target lib e ∈ job.places lib e := List.mem_cons_self ..

theorem download_mem : job.downloadPlace lib e ∈ job.places lib e :=
  List.mem_cons_of_mem _ (List.mem_cons_self ..)

theorem digest_mem : job.digestPlace lib e ∈ job.places lib e :=
  List.mem_cons_of_mem _ (List.mem_cons_of_mem _ (List.mem_cons_self ..))

theorem download_ne_digest : job.downloadPlace lib e ≠ job.digestPlace lib e :=
  resolve_download_ne_digest _

end Places

section Same

variable {base : TransferJob}

theorem Same.places (same : Same base job) (e : FileEntry) :
    job.places lib e = base.places lib e := by
  simp only [TransferJob.places, target, downloadPlace, digestPlace, same.filePath]

theorem Laid.of_same (laid : Laid lib base) (same : Same base job) : Laid lib job := by
  obtain ⟨beside, below, apart⟩ := laid
  have files := same.2.2.1
  refine ⟨?_, ?_, ?_⟩
  · simpa only [files, same.filePath, same.places] using beside
  · simpa only [files, same.filePath, same.places] using below
  · simpa only [same.entry, same.places] using apart

theorem Usable.iff_same (same : Same base job) : Usable lib job t ↔ Usable lib base t := by
  have files := same.2.2.1
  constructor
  · rintro ⟨free, above, inside⟩
    simp only [files, same.filePath, same.places] at free above inside
    exact ⟨free, above, inside⟩
  · rintro ⟨free, above, inside⟩
    refine ⟨?_, ?_, ?_⟩
    · simpa only [files, same.places] using free
    · simpa only [files, same.filePath] using above
    · simpa only [files, same.places] using inside

theorem Changes.of_same (changes : Changes lib job e t t') (same : Same base job) :
    Changes lib base e t t' := by
  obtain ⟨dirs, stays⟩ := changes
  simp only [same.filePath, same.places] at stays
  exact ⟨dirs, stays⟩

end Same

theorem removeFile_usable (usable : Usable lib job t) (laid : Laid lib job)
    (member : e ∈ job.files) (place : a ∈ job.places lib e) :
    Usable lib job ((t.removeFile a).getD t) ∧ Changes lib job e t ((t.removeFile a).getD t) ∧
      ∀ q, q ≠ a → ((t.removeFile a).getD t).node q = t.node q := by
  unfold FileTree.removeFile
  split
  · exact ⟨usable.put laid member place nofun nofun, .put place (usable.free e member a place),
      fun q other => FileTree.put_node_of_ne t none other⟩
  · exact ⟨usable, .refl, fun _ _ => rfl⟩

theorem setModified_usable {modified : Nat} (usable : Usable lib job t)
    (laid : Laid lib job) (member : e ∈ job.files) (place : a ∈ job.places lib e) :
    Usable lib job (t.setModified a modified) ∧ Changes lib job e t (t.setModified a modified) := by
  unfold FileTree.setModified
  split
  · rename_i file
    have dir := usable.inside e member a place (by rw [file]; exact nofun)
    exact ⟨usable.put laid member place nofun fun _ => dir,
      .put place (usable.free e member a place)⟩
  · exact ⟨usable, .refl⟩

/-- The current file takes its own name. -/
theorem modifyTime_usable (usable : Usable lib job t) (laid : Laid lib job)
    (listed : job.entry? job.fileNum = some e) :
    Usable lib job (job.modifyTime lib t).2 ∧ Changes lib job e t (job.modifyTime lib t).2 ∧
      ∀ content modified, t.node (job.downloadPlace lib e) = some (.file content modified) →
        ∃ m, (job.modifyTime lib t).2.node (job.target lib e) = some (.file content m) := by
  have member := mem_of_entry listed
  obtain ⟨usable₁, changes₁, same₁⟩ := @removeFile_usable lib job e t _ usable laid member digest_mem
  unfold modifyTime
  rw [listed]
  dsimp only
  generalize (t.removeFile (job.digestPlace lib e)).getD t = t₁ at usable₁ changes₁ same₁ ⊢
  have download := same₁ _ download_ne_digest
  cases there : t₁.node (job.downloadPlace lib e) with
  | none =>
      have unmoved : t₁.rename (job.downloadPlace lib e) (job.target lib e) = none := by
        rw [FileTree.rename, there]
      rw [unmoved]
      obtain ⟨usable₂, changes₂⟩ := @setModified_usable lib job e t₁ _ e.modifiedTime usable₁ laid
        member target_mem
      refine ⟨usable₂, changes₁.trans changes₂, ?_⟩
      intro content modified file
      rw [← download, there] at file
      cases file
  | some node =>
      cases node with
      | dir => exact absurd there (usable₁.free e member _ download_mem)
      | file content modified =>
          have dir : t₁.node (job.target lib e).dropLast = some .dir := by
            obtain ⟨d, -, beside⟩ := laid.beside e member
            rw [beside _ target_mem, ← beside _ download_mem]
            exact usable₁.inside e member _ download_mem (by simp [there])
          have free := usable₁.free e member _ target_mem
          rw [FileTree.rename_of_file there free dir]
          dsimp only
          have removed : Usable lib job (t₁.put (job.downloadPlace lib e) none) :=
            usable₁.put laid member download_mem (by simp) fun some_ => absurd rfl some_
          have dir' : (t₁.put (job.downloadPlace lib e) none).node (job.target lib e).dropLast =
              some .dir := by
            rw [FileTree.put_node_of_ne t₁ none, dir]
            intro same
            rw [same, there] at dir
            cases dir
          have named : Usable lib job
              ((t₁.put (job.downloadPlace lib e) none).put (job.target lib e)
                (some (.file content modified))) :=
            removed.put laid member target_mem (by simp) fun _ => dir'
          obtain ⟨usable₂, changes₂⟩ := @setModified_usable lib job e _ _ e.modifiedTime named laid
            member target_mem
          refine ⟨usable₂, changes₁.trans (.trans (.put download_mem (usable₁.free e member _ download_mem))
            (.trans (.put target_mem (removed.free e member _ target_mem)) changes₂)), ?_⟩
          intro content' modified' file
          rw [← download, there] at file
          cases file
          exact ⟨e.modifiedTime, by rw [FileTree.setModified_of_file (FileTree.put_node_self ..),
            FileTree.put_node_self]⟩

theorem clear_usable (usable : Usable lib job t) (laid : Laid lib job)
    (member : e ∈ job.files) (place : a ∈ job.places lib e) :
    ∃ t', t.clear a = some t' ∧ Usable lib job t' ∧ Changes lib job e t t' := by
  unfold FileTree.clear FileTree.exists_ FileTree.removeFile
  match there : t.node a with
  | none => exact ⟨t, rfl, usable, .refl⟩
  | some .dir => exact absurd there (usable.free e member a place)
  | some (.file content modified) =>
      exact ⟨t.put a none, rfl, usable.put laid member place nofun nofun,
        .put place (usable.free e member a place)⟩

theorem writeFile_usable {data : Host.Bytes} {now : Nat} (usable : Usable lib job t)
    (laid : Laid lib job) (member : e ∈ job.files) (place : a ∈ job.places lib e)
    (dir : t.node a.dropLast = some .dir) :
    Usable lib job (t.writeFile a data now) ∧ Changes lib job e t (t.writeFile a data now) ∧
      ∀ q, q ≠ a → (t.writeFile a data now).node q = t.node q := by
  have free := usable.free e member a place
  have created : Usable lib job (t.put a (some (.file [] now))) :=
    usable.put laid member place nofun fun _ => dir
  have dir' := created.inside e member a place (by rw [FileTree.put_node_self]; exact nofun)
  unfold FileTree.writeFile
  rw [FileTree.create_of_dir free dir]
  dsimp only
  rw [FileTree.writeAt_of_file (FileTree.put_node_self ..)]
  refine ⟨created.put laid member place nofun fun _ => dir',
    .trans (.put place free) (.put place (created.free e member a place)), ?_⟩
  intro q other
  rw [FileTree.put_node_of_ne _ _ other, FileTree.put_node_of_ne _ _ other]

/-- A file is begun empty, whatever was left of it. -/
theorem startFile_usable {now : Nat} (usable : Usable lib job t) (laid : Laid lib job)
    (member : e ∈ job.files) :
    ∃ t', job.startFile lib now e t =
        ({ job with stream := some ⟨job.downloadPlace lib e, 0, .write⟩ }, t', .ok ()) ∧
      Usable lib job t' ∧ Changes lib job e t t' ∧
      t'.node (job.downloadPlace lib e) = some (.file [] now) := by
  obtain ⟨usable₁, changes₁⟩ := usable.createDirAll laid member
  obtain ⟨d, above, beside⟩ := laid.beside e member
  have dir₁ : (t.createDirAll (parents lib.windows (job.filePath lib e))).node d = some .dir :=
    FileTree.createDirAll_node_of_mem above (usable.above e member)
  unfold startFile
  generalize t.createDirAll (parents lib.windows (job.filePath lib e)) = t₁ at usable₁ changes₁ dir₁ ⊢
  obtain ⟨t₂, cleared, usable₂, changes₂⟩ := @clear_usable lib job e t₁ _ usable₁ laid member digest_mem
  have dir₂ := changes₂.dirs d dir₁
  have free := usable₂.free e member _ download_mem
  have inside : t₂.node (job.downloadPlace lib e).dropLast = some .dir := by
    rw [beside _ download_mem, dir₂]
  dsimp only
  rw [cleared]
  dsimp only
  rw [FileTree.create_of_dir free inside]
  have usable₃ : Usable lib job (t₂.put (job.downloadPlace lib e) (some (.file [] now))) :=
    usable₂.put laid member download_mem nofun fun _ => inside
  have changes₃ : Changes lib job e t₂ (t₂.put (job.downloadPlace lib e) (some (.file [] now))) :=
    .put download_mem free
  obtain ⟨usable₄, changes₄, same₄⟩ := @writeFile_usable lib job e _ _ (lib.encodeDigest job.digest) now
    usable₃ laid member digest_mem (by rw [beside _ digest_mem, changes₃.dirs d dir₂])
  refine ⟨_, rfl, usable₄, changes₁.trans (changes₂.trans (changes₃.trans changes₄)), ?_⟩
  rw [same₄ _ download_ne_digest, FileTree.put_node_self]

end TransferJob

open TransferJob

/-- What is to be received: the write job as it starts, with files that do not get in
    each other's way, and what the sender has of each of them. -/
structure Plan where
  lib : Library
  base : TransferJob
  laid : Laid lib base
  original : Int → Option Host.Bytes

namespace Plan

section Progress

variable (plan : Plan) (skipped : Int → Prop)

/-- The files before a number are at their place, but for those that were skipped. -/
def Finished (k : Int) (t : Tree) : Prop :=
  ∀ j e, plan.base.fileNum ≤ j → j < k → plan.base.entry? j = some e → ¬ skipped j →
    ∃ content modified, plan.original j = some content ∧
      t.node (plan.base.target plan.lib e) = some (.file content modified)

/-- The job is at a file and has it up to a position. -/
structure Progress (f : Int) (pos : Nat) (job : TransferJob) (t : Tree) : Prop where
  current : job.fileNum = f
  finished : plan.Finished skipped f t
  open_ : ∃ e content front modified, plan.base.entry? f = some e ∧
    plan.original f = some content ∧
    job.stream = some ⟨plan.base.downloadPlace plan.lib e, pos, .write⟩ ∧
    t.node (plan.base.downloadPlace plan.lib e) = some (.file front modified) ∧
    front <+: content ∧ pos ≤ front.length

/-- The job has everything before a file and nothing of it. -/
inductive Ready (n : Int) (job : TransferJob) (t : Tree) : Prop where
  | fresh (closed : job.stream = none) (current : job.fileNum = n)
      (finished : plan.Finished skipped n t)
  | after {f : Int} {content : Host.Bytes} (original : plan.original f = some content)
      (progress : plan.Progress skipped f content.length job t) (earlier : f < n)
      (between : ∀ j, f < j → j < n → skipped j)

/-- The files after a number are as before. -/
def Keeps (n : Int) (t t' : Tree) : Prop :=
  ∀ j e, n < j → plan.base.entry? j = some e → ∀ a ∈ plan.base.places plan.lib e,
    t'.node a = t.node a

end Progress

variable {plan : Plan} {skipped : Int → Prop} {f n : Int} {pos : Nat} {job : TransferJob}
  {t t' : Tree} {e : FileEntry}

theorem Finished.changes (finished : plan.Finished skipped k t)
    (listed : plan.base.entry? n = some e) (changes : Changes plan.lib plan.base e t t')
    (late : k ≤ n) : plan.Finished skipped k t' := by
  intro j e' first before listed' unskipped
  obtain ⟨content, modified, original, file⟩ := finished j e' first before listed' unskipped
  refine ⟨content, modified, original, ?_⟩
  rw [changes.other plan.laid (by omega) listed listed' target_mem, file]

theorem Keeps.of_changes (listed : plan.base.entry? n = some e)
    (changes : Changes plan.lib plan.base e t t') (early : n ≤ k) : plan.Keeps k t t' := by
  intro j e' later listed' a place
  exact changes.other plan.laid (by omega) listed listed' place

theorem Keeps.trans {t₁ : Tree} (first : plan.Keeps n t t₁) (second : plan.Keeps n t₁ t') :
    plan.Keeps n t t' := by
  intro j e' later listed a place
  rw [second j e' later listed a place, first j e' later listed a place]

theorem Keeps.mono (keeps : plan.Keeps n t t') (early : n ≤ k) : plan.Keeps k t t' :=
  fun j e later => keeps j e (early.trans_lt later)

/-- Only the stream and the number of the job matter. -/
theorem Ready.congr {job' : TransferJob} (ready : plan.Ready skipped n job t)
    (stream : job'.stream = job.stream) (current : job'.fileNum = job.fileNum) :
    plan.Ready skipped n job' t := by
  cases ready with
  | fresh closed current' finished =>
    exact .fresh (stream.trans closed) (current.trans current') finished
  | after original progress earlier between =>
      obtain ⟨current', finished, open_⟩ := progress
      rw [← stream] at open_
      exact .after original ⟨current.trans current', finished, open_⟩ earlier between

/-- The file before is finished. -/
theorem Ready.modifyTime (ready : plan.Ready skipped n job t) (same : Same plan.base job)
    (usable : Usable plan.lib plan.base t) :
    Usable plan.lib plan.base (job.modifyTime plan.lib t).2 ∧
      plan.Finished skipped n (job.modifyTime plan.lib t).2 ∧
      plan.Keeps n t (job.modifyTime plan.lib t).2 := by
  cases listed : job.entry? job.fileNum with
  | none =>
      have unchanged : (job.modifyTime plan.lib t).2 = t := by
        simp only [TransferJob.modifyTime, listed]
      rw [unchanged]
      refine ⟨usable, ?_, fun _ _ _ _ _ _ => rfl⟩
      cases ready with
      | fresh _ _ finished => exact finished
      | after original progress =>
          obtain ⟨e, _, _, _, listed', -⟩ := progress.open_
          rw [same.entry, progress.current, listed'] at listed
          cases listed
  | some e =>
      obtain ⟨usable', changes, named⟩ := modifyTime_usable ((Usable.iff_same same).mpr usable)
        (plan.laid.of_same same) listed
      rw [Usable.iff_same same] at usable'
      have changes := changes.of_same same
      rw [same.entry] at listed
      refine ⟨usable', ?_, ?_⟩
      · cases ready with
        | fresh _ current finished => exact finished.changes listed changes current.ge
        | @after f content original progress earlier between =>
            obtain ⟨e', _, front, modified, listed', original', -, file, isPrefix, long⟩ :=
              progress.open_
            rw [progress.current, listed'] at listed
            cases listed
            cases original.symm.trans original'
            obtain rfl := isPrefix.eq_of_length (le_antisymm isPrefix.length_le long)
            intro j e' first before listed'' unskipped
            rcases lt_trichotomy j f with below | rfl | above
            · exact progress.finished.changes listed' changes le_rfl j e' first below listed''
                unskipped
            · cases listed'.symm.trans listed''
              obtain ⟨m, named⟩ :=
                named front modified (by rw [downloadPlace, same.filePath]; exact file)
              rw [target, same.filePath] at named
              exact ⟨front, m, original, named⟩
            · exact absurd (between j above before) unskipped
      · cases ready with
        | fresh _ current _ => exact .of_changes listed changes current.le
        | after _ progress earlier _ =>
            exact .of_changes listed changes (progress.current.le.trans earlier.le)

/-- A file is begun. -/
theorem Ready.beginFile {now : Nat} {content : Host.Bytes} (ready : plan.Ready skipped f job t)
    (same : Same plan.base job) (usable : Usable plan.lib plan.base t)
    (listed : plan.base.entry? f = some e) (original : plan.original f = some content) :
    ∃ job' t', job.beginFile plan.lib now f e t = (job', t', .ok ()) ∧ Same plan.base job' ∧
      Usable plan.lib plan.base t' ∧ plan.Progress skipped f 0 job' t' ∧ plan.Keeps f t t' := by
  obtain ⟨usable₁, finished, keeps⟩ := ready.modifyTime same usable
  obtain ⟨stream, shape⟩ := @modifyTime_job plan.lib job t
  unfold TransferJob.beginFile
  generalize job.modifyTime plan.lib t = done at usable₁ finished keeps shape ⊢
  obtain ⟨job₁, t₁⟩ := done
  obtain rfl : job₁ = { job with stream := stream } := shape
  dsimp only at usable₁ finished keeps ⊢
  have same₁ : Same plan.base { job with stream := stream, fileNum := f } := same
  obtain ⟨t₂, started, usable₂, changes, empty⟩ := @startFile_usable plan.lib
    { job with stream := stream, fileNum := f } e t₁ now ((Usable.iff_same same₁).mpr usable₁)
    (plan.laid.of_same same₁) (mem_of_entry (same₁.entry f ▸ listed))
  have changes := changes.of_same same₁
  have place := @Same.filePath plan.lib _ _ same₁ e
  refine ⟨_, t₂, started, same, (Usable.iff_same same₁).mp usable₂, ?_,
    keeps.trans (.of_changes listed changes le_rfl)⟩
  refine ⟨rfl, finished.changes listed changes le_rfl, e, content, [], now, listed, original, ?_, ?_,
    List.nil_prefix, Nat.zero_le _⟩
  · simp only [downloadPlace, place]
  · rw [downloadPlace, place] at empty
    exact empty

/-- More of the current file. -/
theorem Progress.writeData {now : Nat} {b : FileTransferBlock} {content data : Host.Bytes}
    (progress : plan.Progress skipped f pos job t) (same : Same plan.base job)
    (usable : Usable plan.lib plan.base t) (original : plan.original f = some content)
    (decoded : data = if b.compressed then plan.lib.decompress b.data else b.data)
    (next : data <+: content.drop pos) :
    ∃ job' t', job.writeData plan.lib now b t = (job', t', .ok ()) ∧ Same plan.base job' ∧
      Usable plan.lib plan.base t' ∧ plan.Progress skipped f (pos + data.length) job' t' ∧
      plan.Keeps f t t' := by
  obtain ⟨current, finished, e, _, front, modified, listed, original', stream, file, isPrefix, long⟩ :=
    progress
  cases original.symm.trans original'
  have member := mem_of_entry listed
  obtain ⟨isPrefix', long'⟩ := FileTree.overwrite_prefix isPrefix long next
  have dir := usable.inside e member _ download_mem (by rw [file]; exact nofun)
  have changes : Changes plan.lib plan.base e t (t.put (plan.base.downloadPlace plan.lib e)
      (some (.file (overwrite front pos data) now))) :=
    .put download_mem (usable.free e member _ download_mem)
  unfold TransferJob.writeData
  rw [stream]
  dsimp only
  rw [← decoded, FileTree.writeAt_of_file file]
  refine ⟨_, _, rfl, same, usable.put plan.laid member download_mem nofun fun _ => dir, ?_,
    .of_changes listed changes le_rfl⟩
  exact ⟨current, finished.changes listed changes le_rfl, e, content, _, now, listed, original, rfl,
    FileTree.put_node_self .., isPrefix', long'⟩

/-- The job has a file up to a position, or nothing of it. -/
def At (plan : Plan) (skipped : Int → Prop) (f : Int) (pos : Option Nat) (job : TransferJob)
    (t : Tree) : Prop :=
  match pos with
  | none => plan.Ready skipped f job t
  | some pos => plan.Progress skipped f pos job t

/-- A block with what comes next. -/
theorem At.write {now : Nat} {b : FileTransferBlock} {content data : Host.Bytes} {pos : Option Nat}
    (reached : plan.At skipped f pos job t) (same : Same plan.base job)
    (usable : Usable plan.lib plan.base t) (own : b.id = plan.base.id) (about : b.fileNum = f)
    (listed : plan.base.entry? f = some e) (original : plan.original f = some content)
    (decoded : data = if b.compressed then plan.lib.decompress b.data else b.data)
    (next : data <+: content.drop (pos.getD 0)) :
    ∃ job' t', job.write plan.lib now b t = (job', t', .ok ()) ∧ Same plan.base job' ∧
      Usable plan.lib plan.base t' ∧ plan.Progress skipped f (pos.getD 0 + data.length) job' t' ∧
      plan.Keeps f t t' := by
  unfold TransferJob.write
  rw [if_neg (not_not.mpr (own.trans same.1.symm)), same.entry, about, listed]
  dsimp only
  cases pos with
  | some pos =>
      have progress : plan.Progress skipped f pos job t := reached
      obtain ⟨_, _, _, _, -, -, stream, -⟩ := progress.open_
      rw [if_neg]
      · exact progress.writeData same usable original decoded next
      · rw [progress.current, stream]
        exact fun either => either.elim (fun other => other rfl) nofun
  | none =>
      have ready : plan.Ready skipped f job t := reached
      rw [if_pos]
      · obtain ⟨job₁, t₁, begun, same₁, usable₁, progress, keeps⟩ :=
          @Ready.beginFile plan skipped f job t e now content ready same usable listed original
        rw [begun]
        obtain ⟨job₂, t₂, written, same₂, usable₂, progress₂, keeps₂⟩ :=
          @Progress.writeData plan skipped f 0 job₁ t₁ now b content data progress same₁ usable₁
            original decoded next
        exact ⟨job₂, t₂, written, same₂, usable₂, progress₂, keeps.trans keeps₂⟩
      · cases ready with
        | fresh closed => exact .inr closed
        | after _ progress earlier =>
            rw [progress.current]
            exact .inl earlier.ne'

/-- The job is the planned one and its files can be written. -/
structure Sound (plan : Plan) (job : TransferJob) (t : Tree) : Prop where
  same : Same plan.base job
  usable : Usable plan.lib plan.base t

/-- Blocks that take a file from one position to another. -/
inductive Feed (plan : Plan) (f : Int) (content : Host.Bytes) :
    Option Nat → List Response → Option Nat → Prop where
  | nil {pos : Option Nat} : Feed plan f content pos [] pos
  | block {b : FileTransferBlock} {data : Host.Bytes} {pos pos' : Option Nat} {queue : List Response}
      (own : b.id = plan.base.id) (about : b.fileNum = f)
      (decoded : data = if b.compressed then plan.lib.decompress b.data else b.data)
      (next : data <+: content.drop (pos.getD 0))
      (rest : Feed plan f content (some (pos.getD 0 + data.length)) queue pos') :
      Feed plan f content pos (.block b :: queue) pos'

/-- With what is under way, everything before a file will be there. -/
inductive Leads (plan : Plan) (skipped : Int → Prop) (n : Int) (job : TransferJob) (t : Tree) :
    List Response → Prop where
  | ready (ready : plan.Ready skipped n job t) : Leads plan skipped n job t []
  | feed {f : Int} {e : FileEntry} {content : Host.Bytes} {pos : Option Nat} {queue : List Response}
      (next : n = f + 1) (listed : plan.base.entry? f = some e)
      (original : plan.original f = some content) (reached : plan.At skipped f pos job t)
      (feed : plan.Feed f content pos queue (some content.length)) :
      Leads plan skipped n job t queue

section Feed

variable {content : Host.Bytes} {from_ pos : Option Nat} {queue : List Response} {r : Response}

theorem Feed.snoc {b : FileTransferBlock} {data : Host.Bytes}
    (feed : plan.Feed f content from_ queue pos) (own : b.id = plan.base.id) (about : b.fileNum = f)
    (decoded : data = if b.compressed then plan.lib.decompress b.data else b.data)
    (next : data <+: content.drop (pos.getD 0)) :
    plan.Feed f content from_ (queue ++ [.block b]) (some (pos.getD 0 + data.length)) := by
  induction feed with
  | nil => exact .block own about decoded next .nil
  | block own' about' decoded' next' _ ih => exact .block own' about' decoded' next' (ih next)

theorem Feed.not_done (feed : plan.Feed f content from_ queue pos) : ∀ r ∈ queue, r.isDone = false := by
  induction feed with
  | nil => exact List.forall_mem_nil _
  | block _ _ _ _ _ ih =>
      intro r member
      rcases List.mem_cons.mp member with rfl | later
      · rfl
      · exact ih r later

/-- The first of the blocks is written. -/
theorem Feed.write {now : Nat} (feed : plan.Feed f content from_ (r :: queue) pos)
    (reached : plan.At skipped f from_ job t) (sound : plan.Sound job t)
    (listed : plan.base.entry? f = some e) (original : plan.original f = some content) :
    ∃ b job' t' next, r = .block b ∧ job.write plan.lib now b t = (job', t', .ok ()) ∧
      plan.Sound job' t' ∧ plan.Keeps f t t' ∧ plan.At skipped f next job' t' ∧
      plan.Feed f content next queue pos := by
  cases feed with
  | block own about decoded next rest =>
      obtain ⟨job', t', written, same, usable, progress, keeps⟩ := At.write reached sound.same
        sound.usable own about listed original decoded next
      exact ⟨_, job', t', some _, rfl, written, ⟨same, usable⟩, keeps, progress, rest⟩

theorem Leads.not_done (leads : plan.Leads skipped n job t queue) : ∀ r ∈ queue, r.isDone = false := by
  cases leads with
  | ready => exact List.forall_mem_nil _
  | feed _ _ _ _ feed => exact feed.not_done

theorem Leads.to_ready (leads : plan.Leads skipped n job t []) : plan.Ready skipped n job t := by
  cases leads with
  | ready ready => exact ready
  | feed next _ original reached feed =>
      cases feed
      exact .after original reached (by omega) fun j after before => by omega

theorem Leads.write {now : Nat} (leads : plan.Leads skipped n job t (r :: queue))
    (sound : plan.Sound job t) :
    ∃ b job' t', r = .block b ∧ job.write plan.lib now b t = (job', t', .ok ()) ∧
      plan.Sound job' t' ∧ plan.Keeps (n - 1) t t' ∧ plan.Leads skipped n job' t' queue := by
  cases leads with
  | feed next listed original reached feed =>
      obtain ⟨b, job', t', pos, rfl, written, sound', keeps, reached', feed'⟩ :=
        @Feed.write plan skipped _ job t _ _ _ _ _ _ now feed reached sound listed original
      refine ⟨b, job', t', rfl, written, sound', ?_, .feed next listed original reached' feed'⟩
      rw [next, Int.add_sub_cancel]
      exact keeps

end Feed

variable {more : Int → Prop}

theorem Finished.mono (finished : plan.Finished skipped k t)
    (grows : ∀ j, skipped j → more j) : plan.Finished more k t := by
  intro j e first before listed unskipped
  exact finished j e first before listed fun old => unskipped (grows j old)

theorem Progress.mono (progress : plan.Progress skipped f pos job t)
    (grows : ∀ j, skipped j → more j) : plan.Progress more f pos job t :=
  ⟨progress.current, progress.finished.mono grows, progress.open_⟩

theorem Ready.mono (ready : plan.Ready skipped n job t) (grows : ∀ j, skipped j → more j) :
    plan.Ready more n job t := by
  cases ready with
  | fresh closed current finished => exact .fresh closed current (finished.mono grows)
  | after original progress earlier between =>
      exact .after original (progress.mono grows) earlier fun j after before =>
        grows j (between j after before)

end Plan

end RemoteControl.Transfer
