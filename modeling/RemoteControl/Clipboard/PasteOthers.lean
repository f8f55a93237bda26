import RemoteControl.Clipboard.PasteContainment

/-! # A paste and the files of others

A name is only taken when nothing is found there. Two things go wrong with that: a path
through a directory that does not exist leads nowhere when it is looked at, but somewhere
once the directory is made, and the path of a removed file is kept for another removal.
-/

namespace RemoteControl.Clipboard.Paste

open Runs (Always Along)
open Transfer (Text Place follow)

/-- What is foreign is still as it was made. -/
def Undamaged (s : State) : Prop := ∀ p n, s.foreign p = some n → s.volume.tree.node p = some n

/-- The paths that an entry may be downloaded to. -/
def IsDownload (targetDir : Text) (desc : FileDescription) (p : Text) : Prop :=
  p = join targetDir desc.name ++ '.' :: downloadExtension ∨
    ∃ i, p = numbered (join targetDir desc.name ++ '.' :: downloadExtension) desc.kind i

/-- No download path that leads nowhere yet would lead to something foreign. -/
def NoDetour (foreign : Place → Option Node) (v : Volume) (targetDir : Text)
    (files : List FileDescription) : Prop :=
  ∀ desc ∈ files, desc.kind = .file → desc.size ≠ 0 → ∀ p, IsDownload targetDir desc p →
    '\x00' ∉ p → v.locate p = none → foreign (v.placeOf p) = none

/-- The remembered path is not that of something foreign. -/
def Forgotten (foreign : Place → Option Node) (path : Text) (v : Volume) : Prop :=
  path = [] ∨ foreign (v.placeOf path) = none

/-- What must hold before an event. -/
def Careful (s : State) : Event → Prop
  | .start targetDir files _ =>
      (∀ h ∈ s.task, h.isFinished = true) → NoDetour s.volume.tree.node s.volume targetDir files
  | .response _ _ =>
      ∀ h ∈ s.task, h.isFinished = false → NoDetour s.foreign s.volume h.targetDir h.files
  | .cancel _ =>
      ∀ h ∈ s.task, h.isFinished = true → Forgotten s.foreign h.progress.downloadFilePath s.volume
  | .timeout _ _ => True
  | .other _ _ => True

/-- The volume in an event that began with `v₀`. -/
structure Safe (foreign : Place → Option Node) (v₀ : Volume) (path : Text) (v : Volume) : Prop where
  keeps : v₀.Keeps v
  undamaged : ∀ p n, foreign p = some n → v.tree.node p = some n
  path : Forgotten foreign path v₀

section Events

variable {foreign : Place → Option Node} {v₀ v : Volume} {path targetDir : Text} {p : Place}
  {files : List FileDescription}

section

variable (safe : Safe foreign v₀ path v)

include safe

theorem Safe.free (located : v.locate path = some p) :
    foreign p = none := by
  rcases safe.path with rfl | free
  · simp [Volume.locate] at located
  · rwa [Volume.placeOf_of_locate located, safe.keeps.placeOf]

theorem Safe.not_foreign (free : v.tree.node p = none) :
    foreign p = none := by
  cases there : foreign p with
  | none => rfl
  | some n => exact absurd (safe.undamaged p n there) (by simp [free])

/-- Something is put where nothing foreign is. -/
theorem Safe.put (free : foreign p = none) (noDir : v.tree.node p ≠ some .dir)
    (n : Option Node) : Safe foreign v₀ path { v with tree := v.tree.put p n } where
  keeps := safe.keeps.trans (Volume.keeps_put noDir n)
  undamaged q m there := by
    have other : q ≠ p := by
      rintro rfl
      simp [free] at there
    exact (FileTree.put_node_of_ne v.tree n other).trans (safe.undamaged q m there)
  path := safe.path

theorem Safe.moved {path' : Text} (path_ : Forgotten foreign path' v₀) :
    Safe foreign v₀ path' v := ⟨safe.keeps, safe.undamaged, path_⟩

theorem Safe.createDirAll (dir : Text) (upTo : Option Nat) :
    Safe foreign v₀ path (v.createDirAll dir upTo).1 where
  keeps := safe.keeps.trans Volume.keeps_createDirAll
  undamaged q m there := Volume.createDirAll_node_of_some (safe.undamaged q m there)
  path := safe.path

end

theorem safe_preserves : Preserves (Safe foreign v₀) files targetDir where
  append {path v p content modified} data safe located file := by
    refine ⟨safe.keeps.trans Volume.keeps_appendTo, fun q n there => ?_, safe.path⟩
    have other : q ≠ p := by
      rintro rfl
      simp [safe.free located] at there
    exact (appendTo_node_of_ne other).trans (safe.undamaged q n there)
  forget safe := safe.moved (.inl rfl)
  remove {path v v'} safe removed := by
    obtain ⟨p, content, modified, located, file, rfl⟩ := Volume.of_removeFile removed
    exact safe.put (safe.free located) (by simp [file]) none
  rename {path v v' p content modified desc target} safe located file member isFile found renamed := by
    obtain ⟨plain, b, located', noDir, rfl⟩ := Volume.of_rename located file renamed
    have free : v.tree.node b = none :=
      Volume.free_of_exists (getNewFilename_cases found).1 located' plain
    have gone : Safe foreign v₀ path { v with tree := v.tree.put p none } :=
      safe.put (safe.free located) (by simp [file]) none
    have different : b ≠ p := by
      rintro rfl
      simp [file] at free
    have free' : (v.tree.put p none).node b = none :=
      (FileTree.put_node_of_ne v.tree none different).trans free
    exact (gone.put (safe.not_foreign free) (by simp [free']) _).moved (.inl rfl)
  createEmpty {path v v' p desc target} safe member isFile found created := by
    obtain ⟨plain, located, noDir, rfl⟩ := Volume.of_create created
    have free : v.tree.node p = none :=
      Volume.free_of_exists (getNewFilename_cases found).1 located plain
    exact safe.put (safe.not_foreign free) noDir _
  createDir upTo safe _ _ _ := safe.createDirAll _ upTo
  createParent upTo safe _ _ _ _ := safe.createDirAll _ upTo

theorem safe_opens (noDetour : NoDetour foreign v₀ targetDir files) :
    Opens (Safe foreign v₀) files targetDir where
  toPreserves := safe_preserves
  download {path v v' v'' p desc target} safe member isFile some_ found keeps safe' created := by
    obtain ⟨plain, located, noDir, rfl⟩ := Volume.of_create created
    obtain ⟨missing, candidate⟩ := getFirstFilename_cases found
    have place : p = v₀.placeOf target :=
      (Volume.placeOf_of_locate located).trans (safe'.keeps.placeOf target)
    have free : foreign p = none := by
      cases before : v₀.locate target with
      | none =>
          have text := (Volume.locate_eq_some.mp located).1.2
          exact place ▸ noDetour desc member isFile some_ target candidate text before
      | some a =>
          have now := safe.keeps.locate before
          have same : a = p := (Volume.placeOf_of_locate before).trans place.symm
          exact safe.not_foreign (same ▸ Volume.free_of_exists missing now plain)
    exact (safe'.put free noDir _).moved (.inr (place ▸ free))

end Events

/-! Names in directories that are there -/

theorem walk_append (tree : FileTree Text) (place : Place) (left right : List Text) :
    walk tree place (left ++ right) = (walk tree place left).bind fun q => walk tree q right := by
  induction left generalizing place with
  | nil => rfl
  | cons c rest ih =>
      simp only [List.cons_append, walk]
      split
      case isTrue => exact ih _
      case isFalse => rfl

theorem located_of_folder {v : Volume} {path p : Text} {d : Place} (lies : LiesIn path p (folder path))
    (text : '\x00' ∉ p) (there : walk v.tree (v.base path) (folder path) = some d)
    (isDir : v.tree.node d = some .dir) : ∃ a, v.locate p = some a := by
  obtain ⟨name, noDots, whole⟩ := lies.2
  have some_ : p ≠ [] := by
    rintro rfl
    have none_ : components [] = [] := rfl
    simp [none_] at whole
  refine ⟨d ++ [name], Volume.locate_eq_some.mpr ⟨⟨some_, text⟩, ?_⟩⟩
  rw [lies.base, whole, walk_append, there]
  simp [walk, isDir, noDots]

/-- A file whose directory is there is downloaded without a detour. -/
theorem noDetour_of_folders {foreign : Place → Option Node} {v : Volume} {targetDir : Text}
    {files : List FileDescription}
    (there : ∀ desc ∈ files, (walk v.tree (v.base (join targetDir desc.name))
      (folder (join targetDir desc.name))).any (v.tree.node · = some .dir) = true) :
    NoDetour foreign v targetDir files := by
  intro desc member _ _ p candidate text nowhere
  obtain ⟨d, walked, isDir⟩ := Option.any_eq_true _ _ |>.mp (there desc member)
  have lies : LiesIn (join targetDir desc.name) p (folder (join targetDir desc.name)) := by
    rcases candidate with rfl | ⟨i, rfl⟩
    · exact (liesIn_download _ desc.kind 0).1
    · exact (liesIn_download _ desc.kind i).2
  obtain ⟨a, located⟩ := located_of_folder lies text walked (of_decide_eq_true isDir)
  exact absurd nowhere (by simp [located])

section Mono

variable {Q Q' : Text → Volume → Prop} {files : List FileDescription} {targetDir : Text} {w : Working}

theorem Good.mono (good : Good Q files targetDir w)
    (weaken : Q w.progress.downloadFilePath w.volume → Q' w.progress.downloadFilePath w.volume) :
    Good Q' files targetDir w :=
  ⟨good.files, good.targetDir, good.open_, weaken good.holds⟩

theorem InOrder.mono (inOrder : InOrder Q files targetDir w)
    (weaken : Q w.progress.downloadFilePath w.volume → Q' w.progress.downloadFilePath w.volume) :
    InOrder Q' files targetDir w :=
  ⟨inOrder.toGood.mono weaken, inOrder.ready, inOrder.finished⟩

end Mono

/-- The task of the state as an event finds it. -/
def Current (s : State) (h : PasteTaskHandle) : Prop :=
  InOrder (Safe s.foreign s.volume) h.files h.targetDir (s.working h)

/-- What holds between the events. Of a finished task only the remembered path is left. -/
structure Kept (s : State) : Prop where
  undamaged : Undamaged s
  closed : ∀ h ∈ s.task, h.isFinished = true → h.progress.fileHandle = none
  current : ∀ h ∈ s.task, h.isFinished = false → Current s h

namespace State

section Foreign

variable {s : State} {w : Working} {o : Outcomes}

@[simp] theorem foreign_request : (s.request w o).foreign = s.foreign := by
  unfold request
  split <;> rfl

@[simp] theorem foreign_goOn : (s.goOn w o).foreign = s.foreign := by
  unfold goOn
  split
  case isTrue => rfl
  case isFalse => exact foreign_request

theorem foreign_cancel : (s.cancel o).foreign = s.foreign := by
  unfold cancel
  split <;> rfl

theorem foreign_timeout {late : Bool} : (s.timeout late o).foreign = s.foreign := by
  unfold timeout
  split
  case h_1 => rfl
  case h_2 => split <;> rfl

theorem foreign_response {r : FileContentsResponse} : (s.response r o).foreign = s.foreign := by
  unfold response
  split
  case h_1 => rfl
  case h_2 =>
    split_ifs
    · rfl
    · rfl
    · exact foreign_goOn
    · split
      case h_1 => rfl
      case h_2 => split_ifs <;> (try split) <;> simp

end Foreign

variable {s : State} {foreign : Place → Option Node} {v₀ : Volume} {files : List FileDescription}
  {targetDir : Text}

/-- What an event leaves that was safe from its beginning. -/
theorem kept_of_holds (same : s.foreign = foreign) (some_ : s.task.isSome = true)
    (holds : Holds (InOrder (Safe foreign v₀) files targetDir) s) : Kept s := by
  subst same
  refine ⟨?_, ?_, ?_⟩
  · obtain ⟨h, is⟩ := Option.isSome_iff_exists.mp some_
    exact (holds h is).holds.undamaged
  · intro h is finished
    exact (holds h is).finished finished
  · intro h is _
    have inOrder := holds h is
    have same : files = h.files ∧ targetDir = h.targetDir :=
      ⟨inOrder.files.symm, inOrder.targetDir.symm⟩
    obtain ⟨rfl, rfl⟩ := same
    refine inOrder.mono fun safe => ⟨.refl, safe.undamaged, ?_⟩
    exact safe.path.imp id fun free => (congrArg s.foreign (safe.keeps.placeOf _)).trans free

variable {o : Outcomes} {h : PasteTaskHandle} {p : Place} {n : Node}

/-- A cancelled task is in order, also when it was finished before. -/
theorem current_of_kept (kept : Kept s) (is : s.task = some h)
    (forgotten : h.isFinished = true → Forgotten s.foreign h.progress.downloadFilePath s.volume) :
    Current s h := by
  cases finished : h.isFinished with
  | true =>
      have closed : (s.working h).progress.fileHandle = none := kept.closed h is finished
      have safe : Safe s.foreign s.volume h.progress.downloadFilePath s.volume :=
        ⟨.refl, kept.undamaged, forgotten finished⟩
      exact ⟨⟨rfl, rfl, by simp [closed], safe⟩, .inl finished, fun _ => closed⟩
  | false => exact kept.current h is finished

theorem holds_of_current (is : s.task = some h) (current : Current s h) :
    Holds (InOrder (Safe s.foreign s.volume) h.files h.targetDir) s := by
  intro h' is'
  rw [is, Option.mem_some_iff] at is'
  subst is'
  exact current

theorem foreign_start (free : ∀ h ∈ s.task, h.isFinished = true) :
    (s.start targetDir files o).foreign = s.volume.tree.node := by
  have free' : ¬ s.task.any (!·.isFinished) = true := by
    cases task : s.task with
    | none => simp
    | some h => simp [free h task]
  unfold start
  rw [if_neg free']
  dsimp only
  split
  case isTrue => rfl
  case isFalse => exact foreign_request

theorem kept_start (kept : Kept s) (careful : (∀ h ∈ s.task, h.isFinished = true) →
    NoDetour s.volume.tree.node s.volume targetDir files) : Kept (s.start targetDir files o) := by
  by_cases free : ∀ h ∈ s.task, h.isFinished = true
  · have fresh : Safe s.volume.tree.node s.volume [] s.volume := ⟨.refl, fun _ _ => id, .inl rfl⟩
    exact kept_of_holds (foreign_start free) isSome_start
      (holds_start (safe_opens (careful free)) fresh free)
  · rwa [start_busy free]

theorem kept_cancel (kept : Kept s) (forgotten : ∀ h ∈ s.task,
    h.isFinished = true → Forgotten s.foreign h.progress.downloadFilePath s.volume) :
    Kept (s.cancel o) := by
  cases task : s.task with
  | none => simpa [cancel, task] using kept
  | some h =>
      have current := current_of_kept kept task (forgotten h task)
      exact kept_of_holds foreign_cancel (isSome_step (.cancel o) (by simp [task]))
        (holds_cancel safe_preserves (holds_of_current task current))

theorem kept_response (kept : Kept s) {r : FileContentsResponse}
    (noDetour : ∀ h ∈ s.task, h.isFinished = false → NoDetour s.foreign s.volume h.targetDir h.files) :
    Kept (s.response r o) := by
  cases task : s.task with
  | none => simpa [response, task] using kept
  | some h =>
      cases finished : h.isFinished with
      | true => simpa [response, task, finished] using kept
      | false =>
          have current := kept.current h task finished
          exact kept_of_holds foreign_response (isSome_response (by simp [task]))
            (holds_response (safe_opens (noDetour h task finished)) (holds_of_current task current))

theorem kept_timeout (kept : Kept s) {late : Bool} : Kept (s.timeout late o) := by
  cases task : s.task with
  | none => simpa [timeout, task] using kept
  | some h =>
      cases finished : h.isFinished with
      | true => simpa [timeout, task, finished] using kept
      | false =>
          have current := kept.current h task finished
          exact kept_of_holds foreign_timeout (isSome_step (.timeout late o) (by simp [task]))
            (holds_timeout safe_preserves (holds_of_current task current))

/-- What another program makes is not at the place of the open file, where something is. -/
theorem forgotten_other (current : Current s h) (unfinished : h.isFinished = false)
    (free : s.volume.tree.node p = none) :
    Forgotten (Function.update s.foreign p (some n)) h.progress.downloadFilePath s.volume := by
  rcases current.ready with finished | opened | empty
  · exact absurd finished (by simp [working, unfinished])
  · obtain ⟨writer, opened⟩ := Option.ne_none_iff_exists'.mp opened
    obtain ⟨located, ⟨content, modified, file⟩, -, -⟩ := current.open_ writer opened
    have different : s.volume.placeOf h.progress.downloadFilePath ≠ p := by
      rintro rfl
      rw [Volume.placeOf_of_locate located] at file
      exact absurd file (by simp [working, free, Working.progress])
    refine current.holds.path.imp id fun before => ?_
    rwa [Function.update_of_ne different]
  · exact .inl empty

theorem kept_other (kept : Kept s) : Kept (s.other p n) := by
  by_cases made : s.volume.tree.node p = none ∧ s.volume.tree.node p.dropLast = some .dir
  · have foreign_ : (s.other p n).foreign = Function.update s.foreign p (some n) := by
      simp [other, made]
    have node_ : (s.other p n).volume.tree.node = Function.update s.volume.tree.node p (some n) := by
      simp [other, made]
    have undamaged : Undamaged (s.other p n) := by
      intro q m there
      rw [foreign_] at there
      rw [node_]
      by_cases same : q = p
      · subst same
        simpa using there
      · rw [Function.update_of_ne same] at there ⊢
        exact kept.undamaged q m there
    refine ⟨undamaged, ?_, ?_⟩
    · intro h is
      rw [(other_task p n).1] at is
      exact kept.closed h is
    · intro h is unfinished
      rw [(other_task p n).1] at is
      have current := kept.current h is unfinished
      have forgotten := forgotten_other (n := n) current unfinished made.1
      obtain ⟨good, ready, closed⟩ := current
      refine ⟨⟨rfl, rfl, fun writer opened => openAt_other (good.open_ writer opened), .refl,
        undamaged, ?_⟩,
        ready, closed⟩
      rw [Forgotten, foreign_, keeps_other.placeOf]
      exact forgotten
  · have same : s.other p n = s := by simp [other, made]
    rwa [same]

theorem kept_step (kept : Kept s) (e : Event) (careful : Careful s e) : Kept (s.step e) := by
  cases e with
  | start targetDir files o => exact kept_start kept careful
  | cancel o => exact kept_cancel kept careful
  | response r o => exact kept_response kept careful
  | timeout late o => exact kept_timeout kept
  | other p n => exact kept_other kept

theorem kept_initial (v : Volume) : Kept (initial v) := by
  have idle {p : PasteTaskHandle → Prop} : ∀ h ∈ (initial v).task, p h :=
    fun _ is => absurd is (Option.not_mem_none _)
  exact ⟨fun _ _ => id, idle, idle⟩

end State

/-- In a careful run a paste damages nothing that it has not made itself. -/
theorem paste_damages_nothing (v : Volume) (events : List Event)
    (careful : Along State.step Careful (State.initial v) events) :
    Always State.step Undamaged (State.initial v) events := by
  have always : Always State.step Kept (State.initial v) events :=
    Runs.always_of_along (fun s e kept now => State.kept_step kept e now) (State.kept_initial v) careful
  exact always.mono fun s kept => kept.undamaged

theorem paste_damages_nothing_one :
    Always State.step Undamaged (State.initial withTarget)
      [.start ['/', 't'] (filesOf (oneFile [.char 'a']) 0) {}, .response (answer [1, 2, 3, 4, 5]) {},
        .cancel {}] := by
  apply paste_damages_nothing
  refine ⟨fun _ => noDetour_of_folders (by decide +kernel), ?_, ?_, trivial⟩
  · intro h is _
    apply noDetour_of_folders
    revert h
    decide +kernel
  · intro h is _
    have forgotten : h.progress.downloadFilePath = [] := by
      revert h
      decide +kernel
    exact .inl forgotten

/-- The file of a task that got no answer is removed. What another program then puts there is
    removed when the task is cancelled. -/
theorem cancel_removes_another :
    ¬ Always State.step Undamaged (State.initial withTarget)
      [.start ['/', 't'] (filesOf (oneFile [.char 'a']) 0) {}, .timeout true {},
        .other [['t'], ['a', '.'] ++ downloadExtension] (.file [7] 0), .cancel {}] := by
  intro always
  have last := always.last [['t'], ['a', '.'] ++ downloadExtension] (.file [7] 0)
  revert last
  decide +kernel

end RemoteControl.Clipboard.Paste
