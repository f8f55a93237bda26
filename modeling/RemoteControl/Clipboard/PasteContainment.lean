import RemoteControl.Clipboard.PasteSteps

/-! # A paste stays in its directory

The names of the list come from the peer and are joined to the target directory as they are.
An absolute name or one that climbs leads out of it; so does an empty name of a file, whose
numbered variants stand beside the directory.
-/

namespace RemoteControl.Clipboard.Paste

open FileTree (Within)
open Runs (exec Always)
open Transfer (Text Place follow dotDot isComponent descends)

section Names

variable {v : Volume} {path p targetDir : Text} {kind : FileType} {desc : FileDescription}
  {name : Text}

/-- The text is a name in a directory. -/
def LiesIn (base p : Text) (dir : List Text) : Prop :=
  isAbsolute p = isAbsolute base ∧ ∃ name, name ≠ dotDot ∧ components p = dir ++ [name]

theorem getFirstFilename_cases (found : getFirstFilename v path kind = some p) :
    v.exists_ p = false ∧ (p = path ∨ ∃ i, p = numbered path kind i) := by
  unfold getFirstFilename at found
  split at found
  case isTrue free =>
    obtain rfl := Option.some.inj found
    exact ⟨by simpa using free, .inl rfl⟩
  case isFalse =>
    split at found
    case isTrue => cases found
    case isFalse =>
      have free := List.find?_some found
      obtain ⟨i, -, rfl⟩ := List.mem_map.mp (List.mem_of_find?_eq_some found)
      exact ⟨by simpa using free, .inr ⟨i, rfl⟩⟩

theorem getNewFilename_cases (found : getNewFilename v targetDir desc = some p) :
    v.exists_ p = false ∧
      (p = join targetDir desc.name ∨ ∃ i, p = numbered (join targetDir desc.name) desc.kind i) := by
  unfold getNewFilename at found
  dsimp only at found
  split at found
  case isTrue => exact getFirstFilename_cases found
  case isFalse free =>
    obtain rfl := Option.some.inj found
    exact ⟨by simpa using free, .inl rfl⟩

theorem isComponent_of_long (long : 2 ≤ name.length) : isComponent name = true := by
  match name, long with
  | _ :: _ :: _, _ => simp [isComponent]

theorem ne_dotDot_of_long (long : 3 ≤ name.length) : name ≠ dotDot := by
  rintro rfl
  simp [dotDot] at long

/-- A long ending without separators makes a name of its own. -/
theorem liesIn_append {suffix : Text} (plain : '/' ∉ suffix) (long : 3 ≤ suffix.length) :
    LiesIn path (path ++ suffix) (folder path) := by
  refine ⟨isAbsolute_append plain, ?_⟩
  obtain ⟨last, whole⟩ := components_append path plain fun last =>
    isComponent_of_long (by rw [List.length_append]; omega)
  exact ⟨_, ne_dotDot_of_long (by rw [List.length_append]; omega), whole⟩

theorem mem_of_mem_rtakeWhile {α : Type*} {f : α → Bool} {l : List α} {x : α}
    (member : x ∈ l.rtakeWhile f) :
    x ∈ l :=
  (List.rtakeWhile_suffix f l).subset member

theorem splitAtDot_subset (name : Text) :
    (splitAtDot name).1 ⊆ name ∧ ∀ ext ∈ (splitAtDot name).2, ext ⊆ name := by
  unfold splitAtDot
  dsimp only
  split_ifs
  · simp
  · constructor
    · exact fun c member => (List.rdropWhile_prefix _ _).subset (List.mem_of_mem_dropLast member)
    · rintro _ ⟨⟩ c member
      exact mem_of_mem_rtakeWhile member

theorem sep_of_fileName (named : fileName path = some name) : '/' ∉ name := by
  obtain ⟨last, -⟩ := Option.filter_eq_some_iff.mp named
  have member := List.mem_of_getLast? last
  rw [components_eq] at member
  exact sep_of_mem_segments (List.mem_of_mem_filter member)

/-- A numbered variant stands beside the file when it has an extension; else its number is
    put at the end of the text. -/
theorem liesIn_numbered (path : Text) (kind : FileType) (i : Nat) :
    LiesIn path (numbered path kind i) (folder path) ∨
    (extension path).isSome ∧ LiesIn path (numbered path kind i) (components path).dropLast := by
  have appended : LiesIn path (path ++ [' ', '('] ++ digits i ++ [')']) (folder path) := by
    rw [List.append_assoc, List.append_assoc]
    apply liesIn_append
    · simp [sep_not_mem_digits]
    · simp
  unfold numbered
  split
  case h_1 ext some_ =>
    right
    refine ⟨by simp [some_], ?_⟩
    obtain ⟨name, named, split_⟩ := Option.bind_eq_some_iff.mp some_
    have plain := sep_of_fileName named
    obtain ⟨inStem, inExt⟩ := splitAtDot_subset name
    have stem : fileStem path = (splitAtDot name).1 := by simp [fileStem, named]
    have noSep : '/' ∉ fileStem path ++ '-' :: digits i ++ '.' :: ext := by
      rw [stem]
      simp only [List.mem_append, List.mem_cons, not_or]
      refine ⟨⟨fun member => plain (inStem member), by decide, sep_not_mem_digits i⟩, by decide, ?_⟩
      exact fun member => plain (inExt ext split_ member)
    have long : 3 ≤ (fileStem path ++ '-' :: digits i ++ '.' :: ext).length := by
      have some_ : (digits i).length ≠ 0 := by simp [digits, Nat.toDigits_ne_nil]
      simp only [List.length_append, List.length_cons]
      omega
    exact ⟨isAbsolute_withFileName (by simp [named]) noSep, _, ne_dotDot_of_long long,
      components_withFileName (by simp [named]) noSep (isComponent_of_long (by omega))⟩
  case h_2 => exact .inl appended

theorem sep_not_mem_downloadExtension : '/' ∉ '.' :: downloadExtension := by decide

/-- The file that is downloaded to and its variants are in the same directory. -/
theorem liesIn_download (path : Text) (kind : FileType) (i : Nat) :
    LiesIn path (path ++ '.' :: downloadExtension) (folder path) ∧
      LiesIn path (numbered (path ++ '.' :: downloadExtension) kind i) (folder path) := by
  have whole : LiesIn path (path ++ '.' :: downloadExtension) (folder path) :=
    liesIn_append sep_not_mem_downloadExtension (by decide)
  refine ⟨whole, ?_⟩
  obtain ⟨absolute, name, -, split_⟩ := whole
  have same := folder_append path sep_not_mem_downloadExtension
  rcases liesIn_numbered (path ++ '.' :: downloadExtension) kind i with
    ⟨absolute', inFolder⟩ | ⟨-, absolute', inFolder⟩
  · exact ⟨absolute'.trans absolute, same ▸ inFolder⟩
  · rw [split_, List.dropLast_concat] at inFolder
    exact ⟨absolute'.trans absolute, inFolder⟩

end Names

/-- Every directory on the way is inside or was there before. -/
def OnTheWay (v : Volume) (target base : Place) (l : List Text) : Prop :=
  ∀ l' ∈ l.inits, target <+: follow base l' ∨ v.tree.node (follow base l') = some .dir

/-- What is made, written and renamed for the entry is inside the target directory. -/
def EntryInside (v : Volume) (targetDir : Text) (desc : FileDescription) : Prop :=
  let path := join targetDir desc.name
  let target := v.placeOf targetDir
  (desc.kind = .file →
    target <+: follow (v.base path) (folder path) ∧
      ((extension path).isSome = true → target <+: follow (v.base path) (components path).dropLast) ∧
      (target <+: v.placeOf path ∨ v.tree.node (v.placeOf path) = some .dir) ∧
      (desc.size ≠ 0 → OnTheWay v target (v.base path) (folder path))) ∧
    (desc.kind = .directory → OnTheWay v target (v.base path) (components path))

instance (v : Volume) (target base : Place) (l : List Text) : Decidable (OnTheWay v target base l) :=
  inferInstanceAs (Decidable (∀ l' ∈ l.inits, _ ∨ _))

instance (v : Volume) (targetDir : Text) (desc : FileDescription) :
    Decidable (EntryInside v targetDir desc) :=
  inferInstanceAs (Decidable ((_ → _ ∧ (_ → _) ∧ (_ ∨ _) ∧ (_ → _)) ∧ (_ → _)))

section Entries

variable {v₀ v : Volume} {path p targetDir : Text} {target b : Place} {desc : FileDescription}
  {dir : List Text}

theorem Volume.Keeps.base (keeps : v₀.Keeps v) (path : Text) : v.base path = v₀.base path := by
  rw [Volume.base, Volume.base, keeps.cwd]

theorem Volume.Keeps.placeOf (keeps : v₀.Keeps v) (path : Text) : v.placeOf path = v₀.placeOf path := by
  rw [Volume.placeOf, Volume.placeOf, keeps.base]

theorem LiesIn.base (lies : LiesIn path p dir) : v.base p = v.base path := by
  rw [Volume.base, Volume.base, lies.1]

theorem LiesIn.inside (lies : LiesIn path p dir) (inside : target <+: follow (v.base path) dir) :
    target <+: v.placeOf p := by
  obtain ⟨name, noDots, whole⟩ := lies.2
  rw [Volume.placeOf, lies.base, whole, Transfer.follow_append]
  simp only [follow, if_neg noDots]
  exact inside.trans (List.prefix_append ..)

/-- A file gets a name inside, unless there is a directory in its place. -/
theorem EntryInside.newName (inside : EntryInside v₀ targetDir desc) (isFile : desc.kind = .file)
    (keeps : v₀.Keeps v) (found : getNewFilename v targetDir desc = some p)
    (located : v.locate p = some b) (noDir : v.tree.node b ≠ some .dir) :
    v₀.placeOf targetDir <+: b := by
  obtain ⟨folder_, beside, itself, -⟩ := inside.1 isFile
  have place : b = v₀.placeOf p := (Volume.placeOf_of_locate located).trans (keeps.placeOf p)
  rcases (getNewFilename_cases found).2 with rfl | ⟨i, rfl⟩
  · rcases itself with inner | isDir
    · exact place ▸ inner
    · exact absurd (keeps.dirs _ isDir) (place ▸ noDir)
  · rw [place]
    rcases liesIn_numbered (join targetDir desc.name) desc.kind i with lies | ⟨ext, lies⟩
    · exact lies.inside folder_
    · exact lies.inside (beside ext)

theorem parent_lies (lies : LiesIn path p dir) :
    components (parent p) = dir ∧ v.base (parent p) = v.base path := by
  obtain ⟨name, -, whole⟩ := lies.2
  constructor
  · rw [components_parent, whole, List.dropLast_concat]
  · rw [Volume.base, isAbsolute_parent (by simp [whole]), ← Volume.base, lies.base]

/-- The directories that are made for a download are inside, and so is the download file. -/
theorem EntryInside.download (inside : EntryInside v₀ targetDir desc) (isFile : desc.kind = .file)
    (some_ : desc.size ≠ 0)
    (found : getFirstFilename v (join targetDir desc.name ++ '.' :: downloadExtension) desc.kind =
    some p) :
    v₀.placeOf targetDir <+: v₀.placeOf p ∧
      OnTheWay v₀ (v₀.placeOf targetDir) (v₀.base (parent p)) (components (parent p)) := by
  obtain ⟨folder_, -, -, way⟩ := inside.1 isFile
  have lies : LiesIn (join targetDir desc.name) p (folder (join targetDir desc.name)) := by
    rcases (getFirstFilename_cases found).2 with rfl | ⟨i, rfl⟩
    · exact (liesIn_download _ desc.kind 0).1
    · exact (liesIn_download _ desc.kind i).2
  obtain ⟨same, base⟩ := parent_lies (v := v₀) lies
  refine ⟨lies.inside folder_, ?_⟩
  rw [same, base]
  exact way some_

/-- Only directories inside are made. -/
theorem OnTheWay.createDirAll {upTo : Option Nat} (keeps : v₀.Keeps v)
    (way : OnTheWay v₀ target (v₀.base path) (components path)) :
    Within (target <+: ·) (fun _ => False) v.tree (v.createDirAll path upTo).1.tree := by
  unfold Volume.createDirAll
  split
  case isTrue => exact .refl
  case isFalse =>
    apply Within.createDirAll
    intro q member
    have onWay : q ∈ v.wayTo path := by
      cases upTo with
      | none => exact member
      | some n => exact List.mem_of_mem_take member
    obtain ⟨l, inits, rfl⟩ := List.mem_map.mp onWay
    rw [keeps.base]
    rcases way l (List.mem_of_mem_tail inits) with inner | isDir
    · exact .inl inner
    · exact .inr (by simp [keeps.dirs _ isDir])

end Entries

/-! Names that a peer gives to its own files -/

section Descending

variable {v : Volume} {targetDir : Text} {desc : FileDescription} {l : List Text}

theorem folder_cases (path : Text) :
    components path = folder path ∨ ∃ c, components path = folder path ++ [c] := by
  have some_ : segments path ≠ [] := List.splitOn_ne_nil '/' path
  rw [components_eq, folder, ← List.dropLast_concat_getLast some_, List.filter_append,
    List.dropLast_concat]
  cases named : isComponent ((segments path).getLast some_) <;> simp [named]

/-- The way to an entry goes to the target directory and stays inside. -/
theorem inside_on_the_way (relative : isAbsolute desc.name = false)
    (down : descends 0 (components desc.name) = true)
    (front : l <+: components (join targetDir desc.name)) (past : components targetDir <+: l) :
    v.placeOf targetDir <+: follow (v.base (join targetDir desc.name)) l := by
  obtain ⟨rest, rfl⟩ := past
  rw [components_join targetDir relative, List.prefix_append_right_inj] at front
  have stays : v.placeOf targetDir <+: follow (v.placeOf targetDir ++ []) rest :=
    Transfer.prefix_follow (Transfer.descends_prefix_of front down)
  rw [List.append_nil] at stays
  rw [Volume.base, isAbsolute_join targetDir relative, ← Volume.base, Transfer.follow_append]
  exact stays

theorem onTheWay_of_descends
    (dirs : ∀ l ∈ (components targetDir).inits, v.tree.node (follow (v.base targetDir) l) = some .dir)
    (relative : isAbsolute desc.name = false) (down : descends 0 (components desc.name) = true)
    (front : l <+: components (join targetDir desc.name)) :
    OnTheWay v (v.placeOf targetDir) (v.base (join targetDir desc.name)) l := by
  intro l' member
  have front' := ((List.mem_inits l' l).mp member).trans front
  have whole : components targetDir <+: components (join targetDir desc.name) := by
    rw [components_join targetDir relative]
    exact List.prefix_append ..
  rcases List.prefix_or_prefix_of_prefix front' whole with before | past
  · right
    rw [Volume.base, isAbsolute_join targetDir relative, ← Volume.base]
    exact dirs l' ((List.mem_inits ..).mpr before)
  · exact .inl (inside_on_the_way relative down front' past)

/-- A relative name that is not empty and never climbs above where it starts is inside every
    target directory that is there. -/
theorem entryInside_of_descends
    (dirs : ∀ l ∈ (components targetDir).inits, v.tree.node (follow (v.base targetDir) l) = some .dir)
    (relative : isAbsolute desc.name = false) (named : components desc.name ≠ [])
    (down : descends 0 (components desc.name) = true) : EntryInside v targetDir desc := by
  have joined := components_join targetDir relative
  have short : components targetDir <+: (components (join targetDir desc.name)).dropLast := by
    rw [joined, List.dropLast_append_of_ne_nil named]
    exact List.prefix_append ..
  have folder_ : folder (join targetDir desc.name) <+: components (join targetDir desc.name) ∧
      components targetDir <+: folder (join targetDir desc.name) := by
    rcases folder_cases (join targetDir desc.name) with same | ⟨c, same⟩
    · rw [← same, joined]
      exact ⟨List.prefix_refl _, List.prefix_append ..⟩
    · rw [same, List.dropLast_concat] at short
      exact ⟨same ▸ List.prefix_append .., short⟩
  refine ⟨fun _ => ⟨?_, fun _ => ?_, .inl ?_, fun _ => ?_⟩, fun _ => ?_⟩
  · exact inside_on_the_way relative down folder_.1 folder_.2
  · exact inside_on_the_way relative down (List.dropLast_prefix _) short
  · exact inside_on_the_way relative down (List.prefix_refl _) (joined ▸ List.prefix_append ..)
  · exact onTheWay_of_descends dirs relative down folder_.1
  · exact onTheWay_of_descends dirs relative down (List.prefix_refl _)

end Descending

/-- The list that the peer has sent, if it is accepted. -/
def filesOf (formatData : Bytes) (connId : Int32) : List FileDescription :=
  match parseFileDescriptors formatData connId with
  | .ok files => files
  | .error _ => []

def Event.isStart : Event → Bool
  | .start _ _ _ => true
  | _ => false

/-- All that was touched is inside the target directory. -/
def Inside (v : Volume) (targetDir : Text) (s : State) : Prop :=
  ∀ p ∈ s.volume.tree.touched, v.placeOf targetDir <+: p

instance (v : Volume) (targetDir : Text) : DecidablePred (Inside v targetDir) := fun s =>
  inferInstanceAs (Decidable (∀ p ∈ s.volume.tree.touched, _))

/-- The volume since `v₀`: directories stay, what is touched is inside, and so is the
    remembered path. -/
structure Tended (v₀ : Volume) (targetDir : Text) (path : Text) (v : Volume) : Prop where
  keeps : v₀.Keeps v
  touched : ∀ p ∈ v.tree.touched, v₀.placeOf targetDir <+: p
  path : path = [] ∨ v₀.placeOf targetDir <+: v₀.placeOf path

section Runs

variable {v₀ v : Volume} {path targetDir : Text} {p : Place} {files : List FileDescription}

theorem Tended.inside (tended : Tended v₀ targetDir path v) (located : v.locate path = some p) :
    v₀.placeOf targetDir <+: p := by
  rcases tended.path with rfl | inside
  · simp [Volume.locate] at located
  · rw [Volume.placeOf_of_locate located, tended.keeps.placeOf]
    exact inside

theorem Tended.within (tended : Tended v₀ targetDir path v) {v' : Volume} (keeps : v.Keeps v')
    (within : Within (v₀.placeOf targetDir <+: ·) (fun _ => False) v.tree v'.tree) {path' : Text}
    (path_ : path' = [] ∨ v₀.placeOf targetDir <+: v₀.placeOf path') :
    Tended v₀ targetDir path' v' where
  keeps := tended.keeps.trans keeps
  touched q member := (within.touched q member).elim (tended.touched q) id
  path := path_

theorem tended_opens (inside : ∀ desc ∈ files, EntryInside v₀ targetDir desc) :
    Opens (Tended v₀ targetDir) files targetDir where
  append {path v p content modified} data tended located file := by
    refine tended.within Volume.keeps_appendTo ?_ tended.path
    simp only [appendTo, file]
    exact Within.writeAt _ _ _ (tended.inside located)
  forget tended := ⟨tended.keeps, tended.touched, .inl rfl⟩
  remove {path v v'} tended removed := by
    obtain ⟨p, content, modified, located, file, rfl⟩ := Volume.of_removeFile removed
    exact tended.within (Volume.keeps_put (by simp [file]) none)
      (.put none (tended.inside located)) tended.path
  rename {path v v' p content modified desc target} tended located file member isFile found renamed := by
    obtain ⟨-, b, located', noDir, rfl⟩ := Volume.of_rename located file renamed
    have source := tended.inside located
    have goal := (inside desc member).newName isFile tended.keeps found located' noDir
    have moved : v.Keeps { v with tree := v.tree.put p none } := Volume.keeps_put (by simp [file]) none
    have free : (v.tree.put p none).node b ≠ some .dir := by
      by_cases same : b = p
      · subst same
        simp
      · rwa [FileTree.put_node_of_ne _ _ same]
    have placed : ({ v with tree := v.tree.put p none } : Volume).Keeps
        { v with tree := (v.tree.put p none).put b (some (.file content modified)) } :=
      Volume.keeps_put free _
    exact tended.within (moved.trans placed) ((Within.put none source).trans (.put _ goal)) (.inl rfl)
  createEmpty {path v v' p desc target} tended member isFile found created := by
    obtain ⟨-, located, noDir, rfl⟩ := Volume.of_create created
    have goal := (inside desc member).newName isFile tended.keeps found located noDir
    exact tended.within (Volume.keeps_put noDir _) (.put _ goal) tended.path
  createDir {path v desc} upTo tended member isDir _ := by
    have way := (inside desc member).2 isDir
    exact tended.within Volume.keeps_createDirAll (way.createDirAll tended.keeps) tended.path
  createParent {path v desc target} upTo tended member isFile some_ found := by
    have way := ((inside desc member).download isFile some_ found).2
    exact tended.within Volume.keeps_createDirAll (way.createDirAll tended.keeps) tended.path
  download {path v v' v'' p desc target} tended member isFile some_ found keeps tended' created := by
    have goal := ((inside desc member).download isFile some_ found).1
    obtain ⟨-, located, noDir, rfl⟩ := Volume.of_create created
    have here : v₀.placeOf targetDir <+: p := by
      rw [Volume.placeOf_of_locate located, tended'.keeps.placeOf]
      exact goal
    exact tended'.within (Volume.keeps_put noDir _) (.put _ here) (.inr goal)

namespace State

variable {s : State} {n : Node} {p : Place}

theorem keeps_other : s.volume.Keeps (s.other p n).volume := by
  unfold other
  split
  case isTrue free =>
    refine ⟨rfl, fun q dir => ?_⟩
    have different : q ≠ p := by
      rintro rfl
      simp [free.1] at dir
    exact (Function.update_of_ne different ..).trans dir
  case isFalse => exact .refl

theorem other_task (p : Place) (n : Node) :
    (s.other p n).task = s.task ∧ (s.other p n).notes = s.notes := by
  unfold other
  split <;> exact ⟨rfl, rfl⟩

theorem node_other {q : Place} {n' : Node} (there : s.volume.tree.node q = some n') :
    (s.other p n).volume.tree.node q = some n' := by
  unfold other
  split
  case isTrue free =>
    have different : q ≠ p := by
      rintro rfl
      simp [free.1] at there
    exact (Function.update_of_ne different ..).trans there
  case isFalse => exact there

/-- Another program leaves the open file where it is. -/
theorem openAt_other {h : PasteTaskHandle} {writer : BufWriter}
    (open_ : OpenAt (s.working h) writer) : OpenAt ((s.other p n).working h) writer := by
  obtain ⟨located, ⟨content, modified, file⟩, index, desc⟩ := open_
  exact ⟨keeps_other.locate located, ⟨content, modified, node_other file⟩, index, desc⟩

/-- What a paste in the target directory keeps. -/
def TendedPaste (v₀ : Volume) (targetDir : Text) (files : List FileDescription) (s : State) : Prop :=
  s.task.isSome = true ∧ Holds (InOrder (Tended v₀ targetDir) files targetDir) s

theorem tended_other (tended : Tended v₀ targetDir path s.volume) :
    Tended v₀ targetDir path (s.other p n).volume  where
  keeps := tended.keeps.trans keeps_other
  touched := by
    have same : (s.other p n).volume.tree.touched = s.volume.tree.touched := by
      unfold other
      split <;> rfl
    rw [same]
    exact tended.touched
  path := tended.path

/-- What another program makes is not touched by the task. -/
theorem holds_other (holds : Holds (InOrder (Tended v₀ targetDir) files targetDir) s) :
    Holds (InOrder (Tended v₀ targetDir) files targetDir) (s.other p n) := by
  intro h is
  rw [(other_task p n).1] at is
  obtain ⟨good, ready, finished⟩ := holds h is
  exact ⟨⟨good.files, good.targetDir, fun writer opened => openAt_other (good.open_ writer opened),
    tended_other good.holds⟩, ready, finished⟩

theorem tendedPaste_step (inside : ∀ desc ∈ files, EntryInside v₀ targetDir desc) {e : Event}
    (later : e.isStart = false) (tended : TendedPaste v₀ targetDir files s) :
    TendedPaste v₀ targetDir files (s.step e) := by
  have opens := tended_opens inside
  refine ⟨isSome_step e tended.1, ?_⟩
  cases e with
  | start => cases later
  | cancel o => exact holds_cancel opens.toPreserves tended.2
  | response fileContents o => exact holds_response opens tended.2
  | timeout late o => exact holds_timeout opens.toPreserves tended.2
  | other p n => exact holds_other tended.2

theorem TendedPaste.inside (tended : TendedPaste v₀ targetDir files s) : Inside v₀ targetDir s := by
  obtain ⟨h, is⟩ := Option.isSome_iff_exists.mp tended.1
  exact (tended.2 h is).holds.touched

end State

/-- A paste from the list of a peer stays in its directory when its entries do. -/
theorem pasted_files_inside (v : Volume) (targetDir : Text) (formatData : Bytes) (connId : Int32)
    (o : Outcomes) (rest : List Event) (untouched : v.tree.touched = [])
    (inside : ∀ desc ∈ filesOf formatData connId, EntryInside v targetDir desc)
    (later : ∀ e ∈ rest, e.isStart = false) :
    Always State.step (Inside v targetDir)
      ((State.initial v).start targetDir (filesOf formatData connId) o) rest := by
  have fresh : Tended v targetDir [] v := ⟨.refl, by simp [untouched], .inl rfl⟩
  have started : State.TendedPaste v targetDir (filesOf formatData connId)
      ((State.initial v).start targetDir (filesOf formatData connId) o) :=
    ⟨State.isSome_start, State.holds_start (tended_opens inside) fresh nofun⟩
  have always : Always State.step (State.TendedPaste v targetDir (filesOf formatData connId))
      ((State.initial v).start targetDir (filesOf formatData connId) o) rest := by
    refine Runs.always_of_events ?_ later started
    intro s e here tended
    exact State.tendedPaste_step inside here tended
  exact always.mono fun _ tended => tended.inside

/-! Two lists of one file -/

/-- A volume with the directory `/t` and nothing else. -/
def withTarget : Volume :=
  { tree := { node := fun p => if p = [] ∨ p = [['t']] then some .dir else none } }

/-- The list with a file of 5 bytes. -/
def oneFile (name : OsText) : Bytes := (buildFileListPdu [inFolder name 0]).getD []

def answer (data : Bytes) : FileContentsResponse := ⟨0, 1, 0, data⟩

theorem pasted_files_inside_one :
    Always State.step (Inside withTarget ['/', 't'])
      ((State.initial withTarget).start ['/', 't'] (filesOf (oneFile [.char 'a']) 0) {})
      [.response (answer [1, 2, 3, 4, 5]) {}, .cancel {}] :=
  pasted_files_inside withTarget ['/', 't'] (oneFile [.char 'a']) 0 {} _ rfl (by decide +kernel)
    (by decide)

/-- The name `../x` is downloaded beside the target directory. -/
theorem climbing_name_outside :
    ¬ Always State.step (Inside withTarget ['/', 't'])
      ((State.initial withTarget).start ['/', 't']
        (filesOf (oneFile [.char '.', .char '.', .char '/', .char 'x']) 0) {}) [] := by
  decide +kernel

end Runs

end RemoteControl.Clipboard.Paste
