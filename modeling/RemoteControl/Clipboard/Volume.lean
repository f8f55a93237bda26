import Mathlib.Data.List.DropRight
import RemoteControl.Transfer.Path

/-! # Volumes and the texts of paths

What `std::path` and `std::fs` make of the text of a path on a Unix system, as far as a paste
uses them. A path is found when every directory on the way is there, so that `a/..` is
nowhere as long as there is no `a`; lexically it is where `placeOf` says.

There are no links, and names are compared letter by letter.
-/

namespace RemoteControl.Clipboard.Paste

open Transfer (Text Place follow dotDot isComponent)

def components (path : Text) : List Text := Transfer.components false path

/-- `PathBuf::join` -/
def join (path name : Text) : Text := Transfer.pathJoin false path name

def isAbsolute (path : Text) : Bool := path.head? = some '/'

def segments (path : Text) : List Text := path.splitOn '/'

/-- The text ends with a separator or with `.`, so that it can only be a directory. -/
def endsInDir (path : Text) : Bool := (segments path).getLast?.any (!isComponent ·)

/-- `Path::file_name` -/
def fileName (path : Text) : Option Text := (components path).getLast?.filter (· ≠ dotDot)

/-- `Path::parent`, for a path with components. -/
def parent (path : Text) : Text :=
  let front := ((segments path).rdropWhile (!isComponent ·)).dropLast
  match front.rdropWhile (!isComponent ·) with
  | [] =>
      if isAbsolute path then ['/']
      else if front.head? = some ['.'] then ['.']
      else []
  | rest => ['/'].intercalate rest

/-- What is before the last dot of a file name and what is after it. -/
def splitAtDot (name : Text) : Text × Option Text :=
  let after := name.rtakeWhile (· ≠ '.')
  let before := (name.rdropWhile (· ≠ '.')).dropLast
  if before = [] then (name, none) else (before, some after)

/-- `Path::file_stem` -/
def fileStem (path : Text) : Text := ((fileName path).map fun name => (splitAtDot name).1).getD []

/-- `Path::extension` -/
def extension (path : Text) : Option Text := (fileName path).bind fun name => (splitAtDot name).2

/-- `Path::with_file_name` -/
def withFileName (path name : Text) : Text :=
  join (if (fileName path).isSome then parent path else path) name

structure Volume where
  tree : FileTree Text
  /-- The working directory. -/
  cwd : Place := []

/-- Follows components, all of them through directories. -/
def walk (tree : FileTree Text) : Place → List Text → Option Place
  | place, [] => some place
  | place, c :: rest =>
      if tree.node place = some .dir then
        walk tree (if c = dotDot then place.dropLast else place ++ [c]) rest
      else none

/-- Appends to an open file. -/
def appendTo (tree : FileTree Text) (p : Place) (data : List UInt8) : FileTree Text :=
  match tree.node p with
  | some (.file content _) => tree.writeAt p content.length data 0
  | _ => tree

namespace Volume

def base (v : Volume) (path : Text) : Place := if isAbsolute path then [] else v.cwd

/-- Where the path leads when `..` is taken back lexically. -/
def placeOf (v : Volume) (path : Text) : Place := follow (v.base path) (components path)

/-- No path is empty or has a null character in it. -/
def locate (v : Volume) (path : Text) : Option Place :=
  if path = [] ∨ '\x00' ∈ path then none else walk v.tree (v.base path) (components path)

/-- `Path::exists` -/
def exists_ (v : Volume) (path : Text) : Bool :=
  (v.locate path).any fun p =>
    v.tree.exists_ p && (!endsInDir path || v.tree.node p = some .dir)

/-- `Path::is_dir` -/
def isDir (v : Volume) (path : Text) : Bool := (v.locate path).any fun p => v.tree.node p = some .dir

/-- `File::create`, with the place of the file. -/
def create (v : Volume) (path : Text) : Option (Place × Volume) :=
  if endsInDir path then none
  else
    match v.locate path with
    | none => none
    | some p => (v.tree.create p 0).map fun tree => (p, { v with tree })

/-- `fs::rename` of a file -/
def rename (v : Volume) (source target : Text) : Option Volume :=
  if endsInDir source || endsInDir target then none
  else
    match v.locate source, v.locate target with
    | some a, some b => (v.tree.rename a b).map fun tree => { v with tree }
    | _, _ => none

/-- `fs::remove_file` -/
def removeFile (v : Volume) (path : Text) : Option Volume :=
  if endsInDir path then none
  else
    match v.locate path with
    | none => none
    | some p => (v.tree.removeFile p).map fun tree => { v with tree }

/-- The places of the path and of what is above it, from the top on. -/
def wayTo (v : Volume) (path : Text) : List Place :=
  (components path).inits.tail.map (follow (v.base path))

/-- `fs::create_dir_all`, and whether the directories are there then. When the system refuses
    to make one, it ends after the first `upTo` of them. -/
def createDirAll (v : Volume) (path : Text) (upTo : Option Nat) : Volume × Bool :=
  if '\x00' ∈ path then (v, false)
  else
    let way := v.wayTo path
    let tree := v.tree.createDirAll (upTo.elim way way.take)
    ({ v with tree }, way.all fun p => tree.node p = some .dir)

end Volume

def digits (i : Nat) : Text := Nat.toDigits 10 i

/-! ## Components -/

variable (path : Text) {name suffix : Text}

theorem hasDrive_eq : Transfer.hasDrive false path = false := by
  unfold Transfer.hasDrive
  split <;> simp

theorem components_eq : components path = (segments path).filter isComponent := by
  have same : Transfer.isSep false = (· == '/') := by
    funext c
    simp [Transfer.isSep, beq_eq_decide]
  rw [components, Transfer.components, if_neg (by simp [hasDrive_eq]), Transfer.plainComponents,
    segments, List.splitOn_eq_splitOnP, same]

theorem sep_of_mem_segments {path l : Text} (member : l ∈ segments path) : '/' ∉ l := by
  unfold segments at member
  induction path generalizing l with
  | nil =>
      rw [List.splitOn_nil, List.mem_singleton] at member
      simp [member]
  | cons c rest ih =>
      rw [List.splitOn_cons_eq_if_modifyHead] at member
      split at member
      case isTrue =>
        rcases List.mem_cons.mp member with rfl | later
        · simp
        · exact ih later
      case isFalse plain =>
        cases split_ : rest.splitOn '/' with
        | nil => exact absurd split_ (List.splitOn_ne_nil '/' rest)
        | cons first others =>
            rw [split_, List.modifyHead_cons] at member
            rcases List.mem_cons.mp member with rfl | later
            · have plain : c ≠ '/' := by simpa using plain
              have inner : '/' ∉ first := ih (by simp [split_])
              simp [inner, plain.symm]
            · exact ih (by simp [split_, later])

theorem segments_append (plain : '/' ∉ suffix) :
    ∃ front last,
      segments path = front ++ [last] ∧ segments (path ++ suffix) = front ++ [last ++ suffix] := by
  unfold segments
  rw [List.splitOn_eq_splitOnP, List.splitOn_eq_splitOnP]
  exact Transfer.splitOnP_append_suffix path fun c member => by
    simpa using ne_of_mem_of_not_mem member plain

/-- The components of all segments but the last one. -/
def folder (path : Text) : List Text := (segments path).dropLast.filter isComponent

theorem components_append (plain : '/' ∉ suffix)
    (named : ∀ last, isComponent (last ++ suffix) = true) :
    ∃ last, components (path ++ suffix) = folder path ++ [last ++ suffix] := by
  obtain ⟨front, last, before, after⟩ := segments_append path plain
  refine ⟨last, ?_⟩
  rw [components_eq, folder, before, after, List.dropLast_concat, List.filter_append]
  simp [named]

theorem folder_append (plain : '/' ∉ suffix) : folder (path ++ suffix) = folder path := by
  obtain ⟨front, last, before, after⟩ := segments_append path plain
  rw [folder, folder, before, after, List.dropLast_concat, List.dropLast_concat]

theorem isAbsolute_append {path : Text} (plain : '/' ∉ suffix) :
    isAbsolute (path ++ suffix) = isAbsolute path := by
  cases path with
  | nil => cases suffix <;> simp_all [isAbsolute, eq_comm]
  | cons c rest => rfl

/-! The parent -/

theorem filter_rdropWhile (segs : List Text) :
    (segs.rdropWhile (!isComponent ·)).filter isComponent = segs.filter isComponent := by
  induction segs using List.reverseRecOn with
  | nil => rfl
  | append_singleton front last ih =>
      cases named : isComponent last with
      | true => rw [List.rdropWhile_concat_neg _ _ _ (by simp [named])]
      | false =>
          rw [List.rdropWhile_concat_pos _ _ _ (by simp [named]), ih, List.filter_append]
          simp [named]

/-- Without its trailing blanks a list of segments ends with a component. -/
theorem dropLast_filter (segs : List Text) :
    (segs.rdropWhile (!isComponent ·)).dropLast.filter isComponent =
      (segs.filter isComponent).dropLast := by
  rw [← filter_rdropWhile segs]
  have last := List.rdropWhile_last_not (p := (!isComponent ·)) (l := segs)
  generalize segs.rdropWhile (!isComponent ·) = trimmed at last ⊢
  rcases List.eq_nil_or_concat trimmed with rfl | ⟨front, c, rfl⟩
  · rfl
  · have named : isComponent c = true := by simpa using last (by simp)
    rw [List.concat_eq_append, List.dropLast_concat, List.filter_append]
    simp [named]

theorem components_parent : components (parent path) = (components path).dropLast := by
  rw [components_eq path, ← dropLast_filter]
  have plain : ∀ l ∈ ((segments path).rdropWhile (!isComponent ·)).dropLast, '/' ∉ l := fun l member =>
    sep_of_mem_segments ((List.rdropWhile_prefix _ _).subset (List.mem_of_mem_dropLast member))
  unfold parent
  generalize ((segments path).rdropWhile (!isComponent ·)).dropLast = front at plain ⊢
  dsimp only
  rw [← filter_rdropWhile front]
  cases trimmed : front.rdropWhile (!isComponent ·) with
  | nil =>
      simp only
      split_ifs <;> rfl
  | cons first rest =>
      have inner : ∀ l ∈ first :: rest, '/' ∉ l := fun l member =>
        plain l ((List.rdropWhile_prefix _ _).subset (trimmed ▸ member))
      simp only
      rw [components_eq, segments, List.splitOn_intercalate '/' inner (by simp)]

theorem isAbsolute_iff : isAbsolute path = true ↔ path ≠ [] ∧ (segments path).head? = some [] := by
  cases path with
  | nil => simp [isAbsolute]
  | cons c rest =>
      have plain : ¬ (rest.splitOn '/') = [] := List.splitOn_ne_nil '/' rest
      by_cases sep : c = '/'
      · simp [isAbsolute, segments, sep, List.splitOn_cons_eq_if_modifyHead]
      · cases split_ : rest.splitOn '/' <;>
          simp_all [isAbsolute, segments, List.splitOn_cons_eq_if_modifyHead]

theorem isAbsolute_parent {path : Text} (named : components path ≠ []) :
    isAbsolute (parent path) = isAbsolute path := by
  have nonempty : path ≠ [] := by
    rintro rfl
    exact named rfl
  rw [components_eq, ← filter_rdropWhile] at named
  have start := isAbsolute_iff path
  unfold parent
  have head : (segments path).head? = ((segments path).rdropWhile (!isComponent ·)).head? := by
    obtain ⟨rest, whole⟩ := List.rdropWhile_prefix (!isComponent ·) (segments path)
    cases trimmed : (segments path).rdropWhile (!isComponent ·) with
    | nil => simp [trimmed] at named
    | cons first others =>
        rw [trimmed] at whole
        rw [← whole]
        rfl
  have plain : ∀ l ∈ (segments path).rdropWhile (!isComponent ·), '/' ∉ l := fun l member =>
    sep_of_mem_segments ((List.rdropWhile_prefix _ _).subset member)
  rw [head] at start
  generalize (segments path).rdropWhile (!isComponent ·) = trimmed at named start plain ⊢
  have isPrefix : trimmed.dropLast.rdropWhile (!isComponent ·) <+: trimmed :=
    (List.rdropWhile_prefix _ _).trans (List.dropLast_prefix _)
  have last := List.rdropWhile_last_not (p := (!isComponent ·)) (l := trimmed.dropLast)
  dsimp only
  generalize trimmed.dropLast.rdropWhile (!isComponent ·) = rest at isPrefix last ⊢
  cases rest with
  | nil => simp only; split_ifs <;> simp_all [isAbsolute]
  | cons first others =>
      have inner : ∀ l ∈ first :: others, '/' ∉ l := fun l member => plain l (isPrefix.subset member)
      have whole : segments (['/'].intercalate (first :: others)) = first :: others :=
        List.splitOn_intercalate '/' inner (by simp)
      have some_ : ['/'].intercalate (first :: others) ≠ [] := by
        intro none
        rw [none] at whole
        obtain ⟨rfl, rfl⟩ := List.cons.inj whole
        exact last (by simp) (by decide)
      have same : trimmed.head? = some first := by
        obtain ⟨more, rfl⟩ := isPrefix
        rfl
      simp only
      rw [Bool.eq_iff_iff, isAbsolute_iff, start, whole, same]
      simp [some_, nonempty]

/-! Joined names -/

theorem startsSep_eq : path.head?.any (Transfer.isSep false) = isAbsolute path := by
  cases path <;> simp [isAbsolute, Transfer.isSep]

theorem components_join (relative : isAbsolute name = false) :
    components (join path name) = components path ++ components name :=
  Transfer.components_pathJoin path (hasDrive_eq name) ((startsSep_eq name).trans relative)

theorem isAbsolute_join (relative : isAbsolute name = false) :
    isAbsolute (join path name) = isAbsolute path := by
  simp only [join, Transfer.pathJoin, hasDrive_eq, startsSep_eq, relative]
  cases path with
  | nil =>
      have none_ : isAbsolute [] = false := rfl
      simpa [none_] using relative
  | cons c rest =>
      simp only [Bool.false_eq_true, if_false]
      split_ifs <;> rfl

theorem components_of_name (plain : '/' ∉ name) (named : isComponent name = true) :
    components name = [name] := by
  rw [components_eq, segments, List.splitOn_eq_singleton plain]
  simp [named]

theorem isAbsolute_of_name (plain : '/' ∉ name) : isAbsolute name = false := by
  cases name <;> simp_all [isAbsolute, eq_comm]

theorem components_ne_nil_of_fileName {path : Text} (some_ : (fileName path).isSome) :
    components path ≠ [] := by
  intro none
  simp [fileName, none] at some_

theorem components_withFileName {path : Text} (some_ : (fileName path).isSome) (plain : '/' ∉ name)
    (named : isComponent name = true) :
    components (withFileName path name) = (components path).dropLast ++ [name] := by
  rw [withFileName, if_pos some_, components_join _ (isAbsolute_of_name plain), components_parent,
    components_of_name plain named]

theorem isAbsolute_withFileName {path : Text} (some_ : (fileName path).isSome)
    (plain : '/' ∉ name) : isAbsolute (withFileName path name) = isAbsolute path := by
  rw [withFileName, if_pos some_, isAbsolute_join _ (isAbsolute_of_name plain),
    isAbsolute_parent (components_ne_nil_of_fileName some_)]

theorem sep_not_mem_digits (i : Nat) : '/' ∉ digits i := by
  intro member
  have digit := Nat.isDigit_of_mem_toDigits (by decide) (by decide) member
  revert digit
  decide

section Walking

variable {tree tree' : FileTree Text} {place p : Place} {l : List Text}

theorem walk_eq_follow (walked : walk tree place l = some p) : p = follow place l := by
  induction l generalizing place with
  | nil => exact (Option.some.inj walked).symm
  | cons c rest ih =>
      unfold walk at walked
      split at walked
      case isTrue => exact ih walked
      case isFalse => cases walked

/-- A path stays where it is as long as no directory goes away. -/
theorem walk_mono (kept : ∀ q, tree.node q = some .dir → tree'.node q = some .dir)
    (walked : walk tree place l = some p) : walk tree' place l = some p := by
  induction l generalizing place with
  | nil => exact walked
  | cons c rest ih =>
      unfold walk at walked ⊢
      split at walked
      case isTrue dir =>
        rw [if_pos (kept place dir)]
        exact ih walked
      case isFalse => cases walked

variable {data : List UInt8}

theorem appendTo_node_of_ne {q : Place} (other : q ≠ p) :
    (appendTo tree p data).node q = tree.node q := by
  have written (pos : Nat) : (tree.writeAt p pos data 0).node q = tree.node q := by
    unfold FileTree.writeAt
    split
    · exact FileTree.put_node_of_ne tree _ other
    · rfl
  unfold appendTo
  split
  · exact written _
  · rfl

theorem overwrite_end (content data : List UInt8) :
    overwrite content content.length data = content ++ data := by
  simp [overwrite]

theorem appendTo_node_self {content : List UInt8} {modified : Nat}
    (file : tree.node p = some (.file content modified)) :
    (appendTo tree p data).node p = some (.file (content ++ data) 0) := by
  unfold appendTo
  rw [file]
  simp only [FileTree.writeAt_of_file file, FileTree.put_node_self, overwrite_end]

end Walking

namespace Volume

variable {v v' : Volume} {path path' : Text} {p q : Place} {upTo : Option Nat}

theorem locate_eq_some : v.locate path = some p ↔
    (path ≠ [] ∧ '\x00' ∉ path) ∧ walk v.tree (v.base path) (components path) = some p := by
  unfold locate
  split
  case isTrue bad => simp; tauto
  case isFalse good => simp [not_or.mp good]

theorem placeOf_of_locate (located : v.locate path = some p) : p = v.placeOf path :=
  walk_eq_follow (locate_eq_some.mp located).2

/-- Directories stay, and the working directory stays the same. -/
structure Keeps (v v' : Volume) : Prop where
  cwd : v'.cwd = v.cwd
  dirs : ∀ p, v.tree.node p = some .dir → v'.tree.node p = some .dir

theorem Keeps.refl : Keeps v v := ⟨rfl, fun _ => id⟩

theorem Keeps.trans {v'' : Volume} (first : Keeps v v') (second : Keeps v' v'') : Keeps v v'' :=
  ⟨second.cwd.trans first.cwd, fun p dir => second.dirs p (first.dirs p dir)⟩

theorem Keeps.locate (keeps : Keeps v v') (located : v.locate path = some p) :
    v'.locate path = some p := by
  obtain ⟨good, walked⟩ := locate_eq_some.mp located
  refine locate_eq_some.mpr ⟨good, ?_⟩
  rw [base, keeps.cwd]
  exact walk_mono keeps.dirs walked

theorem exists_iff : v.exists_ path = true ↔ ∃ p, v.locate path = some p ∧
    (v.tree.node p).isSome ∧ (endsInDir path = true → v.tree.node p = some .dir) := by
  unfold exists_ FileTree.exists_
  cases v.locate path with
  | none => simp
  | some p =>
      cases endsInDir path <;> simp

theorem free_of_exists (free : v.exists_ path = false) (located : v.locate path = some p)
    (plain : endsInDir path = false) : v.tree.node p = none := by
  rw [← Bool.not_eq_true, exists_iff] at free
  by_contra there
  exact free ⟨p, located, Option.isSome_iff_ne_none.mpr there, by simp [plain]⟩

theorem isDir_iff : v.isDir path = true ↔ ∃ p, v.locate path = some p ∧ v.tree.node p = some .dir := by
  unfold isDir
  cases v.locate path <;> simp

theorem Keeps.isDir (keeps : Keeps v v') (isDir : v.isDir path = true) : v'.isDir path = true := by
  obtain ⟨p, located, dir⟩ := isDir_iff.mp isDir
  exact isDir_iff.mpr ⟨p, keeps.locate located, keeps.dirs p dir⟩

/-! What an operation does when it is not refused -/

theorem of_create (created : v.create path = some (p, v')) :
    endsInDir path = false ∧ v.locate path = some p ∧ v.tree.node p ≠ some .dir ∧
      v' = { v with tree := v.tree.put p (some (.file [] 0)) } := by
  unfold create at created
  split at created
  case isTrue => cases created
  case isFalse plain =>
    split at created
    case h_1 => cases created
    case h_2 p' located =>
      obtain ⟨tree, made, same⟩ := Option.map_eq_some_iff.mp created
      obtain ⟨rfl, rfl⟩ := Prod.mk.inj same
      unfold FileTree.create at made
      split at made
      case isTrue => cases made
      case isFalse noDir =>
        split at made
        case isTrue =>
          obtain rfl := Option.some.inj made
          exact ⟨by simpa using plain, located, noDir, rfl⟩
        case isFalse => cases made

theorem of_rename {source target : Text} {a : Place} {content : List UInt8} {modified : Nat}
    (located : v.locate source = some a) (file : v.tree.node a = some (.file content modified))
    (renamed : v.rename source target = some v') :
    endsInDir target = false ∧ ∃ b, v.locate target = some b ∧ v.tree.node b ≠ some .dir ∧
      v' = { v with tree := (v.tree.put a none).put b (some (.file content modified)) } := by
  unfold rename at renamed
  split at renamed
  case isTrue => cases renamed
  case isFalse plain =>
    rw [located] at renamed
    cases target_ : v.locate target with
    | none => simp [target_] at renamed
    | some b =>
        simp only [target_] at renamed
        obtain ⟨tree, moved, rfl⟩ := Option.map_eq_some_iff.mp renamed
        unfold FileTree.rename at moved
        simp only [file] at moved
        split at moved
        case isTrue => cases moved
        case isFalse free =>
          obtain rfl := Option.some.inj moved
          simp only [Bool.or_eq_true, not_or, Bool.not_eq_true] at plain
          exact ⟨plain.2, b, rfl, (not_or.mp free).1, rfl⟩

theorem of_removeFile (removed : v.removeFile path = some v') :
    ∃ p content modified, v.locate path = some p ∧ v.tree.node p = some (.file content modified) ∧
      v' = { v with tree := v.tree.put p none } := by
  unfold removeFile at removed
  split at removed
  case isTrue => cases removed
  case isFalse =>
    cases located : v.locate path with
    | none => simp [located] at removed
    | some p =>
        simp only [located] at removed
        obtain ⟨tree, gone, rfl⟩ := Option.map_eq_some_iff.mp removed
        unfold FileTree.removeFile at gone
        split at gone
        case h_1 content modified file =>
          obtain rfl := Option.some.inj gone
          exact ⟨p, content, modified, rfl, file, rfl⟩
        case h_2 => cases gone

theorem createDirAll_cwd : (v.createDirAll path upTo).1.cwd = v.cwd := by
  unfold createDirAll
  split <;> rfl

theorem createDirAll_node_of_some {n : Node} (there : v.tree.node p = some n) :
    (v.createDirAll path upTo).1.tree.node p = some n := by
  unfold createDirAll
  split
  case isTrue => exact there
  case isFalse => exact FileTree.createDirAll_node_of_some there

theorem keeps_createDirAll : Keeps v (v.createDirAll path upTo).1 :=
  ⟨createDirAll_cwd, fun _ => createDirAll_node_of_some⟩

theorem keeps_put (free : v.tree.node p ≠ some .dir) (n : Option Node) :
    Keeps v { v with tree := v.tree.put p n } where
  cwd := rfl
  dirs q dir := by
    have other : q ≠ p := by
      rintro rfl
      exact free dir
    exact (FileTree.put_node_of_ne v.tree n other).trans dir

theorem keeps_appendTo : Keeps v { v with tree := appendTo v.tree p data } where
  cwd := rfl
  dirs q dir := by
    by_cases same : q = p
    · subst same
      simp [appendTo, dir]
    · exact (appendTo_node_of_ne same).trans dir

end Volume

end RemoteControl.Clipboard.Paste
