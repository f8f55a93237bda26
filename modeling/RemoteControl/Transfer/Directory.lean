import RemoteControl.Clipboard.LocalFile
import RemoteControl.Transfer.Path

/-! # Directories

A directory tree as `read_dir` of `hbb_common/fs.rs` finds it, and what `read_dir` makes of a
directory. What is behind a link is no part of the tree. Everything can be read; on Windows the
path `/` stands for the drives and not for a directory, and is left out.
-/

namespace RemoteControl.Transfer.Directory

open Clipboard (OsText OsChar)

structure Meta where
  name : OsText
  /-- The attribute that hides an entry on Windows. -/
  hidden : Bool
  modifiedTime : Nat
  deriving DecidableEq

inductive Leaf where
  | file (size : Nat)
  /-- Whether it leads to a directory, and whether it is a link for directories, which Windows
      tells apart. -/
  | link (toDir forDir : Bool)
  deriving DecidableEq

/-- The entries of a directory, in the order in which they are read. -/
inductive Listing where
  | nil
  | leaf (m : Meta) (l : Leaf) (rest : Listing)
  | dir (m : Meta) (inside rest : Listing)
  deriving DecidableEq

inductive Node where
  | leaf (l : Leaf)
  | dir (inside : Listing)
  deriving DecidableEq

namespace Listing

def entries : Listing → List (Meta × Node)
  | nil => []
  | leaf m l rest => (m, .leaf l) :: rest.entries
  | dir m inside rest => (m, .dir inside) :: rest.entries

@[simp] theorem entries_leaf (m : Meta) (l : Leaf) (rest : Listing) :
    (leaf m l rest).entries = (m, .leaf l) :: rest.entries := rfl

@[simp] theorem entries_dir (m : Meta) (inside rest : Listing) :
    (dir m inside rest).entries = (m, .dir inside) :: rest.entries := rfl

def names (l : Listing) : List OsText := l.entries.map fun e => e.1.name

/-- Induction over the tree, a directory after the ones in it. -/
theorem inside_induction {motive : Listing → Prop}
    (step : ∀ l, (∀ m inside, (m, Node.dir inside) ∈ l.entries → motive inside) → motive l)
    (l : Listing) : motive l := by
  refine step l ?_
  induction l with
  | nil => exact fun _ _ entry => absurd entry List.not_mem_nil
  | leaf m leaf rest ih =>
      intro m' inside' entry
      cases List.mem_cons.mp entry with
      | inl here => cases here
      | inr later => exact ih m' inside' later
  | dir m inside rest ihInside ih =>
      intro m' inside' entry
      cases List.mem_cons.mp entry with
      | inl here => cases here; exact step inside ihInside
      | inr later => exact ih m' inside' later

/-- No separator, and no colon where it would make a drive. -/
def cleanChar (windows : Bool) : OsChar → Bool
  | .char c => !isSep windows c && !(windows && c == ':')
  | .invalid _ => true

/-- A directory has a name only once, and no name is empty or more than one component. -/
def Wellformed (windows : Bool) : Listing → Prop
  | nil => True
  | leaf m _ rest =>
      (m.name ≠ [] ∧ m.name.all (cleanChar windows) = true) ∧ m.name ∉ rest.names ∧
        rest.Wellformed windows
  | dir m inside rest =>
      (m.name ≠ [] ∧ m.name.all (cleanChar windows) = true) ∧ m.name ∉ rest.names ∧
        inside.Wellformed windows ∧
        rest.Wellformed windows

end Listing

/-- A directory tree. -/
structure Tree (windows : Bool) where
  listing : Listing
  wellformed : listing.Wellformed windows

inductive FileType where
  | dir
  | dirLink
  | fileLink
  | file
  deriving DecidableEq

structure FileEntry where
  name : Text
  entryType : FileType
  isHidden : Bool
  size : Nat
  modifiedTime : Nat
  deriving DecidableEq

/-- `OsStr::to_str` -/
def toStr : OsText → Option Text
  | [] => some []
  | .char c :: rest => (toStr rest).map (c :: ·)
  | .invalid _ :: _ => none

def isHidden (windows : Bool) (m : Meta) : Bool :=
  if windows then m.hidden else m.name.head? = some (.char '.')

def visible (windows includeHidden : Bool) (m : Meta) : Bool := includeHidden || !isHidden windows m

def Node.entryType : Node → FileType
  | .dir _ => .dir
  | .leaf (.link true _) => .dirLink
  | .leaf (.link false _) => .fileLink
  | .leaf (.file _) => .file

def Node.size : Node → Nat
  | .leaf (.file size) => size
  | _ => 0

/-- What `read_dir` makes of an entry; one without a text for a name is passed over. -/
def readEntry (windows includeHidden : Bool) (e : Meta × Node) : Option FileEntry :=
  let name := (toStr e.1.name).getD []
  if name = [] then none
  else if isHidden windows e.1 && !includeHidden then none
  else
    some { name, entryType := e.2.entryType, isHidden := isHidden windows e.1
           size := e.2.size, modifiedTime := e.1.modifiedTime }

def readDir (windows includeHidden : Bool) (l : Listing) : List FileEntry :=
  l.entries.filterMap (readEntry windows includeHidden)

/-! ## Paths -/

/-- The directories at the end of a path whose parts are all let through. -/
inductive DirAt (through : Meta → Prop) : Listing → List OsText → Listing → Prop where
  | here (l : Listing) : DirAt through l [] l
  | inside {l inside d : Listing} {m : Meta} {path : List OsText} (entry : (m, .dir inside) ∈ l.entries)
      (passes : through m) (below : DirAt through inside path d) : DirAt through l (m.name :: path) d

/-- An entry, with its path, in a directory that is come to. -/
inductive EntryAt (through : Meta → Prop) (l : Listing) : List OsText → Meta → Node → Prop where
  | mk {path : List OsText} {d : Listing} {m : Meta} {n : Node} (parent : DirAt through l path d)
      (entry : (m, n) ∈ d.entries) (passes : through m) : EntryAt through l (path ++ [m.name]) m n

variable {windows : Bool} {through through' : Meta → Prop} {l d d' : Listing} {path path' : List OsText}
variable {m m' : Meta} {n n' : Node}

theorem DirAt.trans (first : DirAt through l path d) (second : DirAt through d path' d') :
    DirAt through l (path ++ path') d' := by
  induction first with
  | here l => exact second
  | inside entry passes below ih => exact .inside entry passes (ih second)

theorem DirAt.mono (weaken : ∀ m, through m → through' m) (there : DirAt through l path d) :
    DirAt through' l path d := by
  induction there with
  | here l => exact .here l
  | inside entry passes below ih => exact .inside entry (weaken _ passes) ih

theorem DirAt.snoc (there : DirAt through l path d) (entry : (m, .dir d') ∈ d.entries)
    (passes : through m) :
    DirAt through l (path ++ [m.name]) d' :=
  there.trans (.inside entry passes (.here d'))

theorem EntryAt.below {inside : Listing} (entry : (m', .dir inside) ∈ l.entries) (passes : through m')
    (there : EntryAt through inside path m n) : EntryAt through l (m'.name :: path) m n := by
  obtain ⟨parent, entry', passes'⟩ := there
  exact ⟨.inside entry passes parent, entry', passes'⟩

theorem EntryAt.under (above : DirAt through l path d) (there : EntryAt through d path' m n) :
    EntryAt through l (path ++ path') m n := by
  obtain ⟨parent, entry, passes⟩ := there
  rw [← List.append_assoc]
  exact ⟨above.trans parent, entry, passes⟩

theorem EntryAt.path_ne_nil (there : EntryAt through l path m n) : path ≠ [] := by
  obtain ⟨parent, entry, passes⟩ := there
  exact List.concat_ne_nil _ _

/-- An entry is in the directory itself or below one of its directories. -/
theorem entryAt_iff : EntryAt through l path m n ↔
    ((m, n) ∈ l.entries ∧ through m ∧ path = [m.name]) ∨
      ∃ m' inside rest, (m', .dir inside) ∈ l.entries ∧ through m' ∧ EntryAt through inside rest m n ∧
        path = m'.name :: rest := by
  constructor
  · rintro ⟨parent, entry, passes⟩
    cases parent with
    | here => exact .inl ⟨entry, passes, rfl⟩
    | inside entry' passes' below => exact .inr ⟨_, _, _, entry', passes', ⟨below, entry, passes⟩, rfl⟩
  · rintro (⟨entry, passes, rfl⟩ | ⟨m', inside, rest, entry, passes, below, rfl⟩)
    · exact .mk (.here l) entry passes
    · exact below.below entry passes

/-- A directory is the first one or below one of its directories. -/
theorem dirAt_iff : DirAt through l path d ↔
    (path = [] ∧ d = l) ∨
      ∃ m' inside rest, (m', .dir inside) ∈ l.entries ∧ through m' ∧ DirAt through inside rest d ∧
        path = m'.name :: rest := by
  constructor
  · rintro (_ | ⟨entry, passes, below⟩)
    · exact .inl ⟨rfl, rfl⟩
    · exact .inr ⟨_, _, _, entry, passes, below, rfl⟩
  · rintro (⟨rfl, rfl⟩ | ⟨m', inside, rest, entry, passes, below, rfl⟩)
    · exact .here d
    · exact .inside entry passes below

theorem name_mem_names (entry : (m, n) ∈ l.entries) : m.name ∈ l.names :=
  List.mem_map_of_mem entry

namespace Listing.Wellformed

variable (fine : l.Wellformed windows)

include fine

theorem inside (entry : (m, .dir d) ∈ l.entries) :
    d.Wellformed windows := by
  induction l with
  | nil => exact absurd entry List.not_mem_nil
  | leaf m' leaf rest ih =>
      cases List.mem_cons.mp entry with
      | inl here => cases here
      | inr later => exact ih fine.2.2 later
  | dir m' inside' rest _ ih =>
      cases List.mem_cons.mp entry with
      | inl here => cases here; exact fine.2.2.1
      | inr later => exact ih fine.2.2.2 later

theorem clean (entry : (m, n) ∈ l.entries) :
    m.name ≠ [] ∧ m.name.all (cleanChar windows) = true := by
  induction l with
  | nil => exact absurd entry List.not_mem_nil
  | leaf m' leaf rest ih =>
      cases List.mem_cons.mp entry with
      | inl here => cases here; exact fine.1
      | inr later => exact ih fine.2.2 later
  | dir m' inside' rest _ ih =>
      cases List.mem_cons.mp entry with
      | inl here => cases here; exact fine.1
      | inr later => exact ih fine.2.2.2 later

/-- A name belongs to one entry. -/
theorem unique (entry : (m, n) ∈ l.entries) (entry' : (m', n') ∈ l.entries)
    (same : m.name = m'.name) : (m, n) = (m', n') := by
  induction l with
  | nil => exact absurd entry List.not_mem_nil
  | leaf m₀ leaf rest ih =>
      cases List.mem_cons.mp entry with
      | inl here =>
          cases List.mem_cons.mp entry' with
          | inl here' => exact here.trans here'.symm
          | inr later' => cases here; exact absurd (same ▸ name_mem_names later') fine.2.1
      | inr later =>
          cases List.mem_cons.mp entry' with
          | inl here' => cases here'; exact absurd (same ▸ name_mem_names later) fine.2.1
          | inr later' => exact ih fine.2.2 later later'
  | dir m₀ inside rest _ ih =>
      cases List.mem_cons.mp entry with
      | inl here =>
          cases List.mem_cons.mp entry' with
          | inl here' => exact here.trans here'.symm
          | inr later' => cases here; exact absurd (same ▸ name_mem_names later') fine.2.1
      | inr later =>
          cases List.mem_cons.mp entry' with
          | inl here' => cases here'; exact absurd (same ▸ name_mem_names later) fine.2.1
          | inr later' => exact ih fine.2.2.2 later later'

theorem dirAt (there : DirAt through l path d) :
    d.Wellformed windows := by
  induction there with
  | here l => exact fine
  | inside entry passes below ih => exact ih (fine.inside entry)

end Listing.Wellformed

/-- A longer path goes through the directory at the shorter one. -/
theorem DirAt.split (fine : l.Wellformed windows) (there : DirAt through l path d)
    (longer : DirAt through' l (path ++ path') d') : DirAt through' d path' d' := by
  induction there with
  | here l => exact longer
  | @inside l inside d m path entry passes below ih =>
      generalize whole : (m.name :: path) ++ path' = path'' at longer
      cases longer with
      | here => cases whole
      | inside entry' passes' below' =>
          obtain ⟨same, rfl⟩ := List.cons.inj whole
          cases fine.unique entry entry' same
          exact ih (fine.inside entry) below'

/-- A path leads to one directory. -/
theorem DirAt.unique (fine : l.Wellformed windows) (there : DirAt through l path d)
    (there' : DirAt through' l path d') : d = d' := by
  rw [← List.append_nil path] at there'
  cases there.split fine there'
  rfl

theorem EntryAt.split (fine : l.Wellformed windows) (there : DirAt through l path d)
    (longer : EntryAt through' l (path ++ path') m n) (proper : path' ≠ []) :
    EntryAt through' d path' m n := by
  generalize whole : path ++ path' = file at longer
  obtain ⟨parent, entry, passes⟩ := longer
  obtain rfl | ⟨front, last, rfl⟩ := List.eq_nil_or_concat path'
  · exact absurd rfl proper
  · rw [List.concat_eq_append, ← List.append_assoc] at whole
    obtain ⟨rfl, same⟩ := List.append_inj' whole rfl
    cases same
    rw [List.concat_eq_append]
    exact .mk (there.split fine parent) entry passes

end RemoteControl.Transfer.Directory
