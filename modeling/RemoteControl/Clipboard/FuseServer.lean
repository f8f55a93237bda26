import RemoteControl.Clipboard.FuseTree

/-! # Serving the tree

`FuseServer` of `clipboard/src/platform/unix/fuse/cs.rs` shows the files of the peer as a file
system. Every callback finds its node by an inode of the system, and the children of a node by
the inodes in it: these are indices without a check, which is right because the nodes are
always a tree.
-/

namespace RemoteControl.Clipboard.FuseTree

inductive Errno where
  | enametoolong
  | enoent
  | enotdir
  | ebusy
  | ebadf
  | enfile
  deriving DecidableEq

structure DirEntry where
  inode : Nat
  kind : FileType
  name : List Char
  deriving DecidableEq

inductive Reply where
  | error (errno : Errno)
  | entry (attributes : InodeAttributes) (generation : UInt64)
  | attr (attributes : InodeAttributes)
  | opened (fh : UInt64)
  | directory (entries : List (DirEntry × Nat))
  /-- `read_node` asks the peer for a range of the file. -/
  | reads (node : FuseNode)
  | loaded (result : Except CliprdrError Unit)
  | ok

structure FuseServer where
  generation : UInt64
  files : List FuseNode
  fileHandleCounter : UInt64

/-- `MAX_NAME_LEN` -/
def maxNameLen : Nat := 255

/-- The length of an `OsStr` in bytes. -/
def byteLength (name : OsText) : Nat :=
  (name.map fun
    | .char c => c.utf8Size
    | .invalid bytes => bytes.length).sum

namespace FuseNode

/-- It panics when the node is marked. -/
def addHandler (fh : UInt64) (node : FuseNode) : Option FuseNode :=
  if node.gc then none else some { node with handlers := node.handlers ++ [fh] }

/-- The handlers are in order, and a binary search finds what is there. -/
def haveHandler (fh : UInt64) (node : FuseNode) : Bool := node.handlers.contains fh

def unregisterHandler (fh : UInt64) (node : FuseNode) : FuseNode :=
  { node with handlers := node.handlers.erase fh }

def dirEntry (inode : Nat) (node : FuseNode) : DirEntry := ⟨inode, node.attributes.kind, node.name⟩

end FuseNode

namespace FuseServer

def new : FuseServer := ⟨0, [], 0⟩

/-- What takes the place of the node of an inode. -/
def setEntry (ino : Nat) (node : FuseNode) (s : FuseServer) : FuseServer :=
  { s with files := s.files.set (ino - 1) node }

def loadFileList (draws : Nat → Draw) (files : List FileDescription) (s : FuseServer) :
    Option (FuseServer × Except CliprdrError Unit) :=
  match buildTree draws files with
  | none => none
  | some (.error e) => some (s, .error e)
  | some (.ok tree) => some ({ s with files := tree, generation := s.generation + 1 }, .ok ())

def init (draw : Draw) (s : FuseServer) : FuseServer :=
  if s.files = [] then { s with files := [.newRoot draw] } else s

/-- The loop over the children of a directory. -/
def findChild (files : List FuseNode) (name : OsText) : List Nat → Option (Option FuseNode)
  | [] => some none
  | inode :: rest =>
      match entryAt files inode with
      | none => none
      | some child =>
        if child.name.map .char = name then some (some child) else findChild files name rest

def lookup (parent : Nat) (name : OsText) (s : FuseServer) : Option Reply :=
  if byteLength name > maxNameLen then some (.error .enametoolong)
  else
    match entryAt s.files parent with
    | none => some (.error .enoent)
    | some parentEntry =>
        if parentEntry.attributes.kind ≠ .directory then some (.error .enotdir)
        else
          match findChild s.files name parentEntry.children with
          | none => none
          | some none => some (.error .enoent)
          | some (some child) => some (.entry child.attributes s.generation)

/-- `opendir` and `open`, each for one kind of node. -/
def openEntry (kind : FileType) (other : Errno) (ino : Nat) (s : FuseServer) :
    Option (FuseServer × Reply) :=
  match entryAt s.files ino with
  | none => some (s, .error .enoent)
  | some entry =>
      if entry.attributes.kind ≠ kind then some (s, .error other)
      else if entry.gc then some (s, .error .ebusy)
      else
        let fh := s.fileHandleCounter
        match entry.addHandler fh with
        | none => none
        | some entry =>
            some ({ s with fileHandleCounter := fh + 1 }.setEntry ino entry, .opened fh)

def opendir (ino : Nat) (s : FuseServer) : Option (FuseServer × Reply) :=
  s.openEntry .directory .enotdir ino

def openFile (ino : Nat) (s : FuseServer) : Option (FuseServer × Reply) :=
  s.openEntry .file .enfile ino

/-- `children` with the nodes they stand for. -/
def childEntries (files : List FuseNode) (children : List Nat) : Option (List DirEntry) :=
  children.mapM fun inode => (entryAt files inode).map (·.dirEntry inode)

/-- The entries from the offset on that there is room for, each with the offset of the next. -/
def readdir (ino : Nat) (fh : UInt64) (offset : Int64) (room : Nat) (s : FuseServer) : Option Reply :=
  match entryAt s.files ino with
  | none => some (.error .enoent)
  | some entry =>
      if entry.haveHandler fh = false then some (.error .ebadf)
      else if entry.attributes.kind ≠ .directory then some (.error .enotdir)
      else
        match childEntries s.files entry.children with
        | none => none
        | some children =>
            let above := entry.parent.toList.map fun parent => ⟨parent, .directory, ['.', '.']⟩
            let entries := ⟨ino, .directory, ['.']⟩ :: above ++ children
            some (.directory (((entries.zipIdx 1).drop offset.toUInt64.toNat).take room))

def releasedir (ino : Nat) (fh : UInt64) (s : FuseServer) : FuseServer × Reply :=
  match entryAt s.files ino with
  | none => (s, .error .enoent)
  | some entry =>
      if entry.attributes.kind ≠ .directory then (s, .error .enotdir)
      else if entry.haveHandler fh = false then (s, .error .ebadf)
      else (s.setEntry ino (entry.unregisterHandler fh), .ok)

def read (ino : Nat) (fh : UInt64) (s : FuseServer) : Reply :=
  match entryAt s.files ino with
  | none => .error .enoent
  | some entry =>
      if entry.haveHandler fh = false then .error .ebadf
      else if entry.attributes.kind ≠ .file then .error .enfile
      else if entry.gc then .error .ebusy
      else .reads entry

def release (ino : Nat) (fh : UInt64) (s : FuseServer) : FuseServer × Reply :=
  match entryAt s.files ino with
  | none => (s, .error .enoent)
  | some entry =>
      if entry.haveHandler fh = false then (s, .error .ebadf)
      else (s.setEntry ino (entry.unregisterHandler fh), .ok)

def getattr (ino : Nat) (s : FuseServer) : Reply :=
  match entryAt s.files ino with
  | none => .error .enoent
  | some entry => .attr entry.attributes

/-- The names in the root, for a list that has been loaded. -/
def listRoot (s : FuseServer) : Option (List (List Char)) :=
  match s.files with
  | [] => none
  | root :: _ => root.children.mapM fun inode => (entryAt s.files inode).map (·.name)

end FuseServer

inductive FuseCall where
  | init (draw : Draw)
  | loadFileList (draws : Nat → Draw) (files : List FileDescription)
  | lookup (parent : Nat) (name : OsText)
  | opendir (ino : Nat)
  | readdir (ino : Nat) (fh : UInt64) (offset : Int64) (room : Nat)
  | releasedir (ino : Nat) (fh : UInt64)
  | openFile (ino : Nat)
  | read (ino : Nat) (fh : UInt64)
  | release (ino : Nat) (fh : UInt64)
  | getattr (ino : Nat)

namespace FuseServer

/-- A call that panics has no result. -/
def call (s : FuseServer) : FuseCall → Option (FuseServer × Reply)
  | .init draw => some (s.init draw, .ok)
  | .loadFileList draws files => (s.loadFileList draws files).map (Prod.map id .loaded)
  | .lookup parent name => (s.lookup parent name).map (Prod.mk s)
  | .opendir ino => s.opendir ino
  | .readdir ino fh offset room => (s.readdir ino fh offset room).map (Prod.mk s)
  | .releasedir ino fh => some (s.releasedir ino fh)
  | .openFile ino => s.openFile ino
  | .read ino fh => some (s, s.read ino fh)
  | .release ino fh => some (s.release ino fh)
  | .getattr ino => some (s, s.getattr ino)

/-- The calls one after the other, as long as none panics. -/
def serve (calls : List FuseCall) (s : FuseServer) : Option FuseServer :=
  calls.foldlM (fun s c => (s.call c).map Prod.fst) s

/-! ## What always holds -/

/-- Before the first list and before `init` there is not even a root. -/
def Sound (s : FuseServer) : Prop := s.files = [] ∨ ∃ files, IsTree files s.files

variable {s : FuseServer} {ino : Nat} {entry entry' : FuseNode} {files : List FuseNode}
  {children : List Nat}

theorem sound_new : new.Sound := .inl rfl

/-- Where there is a node there is a tree. -/
theorem Sound.isTree (sound : s.Sound) (found : entryAt s.files ino = some entry) :
    ∃ files, IsTree files s.files := by
  rcases sound with empty | isTree
  · rw [empty] at found
    cases ino <;> cases found
  · exact isTree

/-- The index of a child is in range. -/
theorem Sound.child (sound : s.Sound) (found : entryAt s.files ino = some entry) {child : Nat}
    (member : child ∈ entry.children) : ∃ node, entryAt s.files child = some node := by
  obtain ⟨files, isTree⟩ := sound.isTree found
  obtain ⟨i, file, rfl, listed⟩ := isTree.child_listed found member
  obtain ⟨node, here, -⟩ := isTree.node i file listed
  exact ⟨node, here⟩

theorem Sound.init (sound : s.Sound) (draw : Draw) : (s.init draw).Sound := by
  unfold FuseServer.init
  split_ifs with empty
  · exact .inr ⟨[], isTree_start draw⟩
  · exact sound

/-- Only the handles of a node change. -/
structure SameNode (entry entry' : FuseNode) : Prop extends entry.Grows entry' where
  sameChildren : entry'.children = entry.children

theorem sameNode_addHandler {fh : UInt64} (added : entry.addHandler fh = some entry') :
    SameNode entry entry' := by
  unfold FuseNode.addHandler at added
  split_ifs at added
  cases added
  exact ⟨⟨rfl, rfl, rfl, rfl, fun _ => id⟩, rfl⟩

theorem sameNode_unregisterHandler (fh : UInt64) (entry : FuseNode) :
    SameNode entry (entry.unregisterHandler fh) :=
  ⟨⟨rfl, rfl, rfl, rfl, fun _ => id⟩, rfl⟩

theorem Sound.setEntry (sound : s.Sound) (found : entryAt s.files ino = some entry)
    (same : SameNode entry entry') : (s.setEntry ino entry').Sound := by
  obtain ⟨files, isTree⟩ := sound.isTree found
  cases ino with
  | zero => cases found
  | succ i =>
      obtain ⟨inside, rfl⟩ := List.getElem?_eq_some_iff.mp found
      refine .inr ⟨files, isTree.grow ?_ List.length_set ?_⟩
      · intro q node here
        have moved := @entryAt_modify s.files q (i + 1) (fun _ => entry') (Nat.succ_ne_zero i)
        rw [← List.set_eq_modify, here, Option.map_some] at moved
        refine ⟨_, moved, ?_⟩
        split_ifs with changed
        · rw [changed, found] at here
          cases here
          exact same.toGrows
        · exact .refl node
      · rw [List.flatMap_def, List.flatMap_def, setEntry, Nat.add_sub_cancel, List.map_set,
          same.sameChildren]
        have unchanged := @List.set_getElem_self _ (s.files.map (·.children)) i (by simpa using inside)
        rw [List.getElem_map] at unchanged
        rw [unchanged]

theorem Sound.loadFileList (sound : s.Sound) (draws : Nat → Draw) (files : List FileDescription) :
    ∃ s' result, s.loadFileList draws files = some (s', result) ∧ s'.Sound := by
  have built := buildTree_spec draws files
  unfold FuseServer.loadFileList
  cases outcome : buildTree draws files with
  | none =>
      rw [outcome] at built
      cases built
  | some result =>
      rw [outcome] at built
      cases result with
      | error e => exact ⟨s, .error e, rfl, sound⟩
      | ok tree => exact ⟨_, .ok (), rfl, .inr ⟨files, built⟩⟩

theorem findChild_some (name : OsText)
    (there : ∀ child ∈ children, ∃ node, entryAt files child = some node) :
    ∃ outcome, findChild files name children = some outcome := by
  induction children with
  | nil => exact ⟨none, rfl⟩
  | cons inode rest ih =>
      obtain ⟨node, here⟩ := there inode (List.mem_cons_self ..)
      unfold findChild
      rw [here]
      dsimp only
      split_ifs
      · exact ⟨some node, rfl⟩
      · exact ih fun child member => there child (List.mem_cons_of_mem inode member)

/-- The nodes of all children, with whatever is asked of them. -/
theorem mapM_entryAt_some {α : Type} (f : Nat → FuseNode → α)
    (there : ∀ child ∈ children, ∃ node, entryAt files child = some node) :
    ∃ entries, (children.mapM fun inode => (entryAt files inode).map (f inode)) = some entries := by
  induction children with
  | nil => exact ⟨[], rfl⟩
  | cons inode rest ih =>
      obtain ⟨node, here⟩ := there inode (List.mem_cons_self ..)
      obtain ⟨entries, rest_⟩ := ih fun child member => there child (List.mem_cons_of_mem inode member)
      rw [List.mapM_cons, here, rest_]
      exact ⟨f inode node :: entries, rfl⟩

/-- After a list has been loaded its names can be read. -/
theorem listRoot_some {files : List FileDescription} (isTree : IsTree files s.files) :
    ∃ names, s.listRoot = some names := by
  obtain ⟨root, found, -⟩ := isTree.root
  have there (child : Nat) : child ∈ root.children → ∃ node, entryAt s.files child = some node :=
    Sound.child (.inr ⟨files, isTree⟩) found
  obtain ⟨names, listed⟩ := mapM_entryAt_some (fun _ node => node.name) there
  refine ⟨names, ?_⟩
  unfold listRoot
  cases nodes : s.files with
  | nil =>
      rw [nodes] at found
      cases found
  | cons first rest =>
      rw [nodes] at found listed
      cases found
      exact listed

variable (sound : s.Sound)

include sound

theorem Sound.lookup (parent : Nat) (name : OsText) :
    ∃ reply, s.lookup parent name = some reply := by
  unfold FuseServer.lookup
  split_ifs
  · exact ⟨_, rfl⟩
  · cases found : entryAt s.files parent with
    | none => exact ⟨_, rfl⟩
    | some entry =>
        dsimp only
        split_ifs
        · exact ⟨_, rfl⟩
        · obtain ⟨outcome, searched⟩ := findChild_some name fun child => sound.child found
          rw [searched]
          cases outcome <;> exact ⟨_, rfl⟩

theorem Sound.readdir (ino : Nat) (fh : UInt64) (offset : Int64) (room : Nat) :
    ∃ reply, s.readdir ino fh offset room = some reply := by
  unfold FuseServer.readdir
  cases found : entryAt s.files ino with
  | none => exact ⟨_, rfl⟩
  | some entry =>
      dsimp only
      split_ifs
      · exact ⟨_, rfl⟩
      · exact ⟨_, rfl⟩
      · obtain ⟨children, listed⟩ :=
          mapM_entryAt_some (fun inode node => node.dirEntry inode) fun child => sound.child found
        rw [childEntries, listed]
        exact ⟨_, rfl⟩

theorem Sound.openEntry (kind : FileType) (other : Errno) (ino : Nat) :
    ∃ s' reply, s.openEntry kind other ino = some (s', reply) ∧ s'.Sound := by
  unfold FuseServer.openEntry
  cases found : entryAt s.files ino with
  | none => exact ⟨s, _, rfl, sound⟩
  | some entry =>
      dsimp only
      split_ifs with isOther marked
      · exact ⟨s, _, rfl, sound⟩
      · exact ⟨s, _, rfl, sound⟩
      · have added : entry.addHandler s.fileHandleCounter = some _ := if_neg marked
        rw [added]
        exact ⟨_, _, rfl,
          Sound.setEntry (s := { s with fileHandleCounter := _ }) sound found
          (sameNode_addHandler added)⟩

theorem Sound.releasedir (ino : Nat) (fh : UInt64) :
    (s.releasedir ino fh).1.Sound := by
  unfold FuseServer.releasedir
  cases found : entryAt s.files ino with
  | none => exact sound
  | some entry =>
      dsimp only
      split_ifs
      · exact sound
      · exact sound
      · exact sound.setEntry found (sameNode_unregisterHandler fh entry)

theorem Sound.release (ino : Nat) (fh : UInt64) : (s.release ino fh).1.Sound := by
  unfold FuseServer.release
  cases found : entryAt s.files ino with
  | none => exact sound
  | some entry =>
      dsimp only
      split_ifs
      · exact sound
      · exact sound.setEntry found (sameNode_unregisterHandler fh entry)

/-- No callback panics, and the next one finds a tree again. -/
theorem Sound.call (c : FuseCall) :
    ∃ s' reply, s.call c = some (s', reply) ∧ s'.Sound := by
  cases c with
  | init draw => exact ⟨_, _, rfl, sound.init draw⟩
  | loadFileList draws files =>
      obtain ⟨s', result, loaded, sound'⟩ := sound.loadFileList draws files
      exact ⟨s', .loaded result, congrArg (Option.map _) loaded, sound'⟩
  | lookup parent name =>
      obtain ⟨reply, found⟩ := sound.lookup parent name
      exact ⟨s, reply, congrArg (Option.map _) found, sound⟩
  | opendir ino => exact sound.openEntry .directory .enotdir ino
  | readdir ino fh offset room =>
      obtain ⟨reply, listed⟩ := sound.readdir ino fh offset room
      exact ⟨s, reply, congrArg (Option.map _) listed, sound⟩
  | releasedir ino fh => exact ⟨_, _, rfl, sound.releasedir ino fh⟩
  | openFile ino => exact sound.openEntry .file .enfile ino
  | read ino fh => exact ⟨s, _, rfl, sound⟩
  | release ino fh => exact ⟨_, _, rfl, sound.release ino fh⟩
  | getattr ino => exact ⟨s, _, rfl, sound⟩

theorem Sound.serve (calls : List FuseCall) :
    ∃ s', s.serve calls = some s' ∧ s'.Sound := by
  induction calls generalizing s with
  | nil => exact ⟨s, rfl, sound⟩
  | cons c rest ih =>
      obtain ⟨next, reply, called, sound'⟩ := sound.call c
      obtain ⟨last, served, sound''⟩ := ih sound'
      refine ⟨last, ?_, sound''⟩
      rw [FuseServer.serve, List.foldlM_cons, called]
      exact served

end FuseServer

/-- After whatever calls, none of which has an index out of range: a list of files that is
    accepted becomes a tree, and one that is not leaves the old tree in place. The names that
    lead to a node are what its path has after a prefix, if the files are under the prefix or
    under directories that are listed before them. -/
theorem every_list_is_a_tree (calls : List FuseCall) :
    ∃ s, FuseServer.new.serve calls = some s ∧ ∀ draws files,
      match buildTree draws files with
      | none => False
      | some (.error e) => s.loadFileList draws files = some (s, .error e)
      | some (.ok tree) =>
          s.loadFileList draws files =
              some ({ s with files := tree, generation := s.generation + 1 }, .ok ()) ∧
            (∃ names, { s with files := tree }.listRoot = some names) ∧
            IsTree files tree ∧ (∀ i node, tree[i + 1]? = some node → IsComponent node.name) ∧
            (∀ i < files.length, ∃ names, Spells tree (i + 2) names) ∧
            ∀ root, Listed root files → ∀ i file names, files[i]? = some file →
              Spells tree (i + 2) names →
                path file = root ++ names.map fun name => .name (name.map .char) := by
  obtain ⟨s, served, sound⟩ := FuseServer.sound_new.serve calls
  refine ⟨s, served, ?_⟩
  intro draws files
  have built := buildTree_spec draws files
  cases outcome : buildTree draws files with
  | none =>
      rw [outcome] at built
      exact built
  | some result =>
      rw [outcome] at built
      cases result with
      | error e =>
          change s.loadFileList draws files = some (s, .error e)
          rw [FuseServer.loadFileList, outcome]
      | ok tree =>
          refine ⟨by rw [FuseServer.loadFileList, outcome], ?_, built, ?_, ?_, ?_⟩
          · exact FuseServer.listRoot_some (s := { s with files := tree }) built
          · intro i node here
            obtain ⟨file, listed⟩ := built.listed_of_entry here
            obtain ⟨node', here', hangs⟩ := built.node i file listed
            cases here.symm.trans here'
            exact hangs.isComponent
          · exact fun i inside => built.exists_spells (List.getElem?_eq_getElem inside)
          · intro root within i file names listed spells
            rcases built.path_of_spells within spells with ⟨impossible, -⟩ | ⟨j, file', same,
              listed', spelled⟩
            · cases impossible
            · cases same
              cases listed.symm.trans listed'
              exact spelled

/-- The name of the root is no such component. -/
theorem root_name_is_separator :
    ¬ ∀ draws files tree, buildTree draws files = some (.ok tree) →
      ∀ node ∈ tree, IsComponent node.name := by
  intro all
  have named := all (fun _ => ⟨0, 0⟩) [] [.newRoot ⟨0, 0⟩] rfl _ (List.mem_singleton_self _)
  exact named.2.2.2 (List.mem_singleton_self '/')

end RemoteControl.Clipboard.FuseTree
