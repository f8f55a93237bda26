import Mathlib.Data.List.Nodup
import Mathlib.Data.Set.List
import RemoteControl.Clipboard.PathBuf

/-! # The tree of a list of files

`FuseNode::build_tree` of `clipboard/src/platform/unix/fuse/cs.rs` makes the nodes of a file
system from the list of files that the peer has sent. A file hangs from the directory that
was listed last under the path of its parent, or from the root. Whatever the list says, the
result is a tree in which every node comes after its parent.
-/

namespace RemoteControl.Clipboard.FuseTree

/-- `FUSE_ROOT_ID` -/
def rootId : Nat := 1

def permRwx : Nat := 0o755

structure InodeAttributes where
  inode : Nat
  size : Nat
  lastAccessed : Nat
  lastModified : Nat
  lastMetadataChanged : Nat
  creationTime : Nat
  kind : FileType
  perm : Nat
  deriving DecidableEq

/-- What a node gets from outside: a random number and the time. -/
structure Draw where
  streamId : Int32
  now : Nat

def InodeAttributes.fromDescription (now : Nat) (inode : Nat) (desc : FileDescription) :
    InodeAttributes where
  inode := inode
  size := desc.size
  lastAccessed := now
  lastModified := desc.lastModified
  lastMetadataChanged := desc.lastMetadataChanged
  creationTime := desc.creationTime
  kind := desc.kind
  perm := desc.perm

def InodeAttributes.newRoot (now : Nat) : InodeAttributes where
  inode := rootId
  size := 0
  lastAccessed := now
  lastModified := now
  lastMetadataChanged := now
  creationTime := now
  kind := .directory
  perm := permRwx

/-- `FileHandles` are a part of the node here. -/
structure FuseNode where
  connId : Int32
  streamId : Int32
  /-- The place in the list of the peer. -/
  index : Nat
  parent : Option Nat
  name : List Char
  attributes : InodeAttributes
  children : List Nat
  handlers : List UInt64
  gc : Bool
  deriving DecidableEq

namespace FuseNode

/-- `from_description`, with `name` in the place of the name in the description. -/
def fromDescription (draw : Draw) (inode : Nat) (desc : FileDescription) (name : OsText) :
    FuseNode where
  connId := desc.connId
  streamId := draw.streamId
  index := inode - 2
  parent := none
  name := name.toStr.getD []
  attributes := .fromDescription draw.now inode desc
  children := []
  handlers := []
  gc := false

def newRoot (draw : Draw) : FuseNode where
  connId := 0
  streamId := draw.streamId
  index := 0
  parent := none
  name := ['/']
  attributes := .newRoot draw.now
  children := []
  handlers := []
  gc := false

def addChild (inode : Nat) (node : FuseNode) : FuseNode :=
  { node with children := node.children ++ [inode] }

end FuseNode

/-- `nodes[inode as usize - 1]` and `nodes.get(inode as usize - 1)`: nothing has the inode 0. -/
def entryAt (nodes : List FuseNode) : Nat → Option FuseNode
  | 0 => none
  | i + 1 => nodes[i]?

/-- The name of a description is a path that is text. -/
def path (file : FileDescription) : PathBuf := OsText.components (file.name.map .char)

/-- A part of text is text. -/
theorem exists_text {file : FileDescription} {name : OsText}
    (named : (path file).fileName = some name) :
    ∃ text : List Char, name = text.map .char := by
  obtain ⟨above, same, -⟩ := PathBuf.of_fileName named
  have member : .name name ∈ path file := same ▸ List.mem_append_right _ (List.mem_singleton_self _)
  obtain ⟨-, -, whole⟩ := OsText.name_of_components member
  have chars (c : OsChar) (inside : c ∈ name) : c ∈ Set.range OsChar.char := by
    obtain ⟨char, -, same⟩ := List.mem_map.mp (whole c inside).1
    exact ⟨char, same⟩
  obtain ⟨text, same⟩ := (Set.range_list_map OsChar.char).superset chars
  exact ⟨text, same.symm⟩

/-- The variables of the loop. A later entry of the map replaces an earlier one. -/
structure Building where
  treeList : List FuseNode
  subRootMap : List (PathBuf × Nat)

namespace Building

def start (draw : Draw) : Building where
  treeList := [.newRoot draw]
  subRootMap := [([], rootId), ([.root], rootId)]

def parentInode (file : FileDescription) (b : Building) : Nat :=
  match (path file).parent with
  | some parent => (b.subRootMap.lookup parent).getD rootId
  | none => rootId

def invalidName (file : FileDescription) : CliprdrError :=
  .fileError file.name ("invalid file name " ++ String.ofList file.name)

/-- One turn of the loop. It panics if there is no parent to add the child to. -/
def addFile (draw : Draw) (file : FileDescription) (b : Building) :
    Option (Except CliprdrError Building) :=
  let inode := b.treeList.length + rootId
  let parentInode := b.parentInode file
  match entryAt b.treeList parentInode with
  | none => none
  | some _ =>
      let treeList := b.treeList.modify (parentInode - 1) (.addChild inode)
      match (path file).fileName with
      | none => some (.error (invalidName file))
      | some baseName =>
          let node := FuseNode.fromDescription draw inode file baseName
          some (.ok
            { treeList := treeList ++ [{ node with parent := some parentInode }]
              subRootMap :=
                if file.kind = .directory then (path file, inode) :: b.subRootMap
                else b.subRootMap })

end Building

def buildLoop (draws : Nat → Draw) : List FileDescription → Building →
    Option (Except CliprdrError Building)
  | [], b => some (.ok b)
  | file :: rest, b =>
      match b.addFile (draws b.treeList.length) file with
      | none => none
      | some (.error e) => some (.error e)
      | some (.ok b) => buildLoop draws rest b

/-- The nodes of a list of files, the root first. -/
def buildTree (draws : Nat → Draw) (files : List FileDescription) :
    Option (Except CliprdrError (List FuseNode)) :=
  match buildLoop draws files (.start (draws 0)) with
  | none => none
  | some (.error e) => some (.error e)
  | some (.ok b) => some (.ok b.treeList)

/-! ## What the tree is -/

/-- Where the files of a directory belong: with a directory that has its path, or with the
    root if none was listed. -/
def Places (done : List FileDescription) (directory : PathBuf) (inode : Nat) : Prop :=
  (inode = rootId ∧ ∀ dir ∈ done, dir.kind = .directory → path dir ≠ directory) ∨
    ∃ j dir, done[j]? = some dir ∧ dir.kind = .directory ∧ path dir = directory ∧ inode = j + 2

/-- The node of the file at the place `i` of the list. -/
structure Hangs (files : List FileDescription) (tree : List FuseNode) (i : Nat)
    (file : FileDescription) (node : FuseNode) : Prop where
  inode : node.attributes.inode = i + 2
  index : node.index = i
  kind : node.attributes.kind = file.kind
  named : (path file).fileName = some (node.name.map .char)
  parent : ∃ p above, node.parent = some p ∧ p < i + 2 ∧ entryAt tree p = some above ∧
    above.attributes.kind = .directory ∧ i + 2 ∈ above.children ∧
    ∀ directory, (path file).parent = some directory → Places (files.take i) directory p

def IsRoot (node : FuseNode) : Prop :=
  node.attributes.inode = rootId ∧ node.attributes.kind = .directory ∧ node.parent = none ∧
    node.index = 0 ∧ node.name = ['/']

/-- The nodes of the files after the root, each once among the children of its parent. -/
structure IsTree (files : List FileDescription) (tree : List FuseNode) : Prop where
  length : tree.length = files.length + 1
  root : ∃ node, entryAt tree rootId = some node ∧ IsRoot node
  node : ∀ i file, files[i]? = some file →
    ∃ node, entryAt tree (i + 2) = some node ∧ Hangs files tree i file node
  children : (tree.flatMap (·.children)).Perm (List.range' 2 files.length)

section Entries

variable {nodes : List FuseNode} {inode : Nat} {node : FuseNode}

theorem entryAt_succ (i : Nat) : entryAt nodes (i + 1) = nodes[i]? := rfl

theorem entryAt_append (more : List FuseNode) (found : entryAt nodes inode = some node) :
    entryAt (nodes ++ more) inode = some node := by
  cases inode with
  | zero => cases found
  | succ i =>
      obtain ⟨inside, -⟩ := List.getElem?_eq_some_iff.mp found
      exact (List.getElem?_append_left inside).trans found

theorem entryAt_concat (node : FuseNode) : entryAt (nodes ++ [node]) (nodes.length + 1) = some node :=
  List.getElem?_concat_length

theorem entryAt_modify {p : Nat} (f : FuseNode → FuseNode) (positive : p ≠ 0) :
    entryAt (nodes.modify (p - 1) f) inode =
      (entryAt nodes inode).map fun node => if inode = p then f node else node := by
  obtain ⟨k, rfl⟩ := Nat.exists_eq_succ_of_ne_zero positive
  cases inode with
  | zero => rfl
  | succ i =>
      have moved :
          (nodes.modify k f)[i]? = (nodes[i]?).map fun node => if k = i then f node else node :=
        List.getElem?_modify f k nodes i
      simpa only [Nat.succ_eq_add_one, Nat.add_sub_cancel, Nat.add_right_cancel_iff, eq_comm,
        entryAt_succ] using moved

/-- The new child is added to the children of all. -/
theorem flatMap_addChild {k : Nat} (inode : Nat) (inside : k < nodes.length) :
    ((nodes.modify k (.addChild inode)).flatMap (·.children)).Perm
      (inode :: nodes.flatMap (·.children)) := by
  induction nodes generalizing k with
  | nil => cases inside
  | cons first rest ih =>
      cases k with
      | zero =>
          rw [List.modify_zero_cons, List.flatMap_cons, List.flatMap_cons, FuseNode.addChild,
            List.append_assoc]
          exact List.perm_middle
      | succ k =>
          rw [List.modify_succ_cons, List.flatMap_cons, List.flatMap_cons]
          exact ((ih (Nat.lt_of_succ_lt_succ inside)).append_left _).trans List.perm_middle

end Entries

/-- A node may get other handles and more children. -/
structure FuseNode.Grows (node node' : FuseNode) : Prop where
  attributes : node'.attributes = node.attributes
  index : node'.index = node.index
  parent : node'.parent = node.parent
  name : node'.name = node.name
  children : node.children ⊆ node'.children

def Grows (tree tree' : List FuseNode) : Prop :=
  ∀ inode node, entryAt tree inode = some node →
    ∃ node', entryAt tree' inode = some node' ∧ node.Grows node'

section Growing

variable {files : List FileDescription} {tree tree' : List FuseNode} {i : Nat}
  {file : FileDescription} {node node' : FuseNode} {directory : PathBuf} {p : Nat}

theorem FuseNode.Grows.refl (node : FuseNode) : node.Grows node := ⟨rfl, rfl, rfl, rfl, fun _ => id⟩

theorem FuseNode.grows_addChild (inode : Nat) (node : FuseNode) : node.Grows (node.addChild inode) :=
  ⟨rfl, rfl, rfl, rfl, fun _ => List.mem_append_left _⟩

theorem FuseNode.Grows.isRoot (grows : node.Grows node') (isRoot : IsRoot node) : IsRoot node' := by
  unfold IsRoot
  rw [grows.attributes, grows.index, grows.parent, grows.name]
  exact isRoot

theorem Hangs.grow (hangs : Hangs files tree i file node) (grow : Grows tree tree')
    (grows : node.Grows node') : Hangs files tree' i file node' := by
  obtain ⟨p, above, parent, smaller, found, isDir, child, places⟩ := hangs.parent
  obtain ⟨above', found', grown⟩ := grow p above found
  exact
    { inode := grows.attributes ▸ hangs.inode
      index := grows.index.trans hangs.index
      kind := grows.attributes ▸ hangs.kind
      named := grows.name ▸ hangs.named
      parent := ⟨p, above', grows.parent.trans parent, smaller, found', grown.attributes ▸ isDir,
        grown.children child, places⟩ }

theorem Hangs.append (hangs : Hangs files tree i file node) (inside : i ≤ files.length)
    (more : List FileDescription) : Hangs (files ++ more) tree i file node := by
  obtain ⟨p, above, parent, smaller, found, isDir, child, places⟩ := hangs.parent
  refine { hangs with parent := ⟨p, above, parent, smaller, found, isDir, child, ?_⟩ }
  rwa [List.take_append_of_le_length inside]

/-- Changes of the handles keep the tree. -/
theorem IsTree.grow (isTree : IsTree files tree) (grow : Grows tree tree')
    (length : tree'.length = tree.length)
    (children : tree'.flatMap (·.children) = tree.flatMap (·.children)) : IsTree files tree' where
  length := length.trans isTree.length
  root := by
    obtain ⟨root, found, isRoot⟩ := isTree.root
    obtain ⟨root', found', grows⟩ := grow rootId root found
    exact ⟨root', found', grows.isRoot isRoot⟩
  node i file listed := by
    obtain ⟨node, found, hangs⟩ := isTree.node i file listed
    obtain ⟨node', found', grows⟩ := grow (i + 2) node found
    exact ⟨node', found', hangs.grow grow grows⟩
  children := children ▸ isTree.children

/-- A place where files belong is a directory of the tree. -/
theorem IsTree.entry_of_places (isTree : IsTree files tree) (places : Places files directory p) :
    ∃ above, entryAt tree p = some above ∧ above.attributes.kind = .directory ∧
      0 < p ∧ p < files.length + 2 := by
  rcases places with ⟨rfl, -⟩ | ⟨j, dir, listed, isDir, -, rfl⟩
  · obtain ⟨root, found, -, kind, -⟩ := isTree.root
    exact ⟨root, found, kind, Nat.one_pos, Nat.lt_add_left _ Nat.one_lt_two⟩
  · obtain ⟨node, found, hangs⟩ := isTree.node j dir listed
    obtain ⟨inside, -⟩ := List.getElem?_eq_some_iff.mp listed
    exact ⟨node, found, hangs.kind.trans isDir, Nat.succ_pos _, Nat.add_lt_add_right inside 2⟩

/-- Where the new node is put: what was there has grown, the parent by a child. -/
theorem grows_of_addChild (positive : 0 < p) (inode : Nat) (node : FuseNode) :
    Grows tree (tree.modify (p - 1) (.addChild inode) ++ [node]) := by
  intro q old found
  have moved := @entryAt_modify tree q p (.addChild inode) positive.ne'
  rw [found, Option.map_some] at moved
  refine ⟨_, entryAt_append _ moved, ?_⟩
  split_ifs
  · exact old.grows_addChild inode
  · exact .refl old

variable {above : FuseNode}

/-- A node that is put at the end, with its parent among the directories before it. -/
theorem IsTree.addNode (isTree : IsTree files tree)
    (found : entryAt tree p = some above) (isDir : above.attributes.kind = .directory)
    (positive : 0 < p) (smaller : p < files.length + 2)
    (places : ∀ directory, (path file).parent = some directory → Places files directory p)
    (inode : node.attributes.inode = files.length + 2) (index : node.index = files.length)
    (kind : node.attributes.kind = file.kind)
    (named : (path file).fileName = some (node.name.map .char)) (parent : node.parent = some p)
    (children : node.children = []) :
    IsTree (files ++ [file]) (tree.modify (p - 1) (.addChild (files.length + 2)) ++ [node]) := by
  have grow := @grows_of_addChild tree p positive (files.length + 2) node
  have moved := @entryAt_modify tree p p (.addChild (files.length + 2)) positive.ne'
  rw [found, Option.map_some, if_pos rfl] at moved
  have length := isTree.length
  constructor
  · rw [List.length_append, List.length_append, List.length_modify, length]
    rfl
  · obtain ⟨root, here, isRoot⟩ := isTree.root
    obtain ⟨root', here', grows⟩ := grow rootId root here
    exact ⟨root', here', grows.isRoot isRoot⟩
  · intro i listedFile listed
    by_cases old : i < files.length
    · rw [List.getElem?_append_left old] at listed
      obtain ⟨oldNode, here, hangs⟩ := isTree.node i listedFile listed
      obtain ⟨newNode, here', grows⟩ := grow (i + 2) oldNode here
      exact ⟨newNode, here', (hangs.grow grow grows).append old.le [file]⟩
    · obtain ⟨inside, -⟩ := List.getElem?_eq_some_iff.mp listed
      rw [List.length_append, List.length_singleton] at inside
      obtain rfl : i = files.length := by omega
      rw [List.getElem?_concat_length] at listed
      cases listed
      have last := @entryAt_concat (tree.modify (p - 1) (.addChild (files.length + 2))) node
      rw [List.length_modify, length] at last
      refine ⟨node, last, inode, index, kind, named, ?_⟩
      refine ⟨p, _, parent, smaller, entryAt_append _ moved, isDir, ?_, ?_⟩
      · exact List.mem_append_right _ (List.mem_singleton_self _)
      · rwa [List.take_left]
  · have inside : p - 1 < tree.length := by omega
    rw [List.flatMap_append, List.flatMap_singleton, children, List.append_nil, List.length_append,
      List.length_singleton, List.range'_1_concat, Nat.add_comm 2]
    have added := flatMap_addChild (files.length + 2) inside
    have last : (List.range' 2 files.length ++ [files.length + 2]).Perm _ :=
      List.perm_append_singleton ..
    exact (added.trans (isTree.children.cons _)).trans last.symm

end Growing

/-- What the map says about every path, listed or not. -/
def Mapped (done : List FileDescription) (subRootMap : List (PathBuf × Nat)) : Prop :=
  ∀ directory, Places done directory ((subRootMap.lookup directory).getD rootId)

section Steps

variable {done : List FileDescription} {file : FileDescription} {directory : PathBuf} {p : Nat}
  {subRootMap : List (PathBuf × Nat)} {b : Building}

theorem Places.append (places : Places done directory p)
    (other : file.kind = .directory → path file ≠ directory) :
    Places (done ++ [file]) directory p := by
  rcases places with ⟨same, unlisted⟩ | ⟨j, dir, listed, isDir, same, rfl⟩
  · refine .inl ⟨same, ?_⟩
    intro dir inside
    rcases List.mem_append.mp inside with earlier | last
    · exact unlisted dir earlier
    · exact List.mem_singleton.mp last ▸ other
  · obtain ⟨inside, -⟩ := List.getElem?_eq_some_iff.mp listed
    exact .inr ⟨j, dir, (List.getElem?_append_left inside).trans listed, isDir, same, rfl⟩

theorem mapped_start (draw : Draw) : Mapped [] (Building.start draw).subRootMap := by
  intro directory
  refine .inl ⟨?_, nofun⟩
  simp only [Building.start, List.lookup_cons, List.lookup_nil]
  split
  · rfl
  · split <;> rfl

theorem Mapped.insert (mapped : Mapped done subRootMap) (isDir : file.kind = .directory) :
    Mapped (done ++ [file]) ((path file, done.length + 2) :: subRootMap) := by
  intro directory
  rw [List.lookup_cons]
  by_cases same : path file = directory
  · rw [beq_iff_eq.mpr same.symm]
    exact .inr ⟨done.length, file, List.getElem?_concat_length, isDir, same, rfl⟩
  · rw [beq_false_of_ne (Ne.symm same)]
    exact (mapped directory).append fun _ => same

theorem Mapped.other (mapped : Mapped done subRootMap) (noDir : file.kind ≠ .directory) :
    Mapped (done ++ [file]) subRootMap :=
  fun directory => (mapped directory).append fun isDir => absurd isDir noDir

theorem isTree_start (draw : Draw) : IsTree [] (Building.start draw).treeList where
  length := rfl
  root := ⟨.newRoot draw, rfl, rfl, rfl, rfl, rfl, rfl⟩
  node := nofun
  children := .refl _

theorem parentInode_places (mapped : Mapped done b.subRootMap)
    (parent : (path file).parent = some directory) : Places done directory (b.parentInode file) := by
  unfold Building.parentInode
  rw [parent]
  exact mapped directory

/-- The parent that the map names is always there. -/
theorem parentInode_entry (isTree : IsTree done b.treeList) (mapped : Mapped done b.subRootMap)
    (file : FileDescription) :
    ∃ above, entryAt b.treeList (b.parentInode file) = some above ∧
      above.attributes.kind = .directory ∧ 0 < b.parentInode file ∧
      b.parentInode file < done.length + 2 := by
  cases parent : (path file).parent with
  | some directory => exact isTree.entry_of_places (parentInode_places mapped parent)
  | none =>
      obtain ⟨root, found, -, kind, -⟩ := isTree.root
      have same : b.parentInode file = rootId := by
        rw [Building.parentInode, parent]
      rw [same]
      exact ⟨root, found, kind, Nat.one_pos, Nat.lt_add_left _ Nat.one_lt_two⟩

/-- One turn of the loop: an entry without a file name ends it, any other gets a node. -/
theorem addFile_spec (isTree : IsTree done b.treeList) (mapped : Mapped done b.subRootMap)
    (draw : Draw) (file : FileDescription) :
    match b.addFile draw file with
    | none => False
    | some (.error _) => True
    | some (.ok b') => IsTree (done ++ [file]) b'.treeList ∧ Mapped (done ++ [file]) b'.subRootMap := by
  obtain ⟨above, found, isDir, positive, smaller⟩ := parentInode_entry isTree mapped file
  have inode : b.treeList.length + rootId = done.length + 2 := by
    rw [isTree.length]
    rfl
  unfold Building.addFile
  dsimp only
  rw [found, inode]
  cases fileName : (path file).fileName with
  | none => trivial
  | some baseName =>
      obtain ⟨text, rfl⟩ := exists_text fileName
      dsimp only
      constructor
      · refine isTree.addNode found isDir positive smaller ?_ rfl rfl rfl ?_ rfl rfl
        · exact fun directory parent => parentInode_places mapped parent
        · rw [fileName, FuseNode.fromDescription, OsText.toStr_map, Option.getD_some]
      · split_ifs with isDirectory
        · exact mapped.insert isDirectory
        · exact mapped.other isDirectory

/-- The rest of the list, from any state the loop can be in. -/
theorem buildLoop_spec (draws : Nat → Draw) (isTree : IsTree done b.treeList)
    (mapped : Mapped done b.subRootMap) (rest : List FileDescription) :
    match buildLoop draws rest b with
    | none => False
    | some (.error _) => True
    | some (.ok b') => IsTree (done ++ rest) b'.treeList := by
  induction rest generalizing done b with
  | nil =>
      rw [List.append_nil]
      exact isTree
  | cons file rest ih =>
      have step := addFile_spec isTree mapped (draws b.treeList.length) file
      unfold buildLoop
      cases added : b.addFile (draws b.treeList.length) file with
      | none =>
          rw [added] at step
          exact step
      | some outcome =>
          rw [added] at step
          cases outcome with
          | error e => trivial
          | ok next => exact List.append_cons done file rest ▸ ih step.1 step.2

theorem buildTree_spec (draws : Nat → Draw) (files : List FileDescription) :
    match buildTree draws files with
    | none => False
    | some (.error _) => True
    | some (.ok tree) => IsTree files tree := by
  have loop := buildLoop_spec draws (isTree_start (draws 0)) (mapped_start (draws 0)) files
  unfold buildTree
  split at loop
  · exact loop
  · trivial
  · exact loop

end Steps

/-- A name that stands for something in a directory. -/
def IsComponent (name : List Char) : Prop :=
  OsText.components (name.map .char) = [.name (name.map .char)] ∧ name ≠ ['.'] ∧
    name ≠ ['.', '.'] ∧ '/' ∉ name

/-- Following names from the root, from a directory to one of its children. -/
inductive Spells (tree : List FuseNode) : Nat → List (List Char) → Prop
  | root : Spells tree rootId []
  | child {inode child : Nat} {names : List (List Char)} {above node : FuseNode}
      (spells : Spells tree inode names) (found : entryAt tree inode = some above)
      (member : child ∈ above.children) (here : entryAt tree child = some node) :
      Spells tree child (names ++ [node.name])

/-- The directory of every file is the prefix or was listed before the file. -/
def Listed (root : PathBuf) (files : List FileDescription) : Prop :=
  ∀ i file, files[i]? = some file → (path file).parent = some root ∨
    ∃ dir ∈ files.take i, dir.kind = .directory ∧ (path file).parent = some (path dir)

variable {files : List FileDescription} {tree : List FuseNode} {i : Nat}
  {file : FileDescription} {node : FuseNode} {names : List (List Char)}

theorem Hangs.isComponent (hangs : Hangs files tree i file node) : IsComponent node.name := by
  obtain ⟨above, same, -, dots⟩ := PathBuf.of_fileName hangs.named
  have member : .name (node.name.map .char) ∈ path file :=
    same ▸ List.mem_append_right _ (List.mem_singleton_self _)
  obtain ⟨filled, dot, whole⟩ := OsText.name_of_components member
  refine ⟨OsText.components_of_name filled dot fun c inside => (whole c inside).2, ?_, ?_, ?_⟩
  · exact fun same => dot (same ▸ rfl)
  · exact fun same => dots (same ▸ rfl)
  · exact fun inside => (whole _ (List.mem_map_of_mem inside)).2 rfl

/-- No inode is a child of two nodes. -/
theorem IsTree.parent_unique (isTree : IsTree files tree) {p q child : Nat} {above' : FuseNode}
    (found : entryAt tree p = some above) (found' : entryAt tree q = some above')
    (member : child ∈ above.children) (member' : child ∈ above'.children) : p = q := by
  have nodup : (tree.flatMap (·.children)).Nodup := isTree.children.nodup_iff.mpr List.nodup_range'
  have apart := List.pairwise_iff_getElem.mp (List.nodup_flatMap.mp nodup).2
  cases p with
  | zero => cases found
  | succ i =>
      cases q with
      | zero => cases found'
      | succ j =>
          obtain ⟨inside, rfl⟩ := List.getElem?_eq_some_iff.mp found
          obtain ⟨inside', rfl⟩ := List.getElem?_eq_some_iff.mp found'
          rcases Nat.lt_trichotomy i j with less | rfl | greater
          · exact absurd member' (apart i j inside inside' less member)
          · rfl
          · exact absurd member (apart j i inside' inside greater member')

/-- Whatever is a child has been listed. -/
theorem IsTree.child_listed (isTree : IsTree files tree) {p child : Nat}
    (found : entryAt tree p = some above) (member : child ∈ above.children) :
    ∃ i file, child = i + 2 ∧ files[i]? = some file := by
  have inTree : above ∈ tree := by
    cases p with
    | zero => cases found
    | succ i => exact List.mem_of_getElem? found
  have inRange := isTree.children.mem_iff.mp (List.mem_flatMap_of_mem inTree member)
  obtain ⟨lower, upper⟩ := List.mem_range'_1.mp inRange
  have inside : child - 2 < files.length := by omega
  exact ⟨child - 2, files[child - 2], by omega, List.getElem?_eq_getElem inside⟩

theorem IsTree.listed_of_entry (isTree : IsTree files tree) (here : entryAt tree (i + 2) = some node) :
    ∃ file, files[i]? = some file := by
  obtain ⟨inside, -⟩ := List.getElem?_eq_some_iff.mp here
  rw [isTree.length] at inside
  exact ⟨files[i], List.getElem?_eq_getElem (Nat.lt_of_succ_lt_succ inside)⟩

theorem listed_of_take {j : Nat} (earlier : (files.take i)[j]? = some file) :
    j < i ∧ files[j]? = some file := by
  rw [List.getElem?_take] at earlier
  split_ifs at earlier with small
  exact ⟨small, earlier⟩

/-- Every node is come to from the root. -/
theorem IsTree.exists_spells (isTree : IsTree files tree) (listed : files[i]? = some file) :
    ∃ names, Spells tree (i + 2) names := by
  induction i using Nat.strong_induction_on generalizing file with
  | _ i ih =>
      obtain ⟨node, here, hangs⟩ := isTree.node i file listed
      obtain ⟨p, above, -, -, found, -, member, places⟩ := hangs.parent
      obtain ⟨directory, -, parent, -⟩ := PathBuf.of_fileName hangs.named
      obtain ⟨names, spells⟩ : ∃ names, Spells tree p names := by
        rcases places directory parent with ⟨rfl, -⟩ | ⟨j, dir, earlier, -, -, rfl⟩
        · exact ⟨[], .root⟩
        · obtain ⟨small, earlier⟩ := listed_of_take earlier
          exact ih j small earlier
      exact ⟨_, .child spells found member here⟩

/-- The names that lead to a node are what its path has after the prefix. -/
theorem IsTree.path_of_spells {root : PathBuf} (isTree : IsTree files tree)
    (within : Listed root files) {inode : Nat} (spells : Spells tree inode names) :
    (inode = rootId ∧ names = []) ∨ ∃ i file, inode = i + 2 ∧ files[i]? = some file ∧
      path file = root ++ names.map fun name => .name (name.map .char) := by
  induction spells with
  | root => exact .inl ⟨rfl, rfl⟩
  | @child inode child names above node spells found member here ih =>
      obtain ⟨i, file, rfl, listed⟩ := isTree.child_listed found member
      obtain ⟨node', here', hangs⟩ := isTree.node i file listed
      cases here.symm.trans here'
      obtain ⟨p, above', -, -, found', -, member', places⟩ := hangs.parent
      obtain rfl := isTree.parent_unique found found' member member'
      obtain ⟨directory, joined, parent, -⟩ := PathBuf.of_fileName hangs.named
      refine .inr ⟨i, file, rfl, listed, ?_⟩
      rw [joined, PathBuf.join, List.map_append, ← List.append_assoc]
      congr 1
      rcases places directory parent with ⟨rfl, unlisted⟩ | ⟨j, dir, earlier, isDir, same, rfl⟩
      · have empty : names = [] := by
          rcases ih with ⟨-, empty⟩ | ⟨j, -, impossible, -⟩
          · exact empty
          · cases impossible
        rw [empty, List.map_nil, List.append_nil]
        rcases within i file listed with top | ⟨dir, inside, isDir, below⟩
        · exact Option.some.inj (parent.symm.trans top)
        · exact absurd (Option.some.inj (below.symm.trans parent)) (unlisted dir inside isDir)
      · obtain ⟨-, earlier⟩ := listed_of_take earlier
        rcases ih with ⟨impossible, -⟩ | ⟨k, file', sameInode, listed', spelled⟩
        · cases impossible
        · cases sameInode
          cases earlier.symm.trans listed'
          rw [← same, spelled]

end RemoteControl.Clipboard.FuseTree
