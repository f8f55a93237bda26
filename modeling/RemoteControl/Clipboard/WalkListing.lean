import RemoteControl.Clipboard.Walk

/-! # What a walk lists

A walk that ends without an error lists the given paths and everything below them, each
path once and after its directory. Together with where it ends this says when
`construct_file_list` does what its set of visited paths is for.
-/

namespace RemoteControl.Clipboard

open Relation (ReflTransGen TransGen)
open Descents (Endless)

namespace FileSystem

variable {Node : Type} {fs : FileSystem Node} {relativeRoot path : PathBuf} {depth : Nat}
  {l l' : Listing} {n : Node}

/-- A directory has an entry of this name. -/
def Contains (fs : FileSystem Node) (path : PathBuf) (name : OsText) : Prop :=
  ∃ n dir, fs.lookup path = some n ∧ fs.isDir n = true ∧ fs.readDir n = some dir ∧ some name ∈ dir

/-- The entries of the directory are listed. -/
def Complete (fs : FileSystem Node) (path : PathBuf) (listed : List PathBuf) : Prop :=
  ∀ name, fs.Contains path name → path.join name ∈ listed

/-- Every path but those that were given comes after its directory. -/
def InOrder (fs : FileSystem Node) (given listed : List PathBuf) : Prop :=
  ∀ (i : Nat) path, listed[i]? = some path →
    path ∈ given ∨ ∃ (j : Nat) (parent : PathBuf) (name : OsText), j < i ∧ listed[j]? = some parent ∧
      fs.Contains parent name ∧ path = parent.join name

/-- What holds of the lists while the walk is in the directories `within`. -/
structure Tidy (fs : FileSystem Node) (relativeRoot : PathBuf) (given within : List PathBuf)
    (l : Listing) : Prop where
  opened : l.fileList.map .ok = l.visited.map (fs.tryOpen relativeRoot)
  nodup : l.visited.Nodup
  inOrder : fs.InOrder given l.visited
  complete : ∀ path ∈ l.visited, path ∈ within ∨ fs.Complete path l.visited

variable {given listed paths : List PathBuf} {within : List PathBuf} {files : List LocalFile}

theorem InOrder.concat (inOrder : fs.InOrder given listed)
    (placed : path ∈ given ∨ ∃ parent ∈ listed, ∃ name, fs.Contains parent name ∧
      path = parent.join name) : fs.InOrder given (listed ++ [path]) := by
  intro i q here
  by_cases inside : i < listed.length
  · rw [List.getElem?_append_left inside] at here
    refine (inOrder i q here).imp id ?_
    rintro ⟨j, parent, name, before, there, contains, same⟩
    refine ⟨j, parent, name, before, ?_, contains, same⟩
    rwa [List.getElem?_append_left (before.trans inside)]
  · rw [List.getElem?_append_right (not_lt.mp inside)] at here
    obtain ⟨last, same⟩ := List.getElem?_eq_some_iff.mp here
    rw [List.length_singleton] at last
    rw [List.getElem_singleton] at same
    subst same
    refine placed.imp id ?_
    rintro ⟨parent, member, name, contains, same⟩
    obtain ⟨j, bound, there⟩ := List.mem_iff_getElem.mp member
    refine ⟨j, parent, name, by omega, ?_, contains, same⟩
    rw [List.getElem?_append_left bound, List.getElem?_eq_getElem bound, there]

theorem Complete.mono {listed' : List PathBuf} (complete : fs.Complete path listed)
    (grown : listed ⊆ listed') : fs.Complete path listed' :=
  fun name contains => grown (complete name contains)

theorem Tidy.opened_step (tidy : fs.Tidy relativeRoot given within l) (fresh : path ∉ l.visited)
    (found : fs.lookup path = some n)
    (placed : path ∈ given ∨ ∃ parent ∈ l.visited, ∃ name, fs.Contains parent name ∧
      path = parent.join name) :
    fs.Tidy relativeRoot given (path :: within) (fs.opened relativeRoot path l)  where
  opened := by
    obtain ⟨localFile, opens⟩ := @tryOpen_of_lookup Node fs relativeRoot path n found
    simp only [FileSystem.opened, opens, List.map_append, tidy.opened, Except.toOption,
      Option.toList_some, List.map_singleton]
  nodup := by
    rw [FileSystem.opened, List.nodup_append]
    refine ⟨tidy.nodup, List.nodup_singleton _, ?_⟩
    rintro a before b here rfl
    exact fresh (List.mem_singleton.mp here ▸ before)
  inOrder := tidy.inOrder.concat placed
  complete := by
    intro q visited
    rcases List.mem_append.mp visited with before | here
    · exact (tidy.complete q before).imp (List.mem_cons_of_mem path) fun complete =>
        complete.mono (List.subset_append_left ..)
    · rw [List.mem_singleton.mp here]
      exact .inl (List.mem_cons_self ..)

theorem Tidy.close (tidy : fs.Tidy relativeRoot given (path :: within) l)
    (complete : fs.Complete path l.visited) : fs.Tidy relativeRoot given within l :=
  { tidy with
    complete := by
      intro q visited
      rcases tidy.complete q visited with inside | done
      · rcases List.mem_cons.mp inside with rfl | outer
        · exact .inr complete
        · exact .inl outer
      · exact .inr done }

/-- A walk without an error lists its path, and leaves the lists tidy. -/
theorem constrFileLst_tidy (tidy : fs.Tidy relativeRoot given within l)
    (placed : path ∈ given ∨ ∃ parent ∈ l.visited, ∃ name, fs.Contains parent name ∧
      path = parent.join name)
    (ok : fs.constrFileLst relativeRoot depth path l = some (l', .ok ())) :
    fs.Tidy relativeRoot given within l' ∧ path ∈ l'.visited ∧ l.visited ⊆ l'.visited := by
  induction depth generalizing path within l l' with
  | zero => cases ok
  | succ depth ih =>
      obtain ⟨before, here⟩ |
        ⟨fresh, ⟨e, l', here⟩ | ⟨n, found, ⟨isDir, here⟩ | ⟨isDir, dir, read, here⟩⟩⟩ :=
        fs.constrFileLst_cases relativeRoot path l
      · rw [here] at ok
        cases ok
        exact ⟨tidy, before, List.Subset.refl _⟩
      · rw [here] at ok
        cases ok
      all_goals
        have next := tidy.opened_step fresh found placed
        have listed : path ∈ (fs.opened relativeRoot path l).visited :=
          List.mem_append_right _ (List.mem_singleton_self _)
        have grown : l.visited ⊆ (fs.opened relativeRoot path l).visited := List.subset_append_left ..
        rw [here] at ok
      · cases ok
        refine ⟨next.close ?_, listed, grown⟩
        rintro name ⟨n', dir, found', isDir', -⟩
        cases found.symm.trans found'
        cases isDir.symm.trans isDir'
      · have keeps : ∀ entry ∈ dir, ∀ l₁ l₂,
            fs.Tidy relativeRoot given (path :: within) l₁ ∧ path ∈ l₁.visited →
            visitEntry (fs.constrFileLst relativeRoot depth) path entry l₁ = some (l₂, .ok ()) →
            (fs.Tidy relativeRoot given (path :: within) l₂ ∧ path ∈ l₂.visited) ∧
              (∀ name, entry = some name → path.join name ∈ l₂.visited) ∧
              l₁.visited ⊆ l₂.visited := by
          rintro entry member l₁ l₂ ⟨tidy₁, listed₁⟩ ok₁
          cases entry with
          | none => cases ok₁
          | some name =>
              obtain ⟨tidy₂, listed₂, grown₂⟩ := ih tidy₁
                (.inr ⟨path, listed₁, name, ⟨n, dir, found, isDir, read, member⟩, rfl⟩) ok₁
              refine ⟨⟨tidy₂, grown₂ listed₁⟩, ?_, grown₂⟩
              rintro _ ⟨⟩
              exact listed₂
        obtain ⟨⟨tidy', -⟩, done, grown'⟩ := visitAll_done keeps
          (fun entry l₁ l₂ grown₂ holds name same => grown₂ (holds name same)) ⟨next, listed⟩ ok
        refine ⟨tidy'.close ?_, grown' listed, List.Subset.trans grown grown'⟩
        rintro name ⟨n', dir', found', -, read', member⟩
        cases found.symm.trans found'
        cases read.symm.trans read'
        exact done (some name) member name rfl

/-- The files are those of the listed paths, each of which is there once and after its
    directory; the given ones are among them, and so is every entry of a listed directory.
    No path goes deeper below a given one than there are directories. -/
structure Lists [Fintype Node] (fs : FileSystem Node) (relativeRoot : PathBuf)
    (paths listed : List PathBuf) (files : List LocalFile) : Prop where
  opened : files.map .ok = listed.map (fs.tryOpen relativeRoot)
  once : listed.Nodup
  inOrder : fs.InOrder paths listed
  given : ∀ path ∈ paths, path ∈ listed
  complete : ∀ path ∈ listed, fs.Complete path listed
  bounded : ∀ path ∈ listed, ∃ start ∈ paths, ∃ names : List OsText,
    path = start ++ names.map .name ∧ names.length < Fintype.card Node

theorem lookup_of_opened (opened : files.map .ok = listed.map (fs.tryOpen relativeRoot))
    (member : path ∈ listed) : ∃ n, fs.lookup path = some n := by
  cases found : fs.lookup path with
  | some n => exact ⟨n, rfl⟩
  | none =>
      obtain ⟨e, fails⟩ := @tryOpen_of_missing Node fs relativeRoot path found
      have there : fs.tryOpen relativeRoot path ∈ files.map .ok :=
        opened ▸ List.mem_map_of_mem member
      obtain ⟨file, -, opens⟩ := List.mem_map.mp there
      cases opens.trans fails

/-- A listed path is come to from a given one, directory by directory. -/
theorem InOrder.way (inOrder : fs.InOrder given listed)
    (there : ∀ path ∈ listed, ∃ n, fs.lookup path = some n) (i : Nat)
    (here : listed[i]? = some path) :
    ∃ start ∈ given, ∃ (names : List OsText) (first : Node) (way : List Node),
      path = start ++ names.map .name ∧ names.length = way.length ∧
        fs.lookup start = some first ∧ (first :: way).IsChain fs.Leads ∧
        fs.lookup path = (first :: way).getLast? := by
  induction i using Nat.strong_induction_on generalizing path with
  | _ i ih =>
      obtain ⟨m, found⟩ := there path (List.mem_of_getElem? here)
      rcases inOrder i path here with start | ⟨j, parent, name, before, above, contains, rfl⟩
      · exact ⟨path, start, [], m, [], by simp, rfl, found, .singleton m, found⟩
      · obtain ⟨start, isGiven, names, first, way, rfl, same, started, chain, last⟩ := ih j before above
        obtain ⟨d, dir, found', isDir, read, member⟩ := contains
        have leads : fs.Leads d m := by
          refine ⟨isDir, dir, name, read, member, ?_⟩
          rw [← fs.lookup_join _ d dir name found' read member]
          exact found
        refine ⟨start, isGiven, names ++ [name], first, way ++ [m], ?_, ?_, started, ?_, ?_⟩
        · simp [PathBuf.join]
        · rw [List.length_append, List.length_append, same]
          rfl
        · rw [← List.cons_append]
          refine List.isChain_append.mpr ⟨chain, .singleton m, ?_⟩
          intro x isLast y isFirst
          rw [← last, found'] at isLast
          cases isLast
          cases isFirst
          exact leads
        · rw [found, ← List.cons_append, List.getLast?_concat]

/-- Without a folder the first path is in, nothing is walked. -/
theorem constructFileList_cases (fs : FileSystem Node) (paths : List PathBuf) :
    (∃ e, ∀ depth, fs.constructFileList depth paths = some (.error e)) ∧
        (¬ ∃ first relativeRoot, paths.head? = some first ∧ first.parent = some relativeRoot) ∨
      ∃ first relativeRoot, paths.head? = some first ∧ first.parent = some relativeRoot ∧
        ∀ depth, fs.constructFileList depth paths =
          (visitAll (fs.constrFileLst relativeRoot depth) paths ⟨[], []⟩).map fun (l, outcome) =>
            outcome.map fun () => l.fileList := by
  cases head : paths.head? with
  | none =>
      refine .inl ⟨⟨_, fun depth => by rw [constructFileList, head]⟩, ?_⟩
      rintro ⟨first, relativeRoot, ⟨⟩, -⟩
  | some first =>
      cases parent : first.parent with
      | none =>
          refine .inl ⟨⟨_, fun depth => by rw [constructFileList, head]; simp only [parent]; rfl⟩, ?_⟩
          rintro ⟨first', relativeRoot, ⟨⟩, parent'⟩
          cases parent.symm.trans parent'
      | some relativeRoot =>
          refine .inr ⟨first, relativeRoot, rfl, parent, fun depth => ?_⟩
          rw [constructFileList, head]
          simp only [parent]

theorem known_nothing (fs : FileSystem Node) : fs.Known [] ⟨[], []⟩ := nofun

theorem outer_nothing (path : PathBuf) : Outer [] path := nofun

theorem shows_paths (fs : FileSystem Node) (relativeRoot : PathBuf) (paths : List PathBuf)
    (depth : Nat) :
    Shows (fs.constrFileLst relativeRoot depth) paths fs.SoundPath (fs.Known []) :=
  fun path _ l l' known ok =>
    constrFileLst_sound fs relativeRoot depth path [] l l' (outer_nothing path) known ok

theorem constructFileList_stuck [Finite Node] (loops : fs.Loops paths) (depth : Nat) :
    fs.constructFileList depth paths = none := by
  obtain ⟨rooted, before, path, after, n, rfl, sound, found, endless⟩ := loops
  rcases constructFileList_cases fs (before ++ path :: after) with
    ⟨-, rootless⟩ | ⟨first, relativeRoot, -, -, walks⟩
  · exact absurd rooted rootless
  · rw [walks depth, visitAll_stuck (constrFileLst_deepens fs relativeRoot)
      (shows_paths fs relativeRoot _ depth) ?_ ?_ (known_nothing fs)]
    · rfl
    · intro earlier member
      obtain ⟨m, there, below⟩ := sound earlier member
      obtain ⟨enough, ok⟩ := constrFileLst_of_sound relativeRoot below
      exact ⟨enough, fun l => ok earlier l there⟩
    · intro l known
      exact constrFileLst_stuck endless found (outer_nothing path) known

theorem constructFileList_more {outcome : Except CliprdrError (List LocalFile)} {more : Nat}
    (returns : fs.constructFileList depth paths = some outcome) (le : depth ≤ more) :
    fs.constructFileList more paths = some outcome := by
  rcases constructFileList_cases fs paths with ⟨⟨e, fails⟩, -⟩ | ⟨first, relativeRoot, -, -, walks⟩
  · rw [fails] at returns ⊢
    exact returns
  · rw [walks] at returns ⊢
    obtain ⟨result, walked, same⟩ := Option.map_eq_some_iff.mp returns
    have walked' := (constrFileLst_deepens fs relativeRoot).visitAll.le le walked
    rw [walked', Option.map_some, same]

theorem constructFileList_returns [Finite Node] (ends : ¬ fs.Loops paths) :
    ∃ depth outcome, fs.constructFileList depth paths = some outcome := by
  rcases constructFileList_cases fs paths with
    ⟨⟨e, fails⟩, -⟩ | ⟨first, relativeRoot, head, parent, walks⟩
  · exact ⟨0, _, fails 0⟩
  · have returns : ∃ depth result,
        visitAll (fs.constrFileLst relativeRoot depth) paths ⟨[], []⟩ = some result := by
      refine visitAll_returns (constrFileLst_deepens fs relativeRoot)
        (shows_paths fs relativeRoot paths) ?_ (known_nothing fs)
      intro before path after same sound l known
      cases found : fs.lookup path with
      | none =>
          by_cases visited : path ∈ l.visited
          · exact ⟨1, _, constrFileLst_visited visited⟩
          · obtain ⟨e, l', fails⟩ := @constrFileLst_missing Node fs relativeRoot path l visited found
            exact ⟨1, _, fails 0⟩
      | some n =>
          refine constrFileLst_returns (fun endless => ends ⟨⟨first, relativeRoot, head, parent⟩, ?_⟩)
            found (outer_nothing path) known
          exact ⟨before, path, after, n, same, sound, found, endless⟩
    obtain ⟨depth, result, walked⟩ := returns
    exact ⟨depth, _, by rw [walks depth, walked]; rfl⟩

theorem constructFileList_lists [Fintype Node]
    (ok : fs.constructFileList depth paths = some (.ok files)) :
    ∃ relativeRoot listed, fs.Lists relativeRoot paths listed files := by
  rcases constructFileList_cases fs paths with ⟨⟨e, fails⟩, -⟩ | ⟨first, relativeRoot, -, -, walks⟩
  · cases ok.symm.trans (fails depth)
  · rw [walks depth] at ok
    obtain ⟨⟨l, outcome⟩, walked, result⟩ := Option.map_eq_some_iff.mp ok
    cases outcome with
    | error e => cases result
    | ok =>
        cases result
        obtain ⟨sound, -⟩ :=
          (shows_paths fs relativeRoot paths depth).visitAll (known_nothing fs) walked
        have start : fs.Tidy relativeRoot paths [] ⟨[], []⟩ := ⟨rfl, List.nodup_nil, nofun, nofun⟩
        obtain ⟨tidy, given, -⟩ := visitAll_done
          (D := fun path l => path ∈ l.visited)
          (fun path member l l' tidy ok => constrFileLst_tidy tidy (.inl member) ok)
          (fun path l l' grown listed => grown listed) start walked
        have there : ∀ path ∈ l.visited, ∃ n, fs.lookup path = some n :=
          fun path member => lookup_of_opened tidy.opened member
        refine ⟨relativeRoot, l.visited, tidy.opened, tidy.nodup, tidy.inOrder, given, ?_, ?_⟩
        · intro path member
          exact (tidy.complete path member).resolve_left List.not_mem_nil
        · intro path member
          obtain ⟨i, bound, here⟩ := List.mem_iff_getElem.mp member
          have listed : l.visited[i]? = some path := by
            rw [List.getElem?_eq_getElem bound, here]
          obtain ⟨start, isGiven, names, first, way, same, length, found, chain, -⟩ :=
            tidy.inOrder.way there i listed
          obtain ⟨n, found', below⟩ := sound start isGiven
          cases found.symm.trans found'
          exact ⟨start, isGiven, names, same, length ▸ Descents.length_lt_card below.2 chain⟩

end FileSystem

/-- Of a file system with finitely many files and directories, however they are linked: the
    walk ends, and lists every file in order and a bounded number of times if it succeeds,
    exactly when it comes to no directory inside itself. -/
theorem construct_file_list_ends_iff {Node : Type} [Fintype Node] (fs : FileSystem Node)
    (paths : List PathBuf) :
    (∃ depth outcome, (∀ more, depth ≤ more → fs.constructFileList more paths = some outcome) ∧
        ∀ files, outcome = .ok files → ∃ relativeRoot listed,
          fs.Lists relativeRoot paths listed files) ↔
      ¬ fs.Loops paths := by
  constructor
  · rintro ⟨depth, outcome, returns, -⟩ loops
    cases (returns depth le_rfl).symm.trans (FileSystem.constructFileList_stuck loops depth)
  · intro ends
    obtain ⟨depth, outcome, returns⟩ := FileSystem.constructFileList_returns ends
    refine ⟨depth, outcome, fun more le => FileSystem.constructFileList_more returns le, ?_⟩
    rintro files rfl
    exact FileSystem.constructFileList_lists returns

/-- The root directory with a link to itself, and nothing else. -/
def linkToRoot : FileSystem Unit where
  entry _ :=
    { metadata := { len := 4096, kind := .directory, mode := 0o755, modified := none, signed := by decide }
      content := none
      long := nofun }
  readDir _ := some [some [.char 'l']]
  follow _ name := if name = [.char 'l'] then some () else none
  lookup path :=
    if path.head? = some .root ∧ ∀ c ∈ path.tail, c = .name [.char 'l'] then some () else none
  lookup_join := by
    rintro path ⟨⟩ entries name found read member
    cases read
    cases List.mem_singleton.mp member
    split_ifs at found with there
    obtain ⟨first, rest⟩ := there
    rw [if_pos rfl, if_pos]
    cases path with
    | nil => cases first
    | cons c names =>
        refine ⟨first, ?_⟩
        intro c' inside
        rcases List.mem_append.mp inside with earlier | last
        · exact rest c' earlier
        · exact List.mem_singleton.mp last

/-- A directory that contains a link to itself is copied: the walk goes on for ever, always
    to a path it has not been to. -/
theorem link_to_itself_never_ends :
    linkToRoot.Loops [[.root, .name [.char 'l']]] ∧
      ∀ depth, linkToRoot.constructFileList depth [[.root, .name [.char 'l']]] = none := by
  have enters : linkToRoot.Enters () () := ⟨rfl, [], [.char 'l'], [], rfl, nofun, rfl⟩
  have endless : Endless linkToRoot.Enters () := ⟨(), .refl, .single enters⟩
  have loops : linkToRoot.Loops [[.root, .name [.char 'l']]] := by
    exact ⟨⟨_, _, rfl, rfl⟩, [], _, [], (), rfl, nofun, rfl, endless⟩
  exact ⟨loops, FileSystem.constructFileList_stuck loops⟩

end RemoteControl.Clipboard
