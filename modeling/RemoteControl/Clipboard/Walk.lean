import RemoteControl.Clipboard.PathBuf
import RemoteControl.Descents

/-! # Walking the copied directories

`construct_file_list` of `clipboard/src/platform/unix/local_file.rs` lists the copied paths
and what is below them. It follows links, and it remembers the paths it has been to, to
"prevent fs loop". But a directory that contains a link to itself has another path each
time it is come to through the link, and the walk does not end.
-/

namespace RemoteControl.Clipboard

open Relation (ReflTransGen TransGen)
open Descents (Endless)

/-- A file system that does not change while it is walked. Links are followed, however
    many there are: a path and an entry of a directory stand for what they lead to. -/
structure FileSystem (Node : Type) where
  entry : Node → Entry
  /-- The entries of a directory, or an error for some, if it can be read. -/
  readDir : Node → Option (List (Option OsText))
  follow : Node → OsText → Option Node
  lookup : PathBuf → Option Node
  lookup_join : ∀ path d entries name, lookup path = some d → readDir d = some entries →
    some name ∈ entries → lookup (path.join name) = follow d name

/-- The two lists that the walk fills. -/
structure Listing where
  fileList : List LocalFile
  visited : List PathBuf

/-- A call that does not return has no result. -/
abbrev Walk := Option (Listing × Except CliprdrError Unit)

/-- The loops: the first error ends them. -/
def visitAll {α : Type*} (visit : α → Listing → Walk) : List α → Listing → Walk
  | [], l => some (l, .ok ())
  | x :: rest, l =>
      match visit x l with
      | none => none
      | some (l, .error e) => some (l, .error e)
      | some (l, .ok ()) => visitAll visit rest l

/-- What the loop over a directory does with an entry. -/
def visitEntry (visit : PathBuf → Listing → Walk) (path : PathBuf) (entry : Option OsText)
    (l : Listing) : Walk :=
  match entry with
  | none => some (l, .error (.fileError path.text.toStringLossy "Input/output error"))
  | some name => visit (path.join name) l

namespace FileSystem

variable {Node : Type} (fs : FileSystem Node)

def isDir (n : Node) : Bool := (fs.entry n).metadata.kind = .directory

def tryOpen (relativeRoot path : PathBuf) : Except CliprdrError LocalFile :=
  LocalFile.tryOpen (fun _ => (fs.lookup path).map fs.entry) relativeRoot.text path.text

/-- `constr_file_lst`, for as many calls inside each other as `depth` says. -/
def constrFileLst (relativeRoot : PathBuf) : Nat → PathBuf → Listing → Walk
  | 0, _, _ => none
  | depth + 1, path, l =>
      -- prevent fs loop
      if path ∈ l.visited then some (l, .ok ())
      else
        let l := { l with visited := l.visited ++ [path] }
        match fs.tryOpen relativeRoot path with
        | .error e => some (l, .error e)
        | .ok localFile =>
            let l := { l with fileList := l.fileList ++ [localFile] }
            match fs.lookup path with
            | none =>
                some (l, .error (.fileError path.text.toStringLossy "No such file or directory"))
            | some n =>
                if fs.isDir n then
                  match fs.readDir n with
                  | none => some (l, .error (.fileError path.text.toStringLossy "Permission denied"))
                  | some dir => visitAll (visitEntry (constrFileLst relativeRoot depth) path) dir l
                else some (l, .ok ())

def constructFileList (depth : Nat) (paths : List PathBuf) :
    Option (Except CliprdrError (List LocalFile)) :=
  match paths.head? with
  | none => some (.error (.invalidRequest "empty file list"))
  | some first =>
      match first.parent with
      | none => some (.error (.invalidRequest "empty parent"))
      | some relativeRoot =>
          (visitAll (fs.constrFileLst relativeRoot depth) paths ⟨[], []⟩).map fun (l, outcome) =>
            outcome.map fun () => l.fileList

/-! ## Where the walk goes -/

/-- What is in a directory. -/
def Leads (d m : Node) : Prop :=
  fs.isDir d = true ∧ ∃ dir name, fs.readDir d = some dir ∧ some name ∈ dir ∧ fs.follow d name = some m

/-- A file, or a directory that can be read and whose entries all lead somewhere. -/
def Readable (n : Node) : Prop :=
  fs.isDir n = true → ∃ dir, fs.readDir n = some dir ∧
    ∀ entry ∈ dir, ∃ name m, entry = some name ∧ fs.follow n name = some m

/-- Everything below can be read, and no directory below contains itself. -/
def Sound (n : Node) : Prop :=
  (∀ m, ReflTransGen fs.Leads n m → fs.Readable m) ∧ ¬ Endless fs.Leads n

def SoundEntry (d : Node) (entry : Option OsText) : Prop :=
  ∃ name m, entry = some name ∧ fs.follow d name = some m ∧ fs.Sound m

def SoundPath (path : PathBuf) : Prop := ∃ n, fs.lookup path = some n ∧ fs.Sound n

/-- The walk of `d` comes to `m`: what is before it in `d` is sound. -/
def Enters (d m : Node) : Prop :=
  fs.isDir d = true ∧ ∃ before name after, fs.readDir d = some (before ++ some name :: after) ∧
    (∀ entry ∈ before, fs.SoundEntry d entry) ∧ fs.follow d name = some m

/-- The walk of the paths comes to a directory that it comes to once more inside itself. -/
def Loops (paths : List PathBuf) : Prop :=
  (∃ first relativeRoot, paths.head? = some first ∧ first.parent = some relativeRoot) ∧
    ∃ before path after n, paths = before ++ path :: after ∧ (∀ p ∈ before, fs.SoundPath p) ∧
      fs.lookup path = some n ∧ Endless fs.Enters n

variable {fs} {n : Node} {dir : List (Option OsText)}

theorem Enters.leads : fs.Enters ≤ fs.Leads := by
  rintro d m ⟨isDir, before, name, after, read, -, leads⟩
  exact ⟨isDir, _, name, read, by simp, leads⟩

theorem Sound.leads {m : Node} (sound : fs.Sound n) (leads : fs.Leads n m) : fs.Sound m :=
  ⟨fun k reach => sound.1 k (.head leads reach),
    fun endless => sound.2 (endless.of_reach (.single leads))⟩

theorem Sound.entries (sound : fs.Sound n) (isDir : fs.isDir n = true)
    (read : fs.readDir n = some dir) : ∀ entry ∈ dir, fs.SoundEntry n entry := by
  intro entry member
  obtain ⟨dir', read', all⟩ := sound.1 n .refl isDir
  cases read.symm.trans read'
  obtain ⟨name, m, rfl, leads⟩ := all entry member
  exact ⟨name, m, rfl, leads, sound.leads ⟨isDir, dir, name, read, member, leads⟩⟩

theorem sound_of_file (isFile : fs.isDir n = false) : fs.Sound n := by
  have nothing (m : Node) : ¬ fs.Leads n m := by
    rintro ⟨isDir, -⟩
    cases isFile.symm.trans isDir
  constructor
  · intro m reach isDir
    cases reach.cases_head with
    | inl here =>
        subst here
        cases isFile.symm.trans isDir
    | inr more =>
        obtain ⟨k, first, -⟩ := more
        exact absurd first (nothing k)
  · intro endless
    obtain ⟨k, first, -⟩ := endless.step
    exact nothing k first

theorem sound_of_entries (read : fs.readDir n = some dir)
    (all : ∀ entry ∈ dir, fs.SoundEntry n entry) : fs.Sound n := by
  have below {m : Node} (leads : fs.Leads n m) : fs.Sound m := by
    obtain ⟨-, dir', name, read', member, leads⟩ := leads
    cases read.symm.trans read'
    obtain ⟨name', m', same, leads', sound⟩ := all (some name) member
    cases same
    cases leads.symm.trans leads'
    exact sound
  constructor
  · intro m reach
    cases reach.cases_head with
    | inl here =>
        subst here
        intro _
        refine ⟨dir, read, fun entry member => ?_⟩
        obtain ⟨name, m, same, leads, -⟩ := all entry member
        exact ⟨name, m, same, leads⟩
    | inr more =>
        obtain ⟨k, first, later⟩ := more
        exact (below first).1 m later
  · intro endless
    obtain ⟨k, first, later⟩ := endless.step
    exact (below first).2 later

end FileSystem

section Loops

variable {α : Type*} {visit : Nat → α → Listing → Walk} {Good : α → Prop} {P : Listing → Prop}
  {l l' : Listing} {xs : List α} {depth : Nat} {x : α}

/-- What returns for the one has the same result for the other. -/
def Extends (visit visit' : α → Listing → Walk) : Prop :=
  ∀ x l result, visit x l = some result → visit' x l = some result

/-- More depth does not change a result. -/
def Deepens (visit : Nat → α → Listing → Walk) : Prop :=
  ∀ depth, Extends (visit depth) (visit (depth + 1))

/-- A visit without an error keeps `P` and shows that what is visited is good. -/
def Shows (visit : α → Listing → Walk) (xs : List α) (Good : α → Prop) (P : Listing → Prop) : Prop :=
  ∀ x ∈ xs, ∀ l l', P l → visit x l = some (l', .ok ()) → Good x ∧ P l'

theorem Shows.tail {visit : α → Listing → Walk} (shows : Shows visit (x :: xs) Good P) :
    Shows visit xs Good P :=
  fun y member => shows y (List.mem_cons_of_mem x member)

theorem Deepens.le (deepens : Deepens visit) {depth' : Nat} (le : depth ≤ depth')
    {result : Listing × Except CliprdrError Unit} (returns : visit depth x l = some result) :
    visit depth' x l = some result := by
  induction le with
  | refl => exact returns
  | step _ ih => exact deepens _ _ _ _ ih

theorem Extends.visitAll {visit visit' : α → Listing → Walk} (extends_ : Extends visit visit') :
    Extends (visitAll visit) (visitAll visit') := by
  intro xs l result returns
  fun_induction Clipboard.visitAll visit xs l with
  | case1 => exact returns
  | case2 => cases returns
  | case3 x rest l l₁ e here =>
      rw [Clipboard.visitAll, extends_ _ _ _ here]
      exact returns
  | case4 x rest l l₁ here ih =>
      rw [Clipboard.visitAll, extends_ _ _ _ here]
      exact ih returns

theorem Deepens.visitAll (deepens : Deepens visit) : Deepens fun depth => visitAll (visit depth) :=
  fun depth => (deepens depth).visitAll

theorem Extends.visitEntry {visit visit' : PathBuf → Listing → Walk} (extends_ : Extends visit visit')
    (path : PathBuf) : Extends (visitEntry visit path) (visitEntry visit' path) := by
  intro entry l result returns
  cases entry with
  | none => exact returns
  | some name => exact extends_ _ _ _ returns

theorem Shows.visitAll {visit : α → Listing → Walk} (shows : Shows visit xs Good P) (start : P l)
    (ok : visitAll visit xs l = some (l', .ok ())) : (∀ x ∈ xs, Good x) ∧ P l' := by
  fun_induction Clipboard.visitAll visit xs l with
  | case1 =>
      cases ok
      exact ⟨nofun, start⟩
  | case2 => cases ok
  | case3 => cases ok
  | case4 x rest l l₁ here ih =>
      obtain ⟨good, next⟩ := shows x (List.mem_cons_self ..) l l₁ start here
      obtain ⟨all, last⟩ := ih shows.tail next ok
      exact ⟨List.forall_mem_cons.mpr ⟨good, all⟩, last⟩

/-- What a visit gets done stays done, so that in the end all is. -/
theorem visitAll_done {visit : α → Listing → Walk} {D : α → Listing → Prop}
    (keeps : ∀ x ∈ xs, ∀ l l', P l → visit x l = some (l', .ok ()) →
      P l' ∧ D x l' ∧ l.visited ⊆ l'.visited)
    (stays : ∀ x l l', l.visited ⊆ l'.visited → D x l → D x l') (start : P l)
    (ok : visitAll visit xs l = some (l', .ok ())) :
    P l' ∧ (∀ x ∈ xs, D x l') ∧ l.visited ⊆ l'.visited := by
  fun_induction visitAll visit xs l with
  | case1 =>
      cases ok
      exact ⟨start, nofun, List.Subset.refl _⟩
  | case2 => cases ok
  | case3 => cases ok
  | case4 x rest l l₁ here ih =>
      obtain ⟨next, done, grown⟩ := keeps x (List.mem_cons_self ..) l l₁ start here
      obtain ⟨last, others, grown'⟩ :=
        ih (fun y member => keeps y (List.mem_cons_of_mem x member)) next ok
      have first : D x l' := stays x l₁ l' grown' done
      exact ⟨last, List.forall_mem_cons.mpr ⟨first, others⟩, List.Subset.trans grown grown'⟩

/-- When all visits are made without an error, so is the loop. -/
theorem visitAll_total {visit : α → Listing → Walk}
    (total : ∀ x ∈ xs, ∀ l, ∃ l', visit x l = some (l', .ok ())) (l : Listing) :
    ∃ l', visitAll visit xs l = some (l', .ok ()) := by
  induction xs generalizing l with
  | nil => exact ⟨l, rfl⟩
  | cons x rest ih =>
      obtain ⟨l₁, here⟩ := total x (List.mem_cons_self ..) l
      obtain ⟨l', later⟩ := ih (fun y member => total y (List.mem_cons_of_mem x member)) l₁
      exact ⟨l', by simp only [visitAll, here, later]⟩

/-- The loop returns when every visit does that comes after good ones only. -/
theorem visitAll_returns (deepens : Deepens visit) (shows : ∀ depth, Shows (visit depth) xs Good P)
    (returns : ∀ before x after, xs = before ++ x :: after → (∀ y ∈ before, Good y) →
      ∀ l, P l → ∃ depth result, visit depth x l = some result) (start : P l) :
    ∃ depth result, visitAll (visit depth) xs l = some result := by
  induction xs generalizing l with
  | nil => exact ⟨0, _, rfl⟩
  | cons x rest ih =>
      obtain ⟨depth, ⟨l₁, outcome⟩, here⟩ := returns [] x rest rfl nofun l start
      cases outcome with
      | error e => exact ⟨depth, (l₁, .error e), by simp only [visitAll, here]⟩
      | ok =>
          obtain ⟨good, next⟩ := shows depth x (List.mem_cons_self ..) l l₁ start here
          have later : ∀ before y after, rest = before ++ y :: after → (∀ z ∈ before, Good z) →
              ∀ l, P l → ∃ depth result, visit depth y l = some result := by
            rintro before y after rfl all
            exact returns (x :: before) y after rfl (List.forall_mem_cons.mpr ⟨good, all⟩)
          obtain ⟨depth', result, more⟩ := ih (fun depth => (shows depth).tail) later next
          refine ⟨max depth depth', result, ?_⟩
          have first := deepens.le (Nat.le_max_left depth depth') here
          have second := deepens.visitAll.le (Nat.le_max_right depth depth') more
          simp only [visitAll, first, second]

/-- The loop does not return when it comes, after good visits only, to one that does not. -/
theorem visitAll_stuck (deepens : Deepens visit) {before after : List α}
    (shows : Shows (visit depth) (before ++ x :: after) Good P)
    (ends_well : ∀ y ∈ before, ∃ enough, ∀ l, ∃ l', visit enough y l = some (l', .ok ()))
    (stuck : ∀ l, P l → visit depth x l = none) (start : P l) :
    visitAll (visit depth) (before ++ x :: after) l = none := by
  induction before generalizing l with
  | nil => simp only [List.nil_append, visitAll, stuck l start]
  | cons y rest ih =>
      obtain ⟨⟨enough, ok⟩, others⟩ := List.forall_mem_cons.mp ends_well
      obtain ⟨l', first⟩ := ok l
      simp only [List.cons_append, visitAll]
      cases here : visit depth y l with
      | none => rfl
      | some result =>
          -- with more depth the visit ends well, so it has done so here
          have same := (deepens.le (Nat.le_max_left depth enough) here).symm.trans
            (deepens.le (Nat.le_max_right depth enough) first)
          cases same
          exact ih shows.tail others (shows y (List.mem_cons_self ..) l l' start here).2

end Loops

namespace FileSystem

variable {Node : Type} {fs : FileSystem Node} {relativeRoot path : PathBuf} {depth : Nat}
  {l l' : Listing} {n : Node} {dir : List (Option OsText)}

theorem tryOpen_of_lookup (found : fs.lookup path = some n) :
    ∃ localFile, fs.tryOpen relativeRoot path = .ok localFile := by
  unfold tryOpen
  rw [found]
  exact ⟨_, rfl⟩

theorem tryOpen_of_missing (missing : fs.lookup path = none) :
    ∃ e, fs.tryOpen relativeRoot path = .error e := by
  unfold tryOpen
  rw [missing]
  exact ⟨_, rfl⟩

/-- The lists after a path was opened. -/
def opened (fs : FileSystem Node) (relativeRoot path : PathBuf) (l : Listing) : Listing where
  fileList := l.fileList ++ (fs.tryOpen relativeRoot path).toOption.toList
  visited := l.visited ++ [path]

theorem constrFileLst_visited (before : path ∈ l.visited) :
    fs.constrFileLst relativeRoot (depth + 1) path l = some (l, .ok ()) := by
  rw [constrFileLst, if_pos before]

theorem constrFileLst_missing (fresh : path ∉ l.visited) (missing : fs.lookup path = none) :
    ∃ e l', ∀ depth, fs.constrFileLst relativeRoot (depth + 1) path l = some (l', .error e) := by
  obtain ⟨e, fails⟩ := @tryOpen_of_missing Node fs relativeRoot path missing
  refine ⟨e, { l with visited := l.visited ++ [path] }, fun depth => ?_⟩
  rw [constrFileLst, if_neg fresh]
  simp only [fails]

theorem constrFileLst_file (fresh : path ∉ l.visited) (found : fs.lookup path = some n)
    (isFile : fs.isDir n = false) :
    fs.constrFileLst relativeRoot (depth + 1) path l =
      some (fs.opened relativeRoot path l, .ok ()) := by
  obtain ⟨localFile, opens⟩ := @tryOpen_of_lookup Node fs relativeRoot path n found
  rw [constrFileLst, if_neg fresh, opened]
  simp only [opens, found, isFile]
  rfl

theorem constrFileLst_dir (fresh : path ∉ l.visited) (found : fs.lookup path = some n)
    (isDir : fs.isDir n = true) (read : fs.readDir n = some dir) :
    fs.constrFileLst relativeRoot (depth + 1) path l =
      visitAll (visitEntry (fs.constrFileLst relativeRoot depth) path) dir
        (fs.opened relativeRoot path l) := by
  obtain ⟨localFile, opens⟩ := @tryOpen_of_lookup Node fs relativeRoot path n found
  rw [constrFileLst, if_neg fresh, opened]
  simp only [opens, found, isDir, read, if_true]
  rfl

/-- All that a walk can come to: it has been there, it fails, or it opens a file or a directory. -/
theorem constrFileLst_cases (fs : FileSystem Node) (relativeRoot path : PathBuf) (l : Listing) :
    (path ∈ l.visited ∧
      ∀ depth, fs.constrFileLst relativeRoot (depth + 1) path l = some (l, .ok ())) ∨
    path ∉ l.visited ∧
      ((∃ e l', ∀ depth,
        fs.constrFileLst relativeRoot (depth + 1) path l = some (l', .error e)) ∨
      ∃ n, fs.lookup path = some n ∧
        (fs.isDir n = false ∧ (∀ depth, fs.constrFileLst relativeRoot (depth + 1) path l =
            some (fs.opened relativeRoot path l, .ok ())) ∨
          fs.isDir n = true ∧ ∃ dir, fs.readDir n = some dir ∧ ∀ depth,
            fs.constrFileLst relativeRoot (depth + 1) path l =
              visitAll (visitEntry (fs.constrFileLst relativeRoot depth) path) dir
                (fs.opened relativeRoot path l))) := by
  by_cases before : path ∈ l.visited
  · exact .inl ⟨before, fun _ => constrFileLst_visited before⟩
  refine .inr ⟨before, ?_⟩
  cases found : fs.lookup path with
  | none => exact .inl (constrFileLst_missing before found)
  | some n =>
      cases isDir : fs.isDir n with
      | false => exact .inr ⟨n, rfl, .inl ⟨isDir, fun _ => constrFileLst_file before found isDir⟩⟩
      | true =>
          cases read : fs.readDir n with
          | some dir =>
              exact .inr ⟨n, rfl, .inr ⟨isDir, dir, read,
                fun _ => constrFileLst_dir before found isDir read⟩⟩
          | none =>
              obtain ⟨localFile, opens⟩ := @tryOpen_of_lookup Node fs relativeRoot path n found
              refine .inl ⟨.fileError path.text.toStringLossy "Permission denied",
                fs.opened relativeRoot path l, fun depth => ?_⟩
              rw [constrFileLst, if_neg before, opened]
              simp only [opens, found, isDir, read, if_true]
              rfl

theorem constrFileLst_deepens (fs : FileSystem Node) (relativeRoot : PathBuf) :
    Deepens (fs.constrFileLst relativeRoot) := by
  intro depth
  induction depth with
  | zero => nofun
  | succ depth ih =>
      intro path l result returns
      obtain ⟨-, here⟩ | ⟨-, ⟨e, l', here⟩ | ⟨n, -, ⟨-, here⟩ | ⟨-, dir, -, here⟩⟩⟩ :=
        fs.constrFileLst_cases relativeRoot path l
      · rwa [here] at returns ⊢
      · rwa [here] at returns ⊢
      · rwa [here] at returns ⊢
      · rw [here] at returns ⊢
        exact (ih.visitEntry path).visitAll _ _ _ returns

/-- What has been visited is sound, but for the directories the walk is in. -/
def Known (fs : FileSystem Node) (within : List PathBuf) (l : Listing) : Prop :=
  ∀ path ∈ l.visited, path ∈ within ∨ fs.SoundPath path

variable {within : List PathBuf}

theorem Known.opened (known : fs.Known within l) :
    fs.Known (path :: within) (fs.opened relativeRoot path l) := by
  intro q visited
  rcases List.mem_append.mp visited with before | here
  · exact (known q before).imp (List.mem_cons_of_mem path) id
  · rw [List.mem_singleton.mp here]
    exact .inl (List.mem_cons_self ..)

theorem Known.close (known : fs.Known (path :: within) l) (sound : fs.SoundPath path) :
    fs.Known within l := by
  intro q visited
  rcases known q visited with inside | isSound
  · rcases List.mem_cons.mp inside with rfl | outer
    · exact .inr sound
    · exact .inl outer
  · exact .inr isSound

/-- The directories the walk is in have shorter paths. -/
def Outer (within : List PathBuf) (path : PathBuf) : Prop := ∀ q ∈ within, q.length < path.length

theorem Outer.join (outer : Outer within path) (name : OsText) :
    Outer (path :: within) (path.join name) := by
  have longer : path.length < (path.join name).length := by
    rw [PathBuf.join, List.length_append]
    exact Nat.lt_succ_self _
  intro q inside
  rcases List.mem_cons.mp inside with rfl | further
  · exact longer
  · exact (outer q further).trans longer

theorem Known.sound_of_visited (known : fs.Known within l) (outer : Outer within path)
    (visited : path ∈ l.visited) : fs.SoundPath path :=
  (known path visited).resolve_left fun inside => (outer path inside).false

/-- At this depth, what is walked without an error is sound. -/
def ShowsSound (fs : FileSystem Node) (relativeRoot : PathBuf) (depth : Nat) : Prop :=
  ∀ path within l l', Outer within path → fs.Known within l →
    fs.constrFileLst relativeRoot depth path l = some (l', .ok ()) →
      fs.SoundPath path ∧ fs.Known within l'

theorem ShowsSound.entries (showsSound : fs.ShowsSound relativeRoot depth)
    (outer : Outer within path) (found : fs.lookup path = some n) (read : fs.readDir n = some dir) :
    Shows (visitEntry (fs.constrFileLst relativeRoot depth) path) dir (fs.SoundEntry n)
      (fs.Known (path :: within)) := by
  intro entry member l l' known ok
  cases entry with
  | none => cases ok
  | some name =>
      obtain ⟨⟨m, found', sound⟩, known'⟩ := showsSound _ _ l l' (outer.join name) known ok
      rw [fs.lookup_join path n dir name found read member] at found'
      exact ⟨⟨name, m, rfl, found', sound⟩, known'⟩

theorem constrFileLst_sound (fs : FileSystem Node) (relativeRoot : PathBuf) (depth : Nat) :
    fs.ShowsSound relativeRoot depth := by
  induction depth with
  | zero => nofun
  | succ depth ih =>
      intro path within l l' outer known ok
      obtain ⟨before, here⟩ | ⟨-, ⟨e, l', here⟩ | ⟨n, found, ⟨isDir, here⟩ | ⟨-, dir, read, here⟩⟩⟩ :=
        fs.constrFileLst_cases relativeRoot path l
      · rw [here] at ok
        cases ok
        exact ⟨known.sound_of_visited outer before, known⟩
      · rw [here] at ok
        cases ok
      · rw [here] at ok
        cases ok
        have sound : fs.SoundPath path := ⟨n, found, sound_of_file isDir⟩
        exact ⟨sound, known.opened.close sound⟩
      · rw [here] at ok
        obtain ⟨entries, known'⟩ := (ih.entries outer found read).visitAll known.opened ok
        have sound : fs.SoundPath path := ⟨n, found, sound_of_entries read entries⟩
        exact ⟨sound, known'.close sound⟩

theorem exists_enough {α : Type*} {xs : List α} {q : Nat → α → Prop}
    (more : ∀ depth x, q depth x → q (depth + 1) x) (each : ∀ x ∈ xs, ∃ depth, q depth x) :
    ∃ depth, ∀ x ∈ xs, q depth x := by
  have le {depth depth' : Nat} (le : depth ≤ depth') {x : α} (holds : q depth x) : q depth' x := by
    induction le with
    | refl => exact holds
    | step _ ih => exact more _ x ih
  induction xs with
  | nil => exact ⟨0, nofun⟩
  | cons x rest ih =>
      obtain ⟨first, here⟩ := each x (List.mem_cons_self ..)
      obtain ⟨second, later⟩ := ih fun y member => each y (List.mem_cons_of_mem x member)
      refine ⟨max first second, List.forall_mem_cons.mpr ⟨?_, fun y member => ?_⟩⟩
      · exact le (Nat.le_max_left ..) here
      · exact le (Nat.le_max_right ..) (later y member)

/-- What is sound is walked without an error, whatever has been visited. -/
theorem constrFileLst_of_sound [Finite Node] (relativeRoot : PathBuf) (sound : fs.Sound n) :
    ∃ depth, ∀ path l, fs.lookup path = some n →
      ∃ l', fs.constrFileLst relativeRoot depth path l = some (l', .ok ()) := by
  induction Descents.acc_of_not_endless sound.2 with
  | intro n _ ih =>
      cases isDir : fs.isDir n with
      | false =>
          refine ⟨1, fun path l found => ?_⟩
          by_cases before : path ∈ l.visited
          · exact ⟨l, constrFileLst_visited before⟩
          · exact ⟨_, constrFileLst_file before found isDir⟩
      | true =>
          obtain ⟨dir, read, -⟩ := sound.1 n .refl isDir
          have each : ∀ entry ∈ dir, ∃ depth, ∀ path l, fs.lookup path = some n →
              ∃ l', visitEntry (fs.constrFileLst relativeRoot depth) path entry l =
                some (l', .ok ()) := by
            intro entry member
            obtain ⟨name, m, rfl, leads, below⟩ := sound.entries isDir read entry member
            obtain ⟨depth, ok⟩ := ih m ⟨isDir, dir, name, read, member, leads⟩ below
            refine ⟨depth, fun path l found => ok (path.join name) l ?_⟩
            rw [fs.lookup_join path n dir name found read member, leads]
          have more : ∀ depth (entry : Option OsText), (∀ path l, fs.lookup path = some n →
              ∃ l', visitEntry (fs.constrFileLst relativeRoot depth) path entry l =
                some (l', .ok ())) → ∀ path l, fs.lookup path = some n →
              ∃ l', visitEntry (fs.constrFileLst relativeRoot (depth + 1)) path entry l =
                some (l', .ok ()) := by
            intro depth entry holds path l found
            obtain ⟨l', ok⟩ := holds path l found
            exact ⟨l', (constrFileLst_deepens fs relativeRoot depth).visitEntry path _ _ _ ok⟩
          obtain ⟨depth, ok⟩ := exists_enough more each
          refine ⟨depth + 1, fun path l found => ?_⟩
          by_cases before : path ∈ l.visited
          · exact ⟨l, constrFileLst_visited before⟩
          · rw [constrFileLst_dir before found isDir read]
            exact visitAll_total (fun entry member l => ok entry member path l found) _

theorem visitEntry_deepens (path : PathBuf) :
    Deepens fun depth => visitEntry (fs.constrFileLst relativeRoot depth) path :=
  fun depth => (constrFileLst_deepens fs relativeRoot depth).visitEntry path

/-- Where the walk does not come to a directory inside itself, it ends. -/
theorem constrFileLst_returns [Finite Node] (ends : ¬ Endless fs.Enters n)
    (found : fs.lookup path = some n) (outer : Outer within path) (known : fs.Known within l) :
    ∃ depth result, fs.constrFileLst relativeRoot depth path l = some result := by
  induction Descents.acc_of_not_endless ends generalizing path within l with
  | intro n _ ih =>
      obtain ⟨-, here⟩ | ⟨-, ⟨e, l', here⟩ | ⟨n', found', ⟨-, here⟩ | ⟨isDir, dir, read, here⟩⟩⟩ :=
        fs.constrFileLst_cases relativeRoot path l
      · exact ⟨1, _, here 0⟩
      · exact ⟨1, _, here 0⟩
      · exact ⟨1, _, here 0⟩
      · cases found.symm.trans found'
        have entries : ∃ depth result,
            visitAll (visitEntry (fs.constrFileLst relativeRoot depth) path) dir
              (fs.opened relativeRoot path l) = some result := by
          refine visitAll_returns (visitEntry_deepens path)
            (fun depth => (constrFileLst_sound fs relativeRoot depth).entries outer found read)
            ?_ known.opened
          rintro earlier entry after rfl sound l known
          cases entry with
          | none => exact ⟨0, _, rfl⟩
          | some name =>
              have there := fs.lookup_join path n _ name found read (by simp)
              cases leads : fs.follow n name with
              | none =>
                  rw [leads] at there
                  by_cases visited : path.join name ∈ l.visited
                  · exact ⟨1, _, constrFileLst_visited visited⟩
                  · obtain ⟨e, l', fails⟩ :=
                      @constrFileLst_missing Node fs relativeRoot _ l visited there
                    exact ⟨1, _, fails 0⟩
              | some m =>
                  rw [leads] at there
                  have enters : fs.Enters n m := ⟨isDir, earlier, name, after, read, sound, leads⟩
                  exact ih m enters (fun endless => ends (endless.of_reach (.single enters)))
                    there (outer.join name) known
        obtain ⟨depth, result, returns⟩ := entries
        exact ⟨depth + 1, result, (here depth).trans returns⟩

/-- Where it does, no depth is enough. -/
theorem constrFileLst_stuck [Finite Node] (endless : Endless fs.Enters n)
    (found : fs.lookup path = some n) (outer : Outer within path) (known : fs.Known within l) :
    fs.constrFileLst relativeRoot depth path l = none := by
  induction depth generalizing n path within l with
  | zero => rfl
  | succ depth ih =>
      have fresh : path ∉ l.visited := by
        intro visited
        obtain ⟨n', found', sound⟩ := known.sound_of_visited outer visited
        cases found.symm.trans found'
        exact sound.2 (endless.mono Enters.leads)
      obtain ⟨m, ⟨isDir, earlier, name, after, read, sound, leads⟩, further⟩ := endless.step
      have there := fs.lookup_join path n _ name found read (by simp)
      rw [leads] at there
      rw [constrFileLst_dir fresh found isDir read]
      refine visitAll_stuck (visitEntry_deepens path)
        ((constrFileLst_sound fs relativeRoot depth).entries outer found read) ?_ ?_ known.opened
      · intro entry member
        obtain ⟨name', m', rfl, leads', below⟩ := sound entry member
        obtain ⟨enough, ok⟩ := constrFileLst_of_sound relativeRoot below
        refine ⟨enough, fun l => ok (path.join name') l ?_⟩
        rw [fs.lookup_join path n _ name' found read (List.mem_append_left _ member), leads']
      · intro l known
        exact ih further there (outer.join name) known

end FileSystem

end RemoteControl.Clipboard
