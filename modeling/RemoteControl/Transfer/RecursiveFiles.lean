import Mathlib.Data.List.Nodup
import RemoteControl.Transfer.Directory

/-! # Listing a tree

`get_recursive_files` lists the files of a folder with their paths and `get_empty_dirs_recursive`
the directories in which there is nothing to see. The receiver makes the directories of the
first list and those of the second.
-/

namespace RemoteControl.Transfer.Directory

open Clipboard (OsText OsChar)

section Listings

variable (windows includeHidden : Bool)

/-- `read_dir_recursive`, in a directory -/
def readDirRecursive (prefix_ : Text) : Listing → List FileEntry
  | .nil => []
  | .leaf m l rest =>
      (match readEntry windows includeHidden (m, .leaf l) with
        | some entry =>
            match entry.entryType with
            | .file => [{ entry with name := pathJoin windows prefix_ entry.name }]
            | _ => []
        | none => []) ++ readDirRecursive prefix_ rest
  | .dir m inside rest =>
      (match readEntry windows includeHidden (m, .dir inside) with
        | some entry =>
            match entry.entryType with
            | .dir => readDirRecursive (pathJoin windows prefix_ entry.name) inside
            | _ => []
        | none => []) ++ readDirRecursive prefix_ rest

def getRecursiveFiles (l : Listing) : List FileEntry := readDirRecursive windows includeHidden [] l

/-- The loop of `read_empty_dirs_recursive` over the entries of a directory, and the directory itself
    where it has none. A directory that is listed has a path and no entries. -/
def emptyDirsBelow (path : Text) : Listing → List Text
  | .nil => []
  | .leaf _ _ rest => emptyDirsBelow path rest
  | .dir m inside rest =>
      (match readEntry windows includeHidden (m, .dir inside) with
        | some entry =>
            match entry.entryType with
            | .dir =>
                let below := pathJoin windows path entry.name
                if readDir windows includeHidden inside = [] then [below] else emptyDirsBelow below inside
            | _ => []
        | none => []) ++ emptyDirsBelow path rest

def getEmptyDirsRecursive (path : Text) (l : Listing) : List Text :=
  if readDir windows includeHidden l = [] then [path] else emptyDirsBelow windows includeHidden path l

end Listings

/-- A path below a base as the program writes it, if all of its names are texts. -/
def under (windows : Bool) : Text → List OsText → Option Text
  | base, [] => some base
  | base, name :: rest => (toStr name).bind fun name => under windows (pathJoin windows base name) rest

section Texts

variable {windows : Bool} {name : OsText} {text : Text} {path : List OsText}

theorem toStr_eq_some : toStr name = some text ↔ name = text.map OsChar.char := by
  induction name generalizing text with
  | nil =>
      cases text with
      | nil => exact iff_of_true rfl rfl
      | cons c rest => exact iff_of_false nofun nofun
  | cons c rest ih =>
      cases c with
      | invalid bytes =>
          cases text with
          | nil => exact iff_of_false nofun nofun
          | cons c' rest' => exact iff_of_false nofun fun same => nomatch (List.cons.inj same).1
      | char c =>
          unfold toStr
          rw [Option.map_eq_some_iff]
          constructor
          · rintro ⟨rest', texts, rfl⟩
            rw [ih.mp texts]
            rfl
          · intro same
            cases text with
            | nil => cases same
            | cons c' rest' =>
                obtain ⟨same, rest_same⟩ := List.cons.inj same
                cases same
                exact ⟨rest', ih.mpr rest_same, rfl⟩

theorem toStr_inj {name' : OsText} (texts : toStr name = some text)
    (texts' : toStr name' = some text) : name = name' :=
  (toStr_eq_some.mp texts).trans (toStr_eq_some.mp texts').symm

/-- What the names of a tree let through. -/
structure CleanText (windows : Bool) (name : Text) : Prop where
  nonempty : name ≠ []
  noSep : ∀ c ∈ name, isSep windows c = false
  noColon : windows = true → ':' ∉ name

theorem cleanText (nonempty : name ≠ []) (clean : name.all (Listing.cleanChar windows) = true)
    (texts : toStr name = some text) : CleanText windows text := by
  have chars := toStr_eq_some.mp texts
  subst chars
  have each (c : Char) (inside : c ∈ text) : Listing.cleanChar windows (.char c) = true :=
    List.all_eq_true.mp clean _ (List.mem_map_of_mem inside)
  refine ⟨fun none => nonempty (none ▸ rfl), fun c inside => ?_, fun on_windows colon => ?_⟩
  · have fine := each c inside
    unfold Listing.cleanChar at fine
    rw [Bool.and_eq_true, Bool.not_eq_true'] at fine
    exact fine.1
  · have fine := each ':' colon
    rw [on_windows] at fine
    exact absurd fine (by decide)

/-- What `join` puts between a path and a name. -/
def glue (windows : Bool) (base : Text) : Text :=
  if base = [] ∨ base.getLast?.any (isSep windows) ∨ hasDrive windows base ∧ base.length = 2 then []
  else [mainSep windows]

theorem pathJoin_clean {name : Text} (clean : CleanText windows name) (base : Text) :
    pathJoin windows base name = base ++ glue windows base ++ name := by
  have noDrive : hasDrive windows name = false := by
    unfold hasDrive
    split
    · next c rest =>
        cases on : windows with
        | false => rfl
        | true => exact absurd (by simp) (clean.noColon on)
    · rfl
  have noSep : name.head?.any (isSep windows) = false := by
    cases name with
    | nil => rfl
    | cons c rest => exact clean.noSep c (List.mem_cons_self ..)
  unfold pathJoin glue
  rw [noDrive, noSep]
  simp only [Bool.false_eq_true, if_false]
  split
  · rw [List.append_nil]
  · rw [List.append_assoc]
    rfl

/-- A text of two letters with a drive ends in a colon. -/
theorem eq_colon_of_hasDrive {front : Text} {last : Char}
    (drive : hasDrive windows (front ++ [last]) = true)
    (two : (front ++ [last]).length = 2) : windows = true ∧ last = ':' := by
  obtain ⟨c, rfl⟩ : ∃ c, front = [c] := by
    rw [List.length_append] at two
    exact List.length_eq_one_iff.mp (Nat.succ.inj two)
  unfold hasDrive at drive
  split at drive
  · next c' rest same =>
      cases same
      exact ⟨(Bool.and_eq_true_iff.mp drive).1, rfl⟩
  · cases drive

/-- After a name there is always a separator. -/
theorem glue_pathJoin {name : Text} (clean : CleanText windows name) (base : Text) :
    glue windows (pathJoin windows base name) = [mainSep windows] := by
  rw [pathJoin_clean clean]
  obtain none | ⟨front, last, rfl⟩ := List.eq_nil_or_concat name
  · exact absurd none clean.nonempty
  rw [List.concat_eq_append, ← List.append_assoc]
  have inside : last ∈ front.concat last := by
    rw [List.concat_eq_append]; exact List.mem_append_right _ (List.mem_singleton_self _)
  unfold glue
  refine if_neg ?_
  rintro (none | sep | ⟨drive, two⟩)
  · exact List.concat_ne_nil _ _ none
  · rw [List.getLast?_concat, Option.any_some, clean.noSep last inside] at sep
    cases sep
  · obtain ⟨on_windows, rfl⟩ := eq_colon_of_hasDrive drive two
    exact clean.noColon on_windows inside

/-- Two lists that go on with a separator or end agree up to there. -/
theorem append_inj_of_sep {left right tail tail' : Text} (noSep : ∀ c ∈ left, isSep windows c = false)
    (noSep' : ∀ c ∈ right, isSep windows c = false) (sep : tail.head?.all (isSep windows) = true)
    (sep' : tail'.head?.all (isSep windows) = true) (same : left ++ tail = right ++ tail') :
    left = right ∧ tail = tail' := by
  induction left generalizing right with
  | nil =>
      cases right with
      | nil => exact ⟨rfl, same⟩
      | cons c right =>
          rw [List.nil_append] at same
          rw [same] at sep
          exact absurd (noSep' c (List.mem_cons_self ..))
            (by rw [show isSep windows c = true from sep]; decide)
  | cons c left ih =>
      cases right with
      | nil =>
          rw [List.nil_append] at same
          rw [← same] at sep'
          exact absurd (noSep c (List.mem_cons_self ..))
            (by rw [show isSep windows c = true from sep']; decide)
      | cons c' right =>
          obtain ⟨rfl, later⟩ := List.cons.inj same
          obtain ⟨rfl, tails⟩ := ih (fun x inside => noSep x (List.mem_cons_of_mem _ inside))
            (fun x inside => noSep' x (List.mem_cons_of_mem _ inside)) later
          exact ⟨rfl, tails⟩

theorem isSep_mainSep (windows : Bool) : isSep windows (mainSep windows) = true := by
  cases windows <;> decide

/-- The names of a path are ones that a tree lets through. -/
def CleanPath (windows : Bool) (path : List OsText) : Prop :=
  ∀ name ∈ path, name ≠ [] ∧ name.all (Listing.cleanChar windows) = true

variable {base : Text}

/-- After a name a path goes on with a separator, if it goes on. -/
theorem exists_of_under (clean : CleanPath windows path)
    (glued : glue windows base = [mainSep windows]) (texts : under windows base path = some text) :
    ∃ tail, text = base ++ tail ∧ tail.head?.all (isSep windows) = true := by
  induction path generalizing base with
  | nil =>
      cases texts
      exact ⟨[], (List.append_nil _).symm, rfl⟩
  | cons name rest ih =>
      obtain ⟨n, chars, texts⟩ := Option.bind_eq_some_iff.mp texts
      have fine := clean name (List.mem_cons_self ..)
      have cleanName := cleanText fine.1 fine.2 chars
      obtain ⟨tail, rfl, -⟩ := ih (fun x inside => clean x (List.mem_cons_of_mem _ inside))
        (glue_pathJoin cleanName base) texts
      refine ⟨mainSep windows :: (n ++ tail), ?_, isSep_mainSep windows⟩
      rw [pathJoin_clean cleanName, glued]
      simp only [List.append_assoc, List.cons_append, List.nil_append]

/-- A path has its first name after the base. -/
theorem exists_of_under_cons {rest : List OsText} (clean : CleanPath windows (name :: rest))
    (texts : under windows base (name :: rest) = some text) :
    ∃ n tail, toStr name = some n ∧ CleanText windows n ∧
      under windows (pathJoin windows base n) rest = some text ∧
      text = base ++ glue windows base ++ (n ++ tail) ∧ tail.head?.all (isSep windows) = true := by
  obtain ⟨n, chars, texts⟩ := Option.bind_eq_some_iff.mp texts
  have fine := clean name (List.mem_cons_self ..)
  have cleanName := cleanText fine.1 fine.2 chars
  obtain ⟨tail, rfl, sep⟩ := exists_of_under (fun x inside => clean x (List.mem_cons_of_mem _ inside))
    (glue_pathJoin cleanName base) texts
  refine ⟨n, tail, chars, cleanName, texts, ?_, sep⟩
  rw [pathJoin_clean cleanName, List.append_assoc _ n tail]

/-- The text of a path gives its names back. -/
theorem under_inj {path' : List OsText} (clean : CleanPath windows path)
    (clean' : CleanPath windows path') (texts : under windows base path = some text)
    (texts' : under windows base path' = some text) : path = path' := by
  induction path generalizing base path' with
  | nil =>
      cases texts
      cases path' with
      | nil => rfl
      | cons name rest =>
          obtain ⟨n, tail, -, cleanName, -, same, -⟩ := exists_of_under_cons clean' texts'
          rw [List.append_assoc, List.self_eq_append_right] at same
          exact absurd
            (List.append_eq_nil_iff.mp (List.append_eq_nil_iff.mp same).2).1 cleanName.nonempty
  | cons name rest ih =>
      obtain ⟨n, tail, chars, cleanName, later, same, sep⟩ := exists_of_under_cons clean texts
      cases path' with
      | nil =>
          cases texts'
          rw [List.append_assoc, List.self_eq_append_right] at same
          exact absurd
            (List.append_eq_nil_iff.mp (List.append_eq_nil_iff.mp same).2).1 cleanName.nonempty
      | cons name' rest' =>
          obtain ⟨n', tail', chars', cleanName', later', same', sep'⟩ :=
            exists_of_under_cons clean' texts'
          obtain ⟨rfl, -⟩ := append_inj_of_sep cleanName.noSep cleanName'.noSep sep sep'
            (List.append_cancel_left (same.symm.trans same'))
          obtain rfl := toStr_inj chars chars'
          rw [ih (fun x inside => clean x (List.mem_cons_of_mem _ inside))
            (fun x inside => clean' x (List.mem_cons_of_mem _ inside)) later later']

/-- All the names are texts. -/
theorem under_eq_none_of_mem (inside : name ∈ path) (noText : toStr name = none) (base : Text) :
    under windows base path = none := by
  induction path generalizing base with
  | nil => exact absurd inside List.not_mem_nil
  | cons name' rest ih =>
      unfold under
      cases List.mem_cons.mp inside with
      | inl here => rw [← here, noText, Option.bind_none]
      | inr later =>
          cases chars : toStr name' with
          | none => rfl
          | some n => exact ih later _

end Texts

section Listed

variable {windows includeHidden : Bool} {l : Listing} {m : Meta} {n : Node} {entry : FileEntry}

/-- The entry that a program makes of something with a text for a name. -/
def entryOf (windows : Bool) (text : Text) (m : Meta) (n : Node) : FileEntry :=
  { name := text, entryType := n.entryType, isHidden := isHidden windows m, size := n.size
    modifiedTime := m.modifiedTime }

theorem readEntry_eq_some_iff (nonempty : m.name ≠ []) :
    readEntry windows includeHidden (m, n) = some entry ↔
      ∃ text, toStr m.name = some text ∧ visible windows includeHidden m = true ∧
        entry = entryOf windows text m n := by
  unfold readEntry visible
  cases texts : toStr m.name with
  | none => exact iff_of_false nofun fun ⟨_, some_text, _⟩ => nomatch some_text
  | some text =>
      have some_text : text ≠ [] := fun empty => nonempty ((toStr_eq_some.mp texts).trans (empty ▸ rfl))
      dsimp only [Option.getD_some]
      rw [if_neg some_text]
      cases hidden : isHidden windows m <;> cases includeHidden <;>
        simp [entryOf, hidden, eq_comm]

/-- What the loop of `read_dir_recursive` makes of an entry. -/
def listed (windows includeHidden : Bool) (base : Text) (e : Meta × Node) : List FileEntry :=
  match readEntry windows includeHidden e, e.2 with
  | some entry, .leaf (.file _) => [{ entry with name := pathJoin windows base entry.name }]
  | some entry,
    .dir inside => readDirRecursive windows includeHidden (pathJoin windows base entry.name) inside
  | _, _ => []

theorem mem_listed_iff (nonempty : m.name ≠ []) :
    entry ∈ listed windows includeHidden base (m, n) ↔
      ∃ text, toStr m.name = some text ∧ visible windows includeHidden m = true ∧
        ((∃ size, n = .leaf (.file size) ∧
            entry = entryOf windows (pathJoin windows base text) m n) ∨
          ∃ inside, n = .dir inside ∧
            entry ∈ readDirRecursive windows includeHidden (pathJoin windows base text) inside) := by
  unfold listed
  cases read : readEntry windows includeHidden (m, n) with
  | none =>
      refine iff_of_false List.not_mem_nil ?_
      rintro ⟨text, texts, seen, -⟩
      cases read.symm.trans ((readEntry_eq_some_iff nonempty).mpr ⟨text, texts, seen, rfl⟩)
  | some shown =>
      obtain ⟨text, texts, seen, rfl⟩ := (readEntry_eq_some_iff nonempty).mp read
      rcases n with (_ | _) | _ <;> simp [texts, seen, entryOf]

theorem readDirRecursive_eq (base : Text) (l : Listing) :
    readDirRecursive windows includeHidden base l =
      l.entries.flatMap (listed windows includeHidden base) := by
  have type_of (e : Meta × Node) (entry : FileEntry)
      (read : readEntry windows includeHidden e = some entry) :
      entry.entryType = e.2.entryType := by
    unfold readEntry at read
    dsimp only at read
    split at read
    · cases read
    · split at read
      · cases read
      · cases read
        rfl
  induction l with
  | nil => rfl
  | leaf m leaf rest ih =>
      unfold readDirRecursive Listing.entries
      rw [List.flatMap_cons, ih]
      congr 1
      unfold listed
      cases read : readEntry windows includeHidden (m, .leaf leaf) with
      | none => rfl
      | some entry =>
          have kind := type_of _ entry read
          obtain ⟨name, entryType, hidden, size, modifiedTime⟩ := entry
          cases leaf with
          | file size => cases kind; rfl
          | link toDir forDir => cases toDir <;> cases kind <;> rfl
  | dir m inside rest _ ih =>
      unfold readDirRecursive Listing.entries
      rw [List.flatMap_cons, ih]
      congr 1
      unfold listed
      cases read : readEntry windows includeHidden (m, .dir inside) with
      | none => rfl
      | some entry =>
          have kind := type_of _ entry read
          obtain ⟨name, entryType, hidden, size, modifiedTime⟩ := entry
          cases kind
          rfl

/-- The list has the visible files with a text for a path, and nothing else. -/
theorem mem_readDirRecursive_iff (fine : l.Wellformed windows) :
    entry ∈ readDirRecursive windows includeHidden base l ↔
      ∃ path m size text,
        EntryAt (fun m => visible windows includeHidden m = true) l path m (.leaf (.file size)) ∧
        under windows base path = some text ∧ entry = entryOf windows text m (.leaf (.file size)) := by
  induction l using Listing.inside_induction generalizing base with
  | step l ih =>
      rw [readDirRecursive_eq, List.mem_flatMap]
      constructor
      · rintro ⟨⟨m, n⟩, there, listed_⟩
        obtain ⟨text, texts, seen, ⟨size, rfl, rfl⟩ | ⟨inside, rfl, further⟩⟩ :=
          (mem_listed_iff (fine.clean there).1).mp listed_
        · refine ⟨[m.name], m, size, _, entryAt_iff.mpr (.inl ⟨there, seen, rfl⟩), ?_, rfl⟩
          unfold under
          rw [texts]
          rfl
        · obtain ⟨path, m', size, text', below, texts', rfl⟩ :=
            (ih m inside there (fine.inside there)).mp further
          refine ⟨m.name :: path, m', size, text', below.below there seen, ?_, rfl⟩
          unfold under
          rw [texts]
          exact texts'
      · rintro ⟨path, m, size, text, there, texts, rfl⟩
        obtain ⟨entry, seen, rfl⟩ | ⟨m', inside, rest, entry, seen, below, rfl⟩ := entryAt_iff.mp there
        · obtain ⟨name, chars, texts⟩ := Option.bind_eq_some_iff.mp texts
          cases texts
          refine ⟨(m, .leaf (.file size)), entry, (mem_listed_iff (fine.clean entry).1).mpr ?_⟩
          exact ⟨name, chars, seen, .inl ⟨size, rfl, rfl⟩⟩
        · obtain ⟨name, chars, texts⟩ := Option.bind_eq_some_iff.mp texts
          refine ⟨(m', .dir inside), entry, (mem_listed_iff (fine.clean entry).1).mpr ?_⟩
          exact ⟨name, chars, seen, .inr ⟨inside, rfl, (ih m' inside entry (fine.inside entry)).mpr
            ⟨rest, m, size, text, below, texts, rfl⟩⟩⟩

theorem readDir_eq_nil_iff (fine : l.Wellformed windows) :
    readDir windows includeHidden l = [] ↔
      ∀ m n, (m, n) ∈ l.entries → visible windows includeHidden m = true → toStr m.name = none := by
  unfold readDir
  rw [List.filterMap_eq_nil_iff]
  constructor
  · intro nothing m n there seen
    cases texts : toStr m.name with
    | none => rfl
    | some text =>
        exact absurd ((readEntry_eq_some_iff (fine.clean there).1).mpr ⟨text, texts, seen, rfl⟩)
          (by rw [nothing (m, n) there]; nofun)
  · rintro nothing ⟨m, n⟩ there
    cases read : readEntry windows includeHidden (m, n) with
    | none => rfl
    | some entry =>
        obtain ⟨text, texts, seen, -⟩ := (readEntry_eq_some_iff (fine.clean there).1).mp read
        exact absurd texts (by rw [nothing m n there seen]; nofun)

/-- What the loop of `read_empty_dirs_recursive` makes of an entry. -/
def listedEmpty (windows includeHidden : Bool) (base : Text) (e : Meta × Node) : List Text :=
  match readEntry windows includeHidden e, e.2 with
  | some entry,
    .dir inside =>
    getEmptyDirsRecursive windows includeHidden (pathJoin windows base entry.name) inside
  | _, _ => []

theorem emptyDirsBelow_eq (base : Text) (l : Listing) :
    emptyDirsBelow windows includeHidden base l =
      l.entries.flatMap (listedEmpty windows includeHidden base) := by
  induction l with
  | nil => rfl
  | leaf m leaf rest ih =>
      unfold emptyDirsBelow Listing.entries
      rw [List.flatMap_cons, ih]
      unfold listedEmpty
      cases readEntry windows includeHidden (m, .leaf leaf) <;> rfl
  | dir m inside rest _ ih =>
      unfold emptyDirsBelow Listing.entries
      rw [List.flatMap_cons, ih]
      congr 1
      unfold listedEmpty
      cases read : readEntry windows includeHidden (m, .dir inside) with
      | none => rfl
      | some entry =>
          unfold readEntry at read
          dsimp only at read
          split at read
          · cases read
          · split at read
            · cases read
            · cases read
              rfl

/-- The list has the visible directories with a text for a path in which there is nothing to see. -/
theorem mem_getEmptyDirsRecursive_iff (fine : l.Wellformed windows) {text : Text} :
    text ∈ getEmptyDirsRecursive windows includeHidden base l ↔
      ∃ path d, DirAt (fun m => visible windows includeHidden m = true) l path d ∧
        under windows base path = some text ∧ readDir windows includeHidden d = [] := by
  induction l using Listing.inside_induction generalizing base with
  | step l ih =>
      unfold getEmptyDirsRecursive
      by_cases nothing : readDir windows includeHidden l = []
      · rw [if_pos nothing, List.mem_singleton]
        constructor
        · rintro rfl
          exact ⟨[], l, .here l, rfl, nothing⟩
        · rintro ⟨path, d, there, texts, -⟩
          obtain ⟨rfl, -⟩ | ⟨m', inside, rest, entry, seen, -, rfl⟩ := dirAt_iff.mp there
          · exact (Option.some.inj texts).symm
          · rw [under, (readDir_eq_nil_iff fine).mp nothing m' _ entry seen] at texts
            cases texts
      · rw [if_neg nothing, emptyDirsBelow_eq, List.mem_flatMap]
        constructor
        · rintro ⟨⟨m, n⟩, there, listed_⟩
          unfold listedEmpty at listed_
          cases read : readEntry windows includeHidden (m, n) with
          | none => rw [read] at listed_; exact absurd listed_ List.not_mem_nil
          | some shown =>
              rw [read] at listed_
              obtain ⟨name, texts, seen, rfl⟩ := (readEntry_eq_some_iff (fine.clean there).1).mp read
              cases n with
              | leaf leaf => exact absurd listed_ List.not_mem_nil
              | dir inside =>
                  obtain ⟨path, d, below, texts', empty⟩ :=
                    (ih m inside there (fine.inside there)).mp listed_
                  refine ⟨m.name :: path, d, .inside there seen below, ?_, empty⟩
                  unfold under
                  rw [texts]
                  exact texts'
        · rintro ⟨path, d, there, texts, empty⟩
          obtain ⟨rfl, rfl⟩ | ⟨m', inside, rest, entry, seen, below, rfl⟩ := dirAt_iff.mp there
          · exact absurd empty nothing
          · obtain ⟨name, chars, texts⟩ := Option.bind_eq_some_iff.mp texts
            refine ⟨(m', .dir inside), entry, ?_⟩
            unfold listedEmpty
            rw [(readEntry_eq_some_iff (fine.clean entry).1).mpr ⟨name, chars, seen, rfl⟩]
            exact (ih m' inside entry (fine.inside entry)).mpr ⟨rest, d, below, texts, empty⟩

variable {through : Meta → Prop} {path : List OsText} {d : Listing}

variable (fine : l.Wellformed windows)

include fine

theorem cleanPath_dirAt (there : DirAt through l path d) :
    CleanPath windows path := by
  induction there with
  | here l => exact fun _ inside => absurd inside List.not_mem_nil
  | inside entry passes below ih =>
      intro name inside
      cases List.mem_cons.mp inside with
      | inl here => exact here ▸ fine.clean entry
      | inr later => exact ih (fine.inside entry) name later

theorem cleanPath_entryAt (there : EntryAt through l path m n) :
    CleanPath windows path := by
  obtain ⟨parent, entry, passes⟩ := there
  intro name inside
  cases List.mem_append.mp inside with
  | inl before => exact cleanPath_dirAt fine parent name before
  | inr last => exact (List.mem_singleton.mp last) ▸ (fine.dirAt parent).clean entry

/-- What is listed for an entry has a path that begins with its name. -/
theorem exists_of_mem_listed (there : (m, n) ∈ l.entries)
    (listed_ : entry ∈ listed windows includeHidden base (m, n)) :
    ∃ rest, CleanPath windows (m.name :: rest) ∧
      under windows base (m.name :: rest) = some entry.name := by
  obtain ⟨text, texts, seen, ⟨size, rfl, rfl⟩ | ⟨inside, rfl, further⟩⟩ :=
    (mem_listed_iff (fine.clean there).1).mp listed_
  · refine ⟨[], fun name inside => (List.mem_singleton.mp inside) ▸ fine.clean there, ?_⟩
    unfold under
    rw [texts]
    rfl
  · obtain ⟨path, m', size, text', below, texts', rfl⟩ :=
      (mem_readDirRecursive_iff (fine.inside there)).mp further
    refine ⟨path, fun name inside' => ?_, ?_⟩
    · cases List.mem_cons.mp inside' with
      | inl here => exact here ▸ fine.clean there
      | inr later => exact cleanPath_entryAt (fine.inside there) below name later
    · unfold under
      rw [texts]
      exact texts'

theorem pairwise_names :
    l.entries.Pairwise fun e e' => e.1.name ≠ e'.1.name := by
  induction l with
  | nil => exact .nil
  | leaf m leaf rest ih =>
      exact .cons (fun e later same => fine.2.1 (same ▸ List.mem_map_of_mem later)) (ih fine.2.2)
  | dir m inside rest _ ih =>
      exact .cons (fun e later same => fine.2.1 (same ▸ List.mem_map_of_mem later)) (ih fine.2.2.2)

theorem nodup_readDirRecursive (base : Text) :
    ((readDirRecursive windows includeHidden base l).map (·.name)).Nodup := by
  induction l using Listing.inside_induction generalizing base with
  | step l ih =>
      rw [readDirRecursive_eq, List.map_flatMap, List.nodup_flatMap]
      constructor
      · rintro ⟨m, n⟩ there
        unfold listed
        cases readEntry windows includeHidden (m, n) with
        | none => exact .nil
        | some shown =>
            cases n with
            | leaf leaf =>
                cases leaf with
                | file size => exact List.nodup_singleton _
                | link toDir forDir => exact .nil
            | dir inside => exact ih m inside there (fine.inside there) _
      · refine (pairwise_names fine).imp_of_mem fun {e e'} there there' different => ?_
        intro name listed_ listed_'
        obtain ⟨entry, inside, rfl⟩ := List.mem_map.mp listed_
        obtain ⟨entry', inside', same⟩ := List.mem_map.mp listed_'
        obtain ⟨rest, clean, texts⟩ := exists_of_mem_listed fine there inside
        obtain ⟨rest', clean', texts'⟩ := exists_of_mem_listed fine there' inside'
        exact different (List.cons.inj (under_inj clean clean' texts (same ▸ texts'))).1

end Listed

variable {windows includeHidden : Bool} {l d : Listing} {m : Meta} {n : Node} {path : List OsText}

def Node.isLink : Node → Bool
  | .leaf (.link _ _) => true
  | _ => false

/-- Every visible file and directory has a text for a name. -/
def Named (windows includeHidden : Bool) (l : Listing) : Prop :=
  ∀ path m n, EntryAt (fun m => visible windows includeHidden m = true) l path m n → n.isLink = false →
    toStr m.name ≠ none

/-- There is something to see in the directory, and all of it is links. -/
def OnlyLinks (windows includeHidden : Bool) (d : Listing) : Prop :=
  readDir windows includeHidden d ≠ [] ∧
    ∀ m n, (m, n) ∈ d.entries → visible windows includeHidden m = true → n.isLink = true

/-- Every visible file is listed once, nothing else is, and every visible directory is above a file
    of the first list or above or at a directory of the second. `root` is the path of the tree. -/
structure Reproduces (windows includeHidden : Bool) (root : Text) (l : Listing) : Prop where
  files : ∀ path m size,
    EntryAt (fun m => visible windows includeHidden m = true) l path m (.leaf (.file size)) →
    ∃ text, under windows [] path = some text ∧
      entryOf windows text m (.leaf (.file size)) ∈ getRecursiveFiles windows includeHidden l ∧
      ((getRecursiveFiles windows includeHidden l).map (·.name)).count text = 1
  only : ∀ entry ∈ getRecursiveFiles windows includeHidden l, ∃ path m size,
    EntryAt (fun m => visible windows includeHidden m = true) l path m (.leaf (.file size)) ∧
      under windows [] path = some entry.name
  dirs : ∀ path d, DirAt (fun m => visible windows includeHidden m = true) l path d →
    (∃ file m size,
      EntryAt (fun m => visible windows includeHidden m = true) l file m (.leaf (.file size)) ∧
        path <+: file.dropLast ∧
        ∃ entry ∈ getRecursiveFiles windows includeHidden l, under windows [] file = some entry.name) ∨
      ∃ below d', DirAt (fun m => visible windows includeHidden m = true) l below d' ∧ path <+: below ∧
        ∃ text ∈ getEmptyDirsRecursive windows includeHidden root l,
          under windows root below = some text

theorem under_append (base : Text) (path path' : List OsText) :
    under windows base (path ++ path') = (under windows base path).bind fun base =>
      under windows base path' := by
  induction path generalizing base with
  | nil => rfl
  | cons name rest ih =>
      show ((toStr name).bind fun n => under windows (pathJoin windows base n) (rest ++ path')) =
        ((toStr name).bind fun n => under windows (pathJoin windows base n) rest).bind _
      cases toStr name with
      | none => rfl
      | some n => exact ih _

theorem Named.under_dirAt (named : Named windows includeHidden l) (base : Text)
    (there : DirAt (fun m => visible windows includeHidden m = true) l path d) :
    ∃ text, under windows base path = some text := by
  induction there generalizing base with
  | here l => exact ⟨base, rfl⟩
  | @inside l inside d m path entry passes below ih =>
      obtain ⟨name, texts⟩ := Option.ne_none_iff_exists'.mp
        (named _ m (.dir inside) (entryAt_iff.mpr (.inl ⟨entry, passes, rfl⟩)) rfl)
      unfold under
      rw [texts]
      exact ih (fun _ m n there => named _ m n (there.below entry passes)) _

theorem Named.under_entryAt (named : Named windows includeHidden l) (base : Text)
    (there : EntryAt (fun m => visible windows includeHidden m = true) l path m n)
    (noLink : n.isLink = false) :
    ∃ text, under windows base path = some text := by
  obtain ⟨name, texts⟩ := Option.ne_none_iff_exists'.mp (named _ m n there noLink)
  obtain ⟨parent, entry, passes⟩ := there
  obtain ⟨above, texts'⟩ := named.under_dirAt base parent
  rw [under_append, texts']
  refine ⟨pathJoin windows above name, ?_⟩
  rw [Option.bind_some]
  unfold under
  rw [texts]
  rfl

/-- Below every directory there is a file or a directory in which there is nothing to see. -/
theorem exists_below (fine : l.Wellformed windows)
    (plain : ∀ path d, DirAt (fun m => visible windows includeHidden m = true) l path d →
      ¬OnlyLinks windows includeHidden d) :
    (∃ path m size,
      EntryAt (fun m => visible windows includeHidden m = true) l path m (.leaf (.file size))) ∨
      ∃ path d, DirAt (fun m => visible windows includeHidden m = true) l path d ∧
        readDir windows includeHidden d = [] := by
  induction l using Listing.inside_induction with
  | step l ih =>
      by_cases nothing : readDir windows includeHidden l = []
      · exact .inr ⟨[], l, .here l, nothing⟩
      · obtain ⟨m, n, there, seen, noLink⟩ :
            ∃ m n, (m, n) ∈ l.entries ∧ visible windows includeHidden m = true ∧
            n.isLink = false := by
          by_contra none
          refine plain [] l (.here l) ⟨nothing, fun m n there seen => ?_⟩
          by_contra noLink
          exact none ⟨m, n, there, seen, Bool.eq_false_iff.mpr noLink⟩
        cases n with
        | leaf leaf =>
            cases leaf with
            | file size => exact .inl ⟨_, m, size, .mk (.here l) there seen⟩
            | link toDir forDir => cases noLink
        | dir inside =>
            obtain ⟨path, m', size, below⟩ | ⟨path, d, below, empty⟩ :=
              ih m inside there (fine.inside there)
              fun path d below => plain _ d (.inside there seen below)
            · exact .inl ⟨_, m', size, below.below there seen⟩
            · exact .inr ⟨_, d, .inside there seen below, empty⟩

theorem reproduces_of_named (fine : l.Wellformed windows) (root : Text)
    (named : Named windows includeHidden l)
    (plain : ∀ path d, DirAt (fun m => visible windows includeHidden m = true) l path d →
      ¬OnlyLinks windows includeHidden d) : Reproduces windows includeHidden root l where
  files path m size there := by
    obtain ⟨text, texts⟩ := named.under_entryAt [] there rfl
    have inside := (mem_readDirRecursive_iff fine).mpr ⟨path, m, size, text, there, texts, rfl⟩
    exact ⟨text, texts, inside, List.count_eq_one_of_mem (nodup_readDirRecursive fine [])
      (List.mem_map.mpr ⟨_, inside, rfl⟩)⟩
  only entry inside := by
    obtain ⟨path, m, size, text, there, texts, rfl⟩ := (mem_readDirRecursive_iff fine).mp inside
    exact ⟨path, m, size, there, texts⟩
  dirs path d there := by
    obtain ⟨path', m, size, below⟩ | ⟨path', d', below, empty⟩ := exists_below (fine.dirAt there)
      fun path' d' below => plain _ d' (there.trans below)
    · have whole := below.under there
      obtain ⟨text, texts⟩ := named.under_entryAt [] whole rfl
      refine .inl ⟨_, m, size, whole, ?_, _,
        (mem_readDirRecursive_iff fine).mpr ⟨_, m, size, text, whole, texts, rfl⟩, texts⟩
      rw [List.dropLast_append_of_ne_nil below.path_ne_nil]
      exact List.prefix_append _ _
    · have whole := there.trans below
      obtain ⟨text, texts⟩ := named.under_dirAt root whole
      exact .inr ⟨_, d', whole, List.prefix_append _ _, text,
        (mem_getEmptyDirsRecursive_iff fine).mpr ⟨_, d', whole, texts, empty⟩, texts⟩

theorem Reproduces.named {root : Text} (reproduces : Reproduces windows includeHidden root l) :
    Named windows includeHidden l := by
  intro path m n there noLink noText
  have last : m.name ∈ path := by
    obtain ⟨parent, entry, passes⟩ := there
    exact List.mem_append_right _ (List.mem_singleton_self _)
  cases n with
  | leaf leaf =>
      cases leaf with
      | link toDir forDir => cases noLink
      | file size =>
          obtain ⟨text, texts, -⟩ := reproduces.files path m size there
          rw [under_eq_none_of_mem last noText] at texts
          cases texts
  | dir inside =>
      obtain ⟨parent, entry, passes⟩ := there
      obtain ⟨file, m', size, -, above, entry', -, texts⟩ | ⟨below, d', -, above, text, -, texts⟩ :=
        reproduces.dirs _ inside (parent.snoc entry passes)
      · rw [under_eq_none_of_mem
          ((above.trans (List.dropLast_prefix file)).subset last) noText] at texts
        cases texts
      · rw [under_eq_none_of_mem (above.subset last) noText] at texts
        cases texts

theorem Reproduces.not_onlyLinks (fine : l.Wellformed windows) {root : Text}
    (reproduces : Reproduces windows includeHidden root l)
    (there : DirAt (fun m => visible windows includeHidden m = true) l path d) :
    ¬OnlyLinks windows includeHidden d := by
  rintro ⟨something, links⟩
  obtain ⟨file, m, size, whole, above, -⟩ | ⟨below, d', whole, ⟨rest, rfl⟩, text, listed_, texts⟩ :=
    reproduces.dirs path d there
  · obtain ⟨rest, same⟩ := above
    have longer : EntryAt (fun m => visible windows includeHidden m = true) l
        (path ++ (rest ++ [file.getLast whole.path_ne_nil])) m (.leaf (.file size)) := by
      rw [← List.append_assoc, same, List.dropLast_append_getLast]
      exact whole
    have inside := longer.split fine there (List.concat_ne_nil _ _)
    obtain ⟨entry, seen, -⟩ | ⟨m', inner, rest', entry, seen, -⟩ := entryAt_iff.mp inside
    · exact nomatch links m _ entry seen
    · exact nomatch links m' _ entry seen
  · have inside := there.split fine whole
    obtain ⟨rfl, rfl⟩ | ⟨m', inner, rest', entry, seen, -, rfl⟩ := dirAt_iff.mp inside
    · obtain ⟨path', d'', there', texts', empty⟩ := (mem_getEmptyDirsRecursive_iff fine).mp listed_
      rw [List.append_nil] at texts
      obtain rfl := under_inj (cleanPath_dirAt fine there) (cleanPath_dirAt fine there') texts texts'
      exact something ((there.unique fine there') ▸ empty)
    · exact nomatch links m' _ entry seen

/-- The two lists reproduce a tree exactly when every visible file and directory has a text for a
    name and in no visible directory there is something to see but nothing except links. -/
theorem recursive_listing_iff (tree : Tree windows) (includeHidden : Bool) (root : Text) :
    Reproduces windows includeHidden root tree.listing ↔
      Named windows includeHidden tree.listing ∧
        ∀ path d, DirAt (fun m => visible windows includeHidden m = true) tree.listing path d →
          ¬OnlyLinks windows includeHidden d :=
  ⟨fun reproduces =>
    ⟨reproduces.named, fun _ _ there => reproduces.not_onlyLinks tree.wellformed there⟩,
    fun ⟨named, plain⟩ => reproduces_of_named tree.wellformed root named plain⟩

/-- A folder with a link in it and nothing else. -/
def linkOnly : Tree false where
  listing := .leaf ⟨[.char 'a'], false, 0⟩ (.link false false) .nil
  wellformed := ⟨⟨nofun, rfl⟩, List.not_mem_nil, trivial⟩

/-- It is in neither list, so that the receiver does not make it. -/
theorem link_only_folder_lost :
    ¬∀ (windows includeHidden : Bool) (tree : Tree windows) (root : Text),
      Reproduces windows includeHidden root tree.listing := by
  intro claimed
  obtain ⟨file, m, size, -, -, entry, inside, -⟩ | ⟨below, d', -, -, text, inside, -⟩ :=
    (claimed false true linkOnly ['r']).dirs [] _ (.here _)
  · exact absurd inside
      (by rw [show getRecursiveFiles false true linkOnly.listing = [] by decide]; exact List.not_mem_nil)
  · exact absurd inside (by
      rw [show getEmptyDirsRecursive false true ['r'] linkOnly.listing =
        [] by decide]; exact List.not_mem_nil)

end RemoteControl.Transfer.Directory
