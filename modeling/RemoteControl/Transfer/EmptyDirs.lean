import RemoteControl.Transfer.Directory

/-! # Removing empty directories

`remove_all_empty_dir` goes through a tree, removes the links that it finds, and then every
directory that has become empty, the deepest first. What the system refuses is passed over. All
is permitted here, but on Windows a link for directories is not removed as a file is.
-/

namespace RemoteControl.Transfer.Directory

open Clipboard (OsText)

/-- `read_dir` knows the entry, so that the recursion does. -/
def known (m : Meta) : Bool := (toStr m.name).any (· ≠ [])

/-- `remove_file` takes the link. -/
def removable (windows forDir : Bool) : Bool := !(windows && forDir)

/-- What is left of the entries of a directory; `remove_dir` then takes a directory in which
    nothing is left. -/
def removeAllEmptyDir (windows : Bool) : Listing → Listing
  | .nil => .nil
  | .leaf m (.file size) rest => .leaf m (.file size) (removeAllEmptyDir windows rest)
  | .leaf m (.link toDir forDir) rest =>
      if known m && removable windows forDir then removeAllEmptyDir windows rest
      else .leaf m (.link toDir forDir) (removeAllEmptyDir windows rest)
  | .dir m inside rest =>
      if known m then
        if removeAllEmptyDir windows inside = .nil then removeAllEmptyDir windows rest
        else .dir m (removeAllEmptyDir windows inside) (removeAllEmptyDir windows rest)
      else .dir m inside (removeAllEmptyDir windows rest)

/-- What is left of an entry. -/
def kept (windows : Bool) (e : Meta × Node) : Option Node :=
  match e.2 with
  | .leaf (.file size) => some (.leaf (.file size))
  | .leaf (.link toDir forDir) =>
      if known e.1 && removable windows forDir then none else some (.leaf (.link toDir forDir))
  | .dir inside =>
      if known e.1 then
        if removeAllEmptyDir windows inside = .nil then none else some
          (.dir (removeAllEmptyDir windows inside))
      else some (.dir inside)

variable {windows : Bool} {l d d' : Listing} {m : Meta} {n n' : Node} {path rest : List OsText}
  {inside : Listing}

theorem entries_removeAllEmptyDir (windows : Bool) (l : Listing) :
    (removeAllEmptyDir windows l).entries = l.entries.filterMap fun e =>
      (kept windows e).map (e.1, ·) := by
  induction l with
  | nil => rfl
  | leaf m leaf rest ih =>
      rw [Listing.entries_leaf, List.filterMap_cons]
      cases leaf with
      | file size =>
          show (m, _) :: (removeAllEmptyDir windows rest).entries = _
          rw [ih]
          rfl
      | link toDir forDir =>
          unfold removeAllEmptyDir
          cases gone : known m && removable windows forDir with
          | true =>
              rw [if_pos rfl, ih,
                show kept windows (m, .leaf (.link toDir forDir)) = none from if_pos gone]
              rfl
          | false =>
              rw [if_neg nofun, Listing.entries_leaf, ih,
                show kept windows (m, .leaf (.link toDir forDir)) = some _ from if_neg (gone ▸ nofun)]
              rfl
  | dir m inside rest _ ih =>
      rw [Listing.entries_dir, List.filterMap_cons]
      unfold removeAllEmptyDir kept
      dsimp only
      split
      · split
        · exact ih
        · rw [Listing.entries_dir, ih]
          rfl
      · rw [Listing.entries_dir, ih]
        rfl

theorem mem_removeAllEmptyDir_iff : (m, n') ∈ (removeAllEmptyDir windows l).entries ↔
    ∃ n, (m, n) ∈ l.entries ∧ kept windows (m, n) = some n' := by
  rw [entries_removeAllEmptyDir, List.mem_filterMap]
  constructor
  · rintro ⟨⟨m', n⟩, there, keeps⟩
    obtain ⟨n₁, keeps, same⟩ := Option.map_eq_some_iff.mp keeps
    cases same
    exact ⟨n, there, keeps⟩
  · rintro ⟨n, there, keeps⟩
    exact ⟨(m, n), there, by rw [keeps]; rfl⟩

theorem ne_nil_of_mem (there : (m, n) ∈ l.entries) : l ≠ .nil := by
  rintro rfl
  exact absurd there List.not_mem_nil

theorem exists_mem_of_ne_nil (some_entry : l ≠ .nil) : ∃ m n, (m, n) ∈ l.entries := by
  cases l with
  | nil => exact absurd rfl some_entry
  | leaf m leaf rest => exact ⟨m, _, List.mem_cons_self ..⟩
  | dir m inside rest => exact ⟨m, _, List.mem_cons_self ..⟩

/-- Every entry counts. -/
def anyEntry : Meta → Prop := fun _ => True

theorem EntryAt.ne_nil (there : EntryAt anyEntry l path m n) : l ≠ .nil := by
  obtain ⟨entry, -⟩ | ⟨m', inside, rest, entry, -⟩ := entryAt_iff.mp there
  · exact ne_nil_of_mem entry
  · exact ne_nil_of_mem entry

theorem kept_dir_of_ne_nil (isKnown : known m = true)
    (some_entry : removeAllEmptyDir windows inside ≠ .nil) :
    kept windows (m, .dir inside) = some (.dir (removeAllEmptyDir windows inside)) := by
  unfold kept
  dsimp only
  rw [if_pos isKnown, if_neg some_entry]

theorem kept_dir_of_unknown (unknown : ¬known m = true) :
    kept windows (m, .dir inside) = some (.dir inside) := if_neg unknown

/-- Of a directory that the recursion comes to, something is left in it or nothing of it. -/
theorem kept_dir_eq_some (isKnown : known m = true)
    (keeps : kept windows (m, .dir inside) = some n') :
    removeAllEmptyDir windows inside ≠ .nil ∧ n' = .dir (removeAllEmptyDir windows inside) := by
  by_cases nothing : removeAllEmptyDir windows inside = .nil
  · unfold kept at keeps
    dsimp only at keeps
    rw [if_pos isKnown, if_pos nothing] at keeps
    cases keeps
  · rw [kept_dir_of_ne_nil isKnown nothing] at keeps
    exact ⟨nothing, (Option.some_inj.mp keeps).symm⟩

theorem kept_link_eq_none_iff {toDir forDir : Bool} :
    kept windows (m, .leaf (.link toDir forDir)) = none ↔ known m = true ∧ removable windows forDir = true := by
  unfold kept
  simp

theorem kept_link_eq_some {toDir forDir : Bool}
    (stays : ¬(known m = true ∧ removable windows forDir = true)) :
    kept windows (m, .leaf (.link toDir forDir)) = some (.leaf (.link toDir forDir)) :=
  if_neg fun goes => stays (Bool.and_eq_true_iff.mp goes)

/-- What is left at a name is left of the entry of that name. -/
theorem kept_of_mem (fine : l.Wellformed windows) (there : (m, n) ∈ l.entries) {m' : Meta}
    (left_ : (m', n') ∈ (removeAllEmptyDir windows l).entries) (same : m.name = m'.name) :
    m = m' ∧ kept windows (m, n) = some n' := by
  obtain ⟨n₁, there', keeps⟩ := mem_removeAllEmptyDir_iff.mp left_
  cases fine.unique there there' same
  exact ⟨rfl, keeps⟩

/-- A directory that the recursion comes to is left as it leaves it, if anything is left in it. -/
theorem dirAt_removeAllEmptyDir (there : DirAt (fun m => known m = true) l path d)
    (some_entry : removeAllEmptyDir windows d ≠ .nil) :
    DirAt anyEntry (removeAllEmptyDir windows l) path (removeAllEmptyDir windows d) ∧
      removeAllEmptyDir windows l ≠ .nil := by
  induction there with
  | here l => exact ⟨.here _, some_entry⟩
  | @inside l inside d m path entry isKnown below ih =>
      obtain ⟨left_, more⟩ := ih some_entry
      have entry' :
          (m, .dir (removeAllEmptyDir windows inside)) ∈ (removeAllEmptyDir windows l).entries :=
        mem_removeAllEmptyDir_iff.mpr ⟨_, entry, kept_dir_of_ne_nil isKnown more⟩
      exact ⟨.inside entry' trivial left_, ne_nil_of_mem entry'⟩

/-- What is left below such a directory is what the recursion leaves of it. -/
theorem entryAt_of_removeAllEmptyDir (fine : l.Wellformed windows)
    (there : DirAt (fun m => known m = true) l path d)
    (longer : EntryAt anyEntry (removeAllEmptyDir windows l) (path ++ rest) m n) (proper : rest ≠ []) :
    EntryAt anyEntry (removeAllEmptyDir windows d) rest m n := by
  induction there with
  | here l => exact longer
  | @inside l inside d m₁ path entry isKnown below ih =>
      obtain ⟨-, -, whole⟩ | ⟨m', i, rest', entry', -, deeper, whole⟩ := entryAt_iff.mp longer
      · exact absurd (List.append_eq_nil_iff.mp (List.cons.inj whole).2).2 proper
      · obtain ⟨same, rfl⟩ := List.cons.inj whole
        obtain ⟨rfl, keeps⟩ := kept_of_mem fine entry entry' same
        obtain ⟨-, same⟩ := kept_dir_eq_some isKnown keeps
        cases same
        exact ih (fine.inside entry) deeper

/-- A path that goes on goes through a directory. -/
theorem EntryAt.dirAt (there : EntryAt anyEntry l (path ++ rest) m n) (proper : rest ≠ []) :
    ∃ d, DirAt anyEntry l path d := by
  induction path generalizing l with
  | nil => exact ⟨l, .here l⟩
  | cons name path ih =>
      obtain ⟨-, -, whole⟩ | ⟨m', inside, rest', entry, -, below, whole⟩ := entryAt_iff.mp there
      · exact absurd (List.append_eq_nil_iff.mp (List.cons.inj whole).2).2 proper
      · obtain ⟨rfl, rfl⟩ := List.cons.inj whole
        obtain ⟨d, above⟩ := ih below
        exact ⟨d, .inside entry trivial above⟩

/-- There is a file somewhere in the directory. -/
def HasFile (d : Listing) : Prop := ∃ path m size, EntryAt anyEntry d path m (.leaf (.file size))

/-- The directory at the path is left. -/
def Survives (left_ : Listing) (path : List OsText) : Prop :=
  left_ ≠ .nil ∧ ∃ d, DirAt anyEntry left_ path d

/-- Every file is left where it was, no link is left in a directory that the recursion comes to,
    and a directory is left if there is a file in it and only then. -/
structure Exact (windows : Bool) (l : Listing) : Prop where
  files : ∀ path m size, EntryAt anyEntry l path m (.leaf (.file size)) →
    EntryAt anyEntry (removeAllEmptyDir windows l) path m (.leaf (.file size))
  links : ∀ path d, DirAt (fun m => known m = true) l path d → ∀ m toDir forDir,
    (m, .leaf (.link toDir forDir)) ∈ d.entries →
    ¬∃ m' n, EntryAt anyEntry (removeAllEmptyDir windows l) (path ++ [m.name]) m' n
  dirs : ∀ path d, DirAt anyEntry l path d → (Survives (removeAllEmptyDir windows l) path ↔ HasFile d)

/-- Every link can be removed, and where the recursion cannot go there is no directory without a
    file. -/
structure Removable (windows : Bool) (d : Listing) : Prop where
  links : ∀ m toDir forDir,
    (m, .leaf (.link toDir forDir)) ∈ d.entries → known m = true ∧ removable windows forDir = true
  unknown : ∀ m inside, (m, .dir inside) ∈ d.entries → known m = false →
    ∀ path d', DirAt anyEntry inside path d' → HasFile d'

theorem file_removeAllEmptyDir {size : Nat} (there : EntryAt anyEntry l path m (.leaf (.file size))) :
    EntryAt anyEntry (removeAllEmptyDir windows l) path m (.leaf (.file size)) := by
  induction l using Listing.inside_induction generalizing path with
  | step l ih =>
      obtain ⟨entry, -, rfl⟩ | ⟨m', inside, rest, entry, -, below, rfl⟩ := entryAt_iff.mp there
      · exact .mk (.here _) (mem_removeAllEmptyDir_iff.mpr ⟨_, entry, rfl⟩) trivial
      · by_cases isKnown : known m' = true
        · have deeper := ih m' inside entry below
          exact deeper.below
            (mem_removeAllEmptyDir_iff.mpr ⟨_, entry, kept_dir_of_ne_nil isKnown deeper.ne_nil⟩) trivial
        · exact below.below
            (mem_removeAllEmptyDir_iff.mpr ⟨_, entry, kept_dir_of_unknown isKnown⟩) trivial

theorem HasFile.above (below : HasFile d') (entry : (m, .dir d') ∈ d.entries) : HasFile d := by
  obtain ⟨path, m', size, there⟩ := below
  exact ⟨_, m', size, there.below entry trivial⟩

/-- Something is left only where there is a file. -/
theorem hasFile_of_ne_nil (fine : ∀ path d,
    DirAt (fun m => known m = true) l path d → Removable windows d)
    (some_entry : removeAllEmptyDir windows l ≠ .nil) : HasFile l := by
  induction l using Listing.inside_induction with
  | step l ih =>
      obtain ⟨m, n', left_⟩ := exists_mem_of_ne_nil some_entry
      obtain ⟨n, entry, keeps⟩ := mem_removeAllEmptyDir_iff.mp left_
      cases n with
      | leaf leaf =>
          cases leaf with
          | file size => exact ⟨_, m, size, .mk (.here l) entry trivial⟩
          | link toDir forDir =>
              have gone := (fine [] l (.here l)).links m toDir forDir entry
              rw [kept_link_eq_none_iff.mpr gone] at keeps
              cases keeps
      | dir inside =>
          by_cases isKnown : known m = true
          · have more := (kept_dir_eq_some isKnown keeps).1
            exact (ih m inside entry
              (fun _ d below => fine _ d (.inside entry isKnown below)) more).above entry
          · exact ((fine [] l (.here l)).unknown m inside entry (Bool.eq_false_iff.mpr isKnown)
              [] inside
              (.here inside)).above entry

theorem hasFile_of_survives (wellformed : l.Wellformed windows)
    (fine : ∀ path d, DirAt (fun m => known m = true) l path d → Removable windows d)
    (there : DirAt anyEntry l path d) (some_entry : removeAllEmptyDir windows l ≠ .nil)
    (left_ : DirAt anyEntry (removeAllEmptyDir windows l) path d') :
    HasFile d := by
  induction there with
  | here l => exact hasFile_of_ne_nil fine some_entry
  | @inside l inside d m path entry passes below ih =>
      by_cases isKnown : known m = true
      · generalize whole : m.name :: path = path' at left_
        cases left_ with
        | here => cases whole
        | @inside _ i _ m' _ entry' _ below' =>
            obtain ⟨same, rfl⟩ := List.cons.inj whole
            obtain ⟨rfl, keeps⟩ := kept_of_mem wellformed entry entry' same
            obtain ⟨more, same⟩ := kept_dir_eq_some isKnown keeps
            cases same
            exact ih (wellformed.inside entry)
              (fun _ d deeper => fine _ d (.inside entry isKnown deeper)) more below'
      · exact (fine [] l (.here l)).unknown m inside entry (Bool.eq_false_iff.mpr isKnown) path d below

theorem exact_of_removable (wellformed : l.Wellformed windows)
    (fine : ∀ path d, DirAt (fun m => known m = true) l path d → Removable windows d) :
    Exact windows l where
  files _ _ _ there := file_removeAllEmptyDir there
  links path d there m toDir forDir entry := by
    rintro ⟨m', n, left_⟩
    have gone := (fine path d there).links m toDir forDir entry
    obtain ⟨entry', -, same⟩ | ⟨m₁, inside, rest, entry', -, -, same⟩ :=
      entryAt_iff.mp (entryAt_of_removeAllEmptyDir wellformed there left_ (List.cons_ne_nil _ _))
    all_goals
      obtain ⟨-, keeps⟩ := kept_of_mem (wellformed.dirAt there) entry entry' (List.cons.inj same).1
      rw [kept_link_eq_none_iff.mpr gone] at keeps
      cases keeps
  dirs path d there := by
    constructor
    · rintro ⟨some_entry, d', left_⟩
      exact hasFile_of_survives wellformed fine there some_entry left_
    · rintro ⟨rest, m, size, file⟩
      have left_ :
          EntryAt anyEntry (removeAllEmptyDir windows l) (path ++ rest) m (.leaf (.file size)) :=
        file_removeAllEmptyDir (file.under there)
      exact ⟨left_.ne_nil, left_.dirAt file.path_ne_nil⟩

theorem Exact.removable (exact_ : Exact windows l) (there : DirAt (fun m => known m = true) l path d) :
    Removable windows d where
  links m toDir forDir entry := by
    by_contra stays
    have left_ := mem_removeAllEmptyDir_iff.mpr ⟨_, entry, @kept_link_eq_some _ _ toDir forDir stays⟩
    obtain ⟨above, -⟩ := dirAt_removeAllEmptyDir there (ne_nil_of_mem left_)
    exact exact_.links path d there m toDir forDir entry ⟨m, _, .mk above left_ trivial⟩
  unknown m inside entry isUnknown rest d' below := by
    have keeps : kept windows (m, .dir inside) = some (.dir inside) :=
      kept_dir_of_unknown (Bool.eq_false_iff.mp isUnknown)
    have left_ := mem_removeAllEmptyDir_iff.mpr ⟨_, entry, keeps⟩
    obtain ⟨above, some_entry⟩ := dirAt_removeAllEmptyDir there (ne_nil_of_mem left_)
    have there' : DirAt anyEntry l (path ++ m.name :: rest) d' :=
      (there.mono fun _ _ => trivial).trans (.inside entry trivial below)
    exact (exact_.dirs _ d' there').mp ⟨some_entry, d', above.trans (.inside left_ trivial below)⟩

/-- The removal is exact if and only if, in every directory that the recursion comes to, all links
    have texts for names and can be removed as files are, and no directory without a file is where
    the recursion cannot go because of a name that is no text. -/
theorem remove_all_empty_dir_exact_iff (tree : Tree windows) :
    Exact windows tree.listing ↔
      ∀ path d, DirAt (fun m => known m = true) tree.listing path d → Removable windows d :=
  ⟨fun exact_ _ _ there => exact_.removable there, exact_of_removable tree.wellformed⟩

/-- An empty directory whose name is no text. -/
def unnamedDir : Tree false where
  listing := .dir ⟨[.invalid [255]], false, 0⟩ .nil .nil
  wellformed := ⟨⟨nofun, rfl⟩, List.not_mem_nil, trivial, trivial⟩

/-- The directory stays although there is no file in it, and so does the one that it is in. -/
theorem unnamed_directory_stays :
    ¬∀ (windows : Bool) (tree : Tree windows), Exact windows tree.listing := by
  intro claimed
  obtain ⟨path, m, size, file⟩ :=
    ((claimed false unnamedDir).dirs [] _ (.here _)).mp ⟨nofun, _, .here _⟩
  obtain ⟨entry, -⟩ | ⟨m', inside, rest, entry, -, below, -⟩ := entryAt_iff.mp file
  · cases List.mem_singleton.mp entry
  · cases List.mem_singleton.mp entry
    exact below.ne_nil rfl

end RemoteControl.Transfer.Directory
