import Mathlib.Data.Bool.AllAny
import RemoteControl.PathVolumes
import RemoteControl.Transfer.Containment

/-! # Where the accepted names of an upload lead

`validate_file_name_no_traversal` splits a name at both separators by hand; `TransferJob::join` and
`fs::rename_file` hand it to `PathBuf::push`. Here both are put side by side on Unix and on Windows,
where a base can be a prefix that the name completes.
-/

namespace RemoteControl.Transfer.Targets

open PathText
  (push parent parts prefixOf parsePrefix verbatim beginsWithSep Below IsName Clean IsBareServer
  IsBareVerbatim Completes Finished)

/-- `TransferJob::join` -/
def join (windows : Bool) (p name : Text) : Text := if name = [] then p else push windows p name

/-- What `rename_file` asks of the file system and how it shows a path. -/
structure Files where
  exists_ : Text → Bool
  debug : Text → String

/-- `fs::rename_file` up to the call of `std::fs::rename`, with the path that it renames to. -/
def renameTo (windows : Bool) (files : Files) (path newName : Text) : Except String Text :=
  if files.exists_ path then
    match parent windows path with
    | some dir => .ok (push windows dir newName)
    | none => .error ("Parent directoy of " ++ files.debug path ++ " not exists")
  else .error (files.debug path ++ " not exists")

/-- `rename_file` of the connection manager. -/
def renameFile (windows : Bool) (files : Files) (path newName : Text) : Except String Text :=
  if newName = [] then .error "new file name cannot be empty"
  else
    match validateFileNameNoTraversal windows newName with
    | .error err => .error err
    | .ok () => renameTo windows files path newName

section Names

variable {windows : Bool} {base name suffix : Text}

theorem isName_of_parts (named : name ≠ []) (noPrefix : prefixOf windows name = none)
    (relative : beginsWithSep windows name = false)
    (plain : dotDot ∉ (name.splitOnP (PathText.isSep windows)).filter (PathText.counts none)) :
    IsName windows name := by
  have behind : PathText.afterPrefix windows name = name := by
    rw [PathText.afterPrefix, noPrefix]
    rfl
  refine ⟨named, noPrefix, relative, ?_⟩
  rw [parts, noPrefix, behind, PathText.partsBehind, PathText.bodyOf, relative, if_neg Bool.false_ne_true]
  exact plain

/-- Only a drive is a prefix that does not begin with a separator. -/
theorem prefixOf_eq_none (relative : beginsWithSep windows name = false)
    (noDrive : hasDrive windows name = false) :
    prefixOf windows name = none := by
  cases windows with
  | false => rfl
  | true =>
      show parsePrefix name = none
      match name with
      | [] => rfl
      | [_] => rfl
      | a :: b :: rest =>
          have first : PathText.isSep true a = false := relative
          have other : ¬(PathText.isSep true a && PathText.isSep true b) = true := by
            rw [first, Bool.false_and]; exact nofun
          rw [PathText.parsePrefix_drive other, if_neg]
          rintro ⟨alpha, rfl⟩
          rw [hasDrive, alpha] at noDrive
          cases noDrive

theorem isName_of_validate (named : name ≠ [])
    (valid : validateFileNameNoTraversal windows name = .ok ()) :
    IsName windows name := by
  obtain ⟨noDrive, relative, plain⟩ := spec_of_validateFileNameNoTraversal valid
  refine isName_of_parts named (prefixOf_eq_none relative noDrive) relative fun inside => plain ?_
  obtain ⟨inside, -⟩ := List.mem_filter.mp inside
  exact List.mem_filter.mpr ⟨inside, by decide⟩

/-- The name of a companion is a name as well. -/
theorem isName_suffix (isName : IsName windows name) (companion : IsCompanion suffix) :
    IsName windows (name ++ suffix) := by
  obtain ⟨c, rest, rfl⟩ := List.exists_cons_of_ne_nil isName.some_
  have first : PathText.isSep windows c = false := isName.relative
  refine isName_of_parts (List.cons_ne_nil c _) ?_ isName.relative fun inside => ?_
  · cases windows with
    | false => rfl
    | true =>
        have noPrefix : parsePrefix (c :: rest) = none := isName.noPrefix
        show parsePrefix (c :: (rest ++ suffix)) = none
        have other (d : Char) : ¬(PathText.isSep true c && PathText.isSep true d) = true := by
          rw [first, Bool.false_and]; exact nofun
        cases rest with
        | nil =>
            have dot : ¬(c.isAlpha = true ∧ '.' = ':') := fun given => absurd given.2 (by decide)
            rcases companion with rfl | rfl
            · exact (PathText.parsePrefix_drive (other '.')).trans (if_neg dot)
            · exact (PathText.parsePrefix_drive (other '.')).trans (if_neg dot)
        | cons d rest =>
            rw [PathText.parsePrefix_drive (other d)] at noPrefix
            exact (PathText.parsePrefix_drive (other d)).trans noPrefix
  · obtain ⟨front, last, split, split'⟩ := splitOnP_append_suffix (c :: rest) companion.noSep
    have plain := isName.plain
    rw [isName.parts_eq] at plain
    have split' :
        (c :: rest ++ suffix).splitOnP (PathText.isSep windows) = front ++ [last ++ suffix] :=
        split'
    have split : (c :: rest).splitOnP (PathText.isSep windows) = front ++ [last] := split
    rw [split', List.filter_append] at inside
    rw [split, List.filter_append] at plain
    rcases List.mem_append.mp inside with inside | inside
    · exact plain (List.mem_append_left _ inside)
    · have is := List.mem_singleton.mp (List.mem_filter.mp inside).1
      exact append_ne_dotDot companion last is.symm

/-- A bare drive, `C:`. -/
theorem bareDrive_iff {p : Text} :
    (hasDrive windows p = true ∧ p.length = 2) ↔
      ((prefixOf windows p).any PathText.Prefix.isDrive &&
        PathText.prefixLen (prefixOf windows p) = p.length) = true := by
  match windows, p with
  | false, [] => decide
  | true, [] => decide
  | false, a :: rest =>
      refine iff_of_false (fun given => ?_) nofun
      unfold hasDrive at given
      split at given
      · cases given.1
      · cases given.1
  | true, [a] => exact iff_of_false nofun nofun
  | true, a :: b :: rest =>
      show _ ↔ ((parsePrefix (a :: b :: rest)).any PathText.Prefix.isDrive &&
        PathText.prefixLen (parsePrefix (a :: b :: rest)) = (a :: b :: rest).length) = true
      have letters : hasDrive true (a :: b :: rest) = true ↔ a.isAlpha = true ∧ b = ':' := by
        unfold hasDrive
        split
        · next same =>
            simp only [List.cons.injEq] at same
            obtain ⟨rfl, rfl, rfl⟩ := same
            exact (and_iff_left rfl).symm
        · next other =>
            refine iff_of_false nofun fun given => other a rest ?_
            rw [given.2]
      by_cases two : (PathText.isSep true a && PathText.isSep true b) = true
      · obtain ⟨sep, sep'⟩ := Bool.and_eq_true_iff.mp two
        refine iff_of_false (fun given => ?_) (fun given => ?_)
        · exact nomatch (letters.mp given.1).1.symm.trans (PathText.not_isAlpha_of_isSep sep)
        · have drive := (Bool.and_eq_true_iff.mp given).1
          exact nomatch drive.symm.trans (PathText.isDrive_two sep sep')
      · rw [PathText.parsePrefix_drive two, letters]
        split
        · next given =>
            rw [and_iff_right given]
            exact ⟨fun length => by rw [length]; rfl, fun given => (of_decide_eq_true given).symm⟩
        · next other => exact iff_of_false (fun given => other given.1) nofun

/-- Outside verbatim bases a name is joined as the rest of the model joins it. -/
theorem push_eq_pathJoin (isName : IsName windows name) (noDrive : hasDrive windows name = false)
    (plain : verbatim (prefixOf windows base) = false) :
    push windows base name = pathJoin windows base name := by
  have relative : name.head?.any (Transfer.isSep windows) = false := isName.relative
  rw [PathText.push_plain isName plain, pathJoin, if_neg (by rw [noDrive]; exact nofun),
    if_neg (by rw [relative]; exact nofun)]
  have needs : PathText.needSep windows base = false ↔
      base = [] ∨ base.getLast?.any (Transfer.isSep windows) = true ∨
        hasDrive windows base = true ∧ base.length = 2 := by
    rw [bareDrive_iff, PathText.needSep]
    rcases List.eq_nil_or_concat base with rfl | ⟨front, c, rfl⟩
    · exact iff_of_true rfl (.inl rfl)
    · have sep : PathText.isSep windows c = Transfer.isSep windows c := rfl
      rw [List.concat_eq_append, List.getLast?_concat, Option.any_some, Option.any_some, sep]
      cases Transfer.isSep windows c
      · simp
      · simp
  unfold PathText.glue
  by_cases ends : PathText.needSep windows base = false
  · rw [ends, if_neg nofun, if_pos (needs.mp ends)]
    rfl
  · rw [if_pos (Bool.of_not_eq_false ends), if_neg (needs.not.mp ends)]
    rfl

end Names

/-- The file that is written for a name and what is kept beside it lie strictly below the base. -/
structure FileBelow (windows : Bool) (base name : Text) : Prop where
  target : Below windows base (join windows base name)
  download : Below windows base (join windows base name ++ downloadSuffix)
  digest : Below windows base (join windows base name ++ digestSuffix)

/-- Every file lies below the base, or it is the base itself under the empty name of a single file. -/
def Contained (windows : Bool) (base : Text) (files : List (Text × Nat)) : Prop :=
  ∀ file ∈ files, isSingleFileWithEmptyName files = true ∧ join windows base file.1 = base ∨
    FileBelow windows base file.1

/-- Two separators alone, which a name of several components completes, or one of a single component
with a separator behind it when a companion is put there. -/
def CompletesBeside (base name : Text) : Prop :=
  ∃ a b, base = [a, b] ∧ PathText.isSep true a = true ∧ PathText.isSep true b = true ∧
    ∃ first c rest, name = first ++ c :: rest ∧ Clean first ∧ PathText.isSep true c = true ∧
      (first = ['.'] ∨ first = ['?'] ∧ (a = '\\' && b = '\\') = true ∧ c = '\\' ∨
        beginsWithSep true rest = false)

/-- On Windows the base is not the beginning of a prefix that the name completes. -/
def Closed (windows : Bool) (base name : Text) : Prop :=
  windows = true → ¬(IsBareServer base ∧ verbatim (parsePrefix base) = false) ∧
    (∀ p ∈ parsePrefix base, ¬IsBareVerbatim p) ∧ ¬CompletesBeside base name

section Companions

variable {windows : Bool} {base name suffix : Text}

theorem completes_suffix_iff (companion : IsCompanion suffix) :
    Completes base (name ++ suffix) ↔ CompletesBeside base name := by
  have clean : Clean suffix := companion.noSep
  refine exists_congr fun a => exists_congr fun b => and_congr_right fun _ => and_congr_right fun _ =>
    and_congr_right fun _ => ?_
  constructor
  · rintro ⟨first, c, rest, same, cleanFirst, sep, shape⟩
    obtain ⟨before, whole, behind⟩ :
        ∃ before, rest = before ++ suffix ∧ name = first ++ c :: before := by
      rcases List.append_eq_append_iff.mp same with ⟨more, is, whole⟩ | ⟨more, is, whole⟩
      · have inside := clean c (by rw [whole]; exact List.mem_append_right _ List.mem_cons_self)
        exact absurd (sep.symm.trans inside) nofun
      · cases more with
        | nil =>
            have inside :=
              clean c (by rw [List.nil_append] at whole; rw [← whole]; exact List.mem_cons_self)
            exact absurd (sep.symm.trans inside) nofun
        | cons d more =>
            rw [List.cons_append] at whole
            obtain ⟨rfl, rfl⟩ := List.cons.inj whole
            exact ⟨more, rfl, is⟩
    refine ⟨first, c, before, behind, cleanFirst, sep, shape.imp_right (Or.imp_right fun open_ => ?_)⟩
    cases before with
    | nil => rfl
    | cons d before =>
        rw [whole] at open_
        exact open_.2
  · rintro ⟨first, c, rest, rfl, cleanFirst, sep, shape⟩
    refine ⟨first, c, rest ++ suffix, by rw [List.append_assoc, List.cons_append], cleanFirst, sep,
      shape.imp_right (Or.imp_right fun open_ => ?_)⟩
    have some_ : suffix ≠ [] :=
      List.ne_nil_of_length_pos (Nat.lt_of_lt_of_le (by decide) companion.long)
    refine ⟨List.append_ne_nil_of_right_ne_nil rest some_, ?_⟩
    cases rest with
    | nil => rcases companion with rfl | rfl <;> rfl
    | cons d rest => exact open_

theorem CompletesBeside.of_completes (completes : Completes base name) : CompletesBeside base name := by
  obtain ⟨a, b, is, sep, sep', first, c, rest, named, clean, third, shape⟩ := completes
  exact ⟨a, b, is, sep, sep', first, c, rest, named, clean, third,
    shape.imp_right (Or.imp_right And.right)⟩

theorem finished_suffix_iff (companion : IsCompanion suffix) :
    Finished windows base (name ++ suffix) ↔ Closed windows base name := by
  unfold Finished Closed
  rw [completes_suffix_iff companion]

theorem Closed.finished (closed : Closed windows base name) : Finished windows base name := fun is =>
  ⟨(closed is).1, (closed is).2.1, fun completes => (closed is).2.2 (.of_completes completes)⟩

theorem parts_suffix_ne_nil (isName : IsName windows name) (companion : IsCompanion suffix) :
    parts windows (name ++ suffix) ≠ [] := by
  obtain ⟨front, last, -, split'⟩ :=
    splitOnP_append_suffix name (@IsCompanion.noSep windows suffix companion)
  have split' : (name ++ suffix).splitOnP (PathText.isSep windows) = front ++ [last ++ suffix] := split'
  have counted : PathText.counts none (last ++ suffix) = true := by
    have component := isComponent_suffix companion last
    simpa [PathText.counts, isComponent, verbatim] using component
  rw [(isName_suffix isName companion).parts_eq, split']
  exact List.ne_nil_of_mem (List.mem_filter.mpr ⟨List.mem_append_right _ List.mem_cons_self, counted⟩)

/-- Outside verbatim bases the companion of a name is a name of its own. -/
theorem below_companion_iff (isName : IsName windows name) (companion : IsCompanion suffix)
    (plain : verbatim (prefixOf windows base) = false) :
    Below windows base (join windows base name ++ suffix) ↔ Closed windows base name := by
  have suffixed := isName_suffix isName companion
  have same : join windows base name ++ suffix = push windows base (name ++ suffix) := by
    rw [join, if_neg isName.some_, PathText.push_plain isName plain, PathText.push_plain suffixed plain,
      List.append_assoc, List.append_assoc]
  rw [same, PathText.below_push_iff suffixed, finished_suffix_iff companion]
  exact and_iff_right (parts_suffix_ne_nil isName companion)

theorem intercalate_append_last (front : List Text) (last : Text) :
    ['\\'].intercalate (front ++ [last]) ++ suffix =
      ['\\'].intercalate (front ++ [last ++ suffix]) := by
  induction front with
  | nil =>
      rw [List.nil_append, List.nil_append, List.intercalate_singleton, List.intercalate_singleton]
  | cons first front ih =>
      have more (last : Text) : front ++ [last] ≠ [] :=
        List.append_ne_nil_of_right_ne_nil front (List.cons_ne_nil last [])
      rw [List.cons_append, List.cons_append, List.intercalate_cons_of_ne_nil (more last),
        List.intercalate_cons_of_ne_nil (more (last ++ suffix)), ← ih, List.append_assoc]

/-- Behind a verbatim base the suffix belongs to the last part that is rendered. -/
theorem below_companion_verbatim {p : PathText.Prefix} (isName : IsName true name)
    (companion : IsCompanion suffix)
    (read : parsePrefix base = some p) (is : p.isVerbatim = true) (named : parts true name ≠ [])
    (finished : ¬IsBareVerbatim p) : Below true base (join true base name ++ suffix) := by
  obtain ⟨front, last, split⟩ := (List.eq_nil_or_concat (parts true name)).resolve_left named
  rw [List.concat_eq_append] at split
  have whole := PathText.whole_name isName
  have plain := isName.plain_parts
  rw [split] at whole plain
  have rendered (root : Bool) :
      PathText.render (base.take p.len) root (parts true base ++ (front ++ [last])) ++ suffix =
        PathText.render (base.take p.len) root (parts true base ++ (front ++ [last ++ suffix])) := by
    have more (last : Text) : decide (parts true base ++ (front ++ [last]) ≠ []) = true :=
      decide_eq_true (by simp)
    rw [PathText.render, PathText.render, more, more, Bool.or_true, if_pos rfl, if_pos rfl,
      List.append_assoc, List.cons_append, ← List.append_assoc _ front, intercalate_append_last,
      List.append_assoc _ front]
  rw [join, if_neg isName.some_, PathText.push_verbatim isName read is, split, rendered]
  refine (PathText.below_render_iff read is ?_ ?_).mpr
    ⟨List.append_ne_nil_of_right_ne_nil front (List.cons_ne_nil _ []), finished⟩
  · have long := companion.long
    constructor
    · intro inside
      rcases List.mem_append.mp inside with inside | inside
      · exact plain.1 (List.mem_append_left _ inside)
      · have length := congrArg List.length (List.mem_singleton.mp inside)
        rw [List.length_append, List.length_singleton] at length
        omega
    · intro inside
      rcases List.mem_append.mp inside with inside | inside
      · exact plain.2 (List.mem_append_left _ inside)
      · exact append_ne_dotDot companion last (List.mem_singleton.mp inside).symm
  · intro part inside
    rcases List.mem_append.mp inside with inside | inside
    · exact whole part (List.mem_append_left _ inside)
    · obtain rfl := List.mem_singleton.mp inside
      obtain ⟨some_, clean⟩ := whole last (List.mem_append_right _ List.mem_cons_self)
      refine ⟨fun none_ => some_ (List.append_eq_nil_iff.mp none_).1, fun c there => ?_⟩
      rcases List.mem_append.mp there with there | there
      · exact clean c there
      · exact (Bool.or_eq_false_iff.mp (@IsCompanion.noSep true suffix companion c there)).2

/-- A file and its companions lie below exactly if the name has a part and the base is closed to it. -/
theorem fileBelow_iff (isName : IsName windows name) :
    FileBelow windows base name ↔ parts windows name ≠ [] ∧ Closed windows base name := by
  have joined : join windows base name = push windows base name := if_neg isName.some_
  cases plain : verbatim (prefixOf windows base) with
  | false =>
      constructor
      · intro below
        have target := below.target
        rw [joined] at target
        exact ⟨((PathText.below_push_iff isName).mp target).1,
          (below_companion_iff isName (.inl rfl) plain).mp below.download⟩
      · rintro ⟨named, closed⟩
        refine ⟨?_, (below_companion_iff isName (.inl rfl) plain).mpr closed,
          (below_companion_iff isName (.inr rfl) plain).mpr closed⟩
        rw [joined]
        exact (PathText.below_push_iff isName).mpr ⟨named, closed.finished⟩
  | true =>
      cases windows with
      | false => cases plain
      | true =>
          obtain ⟨rest, is, read⟩ := PathText.verbatim_begins plain
          have beside : ¬CompletesBeside base name := by
            rintro ⟨a, b, two, -⟩
            rw [is] at two
            cases two
          constructor
          · intro below
            have target := below.target
            rw [joined] at target
            obtain ⟨named, finished⟩ := (PathText.below_push_iff isName).mp target
            exact ⟨named, fun is => ⟨(finished is).1, (finished is).2.1, beside⟩⟩
          · rintro ⟨named, closed⟩
            have notBare := (closed rfl).2.1 _ read
            refine ⟨?_,
              below_companion_verbatim isName
              (.inl rfl) read PathText.isVerbatim_parseVerbatim named notBare,
              below_companion_verbatim isName
                (.inr rfl) read PathText.isVerbatim_parseVerbatim named notBare⟩
            rw [joined]
            exact (PathText.below_push_iff isName).mpr ⟨named, closed.finished⟩

end Companions

/-- A transfer of a single file without a name, or of files whose names have a part and to which the base
is closed. -/
def Guarded (windows : Bool) (base : Text) (files : List (Text × Nat)) : Prop :=
  isSingleFileWithEmptyName files = true ∨
    ∀ file ∈ files, parts windows file.1 ≠ [] ∧ Closed windows base file.1

variable {windows : Bool} {files : List (Text × Nat)}

theorem validateNames_spec (valid : validateNames windows files = .ok ()) {file : Text × Nat}
    (member : file ∈ files) :
    file.1 ≠ [] ∧ validateFileNameNoTraversal windows file.1 = .ok () := by
  induction files with
  | nil => cases member
  | cons first files ih =>
      unfold validateNames at valid
      split at valid
      · cases valid
      · next named =>
          split at valid
          · cases valid
          · next accepted =>
              rcases List.mem_cons.mp member with rfl | later
              · exact ⟨named, accepted⟩
              · exact ih valid later

theorem contained_iff {base : Text} (valid : validateTransferFileNames windows files = .ok ()) :
    Contained windows base files ↔ Guarded windows base files := by
  unfold validateTransferFileNames at valid
  cases single : isSingleFileWithEmptyName files with
  | true =>
      refine iff_of_true (fun file member => .inl ⟨single, ?_⟩) (.inl single)
      have both := single
      simp only [isSingleFileWithEmptyName, Bool.and_eq_true, decide_eq_true_eq] at both
      obtain ⟨only, rfl⟩ := List.length_eq_one_iff.mp both.1
      obtain rfl := List.mem_singleton.mp member
      have empty : file.1 = [] := by simpa using both.2
      exact if_pos empty
  | false =>
      rw [single, if_neg Bool.false_ne_true] at valid
      have isName {file : Text × Nat} (member : file ∈ files) : IsName windows file.1 :=
        isName_of_validate (validateNames_spec valid member).1 (validateNames_spec valid member).2
      unfold Guarded
      rw [single, or_iff_right Bool.false_ne_true]
      constructor
      · intro contained file member
        have below :=
          (contained file member).resolve_left fun given =>
            Bool.false_ne_true (single.symm.trans given.1)
        exact (fileBelow_iff (isName member)).mp below
      · exact fun guarded file member =>
          .inr ((fileBelow_iff (isName member)).mpr (guarded file member))

/-- The path that a rename leads to lies strictly below the parent of what is renamed. -/
def BelowParent (windows : Bool) (path target : Text) : Prop :=
  ∃ dir, parent windows path = some dir ∧ Below windows dir target

/-- The new name has a part and completes no prefix that the parent begins. -/
def RenameGuarded (windows : Bool) (path newName : Text) : Prop :=
  parts windows newName ≠ [] ∧ ∀ dir ∈ parent windows path, Finished windows dir newName

theorem belowParent_iff {files : Files} {path newName target : Text}
    (renamed : renameFile windows files path newName = .ok target) :
    BelowParent windows path target ↔ RenameGuarded windows path newName := by
  unfold renameFile at renamed
  split at renamed
  · cases renamed
  · next named =>
      split at renamed
      · cases renamed
      · next accepted =>
          have isName := isName_of_validate named accepted
          unfold renameTo at renamed
          split at renamed
          · split at renamed
            · next dir above =>
                obtain rfl := Except.ok.inj renamed
                have below := @PathText.below_push_iff windows dir newName isName
                constructor
                · rintro ⟨dir', above', inside⟩
                  obtain rfl := Option.some.inj (above.symm.trans above')
                  obtain ⟨some_, finished⟩ := below.mp inside
                  refine ⟨some_, ?_⟩
                  rw [above]
                  rintro _ ⟨⟩
                  exact finished
                · rintro ⟨some_, finished⟩
                  exact ⟨dir, above, below.mpr ⟨some_, finished dir above⟩⟩
            · cases renamed
          · cases renamed

/-- Accepted names lead below their target exactly where they are guarded. -/
theorem accepted_targets_iff (windows : Bool) :
    (∀ (base : Text) (files : List (Text × Nat)), validateTransferFileNames windows files = .ok () →
        (Contained windows base files ↔ Guarded windows base files)) ∧
      ∀ (files : Files) (path newName target : Text),
        renameFile windows files path newName = .ok target →
        (BelowParent windows path target ↔ RenameGuarded windows path newName) :=
  ⟨fun _ _ => contained_iff, fun _ _ _ _ => belowParent_iff⟩

/-- A file `a/b` below `/d` and a rename of `/d/x` to `y`. -/
theorem accepted_targets_below :
    Contained false "/d".toList [("a/b".toList, 1)] ∧ BelowParent false "/d/x".toList "/d/y".toList :=
  ⟨((accepted_targets_iff false).1 _ _ (by decide)).mpr
      (.inr (List.forall_mem_singleton.mpr ⟨by decide, nofun⟩)),
    ((accepted_targets_iff false).2 ⟨fun _ => true,
      String.ofList⟩ "/d/x".toList "y".toList _ (by decide)).mpr
      ⟨by decide, fun _ _ => nofun⟩⟩

/-- The name `.` leads to the base itself, also in a rename, and the name `share\x` leads from `\\server` to a
share. -/
theorem accepted_targets_elsewhere :
    (validateTransferFileNames false [(['.'], 1)] = .ok () ∧
      ¬Contained false "/d".toList [(['.'], 1)]) ∧
      (renameFile false ⟨fun _ => true, String.ofList⟩ "/d/x".toList ['.'] = .ok "/d/.".toList ∧
        ¬BelowParent false "/d/x".toList "/d/.".toList) ∧
      (validateTransferFileNames true [("share\\x".toList, 1)] = .ok () ∧
        ¬Contained true "\\\\server".toList [("share\\x".toList, 1)]) := by
  have dot : validateTransferFileNames false [(['.'], 1)] = .ok () := by decide
  have renamed :
      renameFile false ⟨fun _ => true, String.ofList⟩ "/d/x".toList ['.'] = .ok "/d/.".toList := by
      decide
  have share : validateTransferFileNames true [("share\\x".toList, 1)] = .ok () := by decide
  have bare : IsBareServer "\\\\server".toList :=
    ⟨'\\', '\\', "server".toList, [], rfl, rfl, rfl, by decide, List.all_iff_forall_prop.mp (by decide), .inl rfl⟩
  refine ⟨⟨dot, fun contained => ?_⟩, ⟨renamed, fun below => ?_⟩, share, fun contained => ?_⟩
  · have guarded := ((contained_iff dot).mp contained).resolve_left (by decide)
    exact absurd (guarded _ List.mem_cons_self).1 (by decide)
  · exact absurd ((belowParent_iff renamed).mp below).1 (by decide)
  · have guarded := ((contained_iff share).mp contained).resolve_left (by decide)
    exact ((guarded _ List.mem_cons_self).2 rfl).1 ⟨bare, by decide⟩

end RemoteControl.Transfer.Targets
