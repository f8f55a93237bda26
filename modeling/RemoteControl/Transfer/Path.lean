import RemoteControl.FileTree

/-! # Paths as texts

A transfer builds its paths from texts: the target, a name from the peer, the
suffixes of the files it keeps while a download is under way. `components` is what
the standard library makes of such a text and `resolve` where it leads when every
`..` is taken back lexically.
-/

namespace RemoteControl.Transfer

abbrev Text := List Char

/-- The path of a node in the tree of a host. -/
abbrev Place := List Text

variable (windows : Bool)

def isSep (c : Char) : Bool := c = '/' || windows && c = '\\'

/-- `MAIN_SEPARATOR` -/
def mainSep : Char := if windows then '\\' else '/'

/-- A drive letter, `C:`. -/
def hasDrive : Text → Bool
  | c :: ':' :: _ => windows && c.isAlpha
  | _ => false

def dotDot : Text := ['.', '.']

def isComponent (part : Text) : Bool := part ≠ [] ∧ part ≠ ['.']

/-- The components of a text without a drive. -/
def plainComponents (text : Text) : List Text := (text.splitOnP (isSep windows)).filter isComponent

/-- `Path::components`: a drive is a component of its own; empty ones and `.` do not
    count. -/
def components (text : Text) : List Text :=
  if hasDrive windows text then text.take 2 :: plainComponents windows (text.drop 2)
  else plainComponents windows text

/-- Follows components from a place. -/
def follow : Place → List Text → Place
  | place, [] => place
  | place, c :: rest => follow (if c = dotDot then place.dropLast else place ++ [c]) rest

/-- Where a text leads, lexically. -/
def resolve (text : Text) : Place := follow [] (components windows text)

/-- `PathBuf::join` -/
def pathJoin (p name : Text) : Text :=
  if hasDrive windows name then name
  else if name.head?.any (isSep windows) then
    (if hasDrive windows p then p.take 2 else []) ++ name
  else if p = [] ∨ p.getLast?.any (isSep windows) ∨ hasDrive windows p ∧ p.length = 2 then p ++ name
  else p ++ mainSep windows :: name

/-- `TransferJob::join` -/
def join (p name : Text) : Text := if name = [] then p else pathJoin windows p name

/-- `path.parent()` and what is above it, from the root on: the directories
    `create_dir_all` makes. -/
def parents (text : Text) : List Place := ((components windows text).dropLast.inits).map (follow [])

def downloadSuffix : Text := ['.', 'd', 'o', 'w', 'n', 'l', 'o', 'a', 'd']
def digestSuffix : Text := ['.', 'd', 'i', 'g', 'e', 's', 't']

/-- `transform_windows_path` on one name. -/
def transformWindowsPath (name : Text) : Text := name.map fun c => if c = '\\' then '/' else c

/-! ## Following components -/

theorem follow_append (place : Place) (left right : List Text) :
    follow place (left ++ right) = follow (follow place left) right := by
  induction left generalizing place with
  | nil => rfl
  | cons c rest ih => exact ih _

/-- Follows at most as many `..` as names before them. -/
def descends : Nat → List Text → Bool
  | _, [] => true
  | depth, c :: rest =>
      if c = dotDot then
        match depth with
        | 0 => false
        | depth + 1 => descends depth rest
      else descends (depth + 1) rest

variable (text : Text) {suffix : Text} {l : List Text} {depth : Nat} {left : Text} {c : Char}

theorem descends_prefix_of {l' : List Text} (isPrefix : l <+: l')
    (down : descends depth l' = true) : descends depth l = true := by
  induction l generalizing depth l' with
  | nil => rfl
  | cons c rest ih =>
      obtain ⟨rest', rfl⟩ := isPrefix
      simp only [List.cons_append, descends] at down ⊢
      split_ifs at down ⊢
      · cases depth with
        | zero => cases down
        | succ depth => exact ih (List.prefix_append ..) down
      · exact ih (List.prefix_append ..) down

theorem descends_append_name {c : Text} (down : descends depth l = true) (name : c ≠ dotDot) :
    descends depth (l ++ [c]) = true := by
  induction l generalizing depth with
  | nil => simp [descends, name]
  | cons d rest ih =>
      simp only [List.cons_append, descends] at down ⊢
      split_ifs at down ⊢
      · cases depth with
        | zero => cases down
        | succ depth => exact ih down
      · exact ih down

/-- Components that descend stay below the place they start from. -/
theorem prefix_follow {base extra : Place} (down : descends extra.length l = true) :
    base <+: follow (base ++ extra) l := by
  induction l generalizing extra with
  | nil => exact List.prefix_append ..
  | cons c rest ih =>
      simp only [descends] at down
      simp only [follow]
      split_ifs at down ⊢
      · rcases List.eq_nil_or_concat extra with rfl | ⟨front, last, rfl⟩
        · cases down
        · have dropped : (base ++ (front ++ [last])).dropLast = base ++ front := by
            rw [← List.append_assoc, List.dropLast_concat]
          rw [List.concat_eq_append, dropped]
          refine ih ?_
          simpa using down
      · rw [List.append_assoc]
        refine ih ?_
        simpa using down

variable {windows}

theorem plainComponents_append_sep (left right : Text) (sep : isSep windows c = true) :
    plainComponents windows (left ++ c :: right) =
      plainComponents windows left ++ plainComponents windows right := by
  unfold plainComponents
  rw [List.splitOnP_append_cons left right sep, List.filter_append]

theorem plainComponents_nil : plainComponents windows [] = [] := rfl

theorem plainComponents_append_of_ends (right : Text)
    (ends : left = [] ∨ left.getLast?.any (isSep windows) = true) :
    plainComponents windows (left ++ right) =
      plainComponents windows left ++ plainComponents windows right := by
  rcases ends with rfl | ends
  · rfl
  · rcases List.eq_nil_or_concat left with rfl | ⟨front, c, rfl⟩
    · rfl
    · have sep : isSep windows c = true := by simpa using ends
      rw [List.concat_eq_append, List.append_assoc, List.singleton_append,
        plainComponents_append_sep front right sep,
        plainComponents_append_sep front [] sep, plainComponents_nil, List.append_nil]

theorem hasDrive_append (right : Text) (long : 2 ≤ left.length) :
    hasDrive windows (left ++ right) = hasDrive windows left := by
  match left, long with
  | c :: d :: rest, _ => unfold hasDrive; simp only [List.cons_append]; split <;> simp_all

theorem length_of_hasDrive {text : Text} (drive : hasDrive windows text = true) :
    2 ≤ text.length := by
  unfold hasDrive at drive
  split at drive
  · simp
  · cases drive

/-- What follows a drive has no part in it. -/
theorem components_append_of_drive {p : Text} (rest : Text) (drive : hasDrive windows p = true) :
    components windows (p ++ rest) = p.take 2 :: plainComponents windows (p.drop 2 ++ rest) := by
  have long := length_of_hasDrive drive
  unfold components
  rw [if_pos (by rw [hasDrive_append rest long, drive]), List.take_append_of_le_length long,
    List.drop_append_of_le_length long]

theorem isAlpha_of_isSep (sep : isSep windows c = true) : c.isAlpha = false := by
  unfold isSep at sep
  simp only [Bool.or_eq_true, decide_eq_true_eq, Bool.and_eq_true] at sep
  rcases sep with rfl | ⟨-, rfl⟩ <;> decide

theorem mainSep_isSep : isSep windows (mainSep windows) = true := by
  cases windows <;> decide

theorem components_pathJoin (p : Text) {name : Text} (noDrive : hasDrive windows name = false)
    (relative : name.head?.any (isSep windows) = false) :
    components windows (pathJoin windows p name) =
      components windows p ++ components windows name := by
  have plain : components windows name = plainComponents windows name := if_neg (by simp [noDrive])
  unfold pathJoin
  rw [plain, if_neg (by simp [noDrive]), if_neg (by simp [relative])]
  by_cases drive : hasDrive windows p = true
  · have long := length_of_hasDrive drive
    have split : components windows p = p.take 2 :: plainComponents windows (p.drop 2) := if_pos drive
    split_ifs with ends
    · rw [components_append_of_drive name drive, split, List.cons_append,
        plainComponents_append_of_ends]
      rcases ends with rfl | ends | ⟨-, bare⟩
      · cases drive
      · by_cases bare : p.drop 2 = []
        · exact .inl bare
        · right
          rwa [List.getLast?_drop, if_neg (by simpa [Nat.not_le] using bare)]
      · exact .inl (List.drop_eq_nil_of_le (Nat.le_of_eq bare))
    · rw [components_append_of_drive _ drive, split, List.cons_append,
        plainComponents_append_sep _ _ mainSep_isSep]
  · have split : components windows p = plainComponents windows p := if_neg drive
    have short (rest : Text) (first : ∀ c, p = [c] → hasDrive windows (c :: rest) = false)
        (none : p = [] → hasDrive windows rest = false) : hasDrive windows (p ++ rest) = false := by
      match p with
      | [] => exact none rfl
      | [c] => exact first c rfl
      | c :: d :: p => rw [hasDrive_append _ (by simp)]; simpa using drive
    split_ifs with ends
    · have noDrive' : hasDrive windows (p ++ name) = false := by
        refine short name ?_ fun _ => noDrive
        rintro c rfl
        have sep : isSep windows c = true := by
          rcases ends with none | ends | ⟨drive', -⟩
          · cases none
          · simpa using ends
          · exact absurd drive' drive
        unfold hasDrive
        split
        · rename_i same
          rw [(List.cons.inj same).1] at sep
          simp [isAlpha_of_isSep sep]
        · rfl
      have whole : components windows (p ++ name) = plainComponents windows (p ++ name) :=
        if_neg (by simp [noDrive'])
      rw [whole, split]
      refine plainComponents_append_of_ends name ?_
      rcases ends with rfl | ends | ⟨drive', -⟩
      · exact .inl rfl
      · exact .inr ends
      · exact absurd drive' drive
    · have noDrive' : hasDrive windows (p ++ mainSep windows :: name) = false := by
        refine short _ ?_ fun none => absurd (.inl none) ends
        rintro c -
        cases windows <;> simp [hasDrive, mainSep]
      have whole : components windows (p ++ mainSep windows :: name) =
          plainComponents windows (p ++ mainSep windows :: name) :=
        if_neg (by simp [noDrive'])
      rw [whole, split, plainComponents_append_sep _ _ mainSep_isSep]

/-- The suffixes of the files a transfer keeps while it is under way. -/
def IsCompanion (suffix : Text) : Prop := suffix = downloadSuffix ∨ suffix = digestSuffix

theorem IsCompanion.noSep (companion : IsCompanion suffix) :
    ∀ c ∈ suffix, isSep windows c = false := by
  rcases companion with rfl | rfl <;> cases windows <;>
    simp [downloadSuffix, digestSuffix, isSep]

theorem IsCompanion.long (companion : IsCompanion suffix) : 7 ≤ suffix.length := by
  rcases companion with rfl | rfl <;> decide

theorem splitOnP_append_suffix {p : Char → Bool} (noSep : ∀ c ∈ suffix, p c = false) :
    ∃ front last, text.splitOnP p = front ++ [last] ∧
      (text ++ suffix).splitOnP p = front ++ [last ++ suffix] := by
  induction text with
  | nil => exact ⟨[], [], rfl, List.splitOnP_eq_singleton noSep⟩
  | cons c rest ih =>
      obtain ⟨front, last, split, split'⟩ := ih
      rw [List.cons_append, List.splitOnP_cons_eq_if_modifyHead, List.splitOnP_cons_eq_if_modifyHead,
        split, split']
      by_cases sep : p c = true
      · exact ⟨[] :: front, last, by simp [sep], by simp [sep]⟩
      · cases front with
        | nil => exact ⟨[], c :: last, by simp [sep], by simp [sep]⟩
        | cons first front => exact ⟨(c :: first) :: front, last, by simp [sep], by simp [sep]⟩

section

variable (companion : IsCompanion suffix)

include companion

theorem isComponent_suffix (last : Text) :
    isComponent (last ++ suffix) = true := by
  have long := companion.long
  simp only [isComponent, decide_eq_true_eq]
  constructor
  · intro none
    have length := congrArg List.length none
    rw [List.length_append, List.length_nil] at length
    omega
  · intro dot
    have length := congrArg List.length dot
    rw [List.length_append, List.length_singleton] at length
    omega

/-- A suffix is added to the last part of a text. -/
theorem plainComponents_suffix :
    ∃ front last, (plainComponents windows text = front ∧ isComponent last = false ∨
        plainComponents windows text = front ++ [last]) ∧
      plainComponents windows (text ++ suffix) = front ++ [last ++ suffix] := by
  have noSep : ∀ c ∈ suffix, isSep windows c = false := companion.noSep
  obtain ⟨front, last, split, split'⟩ := splitOnP_append_suffix text noSep
  refine ⟨front.filter isComponent, last, ?_, ?_⟩
  · unfold plainComponents
    rw [split, List.filter_append]
    by_cases counts : isComponent last = true
    · exact .inr (by simp [counts])
    · exact .inl ⟨by simp [counts], by simpa using counts⟩
  · unfold plainComponents
    rw [split', List.filter_append, List.filter_singleton, isComponent_suffix companion]
    rfl

theorem components_suffix :
    ∃ front last, (components windows text = front ∧ isComponent last = false ∨
        components windows text = front ++ [last]) ∧
      components windows (text ++ suffix) = front ++ [last ++ suffix] := by
  by_cases drive : hasDrive windows text = true
  · obtain ⟨front, last, whole, suffixed⟩ := @plainComponents_suffix windows (text.drop 2) _ companion
    refine ⟨text.take 2 :: front, last, ?_, ?_⟩
    · have split : components windows text = text.take 2 :: plainComponents windows (text.drop 2) :=
        if_pos drive
      rw [split]
      rcases whole with ⟨whole, dot⟩ | whole
      · exact .inl ⟨by rw [whole], dot⟩
      · exact .inr (by rw [whole]; rfl)
    · rw [components_append_of_drive suffix drive, suffixed]
      rfl
  · have noDrive : hasDrive windows (text ++ suffix) = false := by
      match text with
      | [] => rcases companion with rfl | rfl <;> rfl
      | [c] => rcases companion with rfl | rfl <;> rfl
      | c :: d :: rest => rw [hasDrive_append _ (by simp)]; simpa using drive
    have plain : components windows text = plainComponents windows text := if_neg drive
    have plain' : components windows (text ++ suffix) = plainComponents windows (text ++ suffix) :=
      if_neg (by simp [noDrive])
    rw [plain, plain']
    exact plainComponents_suffix text companion

/-- A suffixed name is no `..`. -/
theorem append_ne_dotDot (last : Text) :
    last ++ suffix ≠ dotDot := by
  intro same
  have length := congrArg List.length same
  have long := companion.long
  rw [List.length_append, dotDot, List.length_cons, List.length_singleton] at length
  omega

theorem resolve_suffix :
    ∃ front last, resolve windows (text ++ suffix) = front ++ [last ++ suffix] := by
  obtain ⟨front, last, -, suffixed⟩ := @components_suffix windows text suffix companion
  refine ⟨follow [] front, last, ?_⟩
  rw [resolve, suffixed, follow_append]
  simp only [follow, if_neg (append_ne_dotDot companion last)]

end

/-- The two files kept beside a file differ in their last letter. -/
theorem resolve_download_ne_digest :
    resolve windows (text ++ downloadSuffix) ≠ resolve windows (text ++ digestSuffix) := by
  obtain ⟨front, last, download⟩ := @resolve_suffix windows text downloadSuffix (.inl rfl)
  obtain ⟨front', last', digest⟩ := @resolve_suffix windows text digestSuffix (.inr rfl)
  rw [download, digest]
  intro same
  have letter := congrArg (fun place => place.getLast?.bind List.getLast?) same
  simp [downloadSuffix, digestSuffix] at letter

/-- A file and what is kept beside it are never at the same place. -/
theorem resolve_suffix_ne (companion : IsCompanion suffix) :
    resolve windows (text ++ suffix) ≠ resolve windows text := by
  obtain ⟨front, last, whole, suffixed⟩ := @components_suffix windows text suffix companion
  have beside : resolve windows (text ++ suffix) = follow [] front ++ [last ++ suffix] := by
    rw [resolve, suffixed, follow_append]
    simp only [follow, if_neg (append_ne_dotDot companion last)]
  rw [beside]
  intro same
  have length := congrArg List.length same
  rw [List.length_append, List.length_singleton] at length
  rcases whole with ⟨whole, -⟩ | whole
  · rw [resolve, whole] at length
    omega
  · rw [resolve, whole, follow_append] at length same
    by_cases up : last = dotDot
    · simp only [follow, if_pos up, List.length_dropLast] at length
      omega
    · simp only [follow, if_neg up, List.append_cancel_left_eq, List.cons.injEq,
        List.append_right_eq_self, and_true] at same
      have long := companion.long
      rw [same] at long
      cases long

end RemoteControl.Transfer
