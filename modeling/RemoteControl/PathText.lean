import Mathlib.Data.List.Basic

/-! # Paths of the standard library as texts

`Path` and `PathBuf` on Unix and on Windows: the prefix of a Windows path, the components of a path,
`push`, `parent`, and where a path leads when `.` and `..` are taken back lexically.
-/

namespace RemoteControl.PathText

abbrev Text := List Char

def isSep (windows : Bool) (c : Char) : Bool := c = '/' || windows && c = '\\'

/-- `MAIN_SEPARATOR` -/
def mainSep (windows : Bool) : Char := if windows then '\\' else '/'

def isVerbatimSep (c : Char) : Bool := c = '\\'

/-- `std::path::Prefix` -/
inductive Prefix where
  | verbatim (name : Text)
  | verbatimUnc (server share : Text)
  | verbatimDisk (drive : Char)
  | deviceNs (device : Text)
  | unc (server share : Text)
  | disk (drive : Char)
  deriving DecidableEq

namespace Prefix

/-- How many letters of the text it takes. -/
def len : Prefix → Nat
  | verbatim name => 4 + name.length
  | verbatimUnc server share => 8 + server.length + if share ≠ [] then 1 + share.length else 0
  | verbatimDisk _ => 6
  | deviceNs device => 4 + device.length
  | unc server share => 2 + server.length + if share ≠ [] then 1 + share.length else 0
  | disk _ => 2

def isVerbatim : Prefix → Bool
  | verbatim _ | verbatimUnc _ _ | verbatimDisk _ => true
  | _ => false

def isDrive : Prefix → Bool
  | disk _ => true
  | _ => false

def hasImplicitRoot (p : Prefix) : Bool := !p.isDrive

end Prefix

/-- `parse_next_component`: the text up to a separator and the text behind it. -/
def nextComponent (sep : Char → Bool) (path : Text) : Text × Text :=
  (path.takeWhile (!sep ·), (path.dropWhile (!sep ·)).tail)

def parseDrive : Text → Option Char
  | c :: ':' :: _ => if c.isAlpha then some c.toUpper else none
  | _ => none

/-- A drive with nothing behind it but a separator. -/
def parseDriveExact (path : Text) : Option Char :=
  match path with
  | _ :: _ :: c :: _ => if isSep true c then parseDrive path else none
  | _ => parseDrive path

def parseUnc (path : Text) : Option Prefix :=
  let server := nextComponent (isSep true) path
  let share := nextComponent (isSep true) server.2
  if server.1 ≠ [] ∧ share.1 ≠ [] then some (.unc server.1 share.1) else none

/-- What is behind `\\?\` when it is no `UNC\`. -/
def parseVerbatimName (path : Text) : Prefix :=
  match parseDriveExact path with
  | some drive => .verbatimDisk drive
  | none => .verbatim (nextComponent isVerbatimSep path).1

/-- What is behind `\\?\`. -/
def parseVerbatim (path : Text) : Prefix :=
  match path with
  | 'U' :: 'N' :: 'C' :: c :: rest =>
      if isSep true c then
        let server := nextComponent isVerbatimSep rest
        .verbatimUnc server.1 (nextComponent isVerbatimSep server.2).1
      else parseVerbatimName path
  | _ => parseVerbatimName path

/-- What is behind two separators; the prefix of a verbatim path has no `/` in it. -/
def parseBehind (backslashes : Bool) (path : Text) : Option Prefix :=
  match path with
  | '?' :: c :: rest => if backslashes && c = '\\' then some (parseVerbatim rest) else parseUnc path
  | '.' :: c :: rest =>
      if isSep true c then some (.deviceNs (nextComponent (isSep true) rest).1) else parseUnc path
  | _ => parseUnc path

def parsePrefix (path : Text) : Option Prefix :=
  match path with
  | a :: b :: rest =>
      if isSep true a && isSep true b then parseBehind (a = '\\' && b = '\\') rest
      else (parseDrive path).map .disk
  | _ => none

/-- There are prefixes on Windows only. -/
def prefixOf (windows : Bool) (path : Text) : Option Prefix :=
  if windows then parsePrefix path else none

def prefixLen (p : Option Prefix) : Nat := p.elim 0 Prefix.len

def verbatim (p : Option Prefix) : Bool := p.any Prefix.isVerbatim

def sepOf (windows : Bool) (p : Option Prefix) : Char → Bool :=
  if verbatim p then isVerbatimSep else isSep windows

/-- `.` is a component of verbatim paths only; elsewhere one at the beginning is left out too, it leads
nowhere. -/
def counts (p : Option Prefix) (part : Text) : Bool := part ≠ [] && (verbatim p || part ≠ ['.'])

def afterPrefix (windows : Bool) (path : Text) : Text := path.drop (prefixLen (prefixOf windows path))

def beginsWithSep (windows : Bool) (path : Text) : Bool := path.head?.any (isSep windows)

/-- What is behind the root. -/
def bodyOf (windows : Bool) (rest : Text) : Text :=
  if beginsWithSep windows rest then rest.tail else rest

def hasRoot (windows : Bool) (path : Text) : Bool :=
  (prefixOf windows path).any Prefix.hasImplicitRoot || beginsWithSep windows (afterPrefix windows path)

/-- The components behind a prefix. -/
def partsBehind (windows : Bool) (p : Option Prefix) (rest : Text) : List Text :=
  ((bodyOf windows rest).splitOnP (sepOf windows p)).filter (counts p)

def parts (windows : Bool) (path : Text) : List Text :=
  partsBehind windows (prefixOf windows path) (afterPrefix windows path)

def dotDot : Text := ['.', '.']

/-- A path ends without a separator and is no bare drive. -/
def needSep (windows : Bool) (path : Text) : Bool :=
  path.getLast?.any (!isSep windows ·) &&
    !((prefixOf windows path).any Prefix.isDrive && prefixLen (prefixOf windows path) = path.length)

def glue (windows : Bool) (path : Text) : Text := if needSep windows path then [mainSep windows] else []

/-- A component of what is pushed onto a verbatim path. -/
def pushPart (base : List Text) (part : Text) : List Text :=
  if part = dotDot then
    if base.getLast?.any fun last => last ≠ ['.'] && last ≠ dotDot then base.dropLast else base
  else base ++ [part]

def render (volume : Text) (root : Bool) (parts : List Text) : Text :=
  volume ++ if root || parts ≠ [] then '\\' :: ['\\'].intercalate parts else []

/-- `PathBuf::push` -/
def push (windows : Bool) (base path : Text) : Text :=
  if (prefixOf windows path).isSome || !windows && hasRoot windows path then path
  else if verbatim (prefixOf windows base) && path ≠ [] then
    let volume := base.take (prefixLen (prefixOf windows base))
    if hasRoot windows path then render volume true ((parts windows path).foldl pushPart [])
    else
      render volume (beginsWithSep windows (afterPrefix windows base))
        ((parts windows path).foldl pushPart (parts windows base))
  else if hasRoot windows path then base.take (prefixLen (prefixOf windows base)) ++ path
  else base ++ (glue windows base ++ path)

/-- A body without its last part and the separator before it. -/
def beforeLast (sep : Char → Bool) (body : Text) : Text :=
  (body.reverse.dropWhile (!sep ·)).tail.reverse

def lastPart (sep : Char → Bool) (body : Text) : Text := (body.reverse.takeWhile (!sep ·)).reverse

/-- Takes back parts that are no components; there are at most `fuel` letters. -/
def trimRight (sep : Char → Bool) (counts : Text → Bool) : Nat → Text → Text
  | 0, body => body
  | fuel + 1, body =>
      if body = [] ∨ counts (lastPart sep body) then body
      else trimRight sep counts fuel (beforeLast sep body)

/-- `include_cur_dir`: a path without a root begins with a `.` of its own. -/
def beginsWithDot (windows : Bool) (path : Text) : Bool :=
  !hasRoot windows path &&
    match afterPrefix windows path with
    | ['.'] => true
    | '.' :: c :: _ => isSep windows c
    | _ => false

/-- `Path::parent` -/
def parent (windows : Bool) (path : Text) : Option Text :=
  let p := prefixOf windows path
  let volume := path.take (prefixLen p)
  let rest := afterPrefix windows path
  let first := if beginsWithSep windows rest || beginsWithDot windows path then 1 else 0
  let trim := fun body => trimRight (sepOf windows p) (counts p) body.length body
  let body := trim (rest.drop first)
  if body ≠ [] then some (volume ++ rest.take first ++ trim (beforeLast (sepOf windows p) body))
  else if beginsWithDot windows path then some volume
  else none

/-- A place: the current directory or a root, how far above it, and the names from there. -/
structure Location where
  volume : Option Prefix
  rooted : Bool
  ups : Nat
  names : List Text
  deriving DecidableEq

namespace Location

def step (l : Location) (part : Text) : Location :=
  if part = ['.'] then l
  else if part = dotDot then
    if l.names ≠ [] then { l with names := l.names.dropLast }
    else if l.rooted then l
    else { l with ups := l.ups + 1 }
  else { l with names := l.names ++ [part] }

def down (l : Location) (names : List Text) : Location := { l with names := l.names ++ names }

end Location

/-- `.` and `..` are resolved. -/
def locate (windows : Bool) (path : Text) : Location :=
  (parts windows path).foldl Location.step ⟨prefixOf windows path, hasRoot windows path, 0, []⟩

/-- `path` leads strictly below where `base` leads. -/
def Below (windows : Bool) (base path : Text) : Prop :=
  ∃ names ≠ [], locate windows path = (locate windows base).down names

/-! ## Reading a prefix -/

section Reading

variable {sep : Char → Bool} {path first rest : Text} {c : Char} {p : Prefix}

theorem nextComponent_of_clean (clean : ∀ a ∈ path, sep a = false) :
    nextComponent sep path = (path, []) := by
  have kept : ∀ a ∈ path, (!sep a) = true := fun a inside => by rw [clean a inside]; rfl
  have whole := @List.takeWhile_append_of_pos _ (!sep ·) path [] kept
  have gone := @List.dropWhile_append_of_pos _ (!sep ·) path [] kept
  rw [List.append_nil] at whole gone
  rw [nextComponent, whole, gone, List.takeWhile_nil, List.dropWhile_nil, List.append_nil,
    List.tail_nil]

theorem nextComponent_append (clean : ∀ a ∈ first, sep a = false) (isSep : sep c = true) (rest : Text) :
    nextComponent sep (first ++ c :: rest) = (first, rest) := by
  have kept : ∀ a ∈ first, (!sep a) = true := fun a inside => by rw [clean a inside]; rfl
  have stop : ¬(!sep c) = true := by rw [isSep]; decide
  rw [nextComponent, List.takeWhile_append_of_pos kept, List.dropWhile_append_of_pos kept,
    @List.takeWhile_cons_of_neg _ (!sep ·) c rest stop,
    @List.dropWhile_cons_of_neg _ (!sep ·) c rest stop, List.append_nil, List.tail_cons]

/-- A path is one component or goes on behind a separator. -/
theorem nextComponent_cases (sep : Char → Bool) (path : Text) :
    (∀ a ∈ path, sep a = false) ∨
      ∃ first c rest, (∀ a ∈ first, sep a = false) ∧ sep c = true ∧ path = first ++ c :: rest := by
  induction path with
  | nil => exact .inl nofun
  | cons c path ih =>
      cases isSep : sep c with
      | true => exact .inr ⟨[], c, path, nofun, isSep, rfl⟩
      | false =>
          rcases ih with clean | ⟨first, d, rest, clean, other, rfl⟩
          · exact .inl (List.forall_mem_cons.mpr ⟨isSep, clean⟩)
          · exact .inr ⟨c :: first, d, rest, List.forall_mem_cons.mpr ⟨isSep, clean⟩, other, rfl⟩

/-- What a component is, and how what is behind it begins. -/
theorem nextComponent_behind (sep : Char → Bool) (path : Text) :
    ∃ after, path = (nextComponent sep path).1 ++ after ∧
      (∀ a ∈ (nextComponent sep path).1, sep a = false) ∧ (after = [] ∨ after.head?.any sep = true) := by
  rcases nextComponent_cases sep path with clean | ⟨first, c, after, clean, isSep, rfl⟩
  · rw [nextComponent_of_clean clean]
    exact ⟨[], (List.append_nil path).symm, clean, .inl rfl⟩
  · rw [nextComponent_append clean isSep]
    exact ⟨c :: after, rfl, clean, .inr isSep⟩

theorem length_nextComponent (sep : Char → Bool) (path : Text) :
    (nextComponent sep path).1.length ≤ path.length := by
  obtain ⟨after, whole, -⟩ := nextComponent_behind sep path
  exact List.IsPrefix.length_le ⟨after, whole.symm⟩

theorem length_nextComponent_twice (sep : Char → Bool) (path : Text) :
    (nextComponent sep path).1.length +
      (if (nextComponent sep (nextComponent sep path).2).1 ≠ [] then
        1 + (nextComponent sep (nextComponent sep path).2).1.length else 0) ≤ path.length := by
  rcases nextComponent_cases sep path with clean | ⟨first, c, rest, clean, isSep, rfl⟩
  · rw [nextComponent_of_clean clean]
    exact Nat.le_refl _
  · have share := length_nextComponent sep rest
    rw [nextComponent_append clean isSep, List.length_append, List.length_cons]
    dsimp only
    split
    · omega
    · omega

theorem len_parseUnc (read : parseUnc path = some p) : p.len ≤ 2 + path.length := by
  have twice := length_nextComponent_twice (isSep true) path
  unfold parseUnc at read
  dsimp only at read
  split at read
  · obtain rfl := Option.some.inj read
    simp only [Prefix.len]
    omega
  · cases read

theorem len_parseVerbatimName : (parseVerbatimName path).len ≤ 4 + path.length := by
  unfold parseVerbatimName
  split
  · next drive read =>
      have long : 2 ≤ path.length := by
        match path, read with
        | _ :: _ :: _, _ => exact Nat.le_add_left 2 _
      exact Nat.add_le_add_left long 4
  · exact Nat.add_le_add_left (length_nextComponent isVerbatimSep path) 4

theorem len_parseVerbatim : (parseVerbatim path).len ≤ 4 + path.length := by
  unfold parseVerbatim
  split
  · next c rest =>
      split
      · have twice := length_nextComponent_twice isVerbatimSep rest
        simp only [Prefix.len, List.length_cons]
        omega
      · exact len_parseVerbatimName
  · exact len_parseVerbatimName

theorem len_parseBehind {backslashes : Bool} (read : parseBehind backslashes path = some p) :
    p.len ≤ 2 + path.length := by
  unfold parseBehind at read
  split at read
  · next c rest =>
      split at read
      · obtain rfl := Option.some.inj read
        have long := @len_parseVerbatim rest
        simp only [List.length_cons]
        omega
      · exact len_parseUnc read
  · next c rest =>
      split at read
      · obtain rfl := Option.some.inj read
        have long := length_nextComponent (isSep true) rest
        simp only [Prefix.len, List.length_cons]
        omega
      · exact len_parseUnc read
  · exact len_parseUnc read

theorem prefixLen_le (windows : Bool) (path : Text) :
    prefixLen (prefixOf windows path) ≤ path.length := by
  cases read : prefixOf windows path with
  | none => exact Nat.zero_le _
  | some p =>
      show p.len ≤ path.length
      unfold prefixOf parsePrefix at read
      split at read
      · split at read
        · split at read
          · have long := len_parseBehind read
            simp only [List.length_cons]
            omega
          · obtain ⟨drive, -, rfl⟩ := Option.map_eq_some_iff.mp read
            exact Nat.le_add_left 2 _
        · cases read
      · cases read

end Reading

/-- A relative name that never leads up. -/
structure IsName (windows : Bool) (name : Text) : Prop where
  some_ : name ≠ []
  noPrefix : prefixOf windows name = none
  relative : beginsWithSep windows name = false
  plain : dotDot ∉ parts windows name

section Continued

variable {windows : Bool} {base name : Text} {rest : Text} {p : Option Prefix}

theorem mainSep_isSep : isSep windows (mainSep windows) = true := by
  cases windows
  · decide
  · decide

theorem sepOf_plain (plain : verbatim p = false) : sepOf windows p = isSep windows := by
  rw [sepOf, plain, if_neg nofun]

theorem counts_plain (plain : verbatim p = false) : counts p = counts none := by
  funext part
  rw [counts, counts, plain]
  rfl

section

variable (isName : IsName windows name)

include isName

theorem IsName.afterPrefix_eq : afterPrefix windows name = name := by
  rw [afterPrefix, isName.noPrefix]
  rfl

theorem IsName.not_hasRoot : hasRoot windows name = false := by
  rw [hasRoot, isName.noPrefix, isName.afterPrefix_eq, isName.relative]
  rfl

theorem IsName.parts_eq :
    parts windows name = (name.splitOnP (isSep windows)).filter (counts none) := by
  rw [parts, isName.noPrefix, isName.afterPrefix_eq, partsBehind, bodyOf, isName.relative, if_neg nofun]
  rfl

theorem push_plain (plain : verbatim (prefixOf windows base) = false) :
    push windows base name = base ++ (glue windows base ++ name) := by
  unfold push
  rw [isName.noPrefix, isName.not_hasRoot, plain, Bool.and_false, Bool.false_and]
  rfl

end

theorem afterPrefix_append {tail : Text}
    (same : prefixOf windows (base ++ tail) = prefixOf windows base) :
    afterPrefix windows (base ++ tail) = afterPrefix windows base ++ tail := by
  rw [afterPrefix, same, List.drop_append_of_le_length (prefixLen_le windows base)]
  rfl

theorem beginsWithSep_append (some_ : rest ≠ []) (tail : Text) :
    beginsWithSep windows (rest ++ tail) = beginsWithSep windows rest := by
  rw [beginsWithSep, List.head?_append_of_ne_nil _ some_]
  rfl

theorem bodyOf_append (some_ : rest ≠ []) (tail : Text) :
    bodyOf windows (rest ++ tail) = bodyOf windows rest ++ tail := by
  rw [bodyOf, beginsWithSep_append some_, bodyOf]
  split
  · exact List.tail_append_of_ne_nil some_
  · rfl

/-- With nothing behind its prefix a path needs a separator only if the prefix stands for a root. -/
theorem glue_bare (bare : afterPrefix windows base = []) :
    glue windows base = [] ∨
      glue windows base = [mainSep windows] ∧
        (prefixOf windows base).any Prefix.hasImplicitRoot = true := by
  unfold glue
  cases needs : needSep windows base with
  | false => exact .inl rfl
  | true =>
      refine .inr ⟨rfl, ?_⟩
      have whole : base.length ≤ prefixLen (prefixOf windows base) := List.drop_eq_nil_iff.mp bare
      have equal := Nat.le_antisymm (prefixLen_le windows base) whole
      unfold needSep at needs
      rw [Bool.and_eq_true, decide_eq_true equal, Bool.and_true, Bool.not_eq_true'] at needs
      obtain ⟨ends, notDrive⟩ := needs
      cases read : prefixOf windows base with
      | none =>
          rw [read] at equal
          rw [List.length_eq_zero_iff.mp equal.symm] at ends
          cases ends
      | some p =>
          rw [read] at notDrive
          exact congrArg (!·) notDrive

/-- A path that goes on behind its prefix and needs no separator ends with one. -/
theorem glue_ends (behind : afterPrefix windows base = rest) (some_ : rest ≠ [])
    (none_ : glue windows base = []) : ∃ front c, rest = front ++ [c] ∧ isSep windows c = true := by
  obtain ⟨front, c, rfl⟩ := (List.eq_nil_or_concat rest).resolve_left some_
  refine ⟨front, c, List.concat_eq_append, ?_⟩
  have last : base.getLast? = some c := by
    have whole : base.take (prefixLen (prefixOf windows base)) ++ front.concat c = base := by
      rw [← behind]
      exact List.take_append_drop _ _
    rw [← whole, List.getLast?_append, List.concat_eq_append, List.getLast?_concat]
    rfl
  have longer : prefixLen (prefixOf windows base) ≠ base.length := by
    intro equal
    have bare : afterPrefix windows base = [] := List.drop_eq_nil_iff.mpr (Nat.le_of_eq equal.symm)
    exact some_ (behind.symm.trans bare)
  unfold glue at none_
  split at none_
  · cases none_
  · next needs =>
      unfold needSep at needs
      rw [last, decide_eq_false longer, Bool.and_false, Bool.not_false, Bool.and_true] at needs
      simpa using needs

theorem hasRoot_continued (isName : IsName windows name)
    (same : prefixOf windows (base ++ (glue windows base ++ name)) = prefixOf windows base) :
    hasRoot windows (base ++ (glue windows base ++ name)) = hasRoot windows base := by
  rw [hasRoot, same, afterPrefix_append same, hasRoot]
  by_cases bare : afterPrefix windows base = []
  · rcases glue_bare bare with none_ | ⟨-, implicit⟩
    · rw [none_, bare, List.nil_append, List.nil_append, isName.relative]
      rfl
    · rw [implicit, Bool.true_or, Bool.true_or]
  · rw [beginsWithSep_append bare]

theorem parts_continued (isName : IsName windows name)
    (plain : verbatim (prefixOf windows base) = false)
    (same : prefixOf windows (base ++ (glue windows base ++ name)) = prefixOf windows base) :
    parts windows (base ++ (glue windows base ++ name)) = parts windows base ++ parts windows name := by
  rw [parts, same, afterPrefix_append same, partsBehind, isName.parts_eq, parts, partsBehind,
    sepOf_plain plain, counts_plain plain]
  by_cases bare : afterPrefix windows base = []
  · have body : bodyOf windows (glue windows base ++ name) = name := by
      rcases glue_bare bare with none_ | ⟨given, -⟩
      · rw [none_, List.nil_append, bodyOf, isName.relative, if_neg nofun]
      · have begins : beginsWithSep windows ([mainSep windows] ++ name) = true := mainSep_isSep
        rw [given, bodyOf, begins, if_pos rfl]
        rfl
    rw [bare, List.nil_append, body]
    rfl
  · rw [bodyOf_append bare]
    generalize behind : afterPrefix windows base = rest at bare
    by_cases none_ : glue windows base = []
    · obtain ⟨front, c, ends, isSep⟩ := glue_ends behind bare none_
      have body : bodyOf windows rest = [] ∨ ∃ front, bodyOf windows rest = front ++ [c] := by
        rw [ends, bodyOf]
        split
        · cases front with
          | nil => exact .inl rfl
          | cons a front => exact .inr ⟨front, rfl⟩
        · exact .inr ⟨front, rfl⟩
      rw [none_, List.nil_append]
      rcases body with empty | ⟨front, body⟩
      · rw [empty]
        rfl
      · rw [body, List.append_assoc, List.singleton_append, List.splitOnP_append_cons front name isSep,
          List.splitOnP_append_cons front [] isSep, List.filter_append, List.filter_append]
        exact congrArg (· ++ _) (List.append_nil _).symm
    · have given : glue windows base = [mainSep windows] := by
        unfold glue at none_ ⊢
        split at none_
        · next needs => rw [if_pos needs]
        · exact absurd rfl none_
      rw [given, List.singleton_append, List.splitOnP_append_cons _ name mainSep_isSep,
        List.filter_append]

end Continued

variable {windows : Bool} {base name path : Text} {more : List Text}

/-- Names that are neither `.` nor `..`. -/
def Plain (names : List Text) : Prop := ['.'] ∉ names ∧ dotDot ∉ names

theorem foldl_step_plain (plain : Plain more) (l : Location) :
    more.foldl Location.step l = l.down more := by
  induction more generalizing l with
  | nil => exact congrArg (Location.mk l.volume l.rooted l.ups) (List.append_nil l.names).symm
  | cons part more ih =>
      obtain ⟨⟨dot, dots⟩, ⟨dotDot_, dotDots⟩⟩ :=
        plain.imp List.ne_and_not_mem_of_not_mem_cons List.ne_and_not_mem_of_not_mem_cons
      have one : l.step part = l.down [part] := by
        rw [Location.step, if_neg dot.symm, if_neg dotDot_.symm]
        rfl
      rw [List.foldl_cons, ih ⟨dots, dotDots⟩, one]
      exact congrArg (Location.mk l.volume l.rooted l.ups) (List.append_assoc l.names [part] more)

theorem locate_of_parts (plain : Plain more) (same : prefixOf windows path = prefixOf windows base)
    (root : hasRoot windows path = hasRoot windows base)
    (continued : parts windows path = parts windows base ++ more) :
    locate windows path = (locate windows base).down more := by
  rw [locate, same, root, continued, List.foldl_append, foldl_step_plain plain]
  rfl

theorem below_iff_of_locate (leads : locate windows path = (locate windows base).down more) :
    Below windows base path ↔ more ≠ [] := by
  constructor
  · rintro ⟨names, some_, also⟩
    have same := congrArg Location.names (leads.symm.trans also)
    rwa [List.append_cancel_left same]
  · exact fun some_ => ⟨more, some_, leads⟩

theorem volume_foldl_step (names : List Text) (l : Location) :
    (names.foldl Location.step l).volume = l.volume := by
  induction names generalizing l with
  | nil => rfl
  | cons part names ih =>
      rw [List.foldl_cons, ih, Location.step]
      split
      · rfl
      · split
        · split
          · rfl
          · split
            · rfl
            · rfl
        · rfl

/-- What leads below has the same prefix. -/
theorem Below.prefixOf_eq (below : Below windows base path) :
    prefixOf windows path = prefixOf windows base := by
  obtain ⟨names, -, leads⟩ := below
  have same := congrArg Location.volume leads
  rwa [locate, volume_foldl_step, Location.down, locate, volume_foldl_step] at same

theorem IsName.plain_parts (isName : IsName windows name) : Plain (parts windows name) := by
  refine ⟨fun inside => ?_, isName.plain⟩
  rw [isName.parts_eq] at inside
  exact absurd (List.mem_filter.mp inside).2 (by decide)

/-- A name that continues a path without changing its prefix leads below it, if it has a part at all. -/
theorem below_continued_iff (isName : IsName windows name)
    (plain : verbatim (prefixOf windows base) = false)
    (same : prefixOf windows (base ++ (glue windows base ++ name)) = prefixOf windows base) :
    Below windows base (base ++ (glue windows base ++ name)) ↔ parts windows name ≠ [] :=
  below_iff_of_locate (locate_of_parts isName.plain_parts same (hasRoot_continued isName same)
    (parts_continued isName plain same))

end RemoteControl.PathText
