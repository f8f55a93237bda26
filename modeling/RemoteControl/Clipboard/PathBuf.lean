import RemoteControl.Clipboard.FileList

/-! # Paths by their components

Paths are compared and hashed by their components, so a `PathBuf` is the list of them here.
-/

namespace RemoteControl.Clipboard

namespace OsText

/-- `OsStr::to_str` -/
def toStr (name : OsText) : Option (List Char) :=
  name.mapM fun
    | .char c => some c
    | .invalid _ => none

def dotDot : OsText := [.char '.', .char '.']

theorem toStr_map (text : List Char) : OsText.toStr (text.map .char) = some text := by
  induction text with
  | nil => rfl
  | cons c rest ih =>
      unfold toStr at ih ⊢
      rw [List.map_cons, List.mapM_cons, ih]
      rfl

/-- Nothing is added to a segment, and no separator is in it. -/
theorem mem_segments {path segment : OsText} (member : segment ∈ path.segments) :
    ∀ c ∈ segment, c ∈ path ∧ c ≠ sep := by
  unfold segments at member
  induction path generalizing segment with
  | nil =>
      rw [List.splitOnP_nil, List.mem_singleton] at member
      subst member
      exact nofun
  | cons first rest ih =>
      have later {part : OsText} (member : part ∈ rest.splitOnP (· = sep)) :
          ∀ c ∈ part, c ∈ first :: rest ∧ c ≠ sep :=
        fun c inside => ((ih member) c inside).imp_left (List.mem_cons_of_mem first)
      rw [List.splitOnP_cons_eq_if_modifyHead] at member
      split_ifs at member with separates
      · rcases List.mem_cons.mp member with rfl | member
        · exact nofun
        · exact later member
      · obtain ⟨head, parts, split⟩ := List.exists_cons_of_ne_nil (List.splitOnP_ne_nil (· = sep) rest)
        rw [split, List.modifyHead_cons] at member
        rcases List.mem_cons.mp member with rfl | member
        · intro c inside
          rcases List.mem_cons.mp inside with rfl | inside
          · exact ⟨List.mem_cons_self .., by simpa using separates⟩
          · exact later (split ▸ List.mem_cons_self ..) c inside
        · exact later (split ▸ List.mem_cons_of_mem head member)

variable {name : OsText}

/-- A name in a path is neither empty nor `.`, and has no separator. -/
theorem name_of_components {path : OsText} (member : .name name ∈ path.components) :
    name ≠ [] ∧ name ≠ [.char '.'] ∧ ∀ c ∈ name, c ∈ path ∧ c ≠ sep := by
  unfold components at member
  rcases List.mem_append.mp member with first | later
  · unfold start at first
    split_ifs at first
    · cases List.mem_singleton.mp first
    · cases List.mem_singleton.mp first
    · cases first
  · obtain ⟨segment, inside, same⟩ := List.mem_map.mp later
    cases same
    obtain ⟨inBody, filled⟩ := List.mem_filter.mp inside
    have inSegments : name ∈ path.segments := by
      unfold body at inBody
      split_ifs at inBody
      · exact inBody
      · exact List.mem_of_mem_tail inBody
    have blank : ¬ (name = [] ∨ name = [.char '.']) := by
      simpa [isBlank] using filled
    exact ⟨fun empty => blank (.inl empty), fun dot => blank (.inr dot), mem_segments inSegments⟩

/-- Such a name is a path of one component. -/
theorem components_of_name (filled : name ≠ []) (dot : name ≠ [.char '.'])
    (whole : ∀ c ∈ name, c ≠ sep) : name.components = [.name name] := by
  have alone : name.segments = [name] := by
    apply List.splitOnP_eq_singleton
    exact fun c inside => decide_eq_false (whole c inside)
  have relative : name.head? ≠ some sep := fun first => whole sep (List.mem_of_head? first) rfl
  have plain : name.start = [] := by
    rw [start, if_neg relative, alone, List.head?_cons, if_neg]
    exact fun same => dot (Option.some.inj same)
  have shown : isBlank name = false := by
    simp [isBlank, filled, dot]
  rw [components, body, plain, if_pos rfl, alone, List.filter_singleton, shown]
  rfl

end OsText

/-- A `PathBuf`, as equality and hashing see it. -/
abbrev PathBuf := List OsText.Component

namespace PathBuf

def join (path : PathBuf) (name : OsText) : PathBuf := path ++ [.name name]

/-- `Path::parent` -/
def parent (path : PathBuf) : Option PathBuf :=
  match path.getLast? with
  | none | some .root => none
  | some _ => some path.dropLast

/-- `Path::file_name` -/
def fileName (path : PathBuf) : Option OsText :=
  match path.getLast? with
  | some (.name name) => if name = OsText.dotDot then none else some name
  | _ => none

def Component.text : OsText.Component → OsText
  | .root => []
  | .cur => [.char '.']
  | .name text => text

def text (path : PathBuf) : OsText :=
  if path = [.root] then [OsText.sep] else [OsText.sep].intercalate (path.map Component.text)

/-- A path with a file name is its parent and that name. -/
theorem of_fileName {path : PathBuf} (named : path.fileName = some name) :
    ∃ above, path = PathBuf.join above name ∧ path.parent = some above ∧ name ≠ OsText.dotDot := by
  unfold fileName at named
  cases last : path.getLast? with
  | none =>
      rw [last] at named
      cases named
  | some c =>
      rw [last] at named
      cases c with
      | root => cases named
      | cur => cases named
      | name text =>
          dsimp only at named
          split_ifs at named with dots
          cases named
          obtain ⟨above, rfl⟩ := List.getLast?_eq_some_iff.mp last
          refine ⟨above, rfl, ?_, dots⟩
          rw [parent, last, List.dropLast_concat]

end PathBuf

end RemoteControl.Clipboard
