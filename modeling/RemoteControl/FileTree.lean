import Mathlib.Data.List.Infix

/-! # File trees

A file system as far as a program sees it that creates, writes, renames and removes
files by their path: a path holds a directory, a regular file or nothing. An
operation that the system would refuse yields `none`.

Every operation leaves the paths it changes in `touched`. `Within ok moved t t'` is how
the rest of the development says what an operation may do: it touches only paths that
satisfy `ok`, and everything else stays as it was unless it lies below a directory
that may be `moved`.
-/

namespace RemoteControl

inductive Node where
  | dir
  | file (content : List UInt8) (modified : Nat)
  deriving DecidableEq

structure FileTree (α : Type*) where
  node : List α → Option Node
  /-- What was created, written, renamed or removed so far. -/
  touched : List (List α) := []

/-- The content after writing `data` from position `pos` on; a gap reads as zeros. -/
def overwrite (content : List UInt8) (pos : Nat) (data : List UInt8) : List UInt8 :=
  content.take pos ++ List.replicate (pos - content.length) 0 ++ data ++
    content.drop (pos + data.length)

namespace FileTree

variable {α : Type*} {t : FileTree α}

structure Within (ok moved : List α → Prop) (t t' : FileTree α) : Prop where
  node : ∀ q, ¬ ok q → (∀ p, p <+: q → ¬ moved p) → t'.node q = t.node q
  touched : ∀ p ∈ t'.touched, p ∈ t.touched ∨ ok p

theorem Within.refl {ok moved : List α → Prop} : Within ok moved t t where
  node := fun _ _ _ => rfl
  touched := fun _ member => .inl member

theorem Within.trans {ok moved : List α → Prop} {t₁ t₂ : FileTree α} (first : Within ok moved t t₁)
    (second : Within ok moved t₁ t₂) : Within ok moved t t₂  where
  node := fun q outside still => (second.node q outside still).trans (first.node q outside still)
  touched := fun p member => (second.touched p member).elim (first.touched p) .inr

variable [DecidableEq α]

def put (t : FileTree α) (p : List α) (n : Option Node) : FileTree α :=
  ⟨Function.update t.node p n, t.touched ++ [p]⟩

@[simp] theorem put_node_self (t : FileTree α) (p : List α) (n : Option Node) :
    (t.put p n).node p = n :=
  Function.update_self ..

theorem put_node_of_ne (t : FileTree α) {p q : List α} (n : Option Node) (different : q ≠ p) :
    (t.put p n).node q = t.node q :=
  Function.update_of_ne different ..

def exists_ (t : FileTree α) (p : List α) : Bool := (t.node p).isSome

def isFile (t : FileTree α) (p : List α) : Bool :=
  match t.node p with
  | some (.file _ _) => true
  | _ => false

omit [DecidableEq α] in
theorem dir_of_not_isFile {p : List α} (there : t.exists_ p = true) (other : ¬ t.isFile p = true) :
    t.node p = some .dir := by
  unfold exists_ at there
  unfold isFile at other
  match node : t.node p with
  | none => simp [node] at there
  | some .dir => rfl
  | some (.file _ _) => simp [node] at other

/-- Makes the given directories one after the other, as far as none of them is in
    the way as a file. -/
def createDirAll (t : FileTree α) : List (List α) → FileTree α
  | [] => t
  | p :: rest =>
      match t.node p with
      | none => (t.put p (some .dir)).createDirAll rest
      | some .dir => t.createDirAll rest
      | some (.file _ _) => t

/-- Opens a file for writing and empties it. -/
def create (t : FileTree α) (p : List α) (now : Nat) : Option (FileTree α) :=
  if t.node p = some .dir then none
  else if t.node p.dropLast = some .dir then some (t.put p (some (.file [] now)))
  else none

def removeFile (t : FileTree α) (p : List α) : Option (FileTree α) :=
  match t.node p with
  | some (.file _ _) => some (t.put p none)
  | _ => none

/-- Removes what is there, if anything is. -/
def clear (t : FileTree α) (p : List α) : Option (FileTree α) :=
  if t.exists_ p then t.removeFile p else some t

/-- A whole directory changes its place. -/
def move (t : FileTree α) (a b : List α) : FileTree α where
  node := fun q =>
    if b <+: q then t.node (a ++ q.drop b.length)
    else if a <+: q then none
    else t.node q
  touched := t.touched ++ [a, b]

/-- A file replaces a file; a directory only goes where nothing is. -/
def rename (t : FileTree α) (a b : List α) : Option (FileTree α) :=
  match t.node a with
  | none => none
  | some (.file content modified) =>
      if t.node b = some .dir ∨ t.node b.dropLast ≠ some .dir then none
      else some ((t.put a none).put b (some (.file content modified)))
  | some .dir =>
      if t.node b = none ∧ t.node b.dropLast = some .dir ∧ ¬ a <+: b then some (t.move a b)
      else none

def setModified (t : FileTree α) (p : List α) (modified : Nat) : FileTree α :=
  match t.node p with
  | some (.file content _) => t.put p (some (.file content modified))
  | _ => t

/-- Writes through an open handle; nothing is left of a file that was removed. -/
def writeAt (t : FileTree α) (p : List α) (pos : Nat) (data : List UInt8) (now : Nat) : FileTree α :=
  match t.node p with
  | some (.file content _) => t.put p (some (.file (overwrite content pos data) now))
  | _ => t

/-- `fs::write`, without asking whether it was done. -/
def writeFile (t : FileTree α) (p : List α) (data : List UInt8) (now : Nat) : FileTree α :=
  match t.create p now with
  | none => t
  | some t => t.writeAt p 0 data now

/-! ## Where an operation leaves its marks -/

namespace Within

variable {ok moved : List α → Prop} {t t₁ t₂ : FileTree α} {p a b : List α}

theorem put (n : Option Node) (inside : ok p) : Within ok moved t (t.put p n) where
  node := fun q outside _ => put_node_of_ne t n fun same => outside (same ▸ inside)
  touched := by
    intro q member
    rcases List.mem_append.mp member with before | here
    · exact .inl before
    · exact .inr (List.mem_singleton.mp here ▸ inside)

/-- What was there already does not count. -/
theorem createDirAll {ps : List (List α)} (inside : ∀ p ∈ ps, ok p ∨ (t.node p).isSome = true) :
    Within ok moved t (t.createDirAll ps) := by
  induction ps generalizing t with
  | nil => exact .refl
  | cons p rest ih =>
      have rest_ : ∀ q ∈ rest, ok q ∨ (t.node q).isSome = true := fun q member =>
        inside q (List.mem_cons_of_mem p member)
      unfold FileTree.createDirAll
      split
      · rename_i missing
        have here : ok p := (inside p (List.mem_cons_self ..)).resolve_right (by simp [missing])
        refine .trans (.put (some .dir) here) (ih fun q member => ?_)
        by_cases same : q = p
        · exact .inl (same ▸ here)
        · rw [put_node_of_ne t _ same]
          exact rest_ q member
      · exact ih rest_
      · exact .refl

theorem create {now : Nat} (inside : ok p) (created : t.create p now = some t₁) :
    Within ok moved t t₁ := by
  unfold FileTree.create at created
  split_ifs at created
  obtain rfl := Option.some.inj created
  exact .put _ inside

theorem removeFile (inside : ok p) (removed : t.removeFile p = some t₁) : Within ok moved t t₁ := by
  unfold FileTree.removeFile at removed
  split at removed
  · obtain rfl := Option.some.inj removed
    exact .put _ inside
  · cases removed

theorem removeFile_getD (inside : ok p) : Within ok moved t ((t.removeFile p).getD t) := by
  cases removed : t.removeFile p with
  | none => exact .refl
  | some t₁ => exact .removeFile inside removed

theorem clear (inside : ok p) (cleared : t.clear p = some t₁) : Within ok moved t t₁ := by
  unfold FileTree.clear at cleared
  split_ifs at cleared
  · exact .removeFile inside cleared
  · exact Option.some.inj cleared ▸ .refl

/-- A directory takes along what is below it. -/
theorem rename (source : ok a) (target : ok b)
    (whole : t.node a = some .dir → moved a ∧ moved b) (renamed : t.rename a b = some t₁) :
    Within ok moved t t₁ := by
  unfold FileTree.rename at renamed
  split at renamed
  · cases renamed
  · split_ifs at renamed
    obtain rfl := Option.some.inj renamed
    exact .trans (.put none source) (.put _ target)
  · rename_i isDir
    split_ifs at renamed
    obtain rfl := Option.some.inj renamed
    constructor
    · intro q _ still
      simp only [move]
      rw [if_neg fun isPrefix => still b isPrefix (whole isDir).2,
        if_neg fun isPrefix => still a isPrefix (whole isDir).1]
    · intro q member
      rcases List.mem_append.mp member with before | here
      · exact .inl before
      · simp only [List.mem_cons, List.not_mem_nil, or_false] at here
        rcases here with rfl | rfl
        · exact .inr source
        · exact .inr target

theorem setModified (modified : Nat) (inside : ok p) :
    Within ok moved t (t.setModified p modified) := by
  unfold FileTree.setModified
  split
  · exact .put _ inside
  · exact .refl

theorem writeAt (pos : Nat) (data : List UInt8) (now : Nat) (inside : ok p) :
    Within ok moved t (t.writeAt p pos data now) := by
  unfold FileTree.writeAt
  split
  · exact .put _ inside
  · exact .refl

theorem writeFile (data : List UInt8) (now : Nat) (inside : ok p) :
    Within ok moved t (t.writeFile p data now) := by
  unfold FileTree.writeFile
  cases created : t.create p now with
  | none => exact .refl
  | some t₁ => exact .trans (.create inside created) (.writeAt _ _ _ inside)

end Within

section Made

variable {t : FileTree α}
  {p : List α} {content : List UInt8} {modified : Nat} {ps : List (List α)} {q : List α}

theorem createDirAll_node_of_not_mem (outside : q ∉ ps) :
    (t.createDirAll ps).node q = t.node q := by
  induction ps generalizing t with
  | nil => rfl
  | cons p rest ih =>
      rw [List.mem_cons, not_or] at outside
      unfold createDirAll
      split
      · rw [ih outside.2, put_node_of_ne t _ outside.1]
      · exact ih outside.2
      · rfl

/-- Nothing that is there already changes. -/
theorem createDirAll_node_of_some {n : Node} (there : t.node q = some n) :
    (t.createDirAll ps).node q = some n := by
  induction ps generalizing t with
  | nil => exact there
  | cons p rest ih =>
      unfold createDirAll
      split
      · rename_i missing
        refine ih ?_
        rw [put_node_of_ne t _ (fun same => by rw [same, missing] at there; cases there), there]
      · exact ih there
      · exact there

theorem createDirAll_node_of_mem (member : q ∈ ps)
    (free : ∀ p ∈ ps, ∀ content modified, t.node p ≠ some (.file content modified)) :
    (t.createDirAll ps).node q = some .dir := by
  induction ps generalizing t with
  | nil => cases member
  | cons p rest ih =>
      have restFree : ∀ p' ∈ rest, ∀ content modified, t.node p' ≠ some (.file content modified) :=
        fun p' inside => free p' (List.mem_cons_of_mem p inside)
      unfold createDirAll
      split
      · rename_i missing
        rcases List.mem_cons.mp member with rfl | later
        · exact createDirAll_node_of_some (put_node_self ..)
        · refine ih later ?_
          intro p' inside content modified
          by_cases same : p' = p
          · rw [same, put_node_self]
            exact nofun
          · rw [put_node_of_ne t _ same]
            exact restFree p' inside content modified
      · rename_i isDir
        rcases List.mem_cons.mp member with rfl | later
        · exact createDirAll_node_of_some isDir
        · exact ih later restFree
      · rename_i content modified isFile
        exact absurd isFile (free p (List.mem_cons_self ..) content modified)

theorem create_of_dir {now : Nat} (free : t.node p ≠ some .dir)
    (inside : t.node p.dropLast = some .dir) :
    t.create p now = some (t.put p (some (.file [] now))) := by
  rw [create, if_neg free, if_pos inside]

theorem writeAt_of_file {data : List UInt8} {pos now : Nat}
    (file : t.node p = some (.file content modified)) :
    t.writeAt p pos data now = t.put p (some (.file (overwrite content pos data) now)) := by
  rw [writeAt, file]

theorem setModified_of_file {before : Nat} (file : t.node p = some (.file content before)) :
    t.setModified p modified = t.put p (some (.file content modified)) := by
  rw [setModified, file]

theorem rename_of_file {a b : List α} (file : t.node a = some (.file content modified))
    (free : t.node b ≠ some .dir) (inside : t.node b.dropLast = some .dir) :
    t.rename a b = some ((t.put a none).put b (some (.file content modified))) := by
  rw [rename, file]
  simp [free, inside]

end Made

/-- A prefix that is overwritten with what comes next stays a prefix. -/
theorem overwrite_prefix {content whole data : List UInt8} {pos : Nat} (front : content <+: whole)
    (inside : pos ≤ content.length) (next : data <+: whole.drop pos) :
    overwrite content pos data <+: whole ∧ pos + data.length ≤ (overwrite content pos data).length := by
  obtain ⟨rest, rfl⟩ := front
  have shape : overwrite content pos data =
      content.take pos ++ data ++ content.drop (pos + data.length) := by
    rw [overwrite, Nat.sub_eq_zero_of_le inside, List.replicate_zero, List.append_nil]
  have long : pos + data.length ≤ (overwrite content pos data).length := by
    rw [shape, List.length_append, List.length_append, List.length_take, min_eq_left inside]
    omega
  refine ⟨?_, long⟩
  rw [List.drop_append_of_le_length inside] at next
  rw [shape]
  by_cases short : data.length ≤ (content.drop pos).length
  · obtain ⟨left, split⟩ := (List.prefix_of_prefix_length_le next (List.prefix_append ..) short)
    rw [← List.drop_drop, ← split, List.drop_left, List.append_assoc, split, List.take_append_drop]
    exact List.prefix_append ..
  · have past : content.drop (pos + data.length) = [] := by
      rw [List.drop_eq_nil_iff]
      rw [List.length_drop] at short
      omega
    obtain ⟨tail, split⟩ := next
    refine ⟨tail, ?_⟩
    rw [past, List.append_nil, List.append_assoc, split, ← List.append_assoc, List.take_append_drop]

end FileTree

end RemoteControl
