import Mathlib.Logic.Relation
import RemoteControl.PathText
import RemoteControl.Runs

/-! # The log of removed files and directories

`FileRemoveLogControl` of `server/connection.rs` collects what a client removes, and a timer sends it to the
connection manager. What lies directly in a directory that is removed later need not be told on its own.
-/

namespace RemoteControl.RemoveLog

open PathText (Text)

/-- What two paths are compared by: the prefix, whether there is a root, whether there is a `.` at the
    beginning, and the other components. -/
def components (windows : Bool) (path : Text) : Option PathText.Prefix × Bool × Bool × List Text :=
  let p := PathText.prefixOf windows path
  (p, PathText.beginsWithSep windows (PathText.afterPrefix windows path) ||
      p.any PathText.Prefix.hasImplicitRoot && !PathText.verbatim p,
    PathText.beginsWithDot windows path, PathText.parts windows path)

def directChild (windows : Bool) (parent child : Text) : Bool :=
  (PathText.parent windows child).map (components windows) = some (components windows parent)

/-- `FileRemoveFile` and `FileRemoveDir`. No function looks at the number of the call. -/
structure Removed where
  id : Int
  path : Text
  call : Nat

structure FileActionLog where
  id : Int
  connId : Int
  path : Text
  dir : Bool
  call : Nat
  deriving DecidableEq

structure FileRemoveLogControl where
  connId : Int
  removedFiles : List Removed := []
  removedDirs : List Removed := []

namespace FileRemoveLogControl

def toLog (c : FileRemoveLogControl) (dir : Bool) (r : Removed) : FileActionLog :=
  ⟨r.id, c.connId, r.path, dir, r.call⟩

def onRemoveFile (f : Removed) (c : FileRemoveLogControl) : Option FileActionLog × FileRemoveLogControl :=
  (some (c.toLog false f), { c with removedFiles := c.removedFiles ++ [f] })

/-- The directories that stay when `d` is removed. -/
def otherDirs (windows : Bool) (d : Removed) (c : FileRemoveLogControl) : List Removed :=
  c.removedDirs.filter fun x => !directChild windows d.path x.path

/-- The files that stay; the arguments are in the other order here. -/
def otherFiles (windows : Bool) (d : Removed) (c : FileRemoveLogControl) : List Removed :=
  c.removedFiles.filter fun f => !directChild windows f.path d.path

def onRemoveDir (windows : Bool) (d : Removed) (c : FileRemoveLogControl) :
    Option FileActionLog × FileRemoveLogControl :=
  (some (c.toLog true d),
    { c with
      removedFiles := c.otherFiles windows d
      removedDirs :=
        if (c.otherDirs windows d).any fun x => directChild windows x.path d.path then c.otherDirs windows d
        else c.otherDirs windows d ++ [d] })

/-- `elapsed` are the seconds since the last removal. -/
def onTimer (elapsed : Nat) (c : FileRemoveLogControl) : List FileActionLog × FileRemoveLogControl :=
  if elapsed < 1 then ([], c)
  else
    (c.removedFiles.map (c.toLog false) ++ c.removedDirs.map (c.toLog true),
      { c with removedFiles := [], removedDirs := [] })

end FileRemoveLogControl

inductive Event where
  | removeFile (id : Int) (path : Text)
  | removeDir (id : Int) (path : Text)
  | timer (elapsed : Nat)

structure Connection where
  log : FileRemoveLogControl
  /-- How many removals there were. -/
  calls : Nat := 0
  /-- What was removed since the log was emptied. -/
  removed : List Text := []

namespace Connection

def step (windows : Bool) (s : Connection) : Event → Connection
  | .removeFile id path =>
      { log := (s.log.onRemoveFile ⟨id, path, s.calls⟩).2, calls := s.calls + 1, removed := s.removed ++ [path] }
  | .removeDir id path =>
      { log := (s.log.onRemoveDir windows ⟨id, path, s.calls⟩).2
        calls := s.calls + 1
        removed := s.removed ++ [path] }
  | .timer elapsed =>
      { s with
        log := (s.log.onTimer elapsed).2
        removed := if elapsed < 1 then s.removed else [] }

/-- What the timer would send. -/
def emitted (s : Connection) : List FileActionLog := (s.log.onTimer 1).1

def Ancestor (windows : Bool) : Text → Text → Prop :=
  Relation.TransGen fun parent child => directChild windows parent child = true

/-- Nothing is told that was removed before a directory that is told and holds it, and all that was removed
    is told or is below a directory that is told. -/
structure Law (windows : Bool) (s : Connection) : Prop where
  coalesced : ∀ e ∈ s.emitted, ∀ d ∈ s.emitted, d.dir = true → e.call < d.call →
    directChild windows d.path e.path = false
  covered : ∀ path ∈ s.removed, ∃ e ∈ s.emitted, e.path = path ∨ e.dir = true ∧ Ancestor windows e.path path

/-- The directory is told unless one is told that holds it. -/
def Tells (windows : Bool) (d : Removed) (s : Connection) : Prop :=
  ∀ x ∈ s.log.otherDirs windows d, directChild windows x.path d.path = false

/-- A directory that is told holds no file that was removed before and stays, and every file whose path
    holds the directory is below one of the directories, or is one of them. -/
structure Sound (windows : Bool) (d : Removed) (s : Connection) : Prop where
  holds : Tells windows d s → ∀ f ∈ s.log.otherFiles windows d, directChild windows d.path f.path = false
  drops : ∀ f ∈ s.log.removedFiles, directChild windows f.path d.path = true →
    ∃ x ∈ s.log.removedDirs ++ [d], x.path = f.path ∨ Ancestor windows x.path f.path

def Meets (windows : Bool) (s : Connection) : Event → Prop
  | .removeDir id path => Sound windows ⟨id, path, s.calls⟩ s
  | _ => True

/-! ## One removal -/

section Removal

open FileRemoveLogControl (onRemoveFile onRemoveDir otherFiles otherDirs onTimer toLog)

variable {windows : Bool} {s : Connection}

/-- The law of the two lists. -/
structure Lists (windows : Bool) (files dirs : List Removed) (removed : List Text) : Prop where
  files_ : ∀ d ∈ dirs, ∀ f ∈ files, f.call < d.call → directChild windows d.path f.path = false
  dirs_ : ∀ d ∈ dirs, ∀ x ∈ dirs, x.call < d.call → directChild windows d.path x.path = false
  covered : ∀ path ∈ removed,
    (∃ f ∈ files, f.path = path) ∨ ∃ d ∈ dirs, d.path = path ∨ Ancestor windows d.path path

theorem mem_emitted {e : FileActionLog} :
    e ∈ s.emitted ↔
      (∃ f ∈ s.log.removedFiles, s.log.toLog false f = e) ∨ ∃ d ∈ s.log.removedDirs, s.log.toLog true d = e := by
  simp [emitted, onTimer]

theorem law_iff : Law windows s ↔ Lists windows s.log.removedFiles s.log.removedDirs s.removed := by
  constructor
  · intro law
    have file {f : Removed} (inside : f ∈ s.log.removedFiles) : s.log.toLog false f ∈ s.emitted :=
      mem_emitted.mpr (.inl ⟨f, inside, rfl⟩)
    have dir {d : Removed} (inside : d ∈ s.log.removedDirs) : s.log.toLog true d ∈ s.emitted :=
      mem_emitted.mpr (.inr ⟨d, inside, rfl⟩)
    refine ⟨fun d listed f inside => ?_, fun d listed x inside => ?_, fun path gone => ?_⟩
    · exact law.coalesced _ (file inside) _ (dir listed) rfl
    · exact law.coalesced _ (dir inside) _ (dir listed) rfl
    · obtain ⟨e, told, covers⟩ := law.covered path gone
      cases mem_emitted.mp told with
      | inl isFile =>
          obtain ⟨f, inside, rfl⟩ := isFile
          cases covers with
          | inl same => exact .inl ⟨f, inside, same⟩
          | inr below => exact absurd below.1 nofun
      | inr isDir =>
          obtain ⟨d, inside, rfl⟩ := isDir
          exact .inr ⟨d, inside, covers.imp_right And.right⟩
  · intro lists
    constructor
    · intro e told d toldDir isDir before
      cases mem_emitted.mp toldDir with
      | inl isFile =>
          obtain ⟨f, -, rfl⟩ := isFile
          exact absurd isDir nofun
      | inr listed =>
          obtain ⟨d, listed, rfl⟩ := listed
          cases mem_emitted.mp told with
          | inl isFile =>
              obtain ⟨f, inside, rfl⟩ := isFile
              exact lists.files_ d listed f inside before
          | inr isDir =>
              obtain ⟨x, inside, rfl⟩ := isDir
              exact lists.dirs_ d listed x inside before
    · intro path gone
      cases lists.covered path gone with
      | inl isFile =>
          obtain ⟨f, inside, same⟩ := isFile
          exact ⟨_, mem_emitted.mpr (.inl ⟨f, inside, rfl⟩), .inl same⟩
      | inr isDir =>
          obtain ⟨d, inside, covers⟩ := isDir
          exact ⟨_, mem_emitted.mpr (.inr ⟨d, inside, rfl⟩), covers.imp_right fun below => ⟨rfl, below⟩⟩

/-- Every entry is of an earlier call, whose path was removed. -/
structure Inv (s : Connection) : Prop where
  files : ∀ f ∈ s.log.removedFiles, f.call < s.calls ∧ f.path ∈ s.removed
  dirs : ∀ d ∈ s.log.removedDirs, d.call < s.calls

variable {d : Removed} {c : FileRemoveLogControl} {path : Text} {x : Removed}

theorem mem_otherDirs :
    x ∈ c.otherDirs windows d ↔ x ∈ c.removedDirs ∧ directChild windows d.path x.path = false := by
  simp [otherDirs]

theorem mem_otherFiles {f : Removed} :
    f ∈ c.otherFiles windows d ↔ f ∈ c.removedFiles ∧ directChild windows f.path d.path = false := by
  simp [otherFiles]

theorem mem_removedDirs_onRemoveDir :
    x ∈ (c.onRemoveDir windows d).2.removedDirs ↔
      x ∈ c.otherDirs windows d ∨
        x = d ∧ ∀ y ∈ c.otherDirs windows d, directChild windows y.path d.path = false := by
  simp only [onRemoveDir]
  split
  · rename_i held
    obtain ⟨y, inside, holds⟩ := List.any_eq_true.mp held
    constructor
    · exact .inl
    · intro either
      cases either with
      | inl other => exact other
      | inr new => exact absurd (holds.symm.trans (new.2 y inside)) nofun
  · rename_i free
    have none_ : ∀ y ∈ c.otherDirs windows d, directChild windows y.path d.path = false := by
      intro y inside
      by_contra holds
      exact free (List.any_eq_true.mpr ⟨y, inside, (Bool.not_eq_false _).mp holds⟩)
    simp only [List.mem_append, List.mem_singleton]
    exact or_congr_right ⟨fun same => ⟨same, none_⟩, And.left⟩

/-- The directory is told or below one that is. -/
theorem told_onRemoveDir (windows : Bool) (d : Removed) (c : FileRemoveLogControl) :
    ∃ y ∈ (c.onRemoveDir windows d).2.removedDirs, y.path = d.path ∨ Ancestor windows y.path d.path := by
  by_cases free : ∀ y ∈ c.otherDirs windows d, directChild windows y.path d.path = false
  · exact ⟨d, mem_removedDirs_onRemoveDir.mpr (.inr ⟨rfl, free⟩), .inl rfl⟩
  · simp only [not_forall, Bool.not_eq_false] at free
    obtain ⟨y, inside, holds⟩ := free
    exact ⟨y, mem_removedDirs_onRemoveDir.mpr (.inl inside), .inr (.single holds)⟩

/-- What one of the directories covers, or the new one, is covered afterwards. -/
theorem covers_onRemoveDir (inside : x ∈ c.removedDirs ++ [d])
    (covers : x.path = path ∨ Ancestor windows x.path path) :
    ∃ y ∈ (c.onRemoveDir windows d).2.removedDirs, y.path = path ∨ Ancestor windows y.path path := by
  obtain ⟨y, told, above⟩ := told_onRemoveDir windows d c
  -- what is below the new directory is below what covers that
  have below (reaches : Ancestor windows d.path path) :
      ∃ y ∈ (c.onRemoveDir windows d).2.removedDirs, y.path = path ∨ Ancestor windows y.path path := by
    cases above with
    | inl same => exact ⟨y, told, .inr (same ▸ reaches)⟩
    | inr higher => exact ⟨y, told, .inr (higher.trans reaches)⟩
  cases List.mem_append.mp inside with
  | inr new =>
      obtain rfl := List.mem_singleton.mp new
      cases covers with
      | inl same => exact ⟨y, told, same ▸ above⟩
      | inr reaches => exact below reaches
  | inl old =>
      cases child : directChild windows d.path x.path with
      | false => exact ⟨x, mem_removedDirs_onRemoveDir.mpr (.inl (mem_otherDirs.mpr ⟨old, child⟩)), covers⟩
      | true =>
          cases covers with
          | inl same => exact below (same ▸ .single child)
          | inr reaches => exact below (.head child reaches)

theorem Inv.step (inv : Inv s) (e : Event) : Inv (s.step windows e) := by
  cases e with
  | removeFile id path =>
      constructor
      · intro f inside
        cases List.mem_append.mp inside with
        | inl old =>
            have earlier := inv.files f old
            exact ⟨Nat.lt_succ_of_lt earlier.1, List.mem_append_left _ earlier.2⟩
        | inr new =>
            obtain rfl := List.mem_singleton.mp new
            exact ⟨Nat.lt_succ_self _, List.mem_append_right _ (List.mem_singleton_self _)⟩
      · intro d inside
        exact Nat.lt_succ_of_lt (inv.dirs d inside)
  | removeDir id path =>
      constructor
      · intro f inside
        have earlier := inv.files f (mem_otherFiles.mp inside).1
        exact ⟨Nat.lt_succ_of_lt earlier.1, List.mem_append_left _ earlier.2⟩
      · intro d inside
        cases mem_removedDirs_onRemoveDir.mp inside with
        | inl old => exact Nat.lt_succ_of_lt (inv.dirs d (mem_otherDirs.mp old).1)
        | inr new =>
            obtain ⟨rfl, -⟩ := new
            exact Nat.lt_succ_self _
  | timer elapsed =>
      by_cases early : elapsed < 1
      · simpa [Connection.step, onTimer, early] using inv
      · constructor
        · simp [Connection.step, onTimer, early]
        · simp [Connection.step, onTimer, early]

theorem lists_removeFile {id : Int} (inv : Inv s)
    (lists : Lists windows s.log.removedFiles s.log.removedDirs s.removed) :
    Lists windows (s.log.removedFiles ++ [⟨id, path, s.calls⟩]) s.log.removedDirs (s.removed ++ [path]) := by
  constructor
  · intro d listed f inside before
    cases List.mem_append.mp inside with
    | inl old => exact lists.files_ d listed f old before
    | inr new =>
        obtain rfl := List.mem_singleton.mp new
        exact absurd (inv.dirs d listed) (Nat.not_lt.mpr (Nat.le_of_lt before))
  · exact lists.dirs_
  · intro other gone
    cases List.mem_append.mp gone with
    | inl old =>
        apply (lists.covered other old).imp_left
        intro ⟨f, inside, same⟩
        exact ⟨f, List.mem_append_left _ inside, same⟩
    | inr new =>
        obtain rfl := List.mem_singleton.mp new
        exact .inl ⟨_, List.mem_append_right _ (List.mem_singleton_self _), rfl⟩

/-- A removed directory keeps the law exactly when it is sound. -/
theorem lists_removeDir_iff (inv : Inv s) (fresh : d.call = s.calls)
    (lists : Lists windows s.log.removedFiles s.log.removedDirs s.removed) :
    Lists windows (s.log.onRemoveDir windows d).2.removedFiles (s.log.onRemoveDir windows d).2.removedDirs
      (s.removed ++ [d.path]) ↔ Sound windows d s := by
  constructor
  · intro after
    constructor
    · intro tells f stays
      have told := mem_removedDirs_onRemoveDir.mpr (.inr ⟨rfl, tells⟩)
      apply after.files_ d told f stays
      exact fresh ▸ (inv.files f (mem_otherFiles.mp stays).1).1
    · intro f inside holds
      cases after.covered f.path (List.mem_append_left _ (inv.files f inside).2) with
      | inl isFile =>
          obtain ⟨g, stays, same⟩ := isFile
          have free := (mem_otherFiles.mp stays).2
          rw [same, holds] at free
          cases free
      | inr isDir =>
          obtain ⟨x, listed, covers⟩ := isDir
          refine ⟨x, ?_, covers⟩
          cases mem_removedDirs_onRemoveDir.mp listed with
          | inl old => exact List.mem_append_left _ (mem_otherDirs.mp old).1
          | inr new => exact new.1 ▸ List.mem_append_right _ (List.mem_singleton_self _)
  · intro sound
    constructor
    · intro x listed f stays before
      cases mem_removedDirs_onRemoveDir.mp listed with
      | inl old => exact lists.files_ x (mem_otherDirs.mp old).1 f (mem_otherFiles.mp stays).1 before
      | inr new =>
          obtain ⟨rfl, tells⟩ := new
          exact sound.holds tells f stays
    · intro x listed y other before
      cases mem_removedDirs_onRemoveDir.mp other with
      | inl oldOther =>
          cases mem_removedDirs_onRemoveDir.mp listed with
          | inl old => exact lists.dirs_ x (mem_otherDirs.mp old).1 y (mem_otherDirs.mp oldOther).1 before
          | inr new => exact new.1 ▸ (mem_otherDirs.mp oldOther).2
      | inr newOther =>
          obtain ⟨rfl, -⟩ := newOther
          cases mem_removedDirs_onRemoveDir.mp listed with
          | inl old =>
              have earlier := inv.dirs x (mem_otherDirs.mp old).1
              omega
          | inr new => exact absurd before (new.1 ▸ Nat.lt_irrefl _)
    · intro path gone
      cases List.mem_append.mp gone with
      | inr new =>
          obtain rfl := List.mem_singleton.mp new
          exact .inr (told_onRemoveDir windows d s.log)
      | inl old =>
          cases lists.covered path old with
          | inr isDir =>
              obtain ⟨x, inside, covers⟩ := isDir
              exact .inr (covers_onRemoveDir (List.mem_append_left _ inside) covers)
          | inl isFile =>
              obtain ⟨f, inside, rfl⟩ := isFile
              cases holds : directChild windows f.path d.path with
              | false => exact .inl ⟨f, mem_otherFiles.mpr ⟨inside, holds⟩, rfl⟩
              | true =>
                  obtain ⟨x, listed, covers⟩ := sound.drops f inside holds
                  exact .inr (covers_onRemoveDir listed covers)

theorem law_step_iff (inv : Inv s) (law : Law windows s) (e : Event) :
    Law windows (s.step windows e) ↔ Meets windows s e := by
  rw [law_iff]
  have lists := law_iff.mp law
  cases e with
  | removeFile id path => exact iff_of_true (lists_removeFile inv lists) trivial
  | removeDir id path => exact lists_removeDir_iff inv rfl lists
  | timer elapsed =>
      refine iff_of_true ?_ trivial
      by_cases early : elapsed < 1
      · simpa [Connection.step, onTimer, early] using lists
      · constructor
        · simp [Connection.step, onTimer, early]
        · simp [Connection.step, onTimer, early]
        · simp [Connection.step, onTimer, early]

end Removal

section Runs

open Runs (Always Along)

/-- `FileRemoveLogControl::new` -/
def new (connId : Int) : Connection := { log := { connId := connId } }

theorem inv_new (connId : Int) : Inv (new connId) := ⟨nofun, nofun⟩

theorem law_new (windows : Bool) (connId : Int) : Law windows (new connId) :=
  law_iff.mpr ⟨nofun, nofun, nofun⟩

/-- In a run, what the timer would send is always coalesced and covers all that was removed exactly when
    every removed directory is sound. -/
theorem coalesced_iff (windows : Bool) (connId : Int) (events : List Event) :
    Always (step windows) (Law windows) (new connId) events ↔
      Along (step windows) (Meets windows) (new connId) events :=
  Runs.always_iff_along_of_inv (fun _ e inv => inv.step e) (fun _ e inv law => law_step_iff inv law e)
    (inv_new connId) (law_new windows connId)

/-- A file is removed, and then the directory that it was in: both are told. -/
theorem file_and_its_directory_told :
    ¬∀ (windows : Bool) (connId : Int) (events : List Event),
      Always (step windows) (Law windows) (new connId) events := by
  intro claimed
  have law := (claimed false 1 [.removeFile 1 "/a/x".toList, .removeDir 2 "/a".toList]).last
  have apart := law.coalesced ⟨1, 1, "/a/x".toList, false, 0⟩ (by decide) ⟨2, 1, "/a".toList, true, 1⟩ (by decide)
    rfl (by decide)
  exact absurd apart (by decide)

end Runs

end Connection

end RemoteControl.RemoveLog
