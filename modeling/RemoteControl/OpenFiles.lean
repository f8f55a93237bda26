import RemoteControl.Growing

/-! # Files that are removed while they are open

A path leads to a file or to none. Who has opened a file goes on with that file, also when
the path no longer leads to it.
-/

namespace RemoteControl.OpenFiles

variable {β : Type*}

/-- What is to be had at a path, and all files that were once there. -/
structure Slot (β : Type*) where
  current : Option Nat := none
  contents : Nat → List β := fun _ => []
  /-- The number of the next file. -/
  next : Nat := 0

namespace Slot

def content (slot : Slot β) : Option (List β) := slot.current.map slot.contents

def put (slot : Slot β) (file : Nat) (data : List β) : Slot β :=
  { slot with contents := Function.update slot.contents file data }

/-- Opens a file for writing, emptied if it is there; also gives its number. -/
def create (slot : Slot β) : Slot β × Nat :=
  match slot.current with
  | some file => (slot.put file [], file)
  | none => ({ slot.put slot.next [] with current := some slot.next, next := slot.next + 1 }, slot.next)

/-- Data at a position of an open file; a gap before it is filled. -/
def write (slot : Slot β) (gap : β) (file position : Nat) (data : List β) : Slot β :=
  let content := slot.contents file
  slot.put file
    (Growing.splice (content ++ List.replicate (position - content.length) gap) position data)

def remove (slot : Slot β) : Slot β := { slot with current := none }

@[simp] theorem put_contents (slot : Slot β) (file : Nat) (data : List β) :
    (slot.put file data).contents file = data := Function.update_self ..

theorem put_contents_of_ne (slot : Slot β) {file other : Nat} (ne : other ≠ file) (data : List β) :
    (slot.put file data).contents other = slot.contents other := Function.update_of_ne ne ..

/-- The file that was created is the one at the path, and it is empty. -/
theorem create_spec (slot : Slot β) :
    slot.create.1.current = some slot.create.2 ∧ slot.create.1.contents slot.create.2 = [] := by
  unfold create
  split
  · rename_i file found
    exact ⟨found, put_contents ..⟩
  · exact ⟨rfl, put_contents ..⟩

/-- Writing on at the end of a file. -/
theorem write_end (slot : Slot β) (gap : β) {file position : Nat} (data : List β)
    (at_end : position = (slot.contents file).length) :
    (slot.write gap file position data).contents file = slot.contents file ++ data := by
  simp [write, Growing.splice, at_end]

theorem write_contents_of_ne (slot : Slot β) (gap : β) {file other : Nat} (position : Nat)
    (data : List β) (ne : other ≠ file) :
    (slot.write gap file position data).contents other = slot.contents other :=
  put_contents_of_ne slot ne _

end Slot

end RemoteControl.OpenFiles
