import Mathlib.Data.List.DropRight

/-! # Ring buffers

A queue of bounded length that gives up its first elements for those that come. Its elements are always an
end of the stream of all that was put in.
-/

namespace RemoteControl

structure RingBuffer (α : Type) where
  capacity : Nat
  content : List α
  fits : content.length ≤ capacity

namespace RingBuffer

variable {α : Type}

def empty (capacity : Nat) : RingBuffer α := ⟨capacity, [], Nat.zero_le _⟩

def occupied (r : RingBuffer α) : Nat := r.content.length

/-- Drop so many elements from the front, or all there are. -/
def skip (count : Nat) (r : RingBuffer α) : RingBuffer α where
  capacity := r.capacity
  content := r.content.drop count
  fits := by
    have fits := r.fits
    simp
    omega

/-- Of the elements there are and those that come, the last are kept. -/
def pushOverwrite (elems : List α) (r : RingBuffer α) : RingBuffer α where
  capacity := r.capacity
  content := (r.content ++ elems).rtake r.capacity
  fits := by
    simp [List.rtake]
    omega

section Occupied

variable (r : RingBuffer α) (elems : List α) (count : Nat)

@[simp] theorem capacity_skip : (r.skip count).capacity = r.capacity := rfl

@[simp] theorem capacity_pushOverwrite : (r.pushOverwrite elems).capacity = r.capacity := rfl

@[simp] theorem occupied_empty : (empty count : RingBuffer α).occupied = 0 := rfl

@[simp] theorem occupied_skip : (r.skip count).occupied = r.occupied - count := by
  simp [occupied, skip]

@[simp] theorem occupied_pushOverwrite :
    (r.pushOverwrite elems).occupied = min (r.occupied + elems.length) r.capacity := by
  simp [occupied, pushOverwrite, List.rtake]
  omega

end Occupied

/-- The content is what is left of the stream when its beginning is taken away. -/
def EndOf (stream : List α) (r : RingBuffer α) : Prop := r.content <:+ stream

variable {r : RingBuffer α} {stream : List α}

theorem endOf_content : r.EndOf r.content := List.suffix_refl _

theorem EndOf.skip (ends : r.EndOf stream) (count : Nat) : (r.skip count).EndOf stream :=
  (List.drop_suffix count r.content).trans ends

theorem EndOf.pushOverwrite (ends : r.EndOf stream) (elems : List α) :
    (r.pushOverwrite elems).EndOf (stream ++ elems) := by
  obtain ⟨gone, same⟩ := ends
  have whole : r.content ++ elems <:+ stream ++ elems := ⟨gone, by rw [← same, List.append_assoc]⟩
  exact (List.drop_suffix _ _).trans whole

/-- What is left comes after all that was removed. -/
theorem EndOf.content_eq (ends : r.EndOf stream) :
    r.content = stream.drop (stream.length - r.occupied) :=
  List.suffix_iff_eq_drop.mp ends

theorem EndOf.occupied_le (ends : r.EndOf stream) : r.occupied ≤ stream.length := ends.length_le

end RingBuffer

end RemoteControl
