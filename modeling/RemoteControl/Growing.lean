import Mathlib.Data.List.Basic

/-! # Files that grow behind a header

A file to which data is only appended, and of which only the first `h` places may change.
A copy can be made of it piece by piece while it grows: pieces read at different times
agree with the file behind the header, and the header is copied at the end.
-/

namespace RemoteControl.Growing

variable {β : Type*} {h : Nat}

/-- What a file may have become. -/
structure Extends (h : Nat) (f f' : List β) : Prop where
  length_le : f.length ≤ f'.length
  body : ∀ i, h ≤ i → i < f.length → f'[i]? = f[i]?

/-- What was read from `start` on, possibly some time ago. -/
structure PartOf (h start : Nat) (part f : List β) : Prop where
  length_le : start + part.length ≤ f.length
  body : ∀ i, h ≤ start + i → i < part.length → part[i]? = f[start + i]?

/-- Data put over a list from a place on, or behind it. -/
def splice (f : List β) (start : Nat) (data : List β) : List β :=
  f.take start ++ data ++ f.drop (start + data.length)

variable {f f' f'' data part : List β} {start : Nat}

theorem length_splice (inside : start ≤ f.length) :
    (splice f start data).length = max f.length (start + data.length) := by
  simp only [splice, List.length_append, List.length_take, List.length_drop]
  omega

theorem getElem?_splice (inside : start ≤ f.length) (i : Nat) :
    (splice f start data)[i]? =
      if start ≤ i ∧ i < start + data.length then data[i - start]? else f[i]? := by
  have length : (f.take start).length = start := List.length_take_of_le inside
  rw [splice, List.append_assoc, List.getElem?_append, length]
  split
  · rw [List.getElem?_take_of_lt (by assumption), if_neg (by omega)]
  · rw [List.getElem?_append]
    split
    · rw [if_pos (by omega)]
    · rw [if_neg (by omega), List.getElem?_drop]
      congr 1
      omega

namespace Extends

theorem refl (f : List β) : Extends h f f := ⟨Nat.le_refl _, fun _ _ _ => rfl⟩

theorem trans (first : Extends h f f') (second : Extends h f' f'') : Extends h f f'' where
  length_le := Nat.le_trans first.length_le second.length_le
  body i behind inside :=
    (second.body i behind (Nat.lt_of_lt_of_le inside first.length_le)).trans
      (first.body i behind inside)

theorem append (f data : List β) : Extends h f (f ++ data) where
  length_le := by simp
  body i _ inside := List.getElem?_append_left inside

/-- The header is rewritten. -/
theorem splice (header : start + data.length ≤ h) (inside : start + data.length ≤ f.length) :
    Extends h f (splice f start data) where
  length_le := by
    rw [length_splice (by omega)]
    exact Nat.le_max_left ..
  body i behind _ := by
    rw [getElem?_splice (by omega), if_neg (by omega)]

end Extends

namespace PartOf

theorem nil (inside : start ≤ f.length) : PartOf h start [] f where
  length_le := by simpa
  body i _ inside := absurd inside (Nat.not_lt_zero i)

theorem mono (read : PartOf h start part f) (more : Extends h f f') : PartOf h start part f' where
  length_le := Nat.le_trans read.length_le more.length_le
  body i behind inside := by
    have := read.length_le
    rw [more.body (start + i) behind (by omega)]
    exact read.body i behind inside

/-- Reading on where it was left off. -/
theorem read_on (read : PartOf h start part f) (n : Nat) :
    PartOf h start (part ++ (f.drop (start + part.length)).take n) f where
  length_le := by
    have := read.length_le
    simp only [List.length_append, List.length_take, List.length_drop]
    omega
  body i behind inside := by
    rw [List.getElem?_append]
    split
    · exact read.body i behind (by assumption)
    · simp only [List.length_append, List.length_take, List.length_drop] at inside
      rw [List.getElem?_take_of_lt (by omega), List.getElem?_drop]
      congr 1
      omega

end PartOf

/-- A part read later goes into a copy without a gap. -/
theorem Extends.store {copy : List β} (behind : Extends h copy f) (no_gap : start ≤ copy.length)
    (read : PartOf h start part f) : Extends h (Growing.splice copy start part) f where
  length_le := by
    rw [length_splice no_gap]
    exact Nat.max_le.mpr ⟨behind.length_le, read.length_le⟩
  body i beyond inside := by
    rw [length_splice no_gap] at inside
    rw [getElem?_splice no_gap]
    split
    · rename_i within
      rw [read.body (i - start) (by omega) (by omega)]
      congr 1
      omega
    · exact behind.body i beyond (by omega)

/-- With the header put over it, a copy of full length is the file. -/
theorem Extends.complete {copy : List β} (behind : Extends h copy f)
    (full : copy.length = f.length) : Growing.splice copy 0 (f.take h) = f := by
  apply List.ext_getElem?
  intro i
  rw [getElem?_splice (Nat.zero_le _)]
  split
  · rename_i within
    rw [Nat.sub_zero, List.getElem?_take_of_lt]
    simp only [List.length_take] at within
    omega
  · rename_i beyond
    simp only [List.length_take] at beyond
    by_cases inside : i < copy.length
    · exact (behind.body i (by omega) inside).symm
    · rw [List.getElem?_eq_none (by omega), List.getElem?_eq_none (by omega)]

end RemoteControl.Growing
