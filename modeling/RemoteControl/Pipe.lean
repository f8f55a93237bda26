import Mathlib.Data.List.Basic

/-! # Reading from a pipe

What the reads of a pipe come upon, in order: bytes that have arrived together, a signal
that interrupts the read, or an error. A read gets at most as many bytes as it asks for,
and the others stay for the next one. Once nothing is left the other end is closed.
-/

namespace RemoteControl.Pipe

variable {β : Type*}

inductive Item (β : Type*) where
  /-- At least one byte. -/
  | chunk (first : β) (others : List β)
  | interrupted
  | failed
  deriving DecidableEq

inductive Outcome (β : Type*) where
  /-- No bytes at all stand for the end. -/
  | read (bytes : List β)
  | interrupted
  | failed
  deriving DecidableEq

/-- Bytes that no read has taken stay in front. -/
def putBack : List β → List (Item β) → List (Item β)
  | [], items => items
  | b :: bytes, items => .chunk b bytes :: items

/-- `Read::read` into a buffer of `n` bytes, and what later reads come upon. -/
def read (n : Nat) : List (Item β) → Outcome β × List (Item β)
  | [] => (.read [], [])
  | .interrupted :: items => (.interrupted, items)
  | .failed :: items => (.failed, items)
  | .chunk b bytes :: items => (.read ((b :: bytes).take n), putBack ((b :: bytes).drop n) items)

/-- The bytes that reading gives, up to the first error. -/
def delivered : List (Item β) → List β
  | [] => []
  | .interrupted :: items => delivered items
  | .failed :: _ => []
  | .chunk b bytes :: items => b :: bytes ++ delivered items

/-- How much reading can take. -/
def weight : List (Item β) → Nat
  | [] => 0
  | .chunk _ bytes :: items => bytes.length + 2 + weight items
  | _ :: items => 1 + weight items

@[simp] theorem delivered_putBack (bytes : List β) (items : List (Item β)) :
    delivered (putBack bytes items) = bytes ++ delivered items := by
  cases bytes with
  | nil => rfl
  | cons b bytes => rfl

theorem weight_putBack_le (bytes : List β) (items : List (Item β)) :
    weight (putBack bytes items) ≤ bytes.length + 1 + weight items := by
  cases bytes with
  | nil => simp [putBack]
  | cons b bytes => simp [putBack, weight]

theorem weight_read_le (n : Nat) (items : List (Item β)) : weight (read n items).2 ≤ weight items := by
  cases items with
  | nil => simp [read]
  | cons item items =>
      cases item with
      | interrupted => simp [read, weight]
      | failed => simp [read, weight]
      | chunk b others =>
          have le := weight_putBack_le ((b :: others).drop n) items
          simp only [List.length_drop, List.length_cons] at le
          simp only [read, weight]
          omega

/-- What a read does to the bytes under way. -/
def Took (n : Nat) (items items' : List (Item β)) : Outcome β → Prop
  | .read bytes =>
      delivered items = bytes ++ delivered items' ∧ bytes.length ≤ n ∧
        (bytes ≠ [] → weight items' < weight items) ∧
        (bytes = [] → 0 < n → delivered items = [])
  | .interrupted => delivered items = delivered items' ∧ weight items' < weight items
  | .failed => delivered items = []

theorem took_read (n : Nat) (items : List (Item β)) :
    Took n items (read n items).2 (read n items).1 := by
  cases items with
  | nil => simp [read, Took, delivered]
  | cons item items =>
      cases item with
      | interrupted => simp [read, Took, delivered, weight]
      | failed => simp [read, Took, delivered]
      | chunk b others =>
          refine ⟨?_, List.length_take_le _ _, ?_, ?_⟩
          · simp only [read]
            rw [delivered_putBack, ← List.append_assoc, List.take_append_drop, delivered]
          · intro some_
            have positive : n ≠ 0 := by
              intro none_
              exact some_ (by simp [none_])
            have less := weight_putBack_le ((b :: others).drop n) items
            simp only [List.length_drop, List.length_cons] at less
            simp only [weight, read]
            omega
          · intro empty positive
            simp only [List.take_eq_nil_iff, reduceCtorEq, or_false] at empty
            omega

theorem took {n : Nat} {items items' : List (Item β)} {outcome : Outcome β}
    (called : read n items = (outcome, items')) : Took n items items' outcome := by
  have effect := took_read n items
  rwa [called] at effect

end RemoteControl.Pipe
