import Mathlib.Data.List.Basic

/-! # One order over two queues

Some elements are sent through a channel themselves. The others are put into a queue, and
a ticket is sent in place of each. Whoever reads the channel takes the next element off the
queue for every ticket: `merge` is what it gets. As long as a ticket is sent for every
element of the queue, that is the order in which the elements were put in.

When an element of the queue is overwritten by a new one, its ticket goes to the next
element. The order is kept if no direct element stands behind a ticket then.
-/

namespace RemoteControl.Tickets

variable {α : Type*}

inductive Item (α : Type*) where
  | ticket
  | direct (a : α)
  deriving DecidableEq

def tickets : List (Item α) → Nat
  | [] => 0
  | .ticket :: items => tickets items + 1
  | .direct _ :: items => tickets items

def directs : List (Item α) → List α
  | [] => []
  | .ticket :: items => directs items
  | .direct a :: items => a :: directs items

/-- What reading gets. A ticket for nothing gets nothing. -/
def merge : List (Item α) → List α → List α
  | [], _ => []
  | .ticket :: items, [] => merge items []
  | .ticket :: items, b :: queue => b :: merge items queue
  | .direct a :: items, queue => a :: merge items queue

/-- No direct element stands behind a ticket. -/
def directsFirst : List (Item α) → Bool
  | [] => true
  | .ticket :: items => (directs items).isEmpty
  | .direct _ :: items => directsFirst items

@[simp] theorem tickets_append (items items' : List (Item α)) :
    tickets (items ++ items') = tickets items + tickets items' := by
  induction items with
  | nil => simp [tickets]
  | cons item items ih => cases item <;> simp [tickets, ih, Nat.add_right_comm]

variable {items : List (Item α)} {queue : List α}

section

variable (exact_ : tickets items = queue.length)

include exact_

/-- What is sent last is read last. -/
theorem merge_append {items' : List (Item α)} {queue' : List α}
    :
    merge (items ++ items') (queue ++ queue') = merge items queue ++ merge items' queue' := by
  induction items generalizing queue with
  | nil =>
      obtain rfl : queue = [] := List.length_eq_zero_iff.mp exact_.symm
      rfl
  | cons item items ih =>
      cases item with
      | direct a => simp [merge, ih exact_]
      | ticket =>
          cases queue with
          | nil => simp [tickets] at exact_
          | cons b queue => simp [merge, ih (Nat.succ.inj exact_)]

theorem merge_append_direct (a : α) :
    merge (items ++ [.direct a]) queue = merge items queue ++ [a] := by
  have read : merge (items ++ [.direct a]) (queue ++ []) = _ := merge_append exact_
  rwa [List.append_nil] at read

theorem merge_append_ticket (b : α) :
    merge (items ++ [.ticket]) (queue ++ [b]) = merge items queue ++ [b] :=
  merge_append exact_

end

/-- Of the elements of one kind, if the queue has none, only the direct ones are read. -/
theorem filter_merge {p : α → Bool} (none_ : ∀ b ∈ queue, p b = false) :
    (merge items queue).filter p = (directs items).filter p := by
  induction items generalizing queue with
  | nil => rfl
  | cons item items ih =>
      cases item with
      | direct a => by_cases fits : p a = true <;> simp [merge, directs, fits, ih none_]
      | ticket =>
          cases queue with
          | nil => exact ih none_
          | cons b queue =>
              have later := ih fun b' member => none_ b' (List.mem_cons_of_mem b member)
              simp [merge, directs, none_ b, later]

theorem merge_of_no_directs (none_ : directs items = []) (exact_ : tickets items = queue.length) :
    merge items queue = queue := by
  induction items generalizing queue with
  | nil => exact (List.length_eq_zero_iff.mp exact_.symm).symm
  | cons item items ih =>
      cases item with
      | direct a => simp [directs] at none_
      | ticket =>
          cases queue with
          | nil => simp [tickets] at exact_
          | cons b queue => simp [merge, ih none_ (Nat.succ.inj exact_)]

/-- Overwriting the first element of the queue loses that one, and nothing else changes. -/
theorem merge_overwrite {b : α} (first : directsFirst items = true)
    (exact_ : tickets items = queue.length) (full : queue ≠ []) :
    (merge items (queue.tail ++ [b])).Sublist (merge items queue ++ [b]) := by
  induction items with
  | nil => exact absurd (List.length_eq_zero_iff.mp exact_.symm) full
  | cons item items ih =>
      cases item with
      | direct a => exact (ih first exact_).cons_cons a
      | ticket =>
          have none_ : directs (.ticket :: items) = [] := List.isEmpty_iff.mp first
          have length : tickets (.ticket :: items) = (queue.tail ++ [b]).length := by
            have := List.length_pos_iff.mpr full
            simp only [List.length_append, List.length_tail, List.length_singleton]
            omega
          rw [merge_of_no_directs none_ exact_, merge_of_no_directs none_ length]
          exact (List.tail_sublist queue).append_right [b]

end RemoteControl.Tickets
