import Mathlib.Algebra.Ring.Int.Defs
import Mathlib.Algebra.Ring.Nat
import RemoteControl.Runs

/-! # The counters in the shared memory

The portable service and its client tell each other about a new frame or a new cursor by two
counters behind each other. The producer counts the first one up, the consumer sets the second one to
it when it sees that they differ.

A signal gets lost when the first counter comes around to the second one. `increase_counter` means to
step aside then, but it looks for the second counter in the place of the first.
-/

namespace RemoteControl.SharedCounters

open Runs (Always Along)

structure Counters where
  write : Int32
  read : Int32
  deriving DecidableEq

namespace Counters

/-- The answer, and the counters after the call. -/
def counterReady (c : Counters) : Bool × Counters :=
  if c.read ≠ c.write then (true, { c with read := c.write }) else (false, c)

def counterEqual (c : Counters) : Bool := c.write = c.read

def increaseCounter (c : Counters) : Counters :=
  let iw := c.write
  -- `ptr_to_i32(counter)` once more, not `rptr`
  let ir := c.write
  let iwPlus1 := if iw = Int32.maxValue then 0 else iw + 1
  let c := { c with write := iwPlus1 }
  if ir = iwPlus1 then { c with read := iw } else c

end Counters

/-- Where `k` steps up from `w` lead, with 0 behind the greatest number. -/
def place (w : Int) (k : Nat) : Int := if w + k < 0 then w + k else (w + k) % 2 ^ 31

/-- `k` steps up from `w` lead to `r`. -/
def Meets (w r : Int) (k : Nat) : Prop :=
  if r < 0 then w + k = r else 0 ≤ w + k ∧ (w + k - r) % 2 ^ 31 = 0

instance (w r : Int) (k : Nat) : Decidable (Meets w r k) := by
  unfold Meets
  infer_instance

theorem place_zero (w : Int32) : place w.toInt 0 = w.toInt := by
  have low := w.le_toInt
  have high := w.toInt_lt
  unfold place
  split <;> omega

theorem meets_iff {r : Int32} {w : Int} {k : Nat} : Meets w r.toInt k ↔ place w k = r.toInt := by
  have high := r.toInt_lt
  unfold Meets place
  split <;> split <;> omega

theorem toInt_succ (w : Int32) :
    (if w = Int32.maxValue then 0 else w + 1).toInt = if w.toInt = 2 ^ 31 - 1 then 0 else w.toInt + 1 := by
  have low := w.le_toInt
  have high := w.toInt_lt
  by_cases last : w = Int32.maxValue
  · rw [if_pos last, last]
    rfl
  · have below : w.toInt ≠ 2 ^ 31 - 1 := fun same => last (Int32.toInt_inj.mp same)
    rw [if_neg last, if_neg below, Int32.toInt_add, show (1 : Int32).toInt = 1 from rfl, Int.bmod_eq_of_le]
    · omega
    · omega

theorem place_succ {w : Int} {k : Nat} {now : Int32} (there : now.toInt = place w k) :
    (if now = Int32.maxValue then 0 else now + 1).toInt = place w (k + 1) := by
  rw [toInt_succ, there]
  unfold place
  split <;> split <;> split <;> omega

namespace Counters

/-- The write counter is never the number after itself, so `increase_counter` never steps aside. -/
theorem increaseCounter_eq (c : Counters) : c.increaseCounter =
    { c with write := if c.write = Int32.maxValue then 0 else c.write + 1 } := by
  have next := toInt_succ c.write
  unfold increaseCounter
  dsimp only
  refine if_neg fun same => ?_
  rw [← same] at next
  split at next <;> omega

theorem counterEqual_iff (c : Counters) : c.counterEqual = true ↔ c.write = c.read := decide_eq_true_iff

theorem read_counterReady (c : Counters) : c.counterReady.2 = { c with read := c.write } := by
  unfold counterReady
  split
  · rfl
  · next same => exact congrArg (fun read => ({ c with read := read } : Counters)) (not_not.mp same)

theorem answer_counterReady (c : Counters) : c.counterReady.1 = !c.counterEqual := by
  unfold counterReady counterEqual
  by_cases same : c.read = c.write
  · simp [same]
  · simp [same, Ne.symm same]

end Counters

inductive Call where
  | increase
  | ready
  deriving DecidableEq

/-- The counters and what a bystander notes of the calls. -/
structure Watch where
  counters : Counters
  /-- The counters after the last `counter_ready`, or at the beginning. -/
  base : Counters
  /-- How many increases there were since. -/
  increases : Nat := 0
  /-- There was a `counter_ready`. -/
  asked : Bool := false
  /-- A `counter_ready` did not see an increase. -/
  missed : Bool := false

namespace Watch

def start (write read : Int32) : Watch where
  counters := ⟨write, read⟩
  base := ⟨write, read⟩

def step (w : Watch) : Call → Watch
  | .increase => { w with counters := w.counters.increaseCounter, increases := w.increases + 1 }
  | .ready =>
      { counters := w.counters.counterReady.2
        base := w.counters.counterReady.2
        increases := 0
        asked := true
        missed := w.missed || (!w.counters.counterReady.1 && decide (0 < w.increases)) }

/-- No call has missed an increase, and after the first call the counters are equal exactly when
there is none to see. -/
structure Kept (w : Watch) : Prop where
  seen : w.missed = false
  equal : w.asked = true → (w.counters.counterEqual = true ↔ w.increases = 0)

/-- The increases since the last call do not lead the write counter to the read counter. Before the
first call they may on the way. -/
def Apart (w : Watch) : Call → Prop
  | .increase => w.asked = true → ¬Meets w.base.write.toInt w.base.read.toInt (w.increases + 1)
  | .ready => 0 < w.increases → ¬Meets w.base.write.toInt w.base.read.toInt w.increases

/-- The counters are where the increases have led. -/
structure Inv (w : Watch) : Prop where
  write : w.counters.write.toInt = place w.base.write.toInt w.increases
  read : w.counters.read = w.base.read
  base : w.asked = true → w.base.write = w.base.read

theorem Inv.start (write read : Int32) : Inv (start write read) where
  write := (place_zero write).symm
  read := rfl
  base := nofun

variable {w : Watch}

theorem Inv.step (inv : Inv w) (c : Call) : Inv (w.step c) := by
  cases c with
  | increase =>
      refine ⟨?_, ?_, inv.base⟩
      · show w.counters.increaseCounter.write.toInt = _
        rw [Counters.increaseCounter_eq]
        exact place_succ inv.write
      · show w.counters.increaseCounter.read = _
        rw [Counters.increaseCounter_eq]
        exact inv.read
  | ready =>
      refine ⟨(place_zero _).symm, rfl, fun _ => ?_⟩
      show w.counters.counterReady.2.write = w.counters.counterReady.2.read
      rw [Counters.read_counterReady]

theorem Inv.equal_iff (inv : Inv w) : w.counters.counterEqual = true ↔
    Meets w.base.write.toInt w.base.read.toInt w.increases := by
  rw [Counters.counterEqual_iff, meets_iff, ← inv.write, inv.read]
  exact Int32.toInt_inj.symm

theorem kept_start (write read : Int32) : Kept (start write read) := ⟨rfl, nofun⟩

theorem kept_step_iff (inv : Inv w) (kept : Kept w) (c : Call) :
    Kept (w.step c) ↔ w.Apart c := by
  cases c with
  | increase =>
      have equal := (inv.step .increase).equal_iff
      constructor
      · intro later asked meets
        exact absurd ((later.equal asked).mp (equal.mpr meets)) (Nat.succ_ne_zero _)
      · intro apart
        refine ⟨kept.seen, fun asked => iff_of_false (fun same => ?_) (Nat.succ_ne_zero _)⟩
        exact apart asked (equal.mp same)
  | ready =>
      have equal := (inv.step .ready).equal_iff
      have settled : (w.step .ready).counters.counterEqual = true :=
        equal.mpr (meets_iff.mpr ((inv.step .ready).write.symm.trans
          (congrArg Int32.toInt (((inv.step .ready).base rfl).trans (inv.step .ready).read.symm))))
      constructor
      · intro later some_ meets
        have missed := later.seen
        simp only [step, Counters.answer_counterReady, inv.equal_iff.mpr meets, some_] at missed
        simp at missed
      · intro apart
        refine ⟨?_, fun _ => iff_of_true settled rfl⟩
        show (w.missed || (!w.counters.counterReady.1 && decide (0 < w.increases))) = false
        rw [kept.seen, Bool.false_or, Counters.answer_counterReady, Bool.not_not]
        by_cases some_ : 0 < w.increases
        · have differ : w.counters.counterEqual = false :=
            Bool.eq_false_iff.mpr fun same => apart some_ (inv.equal_iff.mp same)
          rw [differ, Bool.false_and]
        · rw [decide_eq_false some_, Bool.and_false]

/-- No signal is lost exactly if the write counter never comes around to the read counter. -/
theorem signals_kept_iff (write read : Int32) (calls : List Call) :
    Always step Kept (start write read) calls ↔ Along step Apart (start write read) calls :=
  Runs.always_iff_along_of_inv (fun _ c inv => inv.step c)
    (fun _ c inv kept => kept_step_iff inv kept c) (Inv.start write read) (kept_start write read)

/-- The greatest number is followed by 0, where the read counter may be. -/
theorem signal_lost :
    ¬∀ (write read : Int32) (calls : List Call), Always step Kept (start write read) calls := by
  intro all
  have kept := (all Int32.maxValue 0 [.increase, .ready]).last
  exact absurd kept.seen (by decide)

end Watch

end RemoteControl.SharedCounters
