import Mathlib.Data.Finset.Basic
import RemoteControl.Runs

/-! # The whiteboard of the controlled machine

`CONNS` holds the connections that use the whiteboard, `TX_WHITEBOARD` the sender to the
loop that drives its helper process. Both are changed in separate sections under separate
locks: a registration spawns the thread that starts the loop and then inserts its key, and
a removal decides under the lock of `CONNS` that it was the last one and leaves it to
a spawned thread to end the loop.

A last leave and a new join therefore meet in any order. `InTime` says which orders are
harmless.
-/

namespace RemoteControl.Whiteboard

open Runs (exec Always Along)

/-- The events that these functions send. The drawing ones are left out. -/
inductive CustomEvent where
  | clear
  | exit
  deriving DecidableEq

structure State where
  /-- The keys of `CONNS` -/
  conns : Finset String := ∅
  /-- `TX_WHITEBOARD`: a sender is known by the number of its loop. -/
  txWhiteboard : Option Nat := none
  /-- How many loops were started so far. -/
  started : Nat := 0
  /-- The loops whose `_call_on_ret` has not run. -/
  loops : List Nat := []
  /-- What was sent so far, and to which loop. -/
  sent : List (Nat × String × CustomEvent) := []
  /-- The calls of `register_whiteboard` that have not inserted their key. -/
  registering : List String := []
  /-- The calls of `unregister_whiteboard` after their first section, with `is_conns_empty`. -/
  unregistering : List (String × Bool) := []
  /-- The threads that have not come to the section of `start_whiteboard_`. -/
  starting : Nat := 0
  /-- The exit threads that have not come to their section. -/
  exiting : Nat := 0

/-- The sections in the order in which the threads get their lock. -/
inductive Event where
  /-- `register_whiteboard` is called and spawns the thread of `start_whiteboard_`. -/
  | register (k : String)
  | insertConn (k : String)
  /-- The first section of `unregister_whiteboard`. -/
  | unregister (k : String)
  /-- The second one. The exit thread is spawned after it. -/
  | clear (k : String) (isConnsEmpty : Bool)
  | startWhiteboard
  | exitThread
  /-- `_call_on_ret` of a loop that has ended. -/
  | callOnReturn (loop : Nat)

namespace State

/-- The loop was told to exit. -/
def Told (s : State) (loop : Nat) : Prop := ∃ m ∈ s.sent, m.1 = loop ∧ m.2.2 = .exit

/-- `start_whiteboard_` up to `drop(tx_whiteboard)`, with a helper process that starts. -/
def startWhiteboard (s : State) : State :=
  match s.txWhiteboard with
  | some _ => s
  | none =>
      { s with
        txWhiteboard := some s.started
        started := s.started + 1
        loops := s.started :: s.loops }

/-- `tx.send((k, event))`, when there is a sender. -/
def send (k : String) (event : CustomEvent) (s : State) : State :=
  match s.txWhiteboard with
  | some loop => { s with sent := (loop, k, event) :: s.sent }
  | none => s

/-- A loop ends when it comes to `Exit`, or when its sender was dropped. Either way its
    sender was taken out by then. -/
def Ended (s : State) (loop : Nat) : Prop := loop ∈ s.loops ∧ s.txWhiteboard ≠ some loop

instance (s : State) (loop : Nat) : Decidable (Ended s loop) := inferInstanceAs (Decidable (_ ∧ _))

def step (s : State) : Event → State
  | .register k => { s with starting := s.starting + 1, registering := k :: s.registering }
  | .insertConn k =>
      if k ∈ s.registering then
        { s with conns := insert k s.conns, registering := s.registering.erase k }
      else s
  | .unregister k =>
      let conns := s.conns.erase k
      { s with conns, unregistering := (k, decide (conns = ∅)) :: s.unregistering }
  | .clear k isConnsEmpty =>
      if (k, isConnsEmpty) ∈ s.unregistering then
        let s := send k .clear s
        { s with
          unregistering := s.unregistering.erase (k, isConnsEmpty)
          exiting := if isConnsEmpty then s.exiting + 1 else s.exiting }
      else s
  | .startWhiteboard =>
      if s.starting = 0 then s else { startWhiteboard s with starting := s.starting - 1 }
  | .exitThread =>
      if s.exiting = 0 then s
      else { send "" .exit s with exiting := s.exiting - 1, txWhiteboard := none }
  | .callOnReturn loop =>
      -- whichever sender is there
      if Ended s loop then { s with loops := s.loops.erase loop, txWhiteboard := none } else s

/-- No call is in progress, and the spawned threads have done their part. -/
def Settled (s : State) : Prop :=
  s.registering = [] ∧ s.unregistering = [] ∧ s.starting = 0 ∧ s.exiting = 0

/-- The whiteboard runs if and only if somebody uses it. -/
def RunsInUse (s : State) : Prop :=
  s.conns.Nonempty ↔ ∃ loop ∈ s.txWhiteboard, ¬ Told s loop

/-- A connection uses the whiteboard or is about to. -/
def InUse (s : State) : Prop := s.conns.Nonempty ∨ s.registering ≠ []

/-- An exit thread is there or about to be spawned. -/
def Closing (s : State) : Prop := 0 < s.exiting ∨ ∃ call ∈ s.unregistering, call.2 = true

/-- A thread that takes out the sender finds the whiteboard unused, or a thread that starts
    it again is still to come. A thread that starts it finds it in use, or an exit thread
    is still to come. -/
def InTime (s : State) : Event → Prop
  | .startWhiteboard => 0 < s.starting → s.txWhiteboard = none → ¬ InUse s → Closing s
  | .exitThread => 0 < s.exiting → s.txWhiteboard.isSome → InUse s → 0 < s.starting
  | .callOnReturn loop => Ended s loop → s.txWhiteboard.isSome → InUse s → 0 < s.starting
  | _ => True

instance : DecidablePred InUse := fun s =>
  inferInstanceAs (Decidable (s.conns.Nonempty ∨ s.registering ≠ []))

instance : DecidablePred Closing := fun s =>
  inferInstanceAs (Decidable (0 < s.exiting ∨ ∃ call ∈ s.unregistering, call.2 = true))

instance : DecidablePred Settled := fun _ => inferInstanceAs (Decidable (_ ∧ _))

instance (s : State) (loop : Nat) : Decidable (Told s loop) :=
  inferInstanceAs (Decidable (∃ m ∈ s.sent, m.1 = loop ∧ m.2.2 = .exit))

instance : DecidablePred RunsInUse := fun s =>
  inferInstanceAs (Decidable (s.conns.Nonempty ↔ ∃ loop ∈ s.txWhiteboard, ¬ Told s loop))

instance (s : State) : (e : Event) → Decidable (InTime s e)
  | .startWhiteboard => inferInstanceAs (Decidable (_ → _))
  | .exitThread => inferInstanceAs (Decidable (_ → _))
  | .callOnReturn _ => inferInstanceAs (Decidable (_ → _))
  | .register _ | .insertConn _ | .unregister _ | .clear .. => inferInstanceAs (Decidable True)

/-! ## What each section keeps -/

variable {s : State} {k : String} {event : CustomEvent} {loop : Nat}

@[simp] theorem send_conns : (send k event s).conns = s.conns := by
  unfold send; split <;> rfl

@[simp] theorem send_txWhiteboard : (send k event s).txWhiteboard = s.txWhiteboard := by
  unfold send; split <;> rfl

@[simp] theorem send_started : (send k event s).started = s.started := by
  unfold send; split <;> rfl

@[simp] theorem send_registering : (send k event s).registering = s.registering := by
  unfold send; split <;> rfl

@[simp] theorem send_unregistering : (send k event s).unregistering = s.unregistering := by
  unfold send; split <;> rfl

@[simp] theorem send_starting : (send k event s).starting = s.starting := by
  unfold send; split <;> rfl

@[simp] theorem send_exiting : (send k event s).exiting = s.exiting := by
  unfold send; split <;> rfl

theorem told_send : Told (send k event s) loop ↔
    Told s loop ∨ event = .exit ∧ s.txWhiteboard = some loop := by
  cases current : s.txWhiteboard with
  | none => simp [send, current]
  | some loop' =>
      simp only [send, current, Told, List.exists_mem_cons_iff, Option.some.injEq]
      exact or_comm.trans (or_congr_right and_comm)

/-- What holds in every run whose threads come in time. -/
structure Inv (s : State) : Prop where
  told : ∀ loop, Told s loop → loop < s.started
  fresh : ∀ loop ∈ s.txWhiteboard, loop < s.started ∧ ¬ Told s loop
  served : InUse s → s.txWhiteboard.isSome ∨ 0 < s.starting
  closing : ¬ InUse s → s.txWhiteboard.isSome → Closing s

theorem inv_start : Inv {} where
  told loop told := by simp [Told] at told
  fresh loop holds := by simp at holds
  served inUse := by simp [InUse] at inUse
  closing _ some_ := by simp at some_

section

variable (inv : Inv s)

include inv

/-- Once the threads are done, the invariant says just what is wanted. -/
theorem Inv.runsInUse (settled : Settled s) : RunsInUse s := by
  obtain ⟨registered, unregistered, started, exited⟩ := settled
  have inUse : InUse s ↔ s.conns.Nonempty := by simp [InUse, registered]
  have idle : ¬ Closing s := by simp [Closing, exited, unregistered]
  constructor
  · intro used
    rcases inv.served (inUse.mpr used) with some_ | pending
    · obtain ⟨loop, current⟩ := Option.isSome_iff_exists.mp some_
      exact ⟨loop, current, (inv.fresh loop current).2⟩
    · omega
  · rintro ⟨loop, current, -⟩
    by_contra unused
    exact idle (inv.closing (fun used => unused (inUse.mp used)) (Option.isSome_of_mem current))

theorem register_inv : Inv (s.step (.register k)) where
  told := inv.told
  fresh := inv.fresh
  served _ := .inr (Nat.succ_pos s.starting)
  closing unused := by simp [InUse, step] at unused

theorem insertConn_inv : Inv (s.step (.insertConn k)) := by
  simp only [step]
  split
  case isFalse => exact inv
  case isTrue member =>
    have inUse : InUse s := .inr (List.ne_nil_of_mem member)
    constructor
    · exact inv.told
    · exact inv.fresh
    · intro _
      exact inv.served inUse
    · intro unused
      exact (unused (.inl (Finset.insert_nonempty k s.conns))).elim

theorem unregister_inv : Inv (s.step (.unregister k)) where
  told := inv.told
  fresh := inv.fresh
  served := by
    rintro (left | registering)
    · exact inv.served (.inl (left.mono (Finset.erase_subset k s.conns)))
    · exact inv.served (.inr registering)
  closing unused _ := by
    refine .inr ⟨(k, decide (s.conns.erase k = ∅)), List.mem_cons_self, ?_⟩
    simpa [InUse, step] using (not_or.mp unused).1

theorem clear_inv {isConnsEmpty : Bool} : Inv (s.step (.clear k isConnsEmpty)) := by
  simp only [step]
  split
  case isFalse => exact inv
  case isTrue member =>
    have told (loop : Nat) : Told (send k .clear s) loop → Told s loop := by
      simp [told_send]
    constructor
    · intro loop holds
      simpa using inv.told loop (told loop holds)
    · intro loop current
      obtain ⟨old, untold⟩ := inv.fresh loop (by simpa using current)
      exact ⟨by simpa using old, fun holds => untold (told loop holds)⟩
    · simpa [InUse] using inv.served
    · intro unused some_
      have before : Closing s := inv.closing (by simpa [InUse] using unused) (by simpa using some_)
      -- the call that found `CONNS` empty becomes an exit thread
      rcases before with pending | ⟨call, member', empty⟩
      · left
        simp only [send_exiting]
        split <;> omega
      · by_cases same : call = (k, isConnsEmpty)
        · subst same
          left
          simp only at empty
          simp [empty]
        · right
          exact ⟨call, by simpa using (List.mem_erase_of_ne same).mpr member', empty⟩

theorem startWhiteboard_inv (inTime : InTime s .startWhiteboard) :
    Inv (s.step .startWhiteboard) := by
  simp only [step]
  split
  case isTrue => exact inv
  case isFalse pending =>
    cases current : s.txWhiteboard with
    | some loop =>
        have same : startWhiteboard s = s := by simp [startWhiteboard, current]
        rw [same]
        constructor
        · exact inv.told
        · exact inv.fresh
        · intro _
          exact .inl (Option.isSome_of_mem current)
        · exact inv.closing
    | none =>
        simp only [startWhiteboard, current]
        constructor
        · intro loop told
          exact Nat.lt_succ_of_lt (inv.told loop told)
        · intro loop same
          obtain rfl := Option.some.inj same
          exact ⟨Nat.lt_succ_self _, fun told => Nat.lt_irrefl _ (inv.told _ told)⟩
        · intro _
          exact .inl rfl
        · intro unused _
          exact inTime (Nat.pos_of_ne_zero pending) current unused

/-- A section that takes out the sender. -/
theorem Inv.take {after : State} (none_ : after.txWhiteboard = none)
    (started : after.started = s.started) (starting : after.starting = s.starting)
    (inUse : InUse after ↔ InUse s) (told : ∀ loop, Told after loop → loop < s.started)
    (inTime : s.txWhiteboard.isSome → InUse s → 0 < s.starting) : Inv after where
  told loop holds := started ▸ told loop holds
  fresh loop current := by simp [none_] at current
  served used := by
    have before := inUse.mp used
    refine .inr (starting ▸ ?_)
    rcases inv.served before with some_ | pending
    · exact inTime some_ before
    · exact pending
  closing _ some_ := by simp [none_] at some_

theorem exitThread_inv (inTime : InTime s .exitThread) : Inv (s.step .exitThread) := by
  simp only [step]
  split
  case isTrue => exact inv
  case isFalse pending =>
    refine inv.take rfl send_started send_starting (by simp [InUse]) ?_
      (inTime (Nat.pos_of_ne_zero pending))
    intro loop holds
    rcases told_send.mp holds with before | ⟨-, current⟩
    · exact inv.told loop before
    · exact (inv.fresh loop current).1

theorem callOnReturn_inv (inTime : InTime s (.callOnReturn loop)) :
    Inv (s.step (.callOnReturn loop)) := by
  simp only [step]
  split
  case isFalse => exact inv
  case isTrue ended => exact inv.take rfl rfl rfl .rfl inv.told (inTime ended)

end

theorem Inv.step (s : State) (e : Event) (inv : Inv s) (inTime : InTime s e) : Inv (s.step e) := by
  cases e with
  | register k => exact register_inv inv
  | insertConn k => exact insertConn_inv inv
  | unregister k => exact unregister_inv inv
  | clear k isConnsEmpty => exact clear_inv inv
  | startWhiteboard => exact startWhiteboard_inv inv inTime
  | exitThread => exact exitThread_inv inv inTime
  | callOnReturn loop => exact callOnReturn_inv inv inTime

/-- When the threads come in time, the whiteboard runs if and only if somebody uses it,
    whenever no call is in progress and the spawned threads are done. -/
theorem whiteboard_runs_in_use (events : List Event) (inTime : Along step InTime {} events) :
    Always step (fun s => Settled s → RunsInUse s) {} events :=
  (Runs.always_of_along Inv.step inv_start inTime).mono fun _ inv settled => inv.runsInUse settled

theorem whiteboard_runs_in_use_two :
    Always step (fun s => Settled s → RunsInUse s) {}
      [.register "1-cursor", .insertConn "1-cursor", .startWhiteboard, .register "2-cursor",
        .unregister "1-cursor", .clear "1-cursor" true, .exitThread, .insertConn "2-cursor",
        .callOnReturn 0, .startWhiteboard] :=
  whiteboard_runs_in_use _ (by decide +kernel)

/-- The thread of a new registration finds the old sender, and the exit thread of the last
    leave comes after it. -/
theorem used_without_whiteboard :
    ¬ ∀ events, Always step (fun s => Settled s → RunsInUse s) {} events := by
  intro always
  have broken := (always [.register "1-cursor", .insertConn "1-cursor", .startWhiteboard,
    .unregister "1-cursor", .clear "1-cursor" true, .register "2-cursor", .insertConn "2-cursor",
    .startWhiteboard, .exitThread, .callOnReturn 0]).last
  revert broken
  decide +kernel

end State

end RemoteControl.Whiteboard
