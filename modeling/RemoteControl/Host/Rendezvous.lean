import RemoteControl.LittleEndian
import RemoteControl.Runs

/-! # Requests for a connection

The rendezvous server tells the host about a peer that wants to connect with `PunchHole`,
`FetchLocalAddr` or `RequestRelay`. Each message is handled in a task of its own, which
begins with a check for duplicates: the address of the message before and the time of it
are read from `LAST_MSG`, or from `LAST_RELAY_MSG`, then replaced by the own ones, and the
message is skipped if it has the address that was read and comes within 100 ms.

Reading and replacing are two sections under the lock, and only the last address is known.
So duplicates that are handled at the same time, or with another peer's request between
them, are both handled. What is modelled of each handler ends with the check.
-/

namespace RemoteControl.Rendezvous

open Runs (exec Always Along)

abbrev Bytes := List UInt8

inductive SocketAddr where
  | v4 (ip : Nat) (port : Nat)
  | v6 (ip : Bytes) (port : Nat)
  deriving DecidableEq

/-- `AddrMangle::decode`; the subtractions wrap around. -/
def addrMangleDecode (bytes : Bytes) : SocketAddr :=
  if 16 < bytes.length then
    if bytes.length ≠ 18 then .v6 (List.replicate 16 0) 0
    else .v6 (bytes.take 16) (ofLe (bytes.drop 16))
  else
    let number := ofLe bytes
    let tm := (number >>> 17) % 2 ^ 32
    .v4 (((number >>> 49) + 2 ^ 128 - tm) % 2 ^ 32) ((number % 2 ^ 24 + 2 ^ 128 - tm % 2 ^ 16) % 2 ^ 16)

inductive Message where
  | punchHole (socketAddr : Bytes)
  | fetchLocalAddr (socketAddr : Bytes)
  | requestRelay (socketAddr : Bytes)
  deriving DecidableEq

def Message.addr : Message → SocketAddr
  | .punchHole socketAddr | .fetchLocalAddr socketAddr | .requestRelay socketAddr =>
      addrMangleDecode socketAddr

/-- The variable in which a handler keeps the last message. -/
inductive Slot where
  | lastMsg
  | lastRelayMsg
  deriving DecidableEq

/-- `handle_punch_hole` and `handle_intranet` share theirs. -/
def Message.slot : Message → Slot
  | .punchHole _ => .lastMsg
  | .fetchLocalAddr _ => .lastMsg
  | .requestRelay _ => .lastRelayMsg

/-- In nanoseconds. -/
abbrev Instant := Nat

/-- `as_millis` of the time from one instant to another, which is never negative. -/
def millisSince (earlier later : Instant) : Nat := (later - earlier) / 1000000

/-- An address and when a message came from it. -/
abbrev Last := SocketAddr × Instant

/-- What the task of a message does next. -/
inductive Stage where
  | read
  /-- `Instant::now()` for the new value -/
  | stamp (last : Last)
  | write (last : Last) (now : Instant)
  | check (last : Last)
  | processed
  | skipped
  deriving DecidableEq

structure Task where
  message : Message
  /-- when the message came and the task was spawned -/
  arrival : Instant
  stage : Stage := .read
  deriving DecidableEq

structure State where
  now : Instant
  /-- The variables are set up when they are first used. -/
  slots : Slot → Option Last := fun _ => none
  tasks : List Task := []

/-- Any time may go by between two steps of the tasks. -/
inductive Event where
  | arrive (message : Message)
  | tick (nanos : Nat)
  | read (i : Nat)
  | stamp (i : Nat)
  | write (i : Nat)
  | check (i : Nat)

namespace State

def unspecified : SocketAddr := .v4 0 0

/-- The value of the variable. -/
def last (s : State) (slot : Slot) : Last := (s.slots slot).getD (unspecified, s.now)

def setSlot (s : State) (slot : Slot) (last : Last) : State :=
  { s with slots := fun other => if other = slot then some last else s.slots other }

/-- skip duplicate punch hole messages -/
def isDuplicate (last : Last) (addr : SocketAddr) (now : Instant) : Bool :=
  last.1 = addr && millisSince last.2 now < 100

/-- The next step of a task, if it is the one that is due. -/
def runTask (s : State) (i : Nat) (act : Task → Option (Stage × State)) : State :=
  match s.tasks[i]? with
  | some t =>
      match act t with
      | some (stage, s') => { s' with tasks := s.tasks.set i { t with stage } }
      | none => s
  | none => s

def step (s : State) : Event → State
  | .arrive message => { s with tasks := s.tasks ++ [{ message, arrival := s.now }] }
  | .tick nanos => { s with now := s.now + nanos }
  | .read i => s.runTask i fun t =>
      match t.stage with
      | .read => some (.stamp (s.last t.message.slot), s.setSlot t.message.slot (s.last t.message.slot))
      | _ => none
  | .stamp i => s.runTask i fun t =>
      match t.stage with
      | .stamp last => some (.write last s.now, s)
      | _ => none
  | .write i => s.runTask i fun t =>
      match t.stage with
      | .write last now => some (.check last, s.setSlot t.message.slot (t.message.addr, now))
      | _ => none
  | .check i => s.runTask i fun t =>
      match t.stage with
      | .check last => some (if isDuplicate last t.message.addr s.now then .skipped else .processed, s)
      | _ => none

end State

/-- Messages of one kind, with the same address, that came within 100 ms of one another. -/
def Task.Repeats (t t' : Task) : Prop :=
  t.message.slot = t'.message.slot ∧ t.message.addr = t'.message.addr ∧
    millisSince t.arrival t'.arrival < 100 ∧ millisSince t'.arrival t.arrival < 100

/-- Of messages that repeat one another at most one is processed. -/
def State.HandledOnce (s : State) : Prop :=
  ∀ (i j : Nat) (t t' : Task), s.tasks[i]? = some t → s.tasks[j]? = some t' → i ≠ j → t.Repeats t' →
    ¬ (t.stage = .processed ∧ t'.stage = .processed)

/-- The message was processed, or it will be, because it has read another address. -/
def Task.passes (t : Task) : Bool :=
  match t.stage with
  | .processed => true
  | .stamp last | .write last _ | .check last => last.1 ≠ t.message.addr
  | .read | .skipped => false

namespace State

/-- Another message that repeats this one passes the check. -/
def OtherPasses (s : State) (i : Nat) (t : Task) : Prop :=
  ∃ j, ∃ t' : Task, s.tasks[j]? = some t' ∧ j ≠ i ∧ t.Repeats t' ∧ t'.passes = true

/-- A message that repeats one which passes finds its own address when it reads, and is not
    late for its check. -/
def InOrder (s : State) : Event → Prop
  | .read i => ∀ t, s.tasks[i]? = some t → t.stage = .read → s.OtherPasses i t →
      (s.last t.message.slot).1 = t.message.addr
  | .check i => ∀ t last, s.tasks[i]? = some t → t.stage = .check last → last.1 = t.message.addr →
      s.OtherPasses i t → millisSince last.2 s.now < 100
  | _ => True

/-- Of messages that repeat one another at most one passes. -/
def PassesOnce (s : State) : Prop :=
  ∀ i t, s.tasks[i]? = some t → t.passes = true → ¬ s.OtherPasses i t

/-! ## Which messages pass -/

variable {s s' : State} {i j : Nat} {t t' : Task} {stage : Stage} {last : Last}

/-- A task that goes to its next stage passes only if no other one does. -/
theorem passesOnce_set_iff (once : PassesOnce s) (here : s.tasks[i]? = some t)
    (tasks : s'.tasks = s.tasks.set i { t with stage }) :
    PassesOnce s' ↔ (({ t with stage } : Task).passes = true → ¬ s.OtherPasses i t) := by
  have inside : i < s.tasks.length := (List.getElem?_eq_some_iff.mp here).1
  have self : s'.tasks[i]? = some { t with stage } := by
    rw [tasks, List.getElem?_set_self inside]
  have others {j : Nat} (other : j ≠ i) : s'.tasks[j]? = s.tasks[j]? := by
    rw [tasks, List.getElem?_set_ne other.symm]
  constructor
  · rintro after passes ⟨j, t', there, other, repeats, passes'⟩
    exact after i _ self passes ⟨j, t', (others other).trans there, other, repeats, passes'⟩
  · rintro alone j t₁ there passes ⟨j', t₂, there', other, repeats, passes'⟩
    by_cases same : j = i
    · subst same
      obtain rfl := Option.some.inj (self.symm.trans there)
      exact alone passes ⟨j', t₂, (others other).symm.trans there', other, repeats, passes'⟩
    · rw [others same] at there
      by_cases same' : j' = i
      · subst same'
        obtain rfl := Option.some.inj (self.symm.trans there')
        have back : t.Repeats t₁ := by
          obtain ⟨slot, addr, near, near'⟩ := repeats
          exact ⟨slot.symm, addr.symm, near', near⟩
        exact alone passes' ⟨j, t₁, there, same, back, passes⟩
      · exact once j t₁ there passes ⟨j', t₂, (others same').symm.trans there', other, repeats, passes'⟩

theorem step_stamp (here : s.tasks[i]? = some t) (due : t.stage = .stamp last) :
    (s.step (.stamp i)).tasks = s.tasks.set i { t with stage := .write last s.now } := by
  simp [step, runTask, here, due]

theorem step_write {now : Instant} (here : s.tasks[i]? = some t) (due : t.stage = .write last now) :
    (s.step (.write i)).tasks = s.tasks.set i { t with stage := .check last } := by
  simp [step, runTask, here, due]

section

variable (once : PassesOnce s)

include once

/-- A stage with the same outcome ahead changes nothing. -/
theorem passesOnce_set (here : s.tasks[i]? = some t) (tasks : s'.tasks = s.tasks.set i { t with stage })
    (same : ({ t with stage } : Task).passes = t.passes) : PassesOnce s' := by
  rw [passesOnce_set_iff once here tasks, same]
  exact once i t here

theorem passesOnce_arrive (message : Message) :
    PassesOnce (s.step (.arrive message)) := by
  have old {j : Nat} {t : Task} (there : (s.step (.arrive message)).tasks[j]? = some t)
      (passes : t.passes = true) : s.tasks[j]? = some t := by
    simp only [step, List.getElem?_append] at there
    split at there
    case isTrue => exact there
    case isFalse =>
      obtain rfl := List.mem_singleton.mp (List.mem_of_getElem? there)
      cases passes
  rintro i t here passes ⟨j, t', there, other, repeats, passes'⟩
  exact once i t (old here passes) passes ⟨j, t', old there passes', other, repeats, passes'⟩

theorem passesOnce_read_iff :
    PassesOnce (s.step (.read i)) ↔ InOrder s (.read i) := by
  cases here : s.tasks[i]? with
  | none => simp [step, runTask, InOrder, here, once]
  | some t =>
      cases due : t.stage with
      | read =>
          have tasks : (s.step (.read i)).tasks =
              s.tasks.set i { t with stage := .stamp (s.last t.message.slot) } := by
            simp [step, runTask, here, due]
          rw [passesOnce_set_iff once here tasks]
          simp only [InOrder, here, Option.some.injEq, Task.passes, decide_eq_true_eq]
          constructor
          · rintro alone t' rfl - other
            exact not_not.mp fun foreign => alone foreign other
          · intro inOrder foreign other
            exact foreign (inOrder t rfl due other)
      | _ => simp [step, runTask, InOrder, here, due, once]

theorem passesOnce_check_iff :
    PassesOnce (s.step (.check i)) ↔ InOrder s (.check i) := by
  cases here : s.tasks[i]? with
  | none => simp [step, runTask, InOrder, here, once]
  | some t =>
      cases due : t.stage with
      | check last =>
          have tasks : (s.step (.check i)).tasks = s.tasks.set i { t with
              stage := if isDuplicate last t.message.addr s.now then .skipped else .processed } := by
            simp [step, runTask, here, due]
          rw [passesOnce_set_iff once here tasks]
          have foreign (other : last.1 ≠ t.message.addr) : ¬ s.OtherPasses i t :=
            once i t here (by simp [Task.passes, due, other])
          constructor
          · intro alone t' last' here' due' own other
            obtain rfl := Option.some.inj (here.symm.trans here')
            obtain rfl := Stage.check.inj (due.symm.trans due')
            by_contra late
            refine alone ?_ other
            simp [isDuplicate, late, Task.passes]
          · intro inOrder passes other
            by_cases own : last.1 = t.message.addr
            · have soon := inOrder t last here due own other
              simp [isDuplicate, own, soon, Task.passes] at passes
            · exact foreign own other
      | _ =>
          have idle : s.step (.check i) = s := by simp [step, runTask, here, due]
          rw [idle]
          refine ⟨fun _ t' last here' due' => ?_, fun _ => once⟩
          obtain rfl := Option.some.inj (here.symm.trans here')
          cases due.symm.trans due'

/-- A message that repeats one which passes comes to pass itself exactly when it finds
    another address, or is late. -/
theorem passesOnce_step_iff (e : Event) :
    PassesOnce (s.step e) ↔ InOrder s e := by
  cases e with
  | arrive message => exact ⟨fun _ => trivial, fun _ => passesOnce_arrive once message⟩
  | tick nanos => exact ⟨fun _ => trivial, fun _ => once⟩
  | read i => exact passesOnce_read_iff once
  | stamp i =>
      refine ⟨fun _ => trivial, fun _ => ?_⟩
      cases here : s.tasks[i]? with
      | none => simpa [step, runTask, here] using once
      | some t =>
          cases due : t.stage with
          | stamp last =>
              exact passesOnce_set once here (step_stamp here due) (by simp [Task.passes, due])
          | _ => simpa [step, runTask, here, due] using once
  | write i =>
      refine ⟨fun _ => trivial, fun _ => ?_⟩
      cases here : s.tasks[i]? with
      | none => simpa [step, runTask, here] using once
      | some t =>
          cases due : t.stage with
          | write last now =>
              exact passesOnce_set once here (step_write here due) (by simp [Task.passes, due])
          | _ => simpa [step, runTask, here, due] using once
  | check i => exact passesOnce_check_iff once

theorem PassesOnce.handledOnce : HandledOnce s := by
  rintro i j t t' here there other repeats ⟨processed, processed'⟩
  refine once i t here (by simp [Task.passes, processed]) ⟨j, t', there, other.symm, repeats, ?_⟩
  simp [Task.passes, processed']

end

/-- The rest of what a task does. -/
def finish (i : Nat) : List Event := [.stamp i, .write i, .check i]

/-- Messages that are there stay, and those that pass still do. -/
def Stays (s s' : State) : Prop :=
  ∀ (i : Nat) (t : Task), s.tasks[i]? = some t → ∃ t' : Task, s'.tasks[i]? = some t' ∧
    t'.message = t.message ∧ t'.arrival = t.arrival ∧ (t.passes = true → t'.passes = true)

theorem Stays.refl : Stays s s := fun _ t here => ⟨t, here, rfl, rfl, id⟩

theorem runTask_stays {act : Task → Option (Stage × State)}
    (forward : ∀ (t : Task) stage s', act t = some (stage, s') → t.passes = true →
      ({ t with stage } : Task).passes = true) : Stays s (s.runTask i act) := by
  intro j t' there
  unfold runTask
  split
  · rename_i t here
    split
    · rename_i stage s' acts
      by_cases same : j = i
      · subst same
        obtain rfl := Option.some.inj (here.symm.trans there)
        have inside : j < s.tasks.length := (List.getElem?_eq_some_iff.mp here).1
        exact ⟨_, List.getElem?_set_self inside, rfl, rfl, forward t stage s' acts⟩
      · exact ⟨t', (List.getElem?_set_ne (Ne.symm same)).trans there, rfl, rfl, id⟩
    · exact ⟨t', there, rfl, rfl, id⟩
  · exact ⟨t', there, rfl, rfl, id⟩

theorem step_stays (s : State) (e : Event) : Stays s (s.step e) := by
  cases e with
  | arrive message =>
      intro i t here
      have inside : i < s.tasks.length := (List.getElem?_eq_some_iff.mp here).1
      exact ⟨t, by simp [step, List.getElem?_append_left inside, here], rfl, rfl, id⟩
  | tick nanos => exact .refl
  | read i =>
      apply runTask_stays
      intro t stage s' acts passes
      cases due : t.stage <;> simp [due, Task.passes] at acts passes
  | stamp i =>
      apply runTask_stays
      intro t stage s' acts passes
      cases due : t.stage with
      | stamp last =>
          simp only [due, Option.some.injEq, Prod.mk.injEq] at acts
          simpa [← acts.1, due, Task.passes] using passes
      | _ => simp [due] at acts
  | write i =>
      apply runTask_stays
      intro t stage s' acts passes
      cases due : t.stage with
      | write last now =>
          simp only [due, Option.some.injEq, Prod.mk.injEq] at acts
          simpa [← acts.1, due, Task.passes] using passes
      | _ => simp [due] at acts
  | check i =>
      apply runTask_stays
      intro t stage s' acts passes
      cases due : t.stage with
      | check last =>
          have foreign : last.1 ≠ t.message.addr := by simpa [due, Task.passes] using passes
          simp only [due, Option.some.injEq, Prod.mk.injEq] at acts
          simp [← acts.1, isDuplicate, foreign, Task.passes]
      | _ => simp [due] at acts

/-- Two messages that pass do so for good. -/
theorem passesOnce_before (s : State) (e : Event) (once : PassesOnce (s.step e)) : PassesOnce s := by
  rintro i t here passes ⟨j, t', there, other, ⟨slot, addr, near, near'⟩, passes'⟩
  obtain ⟨u, at_, message, arrival, still⟩ := step_stays s e i t here
  obtain ⟨u', at_', message', arrival', still'⟩ := step_stays s e j t' there
  refine once i u at_ (still passes) ⟨j, u', at_', other, ?_, still' passes'⟩
  simp only [Task.Repeats, message, arrival, message', arrival']
  exact ⟨slot, addr, near, near'⟩

theorem step_check (here : s.tasks[i]? = some t) (due : t.stage = .check last)
    (foreign : last.1 ≠ t.message.addr) :
    (s.step (.check i)).tasks = s.tasks.set i { t with stage := .processed } := by
  simp [step, runTask, here, due, isDuplicate, foreign]

/-- A message that passes gets through its check, whatever the time. -/
theorem exec_finish (here : s.tasks[i]? = some t) (passes : t.passes = true) :
    (exec step s (finish i)).tasks = s.tasks.set i { t with stage := .processed } := by
  have inside : i < s.tasks.length := (List.getElem?_eq_some_iff.mp here).1
  cases due : t.stage with
  | processed =>
      have done : exec step s (finish i) = s := by simp [finish, step, runTask, here, due]
      have same : s.tasks[i] = { t with stage := .processed } := by
        rw [(List.getElem?_eq_some_iff.mp here).2, ← due]
      rw [done, ← same, List.set_getElem_self]
  | check last =>
      have foreign : last.1 ≠ t.message.addr := by simpa [due, Task.passes] using passes
      have idle : s.step (.stamp i) = s := by simp [step, runTask, here, due]
      have idle' : s.step (.write i) = s := by simp [step, runTask, here, due]
      simp only [finish, Runs.exec_cons, Runs.exec_nil, idle, idle']
      exact step_check here due foreign
  | write last now =>
      have foreign : last.1 ≠ t.message.addr := by simpa [due, Task.passes] using passes
      have idle : s.step (.stamp i) = s := by simp [step, runTask, here, due]
      have wrote := step_write here due
      have next : (s.step (.write i)).tasks[i]? = some { t with stage := .check last } := by
        rw [wrote, List.getElem?_set_self inside]
      simp only [finish, Runs.exec_cons, Runs.exec_nil, idle]
      rw [step_check next rfl foreign, wrote, List.set_set]
  | stamp last =>
      have foreign : last.1 ≠ t.message.addr := by simpa [due, Task.passes] using passes
      have stamped := step_stamp here due
      have next : (s.step (.stamp i)).tasks[i]? = some { t with stage := .write last s.now } := by
        rw [stamped, List.getElem?_set_self inside]
      have wrote := step_write next rfl
      have last_ :
          ((s.step (.stamp i)).step (.write i)).tasks[i]? =
          some { t with stage := .check last } := by
        rw [wrote, List.getElem?_set_self (by rw [stamped]; simpa using inside)]
      simp only [finish, Runs.exec_cons, Runs.exec_nil]
      rw [step_check last_ rfl foreign, wrote, stamped, List.set_set, List.set_set]
  | _ => simp [due, Task.passes] at passes

/-- Once two messages that repeat one another pass, both are processed when their tasks go on. -/
theorem not_handledOnce_finish (twice : ¬ PassesOnce s) :
    ∃ rest, ¬ HandledOnce (exec step s rest) := by
  simp only [PassesOnce, not_forall, not_not] at twice
  obtain ⟨i, t, here, passes, j, t', there, other, repeats, passes'⟩ := twice
  have inside : i < s.tasks.length := (List.getElem?_eq_some_iff.mp here).1
  have inside' : j < s.tasks.length := (List.getElem?_eq_some_iff.mp there).1
  have first := exec_finish here passes
  have there' : (exec step s (finish i)).tasks[j]? = some t' := by
    rwa [first, List.getElem?_set_ne other.symm]
  have both := exec_finish there' passes'
  rw [first] at both
  refine ⟨finish i ++ finish j, fun once => ?_⟩
  rw [Runs.exec_append] at once
  refine once i j { t with stage := .processed } { t' with stage := .processed } ?_ ?_ other.symm repeats
    ⟨rfl, rfl⟩
  · rw [both, List.getElem?_set_ne other, List.getElem?_set_self inside]
  · rw [both, List.getElem?_set_self (by simpa using inside')]

/-- In a run in order no message is processed that repeats one which was. A run that is not
    goes on, if the tasks do, to where such a message has been processed. -/
theorem duplicates_handled_once (now : Instant) (events : List Event) :
    (Along step InOrder { now } events → Always step HandledOnce { now } events) ∧
      (¬ Along step InOrder { now } events →
        ∃ rest, ¬ Always step HandledOnce { now } (events ++ rest)) := by
  have iff : Always step PassesOnce { now } events ↔ Along step InOrder { now } events := by
    apply Runs.always_iff_along
    · intro s e once
      exact passesOnce_step_iff once e
    · intro i t here
      simp at here
  constructor
  · intro along
    exact (iff.mpr along).mono fun s once => once.handledOnce
  · intro disorder
    rw [← iff, Runs.always_iff_last passesOnce_before] at disorder
    obtain ⟨rest, twice⟩ := not_handledOnce_finish disorder
    refine ⟨rest, fun always => twice ?_⟩
    rw [← Runs.exec_append]
    exact always.last

/-- Two requests from one peer, whose tasks both read before either writes. -/
theorem duplicate_handled_twice :
    ¬ Always step HandledOnce { now := 0 }
      [.arrive (.punchHole [1]), .arrive (.punchHole [1]), .read 0, .read 1, .stamp 0, .stamp 1,
        .write 0, .write 1, .check 0, .check 1] := by
  intro always
  refine always.last 0 1 ⟨.punchHole [1], 0, .processed⟩ ⟨.punchHole [1], 0, .processed⟩
    (by decide +kernel) (by decide +kernel) (by decide) ?_ ⟨rfl, rfl⟩
  exact ⟨rfl, rfl, by decide, by decide⟩

end State

end RemoteControl.Rendezvous
