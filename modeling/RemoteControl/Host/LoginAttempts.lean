import RemoteControl.Host.LoginFailures

/-! # Concurrent login attempts

Any number of connections, from any addresses, share the two failure tables.
Each connection handles one attempt at a time: `check_failure`, then the
verification of the password or code, then at most one `update_failure`. The
steps of different connections interleave freely; each table access is one step.

`failed` is not part of the program. It counts the failed attempts of an address
since its entry was last removed, which is what the counter is for.
-/

namespace RemoteControl.Host.LoginAttempts

open Runs LoginFailures

/-- An attempt that has passed `check_failure` and not yet finished. -/
structure Pending where
  kind : Fin 2
  failure : Failure
  time : Int
  deriving DecidableEq, Repr

structure State where
  loginFailures : Fin 2 → Failures
  pending : Nat → Option Pending
  failed : Fin 2 → IpAddr → Nat

def State.init : State where
  loginFailures := fun _ _ => none
  pending := fun _ => none
  failed := fun _ _ => 0

inductive Event where
  /-- Connection `conn` runs `check_failure(kind)` at minute `time`. -/
  | check (conn : Nat) (kind : Fin 2) (time : Int)
  /-- Connection `conn` has verified its secret and runs `update_failure`. -/
  | update (conn : Nat) (success : Bool)
  /-- A 2FA attempt ends without an update: no code is required any more, or the
      TOTP check itself fails. -/
  | abandon (conn : Nat)
  deriving DecidableEq, Repr

def State.finish (s : State) (conn : Nat) : State :=
  { s with pending := Function.update s.pending conn none }

def State.setFailures (s : State) (kind : Fin 2) (m : Failures) : State :=
  { s with loginFailures := Function.update s.loginFailures kind m }

def State.setFailed (s : State) (kind : Fin 2) (ip : IpAddr) (n : Nat) : State :=
  { s with failed := Function.update s.failed kind (Function.update (s.failed kind) ip n) }

/-- One step of one connection; `addr` is the peer address of each connection. -/
def step (addr : Nat → IpAddr) (s : State) : Event → State
  | .check conn kind time =>
      match s.pending conn with
      | some _ => s
      | none =>
          match checkFailure (s.loginFailures kind) (addr conn) time with
          | (failure, .proceed) =>
              { s with pending := Function.update s.pending conn (some ⟨kind, failure, time⟩) }
          | (_, .refuse _ _) => s
  | .update conn success =>
      match s.pending conn with
      | none => s
      | some p =>
          let written := s.setFailures p.kind
            (updateFailure (s.loginFailures p.kind) (addr conn) p.failure p.time success)
          let counted :=
            if success then
              if p.failure.minute ≠ 0 then written.setFailed p.kind (addr conn) 0 else written
            else written.setFailed p.kind (addr conn) (s.failed p.kind (addr conn) + 1)
          counted.finish conn
  | .abandon conn => s.finish conn

/-- No failed login is forgotten: the counter of every address is the number of
    its failed attempts, and above thirty of them nothing new gets past
    `check_failure`. -/
structure NoneForgotten (s : State) : Prop where
  counted : ∀ kind ip, (s.loginFailures kind).totalOf ip = s.failed kind ip
  closed : ∀ kind ip time, 30 < s.failed kind ip →
    (checkFailure (s.loginFailures kind) ip time).2 ≠ .proceed

/-- A failed attempt may only be written back while the total it read in
    `check_failure` is still the total in the table. -/
def WritesCurrent (addr : Nat → IpAddr) (s : State) : Event → Prop
  | .update conn false => ∀ p, s.pending conn = some p →
      p.failure.total = (s.loginFailures p.kind).totalOf (addr conn)
  | _ => True

variable {s : State}

theorem noneForgotten_of_counted
    (counted : ∀ kind ip, (s.loginFailures kind).totalOf ip = s.failed kind ip) :
    NoneForgotten s where
  counted := counted
  closed := by
    intro kind ip time many
    apply checkFailure_refuses
    rw [counted kind ip]
    exact_mod_cast many

theorem init_noneForgotten : NoneForgotten State.init :=
  noneForgotten_of_counted (fun _ _ => rfl)

/-- The counters after a failed update: the written address takes the total that
    was read plus one. -/
theorem counted_failed_iff {addr : Nat → IpAddr} {conn : Nat} {p : Pending}
    (pending : s.pending conn = some p) (before : NoneForgotten s) :
    NoneForgotten (step addr s (.update conn false)) ↔
      p.failure.total = (s.loginFailures p.kind).totalOf (addr conn) := by
  have current := before.counted p.kind (addr conn)
  constructor
  · intro after
    have written := after.counted p.kind (addr conn)
    simp only [step, pending, Bool.false_eq_true, if_false, State.finish, State.setFailures,
      State.setFailed, Function.update_self, totalOf_update_failed, if_true] at written
    omega
  · intro read
    apply noneForgotten_of_counted
    intro kind ip
    simp only [step, pending, Bool.false_eq_true, if_false, State.finish, State.setFailures,
      State.setFailed]
    by_cases sameKind : kind = p.kind
    · subst sameKind
      simp only [Function.update_self, totalOf_update_failed]
      by_cases sameIp : ip = addr conn
      · subst sameIp
        simp only [if_true, Function.update_self]
        omega
      · simp only [sameIp, if_false, ne_eq, not_false_eq_true, Function.update_of_ne]
        exact before.counted _ ip
    · simp only [ne_eq, sameKind, not_false_eq_true, Function.update_of_ne]
      exact before.counted kind ip

theorem counted_succeeded {addr : Nat → IpAddr} {conn : Nat} {p : Pending}
    (pending : s.pending conn = some p) (before : NoneForgotten s) :
    NoneForgotten (step addr s (.update conn true)) := by
  apply noneForgotten_of_counted
  intro kind ip
  have unchanged := before.counted kind ip
  simp only [step, pending, if_true]
  by_cases seen : p.failure.minute = 0 <;> by_cases sameKind : kind = p.kind <;>
    by_cases sameIp : ip = addr conn <;>
    simp_all [State.finish, State.setFailures, State.setFailed, totalOf_update_succeeded]

theorem noneForgotten_step_iff (addr : Nat → IpAddr) (s : State) (e : Event)
    (before : NoneForgotten s) : NoneForgotten (step addr s e) ↔ WritesCurrent addr s e := by
  cases e with
  | check conn kind time =>
      refine iff_of_true ?_ trivial
      apply noneForgotten_of_counted
      simp only [step]
      split
      · exact before.counted
      · split <;> exact before.counted
  | abandon conn => exact iff_of_true (noneForgotten_of_counted before.counted) trivial
  | update conn success =>
      cases pending : s.pending conn with
      | none =>
          have unchanged : step addr s (.update conn success) = s := by simp only [step, pending]
          rw [unchanged]
          refine iff_of_true before ?_
          cases success <;> simp [WritesCurrent, pending]
      | some p =>
          cases success with
          | true => exact iff_of_true (counted_succeeded pending before) trivial
          | false =>
              rw [counted_failed_iff pending before]
              simp [WritesCurrent, pending]

/-- Over every interleaving, no failed login is ever forgotten exactly when every
    failed attempt is written back from the total that is still in the table. -/
theorem failures_never_forgotten_iff (addr : Nat → IpAddr) (events : List Event) :
    Always (step addr) NoneForgotten State.init events ↔
      Along (step addr) (WritesCurrent addr) State.init events :=
  always_iff_along (noneForgotten_step_iff addr) init_noneForgotten

/-- Two connections of one address both read an empty entry and both fail: the
    second write repeats the first, and one of the two failures is lost. -/
theorem concurrent_failure_forgotten :
    ¬ Always (step fun _ => .v4 0x0A000001#32) NoneForgotten State.init
      [.check 0 0 29000000, .check 1 0 29000000, .update 0 false, .update 1 false] := by
  intro always
  have counted := always.last.counted 0 (.v4 0x0A000001#32)
  revert counted
  decide

end RemoteControl.Host.LoginAttempts
