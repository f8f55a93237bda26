import RemoteControl.Runs

/-! # Plugging out virtual displays

The module `amyuni_idd` of `virtual_display_manager.rs` counts the displays that it has plugged in. Other
programs use the same driver, so the count says little about the displays that are there.
`plug_out_monitor` goes by the count and compares it with the displays in one place only.
-/

namespace RemoteControl.VirtualDisplays

open Runs (exec)

/-- `VIRTUAL_DISPLAY_MAX_COUNT` -/
def virtualDisplayMaxCount : Nat := 4

/-- `IDD_PLUG_OUT_ALL_INDEX` -/
def iddPlugOutAllIndex : Int := -1

/-- The displays that are connected. -/
structure Displays where
  amyuni : Nat
  others : Nat
  deriving DecidableEq

/-- `windows::get_device_names(None).len()` -/
def Displays.all (d : Displays) : Nat := d.amyuni + d.others

structure State where
  displays : Displays
  /-- `VIRTUAL_DISPLAY_COUNT` -/
  count : Nat := 0
  /-- What the driver was told so far, `true` for plugging in. -/
  commands : List Bool := []

/-- `accepted` is whether `device_io_control` succeeds. What becomes of the displays is seen later. -/
def plugMonitor_ (add accepted : Bool) (s : State) : State :=
  let s := { s with commands := s.commands ++ [add] }
  if !accepted then s
  else if add then
    if s.count < virtualDisplayMaxCount then { s with count := s.count + 1 } else s
  else
    if s.count > 0 then { s with count := s.count - 1 } else s

/-- The count that `plug_out_monitor` goes by. -/
def plugInCount (index : Int) (forceOne : Bool) (s : State) : Except String Nat :=
  if index ≠ iddPlugOutAllIndex ∧ s.count = 0 ∧ s.displays.amyuni > 0 then
    if forceOne then .ok 1 else .error "The virtual display is managed by other processes."
  else .ok s.count

/-- How many of the displays that there are it takes for its own. -/
def ownCount (forceAll : Bool) (plugInCount : Nat) : Nat → Except String Nat
  -- `return Ok(())`
  | 0 => .ok 0
  | 1 =>
      if plugInCount = 0 then .error "No virtual displays to plug out."
      else if forceAll then .ok 1
      else .error "This only virtual display cannot be plugged out."
  | allCount =>
      .ok (if allCount = plugInCount then if forceAll then allCount else allCount - 1 else plugInCount)

def toPlugOutCount (index : Int) (forceAll forceOne : Bool) (s : State) : Except String Nat :=
  ((plugInCount index forceOne s).bind fun count => ownCount forceAll count s.displays.all).map
    fun count => if count ≠ 0 ∧ index ≠ iddPlugOutAllIndex then 1 else count

/-- The loop of `plug_out_monitor`; a failure is ignored. -/
def plugOutLoop (accepted : Nat → Bool) : Nat → State → State
  | 0, s => s
  | k + 1, s => plugMonitor_ false (accepted k) (plugOutLoop accepted k s)

def plugOutMonitor (index : Int) (forceAll forceOne : Bool) (accepted : Nat → Bool) (s : State) :
    Except String Unit × State :=
  match toPlugOutCount index forceAll forceOne s with
  | .ok count => (.ok (), plugOutLoop accepted count s)
  | .error reason => (.error reason, s)

/-! ## Reachable states -/

inductive Event where
  /-- A call of `plug_monitor_` from anywhere in the program. -/
  | plug (add accepted : Bool)
  /-- Displays come and go: those that were plugged, those of other programs, and those with a cable. -/
  | change (displays : Displays)

def step (s : State) : Event → State
  | .plug add accepted => plugMonitor_ add accepted s
  | .change displays => { s with displays := displays }

def start (displays : Displays) : State := { displays := displays }

theorem commands_plugMonitor_ (add accepted : Bool) (s : State) :
    (plugMonitor_ add accepted s).commands = s.commands ++ [add] := by
  unfold plugMonitor_
  dsimp only
  split_ifs <;> rfl

theorem commands_plugOutLoop (accepted : Nat → Bool) (k : Nat) (s : State) :
    (plugOutLoop accepted k s).commands = s.commands ++ List.replicate k false := by
  induction k with
  | zero => exact (List.append_nil _).symm
  | succ k ih =>
      rw [plugOutLoop, commands_plugMonitor_, ih, List.append_assoc, ← List.replicate_succ']

/-- At least one display is left, a single display is one display, and a refusal does nothing. -/
structure Spares (index : Int) (s : State) (result : Except String Unit × State) (unplugged : Nat) :
    Prop where
  commands : result.2.commands = s.commands ++ List.replicate unplugged false
  left : 1 ≤ s.displays.all → unplugged ≤ s.displays.all - 1
  single : index ≠ iddPlugOutAllIndex → unplugged ≤ 1
  refused : ∀ reason, result.1 = .error reason → unplugged = 0

variable {forceOne : Bool} {s : State}

theorem exists_spares_iff {index : Int} {forceAll : Bool} {accepted : Nat → Bool} :
    (∃ unplugged, Spares index s (plugOutMonitor index forceAll forceOne accepted s) unplugged) ↔
      ∀ count, toPlugOutCount index forceAll forceOne s = .ok count →
        (1 ≤ s.displays.all → count ≤ s.displays.all - 1) ∧
          (index ≠ iddPlugOutAllIndex → count ≤ 1) := by
  unfold plugOutMonitor
  cases toPlugOutCount index forceAll forceOne s with
  | error reason =>
      exact iff_of_true ⟨0, (List.append_nil _).symm, fun _ => Nat.zero_le _, fun _ => Nat.zero_le _,
        fun _ _ => rfl⟩ nofun
  | ok count =>
      have commands := commands_plugOutLoop accepted count s
      constructor
      · rintro ⟨unplugged, spares⟩ _ ⟨⟩
        have same := List.append_cancel_left (commands.symm.trans spares.commands)
        rw [List.replicate_left_inj] at same
        obtain rfl := same
        exact ⟨spares.left, spares.single⟩
      · intro all
        obtain ⟨left, single⟩ := all count rfl
        exact ⟨count, commands, left, single, nofun⟩

/-- The count is past the number of displays, and all of them are to go. -/
def Overcounted (index : Int) (s : State) : Prop :=
  index = iddPlugOutAllIndex ∧ 2 ≤ s.displays.all ∧ s.displays.all < s.count

theorem toPlugOutCount_all (some_ : 2 ≤ s.displays.all) :
    toPlugOutCount iddPlugOutAllIndex false forceOne s =
      .ok (if s.displays.all = s.count then s.displays.all - 1 else s.count) := by
  obtain ⟨n, all⟩ := Nat.exists_eq_add_of_le' some_
  unfold toPlugOutCount plugInCount
  rw [if_neg fun given => given.1 rfl, all]
  simp [Except.bind, Except.map, ownCount]

theorem toPlugOutCount_le {index : Int} {count : Nat}
    (known : toPlugOutCount index false forceOne s = .ok count) :
    (index ≠ iddPlugOutAllIndex → count ≤ 1) ∧ (s.displays.all = 1 → count = 0) := by
  unfold toPlugOutCount at known
  cases own : (plugInCount index forceOne s).bind fun count => ownCount false count s.displays.all with
  | error reason => rw [own] at known; cases known
  | ok owned =>
      rw [own] at known
      obtain rfl := Except.ok.inj known
      constructor
      · intro one
        dsimp only
        split
        · exact Nat.le_refl _
        · next none =>
            have zero : owned = 0 := by
              by_contra some_
              exact none ⟨some_, one⟩
            exact Nat.le_trans (Nat.le_of_eq zero) (Nat.zero_le _)
      · intro single
        rw [single] at own
        cases counted : plugInCount index forceOne s with
        | error reason => rw [counted] at own; cases own
        | ok counted_ =>
            rw [counted] at own
            simp only [Except.bind, ownCount, Bool.false_eq_true, if_false] at own
            split at own <;> cases own

/-- In every state that can be reached `plug_out_monitor` spares a display exactly if the count is not
past the displays that there are. -/
theorem spares_iff (displays : Displays) (events : List Event) (index : Int) (forceOne : Bool)
    (accepted : Nat → Bool) :
    (∃ unplugged, Spares index (exec step (start displays) events)
      (plugOutMonitor index false forceOne accepted (exec step (start displays) events)) unplugged) ↔
      ¬Overcounted index (exec step (start displays) events) := by
  generalize exec step (start displays) events = s
  rw [exists_spares_iff]
  constructor
  · rintro all ⟨rfl, some_, past⟩
    have spared := (all s.count (by rw [toPlugOutCount_all some_, if_neg (Nat.ne_of_lt past)])).1
      (Nat.le_of_succ_le some_)
    omega
  · intro inside count known
    obtain ⟨single, zero⟩ := toPlugOutCount_le known
    refine ⟨fun one => ?_, single⟩
    by_cases only : s.displays.all = 1
    · exact Nat.le_trans (Nat.le_of_eq (zero only)) (Nat.zero_le _)
    · have some_ : 2 ≤ s.displays.all := by omega
      by_cases every : index = iddPlugOutAllIndex
      · have few : s.count ≤ s.displays.all := Nat.not_lt.mp fun past => inside ⟨every, some_, past⟩
        rw [every, toPlugOutCount_all some_] at known
        obtain rfl := Except.ok.inj known
        split <;> omega
      · exact Nat.le_trans (single every) (Nat.le_sub_one_of_lt some_)

/-- Three virtual displays were plugged in and one of them was taken out by another program: the
remaining two are told to go, and a third one. -/
theorem none_spared :
    ¬∀ (displays : Displays) (events : List Event) (index : Int) (forceOne : Bool) (accepted : Nat → Bool),
      ∃ unplugged, Spares index (exec step (start displays) events)
        (plugOutMonitor index false forceOne accepted (exec step (start displays) events)) unplugged := by
  intro all
  have spared := all ⟨0, 0⟩
    [.plug true true, .plug true true, .plug true true, .change ⟨3, 0⟩, .change ⟨2, 0⟩]
    iddPlugOutAllIndex false fun _ => true
  have left := (exists_spares_iff.mp spared 3 rfl).1 (by decide)
  exact absurd left (by decide)

end RemoteControl.VirtualDisplays
