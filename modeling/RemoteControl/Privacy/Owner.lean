import RemoteControl.Privacy.Settled

/-! # Whose privacy mode it is

While privacy mode is on for a connection others neither take it over nor end it, and a call
that tells of an error has changed nothing. This takes some care of the callers, and of the
platform where something is put back.
-/

namespace RemoteControl.Privacy

open Runs (Along Always)

/-- The same connection has it on, or none, and the user at the machine notices nothing. -/
def Kept (s s' : State) : Prop := s'.owner = s.owner ∧ s'.platform.view = s.platform.view

def Untouched (s s' : State) : Prop := s'.privacyMode = s.privacyMode ∧ s'.platform = s.platform

def IsError : Answer → Prop
  | some (.error _) => True
  | _ => False

/-- An error or `Ok(false)` -/
def Failed : Answer → Prop
  | some (.error _) => True
  | some (.ok on) => on = false
  | none => False

/-- A connection does nothing to the privacy mode of others. -/
def Stays (s s' : State) (connId : ℕ+) : Prop := ∀ A : ℕ+, s.owner = A → A ≠ connId → Kept s s'

/-- What a call, with this reply, may have done while it had the lock. -/
def Respects (s s' : State) (connId : ℕ+) (reply : Answer) : Prop :=
  (∀ A : ℕ+, s.owner = A → A ≠ connId → Untouched s s' ∧ IsError reply) ∧ (Failed reply → Kept s s')

def Owned (s : State) (e : Event) : Prop :=
  match e with
  | .turnOn _ connId _ _ =>
      (∀ A : ℕ+, s.owner = A → A ≠ connId → Untouched s (s.step e)) ∧
        ∀ c ∈ (s.step e).calls.drop s.calls.length, ∀ reply ∈ c.reply,
          Respects s (s.step e) connId reply
  | .run k _ =>
      ∀ c ∈ s.calls[k]?, c.done = none →
        ∀ c' ∈ (s.step e).calls[k]?, ∃ reply ∈ c'.reply, Respects s (s.step e) c.connId reply
  | .expire _ => Untouched s (s.step e)
  | .handle k _ | .turnOffAfterError k _ => ∀ c ∈ s.calls[k]?, Stays s (s.step e) c.connId
  | .requestOff connId _ _ => Stays s (s.step e) connId
  | .turnOff connId state o =>
      ∀ A : ℕ+, s.owner = A → A ≠ connId →
        Untouched s (s.step e) ∧ (s.turnOffPrivacy connId state o).2 = some (.error turnOffOtherId)
  | .switch _ _ => ∀ A : ℕ+, s.owner = A → Kept s (s.step e)
  | .clear _ => True

/-- The implementation is another one than the one that is asked for. -/
def State.replaces (s : State) (implKey : String) : Option Kind :=
  if s.curImplKey = some implKey then none else s.system.creator implKey

/-- The virtual display, where there is or will be one, can put the displays back. -/
def State.Restores (s : State) (o : Outcomes) : Prop := ∀ m ∈ s.privacyMode, Impl.Restores m.kind o

/-- A connection that has privacy mode on and asks for another implementation gets it. -/
structure Sound (s : State) (implKey : String) (connId : ℕ+) (o : Outcomes) : Prop where
  restores : s.Restores o
  restores' : ∀ kind ∈ s.system.creator (s.system.supportedImpl implKey o), Impl.Restores kind o
  changes : s.owner = connId → ∀ kind ∈ s.replaces (s.system.supportedImpl implKey o),
    o.post = .ok () ∧ Impl.Works kind s.platform o

/-- A call whose caller waits no more has nothing to do, or fails. -/
structure Late (s : State) (implKey : String) (connId : ℕ+) (o : Outcomes) : Prop where
  fails : s.owner = 0 → ∀ kind ∈ s.system.creator (s.system.supportedImpl implKey o), Impl.Fails kind o
  same : s.owner = connId → s.replaces (s.system.supportedImpl implKey o) = none

/-- Before an event. -/
def Careful (s : State) (e : Event) : Prop :=
  match e with
  | .turnOn implKey connId _ o => Sound s implKey connId o
  | .run k o =>
      ∀ c ∈ s.calls[k]?, c.done = none →
        Sound s c.implKey c.connId o ∧ (c.reply.isSome = true → Late s c.implKey c.connId o)
  | .expire _ => True
  | .handle _ o => s.Restores o
  | .turnOffAfterError k o =>
      s.Restores o ∧ ∀ c ∈ s.calls[k]?, c.turnsOff.isSome = true → s.owner = 0 ∨ s.owner = c.connId
  | .requestOff _ _ o | .turnOff _ _ o | .clear o => s.Restores o
  | .switch implKey _ => s.owner = 0 ∨ s.replaces implKey = none

/-! ## The invariant -/

structure Settled (s : State) : Prop where
  /-- Without an implementation there is nothing to be put back. -/
  none_ : s.privacyMode = none → s.platform.Quiet
  fit : ∀ m ∈ s.privacyMode, m.Fit s.platform
  known : ∀ m ∈ s.privacyMode, s.system.creator m.implKey = some m.kind
  calls : ∀ c ∈ s.calls, c.done = none → ∀ reply ∈ c.reply, IsError reply

namespace State

variable {s s' : State} {m : Impl} {connId : ℕ+} {o : Outcomes} {implKey : String} {kind : Kind}
  {k : Nat} {c : Call}

theorem owner_eq (is : s.privacyMode = some m) : s.owner = m.connId := by simp [owner, is]

/-- What a step with the lock does to the rest of the state. -/
theorem settled_of (settled : Settled s) (system : s'.system = s.system) (calls : s'.calls = s.calls)
    (none_ : s'.privacyMode = none → s'.platform.Quiet) (fit : ∀ m ∈ s'.privacyMode, m.Fit s'.platform)
    (known : ∀ m ∈ s'.privacyMode, s.system.creator m.implKey = some m.kind) : Settled s' :=
  ⟨none_, fit, system ▸ known, calls ▸ settled.calls⟩

theorem quiet_of_off (settled : Settled s) (off : s.owner = 0) : s.platform.Quiet := by
  cases is : s.privacyMode with
  | none => exact settled.none_ is
  | some m => exact (settled.fit m is).quiet ((owner_eq is).symm.trans off)

/-- The current implementation, which is off, is turned on, or nothing has changed. -/
theorem turnOnCurrent_attempted (connId : ℕ+) (settled : Settled s) (off : s.owner = 0)
    (restores : s.Restores o) :
    Settled (s.turnOnCurrent connId o).1 ∧ (s.turnOnCurrent connId o).1.calls = s.calls ∧
      (Failed (s.turnOnCurrent connId o).2 → Kept s (s.turnOnCurrent connId o).1) := by
  unfold turnOnCurrent
  cases is : s.privacyMode with
  | none => exact ⟨settled, rfl, fun no => no.elim⟩
  | some m =>
      have off' : m.connId = 0 := (owner_eq is).symm.trans off
      obtain ⟨fits, failed⟩ := Impl.turnOn_attempted (settled.fit m is) off' connId.pos (restores m is)
      obtain ⟨implKey, kind⟩ := Impl.turnOn_same m s.platform connId o
      refine ⟨settled_of settled rfl rfl nofun ?_ ?_, rfl, fun no => ?_⟩
      · rintro _ ⟨⟩
        exact fits
      · rintro _ ⟨⟩
        rw [implKey, kind]
        exact settled.known m is
      · have failed := failed fun yes => by
          dsimp only at no
          rw [yes] at no
          cases no
        exact ⟨failed.1.trans off.symm, failed.2⟩

theorem virtual_key {system : System} {implKey : String}
    (is : system.creator implKey = some .virtualDisplay) :
    implKey = implWinVirtualDisplay := by
  by_contra other
  cases system with
  | windows excluded mag installed => simp [System.creator, other] at is
  | macos => simp [System.creator] at is
  | other => cases is

theorem works_congr {p p' : Platform} (settings : p'.settings = p.settings)
    (devices : p'.devices = p.devices)
    (works : VirtualDisplay.Works p o) : VirtualDisplay.Works p' o := by
  have displays (isVirtual : Bool) : p'.displays isVirtual = p.displays isVirtual := by
    simp [Platform.displays, settings, devices]
  have plugged : (p'.plug o).displays true = (p.plug o).displays true := by
    simp [Platform.displays, Platform.plug, settings, devices]
  exact { works with
    physical := displays false ▸ works.physical
    plugged := by
      rw [displays, plugged]
      exact works.plugged }

/-- The state with a new implementation. -/
def replaced (s : State) (implKey : String) (kind : Kind) (o : Outcomes) : State :=
  (s.clear o).create implKey kind o

theorem replaced_quiet (implKey : String) (kind : Kind) (settled : Settled s)
    (restores : s.Restores o) (post : s.owner ≠ 0 → o.post = .ok ()) :
    (s.replaced implKey kind o).platform.Quiet ∧
      (s.owner = 0 → (s.replaced implKey kind o).platform.view = s.platform.view) := by
  unfold replaced create clear
  cases is : s.privacyMode with
  | none => exact ⟨by simpa [is] using settled.none_ is, fun _ => by simp [is]⟩
  | some m =>
      rw [owner_eq is] at post ⊢
      obtain ⟨quiet, off, same⟩ := Impl.clear_quiet (settled.fit m is) (restores m is) post
      obtain ⟨dropped, settings, -⟩ := Impl.drop_quiet (o := o) quiet off
      refine ⟨dropped, fun none_ => view_eq ((settled.fit m is).quiet none_) dropped fun i => ?_⟩
      exact (congrFun settings _).trans (same none_ i)

theorem replaced_settled (settled : Settled s) (restores : s.Restores o)
    (post : s.owner ≠ 0 → o.post = .ok ())
    (created : s.system.creator implKey = some kind) : Settled (s.replaced implKey kind o) := by
  obtain ⟨quiet, -⟩ := replaced_quiet implKey kind settled restores post
  have same : (s.clear o).system = s.system ∧ (s.clear o).calls = s.calls := by
    unfold clear
    split <;> exact ⟨rfl, rfl⟩
  refine settled_of settled same.1 same.2 nofun ?_ ?_
  · rintro _ ⟨⟩
    exact Impl.new_fit quiet
  · rintro _ ⟨⟩
    rw [Impl.new_implKey, Impl.new_kind]
    exact created

/-- What works now, works for the implementation that takes the place. -/
theorem works_replaced (settled : Settled s) (restores : s.Restores o)
    (post : s.owner ≠ 0 → o.post = .ok ())
    (other : s.curImplKey ≠ some implKey) (created : s.system.creator implKey = some kind)
    (works : Impl.Works kind s.platform o) :
    Impl.Works kind (s.replaced implKey kind o).platform o := by
  cases kind with
  | macos => exact works
  | topmostWindow => exact works
  | virtualDisplay =>
      unfold replaced create clear
      cases is : s.privacyMode with
      | none => simpa [is] using works
      | some m =>
          have different : m.kind ≠ .virtualDisplay := by
            intro same
            have known := settled.known m is
            rw [same] at known
            refine other ?_
            rw [curImplKey, is, virtual_key created, ← virtual_key known]
            rfl
          rw [owner_eq is] at post
          obtain ⟨quiet, off, -⟩ := Impl.clear_quiet (settled.fit m is) (restores m is) post
          obtain ⟨-, settings, devices⟩ := Impl.drop_quiet (o := o) quiet off
          obtain ⟨settings', devices'⟩ := Impl.clear_displays (p := s.platform) (o := o) different
          exact works_congr (settings.trans settings') (devices.trans devices') works

/-- A call is answered at once, or privacy mode is off or on for this connection with another
    implementation. -/
theorem answered_cases (s : State) (implKey : String) (connId : ℕ+) :
    (s.alreadyAnswered implKey connId = some (.ok true) ∧ s.owner = connId) ∨
      s.alreadyAnswered implKey connId = some (.error occupied) ∨
      s.alreadyAnswered implKey connId = none ∧
        (s.owner = 0 ∨ s.owner = connId ∧ s.curImplKey ≠ some implKey) := by
  unfold alreadyAnswered
  cases is : s.privacyMode with
  | none => exact .inr (.inr ⟨rfl, .inl (by simp [owner, is])⟩)
  | some m =>
      rw [owner_eq is]
      unfold checkOnConnId
      by_cases own : m.connId = connId
      · by_cases key : m.implKey = implKey
        · exact .inl ⟨by simp [own, key], own⟩
        · exact .inr (.inr ⟨by simp [own, key], .inr ⟨own, by simp [curImplKey, is, key]⟩⟩)
      · by_cases off : m.connId = 0
        · refine .inr (.inr ⟨?_, .inl off⟩)
          simp [off, (PNat.ne_zero connId).symm]
        · exact .inr (.inl (by simp [own, off]))

/-- The current implementation is turned on. -/
theorem current_respects (connId : ℕ+) (settled : Settled s) (off : s.owner = 0)
    (restores : s.Restores o) :
    Settled (s.turnOnCurrent connId o).1 ∧ (s.turnOnCurrent connId o).1.calls = s.calls ∧
      Respects s (s.turnOnCurrent connId o).1 connId (s.turnOnCurrent connId o).2 ∧
      ((∀ m ∈ s.privacyMode, Impl.Fails m.kind o) → Kept s (s.turnOnCurrent connId o).1) := by
  obtain ⟨after, calls, failed⟩ := turnOnCurrent_attempted connId settled off restores
  refine ⟨after, calls, ⟨fun A is _ => ?_, failed⟩, fun fails => ?_⟩
  · exact absurd (is.symm.trans off) (PNat.ne_zero A)
  · cases is : s.privacyMode with
    | none =>
        rw [turnOnCurrent, is]
        exact ⟨rfl, rfl⟩
    | some m =>
        refine failed ?_
        have no :=
          Impl.turnOn_fails (settled.fit m is) ((owner_eq is).symm.trans off) connId.pos
          (fails m is)
        rw [turnOnCurrent, is]
        dsimp only
        cases answer : (m.turnOnPrivacy s.platform connId o).answer with
        | error e => trivial
        | ok on =>
            cases on with
            | false => rfl
            | true => exact absurd answer no

/-- A new implementation takes the place of the current one and is turned on. -/
theorem replaced_respects (settled : Settled s) (restores : s.Restores o)
    (restores' : Impl.Restores kind o)
    (created : s.system.creator implKey = some kind) (other : s.curImplKey ≠ some implKey)
    (own : s.owner ≠ 0 → s.owner = connId)
    (works : s.owner ≠ 0 → o.post = .ok () ∧ Impl.Works kind s.platform o) :
    Settled ((s.replaced implKey kind o).turnOnCurrent connId o).1 ∧
      ((s.replaced implKey kind o).turnOnCurrent connId o).1.calls = s.calls ∧
      Respects s ((s.replaced implKey kind o).turnOnCurrent connId o).1 connId
        ((s.replaced implKey kind o).turnOnCurrent connId o).2 ∧
      (s.owner = 0 → Impl.Fails kind o →
        Kept s ((s.replaced implKey kind o).turnOnCurrent connId o).1) := by
  have post : s.owner ≠ 0 → o.post = .ok () := fun on => (works on).1
  obtain ⟨quiet, view⟩ := replaced_quiet implKey kind settled restores post
  have settled' := replaced_settled settled restores post created
  have off' : (s.replaced implKey kind o).owner = 0 := Impl.new_connId
  have restores'' : (s.replaced implKey kind o).Restores o := by
    rintro _ ⟨⟩
    exact Impl.new_kind ▸ restores'
  have calls' : (s.replaced implKey kind o).calls = s.calls := by
    unfold replaced create clear
    dsimp only
    split <;> rfl
  obtain ⟨after, calls, respects, fails⟩ := current_respects connId settled' off' restores''
  have succeeds (on : s.owner ≠ 0) :
      ((s.replaced implKey kind o).turnOnCurrent connId o).2 = some (.ok true) := by
    have works' := works_replaced settled restores post other created (works on).2
    exact congrArg some (Impl.new_works quiet connId.pos works')
  have kept (off : s.owner = 0)
      (same : Kept (s.replaced implKey kind o) ((s.replaced implKey kind o).turnOnCurrent connId o).1) :
      Kept s ((s.replaced implKey kind o).turnOnCurrent connId o).1 :=
    ⟨same.1.trans (off'.trans off.symm), same.2.trans (view off)⟩
  refine ⟨after, calls.trans calls', ⟨fun A is foreign => ?_, fun failed => ?_⟩,
    fun off no => kept off (fails ?_)⟩
  · have on : s.owner ≠ 0 := is ▸ PNat.ne_zero A
    exact absurd (PNat.coe_injective (is.symm.trans (own on))) foreign
  · by_cases off : s.owner = 0
    · exact kept off (respects.2 failed)
    · rw [succeeds off] at failed
      cases failed
  · rintro _ ⟨⟩
    exact Impl.new_kind ▸ no

/-- What a call may have done, also when its caller waits no more. -/
theorem sync_respects (settled : Settled s) (sound : Sound s implKey connId o) :
    Settled (s.turnOnPrivacySync implKey connId o).1 ∧
      (s.turnOnPrivacySync implKey connId o).1.calls = s.calls ∧
      Respects s (s.turnOnPrivacySync implKey connId o).1 connId
        (s.turnOnPrivacySync implKey connId o).2 ∧
      (Late s implKey connId o → Kept s (s.turnOnPrivacySync implKey connId o).1) := by
  obtain ⟨restores, restores', changes⟩ := sound
  have unchanged (answer : Except String Bool) (fine : answer = .ok true ∧ s.owner = connId ∨ ∃ e,
      answer = .error e) :
      Respects s s connId (some answer) := by
    refine ⟨fun A is other => ⟨⟨rfl, rfl⟩, ?_⟩, fun _ => ⟨rfl, rfl⟩⟩
    rcases fine with ⟨-, own⟩ | ⟨e, rfl⟩
    · exact absurd (PNat.coe_injective (is.symm.trans own)) other
    · trivial
  unfold turnOnPrivacySync
  dsimp only
  rcases answered_cases s (s.system.supportedImpl implKey o) connId with ⟨same, own⟩ | same | ⟨same,
    free⟩
  · rw [same]
    exact ⟨settled, rfl, unchanged _ (.inl ⟨rfl, own⟩), fun _ => ⟨rfl, rfl⟩⟩
  · rw [same]
    exact ⟨settled, rfl, unchanged _ (.inr ⟨_, rfl⟩), fun _ => ⟨rfl, rfl⟩⟩
  · rw [same]
    dsimp only
    split
    case isTrue current =>
      have here : ∀ m ∈ s.privacyMode, m.implKey = s.system.supportedImpl implKey o := by
        intro m is
        simpa [curImplKey, show s.privacyMode = some m from is] using current
      have off : s.owner = 0 := by
        rcases free with off | ⟨own, other⟩
        · exact off
        · cases is : s.privacyMode with
          | none => simp [owner, is]
          | some m => exact absurd (by simp [curImplKey, is, here m is]) other
      obtain ⟨after, calls, respects, fails⟩ := current_respects connId settled off restores
      refine ⟨after, calls, respects, fun late => fails fun m is => late.fails off _ ?_⟩
      exact here m is ▸ settled.known m is
    case isFalse other =>
      split
      case h_1 => exact ⟨settled, rfl, unchanged _ (.inr ⟨_, rfl⟩), fun _ => ⟨rfl, rfl⟩⟩
      case h_2 kind created =>
        have different : s.curImplKey ≠ some (s.system.supportedImpl implKey o) :=
          fun same => other (by simp [same])
        have replaces : s.replaces (s.system.supportedImpl implKey o) = some kind := by
          rw [State.replaces, if_neg different, created]
        have own : s.owner ≠ 0 → s.owner = connId := fun on => (free.resolve_left on).1
        obtain ⟨after, calls, respects, fails⟩ :=
          replaced_respects settled restores (restores' kind created) created
          different own fun on => changes (own on) kind replaces
        refine ⟨after, calls, respects, fun late => ?_⟩
        by_cases off : s.owner = 0
        · exact fails off (late.fails off kind created)
        · rw [late.same (own off)] at replaces
          cases replaces

theorem turnOffPrivacy_settled (settled : Settled s) (restores : s.Restores o) (connId : Nat)
    (state : Option PrivacyModeState) :
    Settled (s.turnOffPrivacy connId state o).1 ∧
      (s.turnOffPrivacy connId state o).1.calls = s.calls := by
  unfold turnOffPrivacy
  cases is : s.privacyMode with
  | none => exact ⟨settled, rfl⟩
  | some m =>
      have fits := Impl.turnOff_fit connId state (settled.fit m is) (restores m is)
      obtain ⟨implKey, kind⟩ :=
        Impl.turnOff_same m s.platform connId state o
      refine ⟨settled_of settled rfl rfl nofun ?_ ?_, rfl⟩
      · rintro _ ⟨⟩
        exact fits
      · rintro _ ⟨⟩
        rw [implKey, kind]
        exact settled.known m is

/-- Others get an error. -/
theorem turnOffPrivacy_other {A : ℕ+} (is : s.owner = A) (other : A ≠ connId)
    (state : Option PrivacyModeState) :
    s.turnOffPrivacy connId state o = (s, some (.error turnOffOtherId)) := by
  cases mode : s.privacyMode with
  | none => simp [owner, mode, (PNat.ne_zero A).symm] at is
  | some m =>
      rw [owner_eq mode] at is
      have same := Impl.turnOff_other s.platform state o (is ▸ PNat.ne_zero A)
        (PNat.ne_zero connId) (fun same => other (PNat.coe_injective (is.symm.trans same)))
      rw [turnOffPrivacy, mode]
      dsimp only
      rw [same, ← mode]

theorem toMsg_state (s : State) (connId : Nat) (o : Outcomes) :
    (s.turnOffPrivacyToMsg connId o).1 = (s.turnOffPrivacy connId none o).1 := by
  unfold turnOffPrivacyToMsg
  split <;> simp_all

theorem Restores.of_mode (restores : s.Restores o) (mode : s'.privacyMode = s.privacyMode) :
    s'.Restores o :=
  fun m is => restores m (mode ▸ is)

section

variable (settled : Settled s)

include settled

/-- The calls are not about the platform. -/
theorem settled_calls {calls : List Call} {sent : List (ℕ+ × PrivacyModeMsg)}
    (fine : ∀ c ∈ calls, c.done = none → ∀ reply ∈ c.reply, IsError reply) :
    Settled { s with calls, sent } :=
  ⟨settled.none_, settled.fit, settled.known, fine⟩

theorem setCall_settled
    (fine : c.done = none → ∀ reply ∈ c.reply, IsError reply) : Settled (s.setCall k c) := by
  refine settled_calls settled fun c' member => ?_
  rcases List.mem_or_eq_of_mem_set member with before | rfl
  · exact settled.calls c' before
  · exact fine

theorem turnOn_step {request : Bool} (sound : Sound s implKey connId o) :
    Settled (s.turnOn implKey connId request o) ∧ Owned s (.turnOn implKey connId request o) := by
  have asked {c : Call} (fine : c.done = none → ∀ reply ∈ c.reply, IsError reply) :
      ∀ c' ∈ s.calls ++ [c], c'.done = none → ∀ reply ∈ c'.reply, IsError reply :=
    List.forall_mem_append.mpr ⟨settled.calls, List.forall_mem_singleton.mpr fine⟩
  simp only [Owned, step]
  unfold turnOn
  split
  case isTrue =>
    exact ⟨settled_calls settled settled.calls, fun _ _ _ => ⟨rfl, rfl⟩, by simp [send]⟩
  case isFalse =>
    split
    case isTrue =>
      refine ⟨settled_calls settled (asked nofun), fun _ _ _ => ⟨rfl, rfl⟩, fun c member reply is => ?_⟩
      simp only [List.drop_left, List.mem_singleton] at member
      rw [member] at is
      cases is
    case isFalse =>
      obtain ⟨after, -, respects, -⟩ := sync_respects settled sound
      refine ⟨settled_calls after (asked nofun), fun A is other => (respects.1 A is other).1,
        fun c member reply is => ?_⟩
      simp only [List.drop_left, List.mem_singleton] at member
      rw [member] at is
      cases is
      exact respects

theorem run_step (careful : Careful s (.run k o)) :
    Settled (s.run k o) ∧ Owned s (.run k o) := by
  simp only [Owned, step]
  unfold run
  cases here : s.calls[k]? with
  | none => exact ⟨settled, fun _ is => absurd is (Option.not_mem_none _)⟩
  | some c =>
      cases done : c.done with
      | some answer =>
          refine ⟨by simpa [done] using settled, ?_⟩
          rintro _ ⟨⟩ no
          rw [done] at no
          cases no
      | none =>
          obtain ⟨sound, late⟩ := careful c here done
          obtain ⟨after, calls, respects, kept⟩ := sync_respects settled sound
          have bound : k < (s.turnOnPrivacySync c.implKey c.connId o).1.calls.length := by
            rw [calls]
            exact (List.getElem?_eq_some_iff.mp here).1
          simp only [done, Option.isSome_none, Bool.false_eq_true, if_false]
          refine ⟨setCall_settled after nofun, ?_⟩
          rintro _ ⟨⟩ -
          rintro c' is
          simp only [setCall, List.getElem?_set_self bound, Option.mem_def, Option.some.injEq] at is
          subst is
          refine ⟨_, rfl, ?_⟩
          cases reply : c.reply with
          | none => exact respects
          | some reply' =>
              -- the caller has its error since the time was over
              have error := settled.calls c (List.mem_of_getElem? here) done reply' reply
              exact ⟨fun A is other => ⟨(respects.1 A is other).1, error⟩,
                fun _ => kept (late (by simp [reply]))⟩

theorem expire_step (k : Nat) : Settled (s.expire k) ∧ Owned s (.expire k) := by
  simp only [Owned, step]
  unfold expire
  cases s.calls[k]? with
  | none => exact ⟨settled, rfl, rfl⟩
  | some c =>
      dsimp only
      split
      case isTrue => exact ⟨settled, rfl, rfl⟩
      case isFalse =>
        refine ⟨setCall_settled settled ?_, rfl, rfl⟩
        rintro - reply ⟨⟩
        trivial

theorem toMsg_settled (restores : s.Restores o) (connId : Nat) :
    Settled (s.turnOffPrivacyToMsg connId o).1 := by
  rw [toMsg_state]
  exact (turnOffPrivacy_settled settled restores connId none).1

end

/-- A connection turns off what is its own. -/
theorem toMsg_stays (s : State) (connId : ℕ+) (o : Outcomes) :
    Stays s (s.turnOffPrivacyToMsg connId o).1 connId := by
  intro A is other
  rw [toMsg_state, turnOffPrivacy_other is other]
  exact ⟨rfl, rfl⟩

section

variable (settled : Settled s)

include settled

theorem handleReply_step (restores : s.Restores o) (here : c ∈ s.calls) (reply : Answer) :
    Settled (s.handleReply k c reply o) ∧ Stays s (s.handleReply k c reply o) c.connId := by
  have own := settled.calls c here
  have handled := setCall_settled (k := k) (c := { c with handled := true }) settled own
  have noted {msg : PrivacyModeMsg} :
      Settled ((s.setCall k { c with handled := true }).send c.connId msg) :=
    settled_calls handled handled.calls
  have same : Stays s s c.connId := fun _ _ _ => ⟨rfl, rfl⟩
  unfold handleReply
  dsimp only
  split
  case h_1 =>
    split
    case isTrue => exact ⟨noted, same⟩
    case isFalse =>
      have after := toMsg_settled handled (restores.of_mode rfl) c.connId
      exact ⟨settled_calls after after.calls,
        toMsg_stays (s.setCall k { c with handled := true }) c.connId o⟩
  case h_2 => exact ⟨noted, same⟩
  case h_3 =>
    split
    case isTrue => exact ⟨setCall_settled handled own, same⟩
    case isFalse => exact ⟨noted, same⟩
  case h_4 => exact ⟨noted, same⟩

theorem handle_step (restores : s.Restores o) :
    Settled (s.handle k o) ∧ Owned s (.handle k o) := by
  simp only [Owned, step]
  unfold handle
  cases here : s.calls[k]? with
  | none => exact ⟨settled, fun _ is => absurd is (Option.not_mem_none _)⟩
  | some c =>
      have same : Settled s ∧ ∀ c' ∈ some c, Stays s s c'.connId :=
        ⟨settled, fun _ _ _ _ _ => ⟨rfl, rfl⟩⟩
      dsimp only
      cases c.reply with
      | none => exact same
      | some reply =>
          dsimp only
          split
          case isTrue =>
            obtain ⟨after, stays⟩ :=
              handleReply_step (k := k) settled restores (List.mem_of_getElem? here) reply
            refine ⟨after, ?_⟩
            rintro _ ⟨⟩
            exact stays
          case isFalse => exact same

theorem turnOffAfterError_step (careful : Careful s (.turnOffAfterError k o)) :
    Settled (s.turnOffAfterError k o) ∧ Owned s (.turnOffAfterError k o) := by
  obtain ⟨restores, own⟩ := careful
  simp only [Owned, step]
  unfold turnOffAfterError
  cases here : s.calls[k]? with
  | none => exact ⟨settled, fun _ is => absurd is (Option.not_mem_none _)⟩
  | some c =>
      cases error : c.turnsOff with
      | none =>
          dsimp only
          rw [error]
          exact ⟨settled, fun _ _ _ _ _ => ⟨rfl, rfl⟩⟩
      | some e =>
          dsimp only
          rw [error]
          have handled := setCall_settled (k := k) (c := { c with turnsOff := none }) settled
            (settled.calls c (List.mem_of_getElem? here))
          have after := toMsg_settled handled (restores.of_mode rfl) 0
          refine ⟨settled_calls after after.calls, ?_⟩
          rintro _ ⟨⟩ A is other
          rcases own c here (by simp [error]) with off | mine
          · exact absurd (is.symm.trans off) (PNat.ne_zero A)
          · exact absurd (PNat.coe_injective (is.symm.trans mine)) other

theorem requestOff_step {implKey : String} (restores : s.Restores o) :
    Settled (s.requestOff connId implKey o) ∧ Owned s (.requestOff connId implKey o) := by
  simp only [Owned, step]
  unfold requestOff
  split
  case isTrue =>
    have after := toMsg_settled settled restores connId
    exact ⟨settled_calls after after.calls, toMsg_stays s connId o⟩
  case isFalse => exact ⟨settled_calls settled settled.calls, fun _ _ _ => ⟨rfl, rfl⟩⟩

theorem switch_step (careful : Careful s (.switch implKey o)) :
    Settled (s.switch implKey o) ∧ Owned s (.switch implKey o) := by
  have same : Settled s ∧ ∀ A : ℕ+, s.owner = A → Kept s s := ⟨settled, fun _ _ => ⟨rfl, rfl⟩⟩
  simp only [Owned, step]
  unfold switch
  split
  case isTrue => exact same
  case isFalse other =>
    split
    case h_1 => exact same
    case h_2 kind created =>
      have off : s.owner = 0 := by
        refine careful.resolve_right fun none_ => ?_
        rw [replaces, if_neg other, created] at none_
        cases none_
      have quiet : (s.create implKey kind o).platform.Quiet := by
        unfold create
        cases is : s.privacyMode with
        | none => exact settled.none_ is
        | some m =>
          exact (Impl.drop_quiet ((quiet_of_off settled off)) ((owner_eq is).symm.trans off)).1
      refine ⟨settled_of settled rfl rfl nofun ?_ ?_, fun A is => ?_⟩
      · rintro _ ⟨⟩
        exact Impl.new_fit quiet
      · rintro _ ⟨⟩
        rw [Impl.new_implKey, Impl.new_kind]
        exact created
      · exact absurd (is.symm.trans off) (PNat.ne_zero A)

theorem clear_settled (restores : s.Restores o) : Settled (s.clear o) := by
  unfold clear
  cases is : s.privacyMode with
  | none => exact settled
  | some m =>
      obtain ⟨implKey, kind⟩ := Impl.clear_same (m := m) (p := s.platform) (o := o)
      refine settled_of settled rfl rfl nofun ?_ ?_
      · rintro _ ⟨⟩
        exact Impl.clear_fit (settled.fit m is) (restores m is)
      · rintro _ ⟨⟩
        rw [implKey, kind]
        exact settled.known m is

/-- What one event keeps, and what it respects. -/
theorem owned_step (e : Event) (careful : Careful s e) :
    Settled (s.step e) ∧ Owned s e := by
  cases e with
  | turnOn implKey connId request o => exact turnOn_step settled careful
  | run k o => exact run_step settled careful
  | expire k => exact expire_step settled k
  | handle k o => exact handle_step settled careful
  | turnOffAfterError k o => exact turnOffAfterError_step settled careful
  | turnOff connId state o =>
      refine ⟨(turnOffPrivacy_settled settled careful connId state).1, fun A is other => ?_⟩
      rw [step, turnOffPrivacy_other is other]
      exact ⟨⟨rfl, rfl⟩, rfl⟩
  | requestOff connId implKey o => exact requestOff_step settled careful
  | switch implKey o => exact switch_step settled careful
  | clear o => exact ⟨clear_settled settled careful, trivial⟩

end

theorem settled_initial (system : System) (devices : List Device) (settings : Device → DevMode)
    (window : Bool) (o : Outcomes) : Settled (initial system devices settings window o) := by
  have quiet : (initial system devices settings window o).platform.Quiet :=
    ⟨rfl, rfl, by cases window <;> simp [initial], fun _ => rfl⟩
  refine ⟨fun _ => quiet, fun m is => ?_, fun m is => ?_, List.forall_mem_nil _⟩
  · obtain ⟨kind, -, rfl⟩ := Option.map_eq_some_iff.mp is
    exact Impl.new_fit quiet
  · obtain ⟨kind, created, rfl⟩ := Option.map_eq_some_iff.mp is
    rw [Impl.new_implKey, Impl.new_kind]
    exact created

end State

/-- In a careful run privacy mode belongs to the connection that has it on. -/
theorem privacy_mode_belongs_to_its_owner (system : System) (devices : List Device)
    (settings : Device → DevMode) (window : Bool) (o : Outcomes) (events : List Event)
    (careful : Along State.step Careful (.initial system devices settings window o) events) :
    Along State.step Owned (.initial system devices settings window o) events :=
  Runs.along_of_along (p := Settled) (fun _ e settled here => State.owned_step settled e here)
    (State.settled_initial ..) careful

/-- One connection has it on, another one asks for it. -/
theorem privacy_mode_belongs_to_its_owner_two :
    Along State.step Owned (.initial .macos [] (fun _ => ⟨0, 0, 0, 0⟩) false {})
      [.turnOn "" 1 true {}, .handle 0 {}, .turnOn "" 2 false {}, .turnOff 2 none {}] := by
  apply privacy_mode_belongs_to_its_owner
  have put (s : State) (mac : s.isAsync = false) (o : Outcomes) : s.Restores o := by
    intro m is kind
    simp [State.isAsync, show s.privacyMode = some m from is, Impl.isAsyncPrivacyMode, kind] at mac
  have created : ∀ kind ∈ System.macos.creator implMacos, Impl.Restores kind {} := by
    rintro _ ⟨⟩ ⟨⟩
  refine ⟨⟨put _ rfl _, created, fun own => ?_⟩, put _ rfl _, ⟨put _ rfl _, created, fun own => ?_⟩,
    put _ rfl _, trivial⟩
  · cases own
  · cases own

/-- A connection that is refused ends the privacy mode of the other one. -/
theorem refused_connection_ends_privacy :
    ¬ Along State.step Owned (.initial .macos [] (fun _ => ⟨0, 0, 0, 0⟩) false {})
      [.turnOn "" 1 true {}, .handle 0 {}, .turnOn "" 2 true {}, .handle 1 {},
        .turnOffAfterError 1 {}] := by
  intro along
  obtain ⟨-, -, -, -, stays, -⟩ := along
  have kept := stays _ rfl 1 rfl (by decide)
  exact absurd kept.1 (by decide +kernel)

end RemoteControl.Privacy
