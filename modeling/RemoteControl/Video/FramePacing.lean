import Mathlib.Data.List.AList
import RemoteControl.Host.Services
import RemoteControl.Runs

/-! # Frame pacing

After a frame a video service waits until the connections that it was sent to have fetched
it, for three seconds at most. They say so through a channel.

The channel belongs to the index of the display, so the monitor and the camera of one index
share it, and what comes through it says neither which frame nor which of the two was
fetched. The loop collects the ids of the connections and compares how many they are with
how many connections the frame was sent to.
-/

namespace RemoteControl.Video.FramePacing

open Host (ConnId VideoSource)
open Runs (exec Always Along)

structure Service where
  source : VideoSource
  idx : Nat
  deriving DecidableEq

/-- What goes through a channel. The instant is only logged. -/
structure Notification where
  connId : ConnId
  /-- The service that it is meant for. The channel does not carry this. -/
  service : Service
  deriving DecidableEq

abbrev Thread := Nat

/-- An entry of `FRAME_FETCHED_NOTIFIERS`. -/
structure Notifier where
  queue : List Notification := []
  /-- The thread that holds the lock of the receiver. -/
  holder : Option Thread := none

/-- Where the loop of a video service is. -/
inductive Phase where
  | capturing
  /-- `handle_one_frame` has sent the frame. -/
  | sent (connIds : Finset ConnId)
  /-- At the head of the wait loop. -/
  | waiting
  /-- In `try_wait_next`, before the first notification. -/
  | receiving
  /-- In `try_wait_next`, with what is left in the channel. -/
  | draining
  deriving DecidableEq

namespace Phase

def holdsReceiver : Phase → Bool
  | .receiving | .draining => true
  | _ => false

def inWait : Phase → Bool
  | .waiting | .receiving | .draining => true
  | _ => false

end Phase

structure Loop where
  service : Service
  phase : Phase := .capturing
  sendConnIds : Finset ConnId := ∅
  fetchedConnIds : Finset ConnId := ∅
  /-- `timeout_millis` are over since `wait_begin`. -/
  late : Bool := false
  /-- The connections that have sent a notification for the service since the frame. -/
  notified : Finset ConnId := ∅

/-- What the loop keeps of a notification that is sent. -/
def Loop.hears (l : Loop) (n : Notification) : Loop :=
  if l.service = n.service then { l with notified := insert n.connId l.notified } else l

/-- A wait that a loop has left. -/
structure Exit where
  sendConnIds : Finset ConnId
  notified : Finset ConnId
  late : Bool

structure State where
  /-- `FRAME_FETCHED_NOTIFIERS` -/
  notifiers : Nat → Option Notifier := fun _ => none
  /-- `DISPLAY_CONN_IDS` -/
  displayConnIds : AList (fun _ : Nat => Finset ConnId) := ∅
  loops : Thread → Option Loop := fun _ => none
  /-- The calls of `notify_video_frame_fetched_by_conn_id` that have their displays. -/
  collected : List (ConnId × List Nat) := []
  exits : List Exit := []
  /-- Which service has taken which notification. -/
  consumed : List (Service × Notification) := []

inductive Event where
  /-- A thread enters `run`, the first time or again. -/
  | run (thread : Thread) (service : Service)
  /-- The controller is reset, and a frame goes out to these connections, if one does. -/
  | frame (thread : Thread) (connIds : Finset ConnId)
  | setSend (thread : Thread)
  | tryWaitNext (thread : Thread)
  | recv (thread : Thread)
  /-- The 300 ms of `recv` are over. -/
  | timeout (thread : Thread)
  | drain (thread : Thread)
  /-- The 3 s of the wait are over. -/
  | elapse (thread : Thread)
  /-- `run` returns, with an error or because the service is stopped. -/
  | stop (thread : Thread)
  /-- `notify_video_frame_fetched` -/
  | notify (connId : ConnId) (displayIdx : Nat)
  /-- The first section of `notify_video_frame_fetched_by_conn_id`. -/
  | collect (connId : ConnId)
  /-- Its second section. -/
  | notifyCollected (connId : ConnId) (displays : List Nat)

namespace State

def setLoop (s : State) (thread : Thread) (l : Loop) : State :=
  { s with loops := Function.update s.loops thread (some l) }

def setNotifier (s : State) (idx : Nat) (notifier : Notifier) : State :=
  { s with notifiers := Function.update s.notifiers idx (some notifier) }

/-- `video_service::new` makes the channel of the index if there is none. -/
def run (s : State) (thread : Thread) (service : Service) : State :=
  match s.loops thread with
  | some _ => s
  | none => (s.setNotifier service.idx ((s.notifiers service.idx).getD {})).setLoop thread { service }

/-- The wait is left, and `DISPLAY_CONN_IDS` loses the display. -/
def leave (s : State) (thread : Thread) (l : Loop) : State :=
  { s.setLoop thread { l with phase := .capturing } with
    displayConnIds := s.displayConnIds.erase l.service.idx
    exits := ⟨l.sendConnIds, l.notified, l.late⟩ :: s.exits }

/-- `try_wait_next` has returned: the wait is left if enough connections have fetched. -/
def check (s : State) (thread : Thread) (l : Loop) : State :=
  if l.sendConnIds.card ≤ l.fetchedConnIds.card then s.leave thread l
  else s.setLoop thread { l with phase := .waiting }

/-- `VideoFrameController::set_send` -/
def setSend (s : State) (thread : Thread) (l : Loop) (connIds : Finset ConnId) : State :=
  let l := { l with phase := .waiting, fetchedConnIds := ∅, late := false }
  if connIds = ∅ then s.setLoop thread l
  else
    { s.setLoop thread { l with sendConnIds := connIds } with
      displayConnIds := s.displayConnIds.insert l.service.idx connIds }

/-- The loop goes on as long as the three seconds are not over. `try_wait_next` returns
    at once when there is nobody to wait for, and else waits for the lock of the receiver. -/
def tryWaitNext (s : State) (thread : Thread) (l : Loop) : State :=
  if l.late then s.leave thread l
  else if l.sendConnIds = ∅ then s.check thread l
  else
    match s.notifiers l.service.idx with
    | none => s.check thread l
    | some notifier =>
        match notifier.holder with
        | some _ => s
        | none =>
            (s.setNotifier l.service.idx { notifier with holder := some thread }).setLoop thread
              { l with phase := .receiving }

/-- A notification is taken from the channel. -/
def take (s : State) (thread : Thread) (l : Loop) (notifier : Notifier) (n : Notification)
    (rest : List Notification) : State :=
  { (s.setNotifier l.service.idx { notifier with queue := rest }).setLoop thread
      { l with phase := .draining, fetchedConnIds := insert n.connId l.fetchedConnIds } with
    consumed := (l.service, n) :: s.consumed }

def recv (s : State) (thread : Thread) (l : Loop) : State :=
  match s.notifiers l.service.idx with
  | some notifier =>
      match notifier.queue with
      | n :: rest => s.take thread l notifier n rest
      | [] => s
  | none => s

def drain (s : State) (thread : Thread) (l : Loop) : State :=
  match s.notifiers l.service.idx with
  | some notifier =>
      match notifier.queue with
      | n :: rest => s.take thread l notifier n rest
      | [] => (s.setNotifier l.service.idx { notifier with holder := none }).check thread l
  | none => s

/-- Dropping `Raii` takes the display out of `DISPLAY_CONN_IDS`. -/
def stop (s : State) (thread : Thread) (l : Loop) : State :=
  { s with
    loops := Function.update s.loops thread none
    displayConnIds := s.displayConnIds.erase l.service.idx }

/-- A notification goes into the channel of its index, if there is one. -/
def send (s : State) (n : Notification) : State :=
  match s.notifiers n.service.idx with
  | some notifier =>
      { s.setNotifier n.service.idx { notifier with queue := notifier.queue ++ [n] } with
        loops := fun thread => (s.loops thread).map (·.hears n) }
  | none => s

/-- `vec_display_idx` -/
def displaysOf (s : State) (connId : ConnId) : List Nat :=
  (s.displayConnIds.entries.filter (connId ∈ ·.2)).map (·.1)

section Step

-- `video_source()` of each connection: it views monitors or cameras
variable (videoSource : ConnId → VideoSource)

def sendAll (s : State) (connId : ConnId) (displays : List Nat) : State :=
  displays.foldl (fun s idx => s.send ⟨connId, ⟨videoSource connId, idx⟩⟩) s

/-- The step of a thread, where its loop is. -/
def advance (s : State) (thread : Thread) (f : Loop → State) (p : Phase → Bool) : State :=
  match s.loops thread with
  | some l => if p l.phase then f l else s
  | none => s

def step (s : State) : Event → State
  | .run thread service => s.run thread service
  | .frame thread connIds =>
      s.advance thread
        (fun l => s.setLoop thread { l with phase := .sent connIds, sendConnIds := ∅, notified := ∅ })
        (· = .capturing)
  | .setSend thread =>
      match s.loops thread with
      | some l =>
          match l.phase with
          | .sent connIds => s.setSend thread l connIds
          | _ => s
      | none => s
  | .tryWaitNext thread => s.advance thread (s.tryWaitNext thread) (· = .waiting)
  | .recv thread => s.advance thread (s.recv thread) (· = .receiving)
  | .timeout thread =>
      s.advance thread (fun l => s.setLoop thread { l with phase := .draining }) (· = .receiving)
  | .drain thread => s.advance thread (s.drain thread) (· = .draining)
  | .elapse thread => s.advance thread (fun l => s.setLoop thread { l with late := true }) (·.inWait)
  | .stop thread => s.advance thread (s.stop thread) (!·.holdsReceiver)
  | .notify connId displayIdx => s.send ⟨connId, ⟨videoSource connId, displayIdx⟩⟩
  | .collect connId => { s with collected := (connId, s.displaysOf connId) :: s.collected }
  | .notifyCollected connId displays =>
      if (connId, displays) ∈ s.collected then
        { s.sendAll videoSource connId displays with
          collected := s.collected.erase (connId, displays) }
      else s

end Step

/-- The waits left in time were left when everybody had notified, and no service has taken
    a notification that was meant for another. -/
def Paced (s : State) : Prop :=
  (∀ e ∈ s.exits, e.late = false → e.sendConnIds ⊆ e.notified) ∧
    ∀ taken ∈ s.consumed, taken.2.service = taken.1

/-- Taking the notification does not mislead the loop: it is for this service, and unless the
    wait may be left anyway, it is from a connection that is waited for and has notified. -/
def Counts (l : Loop) (n : Notification) : Prop :=
  n.service = l.service ∧
    (l.late = true ∨ l.sendConnIds ⊆ l.notified ∨ n.connId ∈ l.sendConnIds ∧ n.connId ∈ l.notified)

/-- The notification comes to a channel whose receiver is held, if at all, by a loop of
    its service that waits for its connection. -/
def Awaited (s : State) (n : Notification) : Prop :=
  ∀ notifier ∈ s.notifiers n.service.idx, ∀ thread ∈ notifier.holder, ∀ l ∈ s.loops thread,
    n.service = l.service ∧
      (l.late = true ∨ l.sendConnIds ⊆ insert n.connId l.notified ∨ n.connId ∈ l.sendConnIds)

/-- A loop that gets the receiver finds nothing in the channel that would mislead it, and
    nothing comes to it meanwhile. -/
def InTurn (videoSource : ConnId → VideoSource) (s : State) : Event → Prop
  | .tryWaitNext thread => ∀ l ∈ s.loops thread, l.phase = .waiting → l.late = false →
      l.sendConnIds ≠ ∅ → ∀ notifier ∈ s.notifiers l.service.idx, notifier.holder = none →
        ∀ n ∈ notifier.queue, Counts l n
  | .notify connId displayIdx => s.Awaited ⟨connId, ⟨videoSource connId, displayIdx⟩⟩
  | .notifyCollected connId displays => ∀ idx ∈ displays, s.Awaited ⟨connId, ⟨videoSource connId, idx⟩⟩
  | _ => True

instance (l : Loop) (n : Notification) : Decidable (Counts l n) :=
  inferInstanceAs (Decidable (_ ∧ (_ ∨ _ ∨ _ ∧ _)))

instance (s : State) (n : Notification) : Decidable (Awaited s n) :=
  inferInstanceAs (Decidable (∀ notifier ∈ s.notifiers n.service.idx, ∀ thread ∈ notifier.holder,
    ∀ l ∈ s.loops thread, _ ∧ (_ ∨ _ ∨ _)))

instance (videoSource : ConnId → VideoSource) (s : State) :
    (e : Event) → Decidable (InTurn videoSource s e)
  | .tryWaitNext thread =>
      inferInstanceAs
        (Decidable (∀ l ∈ s.loops thread, _ → _ → _ → ∀ notifier ∈ s.notifiers l.service.idx,
        _ → ∀ n ∈ notifier.queue, Counts l n))
  | .notify _ _ => inferInstanceAs (Decidable (Awaited _ _))
  | .notifyCollected _ displays => inferInstanceAs (Decidable (∀ idx ∈ displays, Awaited _ _))
  | .run .. | .frame .. | .setSend _ | .recv _ | .timeout _ | .drain _ | .elapse _ | .stop _
  | .collect _ => inferInstanceAs (Decidable True)

/-! ## Runs -/

variable {videoSource : ConnId → VideoSource} {s s' : State} {thread : Thread} {l l' : Loop}
  {notifier : Notifier} {n : Notification} {idx : Nat} {n' : Notification}

/-- Unless the wait may be left anyway, those who have fetched are waited for and have
    notified. -/
def Accounted (l : Loop) : Prop :=
  l.late = true ∨ l.sendConnIds ⊆ l.notified ∨
    l.fetchedConnIds ⊆ l.sendConnIds ∧ l.fetchedConnIds ⊆ l.notified

/-- A loop in `try_wait_next` holds the receiver, and nothing in the channel misleads it. -/
def Held (s : State) (thread : Thread) (l : Loop) : Prop :=
  l.phase.holdsReceiver = true → ∃ notifier ∈ s.notifiers l.service.idx,
    notifier.holder = some thread ∧ ∀ n ∈ notifier.queue, Counts l n

structure Inv (s : State) : Prop where
  accounted : ∀ thread, ∀ l ∈ s.loops thread, Accounted l
  held : ∀ thread, ∀ l ∈ s.loops thread, Held s thread l
  paced : Paced s

theorem inv_start : Inv {} where
  accounted := by simp
  held := by simp
  paced := by simp [Paced]

/-- As many have fetched as are waited for, so they are the same. -/
theorem Accounted.all_notified (accounted : Accounted l) (inTime : l.late = false)
    (enough : l.sendConnIds.card ≤ l.fetchedConnIds.card) : l.sendConnIds ⊆ l.notified := by
  rcases accounted with late | all | ⟨sent, notified⟩
  · simp [late] at inTime
  · exact all
  · rw [← Finset.eq_of_subset_of_card_le sent enough]
    exact notified

theorem Accounted.take (accounted : Accounted l) (counts : Counts l n) (phase : Phase) :
    Accounted { l with phase, fetchedConnIds := insert n.connId l.fetchedConnIds } := by
  rcases counts.2 with late | all | ⟨awaited, notified⟩
  · exact .inl late
  · exact .inr (.inl all)
  · rcases accounted with late | all | fetched
    · exact .inl late
    · exact .inr (.inl all)
    · exact .inr
        (.inr ⟨Finset.insert_subset awaited fetched.1, Finset.insert_subset notified fetched.2⟩)

/-- No channel changes whose receiver another thread holds. -/
def Spares (s s' : State) (thread : Thread) : Prop :=
  ∀ idx, ∀ notifier ∈ s.notifiers idx, ∀ other ∈ notifier.holder, other ≠ thread →
    s'.notifiers idx = some notifier

theorem spares_self : Spares s s thread := fun _ _ found _ _ _ => found

/-- The channel of the loop changes while its thread holds the receiver or nobody does. -/
theorem spares_setNotifier
    (free : ∀ old ∈ s.notifiers idx, old.holder = none ∨ old.holder = some thread) :
    Spares s (s.setNotifier idx notifier) thread := by
  intro idx' old found other holder differs
  by_cases same : idx' = idx
  · subst same
    rcases free old found with none | own
    · simp [none] at holder
    · simp only [own, Option.mem_some_iff] at holder
      exact absurd holder.symm differs
  · simpa [setNotifier, same] using found

/-- A step of a thread: its loop changes, and no channel that another thread holds. -/
structure Moves (s s' : State) (thread : Thread) (l : Option Loop) : Prop where
  loops : s'.loops = Function.update s.loops thread l
  spares : Spares s s' thread

theorem moves_setLoop : Moves s (s.setLoop thread l) thread (some l) := ⟨rfl, spares_self⟩

theorem moves_setNotifier
    (free : ∀ old ∈ s.notifiers idx, old.holder = none ∨ old.holder = some thread) :
    Moves s ((s.setNotifier idx notifier).setLoop thread l) thread (some l) :=
  ⟨rfl, spares_setNotifier free⟩

theorem Moves.inv {l : Option Loop} (moves : Moves s s' thread l) (inv : Inv s)
    (accounted : ∀ l' ∈ l, Accounted l') (held : ∀ l' ∈ l, Held s' thread l') (paced : Paced s') :
    Inv s' where
  accounted other l' is := by
    rw [moves.loops] at is
    by_cases same : other = thread
    · rw [same, Function.update_self] at is
      exact accounted l' is
    · rw [Function.update_of_ne same] at is
      exact inv.accounted other l' is
  held other l' is := by
    rw [moves.loops] at is
    by_cases same : other = thread
    · rw [same, Function.update_self] at is
      exact same ▸ held l' is
    · rw [Function.update_of_ne same] at is
      intro holds
      obtain ⟨notifier, found, holder, counts⟩ := inv.held other l' is holds
      exact ⟨notifier, moves.spares _ notifier found other holder same, holder, counts⟩
  paced := paced

/-- The loop goes to a place where it does not hold the receiver. -/
theorem Moves.inv_outside (moves : Moves s s' thread (some l)) (inv : Inv s) (accounted : Accounted l)
    (outside : l.phase.holdsReceiver = false) (paced : Paced s') : Inv s' := by
  apply moves.inv inv _ _ paced
  · simpa using accounted
  · intro l' is holds
    cases is
    simp [outside] at holds

theorem inv_leave (same : s'.loops = s.loops) (spares : Spares s s' thread) (paced : Paced s')
    (inv : Inv s) (accounted : Accounted l)
    (left : l.late = false → l.sendConnIds ⊆ l.notified) : Inv (s'.leave thread l) := by
  have moves : Moves s (s'.leave thread l) thread (some { l with phase := .capturing }) :=
    ⟨by simp [leave, setLoop, same], spares⟩
  apply moves.inv_outside inv accounted rfl
  constructor
  · intro e exit
    rcases List.mem_cons.mp exit with rfl | before
    · exact left
    · exact paced.1 e before
  · exact paced.2

theorem inv_check (same : s'.loops = s.loops) (spares : Spares s s' thread) (paced : Paced s')
    (inv : Inv s) (accounted : Accounted l) : Inv (s'.check thread l) := by
  unfold check
  split
  case isTrue enough =>
    exact inv_leave same spares paced inv accounted fun inTime => accounted.all_notified inTime enough
  case isFalse =>
    have moves : Moves s (s'.setLoop thread { l with phase := .waiting }) thread
        (some { l with phase := .waiting }) := ⟨by simp [setLoop, same], spares⟩
    exact moves.inv_outside inv accounted rfl paced

theorem inv_setLoop (inv : Inv s) (accounted : Accounted l) (outside : l.phase.holdsReceiver = false) :
    Inv (s.setLoop thread l) :=
  moves_setLoop.inv_outside inv accounted outside inv.paced

theorem inv_run {service : Service} (inv : Inv s) : Inv (s.run thread service) := by
  unfold run
  split
  case h_1 => exact inv
  case h_2 =>
    have moves : Moves s ((s.setNotifier service.idx ((s.notifiers service.idx).getD {})).setLoop thread
        { service }) thread (some { service }) := by
      refine ⟨rfl, ?_⟩
      intro idx old found other holder differs
      by_cases same : idx = service.idx
      · subst same
        simp [setNotifier, setLoop, Option.mem_def.mp found]
      · simpa [setNotifier, setLoop, same] using found
    exact moves.inv_outside inv (.inr (.inl (by simp))) rfl inv.paced

theorem inv_setSend {connIds : Finset ConnId} (inv : Inv s) : Inv (s.setSend thread l connIds) := by
  unfold setSend
  split
  · exact inv_setLoop inv (.inr (.inr (by simp))) rfl
  · exact Moves.inv_outside ⟨rfl, spares_self⟩ inv (.inr (.inr (by simp))) rfl inv.paced

/-- The loop that gets the receiver finds only what counts. -/
theorem inv_tryWaitNext (inv : Inv s) (accounted : Accounted l)
    (counts : l.late = false → l.sendConnIds ≠ ∅ → ∀ notifier ∈ s.notifiers l.service.idx,
      notifier.holder = none → ∀ n ∈ notifier.queue, Counts l n) : Inv (s.tryWaitNext thread l) := by
  unfold tryWaitNext
  split
  case isTrue late =>
    exact inv_leave rfl spares_self inv.paced inv accounted (by simp [late])
  case isFalse inTime =>
    simp only [Bool.not_eq_true] at inTime
    split
    case isTrue => exact inv_check rfl spares_self inv.paced inv accounted
    case isFalse some_ =>
      cases found : s.notifiers l.service.idx with
      | none => exact inv_check rfl spares_self inv.paced inv accounted
      | some notifier =>
          cases holder : notifier.holder with
          | some _ => simpa [holder] using inv
          | none =>
              simp only [holder]
              have free : ∀ old ∈ s.notifiers l.service.idx,
                  old.holder = none ∨ old.holder = some thread := by
                simp [found, holder]
              apply (moves_setNotifier free).inv inv _ _ inv.paced
              · simpa [Accounted] using accounted
              · intro l' is holds
                cases is
                exact ⟨{ notifier with holder := some thread }, by simp [setLoop, setNotifier], rfl,
                  counts inTime some_ notifier found holder⟩

theorem Held.holder (held : Held s thread l) (holds : l.phase.holdsReceiver = true)
    (found : s.notifiers l.service.idx = some notifier) :
    notifier.holder = some thread ∧ ∀ n ∈ notifier.queue, Counts l n := by
  obtain ⟨notifier', found', holder, counts⟩ := held holds
  rw [Option.mem_def, found] at found'
  cases found'
  exact ⟨holder, counts⟩

theorem inv_take {rest : List Notification} (inv : Inv s) (accounted : Accounted l)
    (found : s.notifiers l.service.idx = some notifier) (holder : notifier.holder = some thread)
    (counts : ∀ n' ∈ n :: rest, Counts l n') : Inv (s.take thread l notifier n rest) := by
  have here := counts n (by simp)
  have moves : Moves s (s.take thread l notifier n rest) thread
      (some { l with phase := .draining, fetchedConnIds := insert n.connId l.fetchedConnIds }) :=
    ⟨rfl, spares_setNotifier (by simp [found, holder])⟩
  apply moves.inv inv
  · intro l' is
    cases is
    exact accounted.take here .draining
  · intro l' is holds
    cases is
    refine ⟨{ notifier with queue := rest }, by simp [State.take, setLoop, setNotifier], holder, ?_⟩
    intro n' member
    exact counts n' (List.mem_cons_of_mem n member)
  · constructor
    · exact inv.paced.1
    · intro taken member
      rcases List.mem_cons.mp member with rfl | before
      · exact here.1
      · exact inv.paced.2 taken before

theorem inv_recv (inv : Inv s) (accounted : Accounted l) (held : Held s thread l)
    (holds : l.phase.holdsReceiver = true) : Inv (s.recv thread l) := by
  unfold recv
  split
  case h_1 notifier found =>
    obtain ⟨holder, counts⟩ := held.holder holds found
    split
    case h_1 n rest queue => exact inv_take inv accounted found holder (queue ▸ counts)
    case h_2 => exact inv
  case h_2 => exact inv

theorem inv_drain (inv : Inv s) (accounted : Accounted l) (held : Held s thread l)
    (holds : l.phase.holdsReceiver = true) : Inv (s.drain thread l) := by
  unfold drain
  split
  case h_1 notifier found =>
    obtain ⟨holder, counts⟩ := held.holder holds found
    split
    case h_1 n rest queue => exact inv_take inv accounted found holder (queue ▸ counts)
    case h_2 =>
      have free : ∀ old ∈ s.notifiers l.service.idx, old.holder = none ∨ old.holder = some thread := by
        simp [found, holder]
      exact inv_check (s := s) rfl (spares_setNotifier free) inv.paced inv accounted
  case h_2 => exact inv

theorem inv_stop (inv : Inv s) : Inv (s.stop thread l) :=
  Moves.inv (l := none) ⟨rfl, spares_self⟩ inv (by simp) (by simp) inv.paced

/-! What a notification changes -/

theorem hears_eq : l.hears n = { l with notified := (l.hears n).notified } := by
  unfold Loop.hears
  split <;> rfl

theorem notified_hears : l.notified ⊆ (l.hears n).notified := by
  unfold Loop.hears
  split
  case isTrue => exact Finset.subset_insert ..
  case isFalse => exact subset_rfl

theorem hears_own (own : n.service = l.service) :
    (l.hears n).notified = insert n.connId l.notified := by
  simp [Loop.hears, own]

theorem Accounted.hears (accounted : Accounted l) : Accounted (l.hears n) := by
  rw [hears_eq]
  rcases accounted with late | all | ⟨sent, notified⟩
  · exact .inl late
  · exact .inr (.inl (all.trans notified_hears))
  · exact .inr (.inr ⟨sent, notified.trans notified_hears⟩)

theorem Counts.hears (counts : Counts l n') : Counts (l.hears n) n' := by
  rw [hears_eq]
  refine ⟨counts.1, ?_⟩
  rcases counts.2 with late | all | ⟨awaited, notified⟩
  · exact .inl late
  · exact .inr (.inl (all.trans notified_hears))
  · exact .inr (.inr ⟨awaited, notified_hears notified⟩)

theorem Held.hears (held : Held s thread l) (is : s.loops thread = some l) (awaited : s.Awaited n)
    (found : s.notifiers n.service.idx = some notifier) :
    Held (s.send n) thread (l.hears n) := by
  rw [hears_eq]
  intro holds
  obtain ⟨old, here, holder, counts⟩ := held holds
  by_cases same : l.service.idx = n.service.idx
  · rw [same, Option.mem_def, found] at here
    cases here
    obtain ⟨own, waits⟩ := awaited notifier found thread holder l is
    refine ⟨{ notifier with queue := notifier.queue ++ [n] },
      by simp [State.send, found, same, setNotifier],
      holder, ?_⟩
    intro n' member
    rw [← hears_eq]
    rcases List.mem_append.mp member with before | new
    · exact (counts n' before).hears
    · rw [List.mem_singleton] at new
      subst new
      rw [hears_eq, Counts, hears_own own]
      refine ⟨own, ?_⟩
      rcases waits with late | all | awaits
      · exact .inl late
      · exact .inr (.inl all)
      · exact .inr (.inr ⟨awaits, Finset.mem_insert_self ..⟩)
  · refine ⟨old, by simpa [State.send, found, setNotifier, same] using here, holder, ?_⟩
    intro n' member
    rw [← hears_eq]
    exact (counts n' member).hears

theorem inv_send (inv : Inv s) (awaited : s.Awaited n) : Inv (s.send n) := by
  cases found : s.notifiers n.service.idx with
  | none => simpa [State.send, found] using inv
  | some notifier =>
      have heard : (s.send n).loops = fun thread => (s.loops thread).map (·.hears n) := by
        simp [State.send, found]
      have paced : Paced (s.send n) := by
        simp only [State.send, found]
        exact inv.paced
      refine ⟨?_, ?_, paced⟩
      · intro thread l' is
        rw [heard] at is
        obtain ⟨l, old, rfl⟩ := Option.map_eq_some_iff.mp is
        exact (inv.accounted thread l old).hears
      · intro thread l' is
        rw [heard] at is
        obtain ⟨l, old, rfl⟩ := Option.map_eq_some_iff.mp is
        exact (inv.held thread l old).hears old awaited found

/-- One notification more does not change whether another is awaited. -/
theorem Awaited.send (awaited : s.Awaited n') : (s.send n).Awaited n' := by
  cases found : s.notifiers n.service.idx with
  | none => simpa [State.send, found] using awaited
  | some notifier =>
      intro new is thread holder l' loop
      obtain ⟨old, before, same⟩ : ∃ old ∈ s.notifiers n'.service.idx, old.holder = new.holder := by
        by_cases same : n'.service.idx = n.service.idx
        · rw [same] at is ⊢
          simp only [State.send, found, setNotifier, Function.update_self, Option.mem_some_iff] at is
          exact ⟨notifier, found, is ▸ rfl⟩
        · simp only [State.send, found, setNotifier, Function.update_of_ne same] at is
          exact ⟨new, is, rfl⟩
      simp only [State.send, found, Option.mem_def, Option.map_eq_some_iff] at loop
      obtain ⟨l, loop, rfl⟩ := loop
      obtain ⟨own, waits⟩ := awaited old before thread (same ▸ holder) l loop
      rw [hears_eq]
      refine ⟨own, ?_⟩
      rcases waits with late | all | awaits
      · exact .inl late
      · exact .inr (.inl (all.trans (Finset.insert_subset_insert _ notified_hears)))
      · exact .inr (.inr awaits)

theorem inv_sendAll {connId : ConnId} {displays : List Nat} (inv : Inv s)
    (awaited : ∀ idx ∈ displays, s.Awaited ⟨connId, ⟨videoSource connId, idx⟩⟩) :
    Inv (s.sendAll videoSource connId displays) := by
  induction displays generalizing s with
  | nil => exact inv
  | cons idx rest ih =>
      apply ih (inv_send inv (awaited idx (by simp)))
      intro idx' member
      exact (awaited idx' (by simp [member])).send

theorem inv_advance {f : Loop → State} {p : Phase → Bool} (inv : Inv s)
    (step : ∀ l, s.loops thread = some l → p l.phase = true → Inv (f l)) :
    Inv (s.advance thread f p) := by
  unfold advance
  split
  case h_1 l is =>
    split
    case isTrue here => exact step l is here
    case isFalse => exact inv
  case h_2 => exact inv

theorem inv_step (e : Event) (inv : Inv s) (inTurn : s.InTurn videoSource e) :
    Inv (s.step videoSource e) := by
  cases e with
  | run thread service => exact inv_run inv
  | frame thread connIds =>
      simp only [step]
      apply inv_advance inv
      intro l is phase
      exact inv_setLoop inv (.inr (.inl (by simp))) rfl
  | setSend thread =>
      simp only [step]
      split
      case h_1 =>
        split
        case h_1 => exact inv_setSend inv
        case h_2 => exact inv
      case h_2 => exact inv
  | tryWaitNext thread =>
      simp only [step]
      apply inv_advance inv
      intro l is phase
      exact inv_tryWaitNext inv (inv.accounted thread l is) (inTurn l is (by simpa using phase))
  | recv thread =>
      simp only [step]
      apply inv_advance inv
      intro l is phase
      apply inv_recv inv (inv.accounted thread l is) (inv.held thread l is)
      simp_all [Phase.holdsReceiver]
  | timeout thread =>
      simp only [step]
      apply inv_advance inv
      intro l is phase
      apply moves_setLoop.inv inv _ _ inv.paced
      · intro l' same
        cases same
        exact inv.accounted thread l is
      · intro l' same holds
        cases same
        exact inv.held thread l is (by simp_all [Phase.holdsReceiver])
  | drain thread =>
      simp only [step]
      apply inv_advance inv
      intro l is phase
      apply inv_drain inv (inv.accounted thread l is) (inv.held thread l is)
      simp_all [Phase.holdsReceiver]
  | elapse thread =>
      simp only [step]
      apply inv_advance inv
      intro l is phase
      apply moves_setLoop.inv inv _ _ inv.paced
      · intro l' same
        cases same
        exact .inl rfl
      · intro l' same holds
        cases same
        obtain ⟨notifier, found, holder, counts⟩ := inv.held thread l is holds
        exact ⟨notifier, found, holder, fun n member => ⟨(counts n member).1, .inl rfl⟩⟩
  | stop thread =>
      simp only [step]
      apply inv_advance inv
      intro l is phase
      exact inv_stop inv
  | notify connId displayIdx => exact inv_send inv inTurn
  | collect connId => exact ⟨inv.accounted, inv.held, inv.paced⟩
  | notifyCollected connId displays =>
      simp only [step]
      split
      case isTrue =>
        have sent := inv_sendAll inv inTurn
        exact ⟨sent.accounted, sent.held, sent.paced⟩
      case isFalse => exact inv

/-- Frame pacing: in a run whose loops find in the channel only what counts, no wait is left
    in time before everybody has notified, and no service takes what is meant for another. -/
theorem pacing_waits {events : List Event}
    (inTurn : Along (step videoSource) (InTurn videoSource) {} events) :
    Always (step videoSource) Paced {} events :=
  (Runs.always_of_along (fun _ e inv here => inv_step e inv here) inv_start inTurn).mono
    fun _ inv => inv.paced

/-- A connection that fetches a frame in time. -/
theorem pacing_waits_fetched : Always (step fun _ => .monitor) Paced {}
    [.run 0 ⟨.monitor, 0⟩, .frame 0 {1}, .setSend 0, .tryWaitNext 0, .notify 1 0, .recv 0, .drain 0] :=
  pacing_waits (by decide +kernel)

instance : DecidablePred Paced := fun s =>
  have : Decidable (∀ e ∈ s.exits, e.late = false → e.sendConnIds ⊆ e.notified) :=
    List.decidableBAll _ _
  have : Decidable (∀ taken ∈ s.consumed, taken.2.service = taken.1) := List.decidableBAll _ _
  inferInstanceAs (Decidable (_ ∧ _))

/-- The connection has fetched the first frame too late, and that releases the wait for
    the second one at once. -/
theorem late_notification_releases :
    ¬Always (step fun _ => .monitor) Paced {}
      [.run 0 ⟨.monitor, 0⟩, .frame 0 {1}, .setSend 0, .tryWaitNext 0, .timeout 0, .elapse 0, .drain 0,
        .tryWaitNext 0, .notify 1 0, .frame 0 {1}, .setSend 0, .tryWaitNext 0, .recv 0, .drain 0] := by
  decide +kernel

/-- Connection 2 views the camera of index 0, and the monitor takes its notification. -/
theorem foreign_notification_taken :
    ¬Always (step fun connId => if connId = 2 then .camera else .monitor) Paced {}
      [.run 0 ⟨.monitor, 0⟩, .run 1 ⟨.camera, 0⟩, .frame 0 {1}, .setSend 0, .tryWaitNext 0,
        .notify 2 0, .recv 0, .drain 0] := by
  decide +kernel

end State

end RemoteControl.Video.FramePacing
