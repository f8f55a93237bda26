import RemoteControl.Host.ServiceTmpl

/-! # What a new subscriber receives first

Dropping the `ServiceSwap` lets everyone in who waits, whether the callback has succeeded
or not: the services for videos and displays fail on purpose when there is someone new.
Who waited from before the callback sent anything has then received all that it sent; this
is so for every callback.
-/

namespace RemoteControl.Host

open Runs (exec Always Along)

variable {Msg : Type*}

/-- The messages of the callback among the deliveries through a `ServiceSwap`. -/
def Delivery.ofCallback (callback : Nat) : Delivery Msg → Option Msg
  | .swap sender msg => if sender = callback then some msg else none
  | .broadcast _ => none

def Delivery.isSwap : Delivery Msg → Bool
  | .swap _ _ => true
  | .broadcast _ => false

def Delivery.ofSent (m : Nat × Msg) : Delivery Msg := .swap m.1 m.2

/-- What it received from the callback before anything was broadcast to it. -/
def Subscriber.snapshotOf (sub : Subscriber Msg) (callback : Nat) : List Msg :=
  (sub.received.takeWhile Delivery.isSwap).filterMap (Delivery.ofCallback callback)

namespace Serving

/-- All that the callback sent. -/
def sentBy (s : Serving Msg) (callback : Nat) : List Msg :=
  s.sent.filterMap fun m => if m.1 = callback then some m.2 else none

/-- Some callback that ended after it subscribed has succeeded, and it has received all
    the messages of that callback before anything else. -/
def Served (s : Serving Msg) (sub : Subscriber Msg) : Prop :=
  ∃ e ∈ s.ended.drop sub.ended, e.ok = true ∧ sub.snapshotOf e.callback = s.sentBy e.callback

instance [DecidableEq Msg] (s : Serving Msg) (sub : Subscriber Msg) : Decidable (s.Served sub) :=
  inferInstanceAs (Decidable (∃ _ ∈ _, _))

/-- It was let in when this callback ended. -/
structure AdmittedBy (s : Serving Msg) (e : Ended) (sub : Subscriber Msg) : Prop where
  /-- what had been sent through a `ServiceSwap` since it subscribed comes first -/
  received : ∃ later : List Msg, sub.received =
    ((s.sent.take e.sent).drop sub.joined).map Delivery.ofSent ++ later.map .broadcast
  /-- which is all that the callback sent, if it subscribed before that -/
  whole : (∀ m ∈ s.sent.take sub.joined, m.1 ≠ e.callback) →
    sub.snapshotOf e.callback = s.sentBy e.callback

/-! ## The invariant -/

/-- What is known about a subscriber that waits. -/
structure Waiting (s : Serving Msg) (sub : Subscriber Msg) : Prop where
  ended : sub.ended = s.ended.length
  joined : sub.joined ≤ s.sent.length
  received : sub.received = (s.sent.drop sub.joined).map Delivery.ofSent

/-- What is known about one that was let in. -/
structure LetIn (s : Serving Msg) (sub : Subscriber Msg) (e : Ended) : Prop where
  ended : s.ended[sub.ended]? = some e
  joined : sub.joined ≤ e.sent
  sent : e.sent ≤ s.sent.length
  received : ∃ later : List Msg, sub.received =
    ((s.sent.take e.sent).drop sub.joined).map Delivery.ofSent ++ later.map .broadcast

structure Inv (s : Serving Msg) : Prop where
  needSnapshot : s.service.needSnapshot = true
  waiting : ∀ sub ∈ s.service.newSubscribes.values, s.Waiting sub
  letIn : ∀ sub ∈ s.service.subscribes.values, ∃ e, s.LetIn sub e
  /-- callbacks are numbered, and send nothing once they have ended -/
  begun : ∀ callback ∈ s.swaps, callback < s.begun
  over_ : ∀ e ∈ s.ended, e.callback < s.begun ∧ e.callback ∉ s.swaps
  silent : ∀ e ∈ s.ended, ∀ m ∈ s.sent.drop e.sent, m.1 ≠ e.callback

theorem inv_start : Inv (start true : Serving Msg) where
  needSnapshot := rfl
  waiting _ member := by cases member
  letIn _ member := by cases member
  begun _ member := by cases member
  over_ _ member := by cases member
  silent _ member := by cases member

section Step

variable {s : Serving Msg}

/-- A step that only changes the service. -/
theorem Inv.of_service (inv : s.Inv) {svc : ServiceTmpl Msg} (needed : svc.needSnapshot = true)
    (waiting : ∀ sub ∈ svc.newSubscribes.values, s.Waiting sub)
    (letIn : ∀ sub ∈ svc.subscribes.values, ∃ e, s.LetIn sub e) : Inv { s with service := svc } where
  needSnapshot := needed
  waiting sub member := by
    obtain ⟨ended, joined, received⟩ := waiting sub member
    exact ⟨ended, joined, received⟩
  letIn sub member := by
    obtain ⟨e, ended, joined, sent, received⟩ := letIn sub member
    exact ⟨e, ended, joined, sent, received⟩
  begun := inv.begun
  over_ := inv.over_
  silent := inv.silent

theorem waiting_joining (id : ConnId) : s.Waiting (s.joining id) where
  ended := rfl
  joined := le_rfl
  received := by
    have all : s.sent.drop s.sent.length = [] := List.drop_length
    unfold joining
    rw [all]
    rfl

variable (inv : s.Inv)

include inv

theorem Inv.onSubscribe (id : ConnId) :
    Inv { s with service := s.service.onSubscribe (s.joining id) } := by
  unfold ServiceTmpl.onSubscribe
  split_ifs with there needed
  · exact inv
  · refine inv.of_service inv.needSnapshot (fun sub member => ?_) inv.letIn
    rcases Subscribers.mem_insert.mp member with rfl | ⟨old, -⟩
    · exact waiting_joining id
    · exact inv.waiting sub old
  · exact absurd inv.needSnapshot needed

theorem Inv.onUnsubscribe (id : ConnId) :
    Inv { s with service := s.service.onUnsubscribe id } := by
  unfold ServiceTmpl.onUnsubscribe
  split_ifs
  · exact inv.of_service inv.needSnapshot inv.waiting fun sub member =>
      inv.letIn sub (Subscribers.mem_remove.mp member).1
  · exact inv.of_service inv.needSnapshot
      (fun sub member => inv.waiting sub (Subscribers.mem_remove.mp member).1) inv.letIn

theorem Inv.snapshot :
    Inv { s with begun := s.begun + 1, swaps := s.begun :: s.swaps } where
  needSnapshot := inv.needSnapshot
  waiting sub member := by
    obtain ⟨ended, joined, received⟩ := inv.waiting sub member
    exact ⟨ended, joined, received⟩
  letIn sub member := by
    obtain ⟨e, ended, joined, sent, received⟩ := inv.letIn sub member
    exact ⟨e, ended, joined, sent, received⟩
  begun callback member := by
    rcases List.mem_cons.mp member with rfl | old
    · exact Nat.lt_succ_self _
    · exact Nat.lt_succ_of_lt (inv.begun callback old)
  over_ e member := by
    obtain ⟨earlier, gone⟩ := inv.over_ e member
    refine ⟨Nat.lt_succ_of_lt earlier, fun now => ?_⟩
    rcases List.mem_cons.mp now with same | old
    · exact absurd same (Nat.ne_of_lt earlier)
    · exact gone old
  silent := inv.silent

/-- What a callback sends reaches everyone who waits. -/
theorem Inv.swapSend {callback : Nat} (holds : callback ∈ s.swaps) (msg : Msg) :
    Inv ({ s with sent := s.sent ++ [(callback, msg)] }.sends
      (s.service.sendNewSubscribes callback msg)).1 where
  needSnapshot := inv.needSnapshot
  waiting sub member := by
    have sentTo : sub ∈ (s.service.newSubscribes.sendAll (.swap callback msg) fun _ => true).1.values :=
      member
    obtain ⟨old, there, rfl⟩ := s.service.newSubscribes.mem_sendAll sentTo
    obtain ⟨ended, joined, received⟩ := inv.waiting old there
    refine ⟨ended, joined.trans (by simp [sends]), ?_⟩
    simp only [sends, if_true, Subscriber.send, List.drop_append_of_le_length joined, List.map_append,
      received]
    rfl
  letIn sub member := by
    obtain ⟨e, ended, joined, sent, received⟩ := inv.letIn sub member
    refine ⟨e, ended, joined, sent.trans (by simp [sends]), ?_⟩
    simpa only [sends, List.take_append_of_le_length sent] using received
  begun := inv.begun
  over_ := inv.over_
  silent e member m later := by
    by_cases within : e.sent ≤ s.sent.length
    · simp only [sends, List.drop_append_of_le_length within, List.mem_append,
        List.mem_singleton] at later
      rcases later with old | rfl
      · exact inv.silent e member m old
      · exact fun same => (inv.over_ e member).2 (same ▸ holds)
    · have none_ : (s.sent ++ [(callback, msg)]).drop e.sent = [] := by
        rw [List.drop_eq_nil_iff, List.length_append, List.length_singleton]
        omega
      simp only [sends, none_, List.not_mem_nil] at later

/-- Everyone who waits is let in. -/
theorem Inv.swapDrop {callback : Nat} (holds : callback ∈ s.swaps) (ok : Bool) :
    Inv { s with
      service := s.service.swapNewSubscribes
      swaps := s.swaps.filter (· ≠ callback)
      ended := s.ended ++ [⟨callback, ok, s.sent.length⟩] } where
  needSnapshot := inv.needSnapshot
  waiting _ member := by cases member
  letIn sub member := by
    rcases Subscribers.mem_insertAll member with waits | old
    · obtain ⟨ended, joined, received⟩ := inv.waiting sub waits
      refine ⟨⟨callback, ok, s.sent.length⟩, ?_, joined, le_rfl, [], ?_⟩
      · simp only [ended, List.getElem?_concat_length]
      · simpa only [List.take_length, List.map_nil, List.append_nil] using received
    · obtain ⟨e, ended, joined, sent, received⟩ := inv.letIn sub old
      refine ⟨e, ?_, joined, sent, received⟩
      exact (List.getElem?_append_left (List.getElem?_eq_some_iff.mp ended).1).trans ended
  begun other member := inv.begun other (List.mem_filter.mp member).1
  over_ e member := by
    rcases List.mem_append.mp member with old | new
    · obtain ⟨earlier, gone⟩ := inv.over_ e old
      exact ⟨earlier, fun now => gone (List.mem_filter.mp now).1⟩
    · cases List.mem_singleton.mp new
      refine ⟨inv.begun callback holds, fun now => ?_⟩
      exact of_decide_eq_true (List.mem_filter.mp now).2 rfl
  silent e member m later := by
    rcases List.mem_append.mp member with old | new
    · exact inv.silent e old m later
    · cases List.mem_singleton.mp new
      simp only [List.drop_length, List.not_mem_nil] at later

theorem Inv.broadcast (msg : Msg) (wanted : ConnId → Bool) :
    Inv (s.sends (s.service.broadcast msg wanted)).1 := by
  refine inv.of_service inv.needSnapshot inv.waiting fun sub member => ?_
  obtain ⟨old, there, rfl⟩ := Subscribers.mem_sendAll member
  obtain ⟨e, ended, joined, sent, later, received⟩ := inv.letIn old there
  split_ifs
  · refine ⟨e, ended, joined, sent, later ++ [msg], ?_⟩
    simp only [Subscriber.send, received, List.map_append, List.append_assoc]
    rfl
  · exact ⟨e, ended, joined, sent, later, received⟩

theorem Inv.step (e : ServiceEvent Msg) : (s.step e).Inv := by
  unfold Serving.step
  cases e with
  | onSubscribe id => exact inv.onSubscribe id
  | onUnsubscribe id => exact inv.onUnsubscribe id
  | snapshot =>
      simp only [call]
      split_ifs
      · exact inv
      · exact inv.snapshot
  | swapSend callback msg =>
      simp only [call]
      split_ifs with holds
      · exact inv.swapSend holds msg
      · exact inv
  | swapDrop callback ok =>
      simp only [call]
      split_ifs with holds
      · exact inv.swapDrop holds ok
      · exact inv
  | sendShared msg | sendVideoFrameShared msg => exact inv.broadcast msg fun _ => true
  | sendTo msg id => exact inv.broadcast msg (· = id)
  | sendToOthers msg id => exact inv.broadcast msg (· ≠ id)
  | sendWithout msg sub => exact inv.broadcast msg (sub ≠ ·)

end Step

/-- The deliveries before the first broadcast are the snapshots'. -/
theorem snapshotOf_of_received {sub : Subscriber Msg} {first : List (Nat × Msg)} {later : List Msg}
    (received : sub.received = first.map Delivery.ofSent ++ later.map .broadcast) (callback : Nat) :
    sub.snapshotOf callback = first.filterMap fun m => if m.1 = callback then some m.2 else none := by
  have swaps : (first.map Delivery.ofSent ++ later.map Delivery.broadcast).takeWhile Delivery.isSwap =
      first.map Delivery.ofSent := by
    rw [List.takeWhile_append_of_pos]
    · cases later with
      | nil => exact List.append_nil _
      | cons msg rest => exact List.append_nil _
    · intro d member
      obtain ⟨m, -, rfl⟩ := List.mem_map.mp member
      rfl
  rw [Subscriber.snapshotOf, received, swaps, List.filterMap_map]
  rfl

theorem LetIn.admitted {s : Serving Msg} {sub : Subscriber Msg} {e : Ended} (letIn : s.LetIn sub e)
    (silent : ∀ m ∈ s.sent.drop e.sent, m.1 ≠ e.callback) : s.AdmittedBy e sub := by
  obtain ⟨-, joined, -, later, received⟩ := letIn
  refine ⟨⟨later, received⟩, fun early => ?_⟩
  have others {part : List (Nat × Msg)} (silent : ∀ m ∈ part, m.1 ≠ e.callback) :
      (part.filterMap fun m => if m.1 = e.callback then some m.2 else none) = [] := by
    refine List.filterMap_eq_nil_iff.mpr fun m member => ?_
    exact if_neg (silent m member)
  have parts : s.sent = s.sent.take sub.joined ++ (s.sent.take e.sent).drop sub.joined ++
      s.sent.drop e.sent := by
    have front : s.sent.take sub.joined = (s.sent.take e.sent).take sub.joined := by
      rw [List.take_take, min_eq_left joined]
    rw [front, List.take_append_drop, List.take_append_drop]
  rw [snapshotOf_of_received received, sentBy]
  conv_rhs => rw [parts]
  rw [List.filterMap_append, List.filterMap_append, others early, others silent, List.nil_append,
    List.append_nil]

/-- In every run of a service with snapshots a subscriber that receives broadcasts was let
    in by the first callback that ended after it subscribed, and has received what was sent
    through a `ServiceSwap` in between. -/
theorem let_in_by_first_callback (events : List (ServiceEvent Msg)) :
    Always step (fun s => ∀ sub ∈ s.service.subscribes.values,
        ∃ e, s.ended[sub.ended]? = some e ∧ s.AdmittedBy e sub)
      (start true) events := by
  have keep (s : Serving Msg) (e : ServiceEvent Msg) (_ : True) (inv : s.Inv) : (s.step e).Inv :=
    inv.step e
  have always : Always step Inv (start true) events :=
    Runs.always_of_events keep (fun _ _ => trivial) inv_start
  refine always.mono fun s inv sub member => ?_
  obtain ⟨e, letIn⟩ := inv.letIn sub member
  exact ⟨e, letIn.ended, letIn.admitted (inv.silent e (List.mem_of_getElem? letIn.ended))⟩

/-- A callback that fails lets in who waits, and one that succeeds lets in who subscribed
    after it had sent its message. -/
theorem broadcasts_without_snapshot :
    let failed : Serving Nat := exec step (start true)
      [.onSubscribe 1, .snapshot, .swapDrop 0 false, .sendShared 7]
    let late : Serving Nat := exec step (start true)
      [.onSubscribe 1, .snapshot, .swapSend 0 5, .onSubscribe 2, .swapDrop 0 true, .sendShared 7]
    (∃ sub ∈ failed.service.subscribes.values, .broadcast 7 ∈ sub.received ∧ ¬ failed.Served sub) ∧
      ∃ sub ∈ late.service.subscribes.values, .broadcast 7 ∈ sub.received ∧ ¬ late.Served sub := by
  decide +kernel

end Serving

end RemoteControl.Host
