import RemoteControl.Runs
import RemoteControl.Host.Services

/-! # One service and its subscribers

`ServiceTmpl` of `server/service.rs`. Who subscribes to a service that needs a snapshot
waits in `new_subscribes`. The snapshot callback sends through a `ServiceSwap` to those
who wait, and when the swap is dropped they become subscribers like the others, to whom
`send` and its siblings go.

Every call but `is_subed` holds the lock of the service from its beginning to its end and is
one step; a snapshot is as many as it sends messages, and two more. Other calls come in between.
-/

namespace RemoteControl.Host

open Runs (exec Always Along)

variable {Msg : Type*}

/-- One call of `send` of a subscriber. -/
inductive Delivery (Msg : Type*) where
  /-- through the `ServiceSwap` of the callback with this number -/
  | swap (callback : Nat) (msg : Msg)
  | broadcast (msg : Msg)
  deriving DecidableEq

/-- A `Subscriber` is made from a connection, whose id it keeps, and does what it does
    by its calls of `send`: `received` are all of them. -/
structure Subscriber (Msg : Type*) where
  id : ConnId
  /-- how many snapshots had ended, and how much was sent by snapshots, when it was made -/
  ended : Nat
  joined : Nat
  received : List (Delivery Msg) := []
  deriving DecidableEq

def Subscriber.send (sub : Subscriber Msg) (d : Delivery Msg) : Subscriber Msg :=
  { sub with received := sub.received ++ [d] }

/-- A `HashMap` of subscribers by their ids. -/
structure Subscribers (Msg : Type*) where
  values : List (Subscriber Msg)
  nodup : (values.map Subscriber.id).Nodup

namespace Subscribers

def empty : Subscribers Msg := ⟨[], List.nodup_nil⟩

def ids (subs : Subscribers Msg) : List ConnId := subs.values.map Subscriber.id

def contains (subs : Subscribers Msg) (id : ConnId) : Bool := id ∈ subs.ids

def remove (subs : Subscribers Msg) (id : ConnId) : Subscribers Msg where
  values := subs.values.filter (·.id ≠ id)
  nodup := subs.nodup.sublist (List.filter_sublist.map _)

variable {subs : Subscribers Msg} {sub : Subscriber Msg} {id : ConnId}
  {drained : List (Subscriber Msg)}

theorem mem_remove : sub ∈ (subs.remove id).values ↔ sub ∈ subs.values ∧ sub.id ≠ id := by
  simp [remove]

theorem mem_ids_remove {other : ConnId} :
    other ∈ (subs.remove id).ids ↔ other ∈ subs.ids ∧ other ≠ id := by
  simp only [ids, List.mem_map, mem_remove]
  constructor
  · rintro ⟨sub, ⟨member, different⟩, rfl⟩
    exact ⟨⟨sub, member, rfl⟩, different⟩
  · rintro ⟨⟨sub, member, rfl⟩, different⟩
    exact ⟨sub, ⟨member, different⟩, rfl⟩

def insert (subs : Subscribers Msg) (sub : Subscriber Msg) : Subscribers Msg where
  values := sub :: (subs.remove sub.id).values
  nodup := List.nodup_cons.mpr ⟨fun member => (mem_ids_remove.mp member).2 rfl,
    (subs.remove sub.id).nodup⟩

theorem mem_insert {other : Subscriber Msg} :
    other ∈ (subs.insert sub).values ↔ other = sub ∨ other ∈ subs.values ∧ other.id ≠ sub.id := by
  rw [insert, List.mem_cons, mem_remove]

theorem mem_ids_insert : id ∈ (subs.insert sub).ids ↔ id = sub.id ∨ id ∈ subs.ids := by
  have inserted : (subs.insert sub).ids = sub.id :: (subs.remove sub.id).ids := rfl
  rw [inserted, List.mem_cons, mem_ids_remove]
  tauto

/-- `insert` of all the subscribers drained from another map. -/
def insertAll (subs : Subscribers Msg) (drained : List (Subscriber Msg)) : Subscribers Msg :=
  drained.foldl insert subs

theorem mem_ids_insertAll :
    id ∈ (subs.insertAll drained).ids ↔ id ∈ drained.map Subscriber.id ∨ id ∈ subs.ids := by
  induction drained generalizing subs with
  | nil => simp [insertAll]
  | cons sub rest ih =>
      have inserted : subs.insertAll (sub :: rest) = (subs.insert sub).insertAll rest := rfl
      rw [inserted, ih, mem_ids_insert, List.map_cons, List.mem_cons]
      tauto

theorem mem_insertAll (member : sub ∈ (subs.insertAll drained).values) :
    sub ∈ drained ∨ sub ∈ subs.values := by
  induction drained generalizing subs with
  | nil => exact .inr member
  | cons first rest ih =>
      have inserted : sub ∈ rest ∨ sub ∈ (subs.insert first).values := ih member
      rcases inserted with later | now
      · exact .inl (List.mem_cons_of_mem _ later)
      · rcases mem_insert.mp now with rfl | ⟨old, -⟩
        · exact .inl (List.mem_cons_self ..)
        · exact .inr old

/-- The loop over `values_mut` that sends to the `wanted` subscribers, and their ids. -/
def sendAll (subs : Subscribers Msg) (d : Delivery Msg) (wanted : ConnId → Bool) :
    Subscribers Msg × List ConnId :=
  (⟨subs.values.map fun sub => if wanted sub.id then sub.send d else sub, by
      have kept :
          (Subscriber.id ∘ fun sub : Subscriber Msg => if wanted sub.id then sub.send d else sub) =
          Subscriber.id := by
        funext sub
        dsimp only [Function.comp]
        split_ifs <;> rfl
      rw [List.map_map, kept]
      exact subs.nodup⟩,
    subs.ids.filter wanted)

theorem ids_sendAll (subs : Subscribers Msg) (d : Delivery Msg) (wanted : ConnId → Bool) :
    (subs.sendAll d wanted).1.ids = subs.ids := by
  unfold sendAll ids
  rw [List.map_map]
  refine List.map_congr_left fun sub _ => ?_
  dsimp only [Function.comp]
  split_ifs <;> rfl

theorem mem_sendAll {d : Delivery Msg} {wanted : ConnId → Bool}
    (member : sub ∈ (subs.sendAll d wanted).1.values) :
    ∃ old ∈ subs.values, sub = if wanted old.id then old.send d else old := by
  obtain ⟨old, there, rfl⟩ := List.mem_map.mp member
  exact ⟨old, there, rfl⟩

/-- To whom it goes, it goes once. -/
theorem nodup_sendAll (subs : Subscribers Msg) (d : Delivery Msg) (wanted : ConnId → Bool) :
    (subs.sendAll d wanted).2.Nodup := subs.nodup.filter _

end Subscribers

structure ServiceTmpl (Msg : Type*) where
  needSnapshot : Bool
  subscribes : Subscribers Msg
  newSubscribes : Subscribers Msg

namespace ServiceTmpl

def new (needSnapshot : Bool) : ServiceTmpl Msg := ⟨needSnapshot, .empty, .empty⟩

/-- Whether one of the maps has the id. -/
def isSubed (svc : ServiceTmpl Msg) (id : ConnId) : Bool :=
  svc.subscribes.contains id || svc.newSubscribes.contains id

/-- What `is_subed` answers. Each map is read under a guard of its own: `later` is the service
    that the second one finds. -/
def isSubedAcross (svc later : ServiceTmpl Msg) (id : ConnId) : Bool :=
  svc.subscribes.contains id || later.newSubscribes.contains id

def onSubscribe (svc : ServiceTmpl Msg) (sub : Subscriber Msg) : ServiceTmpl Msg :=
  if svc.subscribes.contains sub.id then svc
  else if svc.needSnapshot then { svc with newSubscribes := svc.newSubscribes.insert sub }
  else { svc with subscribes := svc.subscribes.insert sub }

def onUnsubscribe (svc : ServiceTmpl Msg) (id : ConnId) : ServiceTmpl Msg :=
  if svc.subscribes.contains id then { svc with subscribes := svc.subscribes.remove id }
  else { svc with newSubscribes := svc.newSubscribes.remove id }

/-- `swap_new_subscribes`, which the drop of a `ServiceSwap` calls. -/
def swapNewSubscribes (svc : ServiceTmpl Msg) : ServiceTmpl Msg where
  needSnapshot := svc.needSnapshot
  subscribes := svc.subscribes.insertAll svc.newSubscribes.values
  newSubscribes := .empty

/-- `send_new_subscribes`, which `ServiceSwap::send_shared` calls, and to whom it went. -/
def sendNewSubscribes (svc : ServiceTmpl Msg) (callback : Nat) (msg : Msg) :
    ServiceTmpl Msg × List ConnId :=
  let sending := svc.newSubscribes.sendAll (.swap callback msg) fun _ => true
  ({ svc with newSubscribes := sending.1 }, sending.2)

/-- What `send_shared` and its siblings share. -/
def broadcast (svc : ServiceTmpl Msg) (msg : Msg) (wanted : ConnId → Bool) :
    ServiceTmpl Msg × List ConnId :=
  let sending := svc.subscribes.sendAll (.broadcast msg) wanted
  ({ svc with subscribes := sending.1 }, sending.2)

def sendShared (svc : ServiceTmpl Msg) (msg : Msg) : ServiceTmpl Msg × List ConnId :=
  svc.broadcast msg fun _ => true

/-- `send_video_frame_shared` returns the ids of those to whom it sent. -/
def sendVideoFrameShared (svc : ServiceTmpl Msg) (msg : Msg) : ServiceTmpl Msg × List ConnId :=
  svc.broadcast msg fun _ => true

def sendTo (svc : ServiceTmpl Msg) (msg : Msg) (id : ConnId) : ServiceTmpl Msg × List ConnId :=
  svc.broadcast msg (· = id)

def sendToOthers (svc : ServiceTmpl Msg) (msg : Msg) (id : ConnId) : ServiceTmpl Msg × List ConnId :=
  svc.broadcast msg (· ≠ id)

def sendWithout (svc : ServiceTmpl Msg) (msg : Msg) (sub : ConnId) : ServiceTmpl Msg × List ConnId :=
  svc.broadcast msg (sub ≠ ·)

end ServiceTmpl

/-- A snapshot callback that has returned: its `ServiceSwap` is dropped. -/
structure Ended where
  callback : Nat
  ok : Bool
  /-- how much had been sent by snapshots -/
  sent : Nat
  deriving DecidableEq

/-- A service with the snapshots it has taken and is taking. -/
structure Serving (Msg : Type*) where
  service : ServiceTmpl Msg
  /-- the number of the next callback -/
  begun : Nat := 0
  /-- the callbacks that hold their `ServiceSwap` -/
  swaps : List Nat := []
  /-- what was sent through a `ServiceSwap` -/
  sent : List (Nat × Msg) := []
  ended : List Ended := []

inductive ServiceEvent (Msg : Type*) where
  | onSubscribe (id : ConnId)
  | onUnsubscribe (id : ConnId)
  | snapshot
  | swapSend (callback : Nat) (msg : Msg)
  | swapDrop (callback : Nat) (ok : Bool)
  | sendShared (msg : Msg)
  | sendVideoFrameShared (msg : Msg)
  | sendTo (msg : Msg) (id : ConnId)
  | sendToOthers (msg : Msg) (id : ConnId)
  | sendWithout (msg : Msg) (sub : ConnId)

namespace Serving

/-- A new service. -/
def start (needSnapshot : Bool) : Serving Msg where
  service := .new needSnapshot

/-- The subscriber a connection becomes now. -/
def joining (s : Serving Msg) (id : ConnId) : Subscriber Msg where
  id := id
  ended := s.ended.length
  joined := s.sent.length

def sends (s : Serving Msg) (sending : ServiceTmpl Msg × List ConnId) : Serving Msg × List ConnId :=
  ({ s with service := sending.1 }, sending.2)

/-- A step, and the ids of those to whom it sent. -/
def call (s : Serving Msg) : ServiceEvent Msg → Serving Msg × List ConnId
  | .onSubscribe id =>
      ({ s with service := s.service.onSubscribe (s.joining id) }, [])
  | .onUnsubscribe id => ({ s with service := s.service.onUnsubscribe id }, [])
  | .snapshot =>
      if s.service.newSubscribes.values = [] then (s, [])
      else ({ s with begun := s.begun + 1, swaps := s.begun :: s.swaps }, [])
  | .swapSend callback msg =>
      if callback ∈ s.swaps then
        { s with sent := s.sent ++ [(callback, msg)] }.sends (s.service.sendNewSubscribes callback msg)
      else (s, [])
  | .swapDrop callback ok =>
      if callback ∈ s.swaps then
        ({ s with
            service := s.service.swapNewSubscribes
            swaps := s.swaps.filter (· ≠ callback)
            ended := s.ended ++ [⟨callback, ok, s.sent.length⟩] }, [])
      else (s, [])
  | .sendShared msg => s.sends (s.service.sendShared msg)
  | .sendVideoFrameShared msg => s.sends (s.service.sendVideoFrameShared msg)
  | .sendTo msg id => s.sends (s.service.sendTo msg id)
  | .sendToOthers msg id => s.sends (s.service.sendToOthers msg id)
  | .sendWithout msg sub => s.sends (s.service.sendWithout msg sub)

def step (s : Serving Msg) (e : ServiceEvent Msg) : Serving Msg := (s.call e).1

def recipients (s : Serving Msg) (e : ServiceEvent Msg) : List ConnId := (s.call e).2

end Serving

/-! ## What a call does to the service -/

/-- What becomes of the service, and to whom is sent, in a step. -/
inductive Called (s : Serving Msg) : ServiceEvent Msg → ServiceTmpl Msg → List ConnId → Prop where
  | subscribed (id : ConnId) : Called s (.onSubscribe id) (s.service.onSubscribe (s.joining id)) []
  | unsubscribed (id : ConnId) : Called s (.onUnsubscribe id) (s.service.onUnsubscribe id) []
  | same (e : ServiceEvent Msg) : Called s e s.service []
  | swapSent (callback : Nat) (msg : Msg) : Called s (.swapSend callback msg)
      (s.service.sendNewSubscribes callback msg).1 (s.service.sendNewSubscribes callback msg).2
  | swapped (callback : Nat) (ok : Bool) : Called s
    (.swapDrop callback ok) s.service.swapNewSubscribes []
  | sent (e : ServiceEvent Msg) (msg : Msg) (wanted : ConnId → Bool) :
      Called s e (s.service.broadcast msg wanted).1 (s.service.broadcast msg wanted).2

theorem Serving.called (s : Serving Msg) (e : ServiceEvent Msg) :
    Called s e (s.step e).service (s.recipients e) := by
  unfold step recipients
  cases e with
  | onSubscribe id => exact .subscribed id
  | onUnsubscribe id => exact .unsubscribed id
  | snapshot =>
      simp only [call]
      split_ifs
      · exact .same _
      · exact .same _
  | swapSend callback msg =>
      simp only [call]
      split_ifs
      · exact .swapSent callback msg
      · exact .same _
  | swapDrop callback ok =>
      simp only [call]
      split_ifs
      · exact .swapped callback ok
      · exact .same _
  | sendShared msg | sendVideoFrameShared msg => exact .sent _ msg fun _ => true
  | sendTo msg id => exact .sent _ msg (· = id)
  | sendToOthers msg id => exact .sent _ msg (· ≠ id)
  | sendWithout msg sub => exact .sent _ msg (sub ≠ ·)

namespace ServiceTmpl

variable {svc : ServiceTmpl Msg}

theorem isSubed_iff {id : ConnId} :
    svc.isSubed id = true ↔ id ∈ svc.subscribes.ids ∨ id ∈ svc.newSubscribes.ids := by
  simp [isSubed, Subscribers.contains]

/-- Sending leaves the maps their ids. -/
theorem ids_sendNewSubscribes (svc : ServiceTmpl Msg) (callback : Nat) (msg : Msg) :
    (svc.sendNewSubscribes callback msg).1.newSubscribes.ids = svc.newSubscribes.ids :=
  svc.newSubscribes.ids_sendAll (.swap callback msg) fun _ => true

theorem ids_broadcast (svc : ServiceTmpl Msg) (msg : Msg) (wanted : ConnId → Bool) :
    (svc.broadcast msg wanted).1.subscribes.ids = svc.subscribes.ids :=
  Subscribers.ids_sendAll ..

/-- No id is in both maps; a service without snapshots does not use the second. -/
structure Separate (svc : ServiceTmpl Msg) : Prop where
  apart : ∀ id ∈ svc.subscribes.ids, id ∉ svc.newSubscribes.ids
  unused : svc.needSnapshot = false → svc.newSubscribes = .empty

theorem separate_new (needSnapshot : Bool) : Separate (new needSnapshot : ServiceTmpl Msg) :=
  ⟨fun _ member => absurd member List.not_mem_nil, fun _ => rfl⟩

theorem Separate.onSubscribe (separate : svc.Separate) (sub : Subscriber Msg) :
    (svc.onSubscribe sub).Separate := by
  unfold ServiceTmpl.onSubscribe
  split_ifs with there needed
  · exact separate
  · have absent : sub.id ∉ svc.subscribes.ids := fun member => there (decide_eq_true member)
    refine ⟨fun id member inserted => ?_, fun unneeded => ?_⟩
    · rcases Subscribers.mem_ids_insert.mp inserted with rfl | waiting
      · exact absent member
      · exact separate.apart id member waiting
    · rw [needed] at unneeded
      cases unneeded
  · have unused := separate.unused (Bool.eq_false_iff.mpr needed)
    refine ⟨fun id _ waiting => ?_, fun _ => unused⟩
    dsimp only at waiting
    rw [unused] at waiting
    cases waiting

theorem Separate.onUnsubscribe (separate : svc.Separate) (id : ConnId) :
    (svc.onUnsubscribe id).Separate := by
  unfold ServiceTmpl.onUnsubscribe
  split_ifs with there
  · exact ⟨fun other member => separate.apart other (Subscribers.mem_ids_remove.mp member).1,
      separate.unused⟩
  · refine ⟨fun other member removed =>
      separate.apart other member (Subscribers.mem_ids_remove.mp removed).1,
      fun unneeded => ?_⟩
    dsimp only at unneeded ⊢
    rw [separate.unused unneeded]
    rfl

theorem Separate.swapNewSubscribes (_ : svc.Separate) : svc.swapNewSubscribes.Separate :=
  ⟨fun _ _ => List.not_mem_nil, fun _ => rfl⟩

theorem Separate.sendNewSubscribes (separate : svc.Separate) (callback : Nat) (msg : Msg) :
    (svc.sendNewSubscribes callback msg).1.Separate := by
  refine ⟨fun id member waiting => ?_, fun unneeded => ?_⟩
  · rw [ids_sendNewSubscribes] at waiting
    exact separate.apart id member waiting
  · have unused := separate.unused unneeded
    unfold ServiceTmpl.sendNewSubscribes
    rw [unused]
    rfl

theorem Separate.broadcast (separate : svc.Separate) (msg : Msg) (wanted : ConnId → Bool) :
    (svc.broadcast msg wanted).1.Separate := by
  refine ⟨fun id member => ?_, separate.unused⟩
  rw [ids_broadcast] at member
  exact separate.apart id member

end ServiceTmpl

section Bookkeeping

variable {s : Serving Msg} {e : ServiceEvent Msg} {svc : ServiceTmpl Msg} {ids : List ConnId}

theorem Called.separate (called : Called s e svc ids)
    (separate : s.service.Separate) : svc.Separate := by
  cases called with
  | subscribed id => exact separate.onSubscribe _
  | unsubscribed id => exact separate.onUnsubscribe id
  | same => exact separate
  | swapSent callback msg => exact separate.sendNewSubscribes callback msg
  | swapped => exact separate.swapNewSubscribes
  | sent _ msg wanted => exact separate.broadcast msg wanted

/-- One call sends to nobody twice, and only to subscribers. -/
theorem Called.recipients (called : Called s e svc ids) :
    ids.Nodup ∧ ∀ id ∈ ids, s.service.isSubed id = true := by
  cases called with
  | subscribed | unsubscribed | same | swapped =>
      exact ⟨List.nodup_nil, fun _ member => absurd member List.not_mem_nil⟩
  | swapSent callback msg =>
      refine ⟨s.service.newSubscribes.nodup_sendAll (.swap callback msg) _, fun id member => ?_⟩
      exact ServiceTmpl.isSubed_iff.mpr (.inr (List.mem_filter.mp member).1)
  | sent _ msg wanted =>
      refine ⟨s.service.subscribes.nodup_sendAll (.broadcast msg) wanted, fun id member => ?_⟩
      exact ServiceTmpl.isSubed_iff.mpr (.inl (List.mem_filter.mp member).1)

/-- Only `on_subscribe` makes an id a subscriber. -/
theorem Called.isSubed (called : Called s e svc ids) {id : ConnId}
    (other : e ≠ .onSubscribe id) (after : svc.isSubed id = true) :
    s.service.isSubed id = true := by
  rw [ServiceTmpl.isSubed_iff] at after ⊢
  cases called with
  | subscribed new =>
      have different : id ≠ new := fun same => other (by rw [same])
      unfold ServiceTmpl.onSubscribe at after
      split_ifs at after
      · exact after
      · exact after.imp_right fun member =>
          (Subscribers.mem_ids_insert.mp member).resolve_left different
      · exact after.imp_left fun member =>
          (Subscribers.mem_ids_insert.mp member).resolve_left different
  | unsubscribed gone =>
      unfold ServiceTmpl.onUnsubscribe at after
      split_ifs at after
      · exact after.imp_left fun member => (Subscribers.mem_ids_remove.mp member).1
      · exact after.imp_right fun member => (Subscribers.mem_ids_remove.mp member).1
  | same => exact after
  | swapSent callback msg =>
      rwa [ServiceTmpl.ids_sendNewSubscribes] at after
  | swapped =>
      rcases after with member | member
      · exact (Subscribers.mem_ids_insertAll.mp member).symm
      · cases member
  | sent _ msg wanted => rwa [ServiceTmpl.ids_broadcast] at after

/-- `on_unsubscribe` looks into one map only, which is enough. -/
theorem isSubed_onUnsubscribe_iff (separate : svc.Separate) {gone id : ConnId} :
    (svc.onUnsubscribe gone).isSubed id = true ↔ id ≠ gone ∧ svc.isSubed id = true := by
  rw [ServiceTmpl.isSubed_iff, ServiceTmpl.isSubed_iff]
  unfold ServiceTmpl.onUnsubscribe
  split_ifs with there
  · have apart := separate.apart gone (of_decide_eq_true there)
    rw [Subscribers.mem_ids_remove]
    by_cases same : id = gone
    · simp [same, apart]
    · simp [same]
  · have absent : gone ∉ svc.subscribes.ids := fun member => there (decide_eq_true member)
    rw [Subscribers.mem_ids_remove]
    by_cases same : id = gone
    · simp [same, absent]
    · simp [same]

end Bookkeeping

/-! `Server` keeps one set of subscribers for each service. -/

/-- The service is the one of this name as the server sees it. -/
def ServiceTmpl.IsAt (svc : ServiceTmpl Msg) (server : Server) (name : ServiceName) : Prop :=
  ∀ id, server.isSubed name id ↔ svc.isSubed id = true

variable {server : Server} {name : ServiceName} {svc : ServiceTmpl Msg}

theorem ServiceTmpl.IsAt.onSubscribe (isAt : svc.IsAt server name) (sub : Subscriber Msg) :
    (svc.onSubscribe sub).IsAt (server.onSubscribe name sub.id) name := by
  intro id
  have before := isAt id
  rw [isSubed_iff] at before ⊢
  unfold Server.isSubed at before ⊢
  simp only [Server.onSubscribe, Function.update_self]
  rw [Finset.mem_insert, before]
  unfold ServiceTmpl.onSubscribe
  split_ifs with there
  · have member : sub.id ∈ svc.subscribes.ids := of_decide_eq_true there
    refine or_iff_right_of_imp ?_
    rintro rfl
    exact .inl member
  · rw [Subscribers.mem_ids_insert]
    tauto
  · rw [Subscribers.mem_ids_insert]
    tauto

theorem ServiceTmpl.IsAt.onUnsubscribe (isAt : svc.IsAt server name) (separate : svc.Separate)
    (gone : ConnId) : (svc.onUnsubscribe gone).IsAt (server.onUnsubscribe name gone) name := by
  intro id
  rw [isSubed_onUnsubscribe_iff separate, ← isAt id]
  unfold Server.isSubed
  simp only [Server.onUnsubscribe, Function.update_self, Finset.mem_erase]

/-- Snapshots and sends are nothing to the server. -/
theorem ServiceTmpl.IsAt.step {s : Serving Msg} (isAt : s.service.IsAt server name)
    {e : ServiceEvent Msg} (others : ∀ id, e ≠ .onSubscribe id ∧ e ≠ .onUnsubscribe id) :
    (s.step e).service.IsAt server name := by
  intro id
  refine (isAt id).trans ?_
  have called := s.called e
  rw [isSubed_iff, isSubed_iff]
  generalize (s.step e).service = svc, s.recipients e = ids at called ⊢
  cases called with
  | subscribed id => exact absurd rfl (others id).1
  | unsubscribed id => exact absurd rfl (others id).2
  | same => exact .rfl
  | swapSent callback msg => rw [ids_sendNewSubscribes]; exact .rfl
  | swapped =>
      have none_ : id ∉ s.service.swapNewSubscribes.newSubscribes.ids := List.not_mem_nil
      rw [or_iff_left none_]
      exact or_comm.trans Subscribers.mem_ids_insertAll.symm
  | sent _ msg wanted => rw [ids_broadcast]; exact .rfl

namespace Serving

theorem always_separate (needSnapshot : Bool) (events : List (ServiceEvent Msg)) :
    Always step (fun s : Serving Msg => s.service.Separate) (start needSnapshot) events :=
  have keep (s : Serving Msg) (e : ServiceEvent Msg) (_ : True) (separate : s.service.Separate) :
      (s.step e).service.Separate :=
    (s.called e).separate separate
  Runs.always_of_events keep (fun _ _ => trivial) (ServiceTmpl.separate_new needSnapshot)

/-- In every run of a service no id is in both maps, no message reaches an id twice, and
    none reaches an id that has unsubscribed and not subscribed again. -/
theorem subscriber_bookkeeping (needSnapshot : Bool) (events : List (ServiceEvent Msg)) :
    Always step (fun s => ∀ id ∈ s.service.subscribes.ids, id ∉ s.service.newSubscribes.ids)
        (start needSnapshot) events ∧
      Along step (fun s e => (s.recipients e).Nodup ∧ ∀ id ∈ s.recipients e,
        s.service.isSubed id = true)
        (start needSnapshot) events ∧
      ∀ before id after, events = before ++ .onUnsubscribe id :: after →
        (∀ e ∈ after, e ≠ .onSubscribe id) →
        let unsubscribed := exec step (start needSnapshot) (before ++ [.onUnsubscribe id])
        Always step (fun s => s.service.isSubed id = false) unsubscribed after ∧
          Along step (fun s e => id ∉ s.recipients e) unsubscribed after := by
  refine ⟨(always_separate needSnapshot events).mono fun _ separate => separate.apart,
    (always_separate needSnapshot events).along fun s e _ => (s.called e).recipients, ?_⟩
  intro before id after _ others
  have separate := (always_separate needSnapshot before).last
  have gone :
      (exec step (start needSnapshot) (before ++ [.onUnsubscribe id])).service.isSubed id =
      false := by
    rw [Runs.exec_append, ← Bool.not_eq_true]
    exact fun still => ((isSubed_onUnsubscribe_iff separate).mp still).1 rfl
  have stays (s : Serving Msg) (e : ServiceEvent Msg) (other : e ≠ .onSubscribe id)
      (now : s.service.isSubed id = false) : (s.step e).service.isSubed id = false := by
    rw [← Bool.not_eq_true] at now ⊢
    exact fun later => now ((s.called e).isSubed other later)
  have always := Runs.always_of_events stays others gone
  refine ⟨always, always.along fun s e now sentTo => ?_⟩
  have there := (s.called e).recipients.2 id sentTo
  rw [now] at there
  cases there

/-- What the server makes of a call to its service of this name. -/
def follow (name : ServiceName) (server : Server) : ServiceEvent Msg → Server
  | .onSubscribe id => server.onSubscribe name id
  | .onUnsubscribe id => server.onUnsubscribe name id
  | _ => server

theorem follows {name : ServiceName} (s : Serving Msg) (server : Server) (e : ServiceEvent Msg)
    (now : s.service.IsAt server name ∧ s.service.Separate) :
    (s.step e).service.IsAt (follow name server e) name ∧ (s.step e).service.Separate := by
  refine ⟨?_, (s.called e).separate now.2⟩
  cases e with
  | onSubscribe id => exact now.1.onSubscribe (s.joining id)
  | onUnsubscribe id => exact now.1.onUnsubscribe now.2 id
  | snapshot | swapSend | swapDrop | sendShared | sendVideoFrameShared | sendTo | sendToOthers
  | sendWithout => exact now.1.step fun _ => ⟨by rintro ⟨⟩, by rintro ⟨⟩⟩

/-- What the lock of the server leaves open: who waits goes on waiting, or a `ServiceSwap` was
    dropped and nobody waits. -/
def Holds (s s' : Serving Msg) : Prop :=
  s'.ended = s.ended ∧ s'.service.newSubscribes.ids = s.service.newSubscribes.ids ∨
    s.ended.length < s'.ended.length ∧ s'.service.newSubscribes.ids = []

theorem holds_step (s : Serving Msg) {e : ServiceEvent Msg}
    (locked : ∀ id, e ≠ .onSubscribe id ∧ e ≠ .onUnsubscribe id) : s.Holds (s.step e) := by
  unfold Holds step
  cases e with
  | onSubscribe id => exact absurd rfl (locked id).1
  | onUnsubscribe id => exact absurd rfl (locked id).2
  | snapshot =>
      simp only [call]
      split_ifs <;> exact .inl ⟨rfl, rfl⟩
  | swapSend callback msg =>
      simp only [call]
      split_ifs
      · exact .inl ⟨rfl, ServiceTmpl.ids_sendNewSubscribes ..⟩
      · exact .inl ⟨rfl, rfl⟩
  | swapDrop callback ok =>
      simp only [call]
      split_ifs
      · exact .inr ⟨by simp, rfl⟩
      · exact .inl ⟨rfl, rfl⟩
  | sendShared | sendVideoFrameShared | sendTo | sendToOthers | sendWithout => exact .inl ⟨rfl, rfl⟩

theorem holds_exec (s : Serving Msg) {between : List (ServiceEvent Msg)}
    (locked : ∀ e ∈ between, ∀ id, e ≠ .onSubscribe id ∧ e ≠ .onUnsubscribe id) :
    s.Holds (exec step s between) := by
  refine (Runs.always_of_events (p := s.Holds) (fun t e here before => ?_) locked
    (.inl ⟨rfl, rfl⟩)).last
  have now := t.holds_step here
  rcases before with ⟨ended, ids⟩ | ⟨longer, none_⟩
  · rwa [Holds, ended, ids] at now
  · rcases now with ⟨ended, ids⟩ | ⟨later, ids⟩
    · exact .inr ⟨ended ▸ longer, ids.trans none_⟩
    · exact .inr ⟨longer.trans later, ids⟩

/-- A service that is added to a server has, after any calls, the subscribers the server's set
    says. `is_subed`, whose caller has locked the server, answers so too, unless the snapshot for
    which the id waits ends between its two reads. -/
theorem server_sees_subscribers (server : Server) (name : ServiceName) (needSnapshot : Bool)
    (events between : List (ServiceEvent Msg))
    (locked : ∀ e ∈ between, ∀ id, e ≠ .onSubscribe id ∧ e ≠ .onUnsubscribe id) :
    let s := exec step (start needSnapshot) events
    let s' := exec step s between
    let server' := exec (follow name) (server.addService name) events
    s.service.IsAt server' name ∧
      ∀ id, s.service.isSubedAcross s'.service id = true ↔
        server'.isSubed name id ∧ (id ∈ s.service.newSubscribes.ids → s'.ended = s.ended) := by
  have start_ : (start needSnapshot : Serving Msg).service.IsAt (server.addService name) name := by
    intro id
    have empty : (server.addService name).subscribers name = ∅ := Function.update_self ..
    rw [ServiceTmpl.isSubed_iff, Server.isSubed, empty]
    exact iff_of_false (Finset.notMem_empty id) fun either => either.elim List.not_mem_nil List.not_mem_nil
  intro s s' server'
  obtain ⟨isAt, separate⟩ : s.service.IsAt server' name ∧ s.service.Separate :=
    Runs.exec_rel follows ⟨start_, ServiceTmpl.separate_new needSnapshot⟩
  refine ⟨isAt, fun id => ?_⟩
  rw [isAt id, ServiceTmpl.isSubed_iff]
  simp only [ServiceTmpl.isSubedAcross, Subscribers.contains, Bool.or_eq_true, decide_eq_true_eq]
  rcases s.holds_exec locked with ⟨ended, ids⟩ | ⟨longer, none_⟩
  · rw [ids, and_iff_left fun _ => ended]
  · have dropped : s'.ended ≠ s.ended := fun same => Nat.ne_of_gt longer (congrArg List.length same)
    have gone : s'.service.newSubscribes.ids = [] := none_
    have apart := separate.apart id
    rw [gone, or_iff_left List.not_mem_nil]
    constructor
    · intro member
      exact ⟨.inl member, fun waits => absurd waits (apart member)⟩
    · rintro ⟨member | waits, undropped⟩
      · exact member
      · exact absurd (undropped waits) dropped

/-- Connection 1 waits for its first snapshot, which ends between the two reads. -/
theorem waiting_unseen :
    let s := exec step (start true : Serving Unit) [.onSubscribe 1, .snapshot]
    let server : Server := exec (follow .cursor) (Server.addService ⟨∅, fun _ => ∅⟩ .cursor)
      ([.onSubscribe 1, .snapshot] : List (ServiceEvent Unit))
    server.isSubed .cursor 1 ∧
      s.service.isSubedAcross (exec step s [.swapDrop 0 true]).service 1 = false := by
  intro s server
  have sees := @server_sees_subscribers Unit ⟨∅, fun _ => ∅⟩ .cursor true
    [.onSubscribe 1, .snapshot] [.swapDrop 0 true] (by simp)
  have subed : server.isSubed .cursor 1 := by decide
  refine ⟨subed, Bool.eq_false_iff.mpr fun seen => ?_⟩
  have undropped := ((sees.2 1).mp seen).2 (by decide)
  exact absurd (congrArg List.length undropped) (by decide)

end Serving

end RemoteControl.Host
