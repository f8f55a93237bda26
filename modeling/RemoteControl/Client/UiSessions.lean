import Mathlib.Data.List.AList
import RemoteControl.Runs

/-! # UI sessions

The windows and tabs on one peer share its connection. `SESSIONS` holds a `FlutterSession`
for each peer and kind of connection, with a handler for each UI session.

Closing a tab takes two sections under the lock of `SESSIONS`: the handler goes in the
first one, and when it was the last, the entry of the peer goes in the second one. A tab
that is opened on the same peer in between goes with it.
-/

namespace RemoteControl.UiSessions

open Runs (exec Always Along)

/-- `Uuid` -/
abbrev SessionId := BitVec 128

inductive ConnType where
  | defaultConn
  | fileTransfer
  | portForward
  | rdp
  | viewCamera
  | terminal
  deriving DecidableEq

abbrev PeerKey := String × ConnType

/-- The displays that a UI session shows. Its event stream and its renderer are left out. -/
structure SessionHandler where
  displays : List Nat := []

structure FlutterSession where
  id : String
  sessionHandlers : AList fun _ : SessionId => SessionHandler := ∅

/-- `session_handlers.is_empty()` -/
def FlutterSession.isEmpty (s : FlutterSession) : Bool := s.sessionHandlers.entries.isEmpty

/-- `SESSIONS` -/
abbrev Sessions := AList fun _ : PeerKey => FlutterSession

namespace Sessions

/-- `values().find` -/
def getSessionBySessionId (id : SessionId) (sessions : Sessions) : Option FlutterSession :=
  (sessions.entries.map (·.2)).find? fun s => id ∈ s.sessionHandlers

def insertSession (sessionId : SessionId) (connType : ConnType) (session : FlutterSession)
    (sessions : Sessions) : Sessions :=
  let key := (session.id, connType)
  let s := (sessions.lookup key).getD session
  sessions.insert key { s with sessionHandlers := s.sessionHandlers.insert sessionId {} }

/-- `*x as usize` -/
def asUsize (x : Int32) : Nat := x.toInt64.toUInt64.toNat

def insertPeerSessionId (peerId : String) (connType : ConnType) (sessionId : SessionId)
    (displays : List Int32) (sessions : Sessions) : Sessions × Bool :=
  match sessions.lookup (peerId, connType) with
  | some s =>
      let h : SessionHandler := { displays := displays.map asUsize }
      (sessions.insert (peerId,
        connType) { s with sessionHandlers := s.sessionHandlers.insert sessionId h },
        true)
  | none => (sessions, false)

/-- The first section of `remove_session_by_session_id`: the handler is removed, and
    `remove_peer_key` is set when it was the last one. -/
def removeHandler (id : SessionId) (sessions : Sessions) : Sessions × Option PeerKey :=
  match sessions.entries.find? fun e => id ∈ e.2.sessionHandlers with
  | some ⟨peerKey, s⟩ =>
      let s := { s with sessionHandlers := s.sessionHandlers.erase id }
      (sessions.insert peerKey s, if s.isEmpty then some peerKey else none)
  | none => (sessions, none)

/-- The second section of `remove_session_by_session_id`. -/
def removePeer (removePeerKey : PeerKey) (sessions : Sessions) : Sessions :=
  sessions.erase removePeerKey

end Sessions

structure State where
  sessions : Sessions := ∅
  /-- The keys that calls of `remove_session_by_session_id` have for their second section. -/
  removing : List PeerKey := []
  /-- The ids that calls have inserted or tried to insert so far. -/
  used : List SessionId := []
  /-- The ids inserted since which `remove_session_by_session_id` was not called for them. -/
  live : List SessionId := []

/-- The sections of the calls, in the order in which the threads get the lock. -/
inductive Event where
  /-- `session_add` makes a new session for the peer. -/
  | insertSession (sessionId : SessionId) (connType : ConnType) (peerId : String)
  | insertPeerSessionId (peerId : String) (connType : ConnType) (sessionId : SessionId)
      (displays : List Int32)
  | removeHandler (id : SessionId)
  | removePeer (removePeerKey : PeerKey)

/-- The id that the call inserts. -/
def Event.inserted : Event → Option SessionId
  | .insertSession sessionId _ _ => some sessionId
  | .insertPeerSessionId _ _ sessionId _ => some sessionId
  | _ => none

namespace State

def step (s : State) : Event → State
  | .insertSession sessionId connType peerId =>
      { s with
        sessions := s.sessions.insertSession sessionId connType { id := peerId }
        used := sessionId :: s.used
        live := sessionId :: s.live }
  | .insertPeerSessionId peerId connType sessionId displays =>
      let (sessions, found) := s.sessions.insertPeerSessionId peerId connType sessionId displays
      { s with
        sessions
        used := sessionId :: s.used
        live := if found then sessionId :: s.live else s.live }
  | .removeHandler id =>
      let (sessions, removePeerKey) := s.sessions.removeHandler id
      { s with
        sessions
        removing := removePeerKey.toList ++ s.removing
        live := s.live.filter (· ≠ id) }
  | .removePeer removePeerKey =>
      if removePeerKey ∈ s.removing then
        { s with
          sessions := s.sessions.removePeer removePeerKey
          removing := s.removing.erase removePeerKey }
      else s

/-- Every UI session is found until it is removed, and between the calls no entry is
    without UI sessions. -/
def Kept (s : State) : Prop :=
  (∀ id ∈ s.live, (s.sessions.getSessionBySessionId id).isSome) ∧
    (s.removing = [] → ∀ e ∈ s.sessions.entries, e.2.isEmpty = false)

/-- The entry that a second section removes has got no UI session since the first one. -/
def StaysEmpty (s : State) : Event → Prop
  | .removePeer removePeerKey => removePeerKey ∈ s.removing →
      ∀ session ∈ s.sessions.lookup removePeerKey, session.isEmpty = true
  | _ => True

instance : DecidablePred Kept := fun s =>
  -- not by trying all ids
  have : Decidable (∀ id ∈ s.live, (s.sessions.getSessionBySessionId id).isSome) :=
    List.decidableBAll _ _
  inferInstanceAs (Decidable (_ ∧ (s.removing = [] →
    ∀ e ∈ s.sessions.entries, e.2.isEmpty = false)))

instance (s : State) : (e : Event) → Decidable (StaysEmpty s e)
  | .removePeer removePeerKey => inferInstanceAs (Decidable (removePeerKey ∈ s.removing →
      ∀ session ∈ s.sessions.lookup removePeerKey, session.isEmpty = true))
  | .insertSession .. | .insertPeerSessionId .. | .removeHandler .. => inferInstanceAs (Decidable True)

/-- A call inserts an id that no call before has inserted. -/
def Fresh (s : State) (e : Event) : Prop := ∀ id ∈ e.inserted, id ∉ s.used

end State

/-! ## Which entry has a UI session -/

theorem FlutterSession.isEmpty_iff {s : FlutterSession} :
    s.isEmpty = true ↔ ∀ id, id ∉ s.sessionHandlers := by
  rw [isEmpty, List.isEmpty_iff, ← List.map_eq_nil_iff (f := Sigma.fst)]
  exact List.eq_nil_iff_forall_not_mem

namespace Sessions

variable {sessions : Sessions} {key key' : PeerKey} {session : FlutterSession} {id id' : SessionId}
  {connType : ConnType} {peerId : String}

/-- The entry has a handler for the UI session. -/
def Has (sessions : Sessions) (key : PeerKey) (id : SessionId) : Prop :=
  ∃ session ∈ sessions.lookup key, id ∈ session.sessionHandlers

theorem getSessionBySessionId_isSome :
    (sessions.getSessionBySessionId id).isSome ↔ ∃ key, sessions.Has key id := by
  simp only [getSessionBySessionId, List.find?_isSome, List.mem_map, decide_eq_true_eq]
  constructor
  · rintro ⟨session, ⟨⟨key, session⟩, entry, rfl⟩, holds⟩
    exact ⟨key, session, AList.mem_lookup_iff.mpr entry, holds⟩
  · rintro ⟨key, session, entry, holds⟩
    exact ⟨session, ⟨⟨key, session⟩, AList.mem_lookup_iff.mp entry, rfl⟩, holds⟩

theorem has_insert : Has (sessions.insert key session) key' id ↔
    if key' = key then id ∈ session.sessionHandlers else sessions.Has key' id := by
  by_cases same : key' = key
  · subst same
    simp [Has]
  · simp [Has, same, AList.lookup_insert_ne]

theorem has_insertSession :
    Has (sessions.insertSession id connType { id := peerId }) key id' ↔
      sessions.Has key id' ∨ key = (peerId, connType) ∧ id' = id := by
  rw [insertSession, has_insert]
  by_cases same : key = (peerId, connType)
  · subst same
    cases found : sessions.lookup (peerId, connType) with
    | none => simp [Has, found, -AList.insert_empty]
    | some session => simp [Has, found, or_comm]
  · simp [same]

theorem has_insertPeerSessionId {displays : List Int32} :
    Has (sessions.insertPeerSessionId peerId connType id displays).1 key id' ↔
      sessions.Has key id' ∨
        (sessions.insertPeerSessionId peerId connType id displays).2 = true ∧
          key = (peerId, connType) ∧ id' = id := by
  unfold insertPeerSessionId
  cases found : sessions.lookup (peerId, connType) with
  | none => simp
  | some session =>
      rw [has_insert]
      by_cases same : key = (peerId, connType)
      · subst same
        simp [Has, found, or_comm]
      · simp [same]

theorem has_removePeer : Has (sessions.removePeer key) key' id ↔ key' ≠ key ∧ sessions.Has key' id := by
  by_cases same : key' = key
  · subst same
    simp [Has, removePeer]
  · simp [Has, removePeer, same, AList.lookup_erase_ne]

/-- What the first section of a removal finds. -/
theorem removeHandler_cases (id : SessionId) (sessions : Sessions) :
    (sessions.removeHandler id = (sessions, none) ∧ ∀ key, ¬ sessions.Has key id) ∨
      ∃ key session, sessions.lookup key = some session ∧ id ∈ session.sessionHandlers ∧
        sessions.removeHandler id =
          let after := { session with sessionHandlers := session.sessionHandlers.erase id }
          (sessions.insert key after, if after.isEmpty then some key else none) := by
  unfold removeHandler
  cases found : sessions.entries.find? fun e => id ∈ e.2.sessionHandlers with
  | none =>
      refine .inl ⟨rfl, ?_⟩
      rintro key ⟨session, entry, holds⟩
      have absent := List.find?_eq_none.mp found ⟨key, session⟩ (AList.mem_lookup_iff.mp entry)
      simp [holds] at absent
  | some e =>
      have holds := List.find?_some found
      have entry := AList.mem_lookup_iff.mpr (List.mem_of_find?_eq_some found)
      exact .inr ⟨e.1, e.2, entry, by simpa using holds, rfl⟩

end Sessions

namespace State

variable {s : State} {key key' : PeerKey} {id : SessionId} {sessions : Sessions}
  {connType : ConnType} {peerId : String} {e : Event}

/-- What holds in every run in which no id is inserted twice. -/
structure Inv (s : State) : Prop where
  live : ∀ key id, s.sessions.Has key id → id ∈ s.live
  used : ∀ id ∈ s.live, id ∈ s.used
  alone : ∀ key key' id, s.sessions.Has key id → s.sessions.Has key' id → key = key'
  removing : ∀ key session, s.sessions.lookup key = some session → session.isEmpty = true →
    key ∈ s.removing

theorem inv_start : Inv {} := by
  constructor <;> simp [Sessions.Has]

/-- Entries without UI sessions are always about to be removed. -/
theorem Inv.kept_iff (inv : Inv s) : Kept s ↔ ∀ id ∈ s.live, ∃ key, s.sessions.Has key id := by
  simp only [Kept, Sessions.getSessionBySessionId_isSome, and_iff_left_iff_imp]
  intro _ idle e entry
  rw [Bool.eq_false_iff]
  intro empty
  have removing := inv.removing e.1 e.2 (AList.mem_lookup_iff.mpr entry) empty
  simp [idle] at removing

/-- An id that is new to the entries joins one of them. -/
theorem Inv.insert (key : PeerKey) (inv : Inv s) (fresh : id ∉ s.used)
    (has : ∀ key' id', sessions.Has key' id' ↔ s.sessions.Has key' id' ∨ key' = key ∧ id' = id)
    (empty : ∀ key session, sessions.lookup key = some session → session.isEmpty = true →
      s.sessions.lookup key = some session) :
    Inv { s with sessions, used := id :: s.used, live := id :: s.live }  where
  live key' id' holds := by
    rcases (has key' id').mp holds with old | new
    · exact List.mem_cons_of_mem id (inv.live key' id' old)
    · exact new.2 ▸ List.mem_cons_self
  used id' member := by
    rcases List.mem_cons.mp member with rfl | old
    · exact List.mem_cons_self
    · exact List.mem_cons_of_mem id (inv.used id' old)
  alone key₁ key₂ id' first second := by
    have unheld {key' : PeerKey} (old : s.sessions.Has key' id) : False :=
      fresh (inv.used id (inv.live key' id old))
    rcases (has key₁ id').mp first with old | ⟨same₁, rfl⟩
    · rcases (has key₂ id').mp second with old' | ⟨-, rfl⟩
      · exact inv.alone key₁ key₂ id' old old'
      · exact (unheld old).elim
    · rcases (has key₂ id').mp second with old | ⟨same₂, -⟩
      · exact (unheld old).elim
      · exact same₁.trans same₂.symm
  removing key' session found none_ := inv.removing key' session (empty key' session found none_) none_

/-- What joins an entry is found, and nothing gets lost. -/
theorem kept_insert (key : PeerKey)
    (has : ∀ key' id', sessions.Has key' id' ↔ s.sessions.Has key' id' ∨ key' = key ∧ id' = id)
    (found : ∀ id' ∈ s.live, ∃ key', s.sessions.Has key' id') :
    ∀ id' ∈ id :: s.live, ∃ key', sessions.Has key' id' := by
  intro id' member
  rcases List.mem_cons.mp member with rfl | old
  · exact ⟨key, (has key id').mpr (.inr ⟨rfl, rfl⟩)⟩
  · obtain ⟨key', holds⟩ := found id' old
    exact ⟨key', (has key' id').mpr (.inl holds)⟩

/-- An entry is not empty once something was inserted. -/
theorem lookup_of_isEmpty {session session' : FlutterSession} {h : SessionHandler}
    (found : (sessions.insert key { session with
      sessionHandlers := session.sessionHandlers.insert id h }).lookup key' = some session')
    (empty : session'.isEmpty = true) : sessions.lookup key' = some session' := by
  by_cases same : key' = key
  · subst same
    rw [AList.lookup_insert, Option.some.injEq] at found
    subst found
    exact absurd ((AList.mem_insert _).mpr (.inl rfl)) (FlutterSession.isEmpty_iff.mp empty id)
  · rwa [AList.lookup_insert_ne same] at found

section

variable (inv : Inv s)

include inv

theorem insertSession_inv (fresh : Fresh s (.insertSession id connType peerId)) :
    Inv (s.step (.insertSession id connType peerId)) := by
  apply inv.insert (peerId, connType) (fresh id rfl)
  · intro key' id'
    exact Sessions.has_insertSession
  · intro key session found empty
    exact lookup_of_isEmpty found empty

theorem insertPeerSessionId_inv {displays : List Int32}
    (fresh : Fresh s (.insertPeerSessionId peerId connType id displays)) :
    Inv (s.step (.insertPeerSessionId peerId connType id displays)) := by
  cases found : s.sessions.lookup (peerId, connType) with
  | none =>
      simp only [step, Sessions.insertPeerSessionId, found]
      exact { inv with used := fun id' member => List.mem_cons_of_mem id (inv.used id' member) }
  | some session =>
      have inserted : (s.sessions.insertPeerSessionId peerId connType id displays).2 = true := by
        simp [Sessions.insertPeerSessionId, found]
      simp only [step, inserted, if_true]
      apply inv.insert (peerId, connType) (fresh id rfl)
      · intro key' id'
        simp [Sessions.has_insertPeerSessionId, inserted]
      · intro key session' found' empty
        simp only [Sessions.insertPeerSessionId, found] at found'
        exact lookup_of_isEmpty found' empty

/-- The first section of a removal takes out the UI session and no other. -/
theorem Inv.has_removeHandler {id' : SessionId} :
    (s.sessions.removeHandler id).1.Has key id' ↔ s.sessions.Has key id' ∧ id' ≠ id := by
  rcases Sessions.removeHandler_cases id s.sessions with ⟨same, absent⟩ | ⟨key', session, found,
    holds, after⟩
  · rw [same]
    constructor
    · intro has
      refine ⟨has, ?_⟩
      rintro rfl
      exact absent key has
    · exact And.left
  · rw [after, Sessions.has_insert]
    by_cases here : key = key'
    · subst here
      simp [Sessions.Has, found, AList.mem_erase, and_comm]
    · rw [if_neg here]
      constructor
      · intro has
        refine ⟨has, ?_⟩
        rintro rfl
        exact here (inv.alone key key' id' has ⟨session, found, holds⟩)
      · exact And.left

theorem removeHandler_inv : Inv (s.step (.removeHandler id)) where
  live key id' has := by
    obtain ⟨old, other⟩ := inv.has_removeHandler.mp has
    exact List.mem_filter.mpr ⟨inv.live key id' old, by simpa using other⟩
  used id' member := inv.used id' (List.mem_of_mem_filter member)
  alone key key' id' first second :=
    inv.alone key key' id' (inv.has_removeHandler.mp first).1 (inv.has_removeHandler.mp second).1
  removing key session found empty := by
    have old (found : s.sessions.lookup key = some session) :
        key ∈ (s.sessions.removeHandler id).2.toList ++ s.removing :=
      List.mem_append_right _ (inv.removing key session found empty)
    rcases Sessions.removeHandler_cases id s.sessions with ⟨same, -⟩ | ⟨key', session', -, -, after⟩
    · rw [step, same] at found
      exact old found
    · rw [step, after] at found
      by_cases here : key = key'
      · subst here
        obtain rfl := Option.some.inj ((AList.lookup_insert _).symm.trans found)
        simp [step, after, empty]
      · rw [AList.lookup_insert_ne here] at found
        exact old found

theorem removePeer_inv : Inv (s.step (.removePeer key)) := by
  rw [step]
  split
  case isFalse => exact inv
  case isTrue pending =>
    constructor
    · intro key' id' has
      exact inv.live key' id' (Sessions.has_removePeer.mp has).2
    · exact inv.used
    · intro key₁ key₂ id' first second
      exact inv.alone key₁ key₂ id' (Sessions.has_removePeer.mp first).2
        (Sessions.has_removePeer.mp second).2
    · intro key' session found empty
      by_cases same : key' = key
      · subst same
        simp [Sessions.removePeer] at found
      · rw [Sessions.removePeer, AList.lookup_erase_ne same] at found
        exact (List.mem_erase_of_ne same).mpr (inv.removing key' session found empty)

theorem Inv.step (fresh : Fresh s e) : Inv (s.step e) := by
  cases e with
  | insertSession sessionId connType peerId => exact insertSession_inv inv fresh
  | insertPeerSessionId peerId connType sessionId displays => exact insertPeerSessionId_inv inv fresh
  | removeHandler id => exact removeHandler_inv inv
  | removePeer key => exact removePeer_inv inv

/-- The second section of a removal loses UI sessions exactly when there are some. -/
theorem removePeer_kept_iff (found : ∀ id ∈ s.live, ∃ key, s.sessions.Has key id) :
    Kept (s.step (.removePeer key)) ↔ StaysEmpty s (.removePeer key) := by
  rw [(removePeer_inv inv).kept_iff, step]
  split
  case isFalse idle => exact ⟨fun _ pending => absurd pending idle, fun _ => found⟩
  case isTrue pending =>
    simp only [StaysEmpty, pending, forall_const, Sessions.has_removePeer]
    constructor
    · intro after session entry
      refine FlutterSession.isEmpty_iff.mpr fun id holds => ?_
      have here : s.sessions.Has key id := ⟨session, entry, holds⟩
      obtain ⟨key', other, has⟩ := after id (inv.live key id here)
      exact other (inv.alone key' key id has here)
    · intro empty id live
      obtain ⟨key', has⟩ := found id live
      refine ⟨key', ?_, has⟩
      rintro rfl
      obtain ⟨session, entry, holds⟩ := has
      exact FlutterSession.isEmpty_iff.mp (empty session entry) id holds

theorem kept_step_iff (fresh : Fresh s e) (kept : Kept s) :
    Kept (s.step e) ↔ StaysEmpty s e := by
  have found := inv.kept_iff.mp kept
  cases e with
  | insertSession sessionId connType peerId =>
      simp only [StaysEmpty, iff_true]
      rw [(inv.step fresh).kept_iff]
      exact kept_insert (peerId, connType) (fun _ _ => Sessions.has_insertSession) found
  | insertPeerSessionId peerId connType sessionId displays =>
      simp only [StaysEmpty, iff_true]
      rw [(inv.step fresh).kept_iff]
      cases inserted : (s.sessions.insertPeerSessionId peerId connType sessionId displays).2 with
      | false =>
          simp only [step, inserted]
          intro id live
          obtain ⟨key, has⟩ := found id live
          exact ⟨key, Sessions.has_insertPeerSessionId.mpr (.inl has)⟩
      | true =>
          simp only [step, inserted, if_true]
          refine kept_insert (peerId, connType) (fun key id => ?_) found
          simp [Sessions.has_insertPeerSessionId, inserted]
  | removeHandler id =>
      simp only [StaysEmpty, iff_true]
      rw [(inv.step fresh).kept_iff]
      intro id' live
      obtain ⟨old, other⟩ := List.mem_filter.mp live
      obtain ⟨key, has⟩ := found id' old
      exact ⟨key, inv.has_removeHandler.mpr ⟨has, by simpa using other⟩⟩
  | removePeer key => exact removePeer_kept_iff inv found

end

theorem step_used (s : State) (e : Event) : (s.step e).used = e.inserted.toList ++ s.used := by
  cases e with
  | removePeer key =>
      simp only [step]
      split <;> rfl
  | _ => rfl

/-- Calls with different ids are calls with new ids. -/
theorem along_fresh {events : List Event} (distinct : (events.filterMap Event.inserted).Nodup)
    (new : ∀ id ∈ events.filterMap Event.inserted, id ∉ s.used) : Along step Fresh s events := by
  induction events generalizing s with
  | nil => trivial
  | cons e rest ih =>
      cases inserts : e.inserted with
      | none =>
          rw [List.filterMap_cons_none inserts] at distinct new
          refine ⟨by simp [Fresh, inserts], ih distinct ?_⟩
          simpa [step_used, inserts] using new
      | some id =>
          rw [List.filterMap_cons_some inserts] at distinct new
          obtain ⟨absent, distinct⟩ := List.nodup_cons.mp distinct
          have fresh : id ∉ s.used := new id List.mem_cons_self
          refine ⟨by simpa [Fresh, inserts] using fresh, ih distinct ?_⟩
          intro id' member
          have other : id' ≠ id := ne_of_mem_of_not_mem member absent
          simpa [step_used, inserts, other] using new id' (List.mem_cons_of_mem id member)

/-- With different ids, no UI session is ever lost and no entry is ever left without one
    exactly when each second section of a removal finds its entry without UI sessions. -/
theorem ui_sessions_kept_iff (events : List Event)
    (distinct : (events.filterMap Event.inserted).Nodup) :
    Always step Kept {} events ↔ Along step StaysEmpty {} events := by
  have met : Along step Fresh {} events := along_fresh distinct (by simp)
  apply Runs.always_iff_along_of_along (q := Inv) (fun _ _ fresh inv _ => inv.step fresh)
    (fun _ _ fresh inv kept => kept_step_iff inv fresh kept) met inv_start
  · exact inv_start.kept_iff.mpr (by simp)

/-- The first tab on a peer is closed before the second one is opened. -/
theorem ui_sessions_kept_two :
    Always step Kept {} [.insertSession 1 .defaultConn "peer", .removeHandler 1,
      .removePeer ("peer", .defaultConn), .insertSession 2 .defaultConn "peer"] :=
  (ui_sessions_kept_iff _ (by decide +kernel)).mpr (by decide +kernel)

/-- The second tab is opened while the first one is being closed. -/
theorem opened_session_lost :
    ¬ Always step Kept {} [.insertSession 1 .defaultConn "peer", .removeHandler 1,
      .insertPeerSessionId "peer" .defaultConn 2 [0], .removePeer ("peer", .defaultConn)] := by
  decide +kernel

end State

end RemoteControl.UiSessions
