import Mathlib.Algebra.Ring.Int.Defs
import Mathlib.Algebra.Ring.Nat
import RemoteControl.Runs

/-! # The cursors on the whiteboard

`update_whiteboard` of `whiteboard/client.rs` sends one movement of four to the loop that drives the
whiteboard and holds the others back. A held one is sent before a click, or by the timer of the loop when
nothing came for 300 ms. A click is drawn where the last movement was that went through `tx_send_event`.
-/

namespace RemoteControl.WhiteboardCursor

variable {F : Type}

structure Cursor (F : Type) where
  x : F
  y : F
  argb : UInt32
  btns : Int
  text : String
  deriving DecidableEq

def Cursor.pos (c : Cursor F) : F × F := (c.x, c.y)

/-- What `update_whiteboard` is called with. The exit goes another way. -/
inductive CustomEvent (F : Type) where
  | cursor (cursor : Cursor F)
  | clear
  deriving DecidableEq

/-- A cursor event and the number of its call, which no function looks at. -/
structure Given (F : Type) where
  cursor : Cursor F
  call : Nat

structure Conn (F : Type) where
  /-- For the click ripple. -/
  lastCursorPos : F × F
  /-- `last_cursor_evt.evt`, the movement that is held back. -/
  evt : Option (Given F) := none
  tm : Nat
  c : Nat := 0
  /-- The latest movement. -/
  latest : Option (Given F) := none

/-- What is sent for a connection, by which call it was given, and for a click where it should be. -/
structure Message (F : Type) where
  key : String
  event : CustomEvent F
  call : Nat
  due : Option (F × F) := none
  deriving DecidableEq

/-- `tx_send_event`, and what it sends. -/
def txSendEvent (m : Message F) (conn : Conn F) : Conn F × List (Message F) :=
  (match m.event with
    | .cursor cursor => if cursor.btns = 0 then { conn with lastCursorPos := cursor.pos } else conn
    | .clear => conn, [m])

def Given.message (k : String) (g : Given F) : Message F := ⟨k, .cursor g.cursor, g.call, none⟩

/-- The held movement is sent before a click. -/
def flush (k : String) (conn : Conn F) : Conn F × List (Message F) :=
  match conn.evt with
  | some g =>
      let (conn, sent) := txSendEvent (g.message k) { conn with evt := none }
      ({ conn with c := 0 }, sent)
  | none => (conn, [])

/-- `update_whiteboard` for a connection that is registered. -/
def updateWhiteboard (k : String) (now call : Nat) (e : CustomEvent F) (conn : Conn F) :
    Conn F × List (Message F) :=
  match e with
  | .cursor cursor =>
      let conn := { conn with c := conn.c + 1, tm := now }
      if cursor.btns = 0 then
        let conn := { conn with latest := some ⟨cursor, call⟩ }
        -- one movement event of four
        if conn.c > 3 then txSendEvent ⟨k, e, call, none⟩ { conn with c := 0, evt := none }
        else ({ conn with evt := some ⟨cursor, call⟩ }, [])
      else
        let (conn, flushed) := flush k conn
        let click := { cursor with x := conn.lastCursorPos.1, y := conn.lastCursorPos.2 }
        let (conn, clicked) := txSendEvent ⟨k, .cursor click, call, conn.latest.map (·.cursor.pos)⟩ conn
        (conn, flushed ++ clicked)
  | .clear => txSendEvent ⟨k, e, call, none⟩ conn

structure State (F : Type) where
  /-- `CONNS` -/
  conns : String → Option (Conn F) := fun _ => none
  /-- What the loop has not received. -/
  queue : List (Message F) := []
  /-- What the loop has sent. -/
  stream : List (Message F) := []
  calls : Nat := 0
  /-- The clicks, and the movements that a click or a pause followed. -/
  owed : List (String × Nat) := []

/-- The calls and the sections of the loop, while the whiteboard is running. -/
inductive Event (F : Type) where
  | register (k : String) (now : Nat)
  | update (k : String) (e : CustomEvent F) (now : Nat)
  /-- The loop receives a message and sends it. -/
  | recv
  /-- The loop comes to the connection on a tick of its timer. -/
  | tick (k : String) (now : Nat)

namespace State

/-- A click is owed, and so is the movement before it. -/
def owes (k : String) (call : Nat) (conn : Conn F) : CustomEvent F → List (String × Nat)
  | .cursor cursor =>
      if cursor.btns = 0 then [] else (k, call) :: (conn.latest.map fun g => (k, g.call)).toList
  | .clear => []

def step [Zero F] (s : State F) : Event F → State F
  | .register k now =>
      match s.conns k with
      | some _ => s
      | none => { s with conns := Function.update s.conns k (some { lastCursorPos := (0, 0), tm := now }) }
  | .update k e now =>
      match s.conns k with
      | none => s
      | some conn =>
          let (updated, sent) := updateWhiteboard k now s.calls e conn
          { s with
            conns := Function.update s.conns k (some updated)
            queue := s.queue ++ sent
            calls := s.calls + 1
            owed := s.owed ++ owes k s.calls conn e }
  | .recv =>
      match s.queue with
      | [] => s
      | m :: queue => { s with queue := queue, stream := s.stream ++ [m] }
  | .tick k now =>
      match s.conns k with
      | none => s
      | some conn =>
          if now - conn.tm > 300 then
            { s with
              conns := Function.update s.conns k
                (some { conn with evt := none, c := if conn.evt.isSome then 0 else conn.c })
              stream := s.stream ++ (conn.evt.map (Given.message k)).toList
              owed := s.owed ++ (conn.latest.map fun g => (k, g.call)).toList }
          else s

/-- What was sent and is on its way, in the order in which it comes out. -/
def line (s : State F) : List (Message F) := s.stream ++ s.queue

end State

def Message.isMovement (m : Message F) : Bool :=
  match m.event with
  | .cursor cursor => cursor.btns = 0
  | .clear => false

/-- The movements of a connection. -/
def Message.moves (k : String) (m : Message F) : Bool := m.key = k && m.isMovement

namespace State

structure Law (s : State F) : Prop where
  /-- Each click is where the latest movement before it was. -/
  clicks : ∀ m ∈ s.line, ∀ cursor, m.event = .cursor cursor → cursor.btns ≠ 0 →
    ∀ pos, m.due = some pos → cursor.pos = pos
  /-- No movement comes twice or after a later one. -/
  order : ∀ k, (s.line.filter (Message.moves k)).Pairwise fun a b => a.call < b.call
  /-- Each click is sent, and each movement that a click or a long enough pause followed. -/
  delivered : ∀ n ∈ s.owed, ∃ m ∈ s.line, (m.key, m.call) = n

/-- The timer sent nothing behind the back of a click: the latest movement is held, or its position is
    the one that is remembered. And what it sends does not overtake a movement that was not received. -/
def Meets (s : State F) : Event F → Prop
  | .update k (.cursor cursor) _ => cursor.btns ≠ 0 → ∀ conn, s.conns k = some conn → conn.evt = none →
      ∀ g, conn.latest = some g → conn.lastCursorPos = g.cursor.pos
  | .tick k now => ∀ conn, s.conns k = some conn → now - conn.tm > 300 → conn.evt ≠ none →
      ∀ m ∈ s.queue, m.moves k = false
  | _ => True

end State

/-! ## What a call does to its connection -/

section Update

variable {k : String} {now call : Nat} {cursor : Cursor F} {conn : Conn F} {g : Given F}

theorem updateWhiteboard_fourth (movement : cursor.btns = 0) (fourth : conn.c + 1 > 3) :
    updateWhiteboard k now call (.cursor cursor) conn =
      (⟨cursor.pos, none, now, 0, some ⟨cursor, call⟩⟩, [⟨k, .cursor cursor, call, none⟩]) := by
  simp [updateWhiteboard, txSendEvent, movement, fourth]

theorem updateWhiteboard_held (movement : cursor.btns = 0) (early : ¬conn.c + 1 > 3) :
    updateWhiteboard k now call (.cursor cursor) conn =
      (⟨conn.lastCursorPos, some ⟨cursor, call⟩, now, conn.c + 1, some ⟨cursor, call⟩⟩, []) := by
  simp [updateWhiteboard, movement, early]

/-- The click at a position. -/
def click (k : String) (call : Nat) (cursor : Cursor F) (pos : F × F) (due : Option (F × F)) : Message F :=
  ⟨k, .cursor { cursor with x := pos.1, y := pos.2 }, call, due⟩

theorem updateWhiteboard_click_held (isClick : cursor.btns ≠ 0) (held : conn.evt = some g)
    (movement : g.cursor.btns = 0) :
    updateWhiteboard k now call (.cursor cursor) conn =
      (⟨g.cursor.pos, none, now, 0, conn.latest⟩,
        [g.message k, click k call cursor g.cursor.pos (conn.latest.map (·.cursor.pos))]) := by
  simp [updateWhiteboard, flush, txSendEvent, click, Given.message, isClick, held, movement]

theorem updateWhiteboard_click (isClick : cursor.btns ≠ 0) (nothing : conn.evt = none) :
    updateWhiteboard k now call (.cursor cursor) conn =
      (⟨conn.lastCursorPos, none, now, conn.c + 1, conn.latest⟩,
        [click k call cursor conn.lastCursorPos (conn.latest.map (·.cursor.pos))]) := by
  simp [updateWhiteboard, flush, txSendEvent, click, isClick, nothing]

theorem updateWhiteboard_clear :
    updateWhiteboard k now call .clear conn = (conn, [⟨k, .clear, call, none⟩]) := rfl

theorem moves_message (movement : g.cursor.btns = 0) : (g.message k).moves k = true := by
  simp [Message.moves, Message.isMovement, Given.message, movement]

theorem moves_click {pos : F × F} {due : Option (F × F)} {other : String} (isClick : cursor.btns ≠ 0) :
    (click k call cursor pos due).moves other = false := by
  simp [Message.moves, Message.isMovement, click, isClick]

end Update

namespace State

section Inv

/-- A movement that is held is the latest one and later than all that were sent; otherwise the latest one
    was sent. -/
structure Kept (s : State F) (k : String) (conn : Conn F) : Prop where
  held : ∀ g, conn.evt = some g → conn.latest = some g ∧ g.cursor.btns = 0
  earlier : ∀ g, conn.latest = some g → g.call < s.calls
  unsent : ∀ g, conn.evt = some g → ∀ m ∈ s.line, m.moves k = true → m.call < g.call
  sent : conn.evt = none → ∀ g, conn.latest = some g → ∃ m ∈ s.line, (m.key, m.call) = (k, g.call)

structure Inv (s : State F) : Prop where
  conns : ∀ k conn, s.conns k = some conn → Kept s k conn
  calls : ∀ m ∈ s.line, m.call < s.calls
  delivered : ∀ n ∈ s.owed, ∃ m ∈ s.line, (m.key, m.call) = n

variable {s t : State F} {k : String} {conn : Conn F}

/-- A connection does not see what the others send. -/
theorem Kept.mono {other : String} (kept : Kept s other conn) (grows : s.calls ≤ t.calls)
    (old : ∀ m ∈ s.line, m ∈ t.line) (new : ∀ m ∈ t.line, m ∈ s.line ∨ m.key = k) (apart : other ≠ k) :
    Kept t other conn := by
  refine ⟨kept.held, ?_, ?_, ?_⟩
  · intro g known
    exact Nat.lt_of_lt_of_le (kept.earlier g known) grows
  · intro g known m inside moves
    cases new m inside with
    | inl earlier => exact kept.unsent g known m earlier moves
    | inr same =>
        have key : m.key = other := by
          simp [Message.moves] at moves
          exact moves.1
        exact absurd (key.symm.trans same) apart
  · intro none_ g known
    obtain ⟨m, inside, same⟩ := kept.sent none_ g known
    exact ⟨m, old m inside, same⟩

/-- A step that changes one connection and sends for it alone. -/
theorem Inv.change (inv : Inv s) (conns : t.conns = Function.update s.conns k (some conn)) (kept : Kept t k conn)
    (grows : s.calls ≤ t.calls) (old : ∀ m ∈ s.line, m ∈ t.line)
    (new : ∀ m ∈ t.line, m ∈ s.line ∨ m.key = k ∧ m.call < t.calls)
    (owed : ∀ n ∈ t.owed, n ∈ s.owed ∨ ∃ m ∈ t.line, (m.key, m.call) = n) : Inv t := by
  constructor
  · intro other found known
    rw [conns] at known
    by_cases same : other = k
    · subst same
      rw [Function.update_self] at known
      exact Option.some_inj.mp known ▸ kept
    · rw [Function.update_of_ne same] at known
      apply (inv.conns other found known).mono grows old ?_ same
      intro m inside
      exact (new m inside).imp_right And.left
  · intro m inside
    cases new m inside with
    | inl earlier => exact Nat.lt_of_lt_of_le (inv.calls m earlier) grows
    | inr fresh => exact fresh.2
  · intro n inside
    cases owed n inside with
    | inl earlier =>
        obtain ⟨m, there, same⟩ := inv.delivered n earlier
        exact ⟨m, old m there, same⟩
    | inr sent => exact sent

/-- A call that leaves a connection and sends some messages. -/
def called (s : State F) (k : String) (result : Conn F × List (Message F)) (more : List (String × Nat)) : State F where
  conns := Function.update s.conns k (some result.1)
  queue := s.queue ++ result.2
  stream := s.stream
  calls := s.calls + 1
  owed := s.owed ++ more

@[simp] theorem line_called (result : Conn F × List (Message F)) (more : List (String × Nat)) :
    (s.called k result more).line = s.line ++ result.2 :=
  (List.append_assoc ..).symm

theorem step_update [Zero F] {e : CustomEvent F} {now : Nat} (known : s.conns k = some conn) :
    s.step (.update k e now) = s.called k (updateWhiteboard k now s.calls e conn) (owes k s.calls conn e) := by
  simp only [step, known]
  rfl

/-- A click is where it should be. -/
def Right (m : Message F) : Prop :=
  ∀ cursor, m.event = .cursor cursor → cursor.btns ≠ 0 → ∀ pos, m.due = some pos → cursor.pos = pos

variable {result : Conn F × List (Message F)} {more : List (String × Nat)} {m : Message F}

/-- The messages of a call are for its connection and come after what was sent for it. -/
structure Fresh (s : State F) (k : String) (sent : List (Message F)) : Prop where
  key : ∀ m ∈ sent, m.key = k ∧ m.call ≤ s.calls
  after : ∀ m ∈ s.line, m.moves k = true → ∀ m' ∈ sent, m'.moves k = true → m.call < m'.call
  sorted : (sent.filter (Message.moves k)).Pairwise fun a b => a.call < b.call

theorem Inv.called (inv : Inv s) (fresh : Fresh s k result.2) (kept : Kept (s.called k result more) k result.1)
    (owed : ∀ n ∈ more, ∃ m ∈ (s.called k result more).line, (m.key, m.call) = n) :
    Inv (s.called k result more) := by
  apply inv.change rfl kept (Nat.le_succ _)
  · intro m inside
    rw [line_called]
    exact List.mem_append_left _ inside
  · intro m inside
    rw [line_called] at inside
    apply (List.mem_append.mp inside).imp_right
    intro new
    have facts := fresh.key m new
    exact ⟨facts.1, Nat.lt_succ_of_le facts.2⟩
  · intro n inside
    exact (List.mem_append.mp inside).imp_right (owed n)

theorem order_append {line sent : List (Message F)} (key : ∀ m ∈ sent, m.key = k)
    (after : ∀ m ∈ line, m.moves k = true → ∀ m' ∈ sent, m'.moves k = true → m.call < m'.call)
    (sorted : (sent.filter (Message.moves k)).Pairwise fun a b => a.call < b.call)
    (order : ∀ k, (line.filter (Message.moves k)).Pairwise fun a b => a.call < b.call) (other : String) :
    ((line ++ sent).filter (Message.moves other)).Pairwise fun a b => a.call < b.call := by
  rw [List.filter_append]
  by_cases same : other = k
  · subst same
    apply List.pairwise_append.mpr
    refine ⟨order other, sorted, ?_⟩
    intro m inside m' inside'
    have first := List.mem_filter.mp inside
    have second := List.mem_filter.mp inside'
    exact after m first.1 first.2 m' second.1 second.2
  · have nothing : sent.filter (Message.moves other) = [] := by
      apply List.filter_eq_nil_iff.mpr
      intro m inside moves
      simp [Message.moves] at moves
      exact same (moves.1.symm.trans (key m inside))
    rw [nothing, List.append_nil]
    exact order other

theorem law_called_iff (inv : Inv (s.called k result more)) (fresh : Fresh s k result.2) (law : Law s) :
    Law (s.called k result more) ↔ ∀ m ∈ result.2, Right m := by
  constructor
  · intro after m inside
    apply after.clicks m
    rw [line_called]
    exact List.mem_append_right _ inside
  · intro right
    refine ⟨?_, ?_, inv.delivered⟩
    · intro m inside
      rw [line_called] at inside
      cases List.mem_append.mp inside with
      | inl old => exact law.clicks m old
      | inr new => exact right m new
    · intro other
      rw [line_called]
      exact order_append (fun m inside => (fresh.key m inside).1) fresh.after fresh.sorted law.order other

theorem right_of_movement (movement : m.isMovement = true ∨ m.event = .clear) : Right m := by
  intro cursor event isClick
  cases movement with
  | inl moves => simp [Message.isMovement, event, isClick] at moves
  | inr clear => exact absurd (event.symm.trans clear) nofun

theorem right_click_iff {cursor : Cursor F} {call : Nat} {pos : F × F} {due : Option (F × F)}
    (isClick : cursor.btns ≠ 0) : Right (click k call cursor pos due) ↔ ∀ other, due = some other → pos = other := by
  constructor
  · intro right
    exact right _ rfl isClick
  · intro same drawn event _
    cases event
    exact same

/-- One message of a call: no movement, or one that is later than all that were sent. -/
theorem fresh_singleton (key : m.key = k) (call : m.call ≤ s.calls)
    (after : m.moves k = true → ∀ old ∈ s.line, old.moves k = true → old.call < m.call) :
    Fresh s k [m] := by
  constructor
  · intro m' inside
    obtain rfl := List.mem_singleton.mp inside
    exact ⟨key, call⟩
  · intro old inside moves m' inside' moves'
    obtain rfl := List.mem_singleton.mp inside'
    exact after moves' old inside moves
  · exact (List.pairwise_singleton _ m).filter _

/-- What holds of a call when the invariant and the law hold before it. -/
def Handles [Zero F] (s : State F) (e : Event F) : Prop := Inv (s.step e) ∧ (Law (s.step e) ↔ Meets s e)

section Calls

variable [Zero F] {cursor : Cursor F} {now : Nat} (inv : Inv s) (law : Law s) (known : s.conns k = some conn)

include inv law known

theorem handles_called {e : CustomEvent F} (same : updateWhiteboard k now s.calls e conn = result)
    (fresh : Fresh s k result.2) (kept : Kept (s.called k result (owes k s.calls conn e)) k result.1)
    (owed : ∀ n ∈ owes k s.calls conn e, ∃ m ∈ s.line ++ result.2, (m.key, m.call) = n)
    (right : (∀ m ∈ result.2, Right m) ↔ Meets s (.update k e now)) : Handles s (.update k e now) := by
  unfold Handles
  rw [step_update known, same]
  have after : Inv (s.called k result (owes k s.calls conn e)) := by
    apply inv.called fresh kept
    rw [line_called]
    exact owed
  exact ⟨after, (law_called_iff after fresh law).trans right⟩

theorem handles_clear : Handles s (.update k .clear now) := by
  have kept := inv.conns k conn known
  apply handles_called inv law known updateWhiteboard_clear
  · apply fresh_singleton
    · rfl
    · exact Nat.le_refl _
    · simp [Message.moves, Message.isMovement]
  · refine ⟨kept.held, ?_, ?_, ?_⟩
    · intro g latest
      exact Nat.lt_succ_of_lt (kept.earlier g latest)
    · intro g held m inside moves
      rw [line_called] at inside
      cases List.mem_append.mp inside with
      | inl old => exact kept.unsent g held m old moves
      | inr new =>
          obtain rfl := List.mem_singleton.mp new
          simp [Message.moves, Message.isMovement] at moves
    · intro nothing g latest
      obtain ⟨m, inside, same⟩ := kept.sent nothing g latest
      exact ⟨m, line_called _ _ ▸ List.mem_append_left _ inside, same⟩
  · exact nofun
  · refine iff_of_true ?_ trivial
    intro m inside
    obtain rfl := List.mem_singleton.mp inside
    exact right_of_movement (.inr rfl)

theorem handles_fourth (movement : cursor.btns = 0) (fourth : conn.c + 1 > 3) :
    Handles s (.update k (.cursor cursor) now) := by
  apply handles_called inv law known (updateWhiteboard_fourth movement fourth)
  · apply fresh_singleton
    · rfl
    · exact Nat.le_refl _
    · intro _ old inside _
      exact inv.calls old inside
  · refine ⟨nofun, ?_, nofun, ?_⟩
    · intro g latest
      cases latest
      exact Nat.lt_succ_self _
    · intro _ g latest
      cases latest
      exact ⟨⟨k, .cursor cursor, s.calls, none⟩, by simp, rfl⟩
  · simp [owes, movement]
  · refine iff_of_true ?_ fun isClick => absurd movement isClick
    intro m inside
    obtain rfl := List.mem_singleton.mp inside
    exact right_of_movement (.inl (by simp [Message.isMovement, movement]))

theorem handles_held (movement : cursor.btns = 0) (early : ¬conn.c + 1 > 3) :
    Handles s (.update k (.cursor cursor) now) := by
  apply handles_called inv law known (updateWhiteboard_held movement early)
  · exact ⟨List.forall_mem_nil _, fun _ _ _ => List.forall_mem_nil _, .nil⟩
  · refine ⟨?_, ?_, ?_, nofun⟩
    · intro g held
      cases held
      exact ⟨rfl, movement⟩
    · intro g latest
      cases latest
      exact Nat.lt_succ_self _
    · intro g held m inside _
      cases held
      rw [line_called, List.append_nil] at inside
      exact inv.calls m inside
  · simp [owes, movement]
  · exact iff_of_true (List.forall_mem_nil _) fun isClick => absurd movement isClick

theorem handles_click_held {g : Given F} (isClick : cursor.btns ≠ 0) (held : conn.evt = some g) :
    Handles s (.update k (.cursor cursor) now) := by
  have kept := inv.conns k conn known
  obtain ⟨latest, movement⟩ := kept.held g held
  apply handles_called inv law known (updateWhiteboard_click_held isClick held movement)
  · constructor
    · intro m inside
      cases List.mem_cons.mp inside with
      | inl first =>
          subst first
          exact ⟨rfl, Nat.le_of_lt (kept.earlier g latest)⟩
      | inr second =>
          obtain rfl := List.mem_singleton.mp second
          exact ⟨rfl, Nat.le_refl _⟩
    · intro old inside moves m inside' moves'
      cases List.mem_cons.mp inside' with
      | inl first =>
          subst first
          exact kept.unsent g held old inside moves
      | inr second =>
          obtain rfl := List.mem_singleton.mp second
          simp [moves_click isClick] at moves'
    · simp [moves_click isClick, moves_message movement]
  · refine ⟨nofun, ?_, nofun, ?_⟩
    · intro g' latest'
      exact Nat.lt_succ_of_lt (kept.earlier g' latest')
    · intro _ g' latest'
      obtain rfl := Option.some_inj.mp (latest.symm.trans latest')
      exact ⟨g.message k, by simp, rfl⟩
  · intro n inside
    have either : n = (k, s.calls) ∨ n = (k, g.call) := by simpa [owes, isClick, latest] using inside
    cases either with
    | inl first => exact ⟨click k s.calls cursor g.cursor.pos (conn.latest.map (·.cursor.pos)), by simp, first.symm⟩
    | inr second => exact ⟨g.message k, by simp, second.symm⟩
  · apply iff_of_true
    · intro m inside
      cases List.mem_cons.mp inside with
      | inl first =>
          subst first
          exact right_of_movement (.inl (by simp [Message.isMovement, Given.message, movement]))
      | inr second =>
          obtain rfl := List.mem_singleton.mp second
          rw [right_click_iff isClick]
          intro other due
          rw [latest] at due
          exact Option.some_inj.mp due
    · intro _ found same nothing
      obtain rfl := Option.some_inj.mp (known.symm.trans same)
      exact absurd (held.symm.trans nothing) nofun

theorem handles_click (isClick : cursor.btns ≠ 0) (nothing : conn.evt = none) :
    Handles s (.update k (.cursor cursor) now) := by
  have kept := inv.conns k conn known
  apply handles_called inv law known (updateWhiteboard_click isClick nothing)
  · apply fresh_singleton
    · rfl
    · exact Nat.le_refl _
    · simp [moves_click isClick]
  · refine ⟨nofun, ?_, nofun, ?_⟩
    · intro g latest
      exact Nat.lt_succ_of_lt (kept.earlier g latest)
    · intro _ g latest
      obtain ⟨m, inside, same⟩ := kept.sent nothing g latest
      exact ⟨m, line_called _ _ ▸ List.mem_append_left _ inside, same⟩
  · intro n inside
    simp only [owes, isClick, if_false, List.mem_cons, Option.mem_toList, Option.map_eq_some_iff] at inside
    cases inside with
    | inl first =>
        exact ⟨click k s.calls cursor conn.lastCursorPos (conn.latest.map (·.cursor.pos)), by simp, first.symm⟩
    | inr second =>
        obtain ⟨g, latest, rfl⟩ := second
        obtain ⟨m, there, same⟩ := kept.sent nothing g latest
        exact ⟨m, List.mem_append_left _ there, same⟩
  · simp only [List.mem_singleton, forall_eq, right_click_iff isClick, Option.map_eq_some_iff, Meets]
    constructor
    · intro right _ found same _ g latest
      obtain rfl := Option.some_inj.mp (known.symm.trans same)
      exact right _ ⟨g, latest, rfl⟩
    · intro meets other due
      obtain ⟨g, latest, rfl⟩ := due
      exact meets isClick conn known nothing g latest

end Calls

theorem handles_of_same [Zero F] {e : Event F} (inv : Inv s) (law : Law s) (same : s.step e = s)
    (meets : Meets s e) : Handles s e := by
  unfold Handles
  rw [same]
  exact ⟨inv, iff_of_true law meets⟩

theorem handles_update [Zero F] (inv : Inv s) (law : Law s) (e : CustomEvent F) (now : Nat) :
    Handles s (.update k e now) := by
  cases known : s.conns k with
  | none =>
      have same : s.step (.update k e now) = s := by simp only [step, known]
      apply handles_of_same inv law same
      cases e with
      | clear => trivial
      | cursor cursor => exact fun _ conn found => absurd (known.symm.trans found) nofun
  | some conn =>
      cases e with
      | clear => exact handles_clear inv law known
      | cursor cursor =>
          by_cases movement : cursor.btns = 0
          · by_cases fourth : conn.c + 1 > 3
            · exact handles_fourth inv law known movement fourth
            · exact handles_held inv law known movement fourth
          · cases held : conn.evt with
            | some g => exact handles_click_held inv law known movement held
            | none => exact handles_click inv law known movement held

/-- What has the same messages in the same order, and owes no more. -/
theorem Law.congr (law : Law s) (line : t.line = s.line) (owed : t.owed = s.owed) : Law t := by
  constructor
  · rw [line]
    exact law.clicks
  · rw [line]
    exact law.order
  · rw [line, owed]
    exact law.delivered

theorem handles_register [Zero F] (inv : Inv s) (law : Law s) (now : Nat) : Handles s (.register k now) := by
  cases known : s.conns k with
  | some conn =>
      have same : s.step (.register k now) = s := by simp only [step, known]
      exact handles_of_same inv law same trivial
  | none =>
      have new : s.step (.register k now) =
          { s with conns := Function.update s.conns k (some { lastCursorPos := (0, 0), tm := now }) } := by
        simp only [step, known]
      unfold Handles
      rw [new]
      refine ⟨?_, iff_of_true (law.congr rfl rfl) trivial⟩
      exact inv.change rfl ⟨nofun, nofun, nofun, nofun⟩ (Nat.le_refl _) (fun _ inside => inside)
        (fun _ inside => .inl inside) (fun _ inside => .inl inside)

theorem handles_recv [Zero F] (inv : Inv s) (law : Law s) : Handles s .recv := by
  have line : (s.step .recv).line = s.line := by
    cases queue : s.queue with
    | nil => simp [step, queue]
    | cons m rest => simp [step, line, queue]
  have rest : (s.step .recv).conns = s.conns ∧ (s.step .recv).calls = s.calls ∧
      (s.step .recv).owed = s.owed := by
    simp only [step]
    split
    · exact ⟨rfl, rfl, rfl⟩
    · exact ⟨rfl, rfl, rfl⟩
  obtain ⟨conns, calls, owed⟩ := rest
  refine ⟨⟨?_, ?_, ?_⟩, iff_of_true (law.congr line owed) trivial⟩
  · intro k conn known
    rw [conns] at known
    have kept := inv.conns k conn known
    exact ⟨kept.held, calls ▸ kept.earlier, line ▸ kept.unsent, line ▸ kept.sent⟩
  · rw [line, calls]
    exact inv.calls
  · rw [line, owed]
    exact inv.delivered

/-- A tick that comes to a connection after a pause. -/
def flushed (s : State F) (k : String) (conn : Conn F) : State F where
  conns := Function.update s.conns k (some { conn with evt := none, c := if conn.evt.isSome then 0 else conn.c })
  queue := s.queue
  stream := s.stream ++ (conn.evt.map (Given.message k)).toList
  calls := s.calls
  owed := s.owed ++ (conn.latest.map fun g => (k, g.call)).toList

theorem mem_line_flushed :
    m ∈ (s.flushed k conn).line ↔ m ∈ s.line ∨ ∃ g, conn.evt = some g ∧ g.message k = m := by
  simp only [line, flushed, List.mem_append, Option.mem_toList, Option.map_eq_some_iff]
  rw [or_assoc, or_assoc]
  exact or_congr_right or_comm

theorem Inv.flushed (inv : Inv s) (known : s.conns k = some conn) : Inv (s.flushed k conn) := by
  have kept := inv.conns k conn known
  have latest {g : Given F} (same : conn.latest = some g) : ∃ m ∈ (s.flushed k conn).line, (m.key, m.call) = (k, g.call) := by
    cases held : conn.evt with
    | some g' =>
        obtain rfl := Option.some_inj.mp (same.symm.trans (kept.held g' held).1)
        exact ⟨g.message k, mem_line_flushed.mpr (.inr ⟨g, held, rfl⟩), rfl⟩
    | none =>
        obtain ⟨m, inside, call⟩ := kept.sent held g same
        exact ⟨m, mem_line_flushed.mpr (.inl inside), call⟩
  apply inv.change rfl
  · exact ⟨nofun, kept.earlier, nofun, fun _ g same => latest same⟩
  · exact Nat.le_refl _
  · intro m inside
    exact mem_line_flushed.mpr (.inl inside)
  · intro m inside
    apply (mem_line_flushed.mp inside).imp_right
    intro ⟨g, held, same⟩
    subst same
    exact ⟨rfl, kept.earlier g (kept.held g held).1⟩
  · intro n inside
    apply (List.mem_append.mp inside).imp_right
    intro new
    obtain ⟨g, same, rfl⟩ := Option.map_eq_some_iff.mp (Option.mem_toList.mp new)
    exact latest same

/-- The order after a flush: nothing may be on its way. -/
theorem order_flushed_iff {g : Given F} (inv : Inv s) (law : Law s) (known : s.conns k = some conn)
    (held : conn.evt = some g) :
    (∀ other, ((s.flushed k conn).line.filter (Message.moves other)).Pairwise fun a b => a.call < b.call) ↔
      ∀ m ∈ s.queue, m.moves k = false := by
  have kept := inv.conns k conn known
  have movement := (kept.held g held).2
  have line : (s.flushed k conn).line = s.stream ++ g.message k :: s.queue := by
    simp [State.flushed, State.line, held]
  rw [line]
  constructor
  · intro order m inside
    by_contra moves
    have moves : m.moves k = true := (Bool.not_eq_false _).mp moves
    have sorted := order k
    rw [List.filter_append, List.filter_cons_of_pos (moves_message movement)] at sorted
    have later := (List.pairwise_cons.mp (List.pairwise_append.mp sorted).2.1).1 m
      (List.mem_filter.mpr ⟨inside, moves⟩)
    have earlier := kept.unsent g held m (List.mem_append_right _ inside) moves
    exact Nat.lt_asymm later earlier
  · intro nothing other
    have order := law.order other
    rw [State.line, List.filter_append] at order
    rw [List.filter_append]
    by_cases same : other = k
    · subst same
      have empty : s.queue.filter (Message.moves other) = [] := by
        apply List.filter_eq_nil_iff.mpr
        simpa using nothing
      rw [List.filter_cons_of_pos (moves_message movement), empty]
      apply List.pairwise_append.mpr
      refine ⟨(List.pairwise_append.mp order).1, List.pairwise_singleton _ _, ?_⟩
      intro m inside m' inside'
      obtain rfl := List.mem_singleton.mp inside'
      have facts := List.mem_filter.mp inside
      exact kept.unsent g held m (List.mem_append_left _ facts.1) facts.2
    · have apart : (g.message k).moves other = false := by
        simp [Message.moves, Given.message, Ne.symm same]
      rw [List.filter_cons_of_neg (by simp [apart])]
      exact order

theorem handles_tick [Zero F] (inv : Inv s) (law : Law s) (now : Nat) : Handles s (.tick k now) := by
  cases known : s.conns k with
  | none =>
      have same : s.step (.tick k now) = s := by simp only [step, known]
      apply handles_of_same inv law same
      exact fun conn found => absurd (known.symm.trans found) nofun
  | some conn =>
      by_cases pause : now - conn.tm > 300
      · have flush : s.step (.tick k now) = s.flushed k conn := by
          simp only [step, known, if_pos pause]
          rfl
        have after := inv.flushed known
        unfold Handles
        rw [flush]
        refine ⟨after, ?_⟩
        cases held : conn.evt with
        | none =>
            have line : (s.flushed k conn).line = s.line := by simp [State.flushed, State.line, held]
            apply iff_of_true
            · exact ⟨line ▸ law.clicks, line ▸ law.order, after.delivered⟩
            · intro found same _ some_
              obtain rfl := Option.some_inj.mp (known.symm.trans same)
              exact absurd held some_
        | some g =>
            have movement := ((inv.conns k conn known).held g held).2
            have meets : Meets s (.tick k now) ↔ ∀ m ∈ s.queue, m.moves k = false := by
              constructor
              · intro meets
                exact meets conn known pause (by simp [held])
              · intro nothing _ _ _ _
                exact nothing
            rw [meets, ← order_flushed_iff inv law known held]
            constructor
            · exact Law.order
            · intro order
              refine ⟨?_, order, after.delivered⟩
              intro m inside
              cases mem_line_flushed.mp inside with
              | inl old => exact law.clicks m old
              | inr new =>
                  obtain ⟨g', same, rfl⟩ := new
                  obtain rfl := Option.some_inj.mp (held.symm.trans same)
                  exact right_of_movement (.inl (by simp [Message.isMovement, Given.message, movement]))
      · have same : s.step (.tick k now) = s := by simp only [step, known, if_neg pause]
        apply handles_of_same inv law same
        intro found there late
        obtain rfl := Option.some_inj.mp (known.symm.trans there)
        exact absurd late pause

end Inv

section Runs

open Runs (Always Along)

theorem handles [Zero F] {s : State F} (inv : Inv s) (law : Law s) (e : Event F) : Handles s e := by
  cases e with
  | register k now => exact handles_register inv law now
  | update k e now => exact handles_update inv law e now
  | recv => exact handles_recv inv law
  | tick k now => exact handles_tick inv law now

theorem inv_start : Inv ({} : State F) :=
  ⟨fun _ _ is => absurd is (Option.not_mem_none _), List.forall_mem_nil _, List.forall_mem_nil _⟩

theorem law_start : Law ({} : State F) :=
  ⟨List.forall_mem_nil _, fun _ => .nil, List.forall_mem_nil _⟩

/-- In a run, every click is where the latest movement was, and the movements come once and in order and
    none that is owed is missing, exactly when no click comes while the timer has sent a latest movement
    that is not remembered, and no tick sends one while an earlier one is not received. -/
theorem clicks_iff [Zero F] (events : List (Event F)) :
    Always State.step Law ({} : State F) events ↔ Along State.step Meets ({} : State F) events := by
  have exact_ (s : State F) (e : Event F) (inv : Inv s) (law : Law s) :
      Inv (s.step e) ∧ (Law (s.step e) ↔ Meets s e) := handles inv law e
  exact Runs.always_iff_along_of_both exact_ inv_start law_start

/-- A movement, a pause in which the timer sends it, and a click, which is drawn at the origin. -/
def pausedClick : List (Event Int) :=
  [.register "1-cursor" 0, .update "1-cursor" (.cursor ⟨40, 30, 0, 0, ""⟩) 0, .tick "1-cursor" 400,
    .update "1-cursor" (.cursor ⟨40, 30, 0, 1, ""⟩) 500]

theorem click_at_origin :
    ¬∀ events : List (Event Int), Always State.step Law ({} : State Int) events := by
  intro claimed
  have law := (claimed pausedClick).last
  have drawn := law.clicks ⟨"1-cursor", .cursor ⟨0, 0, 0, 1, ""⟩, 1, some (40, 30)⟩ (by decide)
    ⟨0, 0, 0, 1, ""⟩ rfl (by decide) (40, 30) rfl
  exact absurd drawn (by decide)

end Runs

end State

end RemoteControl.WhiteboardCursor
