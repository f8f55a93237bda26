import RemoteControl.Runs
import RemoteControl.Terminal.Service

/-! # The stream of a terminal that is opened again

The polls of `read_outputs` run next to the calls of the client. A poll looks up the
sessions once and then visits one after the other, each under its own lock, so opening a
terminal again and `reset_status` come in between two visits. Every step here is what is
done under one lock.

What a poll takes out of the channel of a session it has sent when the visit is over, the
history before it if the client has come back. This fails for two reasons: the output
buffer does not take the data, then the visit never ends and holds the lock, or the
compressor fails, then the client gets empty data.
-/

namespace RemoteControl.Terminal

open Runs (exec Always Along outputs)

/-- A call of `read_outputs` under way. -/
structure Poll where
  isPersistent : Bool := false
  toVisit : List (Sigma fun _ : Int => SessionRef) := []
  closedTerminals : List Int := []

/-- A service, its sessions and the polls. -/
structure Polled where
  service : PersistentTerminalService
  mem : Memory := {}
  polls : Nat → Poll := fun _ => {}
  /-- the sessions whose lock is held by a visit that never ends -/
  held : List SessionRef := []

inductive PollEvent where
  /-- the reader thread of a session has data -/
  | push (r : SessionRef) (data : Bytes)
  | lookUp (poll : Nat)
  | visit (poll : Nat) (turn : Turn)
  /-- `try_lock` finds the session locked by another thread -/
  | skip (poll : Nat)
  | cleanUp (poll : Nat) (tryWait : Child → TryWait)
  | handleOpen (open_ : OpenTerminal) (spawning : Spawning)
  | resetStatus (isPersistent : Bool)

namespace Polled

variable (c : Compression)

def setPoll (poll : Nat) (p : Poll) (s : Polled) : Polled :=
  { s with polls := Function.update s.polls poll p }

def lookUp (poll : Nat) (s : Polled) : Polled :=
  if (s.polls poll).toVisit = [] ∧ (s.polls poll).closedTerminals = [] then
    s.setPoll poll { isPersistent := s.service.isPersistent, toVisit := s.service.sessions.entries }
  else s

/-- The session a poll visits next, unless it is locked for ever. -/
def next (poll : Nat) (s : Polled) : Option (Int × SessionRef) :=
  match (s.polls poll).toVisit with
  | ⟨terminalId, r⟩ :: _ => if r ∈ s.held then none else some (terminalId, r)
  | [] => none

def skip (poll : Nat) (s : Polled) : Polled :=
  s.setPoll poll { s.polls poll with toVisit := (s.polls poll).toVisit.tail }

def visit (poll : Nat) (turn : Turn) (s : Polled) : Polled :=
  match s.next poll with
  | none => s.skip poll
  | some (terminalId, r) =>
      match s.mem.readOutput c terminalId r turn with
      | some (mem, turned) =>
          let p := s.polls poll
          { s with mem := mem }.setPoll poll { p with
            toVisit := p.toVisit.tail
            closedTerminals :=
              if turned.closed then p.closedTerminals ++ [terminalId] else p.closedTerminals }
      -- the poll goes no further and keeps the lock
      | none => { s with held := r :: s.held }.setPoll poll {}

/-- The end of a poll, one terminal at a time. -/
def cleanUp (poll : Nat) (tryWait : Child → TryWait) (s : Polled) : Polled :=
  match (s.polls poll).toVisit, (s.polls poll).closedTerminals with
  | [], terminalId :: rest =>
      if (s.service.sessions.lookup terminalId).any (· ∈ s.held) then s
      else
        let (_, svc, mem) := s.service.cleanUp (s.polls poll).isPersistent tryWait terminalId s.mem
        { s with service := svc, mem := mem }.setPoll poll { s.polls poll with closedTerminals := rest }
  | _, _ => s

/-- Waits for ever for a session that is locked for ever. -/
def handleOpen (open_ : OpenTerminal) (spawning : Spawning) (s : Polled) : Polled :=
  if ((s.service.remap open_.terminalId).sessions.lookup open_.terminalId).any (· ∈ s.held) then s
  else
    let (_, svc, mem) := s.service.handleOpen open_ spawning s.mem
    { s with service := svc, mem := mem }

def resetStatus (isPersistent : Bool) (s : Polled) : Polled :=
  if s.service.sessions.entries.any (·.2 ∈ s.held) then s
  else
    let (svc, mem) := s.service.resetStatus isPersistent s.mem
    { s with service := svc, mem := mem }

def step (s : Polled) : PollEvent → Polled
  | .push r data => { s with mem := s.mem.update r ((s.mem.sessions r).push data) }
  | .lookUp poll => s.lookUp poll
  | .visit poll turn => s.visit c poll turn
  | .skip poll => s.skip poll
  | .cleanUp poll tryWait => s.cleanUp poll tryWait
  | .handleOpen open_ spawning => s.handleOpen open_ spawning
  | .resetStatus isPersistent => s.resetStatus isPersistent

/-- The responses that a visit makes. -/
def responses (s : Polled) : PollEvent → List TerminalResponse
  | .visit poll turn =>
      match s.next poll with
      | some (terminalId, r) =>
          match s.mem.readOutput c terminalId r turn with
          | some (_, turned) => turned.responses
          | none => []
      | none => []
  | _ => []

/-- The payloads of the terminal among them. -/
def payloads (terminalId : Int) (s : Polled) (e : PollEvent) : List Bytes :=
  (s.responses c e).filterMap (·.payloadFor c terminalId)

/-- What each visit of the session takes out of its channel. -/
def drains (r : SessionRef) (s : Polled) : PollEvent → List (List Bytes)
  | .visit poll turn =>
      match s.next poll with
      | some (_, r') => if r' = r then [(s.mem.sessions r).received turn.during] else []
      | none => []
  | _ => []

/-- The output buffer takes what the visit drains, and the compressor does not fail on what it
    sends. -/
def Fine (s : Polled) : PollEvent → Prop
  | .visit poll turn =>
      match s.next poll with
      | some (_, r) =>
          (s.mem.sessions r).takes turn.during = true ∧
            ∀ data ∈ (s.mem.sessions r).streams turn.during, sendable c data = true
      | none => True
  | _ => True

/-- Only terminals that exist are opened. -/
def Existing (s : Polled) : PollEvent → Prop
  | .handleOpen open_ _ => open_.terminalId ∈ s.service.sessions
  | _ => True

/-- The event is neither `reset_status` nor `handle_open` of the terminal. -/
def Streaming (terminalId : Int) : PollEvent → Prop
  | .handleOpen open_ _ => open_.terminalId ≠ terminalId
  | .resetStatus _ => False
  | _ => True

/-! ## One step -/

variable {c} {s : Polled} {e : PollEvent} {entries : List (Sigma fun _ : Int => SessionRef)}

variable {terminalId : Int} {r : SessionRef} {pending : Option Bytes} {phase : SigwinchPhase}
  {events : List PollEvent}

theorem handleOpen_of_lookup {open_ : OpenTerminal}
    (found : s.service.sessions.lookup open_.terminalId = some r) (unlocked : s.held = [])
    (spawning : Spawning) :
    s.handleOpen open_ spawning =
      { s with
        service := { s.service with needsSessionSync := false }
        mem := s.mem.update r (s.mem.sessions r).reopen } := by
  have exists_ : open_.terminalId ∈ s.service.sessions := AList.lookup_isSome.mp (by simp [found])
  have opened := PersistentTerminalService.handleOpen_of_lookup found spawning s.mem
  simp [Polled.handleOpen, PersistentTerminalService.remap_of_mem exists_, found, unlocked, opened]

/-- No lock is held for ever, and whatever is looked up was in the map at first. -/
structure Tidy (entries : List (Sigma fun _ : Int => SessionRef)) (s : Polled) : Prop where
  held : s.held = []
  service : s.service.sessions.entries ⊆ entries
  polls : ∀ poll, (s.polls poll).toVisit ⊆ entries

theorem Tidy.setPoll (tidy : Tidy entries s) (poll : Nat) {p : Poll} (known : p.toVisit ⊆ entries) :
    Tidy entries (s.setPoll poll p) where
  held := tidy.held
  service := tidy.service
  polls other := by
    by_cases same : other = poll
    · subst same
      simpa [Polled.setPoll] using known
    · simpa [Polled.setPoll, same] using tidy.polls other

theorem next_of_some {poll : Nat} (next : s.next poll = some (terminalId, r)) :
    ⟨terminalId, r⟩ ∈ (s.polls poll).toVisit := by
  unfold Polled.next at next
  split at next
  case h_1 first _ _ toVisit =>
    split_ifs at next
    cases next
    rw [toVisit]
    exact List.mem_cons_self ..
  case h_2 => cases next

theorem Tidy.tail (tidy : Tidy entries s) (poll : Nat) : (s.polls poll).toVisit.tail ⊆ entries :=
  List.Subset.trans (List.tail_sublist _).subset (tidy.polls poll)

theorem cleanUp_sessions (isPersistent : Bool) (tryWait : Child → TryWait) (terminalId : Int)
    (svc : PersistentTerminalService) (mem : Memory) :
    let cleaned := (svc.cleanUp isPersistent tryWait terminalId mem).2
    cleaned.1.sessions.entries ⊆ svc.sessions.entries ∧
      ∀ r, (cleaned.2.sessions r).state = (mem.sessions r).state := by
  have taken (r r' : SessionRef) :
      ((mem.takeChild r).1.sessions r').state = (mem.sessions r').state := by
    by_cases same : r' = r
    · subst same
      simp [Memory.takeChild, Memory.update]
    · simp [Memory.takeChild, Memory.update, same]
  have erased : (svc.sessions.erase terminalId).entries ⊆ svc.sessions.entries :=
    (List.kerase_sublist terminalId svc.sessions.entries).subset
  unfold PersistentTerminalService.cleanUp
  cases svc.sessions.lookup terminalId with
  | none => exact ⟨List.Subset.refl _, fun _ => rfl⟩
  | some r =>
      cases isPersistent <;> cases has : (mem.takeChild r).2 <;>
        simp [has, taken, erased, Memory.addToReaper]

theorem Tidy.step (tidy : Tidy entries s) (existing : s.Existing e) (fine : s.Fine c e) :
    Tidy entries (s.step c e) := by
  cases e with
  | push r data => exact { tidy with }
  | lookUp poll =>
      simp only [Polled.step, Polled.lookUp]
      split_ifs
      · exact tidy.setPoll poll tidy.service
      · exact tidy
  | visit poll turn =>
      simp only [Polled.step, Polled.visit]
      cases next : s.next poll with
      | none => exact tidy.setPoll poll (tidy.tail poll)
      | some first =>
          obtain ⟨terminalId, r⟩ := first
          simp only [Fine, next] at fine
          obtain ⟨s', turned, read, -⟩ := TerminalSession.readOutput_of_takes fine.1 c terminalId
          simp only [Memory.readOutput, read, Option.map_some]
          have read_ : Tidy entries { s with mem := s.mem.update r s' } := { tidy with }
          exact read_.setPoll poll (tidy.tail poll)
  | skip poll => exact tidy.setPoll poll (tidy.tail poll)
  | cleanUp poll tryWait =>
      simp only [Polled.step, Polled.cleanUp]
      split
      case h_1 terminalId rest _ _ =>
        split_ifs
        · exact tidy
        · have cleaned :=
            cleanUp_sessions (s.polls poll).isPersistent tryWait terminalId s.service s.mem
          have kept : Tidy entries { s with
              service := _
              mem := (s.service.cleanUp (s.polls poll).isPersistent tryWait terminalId s.mem).2.2 } :=
            ⟨tidy.held, List.Subset.trans cleaned.1 tidy.service, tidy.polls⟩
          exact kept.setPoll poll (tidy.polls poll)
      case h_2 => exact tidy
  | handleOpen open_ spawning =>
      obtain ⟨r, found⟩ := Option.isSome_iff_exists.mp (AList.lookup_isSome.mpr existing)
      rw [Polled.step, handleOpen_of_lookup found tidy.held]
      exact { tidy with }
  | resetStatus isPersistent =>
      simp only [Polled.step, Polled.resetStatus]
      split_ifs
      · exact tidy
      · exact { tidy with }

/-- The ids and the sessions of the map go together. -/
structure Paired (entries : List (Sigma fun _ : Int => SessionRef)) : Prop where
  ids : entries.NodupKeys
  refs : (entries.map (·.2)).Nodup

theorem Paired.ref_eq {entries : List (Sigma fun _ : Int => SessionRef)} (paired : Paired entries)
    {r' : SessionRef} (one : ⟨terminalId, r⟩ ∈ entries) (other : ⟨terminalId, r'⟩ ∈ entries) :
    r = r' :=
  paired.ids.eq_of_mk_mem one other

theorem Paired.id_eq {entries : List (Sigma fun _ : Int => SessionRef)} (paired : Paired entries)
    {terminalId' : Int} (one : ⟨terminalId, r⟩ ∈ entries) (other : ⟨terminalId', r⟩ ∈ entries) :
    terminalId = terminalId' := by
  have same := List.inj_on_of_nodup_map paired.refs one other rfl
  cases same
  rfl

/-- What an event does to the stream of a session: nothing, or it is a visit of it, which sends
    the history it still has to send and then all it drains. -/
inductive Streams (c : Compression) (terminalId : Int) (r : SessionRef) (pending : Option Bytes)
    (s : Polled) (e : PollEvent) : Prop where
  | quiet (phase : SigwinchPhase) (drains : s.drains r e = [])
    (payloads : s.payloads c terminalId e = [])
      (state : ((s.step c e).mem.sessions r).state = .active pending phase)
  | visits (received : List Bytes) (phase : SigwinchPhase) (drains : s.drains r e = [received])
      (payloads : s.payloads c terminalId e = pending.toList.filter (· ≠ []) ++ received)
      (state : ((s.step c e).mem.sessions r).state = .active none phase)

theorem filterMap_createTerminalDataResponse {chunks : List Bytes}
    (fine : ∀ data ∈ chunks, sendable c data = true) :
    (chunks.map (createTerminalDataResponse c terminalId)).filterMap (·.payloadFor c terminalId) =
      chunks := by
  induction chunks with
  | nil => rfl
  | cons data rest ih =>
      simp only [List.mem_cons, forall_eq_or_imp] at fine
      simp [payloadFor_createTerminalDataResponse fine.1, ih fine.2]

/-- A visit of the session sends what it has, a visit of another one leaves it alone. -/
theorem visit_streams {poll : Nat} {turn : Turn} (paired : Paired entries)
    (known : ⟨terminalId, r⟩ ∈ entries) (tidy : Tidy entries s) (fine : s.Fine c (.visit poll turn))
    (state : (s.mem.sessions r).state = .active pending phase) :
    Streams c terminalId r pending s (.visit poll turn) := by
  cases next : s.next poll with
  | none =>
      refine .quiet phase ?_ ?_ ?_
      · simp [Polled.drains, next]
      · simp [Polled.payloads, Polled.responses, next]
      · simpa [Polled.step, Polled.visit, next, Polled.skip, Polled.setPoll] using state
  | some first =>
      obtain ⟨terminalId', r'⟩ := first
      have looked := tidy.polls poll (next_of_some next)
      simp only [Fine, next] at fine
      obtain ⟨s', turned, read, responses, active⟩ :=
        TerminalSession.readOutput_of_takes fine.1 c terminalId'
      have reads : s.mem.readOutput c terminalId' r' turn = some (s.mem.update r' s', turned) := by
        simp [Memory.readOutput, read]
      have after : (s.step c (.visit poll turn)).mem = s.mem.update r' s' := by
        simp [Polled.step, Polled.visit, next, reads, Polled.setPoll]
      have sent : s.payloads c terminalId (.visit poll turn) =
          ((((s.mem.sessions r').streams turn.during).map
            (createTerminalDataResponse c terminalId')).filterMap (·.payloadFor c terminalId)) := by
        simp [Polled.payloads, Polled.responses, next, reads, responses]
      by_cases same : r' = r
      · subst same
        cases paired.id_eq looked known
        obtain ⟨phase', active⟩ := active pending phase state
        refine .visits ((s.mem.sessions r').received turn.during) phase' ?_ ?_ ?_
        · simp [Polled.drains, next]
        · rw [sent, filterMap_createTerminalDataResponse fine.2, TerminalSession.streams, state]
        · rw [after]
          simpa [Memory.update] using active
      · have other : terminalId' ≠ terminalId := by
          rintro rfl
          exact same (paired.ref_eq looked known)
        refine .quiet phase ?_ ?_ ?_
        · simp [Polled.drains, next, same]
        · rw [sent, List.filterMap_map, List.filterMap_eq_nil_iff]
          exact fun data _ => payloadFor_other other data
        · rw [after]
          simpa [Memory.update, Ne.symm same] using state

theorem step_streams (paired : Paired entries) (known : ⟨terminalId, r⟩ ∈ entries)
    (tidy : Tidy entries s) (existing : s.Existing e) (fine : s.Fine c e)
    (streaming : Streaming terminalId e)
    (state : (s.mem.sessions r).state = .active pending phase) :
    Streams c terminalId r pending s e := by
  cases e with
  | push r' data =>
      refine .quiet phase rfl rfl ?_
      by_cases same : r = r'
      · subst same
        simp [Polled.step, Memory.update, state]
      · simp [Polled.step, Memory.update, same, state]
  | lookUp poll =>
      refine .quiet phase rfl rfl ?_
      simp only [Polled.step, Polled.lookUp]
      split_ifs <;> exact state
  | visit poll turn => exact visit_streams paired known tidy fine state
  | skip poll => exact .quiet phase rfl rfl state
  | cleanUp poll tryWait =>
      refine .quiet phase rfl rfl ?_
      simp only [Polled.step, Polled.cleanUp]
      split
      case h_1 closed rest _ _ =>
        split_ifs
        · exact state
        · have cleaned := cleanUp_sessions (s.polls poll).isPersistent tryWait closed s.service s.mem
          exact (cleaned.2 r).trans state
      case h_2 => exact state
  | handleOpen open_ spawning =>
      refine .quiet phase rfl rfl ?_
      obtain ⟨r', found⟩ := Option.isSome_iff_exists.mp (AList.lookup_isSome.mpr existing)
      have other : r ≠ r' := by
        rintro rfl
        have there := tidy.service (List.of_mem_dlookup found)
        exact streaming (paired.id_eq there known)
      rw [Polled.step, handleOpen_of_lookup found tidy.held]
      simpa [Memory.update, other] using state
  | resetStatus isPersistent => exact streaming.elim

theorem always_tidy {start : Polled} (tidy : Tidy entries start)
    (existing : Along (step c) Existing start events)
    (fine : Along (step c) (Fine c) start events) : Always (step c) (Tidy entries) start events :=
  Runs.always_of_along (fun _ _ tidy meets => tidy.step meets.1 meets.2) tidy
    (Runs.along_and.mpr ⟨existing, fine⟩)

/-- From a state in which the session streams on, the visits send what they drain, after the
    history that is still to be sent. -/
theorem payloads_of_streaming (paired : Paired entries) (known : ⟨terminalId, r⟩ ∈ entries)
    (tidy : Tidy entries s) (existing : Along (step c) Existing s events)
    (fine : Along (step c) (Fine c) s events) (streaming : ∀ e ∈ events, Streaming terminalId e)
    (state : (s.mem.sessions r).state = .active pending phase) :
    outputs (step c) (payloads c terminalId) s events =
      (if outputs (step c) (drains r) s events = [] then [] else pending.toList.filter (· ≠ [])) ++
        (outputs (step c) (drains r) s events).flatten := by
  induction events generalizing s pending phase with
  | nil => rfl
  | cons e rest ih =>
      have here := streaming e (List.mem_cons_self ..)
      have later (e' : PollEvent) (member : e' ∈ rest) := streaming e' (List.mem_cons_of_mem e member)
      have next := tidy.step existing.1 fine.1
      cases step_streams paired known tidy existing.1 fine.1 here state with
      | quiet phase' drains payloads state' =>
          simp only [outputs, drains, payloads, List.nil_append]
          exact ih next existing.2 fine.2 later state'
      | visits received phase' drains payloads state' =>
          have sent := ih next existing.2 fine.2 later state'
          simp only [Option.toList_none, List.filter_nil, ite_self, List.nil_append] at sent
          simp [outputs, drains, payloads, sent]

/-- In every run in which the output buffers take what is drained and the compressor does not
    fail, what is sent for a terminal after it was opened again, and before it is opened
    again or `reset_status`, is its history and then what the visits have drained. -/
theorem reconnect_stream_exact (c : Compression) (start : Polled)
    (idle : ∀ poll, start.polls poll = {}) (unlocked : start.held = [])
    (distinct : start.service.refs.Nodup) (before after : List PollEvent) (open_ : OpenTerminal)
    (spawning : Spawning) (r : SessionRef)
    (existing : Along (step c) Existing start (before ++ .handleOpen open_ spawning :: after))
    (fine : Along (step c) (Fine c) start (before ++ .handleOpen open_ spawning :: after))
    (found : (exec (step c) start before).service.sessions.lookup open_.terminalId = some r)
    (streaming : ∀ e ∈ after, Streaming open_.terminalId e) :
    let t := exec (step c) start before
    let history := (t.mem.sessions r).outputBuffer.getRecent defaultReconnectBufferBytes
    let opened := t.step c (.handleOpen open_ spawning)
    let drained := outputs (step c) (drains r) opened after
    outputs (step c) (payloads c open_.terminalId) opened after =
      (if drained = [] ∨ history = [] then [] else [history]) ++ drained.flatten := by
  intro t history opened drained
  have paired : Paired start.service.sessions.entries := ⟨start.service.sessions.nodupKeys, distinct⟩
  have tidy : Tidy start.service.sessions.entries start := by
    refine ⟨unlocked, List.Subset.refl _, fun poll => ?_⟩
    simp [idle poll]
  rw [Runs.along_append] at existing fine
  have tidy_t := (always_tidy tidy existing.1 fine.1).last
  have known : ⟨open_.terminalId, r⟩ ∈ start.service.sessions.entries :=
    tidy_t.service (List.of_mem_dlookup found)
  have state : (opened.mem.sessions r).state =
      .active (if history ≠ [] then some history else none) (.tempResize maxSigwinchPhaseAttempts) := by
    have opens : opened = _ := handleOpen_of_lookup found tidy_t.held spawning
    rw [opens]
    simp [Memory.update, TerminalSession.reopen, history, t]
  have sent : outputs (step c) (payloads c open_.terminalId) opened after =
      (if drained = [] then [] else (if history ≠ [] then some history else none).toList.filter
        (· ≠ [])) ++
        drained.flatten :=
    payloads_of_streaming paired known (tidy_t.step existing.2.1 fine.2.1) existing.2.2 fine.2.2
      streaming state
  rw [sent]
  by_cases empty : history = []
  · simp [empty]
  · simp [empty]

/-- A service with the terminal 1, which nobody watches, and what is in its channel. -/
def unwatched (outputBuffer : OutputBuffer) (queue : List Bytes) : Polled where
  service := { serviceId := "ts", sessions := AList.singleton 1 0, isPersistent := true }
  mem :=
    { sessions := fun _ =>
        { ptyPair := true
          child := some 0
          outputRx := some queue
          readerThread := true
          outputBuffer := outputBuffer
          rows := 24
          cols := 80 }
      nextRef := 1
      nextChild := 1 }

/-- History, what was in the channel and what came later. -/
theorem history_then_output :
    let t := unwatched { lines := [[97, 10]], totalSize := 2 } [[98]]
    outputs (step .plain) (payloads .plain 1) (t.step .plain (.handleOpen ⟨1, 24, 80⟩ {}))
      [.lookUp 0, .visit 0 {}, .push 0 [99], .lookUp 0, .visit 0 {}] = [[97, 10], [98], [99]] :=
  (reconnect_stream_exact .plain (unwatched { lines := [[97, 10]], totalSize := 2 } [[98]])
    (fun _ => rfl) rfl
    (by decide) [] [.lookUp 0, .visit 0 {}, .push 0 [99], .lookUp 0, .visit 0 {}] ⟨1, 24, 80⟩ {} 0
    ⟨AList.lookup_isSome.mp (by decide), trivial, trivial, trivial, trivial, trivial, trivial⟩
    ⟨trivial, trivial, ⟨by decide, by decide⟩, trivial, trivial, ⟨by decide, by decide⟩, trivial⟩
    (by decide) (by simp [Streaming])).trans (by decide)

/-- What the buffer does not take is drained and never sent. -/
theorem visit_of_overflow {buffer : OutputBuffer} {queue : List Bytes}
    (overflows : queue.foldlM OutputBuffer.append buffer = none) :
    let opened := (unwatched buffer queue).step .plain (.handleOpen ⟨1, 24, 80⟩ {})
    outputs (step .plain) (drains 0) opened [.lookUp 0, .visit 0 {}] = [queue] ∧
      outputs (step .plain) (payloads .plain 1) opened [.lookUp 0, .visit 0 {}] = [] ∧
      (exec (step .plain) opened [.lookUp 0, .visit 0 {}]).held = [0] := by
  intro opened
  let looked := opened.step .plain (.lookUp 0)
  have next : looked.next 0 = some (1, 0) := rfl
  have received : (looked.mem.sessions 0).received [] = queue := List.append_nil queue
  have stuck : (looked.mem.sessions 0).readOutput .plain 1 {} = none := by
    have buffer_ : (looked.mem.sessions 0).outputBuffer = buffer := rfl
    simp [TerminalSession.readOutput, buffer_, received, overflows]
  have read : looked.mem.readOutput .plain 1 0 {} = none := by
    simp [Memory.readOutput, stuck]
  have drained : looked.drains 0 (.visit 0 {}) = [queue] := by
    simp [Polled.drains, next, received]
  have sent : looked.payloads .plain 1 (.visit 0 {}) = [] := by
    simp [Polled.payloads, Polled.responses, next, read]
  have locked : (looked.step .plain (.visit 0 {})).held = [0] := by
    simp only [Polled.step, Polled.visit, next, read]
    rfl
  refine ⟨?_, ?_, locked⟩
  · show opened.drains 0 (.lookUp 0) ++ (looked.drains 0 (.visit 0 {}) ++ []) = _
    rw [drained]
    rfl
  · show opened.payloads .plain 1 (.lookUp 0) ++ (looked.payloads .plain 1 (.visit 0 {}) ++ []) = _
    rw [sent]
    rfl

/-- Nine chunks are drained and none of them is sent, nor will be. -/
theorem undercounted_output_lost :
    let opened := (unwatched {} OutputBuffer.undercounted).step .plain (.handleOpen ⟨1, 24, 80⟩ {})
    let drained := outputs (step .plain) (drains 0) opened [.lookUp 0, .visit 0 {}]
    let sent := outputs (step .plain) (payloads .plain 1) opened [.lookUp 0, .visit 0 {}]
    drained = [OutputBuffer.undercounted] ∧ sent = [] ∧ sent ≠ drained.flatten ∧
      (exec (step .plain) opened [.lookUp 0, .visit 0 {}]).held = [0] := by
  intro opened drained sent
  obtain ⟨drained_, sent_, locked⟩ := visit_of_overflow OutputBuffer.undercounted_overflows
  refine ⟨drained_, sent_, ?_, locked⟩
  have here : drained = [OutputBuffer.undercounted] := drained_
  have none_ : sent = [] := sent_
  rw [here, none_]
  exact List.cons_ne_nil _ _ ∘ Eq.symm

end Polled

end RemoteControl.Terminal
