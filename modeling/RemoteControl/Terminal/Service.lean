import Mathlib.Data.List.AList
import RemoteControl.Terminal.Session

/-! # The terminal services

A `PersistentTerminalService` maps the ids of terminals to sessions. A session has a lock
of its own and outlives the map in the hands of who has looked it up, so the map holds
references and `Memory` what they refer to, next to the child processes that wait for the
reaper.
-/

namespace RemoteControl.Terminal

/-- `MAX_SERVICES` -/
def maxServices : Nat := 100

/-- An `Arc<Mutex<TerminalSession>>`. -/
abbrev SessionRef := Nat

structure Memory where
  sessions : SessionRef → TerminalSession := fun _ => { rows := 0, cols := 0 }
  /-- the references from this one on have not been made yet -/
  nextRef : SessionRef := 0
  nextChild : Child := 0
  /-- `TERMINAL_TASKS` -/
  tasks : List Child := []

/-- What `try_wait` returns. -/
inductive TryWait where
  | exited (code : Int)
  | running
  | failed
  deriving DecidableEq

namespace Memory

def update (r : SessionRef) (s : TerminalSession) (mem : Memory) : Memory :=
  { mem with sessions := Function.update mem.sessions r s }

def addToReaper (child : Child) (mem : Memory) : Memory :=
  { mem with tasks := mem.tasks ++ [child] }

/-- `child.take()` -/
def takeChild (r : SessionRef) (mem : Memory) : Memory × Option Child :=
  (mem.update r { mem.sessions r with child := none }, (mem.sessions r).child)

/-- `TerminalSession::stop`. Whether the child can be killed does not matter. -/
def stop (r : SessionRef) (mem : Memory) : Memory :=
  let stopped := mem.update r (mem.sessions r).stopped
  match (mem.sessions r).child with
  | some child => stopped.addToReaper child
  | none => stopped

/-- The loop of `check_zombie_terminals`: who has exited, or cannot be asked, goes. -/
def checkZombieTerminals (tryWait : Child → TryWait) (mem : Memory) : Memory :=
  { mem with tasks := mem.tasks.filter (tryWait · = .running) }

/-- One turn of the loop of `read_outputs`. -/
def readOutput (c : Compression) (terminalId : Int) (r : SessionRef) (turn : Turn) (mem : Memory) :
    Option (Memory × Turned) :=
  ((mem.sessions r).readOutput c terminalId turn).map fun (s, turned) => (mem.update r s, turned)

end Memory

structure PersistentTerminalService where
  serviceId : String
  sessions : AList fun _ : Int => SessionRef := ∅
  isPersistent : Bool
  needsSessionSync : Bool := false

structure OpenTerminal where
  terminalId : Int
  rows : Nat
  cols : Nat
  deriving DecidableEq

/-- What `handle_open` meets when it makes a new session. -/
structure Spawning where
  /-- the pseudo terminal can be opened, the shell spawned, the writer and the reader got -/
  openpty : Bool := true
  spawnCommand : Bool := true
  takeWriter : Bool := true
  tryCloneReader : Bool := true
  processId : Option Nat := none
  deriving DecidableEq

namespace PersistentTerminalService

/-- The sessions in the map. -/
def refs (svc : PersistentTerminalService) : List SessionRef := svc.sessions.entries.map (·.2)

def resetStatus (isPersistent : Bool) (svc : PersistentTerminalService) (mem : Memory) :
    PersistentTerminalService × Memory :=
  ({ svc with isPersistent := isPersistent, needsSessionSync := true },
    svc.sessions.entries.foldl (fun mem e => mem.update e.2 (mem.sessions e.2).close) mem)

/-- The session with the lowest id takes the requested id, if no session has it and the client
    has not been told which sessions there are. -/
def remap (terminalId : Int) (svc : PersistentTerminalService) : PersistentTerminalService :=
  if terminalId ∉ svc.sessions ∧ svc.needsSessionSync = true ∧ svc.sessions.keys ≠ [] then
    match svc.sessions.keys.min? with
    | some lowestId =>
        match svc.sessions.lookup lowestId with
        | some session =>
            { svc with sessions := (svc.sessions.erase lowestId).insert terminalId session }
        | none => svc
    | none => svc
  else svc

/-- A new terminal. -/
def create (open_ : OpenTerminal) (spawning : Spawning) (svc : PersistentTerminalService)
    (mem : Memory) :
    Except String TerminalResponse × PersistentTerminalService × Memory :=
  if !spawning.openpty then (.error "Failed to open PTY", svc, mem)
  else if !spawning.spawnCommand then (.error "Failed to spawn command", svc, mem)
  else
    let child := mem.nextChild
    let mem := { mem with nextChild := child + 1 }
    if !spawning.takeWriter then (.error "Failed to get writer", svc, mem)
    else if !spawning.tryCloneReader then (.error "Failed to get reader", svc, mem)
    else
      let session : TerminalSession :=
        { ptyPair := true
          child := some child
          outputRx := some []
          readerThread := true
          pid := spawning.processId.getD 0
          rows := open_.rows % 2 ^ 16
          cols := open_.cols % 2 ^ 16
          state := .active none .idle }
      let r := mem.nextRef
      let opened : TerminalOpened :=
        { terminalId := open_.terminalId
          success := true
          message := "Terminal opened"
          pid := session.pid
          serviceId := svc.serviceId
          persistentSessions := if svc.needsSessionSync then svc.sessions.keys else [] }
      (.ok (.opened opened),
        { svc with sessions := svc.sessions.insert open_.terminalId r, needsSessionSync := false },
        { mem with sessions := Function.update mem.sessions r session, nextRef := r + 1 })

def handleOpen (open_ : OpenTerminal) (spawning : Spawning) (svc : PersistentTerminalService)
    (mem : Memory) : Except String TerminalResponse × PersistentTerminalService × Memory :=
  let svc := svc.remap open_.terminalId
  match svc.sessions.lookup open_.terminalId with
  | some r =>
      let opened : TerminalOpened :=
        { terminalId := open_.terminalId
          success := true
          message := "Reconnected to existing terminal"
          pid := (mem.sessions r).pid
          serviceId := svc.serviceId
          persistentSessions :=
            if svc.needsSessionSync then svc.sessions.keys.filter (· ≠ open_.terminalId) else [] }
      (.ok (.opened opened), { svc with needsSessionSync := false },
        mem.update r (mem.sessions r).reopen)
  | none => svc.create open_ spawning mem

theorem remap_of_mem {terminalId : Int} {svc : PersistentTerminalService}
    (exists_ : terminalId ∈ svc.sessions) : svc.remap terminalId = svc :=
  if_neg fun missing => missing.1 exists_

/-- Opening a terminal that exists changes its session and the flag of the service. -/
theorem handleOpen_of_lookup {open_ : OpenTerminal} {svc : PersistentTerminalService} {r : SessionRef}
    (found : svc.sessions.lookup open_.terminalId = some r) (spawning : Spawning) (mem : Memory) :
    (svc.handleOpen open_ spawning mem).2 =
      ({ svc with needsSessionSync := false }, mem.update r (mem.sessions r).reopen) := by
  have exists_ : open_.terminalId ∈ svc.sessions := AList.lookup_isSome.mp (by simp [found])
  simp [handleOpen, remap_of_mem exists_, found]

/-- `killed` is what `child.kill()` returns. An error leaves the function, and the child with
    it. -/
def handleClose (terminalId : Int) (killed : Except String Unit) (svc : PersistentTerminalService)
    (mem : Memory) : Except String (Option TerminalResponse) × PersistentTerminalService × Memory :=
  match svc.sessions.lookup terminalId with
  | none => (.ok none, svc, mem)
  | some r =>
      let svc := { svc with sessions := svc.sessions.erase terminalId }
      let (mem, child) := mem.takeChild r
      match child, killed with
      | some _, .error e => (.error e, svc, mem)
      | some child, .ok () => (.ok (some (.closed ⟨terminalId, -1⟩)), svc, mem.addToReaper child)
      | none, _ => (.ok (some (.closed ⟨terminalId, 0⟩)), svc, mem)

/-- What `read_outputs` does at its end about a terminal whose reader thread has finished. -/
def cleanUp (isPersistent : Bool) (tryWait : Child → TryWait) (terminalId : Int)
    (svc : PersistentTerminalService) (mem : Memory) :
    TerminalResponse × PersistentTerminalService × Memory :=
  match svc.sessions.lookup terminalId with
  | none => (.closed ⟨terminalId, 0⟩, svc, mem)
  | some r =>
      let svc := if isPersistent then svc else { svc with sessions := svc.sessions.erase terminalId }
      let (mem, child) := mem.takeChild r
      match child with
      | some child =>
          let exitCode :=
            match tryWait child with
            | .exited code => code
            | _ => 0
          (.closed ⟨terminalId, exitCode⟩, svc, mem.addToReaper child)
      | none => (.closed ⟨terminalId, 0⟩, svc, mem)

/-- The first loop of `read_outputs`: the responses and the ids of the closed terminals. -/
def readSessions (c : Compression) (turns : SessionRef → Turn) :
    List (Sigma fun _ : Int => SessionRef) → Memory → Option (Memory × List TerminalResponse × List Int)
  | [], mem => some (mem, [], [])
  | ⟨terminalId, r⟩ :: rest, mem => do
      let (mem, turned) ← mem.readOutput c terminalId r (turns r)
      let (mem, responses, closed) ← readSessions c turns rest mem
      some (mem, turned.responses ++ responses, if turned.closed then terminalId :: closed else closed)

/-- The second loop. -/
def cleanUpAll (isPersistent : Bool) (tryWait : Child → TryWait) :
    List Int → PersistentTerminalService → Memory →
      List TerminalResponse × PersistentTerminalService × Memory
  | [], svc, mem => ([], svc, mem)
  | terminalId :: rest, svc, mem =>
      let (response, svc, mem) := svc.cleanUp isPersistent tryWait terminalId mem
      let (responses, svc, mem) := cleanUpAll isPersistent tryWait rest svc mem
      (response :: responses, svc, mem)

def readOutputs (c : Compression) (turns : SessionRef → Turn) (tryWait : Child → TryWait)
    (svc : PersistentTerminalService) (mem : Memory) :
    Option (List TerminalResponse × PersistentTerminalService × Memory) :=
  (readSessions c turns svc.sessions.entries mem).map fun (mem, responses, closed) =>
    let (responses', svc, mem) := cleanUpAll svc.isPersistent tryWait closed svc mem
    (responses ++ responses', svc, mem)

end PersistentTerminalService

end RemoteControl.Terminal
