import RemoteControl.Runs
import RemoteControl.Terminal.Service

/-! # Who owns the child processes

A child that `handle_open` has spawned belongs to its session until it is handed to the
reaper, which keeps it until `try_wait` has said that it has exited, or has failed. Every
function that takes a child out of a session hands it over, but for one way out of
`handle_close`: when the child cannot be killed, the error is returned first. `stop` does
not look at what `kill` returns.
-/

namespace RemoteControl.Terminal

open Runs (exec Always Along)

section Maps

variable {α : Type*} {β : α → Type*} [DecidableEq α] {a : α} {b : β a}

theorem perm_cons_kerase {l : List (Sigma β)} (found : l.dlookup a = some b) :
    l.Perm (⟨a, b⟩ :: l.kerase a) := by
  induction l with
  | nil => cases found
  | cons e rest ih =>
      obtain ⟨a', b'⟩ := e
      by_cases same : a = a'
      · subst same
        rw [List.dlookup_cons_eq] at found
        cases found
        have erased : List.kerase a (⟨a, b⟩ :: rest) = rest := List.kerase_cons_eq rfl
        rw [erased]
      · rw [List.dlookup_cons_ne _ ⟨a', b'⟩ same] at found
        rw [List.kerase_cons_ne same]
        exact ((ih found).cons _).trans (.swap ..)

theorem perm_of_lookup {s : AList β} (found : s.lookup a = some b) :
    s.entries.Perm (⟨a, b⟩ :: (s.erase a).entries) :=
  perm_cons_kerase found

end Maps

/-- The children of the sessions. -/
def Memory.children (mem : Memory) (refs : List SessionRef) : List Child :=
  refs.filterMap fun r => (mem.sessions r).child

namespace Memory

variable {mem mem' mem'' : Memory} {refs refs' refs'' : List SessionRef} {r : SessionRef}

theorem children_congr (same : ∀ r ∈ refs, (mem'.sessions r).child = (mem.sessions r).child) :
    mem'.children refs = mem.children refs :=
  List.filterMap_congr same

theorem children_cons :
    mem.children (r :: refs) = (mem.sessions r).child.toList ++ mem.children refs := by
  cases child : (mem.sessions r).child <;> simp [children, child]

/-- A change that neither adds nor loses a child. -/
structure Hands (refs refs' : List SessionRef) (mem mem' : Memory) : Prop where
  count : ∀ child, (mem'.children refs').count child + mem'.tasks.count child =
    (mem.children refs).count child + mem.tasks.count child
  nodup : refs.Nodup → refs'.Nodup
  subset : refs' ⊆ refs
  nextRef : mem'.nextRef = mem.nextRef
  nextChild : mem.nextChild ≤ mem'.nextChild

theorem Hands.refl : Hands refs refs mem mem :=
  ⟨fun _ => rfl, id, List.Subset.refl _, rfl, le_rfl⟩

theorem Hands.trans (first : Hands refs refs' mem mem') (second : Hands refs' refs'' mem' mem'') :
    Hands refs refs'' mem mem'' where
  count child := (second.count child).trans (first.count child)
  nodup nodup := second.nodup (first.nodup nodup)
  subset := List.Subset.trans second.subset first.subset
  nextRef := second.nextRef.trans first.nextRef
  nextChild := Nat.le_trans first.nextChild second.nextChild

theorem Hands.of_perm (perm : refs.Perm refs') : Hands refs refs' mem mem where
  count child := by simp [children, (perm.filterMap _).count_eq child]
  nodup := perm.nodup
  subset := perm.symm.subset
  nextRef := rfl
  nextChild := le_rfl

theorem Hands.update {s : TerminalSession} (same : s.child = (mem.sessions r).child) :
    Hands refs refs mem (mem.update r s) where
  count child := by
    have kept : (mem.update r s).children refs = mem.children refs := by
      apply children_congr
      intro r' _
      by_cases here : r' = r
      · subst here
        simp [Memory.update, same]
      · simp [Memory.update, here]
    rw [kept]
    rfl
  nodup := id
  subset := List.Subset.refl _
  nextRef := rfl
  nextChild := le_rfl

/-- The child of the session has gone to the reaper. -/
structure HandsOver (r : SessionRef) (mem mem' : Memory) : Prop where
  tasks : mem'.tasks = mem.tasks ++ (mem.sessions r).child.toList
  gone : (mem'.sessions r).child = none
  others : ∀ r', r' ≠ r → (mem'.sessions r').child = (mem.sessions r').child
  nextRef : mem'.nextRef = mem.nextRef
  nextChild : mem'.nextChild = mem.nextChild

theorem HandsOver.hands (over_ : HandsOver r mem mem') (fresh : r ∉ refs) :
    Hands (r :: refs) refs mem mem' where
  count child := by
    have kept : mem'.children refs = mem.children refs :=
      children_congr fun r' member => over_.others r' (ne_of_mem_of_not_mem member fresh)
    simp only [kept, over_.tasks, children_cons, List.count_append]
    omega
  nodup := List.Nodup.of_cons
  subset := List.subset_cons_self ..
  nextRef := over_.nextRef
  nextChild := Nat.le_of_eq over_.nextChild.symm

theorem HandsOver.hands_stay (over_ : HandsOver r mem mem') (fresh : r ∉ refs) :
    Hands (r :: refs) (r :: refs) mem mem' where
  count child := by
    have moved := (over_.hands fresh).count child
    rw [children_cons, over_.gone]
    exact moved
  nodup := id
  subset := List.Subset.refl _
  nextRef := over_.nextRef
  nextChild := Nat.le_of_eq over_.nextChild.symm

theorem handsOver_update {s : TerminalSession} {tasks : List Child} (gone : s.child = none)
    (handed : tasks = mem.tasks ++ (mem.sessions r).child.toList) :
    HandsOver r mem { mem.update r s with tasks := tasks } where
  tasks := handed
  gone := by simp [Memory.update, gone]
  others r' other := by simp [Memory.update, other]
  nextRef := rfl
  nextChild := rfl

theorem stop_handsOver (r : SessionRef) (mem : Memory) : HandsOver r mem (mem.stop r) := by
  unfold stop
  cases child : (mem.sessions r).child with
  | none => exact handsOver_update rfl (by simp [child])
  | some taken => exact handsOver_update rfl (by simp [child, Memory.update])

variable {child : Child}

theorem takeChild_handsOver_some (has : (mem.sessions r).child = some child) :
    HandsOver r mem ((mem.takeChild r).1.addToReaper child) :=
  handsOver_update rfl (by simp [takeChild, Memory.update, has])

theorem takeChild_handsOver_none (has : (mem.sessions r).child = none) :
    HandsOver r mem (mem.takeChild r).1 :=
  handsOver_update rfl (by simp [has])

end Memory

namespace PersistentTerminalService

variable {svc : PersistentTerminalService} {mem mem' : Memory} {others : List SessionRef}
  {terminalId : Int} {r : SessionRef}

theorem refs_perm (found : svc.sessions.lookup terminalId = some r) :
    svc.refs.Perm (r :: { svc with sessions := svc.sessions.erase terminalId }.refs) :=
  (perm_of_lookup found).map _

/-- What an operation of the service does to the children, whatever sessions other services
    have. -/
def HandsAll (svc svc' : PersistentTerminalService) (mem mem' : Memory) : Prop :=
  ∀ others, (svc.refs ++ others).Nodup →
    Memory.Hands (svc.refs ++ others) (svc'.refs ++ others) mem mem'

theorem HandsAll.refl : HandsAll svc svc mem mem := fun _ _ => .refl

variable {c : Compression} {svc' : PersistentTerminalService} {turns : SessionRef → Turn}
  {responses : List TerminalResponse}

theorem HandsAll.trans {svc'' : PersistentTerminalService} {mem'' : Memory}
    (first : HandsAll svc svc' mem mem') (second : HandsAll svc' svc'' mem' mem'') :
    HandsAll svc svc'' mem mem'' := by
  intro others nodup
  have hands := first others nodup
  exact hands.trans (second others (hands.nodup nodup))

theorem HandsAll.of_perm (perm : svc.refs.Perm svc'.refs) : HandsAll svc svc' mem mem :=
  fun _ _ => .of_perm (perm.append_right _)

theorem HandsAll.update {s : TerminalSession} (same : s.child = (mem.sessions r).child) :
    HandsAll svc svc mem (mem.update r s) :=
  fun _ _ => .update same

theorem HandsAll.erase (found : svc.sessions.lookup terminalId = some r)
    (over_ : Memory.HandsOver r mem mem') :
    HandsAll svc { svc with sessions := svc.sessions.erase terminalId } mem mem' := by
  intro others nodup
  have perm := (refs_perm found).append_right others
  have fresh := (List.nodup_cons.mp (perm.nodup nodup)).1
  exact (Memory.Hands.of_perm perm).trans (over_.hands fresh)

theorem HandsAll.keep (found : svc.sessions.lookup terminalId = some r)
    (over_ : Memory.HandsOver r mem mem') : HandsAll svc svc mem mem' := by
  intro others nodup
  have perm := (refs_perm found).append_right others
  have fresh := (List.nodup_cons.mp (perm.nodup nodup)).1
  exact (Memory.Hands.of_perm perm).trans ((over_.hands_stay fresh).trans (.of_perm perm.symm))

theorem resetStatus_hands (isPersistent : Bool) (svc : PersistentTerminalService) (mem : Memory) :
    HandsAll svc (svc.resetStatus isPersistent mem).1 mem (svc.resetStatus isPersistent mem).2 := by
  have closes (entries : List (Sigma fun _ : Int => SessionRef)) :
      HandsAll svc svc mem
        (entries.foldl (fun mem e => mem.update e.2 (mem.sessions e.2).close) mem) := by
    induction entries generalizing mem with
    | nil => exact .refl
    | cons e rest ih =>
        have here : HandsAll svc svc mem (mem.update e.2 (mem.sessions e.2).close) := .update rfl
        exact here.trans (ih _)
  exact closes svc.sessions.entries

theorem remap_refs (terminalId : Int) (svc : PersistentTerminalService) :
    svc.refs.Perm (svc.remap terminalId).refs := by
  unfold remap
  split
  case isFalse => rfl
  case isTrue missing =>
    split
    case h_2 => rfl
    case h_1 lowestId _ =>
      split
      case h_2 => rfl
      case h_1 session found =>
        have absent : terminalId ∉ svc.sessions.erase lowestId :=
          fun there => missing.1 (AList.mem_erase.mp there).2
        unfold refs
        rw [AList.entries_insert_of_notMem absent]
        exact refs_perm found

theorem reopen_hands (open_ : OpenTerminal) (spawning : Spawning) (svc : PersistentTerminalService)
    (mem : Memory) (exists_ : open_.terminalId ∈ (svc.remap open_.terminalId).sessions) :
    HandsAll svc (svc.handleOpen open_ spawning mem).2.1 mem
      (svc.handleOpen open_ spawning mem).2.2 := by
  obtain ⟨r, found⟩ := Option.isSome_iff_exists.mp (AList.lookup_isSome.mpr exists_)
  simp only [handleOpen, found]
  exact HandsAll.trans (.of_perm (remap_refs open_.terminalId svc)) (.update rfl)

/-- A new session with a new child. -/
structure Spawns (svc svc' : PersistentTerminalService) (mem mem' : Memory) : Prop where
  refs : svc'.refs.Perm (mem.nextRef :: svc.refs)
  child : (mem'.sessions mem.nextRef).child = some mem.nextChild
  others : ∀ r, r ≠ mem.nextRef → (mem'.sessions r).child = (mem.sessions r).child
  tasks : mem'.tasks = mem.tasks
  nextRef : mem'.nextRef = mem.nextRef + 1
  nextChild : mem'.nextChild = mem.nextChild + 1

theorem create_cases (open_ : OpenTerminal) (spawning : Spawning) (mem : Memory)
    (missing : open_.terminalId ∉ svc.sessions) :
    HandsAll svc (svc.create open_ spawning mem).2.1 mem (svc.create open_ spawning mem).2.2 ∨
      Spawns svc (svc.create open_ spawning mem).2.1 mem (svc.create open_ spawning mem).2.2 := by
  have given_up : HandsAll svc svc mem { mem with nextChild := mem.nextChild + 1 } :=
    fun _ _ => ⟨fun _ => rfl, id, List.Subset.refl _, rfl, Nat.le_succ _⟩
  unfold create
  cases spawning.openpty
  · exact .inl .refl
  cases spawning.spawnCommand
  · exact .inl .refl
  cases spawning.takeWriter
  · exact .inl given_up
  cases spawning.tryCloneReader
  · exact .inl given_up
  right
  simp only [Bool.not_true, Bool.false_eq_true, if_false]
  constructor
  · simp only [refs]
    rw [AList.entries_insert_of_notMem missing]
    rfl
  · simp
  · intro r other
    simp [other]
  · rfl
  · rfl
  · rfl

theorem handleOpen_cases (open_ : OpenTerminal) (spawning : Spawning) (svc : PersistentTerminalService)
    (mem : Memory) :
    HandsAll svc (svc.handleOpen open_ spawning mem).2.1 mem (svc.handleOpen open_ spawning mem).2.2 ∨
      Spawns svc (svc.handleOpen open_ spawning mem).2.1 mem
        (svc.handleOpen open_ spawning mem).2.2 := by
  have remapped := remap_refs open_.terminalId svc
  by_cases exists_ : open_.terminalId ∈ (svc.remap open_.terminalId).sessions
  · exact .inl (reopen_hands open_ spawning svc mem exists_)
  · simp only [handleOpen, AList.lookup_eq_none.mpr exists_]
    rcases create_cases open_ spawning mem exists_ with hands | spawns
    · exact .inl (HandsAll.trans (.of_perm remapped) hands)
    · exact .inr { spawns with refs := spawns.refs.trans (remapped.symm.cons _) }

theorem handleClose_hands (terminalId : Int) {killed : Except String Unit} (mem : Memory)
    (kills : killed = .ok () ∨
    (svc.sessions.lookup terminalId).bind (fun r => (mem.sessions r).child) = none) :
    HandsAll svc (svc.handleClose terminalId killed mem).2.1 mem
      (svc.handleClose terminalId killed mem).2.2 := by
  unfold handleClose
  cases found : svc.sessions.lookup terminalId with
  | none => exact .refl
  | some r =>
      cases has : (mem.sessions r).child with
      | none =>
          simp only [Memory.takeChild, has]
          exact .erase found (Memory.takeChild_handsOver_none has)
      | some child =>
          simp only [found, has, Option.bind_some, reduceCtorEq, or_false] at kills
          subst kills
          simp only [Memory.takeChild, has]
          exact .erase found (Memory.takeChild_handsOver_some has)

/-- A child that cannot be killed is gone. -/
theorem handleClose_loses {e : String} (found : svc.sessions.lookup terminalId = some r)
    (has : (mem.sessions r).child = some child) (nodup : (svc.refs ++ others).Nodup) (child' : Child) :
    let closed := (svc.handleClose terminalId (.error e) mem).2
    (closed.1.refs ++ others).Nodup ∧ closed.1.refs ++ others ⊆ svc.refs ++ others ∧
      closed.2.tasks = mem.tasks ∧ closed.2.nextRef = mem.nextRef ∧ closed.2.nextChild = mem.nextChild ∧
      (mem.children (svc.refs ++ others)).count child' =
        (closed.2.children (closed.1.refs ++ others)).count child' + [child].count child' := by
  have perm := (refs_perm found).append_right others
  have fresh := List.nodup_cons.mp (perm.nodup nodup)
  have closed : (svc.handleClose terminalId (.error e) mem).2 =
      ({ svc with sessions := svc.sessions.erase terminalId }, (mem.takeChild r).1) := by
    simp [handleClose, found, Memory.takeChild, has]
  have kept : (mem.takeChild r).1.children
        ({ svc with sessions := svc.sessions.erase terminalId }.refs ++ others) =
      mem.children ({ svc with sessions := svc.sessions.erase terminalId }.refs ++ others) := by
    apply Memory.children_congr
    intro r' member
    have other : r' ≠ r := ne_of_mem_of_not_mem member fresh.1
    simp [Memory.takeChild, Memory.update, other]
  simp only [closed]
  refine ⟨fresh.2, List.Subset.trans (List.subset_cons_self ..) perm.symm.subset, rfl, rfl, rfl, ?_⟩
  have counted : (mem.children (svc.refs ++ others)).count child' = _ :=
    (perm.filterMap fun r => (mem.sessions r).child).count_eq child'
  rw [counted, kept]
  simp only [Memory.children, List.cons_append, List.filterMap_cons, has, List.count_cons,
    List.count_nil]
  omega

theorem cleanUp_hands (isPersistent : Bool) (tryWait : Child → TryWait) (terminalId : Int)
    (svc : PersistentTerminalService) (mem : Memory) :
    HandsAll svc (svc.cleanUp isPersistent tryWait terminalId mem).2.1 mem
      (svc.cleanUp isPersistent tryWait terminalId mem).2.2 := by
  unfold cleanUp
  cases found : svc.sessions.lookup terminalId with
  | none => exact .refl
  | some r =>
      cases has : (mem.sessions r).child with
      | none =>
          have over_ := Memory.takeChild_handsOver_none has
          simp only [Memory.takeChild, has] at over_ ⊢
          cases isPersistent with
          | true => exact .keep found over_
          | false => exact .erase found over_
      | some child =>
          have over_ := Memory.takeChild_handsOver_some has
          simp only [Memory.takeChild, has] at over_ ⊢
          cases isPersistent with
          | true => exact .keep found over_
          | false => exact .erase found over_

theorem cleanUpAll_hands (isPersistent : Bool) (tryWait : Child → TryWait) (closed : List Int)
    (svc : PersistentTerminalService) (mem : Memory) :
    HandsAll svc (cleanUpAll isPersistent tryWait closed svc mem).2.1 mem
      (cleanUpAll isPersistent tryWait closed svc mem).2.2 := by
  induction closed generalizing svc mem with
  | nil => exact .refl
  | cons terminalId rest ih =>
    exact (cleanUp_hands isPersistent tryWait terminalId svc mem).trans (ih _ _)

variable {terminalId : Int}

theorem readOutput_child {turn : Turn} {s s' : TerminalSession} {turned : Turned}
    (reads : s.readOutput c terminalId turn = some (s', turned)) : s'.child = s.child := by
  unfold TerminalSession.readOutput at reads
  obtain ⟨buffer, -, result⟩ := Option.map_eq_some_iff.mp reads
  cases state : s.state <;> simp only [state] at result <;> cases result <;> rfl

theorem readSessions_hands {entries : List (Sigma fun _ : Int => SessionRef)} {closed : List Int}
    (reads : readSessions c turns entries mem = some (mem', responses, closed)) :
    HandsAll svc svc mem mem' := by
  induction entries generalizing mem mem' responses closed with
  | nil =>
      cases reads
      exact .refl
  | cons e rest ih =>
      simp only [readSessions, Memory.readOutput, Option.bind_eq_bind, Option.bind_eq_some_iff,
        Option.map_eq_some_iff, Prod.exists] at reads
      obtain ⟨_, turned, ⟨s, _, read, same⟩, mem'', _, _, later, result⟩ := reads
      cases same
      cases result
      exact HandsAll.trans (.update (readOutput_child read)) (ih later)

theorem readOutputs_hands {tryWait : Child → TryWait}
    (reads : svc.readOutputs c turns tryWait mem = some (responses, svc', mem')) :
    HandsAll svc svc' mem mem' := by
  obtain ⟨⟨mem'', _, closed⟩, read, result⟩ := Option.map_eq_some_iff.mp reads
  cases result
  exact (readSessions_hands read).trans (cleanUpAll_hands svc.isPersistent tryWait closed svc mem'')

end PersistentTerminalService

structure Terminals where
  /-- `TERMINAL_SERVICES` -/
  services : AList fun _ : String => PersistentTerminalService := ∅
  mem : Memory := {}
  /-- the children that a successful `handle_open` has spawned -/
  spawned : List Child := []
  /-- the children that have left the list of the reaper -/
  reaped : List Child := []

inductive TerminalEvent where
  | getOrCreateService (serviceId : String) (isPersistent : Bool)
  | handleOpen (serviceId : String) (open_ : OpenTerminal) (spawning : Spawning)
  | handleClose (serviceId : String) (terminalId : Int) (killed : Except String Unit)
  | readOutputs (serviceId : String) (turns : SessionRef → Turn) (tryWait : Child → TryWait)
  | removeService (serviceId : String)
  /-- the map loses a session that nobody else refers to -/
  | dropSession (serviceId : String) (terminalId : Int)
  | checkZombieTerminals (tryWait : Child → TryWait)
  /-- the reader thread of a session has data -/
  | push (r : SessionRef) (data : Bytes)

namespace Terminals

/-- What is done to a service, if there is one with the id. -/
def onService (serviceId : String)
    (act : PersistentTerminalService → Memory → PersistentTerminalService × Memory) (w : Terminals) :
    Terminals :=
  match w.services.lookup serviceId with
  | some svc =>
      let (svc, mem) := act svc w.mem
      { w with services := w.services.insert serviceId svc, mem := mem }
  | none => w

def getOrCreateService (serviceId : String) (isPersistent : Bool) (w : Terminals) : Terminals :=
  if serviceId ∉ w.services ∧ maxServices ≤ w.services.keys.length then w
  else
    let svc :=
      (w.services.lookup serviceId).getD { serviceId := serviceId, isPersistent := isPersistent }
    let (svc, mem) := svc.resetStatus isPersistent w.mem
    { w with services := w.services.insert serviceId svc, mem := mem }

def removeService (serviceId : String) (w : Terminals) : Terminals :=
  match w.services.lookup serviceId with
  | some svc =>
      { w with
        services := w.services.erase serviceId
        mem := svc.sessions.entries.foldl (fun mem e => mem.stop e.2) w.mem }
  | none => w

/-- `Drop` of a session that leaves the map. -/
def dropSession (terminalId : Int) (svc : PersistentTerminalService) (mem : Memory) :
    PersistentTerminalService × Memory :=
  match svc.sessions.lookup terminalId with
  | some r => ({ svc with sessions := svc.sessions.erase terminalId }, mem.stop r)
  | none => (svc, mem)

variable (c : Compression)

def step (w : Terminals) : TerminalEvent → Terminals
  | .getOrCreateService serviceId isPersistent => w.getOrCreateService serviceId isPersistent
  | .handleOpen serviceId open_ spawning =>
      let w' := w.onService serviceId fun svc mem => (svc.handleOpen open_ spawning mem).2
      -- a session that was made has the child that was spawned for it
      if w.mem.nextRef < w'.mem.nextRef then { w' with spawned := w.spawned ++ [w.mem.nextChild] } else w'
  | .handleClose serviceId terminalId killed =>
      w.onService serviceId fun svc mem => (svc.handleClose terminalId killed mem).2
  | .readOutputs serviceId turns tryWait =>
      w.onService serviceId fun svc mem =>
        match svc.readOutputs c turns tryWait mem with
        | some (_, svc, mem) => (svc, mem)
        -- a poll that does not return has not come to the children
        | none => (svc, mem)
  | .removeService serviceId => w.removeService serviceId
  | .dropSession serviceId terminalId => w.onService serviceId (dropSession terminalId)
  | .checkZombieTerminals tryWait =>
      { w with
        mem := w.mem.checkZombieTerminals tryWait
        reaped := w.reaped ++ w.mem.tasks.filter (tryWait · ≠ .running) }
  | .push r data => { w with mem := w.mem.update r ((w.mem.sessions r).push data) }

/-- The sessions in the maps of the services. -/
def refs (w : Terminals) : List SessionRef :=
  w.services.entries.flatMap fun e => e.2.refs

/-- How many sessions in the maps, entries of the reaper's list and reports of `try_wait` there
    are for the child. -/
def owners (w : Terminals) (child : Child) : Nat :=
  (w.mem.children w.refs).count child + w.mem.tasks.count child + w.reaped.count child

/-- Every child that was spawned has exactly one owner. -/
def Owned (w : Terminals) : Prop := ∀ child ∈ w.spawned, w.owners child = 1

/-- The child of the terminal, if it has one. -/
def childOf (w : Terminals) (serviceId : String) (terminalId : Int) : Option Child :=
  (w.services.lookup serviceId).bind fun svc =>
    (svc.sessions.lookup terminalId).bind fun r => (w.mem.sessions r).child

/-- `handle_close` can kill the child it closes the terminal of. -/
def Kills (w : Terminals) : TerminalEvent → Prop
  | .handleClose serviceId terminalId (.error _) => w.childOf serviceId terminalId = none
  | _ => True

/-- What holds in every run, killed or not. -/
structure Inv (w : Terminals) : Prop where
  nodup : w.refs.Nodup
  made : ∀ r ∈ w.refs, r < w.mem.nextRef
  known : ∀ child, 0 < w.owners child → child ∈ w.spawned
  old : ∀ child ∈ w.spawned, child < w.mem.nextChild

variable {c} {w w' : Terminals}

theorem inv_start : Inv {} := by
  constructor <;> simp [refs, owners, Memory.children]

/-- A step that only takes owners away keeps the invariant. -/
theorem Inv.of_le (inv : Inv w) (nodup : w'.refs.Nodup) (subset : w'.refs ⊆ w.refs)
    (nextRef : w'.mem.nextRef = w.mem.nextRef) (nextChild : w.mem.nextChild ≤ w'.mem.nextChild)
    (spawned : w'.spawned = w.spawned) (owners : ∀ child, w'.owners child ≤ w.owners child) :
    Inv w' where
  nodup := nodup
  made r member := nextRef ▸ inv.made r (subset member)
  known child owned := spawned ▸ inv.known child (Nat.lt_of_lt_of_le owned (owners child))
  old child member := Nat.lt_of_lt_of_le (inv.old child (spawned ▸ member)) nextChild

/-- A step that changes no number of owners. -/
theorem Inv.of_hands (inv : Inv w) (hands : Memory.Hands w.refs w'.refs w.mem w'.mem)
    (spawned : w'.spawned = w.spawned) (reaped : w'.reaped = w.reaped) :
    Inv w' ∧ (Owned w' ↔ Owned w) := by
  have owners (child : Child) : w'.owners child = w.owners child := by
    rw [Terminals.owners, Terminals.owners, hands.count, reaped]
  refine ⟨inv.of_le (hands.nodup inv.nodup) hands.subset hands.nextRef hands.nextChild spawned
    fun child => Nat.le_of_eq (owners child), ?_⟩
  simp [Owned, spawned, owners]

/-- The sessions of the other services. -/
def others (w : Terminals) (serviceId : String) : List SessionRef :=
  (w.services.erase serviceId).entries.flatMap fun e => e.2.refs

variable {serviceId : String} {svc : PersistentTerminalService}

theorem refs_of_lookup (found : w.services.lookup serviceId = some svc) :
    w.refs.Perm (svc.refs ++ w.others serviceId) := by
  have perm := (perm_of_lookup found).flatMap_right fun e => e.2.refs
  simpa [refs, others] using perm

theorem onService_of_lookup (found : w.services.lookup serviceId = some svc)
    (act : PersistentTerminalService → Memory → PersistentTerminalService × Memory) :
    (w.onService serviceId act).mem = (act svc w.mem).2 ∧
      (w.onService serviceId act).refs = (act svc w.mem).1.refs ++ w.others serviceId ∧
      (w.onService serviceId act).spawned = w.spawned ∧
        (w.onService serviceId act).reaped = w.reaped := by
  have erased : (w.services.erase serviceId).entries = w.services.entries.kerase serviceId := rfl
  simp [onService, found, refs, others, erased]

theorem onService_of_none (missing : w.services.lookup serviceId = none)
    (act : PersistentTerminalService → Memory → PersistentTerminalService × Memory) :
    w.onService serviceId act = w := by
  simp [onService, missing]

theorem onService_hands (inv : Inv w)
    (act : PersistentTerminalService → Memory → PersistentTerminalService × Memory)
    (hands : ∀ svc, w.services.lookup serviceId = some svc →
      svc.HandsAll (act svc w.mem).1 w.mem (act svc w.mem).2) :
    Inv (w.onService serviceId act) ∧ (Owned (w.onService serviceId act) ↔ Owned w) := by
  cases found : w.services.lookup serviceId with
  | none =>
      rw [onService_of_none found]
      exact ⟨inv, .rfl⟩
  | some svc =>
      obtain ⟨mem, refs, spawned, reaped⟩ := onService_of_lookup found act
      have perm := refs_of_lookup found
      have moved := hands svc found (w.others serviceId) (perm.nodup inv.nodup)
      refine inv.of_hands ?_ spawned reaped
      rw [mem, refs]
      exact (Memory.Hands.of_perm perm).trans moved

theorem getOrCreateService_hands (inv : Inv w) (serviceId : String) (isPersistent : Bool) :
    Inv (w.getOrCreateService serviceId isPersistent) ∧
      (Owned (w.getOrCreateService serviceId isPersistent) ↔ Owned w) := by
  unfold getOrCreateService
  split
  case isTrue => exact ⟨inv, .rfl⟩
  case isFalse =>
    cases found : w.services.lookup serviceId with
    | some svc =>
        have moved := onService_hands inv (PersistentTerminalService.resetStatus isPersistent)
          fun svc (_ : w.services.lookup serviceId = some svc) =>
            svc.resetStatus_hands isPersistent w.mem
        simpa [onService, found] using moved
    | none =>
        have absent : serviceId ∉ w.services := AList.lookup_eq_none.mp found
        refine inv.of_hands ?_ rfl rfl
        have same : w.refs = refs { w with
            services := w.services.insert serviceId
              ({ serviceId := serviceId, isPersistent := isPersistent, needsSessionSync := true } :
                PersistentTerminalService) } := by
          simp only [refs]
          rw [AList.entries_insert_of_notMem absent]
          rfl
        rw [same]
        exact .refl

theorem stops_hands {entries : List (Sigma fun _ : Int => SessionRef)} {others : List SessionRef}
    {mem : Memory} (nodup : (entries.map (·.2) ++ others).Nodup) :
    Memory.Hands (entries.map (·.2) ++ others) others mem
      (entries.foldl (fun mem e => mem.stop e.2) mem) := by
  induction entries generalizing mem with
  | nil => exact .refl
  | cons e rest ih =>
      have fresh := List.nodup_cons.mp nodup
      exact ((Memory.stop_handsOver e.2 mem).hands fresh.1).trans (ih fresh.2)

theorem removeService_hands (inv : Inv w) (serviceId : String) :
    Inv (w.removeService serviceId) ∧ (Owned (w.removeService serviceId) ↔ Owned w) := by
  unfold removeService
  cases found : w.services.lookup serviceId with
  | none => exact ⟨inv, .rfl⟩
  | some svc =>
      have perm := refs_of_lookup found
      refine inv.of_hands ?_ rfl rfl
      exact (Memory.Hands.of_perm perm).trans (stops_hands (perm.nodup inv.nodup))

theorem dropSession_hands (terminalId : Int) (svc : PersistentTerminalService) (mem : Memory) :
    svc.HandsAll (dropSession terminalId svc mem).1 mem (dropSession terminalId svc mem).2 := by
  unfold dropSession
  cases found : svc.sessions.lookup terminalId with
  | none => exact .refl
  | some r => exact .erase found (mem.stop_handsOver r)

/-- The reaper and the reports of `try_wait` share what the reaper had. -/
theorem checkZombieTerminals_owned (inv : Inv w) (tryWait : Child → TryWait) :
    Inv (w.step c (.checkZombieTerminals tryWait)) ∧
      (Owned (w.step c (.checkZombieTerminals tryWait)) ↔ Owned w) := by
  have owners (child : Child) :
      (w.step c (.checkZombieTerminals tryWait)).owners child = w.owners child := by
    have shared : (w.mem.tasks.filter (tryWait · = .running)).count child +
        (w.mem.tasks.filter (tryWait · ≠ .running)).count child = w.mem.tasks.count child := by
      by_cases running : tryWait child = .running
      · have none_ : (w.mem.tasks.filter (tryWait · ≠ .running)).count child = 0 :=
          List.count_eq_zero.mpr (by simp [running])
        rw [List.count_filter (by simpa using running), none_, Nat.add_zero]
      · have none_ : (w.mem.tasks.filter (tryWait · = .running)).count child = 0 :=
          List.count_eq_zero.mpr (by simp [running])
        rw [none_, Nat.zero_add, List.count_filter (by simpa using running)]
    simp only [Terminals.owners, step, Memory.checkZombieTerminals, List.count_append, refs,
      Memory.children] at shared ⊢
    omega
  refine ⟨inv.of_le inv.nodup (List.Subset.refl _) rfl le_rfl rfl fun child =>
    Nat.le_of_eq (owners child), ?_⟩
  simp only [Owned, owners]
  rfl

/-- A new child has the new session for its only owner. -/
theorem owned_of_spawns {svc' : PersistentTerminalService} {mem' : Memory} (inv : Inv w)
    (found : w.services.lookup serviceId = some svc) (spawns : svc.Spawns svc' w.mem mem')
    (mem : w'.mem = mem') (refs : w'.refs = svc'.refs ++ w.others serviceId)
    (spawned : w'.spawned = w.spawned ++ [w.mem.nextChild]) (reaped : w'.reaped = w.reaped) :
    Inv w' ∧ (Owned w' ↔ Owned w) := by
  subst mem
  have perm : w'.refs.Perm (w.mem.nextRef :: w.refs) := by
    rw [refs]
    exact (spawns.refs.append_right _).trans ((refs_of_lookup found).symm.cons _)
  have fresh : w.mem.nextRef ∉ w.refs := fun member => Nat.lt_irrefl _ (inv.made _ member)
  have owners (child : Child) : w'.owners child = w.owners child + [w.mem.nextChild].count child := by
    have counted : (w'.mem.children w'.refs).count child = _ :=
      (perm.filterMap fun r => (w'.mem.sessions r).child).count_eq child
    have kept : w'.mem.children w.refs = w.mem.children w.refs :=
      Memory.children_congr fun r member => spawns.others r (ne_of_mem_of_not_mem member fresh)
    simp only [Memory.children] at counted kept
    simp only [Terminals.owners, Memory.children, counted, List.filterMap_cons, spawns.child, kept,
      spawns.tasks, reaped, List.count_cons, List.count_nil]
    omega
  have unknown : w.owners w.mem.nextChild = 0 := by
    by_contra owned
    exact Nat.lt_irrefl _ (inv.old _ (inv.known _ (Nat.pos_of_ne_zero owned)))
  constructor
  · constructor
    · exact perm.symm.nodup (List.nodup_cons.mpr ⟨fresh, inv.nodup⟩)
    · intro r member
      rw [spawns.nextRef]
      rcases List.mem_cons.mp (perm.subset member) with rfl | old
      · exact Nat.lt_succ_self _
      · exact Nat.lt_succ_of_lt (inv.made r old)
    · intro child owned
      rw [spawned, List.mem_append, List.mem_singleton]
      by_cases new : child = w.mem.nextChild
      · exact .inr new
      · have other : w.owners child = w'.owners child := by
          simp [owners, Ne.symm new]
        exact .inl (inv.known child (other ▸ owned))
    · intro child member
      rw [spawns.nextChild]
      rcases List.mem_append.mp (spawned ▸ member) with old | new
      · exact Nat.lt_succ_of_lt (inv.old child old)
      · rw [List.mem_singleton.mp new]
        exact Nat.lt_succ_self _
  · have same {child : Child} (member : child ∈ w.spawned) : w'.owners child = w.owners child := by
      have other : w.mem.nextChild ≠ child := Nat.ne_of_gt (inv.old child member)
      simp [owners, other]
    constructor
    · intro owned child member
      rw [← same member]
      apply owned
      simp [spawned, member]
    · intro owned child member
      rcases List.mem_append.mp (spawned ▸ member) with old | new
      · rw [same old]
        exact owned child old
      · rw [List.mem_singleton.mp new, owners, unknown]
        simp

theorem handleOpen_owned (inv : Inv w) (serviceId : String) (open_ : OpenTerminal)
    (spawning : Spawning) :
    Inv (w.step c (.handleOpen serviceId open_ spawning)) ∧
      (Owned (w.step c (.handleOpen serviceId open_ spawning)) ↔ Owned w) := by
  let act := fun svc mem => (PersistentTerminalService.handleOpen open_ spawning svc mem).2
  have opened : w.step c (.handleOpen serviceId open_ spawning) =
      if w.mem.nextRef < (w.onService serviceId act).mem.nextRef then
        { w.onService serviceId act with spawned := w.spawned ++ [w.mem.nextChild] }
      else w.onService serviceId act := rfl
  rw [opened]
  cases found : w.services.lookup serviceId with
  | none =>
      rw [onService_of_none found, if_neg (Nat.lt_irrefl _)]
      exact ⟨inv, .rfl⟩
  | some svc =>
      obtain ⟨mem, refs, -, reaped⟩ := onService_of_lookup found act
      rcases svc.handleOpen_cases open_ spawning w.mem with hands | spawns
      · have nextRef : (w.onService serviceId act).mem.nextRef = w.mem.nextRef := by
          rw [mem]
          exact (hands (w.others serviceId) ((refs_of_lookup found).nodup inv.nodup)).nextRef
        rw [if_neg (by rw [nextRef]; exact Nat.lt_irrefl _)]
        apply onService_hands inv
        intro svc' found'
        cases found.symm.trans found'
        exact hands
      · rw [if_pos (by rw [mem, spawns.nextRef]; exact Nat.lt_succ_self _)]
        exact owned_of_spawns inv found spawns mem refs rfl reaped

theorem handleClose_owned (inv : Inv w) {killed : Except String Unit}
    (kills : Kills w (.handleClose serviceId terminalId killed)) :
    Inv (w.step c (.handleClose serviceId terminalId killed)) ∧
      (Owned (w.step c (.handleClose serviceId terminalId killed)) ↔ Owned w) := by
  refine onService_hands inv
    (fun svc mem => (svc.handleClose terminalId killed mem).2) fun svc found => ?_
  apply svc.handleClose_hands terminalId w.mem
  cases killed with
  | ok _ => exact .inl rfl
  | error e =>
      right
      have none_ : w.childOf serviceId terminalId = none := kills
      rwa [childOf, found, Option.bind_some] at none_

/-- A child that cannot be killed has no owner any more. -/
theorem handleClose_leaks (inv : Inv w) {e : String}
    (has : w.childOf serviceId terminalId = some child) :
    Inv (w.step c (.handleClose serviceId terminalId (.error e))) ∧
      (Owned w → ¬ Owned (w.step c (.handleClose serviceId terminalId (.error e)))) := by
  obtain ⟨svc, found, held⟩ := Option.bind_eq_some_iff.mp has
  obtain ⟨r, session, child_⟩ := Option.bind_eq_some_iff.mp held
  obtain ⟨mem, refs, spawned, reaped⟩ := onService_of_lookup found fun svc mem =>
    (svc.handleClose terminalId (.error e) mem).2
  have perm := refs_of_lookup found
  have loses :=
    PersistentTerminalService.handleClose_loses (e := e) session child_ (perm.nodup inv.nodup)
  have owners (child' : Child) :
      (w.step c (.handleClose serviceId terminalId (.error e))).owners child' + [child].count child' =
        w.owners child' := by
    obtain ⟨-, -, tasks, -, -, count⟩ := loses child'
    have before : (w.mem.children w.refs).count child' = _ :=
      (perm.filterMap fun r => (w.mem.sessions r).child).count_eq child'
    simp only [Memory.children] at before count
    simp only [Terminals.owners, step, mem, refs, reaped, tasks, Memory.children, before, count]
    omega
  obtain ⟨nodup, subset, -, nextRef, nextChild, -⟩ := loses child
  constructor
  · apply inv.of_le
    · rw [step, refs]
      exact nodup
    · rw [step, refs]
      exact List.Subset.trans subset perm.symm.subset
    · rw [step, mem, nextRef]
    · rw [step, mem, nextChild]
    · exact spawned
    · intro child'
      have left := owners child'
      omega
  · intro owned owned'
    have left := owners child
    have alone : w.owners child = 1 := by
      apply owned
      apply inv.known
      simp only [List.count_cons, beq_self_eq_true, if_true] at left
      omega
    have member : child ∈ (w.step c (.handleClose serviceId terminalId (.error e))).spawned := by
      rw [step, spawned]
      apply inv.known
      omega
    rw [owned' child member, alone] at left
    simp at left

theorem step_owned (inv : Inv w) {e : TerminalEvent} (kills : Kills w e) :
    Inv (w.step c e) ∧ (Owned (w.step c e) ↔ Owned w) := by
  cases e with
  | getOrCreateService serviceId isPersistent =>
    exact getOrCreateService_hands inv serviceId isPersistent
  | handleOpen serviceId open_ spawning => exact handleOpen_owned inv serviceId open_ spawning
  | handleClose serviceId terminalId killed => exact handleClose_owned inv kills
  | readOutputs serviceId turns tryWait =>
      let act := fun svc mem =>
        match PersistentTerminalService.readOutputs c turns tryWait svc mem with
        | some (_, svc, mem) => (svc, mem)
        | none => (svc, mem)
      refine onService_hands inv act fun svc _ => ?_
      unfold act
      cases reads : svc.readOutputs c turns tryWait w.mem with
      | none => exact .refl
      | some result =>
          obtain ⟨_, svc', mem'⟩ := result
          exact PersistentTerminalService.readOutputs_hands reads
  | removeService serviceId => exact removeService_hands inv serviceId
  | dropSession serviceId terminalId =>
      exact onService_hands inv _ fun svc _ => dropSession_hands terminalId svc w.mem
  | checkZombieTerminals tryWait => exact checkZombieTerminals_owned inv tryWait
  | push r data => exact inv.of_hands (.update (TerminalSession.push_child data _)) rfl rfl

theorem kills_or_leaks (w : Terminals) (e : TerminalEvent) :
    Kills w e ∨ ∃ serviceId terminalId error child,
      e = .handleClose serviceId terminalId (.error error) ∧
        w.childOf serviceId terminalId = some child := by
  cases e with
  | handleClose serviceId terminalId killed =>
      cases killed with
      | ok _ => exact .inl trivial
      | error error =>
          cases has : w.childOf serviceId terminalId with
          | none => exact .inl has
          | some child => exact .inr ⟨serviceId, terminalId, error, child, rfl, has⟩
  | _ => exact .inl trivial

/-- Every child has exactly one owner in every state of a run exactly when `handle_close` can
    kill each child it closes the terminal of. -/
theorem children_owned_iff (c : Compression) (events : List TerminalEvent) :
    Always (step c) Owned {} events ↔ Along (step c) Kills {} events := by
  apply Runs.always_iff_along_of_inv (q := Inv)
  · intro w e inv
    rcases kills_or_leaks w e with kills | ⟨serviceId, terminalId, error, child, rfl, has⟩
    · exact (step_owned inv kills).1
    · exact (handleClose_leaks inv has).1
  · intro w e inv owned
    rcases kills_or_leaks w e with kills | ⟨serviceId, terminalId, error, child, rfl, has⟩
    · exact ⟨fun _ => kills, fun _ => (step_owned inv kills).2.mpr owned⟩
    · have leaks := (handleClose_leaks (c := c) inv (e := error) has).2 owned
      refine ⟨fun owned' => absurd owned' leaks, fun kills => ?_⟩
      have none_ : w.childOf serviceId terminalId = none := kills
      rw [has] at none_
      cases none_
  · exact inv_start
  · intro child member
    cases member

/-- In no run two terminals share a session, or a child that was not spawned has an owner. -/
theorem sessions_apart (c : Compression) (events : List TerminalEvent) :
    Always (step c) (fun w => w.refs.Nodup ∧ ∀ child, 0 < w.owners child → child ∈ w.spawned)
      {} events := by
  have keep (w : Terminals) (e : TerminalEvent) (_ : True) (inv : Inv w) : Inv (w.step c e) := by
    rcases kills_or_leaks w e with kills | ⟨serviceId, terminalId, error, child, rfl, has⟩
    · exact (step_owned inv kills).1
    · exact (handleClose_leaks inv has).1
  exact (Runs.always_of_events keep (fun _ _ => trivial) inv_start).mono fun _ inv =>
    ⟨inv.nodup, inv.known⟩

/-- The shell of a terminal cannot be killed. -/
theorem unkilled_child_leaks :
    let w := exec (step .plain) {}
      [.getOrCreateService "ts" true, .handleOpen "ts" ⟨1, 24, 80⟩ {},
        .handleClose "ts" 1 (.error "Operation not permitted")]
    w.spawned = [0] ∧ w.owners 0 = 0 ∧ ¬ Owned w := by
  have leaked : (exec (step .plain) {}
      [.getOrCreateService "ts" true, .handleOpen "ts" ⟨1, 24, 80⟩ {},
        .handleClose "ts" 1 (.error "Operation not permitted")]).spawned = [0] := by
    decide +kernel
  have ownerless : (exec (step .plain) {}
      [.getOrCreateService "ts" true, .handleOpen "ts" ⟨1, 24, 80⟩ {},
        .handleClose "ts" 1 (.error "Operation not permitted")]).owners 0 = 0 := by
    decide +kernel
  refine ⟨leaked, ownerless, fun owned => ?_⟩
  have one := owned 0 (by rw [leaked]; exact List.mem_singleton.mpr rfl)
  rw [ownerless] at one
  cases one

end Terminals

end RemoteControl.Terminal
