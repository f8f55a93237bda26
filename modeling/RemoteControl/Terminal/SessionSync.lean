import RemoteControl.Terminal.Children

/-! # The first terminal after a reconnection

A client that comes back counts its terminals from 1 again, and the sessions that have
survived may have any ids. The first `handle_open` after `reset_status` gives the lowest
one the id that is asked for, unless a session has it, and tells the client which others
there are. Later ones give no session another id.
-/

namespace RemoteControl.Terminal

open Runs (exec Always Along)

abbrev SessionEntries := List (Sigma fun _ : Int => SessionRef)

/-- One session has another id than before. -/
def Renamed (terminalId : Int) (before after : SessionEntries) : Prop :=
  ∃ lowestId r rest, before.Perm (⟨lowestId, r⟩ :: rest) ∧ after.Perm (⟨terminalId, r⟩ :: rest)

/-- There is one session more. -/
def Added (terminalId : Int) (r : SessionRef) (before after : SessionEntries) : Prop :=
  after.Perm (⟨terminalId, r⟩ :: before)

namespace PersistentTerminalService

/-- What a successful `handle_open` makes of a service that has not told its client which
    sessions there are. -/
structure FirstOpen (terminalId : Int) (made : SessionRef) (svc svc' : PersistentTerminalService)
    (opened : TerminalOpened) : Prop where
  answered : opened.terminalId = terminalId
  entries : svc'.sessions.entries = svc.sessions.entries ∨
    Renamed terminalId svc.sessions.entries svc'.sessions.entries ∨
    svc.sessions.entries = [] ∧ Added terminalId made svc.sessions.entries svc'.sessions.entries
  /-- no session is lost and at most one made -/
  refs : svc'.refs.Perm svc.refs ∨ svc'.refs.Perm (made :: svc.refs)
  reported : (opened.terminalId :: opened.persistentSessions).Perm svc'.sessions.keys
  once : (opened.terminalId :: opened.persistentSessions).Nodup

/-- What it makes of one that has: every session keeps its id. -/
structure LaterOpen (terminalId : Int) (made : SessionRef) (svc svc' : PersistentTerminalService)
    (opened : TerminalOpened) : Prop where
  answered : opened.terminalId = terminalId
  entries : svc'.sessions.entries = svc.sessions.entries ∨
    Added terminalId made svc.sessions.entries svc'.sessions.entries
  kept : ∀ id r, svc.sessions.lookup id = some r → svc'.sessions.lookup id = some r

section Open

variable {svc svc' : PersistentTerminalService} {mem mem' : Memory} {terminalId : Int}
  {open_ : OpenTerminal} {spawning : Spawning} {response : TerminalResponse}

/-- The lowest id is that of a session, so that the remap either finds nothing to do or
    renames. -/
theorem remap_cases (terminalId : Int) (svc : PersistentTerminalService) :
    svc.remap terminalId = svc ∧
        (terminalId ∈ svc.sessions ∨ svc.needsSessionSync = false ∨ svc.sessions.entries = []) ∨
      ∃ lowestId r, svc.sessions.lookup lowestId = some r ∧ terminalId ∉ svc.sessions ∧
        svc.remap terminalId =
          { svc with sessions := (svc.sessions.erase lowestId).insert terminalId r } := by
  by_cases due : terminalId ∉ svc.sessions ∧ svc.needsSessionSync = true ∧ svc.sessions.keys ≠ []
  · right
    obtain ⟨lowestId, lowest⟩ : ∃ lowestId, svc.sessions.keys.min? = some lowestId := by
      apply Option.isSome_iff_exists.mp
      rw [List.isSome_min?_iff]
      exact due.2.2
    have there : lowestId ∈ svc.sessions := List.min?_mem lowest
    obtain ⟨r, found⟩ := Option.isSome_iff_exists.mp (AList.lookup_isSome.mpr there)
    refine ⟨lowestId, r, found, due.1, ?_⟩
    unfold remap
    rw [if_pos due, lowest]
    dsimp only
    rw [found]
  · refine .inl ⟨if_neg due, ?_⟩
    by_cases there : terminalId ∈ svc.sessions
    · exact .inl there
    · cases sync : svc.needsSessionSync with
      | false => exact .inr (.inl rfl)
      | true =>
          refine .inr (.inr ?_)
          by_contra filled
          exact due ⟨there, sync, by simpa [AList.keys, List.keys] using filled⟩

theorem renamed_of_remap {lowestId : Int} {r : SessionRef} {sessions : AList fun _ : Int => SessionRef}
    (found : sessions.lookup lowestId = some r) (missing : terminalId ∉ sessions) :
    Renamed terminalId sessions.entries ((sessions.erase lowestId).insert terminalId r).entries := by
  have absent : terminalId ∉ sessions.erase lowestId :=
    fun there => missing (AList.mem_erase.mp there).2
  refine ⟨lowestId, r, (sessions.erase lowestId).entries, perm_of_lookup found, ?_⟩
  rw [AList.entries_insert_of_notMem absent]

/-- The remap renames at most one session, and when it is due a session has the requested id
    afterwards. -/
theorem remap_entries (terminalId : Int) (svc : PersistentTerminalService) :
    ((svc.remap terminalId).sessions.entries = svc.sessions.entries ∨
        Renamed terminalId svc.sessions.entries (svc.remap terminalId).sessions.entries) ∧
      (svc.needsSessionSync = true → terminalId ∉ (svc.remap terminalId).sessions →
        svc.sessions.entries = [] ∧ svc.remap terminalId = svc) := by
  rcases remap_cases terminalId svc with ⟨same, idle⟩ | ⟨lowestId, r, found, missing, renames⟩
  · rw [same]
    refine ⟨.inl rfl, ?_⟩
    rintro sync absent
    rcases idle with there | synced | empty
    · exact absurd there absent
    · cases sync.symm.trans synced
    · exact ⟨empty, rfl⟩
  · rw [renames]
    refine ⟨.inr (renamed_of_remap found missing), ?_⟩
    rintro - absent
    exact absurd ((AList.mem_insert _).mpr (.inl rfl)) absent

theorem remap_of_synced (synced : svc.needsSessionSync = false) : svc.remap terminalId = svc :=
  if_neg fun due => by cases synced.symm.trans due.2.1

theorem needsSessionSync_remap (terminalId : Int) (svc : PersistentTerminalService) :
    (svc.remap terminalId).needsSessionSync = svc.needsSessionSync := by
  rcases remap_cases terminalId svc with ⟨same, -⟩ | ⟨lowestId, r, -, -, renames⟩
  · rw [same]
  · rw [renames]

/-- A new session is put into the map under the requested id, and the client is told of those
    that were there. -/
theorem create_ok (made : svc.create open_ spawning mem = (.ok response, svc', mem')) :
    svc' = { svc with
        sessions := svc.sessions.insert open_.terminalId mem.nextRef, needsSessionSync := false } ∧
      ∃ opened, response = .opened opened ∧ opened.terminalId = open_.terminalId ∧
        opened.persistentSessions = if svc.needsSessionSync then svc.sessions.keys else [] := by
  unfold create at made
  -- only the last way through comes to a session
  split_ifs at made with _ _ _ _ sync
  all_goals cases made
  · exact ⟨rfl, _, rfl, rfl, (if_pos sync).symm⟩
  · exact ⟨rfl, _, rfl, rfl, (if_neg sync).symm⟩

theorem create_error {e : String} (failed : svc.create open_ spawning mem = (.error e, svc', mem')) :
    svc' = svc := by
  unfold create at failed
  split_ifs at failed <;> cases failed <;> rfl

/-- A successful `handle_open` finds a session after the remap or makes one. -/
theorem handleOpen_ok (opens : svc.handleOpen open_ spawning mem = (.ok response, svc', mem')) :
    ∃ opened, response = .opened opened ∧ opened.terminalId = open_.terminalId ∧
      (open_.terminalId ∈ (svc.remap open_.terminalId).sessions ∧
          svc' = { svc.remap open_.terminalId with needsSessionSync := false } ∧
          opened.persistentSessions = (if svc.needsSessionSync then
            (svc.remap open_.terminalId).sessions.keys.filter (· ≠ open_.terminalId) else []) ∨
        open_.terminalId ∉ (svc.remap open_.terminalId).sessions ∧
          svc' = { svc.remap open_.terminalId with
            sessions := (svc.remap open_.terminalId).sessions.insert open_.terminalId mem.nextRef
            needsSessionSync := false } ∧
          opened.persistentSessions =
            (if svc.needsSessionSync then (svc.remap open_.terminalId).sessions.keys else [])) := by
  have flag := needsSessionSync_remap open_.terminalId svc
  unfold handleOpen at opens
  dsimp only at opens
  cases found : (svc.remap open_.terminalId).sessions.lookup open_.terminalId with
  | some r =>
      rw [found] at opens
      cases opens
      refine ⟨_, rfl, rfl, .inl ⟨AList.lookup_isSome.mp (by rw [found]; rfl), rfl, ?_⟩⟩
      rw [flag]
  | none =>
      rw [found] at opens
      obtain ⟨after, opened, answer, sameId, reported⟩ := create_ok opens
      rw [flag] at reported
      exact ⟨opened, answer, sameId, .inr ⟨AList.lookup_eq_none.mp found, after, reported⟩⟩

theorem handleOpen_error {e : String}
    (fails : svc.handleOpen open_ spawning mem = (.error e, svc', mem')) : svc' = svc := by
  unfold handleOpen at fails
  dsimp only at fails
  cases found : (svc.remap open_.terminalId).sessions.lookup open_.terminalId with
  | some r =>
      rw [found] at fails
      cases fails
  | none =>
      rw [found] at fails
      rw [create_error fails]
      cases sync : svc.needsSessionSync with
      | true => exact ((remap_entries open_.terminalId svc).2 sync (AList.lookup_eq_none.mp found)).2
      | false => exact remap_of_synced sync

/-- The id that is asked for and the others that are reported are all there are. -/
theorem perm_filter_keys (there : terminalId ∈ svc.sessions) :
    (terminalId :: svc.sessions.keys.filter (· ≠ terminalId)).Perm svc.sessions.keys := by
  have others : svc.sessions.keys.filter (· ≠ terminalId) = svc.sessions.keys.erase terminalId := by
    rw [svc.sessions.keys_nodup.erase_eq_filter]
    exact List.filter_congr fun id _ => by simp [bne, beq_eq_decide]
  rw [others]
  exact (List.perm_cons_erase there).symm

theorem handleOpen_first (sync : svc.needsSessionSync = true)
    (opens : svc.handleOpen open_ spawning mem = (.ok response, svc', mem')) :
    svc'.needsSessionSync = false ∧
      ∃ opened, response = .opened opened ∧
        FirstOpen open_.terminalId mem.nextRef svc svc' opened := by
  obtain ⟨remapped, missing⟩ := remap_entries open_.terminalId svc
  obtain ⟨opened, answer, sameId, ⟨there, after, reported⟩ | ⟨absent, after, reported⟩⟩ :=
    handleOpen_ok opens
  all_goals rw [if_pos sync] at reported
  · have keys : (opened.terminalId :: opened.persistentSessions).Perm svc'.sessions.keys := by
      rw [sameId, reported, after]
      exact perm_filter_keys there
    refine ⟨by rw [after], opened, answer, sameId, ?_, .inl ?_, keys, ?_⟩
    · rw [after]
      rcases remapped with same | renamed
      · exact .inl same
      · exact .inr (.inl renamed)
    · rw [after]
      exact (remap_refs open_.terminalId svc).symm
    · exact keys.symm.nodup svc'.sessions.keys_nodup
  · obtain ⟨empty, same⟩ := missing sync absent
    rw [same] at after absent reported
    have entries : svc'.sessions.entries = ⟨open_.terminalId, mem.nextRef⟩ :: svc.sessions.entries := by
      rw [after]
      exact AList.entries_insert_of_notMem absent
    have keys : (opened.terminalId :: opened.persistentSessions).Perm svc'.sessions.keys := by
      rw [sameId, reported, AList.keys, AList.keys, entries]
      rfl
    refine ⟨by rw [after], opened, answer, sameId, .inr (.inr ⟨empty, ?_⟩), .inr ?_, keys, ?_⟩
    · exact .of_eq entries
    · rw [refs, refs, entries]
      rfl
    · exact keys.symm.nodup svc'.sessions.keys_nodup

theorem handleOpen_later (synced : svc.needsSessionSync = false)
    (opens : svc.handleOpen open_ spawning mem = (.ok response, svc', mem')) :
    svc'.needsSessionSync = false ∧
      ∃ opened, response = .opened opened ∧
        LaterOpen open_.terminalId mem.nextRef svc svc' opened := by
  obtain ⟨opened, answer, sameId, ⟨there, after, -⟩ | ⟨absent, after, -⟩⟩ := handleOpen_ok opens
  all_goals rw [remap_of_synced synced] at after
  · refine ⟨by rw [after], opened, answer, sameId, .inl (by rw [after]), ?_⟩
    intro id r found
    rw [after]
    exact found
  · rw [remap_of_synced synced] at absent
    refine ⟨by rw [after], opened, answer, sameId, .inr ?_, ?_⟩
    · rw [after]
      exact .of_eq (AList.entries_insert_of_notMem absent)
    · intro id r found
      have other : id ≠ open_.terminalId := by
        rintro rfl
        exact absent (AList.lookup_isSome.mp (by rw [found]; rfl))
      rw [after]
      exact (AList.lookup_insert_ne other).trans found

end Open

variable (svc : PersistentTerminalService) (mem : Memory)

theorem needsSessionSync_handleClose (terminalId : Int) (killed : Except String Unit) :
    (svc.handleClose terminalId killed mem).2.1.needsSessionSync = svc.needsSessionSync := by
  unfold handleClose
  split
  · rfl
  · dsimp only
    split <;> rfl

theorem needsSessionSync_cleanUp (isPersistent : Bool) (tryWait : Child → TryWait) (terminalId : Int) :
    (svc.cleanUp isPersistent tryWait terminalId mem).2.1.needsSessionSync = svc.needsSessionSync := by
  unfold cleanUp
  split
  · rfl
  · dsimp only
    split <;> (split_ifs <;> rfl)

theorem needsSessionSync_cleanUpAll (isPersistent : Bool) (tryWait : Child → TryWait)
    (closed : List Int) :
    (cleanUpAll isPersistent tryWait closed svc mem).2.1.needsSessionSync = svc.needsSessionSync := by
  induction closed generalizing svc mem with
  | nil => rfl
  | cons terminalId rest ih =>
      exact (ih _ _).trans (needsSessionSync_cleanUp svc mem isPersistent tryWait terminalId)

theorem needsSessionSync_readOutputs {c : Compression} {turns : SessionRef → Turn}
    {tryWait : Child → TryWait} {responses : List TerminalResponse} {svc' : PersistentTerminalService}
    {mem' : Memory} (reads : svc.readOutputs c turns tryWait mem = some (responses, svc', mem')) :
    svc'.needsSessionSync = svc.needsSessionSync := by
  obtain ⟨⟨mem'', _, closed⟩, -, result⟩ := Option.map_eq_some_iff.mp reads
  cases result
  exact svc.needsSessionSync_cleanUpAll mem'' svc.isPersistent tryWait closed

theorem needsSessionSync_dropSession (terminalId : Int) :
    (Terminals.dropSession terminalId svc mem).1.needsSessionSync = svc.needsSessionSync := by
  unfold Terminals.dropSession
  split <;> rfl

end PersistentTerminalService

/-- What happens to a service until its status is reset again. -/
inductive ServiceEvent where
  | handleOpen (open_ : OpenTerminal) (spawning : Spawning)
  | handleClose (terminalId : Int) (killed : Except String Unit)
  | readOutputs (turns : SessionRef → Turn) (tryWait : Child → TryWait)
  | dropSession (terminalId : Int)
  /-- The readers, the reaper and the other services change the sessions. -/
  | others (mem : Memory)

/-- A service, and whether a terminal has been opened since the reset. -/
structure Attached where
  svc : PersistentTerminalService
  mem : Memory
  synced : Bool

namespace Attached

variable (c : Compression)

def step (s : Attached) : ServiceEvent → Attached
  | .handleOpen open_ spawning =>
      match s.svc.handleOpen open_ spawning s.mem with
      | (.ok _, svc, mem) => ⟨svc, mem, true⟩
      | (.error _, svc, mem) => ⟨svc, mem, s.synced⟩
  | .handleClose terminalId killed =>
      let (_, svc, mem) := s.svc.handleClose terminalId killed s.mem
      ⟨svc, mem, s.synced⟩
  | .readOutputs turns tryWait =>
      match s.svc.readOutputs c turns tryWait s.mem with
      | some (_, svc, mem) => ⟨svc, mem, s.synced⟩
      | none => s
  | .dropSession terminalId =>
      let (svc, mem) := Terminals.dropSession terminalId s.svc s.mem
      ⟨svc, mem, s.synced⟩
  | .others mem => { s with mem := mem }

/-- A terminal that is opened with success is the first one since the reset, or a later
    one. -/
def Syncs (s : Attached) : ServiceEvent → Prop
  | .handleOpen open_ spawning =>
      ∀ response svc' mem', s.svc.handleOpen open_ spawning s.mem = (.ok response, svc', mem') →
        ∃ opened, response = .opened opened ∧
          if s.synced then
            PersistentTerminalService.LaterOpen open_.terminalId s.mem.nextRef s.svc svc' opened
          else PersistentTerminalService.FirstOpen open_.terminalId s.mem.nextRef s.svc svc' opened
  | _ => True

/-- The flag of the service says what has happened. -/
def Flagged (s : Attached) : Prop := s.svc.needsSessionSync = !s.synced

variable {c} {s : Attached}

theorem Flagged.step (flagged : s.Flagged) (e : ServiceEvent) : (s.step c e).Flagged := by
  unfold Flagged at flagged
  cases e with
  | handleOpen open_ spawning =>
      unfold Attached.step
      dsimp only
      rcases opens : s.svc.handleOpen open_ spawning s.mem with ⟨e | response, svc', mem'⟩
      · exact (congrArg PersistentTerminalService.needsSessionSync
          (PersistentTerminalService.handleOpen_error opens)).trans flagged
      · cases synced : s.synced with
        | true =>
            rw [synced] at flagged
            exact (PersistentTerminalService.handleOpen_later flagged opens).1
        | false =>
            rw [synced] at flagged
            exact (PersistentTerminalService.handleOpen_first flagged opens).1
  | handleClose terminalId killed =>
      exact (s.svc.needsSessionSync_handleClose s.mem terminalId killed).trans flagged
  | readOutputs turns tryWait =>
      unfold Attached.step
      dsimp only
      split
      · rename_i reads
        exact (s.svc.needsSessionSync_readOutputs s.mem reads).trans flagged
      · exact flagged
  | dropSession terminalId =>
      exact (s.svc.needsSessionSync_dropSession s.mem terminalId).trans flagged
  | others mem => exact flagged

theorem Flagged.syncs (flagged : s.Flagged) (e : ServiceEvent) : s.Syncs e := by
  unfold Flagged at flagged
  cases e with
  | handleOpen open_ spawning =>
      intro response svc' mem' opens
      cases synced : s.synced with
      | true =>
          rw [synced] at flagged
          exact (PersistentTerminalService.handleOpen_later flagged opens).2
      | false =>
          rw [synced] at flagged
          exact (PersistentTerminalService.handleOpen_first flagged opens).2
  | handleClose | readOutputs | dropSession | others => trivial

end Attached

/-- From the reset of a service in any state on, whatever happens to it: the first terminal
    that is opened keeps all sessions, renames at most one and is answered with every id;
    the later ones rename none. -/
theorem reconnection_syncs (c : Compression) (isPersistent : Bool) (svc : PersistentTerminalService)
    (mem : Memory) (events : List ServiceEvent) :
    Along (Attached.step c) Attached.Syncs
      ⟨(svc.resetStatus isPersistent mem).1, (svc.resetStatus isPersistent mem).2, false⟩ events := by
  have flagged : Runs.Always (Attached.step c) Attached.Flagged
      ⟨(svc.resetStatus isPersistent mem).1, (svc.resetStatus isPersistent mem).2, false⟩ events :=
    Runs.always_of_events (fun s e (_ : True) flagged => flagged.step e) (fun _ _ => trivial) rfl
  exact flagged.along fun s e flagged => flagged.syncs e

end RemoteControl.Terminal
