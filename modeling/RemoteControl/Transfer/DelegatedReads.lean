import RemoteControl.Transfer.Delegation

/-! # Answers to delegated reads

The connection filters what the manager sends by ids. That is enough as long as an id is
used again only when nothing is left of the request that used it before: then all that
is on its way about an id belongs to the latest request. An older job that the manager
has not dropped yet, or a message that is still in the channel, is taken for the new one.

A confirmation is made up again by the manager, for the file its job is at by then.
-/

namespace RemoteControl.Transfer

namespace TransferJob

variable {lib : Library} {t : Tree} {faults : Faults} {job : TransferJob} {job' : TransferJob}

theorem openDataStream_same : Same job (job.openDataStream lib t faults).1 := by
  unfold openDataStream
  split
  case h_1 => exact .refl
  case h_2 =>
    split
    case isTrue => exact .refl
    case isFalse => split <;> exact .refl

theorem initDataStreamForCm_same : Same job (job.initDataStreamForCm lib t faults).1 := by
  have opened := @openDataStream_same lib t faults job
  unfold initDataStreamForCm
  split
  case h_1 eq | h_2 eq => rwa [eq] at opened
  case h_3 eq =>
    rw [eq] at opened
    split
    case isTrue => split <;> exact opened
    case isFalse => exact opened

theorem initReadJobForCm_same : Same job (job.initReadJobForCm lib t faults).1 := by
  have begun := @initDataStreamForCm_same lib t faults job
  unfold initReadJobForCm
  split
  case h_1 eq | h_2 eq | h_3 eq => rwa [eq] at begun

theorem id_of_begun {begun : Except String (List FromCM)}
    (eq : job.initReadJobForCm lib t faults = (job', begun)) : job'.id = job.id := by
  have same := @initReadJobForCm_same lib t faults job
  rw [eq] at same
  exact same.1

/-- What beginning a file says carries the id of the job. -/
theorem initReadJobForCm_id {begun : List FromCM}
    (eq : job.initReadJobForCm lib t faults = (job', .ok begun)) :
    ∀ m ∈ begun, Delegation.cmId m = job.id := by
  have same := id_of_begun eq
  unfold initReadJobForCm at eq
  split at eq
  case h_1 => cases eq
  case h_2 =>
    cases eq
    intro m member
    rw [List.mem_singleton.mp member]
    exact same
  case h_3 =>
    cases eq
    exact fun m member => absurd member List.not_mem_nil

theorem read_same : Same job (job.read lib t faults).1 := by
  unfold read
  split
  case isTrue => exact .refl
  case isFalse =>
    split
    case h_1 => exact .refl
    case h_2 =>
      split
      case h_1 => exact .refl
      case h_2 =>
        split
        case h_1 =>
          dsimp only
          split <;> exact .refl
        case h_2 => exact .refl

theorem id_of_read {result : Except String (Option FileTransferBlock)}
    (eq : job.read lib t faults = (job', result)) : job'.id = job.id := by
  have same := @read_same lib t faults job
  rw [eq] at same
  exact same.1

theorem read_id {block : FileTransferBlock}
    (eq : job.read lib t faults = (job', .ok (some block))) : block.id = job.id := by
  unfold read at eq
  split at eq
  case isTrue => cases eq
  case isFalse =>
    split at eq
    case h_1 => cases eq
    case h_2 =>
      split at eq
      case h_1 => cases eq
      case h_2 =>
        split at eq
        case h_1 =>
          dsimp only at eq
          split at eq <;> cases eq <;> rfl
        case h_2 => cases eq

/-- A confirmation of the file a job is at, as far as the rest of the job is concerned: the
    job stays at the file, or is about to begin the next one. -/
structure OnlyFile (k : Int) (job job' : TransferJob) : Prop where
  same : Same job job'
  place : job'.fileNum = k ∨
    job'.fileNum = k + 1 ∧ job'.stream = none ∧ job'.fileConfirmed = false ∧ job'.fileIsWaiting = false

theorem confirm_onlyFile (lib : Library) (t : Tree) {r : Host.SendConfirm} (here : job.fileNum = r.fileNum) :
    OnlyFile r.fileNum job (job.confirm lib t r) where
  same := confirm_same
  place := by
    by_cases skips : job.fileNum = r.fileNum ∧ r.union = some (.skip true)
    · rw [confirm_of_skip here skips.2]
      exact .inr ⟨congrArg (· + 1) here, rfl, rfl, rfl⟩
    · obtain ⟨_, _, _, _, _, shape, _⟩ := @confirm_stays lib t job r skips
      rw [shape]
      exact .inl here

/-- A second confirmation of the whole file changes nothing. -/
theorem confirm_of_confirmed (lib : Library) (t : Tree) {r : Host.SendConfirm} (union : r.union = some (.offsetBlk 0))
    (confirmed : job.fileConfirmed = true) (notSkipped : job.fileSkipped = false) :
    job.confirm lib t r = job := by
  unfold confirm
  split
  case isTrue => rfl
  case isFalse =>
    rw [union]
    cases job
    cases confirmed
    cases notSkipped
    rfl

theorem cmFarewell_id : Delegation.cmId job.cmFarewell = job.id := by
  unfold cmFarewell
  split <;> rfl

end TransferJob

namespace Delegation

open Host (SendConfirm)
open Runs (exec Always Along)

/-- One of the jobs was started for the request, and has the id. -/
def Of (jobs : List Served) (request : Nat) (id : Int) : Prop :=
  ∃ served ∈ jobs, served.request = request ∧ served.job.id = id

/-- The jobs after a tick, and what is said in it, are of jobs before it. -/
structure From (jobs jobs' : List Served) (sent : List (Nat × Data)) : Prop where
  kept : ∀ served ∈ jobs', Of jobs served.request served.job.id
  said : ∀ x ∈ sent, Of jobs x.1 x.2.id

theorem From.refl (jobs : List Served) : From jobs jobs [] :=
  ⟨fun served member => ⟨served, member, rfl, rfl⟩, List.forall_mem_nil _⟩

variable {jobs : List Served} {id : Int}

theorem Of.cons {request : Nat} (own : Of jobs request id) (served : Served) :
    Of (served :: jobs) request id := by
  obtain ⟨served', member, same⟩ := own
  exact ⟨served', List.mem_cons_of_mem served member, same⟩

variable {served : Served}

theorem From.cons {rest jobs' : List Served} {sent' : List (Nat × Data)}
    (later : From rest jobs' sent') {job' : TransferJob} {said : List FromCM}
    (same : job'.id = served.job.id) (own : ∀ m ∈ said, cmId m = served.job.id) :
    From (served :: rest) ({ served with job := job' } :: jobs')
      (said.map (fun m => (served.request, Data.fromCm m)) ++ sent') := by
  constructor
  · intro served' member
    cases List.mem_cons.mp member with
    | inl here => exact ⟨served, List.mem_cons_self .., by rw [here], by rw [here, same]⟩
    | inr there => exact (later.kept served' there).cons served
  · intro x member
    cases List.mem_append.mp member with
    | inl here =>
        obtain ⟨m, said_, eq⟩ := List.mem_map.mp here
        rw [← eq]
        exact ⟨served, List.mem_cons_self .., rfl, (own m said_).symm⟩
    | inr there => exact (later.said x there).cons served

/-- The first job that has its turn, the others waiting. -/
theorem From.turn (rest : List Served) {job' : TransferJob} {said : List FromCM}
    (same : job'.id = served.job.id) (own : ∀ m ∈ said, cmId m = served.job.id) :
    From (served :: rest) ({ served with job := job' } :: rest)
      (said.map fun m => (served.request, Data.fromCm m)) := by
  have turned := (From.refl rest).cons same own
  rwa [List.append_nil] at turned

section Tick
variable {lib : Library} {t : Tree} {faults : Nat → TransferJob.Faults}

theorem own_append {begun : List FromCM} (own : ∀ m ∈ begun, cmId m = id) {last : FromCM}
    (same : cmId last = id) : ∀ m ∈ begun ++ [last], cmId m = id := by
  intro m member
  cases List.mem_append.mp member with
  | inl front => exact own m front
  | inr back => rw [List.mem_singleton.mp back, same]

theorem tickJobs_from (number : Nat) (jobs : List Served) :
    From jobs (tickJobs lib t faults number jobs).1 (tickJobs lib t faults number jobs).2.2 := by
  fun_induction tickJobs lib t faults number jobs with
  | case1 => exact .refl []
  | case2 number served rest _ jobs' finished sent eq ih =>
      rw [eq] at ih
      exact ih.cons rfl (fun m member => absurd member List.not_mem_nil)
  | case3 number served rest tag _ job' err begins jobs' finished sent eq ih =>
      have same := TransferJob.id_of_begun begins
      rw [eq] at ih
      exact ih.cons same fun m member => by rw [List.mem_singleton.mp member]; exact same
  | case4 number served rest tag _ job' begun begins job'' err reads =>
      have same := (TransferJob.id_of_read reads).trans (TransferJob.id_of_begun begins)
      exact .turn rest same (own_append (TransferJob.initReadJobForCm_id begins) same)
  | case5 number served rest tag _ job' begun begins job'' block reads =>
      have same := (TransferJob.id_of_read reads).trans (TransferJob.id_of_begun begins)
      have given := (TransferJob.read_id reads).trans (TransferJob.id_of_begun begins)
      exact .turn rest same (own_append (TransferJob.initReadJobForCm_id begins) given)
  | case6 number served rest tag _ job' begun begins job'' reads =>
      have same := (TransferJob.id_of_read reads).trans (TransferJob.id_of_begun begins)
      have given := TransferJob.cmFarewell_id.trans same
      exact .turn rest same (own_append (TransferJob.initReadJobForCm_id begins) given)
  | case7 number served rest tag _ job' begun begins job'' reads =>
      have same := (TransferJob.id_of_read reads).trans (TransferJob.id_of_begun begins)
      exact .turn rest same (TransferJob.initReadJobForCm_id begins)

theorem removeJobs_subset (finished : List Int) (jobs : List Served) :
    finished.foldl (fun jobs id => removeJob id jobs) jobs ⊆ jobs := by
  induction finished generalizing jobs with
  | nil => exact fun _ member => member
  | cons id rest ih => exact fun _ member => List.eraseP_subset (ih _ member)

theorem handleReadJobsTick_from (jobs : List Served) :
    From jobs (handleReadJobsTick lib t faults jobs).1 (handleReadJobsTick lib t faults jobs).2 := by
  have ticked := @tickJobs_from lib t faults 0 jobs
  constructor
  · exact fun served member => ticked.kept served (removeJobs_subset _ _ member)
  · exact ticked.said

/-- For a single job this is the tick that `ReadDrivers` compares with the connection's own. -/
theorem handleReadJobsTick_single (served : Served) :
    handleReadJobsTick lib t faults [served] =
      ((served.job.handleReadJobsTick lib t (faults 0)).1.toList.map fun job => ⟨served.request, job⟩,
        (served.job.handleReadJobsTick lib t (faults 0)).2.map fun m => (served.request, .fromCm m)) := by
  have gone (request : Nat) (job : TransferJob) : removeJob job.id [⟨request, job⟩] = [] := by
    simp [removeJob]
  unfold handleReadJobsTick TransferJob.handleReadJobsTick
  simp only [tickJobs]
  cases served.job.isLastJob with
  | true => rfl
  | false =>
      simp only [Bool.false_eq_true, if_false]
      obtain ⟨job, begun⟩ := served.job.initReadJobForCm lib t (faults 0)
      cases begun with
      | error err => simp [gone]
      | ok begun =>
          dsimp only
          obtain ⟨job, read⟩ := job.read lib t (faults 0)
          cases read with
          | error err => simp [gone]
          | ok block =>
              cases block with
              | some block => simp
              | none =>
                  dsimp only
                  cases job.jobCompleted with
                  | true => simp [gone]
                  | false => simp

end Tick

theorem removeJob_from (id : Int) (jobs : List Served) : From jobs (removeJob id jobs) [] :=
  ⟨fun served member => ⟨served, List.eraseP_subset member, rfl, rfl⟩, List.forall_mem_nil _⟩

theorem modifyJob_from (f : TransferJob → TransferJob) (same : ∀ job, (f job).id = job.id) (id : Int)
    (jobs : List Served) : From jobs (modifyJob id f jobs) [] := by
  induction jobs with
  | nil => exact .refl []
  | cons served rest ih =>
      unfold modifyJob
      split
      case isTrue => exact (From.refl rest).cons (same served.job) (fun m member => absurd member List.not_mem_nil)
      case isFalse => exact ih.cons rfl (fun m member => absurd member List.not_mem_nil)

/-- Only the job that `get_job` finds may be changed. -/
theorem modifyJob_spares {f : TransferJob → TransferJob}     {relates : Served → Served → Prop} (refl : ∀ served, relates served served)
    (found : ∀ served ∈ getJob id jobs, relates served { served with job := f served.job }) :
    List.Forall₂ relates jobs (modifyJob id f jobs) := by
  induction jobs with
  | nil => exact .nil
  | cons served rest ih =>
      unfold modifyJob
      split
      case isTrue here =>
        have first : getJob id (served :: rest) = some served := by simp [getJob, here]
        exact .cons (found served first) (List.forall₂_same.mpr fun served' _ => refl served')
      case isFalse other =>
        have later : getJob id (served :: rest) = getJob id rest := by simp [getJob, other]
        rw [later] at found
        exact .cons (refl served) (ih found)

/-- The id that a message to the manager has a job started for -/
def FS.reads : FS → Option Int
  | .readFile _ _ id _ _ _ => some id
  | _ => none

/-- Nothing is left of an earlier request with this id, on either side and in between. -/
structure State.Clear (s : State) (id : Int) : Prop where
  jobs : ∀ served ∈ s.readJobs, served.job.id ≠ id
  replies : ∀ x ∈ s.toConnection, x.2.id ≠ id
  requests : ∀ fs ∈ s.toManager, fs.reads ≠ some id

/-- The messages to the manager are of the latest requests, where they come upon a job: `busy`
    are the ids that have one by the time the first of the messages is taken. -/
def Tagged (latest : Int → Option Nat) : (Int → Prop) → List FS → Prop
  | _, [] => True
  | busy, .readFile request _ id _ _ _ :: rest =>
      latest id = some request ∧ Tagged latest (fun i => busy i ∨ i = id) rest
  | busy, .cancelRead _ :: rest => Tagged latest busy rest
  | busy, .sendConfirmForRead request id _ _ _ :: rest =>
      (busy id → latest id = some request) ∧ Tagged latest busy rest

section Tagged
variable {latest : Int → Option Nat} {busy busy' : Int → Prop} {queue : List FS}

variable (tagged : Tagged latest busy queue)

include tagged

theorem Tagged.mono (fewer : ∀ id, busy' id → busy id) :
    Tagged latest busy' queue := by
  induction queue generalizing busy busy' with
  | nil => trivial
  | cons fs rest ih =>
      cases fs with
      | readFile request path id fileNum includeHidden overwriteDetection =>
          exact ⟨tagged.1, ih tagged.2 fun i => Or.imp_left (fewer i)⟩
      | cancelRead id => exact ih tagged fewer
      | sendConfirmForRead request id fileNum skip offsetBlk =>
          exact ⟨fun here => tagged.1 (fewer id here), ih tagged.2 fewer⟩

theorem Tagged.update (free : ¬busy id)
    (unread : ∀ fs ∈ queue, fs.reads ≠ some id) (request : Option Nat) :
    Tagged (Function.update latest id request) busy queue := by
  induction queue generalizing busy with
  | nil => trivial
  | cons fs rest ih =>
      have later := fun fs' member => unread fs' (List.mem_cons_of_mem fs member)
      cases fs with
      | readFile request' path id' fileNum includeHidden overwriteDetection =>
          have other : id' ≠ id := fun same => unread _ (List.mem_cons_self ..) (congrArg some same)
          refine ⟨(Function.update_of_ne other ..).trans tagged.1, ih tagged.2 ?_ later⟩
          intro taken
          cases taken with
          | inl before => exact free before
          | inr now => exact other now.symm
      | cancelRead id' => exact ih tagged free later
      | sendConfirmForRead request' id' fileNum skip offsetBlk =>
          refine ⟨fun here => ?_, ih tagged.2 free later⟩
          have other : id' ≠ id := fun same => free (same ▸ here)
          exact (Function.update_of_ne other ..).trans (tagged.1 here)

theorem Tagged.append {fs : FS}
    (last : Tagged latest (fun id => busy id ∨ ∃ fs' ∈ queue, fs'.reads = some id) [fs]) :
    Tagged latest busy (queue ++ [fs]) := by
  induction queue generalizing busy with
  | nil =>
      refine last.mono ?_
      intro id here
      exact .inl here
  | cons first rest ih =>
      have past (busy' : Int → Prop)
          (more : ∀ id, busy' id → busy id ∨ first.reads = some id) :
          Tagged latest (fun id => busy' id ∨ ∃ fs' ∈ rest, fs'.reads = some id) [fs] := by
        refine last.mono ?_
        intro id here
        cases here with
        | inl before =>
            cases more id before with
            | inl busy_ => exact .inl busy_
            | inr reads => exact .inr ⟨first, List.mem_cons_self .., reads⟩
        | inr later =>
            obtain ⟨fs', member, reads⟩ := later
            exact .inr ⟨fs', List.mem_cons_of_mem first member, reads⟩
      cases first with
      | readFile request path id fileNum includeHidden overwriteDetection =>
          refine ⟨tagged.1, ih tagged.2 (past _ ?_)⟩
          intro i here
          exact here.imp_right fun same => congrArg some same.symm
      | cancelRead id => exact ih tagged (past _ fun i here => .inl here)
      | sendConfirmForRead request id fileNum skip offsetBlk =>
          exact ⟨tagged.1, ih tagged.2 (past _ fun i here => .inl here)⟩

theorem Tagged.latest_of_reads
    (reads : ∃ fs ∈ queue, fs.reads = some id) : ∃ request, latest id = some request := by
  induction queue generalizing busy with
  | nil =>
      obtain ⟨fs, member, _⟩ := reads
      exact absurd member List.not_mem_nil
  | cons first rest ih =>
      obtain ⟨fs, member, own⟩ := reads
      cases first with
      | readFile request path id' fileNum includeHidden overwriteDetection =>
          cases List.mem_cons.mp member with
          | inl here =>
              rw [here] at own
              cases own
              exact ⟨request, tagged.1⟩
          | inr later => exact ih tagged.2 ⟨fs, later, own⟩
      | cancelRead id' =>
          cases List.mem_cons.mp member with
          | inl here => rw [here] at own; cases own
          | inr later => exact ih tagged ⟨fs, later, own⟩
      | sendConfirmForRead request id' fileNum skip offsetBlk =>
          cases List.mem_cons.mp member with
          | inl here => rw [here] at own; cases own
          | inr later => exact ih tagged.2 ⟨fs, later, own⟩

end Tagged

def Busy (jobs : List Served) (id : Int) : Prop := ∃ served ∈ jobs, served.job.id = id

/-- All that is on its way about an id belongs to the latest request with it. -/
structure State.Inv (s : State) : Prop where
  jobs : ∀ served ∈ s.readJobs, s.latest served.job.id = some served.request
  replies : ∀ x ∈ s.toConnection, s.latest x.2.id = some x.1
  ids : ∀ id ∈ s.cmReadJobIds, s.isOver id = false
  tagged : Tagged s.latest (Busy s.readJobs) s.toManager

namespace State
variable {lib : Library} {s : State} {request : Nat} {id : Int}

theorem Inv.latest_of (inv : s.Inv) (own : Of s.readJobs request id) :
    s.latest id = some request := by
  obtain ⟨served, member, same, same'⟩ := own
  rw [← same, ← same']
  exact inv.jobs served member

/-- Whatever the manager makes of its jobs, and says about them. -/
theorem Inv.from {jobs' : List Served} {sent : List (Nat × Data)} (inv : s.Inv)
    (from_ : From s.readJobs jobs' sent) :
    Inv { s with readJobs := jobs', toConnection := s.toConnection ++ sent } where
  jobs served member := inv.latest_of (from_.kept served member)
  replies x member := by
    cases List.mem_append.mp member with
    | inl before => exact inv.replies x before
    | inr now => exact inv.latest_of (from_.said x now)
  ids := inv.ids
  tagged := by
    refine inv.tagged.mono ?_
    intro id busy
    obtain ⟨served, member, same⟩ := busy
    obtain ⟨served', member', _, same'⟩ := from_.kept served member
    exact ⟨served', member', same'.trans same⟩

theorem Inv.onSend (inv : s.Inv) (clear : s.Clear id) (path : Text) (fileNum : Int)
    (includeHidden overwriteDetection : Bool) :
    (s.onSend path id fileNum includeHidden overwriteDetection).Inv  where
  jobs served member := (Function.update_of_ne (clear.jobs served member) ..).trans (inv.jobs served member)
  replies x member := (Function.update_of_ne (clear.replies x member) ..).trans (inv.replies x member)
  ids id' member := by
    by_cases same : id' = id
    · rw [same]
      exact Function.update_self ..
    · have before := (List.mem_insert_iff.mp member).resolve_left same
      exact (Function.update_of_ne same ..).trans (inv.ids id' before)
  tagged := by
    have free : ¬Busy s.readJobs id := by
      intro busy
      obtain ⟨served, member, same⟩ := busy
      exact clear.jobs served member same
    refine (inv.tagged.update free clear.requests _).append ?_
    exact ⟨Function.update_self .., trivial⟩

theorem Inv.onCancel (inv : s.Inv) (id : Int) : (s.onCancel id).Inv where
  jobs := inv.jobs
  replies := inv.replies
  ids id' member := by
    obtain ⟨before, other⟩ := List.mem_filter.mp member
    exact (Function.update_of_ne (of_decide_eq_true other) ..).trans (inv.ids id' before)
  tagged := inv.tagged.append trivial

theorem Inv.onSendConfirm (inv : s.Inv) (r : SendConfirm) (ownJob : Bool) : (s.onSendConfirm r ownJob).Inv := by
  unfold State.onSendConfirm
  split
  case isTrue => exact inv
  case isFalse =>
    split
    case isFalse => exact inv
    case isTrue =>
      refine ⟨inv.jobs, inv.replies, inv.ids, inv.tagged.append ⟨?_, trivial⟩⟩
      intro taken
      have known : ∃ request, s.latest r.id = some request := by
        cases taken with
        | inl busy =>
            obtain ⟨served, member, same⟩ := busy
            exact ⟨served.request, same ▸ inv.jobs served member⟩
        | inr reads => exact inv.tagged.latest_of_reads reads
      obtain ⟨request, latest⟩ := known
      rw [latest]
      rfl

theorem startReadJob_id {env : Env} {path : Text} {fileNum : Int}
    {includeHidden overwriteDetection : Bool} :
    (∀ served ∈ (startReadJob env request path id fileNum includeHidden overwriteDetection).1,
      served.request = request ∧ served.job.id = id) ∧
      (startReadJob env request path id fileNum includeHidden overwriteDetection).2.id = id := by
  have refused (data : Data) (same : data.id = id) :
      (∀ served ∈ (none : Option Served), served.request = request ∧ served.job.id = id) ∧ data.id = id :=
    ⟨fun _ absent => (nomatch absent), same⟩
  unfold startReadJob
  split
  case h_1 =>
    split
    case h_1 | h_2 => exact refused _ rfl
    case h_3 =>
      refine ⟨?_, rfl⟩
      intro served started
      cases started
      exact ⟨rfl, rfl⟩
  case h_2 | h_3 => exact refused _ rfl

/-- A request is taken up: there may be a job for it now, and there is a reply. -/
theorem Inv.started {job : Option Served} {data : Data} {rest : List FS} (inv : s.Inv)
    (latest : s.latest id = some request)
    (own : ∀ served ∈ job, served.request = request ∧ served.job.id = id) (said : data.id = id)
    (later : Tagged s.latest (fun i => Busy s.readJobs i ∨ i = id) rest) :
    Inv { s with
      toManager := rest
      readJobs := s.readJobs ++ job.toList
      toConnection := s.toConnection ++ [(request, data)] } := by
  have shape (served : Served) (member : served ∈ s.readJobs ++ job.toList) :
      served ∈ s.readJobs ∨ served.request = request ∧ served.job.id = id := by
    cases List.mem_append.mp member with
    | inl before => exact .inl before
    | inr now => exact .inr (own served (Option.mem_toList.mp now))
  constructor
  · intro served member
    cases shape served member with
    | inl before => exact inv.jobs served before
    | inr now => rw [now.1, now.2]; exact latest
  · intro x member
    cases List.mem_append.mp member with
    | inl before => exact inv.replies x before
    | inr now =>
        rw [List.mem_singleton.mp now, said]
        exact latest
  · exact inv.ids
  · refine later.mono ?_
    intro i busy
    obtain ⟨served, member, same⟩ := busy
    cases shape served member with
    | inl before => exact .inl ⟨served, before, same⟩
    | inr now => exact .inr (same.symm.trans now.2)

/-- The manager is gone with all its jobs. -/
theorem Inv.abort (inv : s.Inv) : Inv { s with readJobs := [], gone := true } where
  jobs _ member := absurd member List.not_mem_nil
  replies := inv.replies
  ids := inv.ids
  tagged := by
    refine inv.tagged.mono ?_
    intro i busy
    obtain ⟨served, member, _⟩ := busy
    exact absurd member List.not_mem_nil

theorem Inv.manage (inv : s.Inv) (env : Env) : (s.manage lib env).Inv := by
  have tagged := inv.tagged
  unfold State.manage
  split
  case isTrue => exact inv
  split
  case h_1 => exact inv
  case h_2 fs rest queue =>
    rw [queue] at tagged
    cases fs with
    | readFile request path id fileNum includeHidden overwriteDetection =>
        obtain ⟨own, said⟩ := @startReadJob_id request id env path fileNum includeHidden overwriteDetection
        have given := inv.started tagged.1 own said tagged.2
        exact given
    | cancelRead id =>
        have rest_ : Inv { s with toManager := rest } := ⟨inv.jobs, inv.replies, inv.ids, tagged⟩
        have given := rest_.from (removeJob_from id s.readJobs)
        simp only [List.append_nil] at given
        exact given
    | sendConfirmForRead request id fileNum skip offsetBlk =>
        have rest_ : Inv { s with toManager := rest } := ⟨inv.jobs, inv.replies, inv.ids, tagged.2⟩
        unfold State.handleFs
        dsimp only
        split
        case isTrue => exact rest_.abort
        case isFalse =>
          have given := rest_.from (modifyJob_from
            (fun job => job.confirm lib env.tree (rebuilt id skip offsetBlk job))
            (fun _ => TransferJob.confirm_same.1) id s.readJobs)
          simp only [List.append_nil] at given
          exact given

theorem Inv.forward (inv : s.Inv) (isLast : Bool) (id : Int) (r : Response) :
    (s.forward isLast id r).1.Inv := by
  unfold State.forward
  split
  case isFalse => exact inv
  case isTrue =>
    cases isLast with
    | false => exact inv
    | true =>
        refine ⟨inv.jobs, inv.replies, ?_, inv.tagged⟩
        intro id' member
        obtain ⟨before, other⟩ := List.mem_filter.mp member
        exact (Function.update_of_ne (of_decide_eq_true other) ..).trans (inv.ids id' before)

/-- The id of a message to the peer -/
def jobId : Response → Int
  | .dir id _ => id
  | .digest d => d.id
  | .block b => b.id
  | .done id _ => id
  | .error id _ _ => id

/-- Each handler is an instance of `forward`. -/
theorem handleData_eq (parsed : Bool) (data : Data) :
    ∃ isLast r, jobId r = data.id ∧ handleData parsed data = forward isLast data.id r := by
  cases data with
  | readJobInitResult id fileNum result =>
      cases result with
      | error err => exact ⟨true, _, rfl, rfl⟩
      | ok entries =>
          cases parsed with
          | false => exact ⟨true, _, rfl, rfl⟩
          | true => exact ⟨false, _, rfl, rfl⟩
  | fromCm m =>
      cases m with
      | fileBlockFromCM | fileDigestFromCM => exact ⟨false, _, rfl, rfl⟩
      | fileReadDone | fileReadError => exact ⟨true, _, rfl, rfl⟩

theorem Inv.deliver (inv : s.Inv) (parsed : Bool) : (s.deliver parsed).1.Inv := by
  unfold State.deliver
  split
  case h_1 => exact inv
  case h_2 request data rest queue =>
    obtain ⟨isLast, r, _, eq⟩ := handleData_eq parsed data
    have taken : Inv { s with toConnection := rest } := by
      refine ⟨inv.jobs, ?_, inv.ids, inv.tagged⟩
      intro x member
      exact inv.replies x (queue ▸ List.mem_cons_of_mem _ member)
    have given := taken.forward isLast data.id r
    simp only [eq]
    exact given

/-- A confirmation comes while the job is at its file, and does not make the manager panic,
    or would change nothing. -/
def Fits (jobs : List Served) : FS → Prop
  | .sendConfirmForRead _ id fileNum skip offsetBlk =>
      ∀ served ∈ getJob id jobs,
        served.job.fileNum = fileNum ∧
            served.job.confirmPanics (rebuilt id skip offsetBlk served.job) = false ∨
          skip = false ∧ offsetBlk = 0 ∧ served.job.fileConfirmed = true ∧ served.job.fileSkipped = false
  | _ => True

/-- Nothing is left of an earlier request when its id is used again, and the confirmations
    that the manager takes fit. -/
def InTime (s : State) : Event → Prop
  | .send _ id _ _ _ => s.Clear id
  | .manage _ => ∀ fs ∈ s.toManager.head?, Fits s.readJobs fs
  | _ => True

/-- What goes to the peer was produced for the latest request with its id, which has not been
    cancelled and has not ended. -/
def Answers (s : State) (event : Event) : Prop :=
  ∀ x ∈ s.forwarded event, s.latest (jobId x.2) = some x.1 ∧ s.isOver (jobId x.2) = false

/-- As the manager takes a confirmation, no other job than that of the request it was sent for
    changes, and that one only if it is at the file, and only there. -/
def Confirms (lib : Library) (s : State) (event : Event) : Prop :=
  match event, s.toManager with
  | .manage _, .sendConfirmForRead request id fileNum _ _ :: _ =>
      List.Forall₂
        (fun before after => after = before ∨
          after.request = before.request ∧ before.request = request ∧ before.job.id = id ∧
            before.job.fileNum = fileNum ∧ TransferJob.OnlyFile fileNum before.job after.job)
        s.readJobs (s.step lib event).readJobs
  | _, _ => True

theorem Inv.step (inv : s.Inv) {event : Event} (inTime : s.InTime event) : (s.step lib event).Inv := by
  cases event with
  | send path id fileNum includeHidden overwriteDetection => exact inv.onSend inTime ..
  | cancel id => exact inv.onCancel id
  | sendConfirm r ownJob => exact inv.onSendConfirm r ownJob
  | manage env => exact inv.manage env
  | tick t faults => exact inv.from (handleReadJobsTick_from s.readJobs)
  | deliver parsed => exact inv.deliver parsed

theorem Inv.answers (inv : s.Inv) (event : Event) : s.Answers event := by
  unfold Answers forwarded
  cases event with
  | send | cancel | sendConfirm | manage | tick => exact fun x member => absurd member List.not_mem_nil
  | deliver parsed =>
      dsimp only
      unfold State.deliver
      split
      case h_1 => exact fun x member => absurd member List.not_mem_nil
      case h_2 request data rest queue =>
        obtain ⟨isLast, r, own, eq⟩ := handleData_eq parsed data
        simp only [eq, State.forward]
        split
        case isFalse => exact fun x member => absurd member List.not_mem_nil
        case isTrue waited =>
          intro x member
          rw [List.mem_singleton.mp member, own]
          exact ⟨inv.replies (request, data) (queue ▸ List.mem_cons_self ..), inv.ids data.id waited⟩

theorem mem_of_getJob (found : served ∈ getJob id jobs) :
    served ∈ jobs ∧ served.job.id = id := by
  have own := List.find?_some (p := fun served : Served => decide (served.job.id = id)) found
  exact ⟨List.mem_of_find?_eq_some found, of_decide_eq_true own⟩

theorem Fits.noPanic {fileNum : Int} {skip : Bool} {offsetBlk : Nat}
    (fits : Fits jobs (.sendConfirmForRead request id fileNum skip offsetBlk)) :
    ¬((getJob id jobs).any fun served =>
      served.job.confirmPanics (rebuilt id skip offsetBlk served.job)) = true := by
  intro panics
  obtain ⟨served, found, panics⟩ := (Option.any_eq_true _ _).mp panics
  cases fits served found with
  | inl here => cases here.2.symm.trans panics
  | inr nothing =>
      obtain ⟨rfl, rfl, _⟩ := nothing
      simp [TransferJob.confirmPanics, rebuilt] at panics

theorem Inv.confirms (inv : s.Inv) {event : Event} (inTime : s.InTime event) : s.Confirms lib event := by
  unfold Confirms
  split
  case h_2 => trivial
  case h_1 env request id fileNum skip offsetBlk rest queue =>
    have tagged := inv.tagged
    rw [queue] at tagged
    have fits : Fits s.readJobs (.sendConfirmForRead request id fileNum skip offsetBlk) :=
      inTime _ (congrArg List.head? queue)
    simp only [State.step, State.manage, queue, State.handleFs, if_neg fits.noPanic]
    split
    case isTrue => exact List.forall₂_same.mpr fun _ _ => .inl rfl
    refine modifyJob_spares (fun _ => .inl rfl) ?_
    intro served found
    obtain ⟨member, same⟩ := mem_of_getJob found
    cases fits served found with
    | inl here =>
        have own := tagged.1 ⟨served, member, same⟩
        rw [← same, inv.jobs served member] at own
        have given := TransferJob.confirm_onlyFile lib env.tree
          (r := rebuilt id skip offsetBlk served.job) rfl
        exact .inr ⟨rfl, Option.some.inj own, same, here.1, here.1 ▸ given⟩
    | inr nothing =>
        obtain ⟨rfl, rfl, confirmed, notSkipped⟩ := nothing
        have kept := TransferJob.confirm_of_confirmed lib env.tree
          (r := rebuilt id false 0 served.job) rfl confirmed notSkipped
        exact .inl (by rw [kept])

theorem inv_start : Inv {} :=
  ⟨fun _ inside => absurd inside List.not_mem_nil, fun _ inside => absurd inside List.not_mem_nil,
    fun _ inside => absurd inside List.not_mem_nil, trivial⟩

/-- In every run in which ids are used again in time and confirmations come in time, what is
    forwarded answers the latest request, and a confirmation is about its own file. -/
theorem reads_answer_requests (lib : Library) (events : List Event)
    (inTime : Along (step lib) InTime {} events) :
    Along (step lib) (fun s event => s.Answers event ∧ s.Confirms lib event) {} events :=
  Runs.along_of_along (p := Inv)
    (fun _ _ inv here => ⟨inv.step here, inv.answers _, inv.confirms here⟩) inv_start inTime

instance (s : State) (id : Int) : Decidable (s.Clear id) :=
  decidable_of_iff ((∀ served ∈ s.readJobs, served.job.id ≠ id) ∧ (∀ x ∈ s.toConnection, x.2.id ≠ id) ∧
      ∀ fs ∈ s.toManager, fs.reads ≠ some id)
    ⟨fun ⟨jobs, replies, requests⟩ => ⟨jobs, replies, requests⟩,
      fun clear => ⟨clear.jobs, clear.replies, clear.requests⟩⟩

instance (jobs : List Served) : (fs : FS) → Decidable (Fits jobs fs)
  | .sendConfirmForRead _ id fileNum skip offsetBlk =>
      inferInstanceAs (Decidable (∀ served ∈ getJob id jobs,
        served.job.fileNum = fileNum ∧
            served.job.confirmPanics (rebuilt id skip offsetBlk served.job) = false ∨
          skip = false ∧ offsetBlk = 0 ∧ served.job.fileConfirmed = true ∧ served.job.fileSkipped = false))
  | .readFile _ _ _ _ _ _ | .cancelRead _ => inferInstanceAs (Decidable True)

instance (s : State) : (event : Event) → Decidable (s.InTime event)
  | .send _ id _ _ _ => inferInstanceAs (Decidable (s.Clear id))
  | .manage _ => inferInstanceAs (Decidable (∀ fs ∈ s.toManager.head?, Fits s.readJobs fs))
  | .cancel _ | .sendConfirm _ _ | .tick _ _ | .deliver _ => inferInstanceAs (Decidable True)

def sampleEnv : Env where
  tree := Driven.twoFilesTree
  newRead _ _ := .files [⟨['a'], 7, 3⟩, ⟨['b'], 7, 2⟩]
  maxFiles := 100

theorem reads_answer_requests_again :
    let events : List Event :=
      [ .send ['/', 's'] 1 1 false true, .manage sampleEnv, .deliver true, .tick Driven.twoFilesTree (fun _ => {}),
        .sendConfirm ⟨1, 1, some (.offsetBlk 0)⟩ false, .manage sampleEnv, .cancel 1, .manage sampleEnv,
        .deliver true, .send ['/', 't'] 1 0 false true, .manage sampleEnv, .deliver true ]
    Along (step Driven.plainLibrary)
      (fun s event => s.Answers event ∧ s.Confirms Driven.plainLibrary event) {} events :=
  reads_answer_requests Driven.plainLibrary _ (by decide +kernel)

/-- The list of files of a cancelled request is sent as that of the next one with its id, and
    a confirmation that skips the second file skips the first. -/
theorem reads_answer_others :
    let run := exec (step Driven.plainLibrary) {}
    let s := run [ .send ['/', 's'] 1 0 false true, .manage sampleEnv, .cancel 1,
      .send ['/', 't'] 1 0 false true ]
    let s' := run [ .send ['/', 's'] 1 0 false true, .manage sampleEnv,
      .sendConfirm ⟨1, 1, some (.skip true)⟩ false ]
    (s.forwarded (.deliver true) = [(1, .dir 1 [⟨['a'], 7, 3⟩, ⟨['b'], 7, 2⟩])] ∧ s.latest 1 = some 2 ∧
      ¬s.Answers (.deliver true)) ∧
    (s'.readJobs.map (·.job.fileNum) = [0] ∧
      (s'.step Driven.plainLibrary (.manage sampleEnv)).readJobs.map (·.job.fileNum) = [1] ∧
      ¬s'.Confirms Driven.plainLibrary (.manage sampleEnv)) := by
  intro run s s'
  refine ⟨⟨by decide +kernel, by decide +kernel, ?_⟩, by decide +kernel, by decide +kernel, ?_⟩
  · intro answers
    have stale := (answers (1, .dir 1 [⟨['a'], 7, 3⟩, ⟨['b'], 7, 2⟩]) (by decide +kernel)).1
    revert stale
    decide +kernel
  · intro confirms
    cases confirms with
    | cons first rest =>
        cases first with
        | inl same => exact absurd (congrArg (·.job.fileNum) same) (by decide +kernel)
        | inr changed => exact absurd changed.2.2.2.1 (by decide +kernel)

/-- A confirmation with an offset for a job that is past its last file aborts the manager,
    and the job of another request with it. -/
example :
    let s := exec (step Driven.plainLibrary) {}
      [ .send ['/', 's'] 1 2 false true, .send ['/', 't'] 2 0 false true, .manage sampleEnv,
        .manage sampleEnv, .sendConfirm ⟨1, 2, some (.offsetBlk 1)⟩ false ]
    s.readJobs.length = 2 ∧ ¬s.InTime (.manage sampleEnv) ∧
      (s.step Driven.plainLibrary (.manage sampleEnv)).readJobs.length = 0 := by
  decide +kernel

end State

end Delegation

end RemoteControl.Transfer
