import RemoteControl.Transfer.Upload

/-! # Skipped files

The manager gives a file its final name and time when the next one begins, and takes
its own `file_num` for the file before. What the user skips when asked is not told to
the manager, so a transfer that begins with such a file goes on to set the time of the
skipped file, or even puts an old download in its place. The same happens after files
that a strategy has skipped, which is told.

A skipped file also suffers when its place is that of another file's `.download`.
-/

namespace RemoteControl.Transfer

open Host (SendConfirm ConfirmUnion)
open Runs (exec Along Always)
open TransferJob

/-- A file the job has not decided about yet. -/
def TransferJob.Undecided (job : TransferJob) (i : Int) : Prop :=
  job.fileNum < i ∨ job.fileNum = i ∧ job.fileConfirmed = false

/-- Where the question about a file is, if there is one: last in the queue to the
    manager, or answered with nothing behind it. -/
inductive Asking (toManager : List FS) (decided : List Int) (job : TransferJob) : Prop where
  | unasked (free : toManager.filterMap FS.asks = []) (undecided : decided = [])
  | asked {earlier : List FS} {fs : FS} (queue : toManager = earlier ++ [fs])
      (about : fs.asks = some job.fileNum) (free : earlier.filterMap FS.asks = [])
      (undecided : decided = []) (waiting : Waiting job)
  | decided (empty : toManager = []) (one : decided = [job.fileNum]) (waiting : Waiting job)

variable {toManager : List FS} {job : TransferJob}

theorem Asking.of_not_waiting {decided : List Int} (asking : Asking toManager decided job)
    (other : ¬ Waiting job) : toManager.filterMap FS.asks = [] ∧ decided = [] := by
  cases asking with
  | unasked free undecided => exact ⟨free, undecided⟩
  | asked _ _ _ _ waiting => exact absurd waiting other
  | decided _ _ waiting => exact absurd waiting other

variable {job' : TransferJob}

/-- Messages that do not ask leave a job that does not wait with nothing asked. -/
theorem Asking.send {sent : List FS} {decided : List Int}
    (asking : Asking toManager decided job) (other : ¬ Waiting job)
    (free : ∀ fs ∈ sent, fs.asks = none) : Asking (toManager ++ sent) decided job' := by
  obtain ⟨before, undecided⟩ := asking.of_not_waiting other
  refine .unasked ?_ undecided
  rw [List.filterMap_append, before, List.filterMap_eq_nil_iff.mpr free, List.append_nil]

variable {k : Int}

theorem Asking.of_question {front : List Int} (asking : Asking toManager (front ++ [k]) job) :
    toManager = [] ∧ front = [] ∧ k = job.fileNum ∧ Waiting job := by
  cases asking with
  | unasked _ undecided => cases (List.append_eq_nil_iff.mp undecided).2
  | asked _ _ _ undecided => cases (List.append_eq_nil_iff.mp undecided).2
  | decided empty one waiting =>
      obtain ⟨none_, same⟩ := List.append_inj' (one.trans (List.nil_append _).symm) rfl
      exact ⟨empty, none_, (List.cons.inj same).1, waiting⟩

theorem Asking.of_decided {rest : List Int} (asking : Asking toManager (k :: rest) job) :
    toManager = [] ∧ k = job.fileNum ∧ rest = [] ∧ Waiting job := by
  cases asking with
  | unasked _ undecided => cases undecided
  | asked _ _ _ undecided => cases undecided
  | decided empty one waiting =>
      obtain ⟨same, none_⟩ := List.cons.inj one
      exact ⟨empty, same, none_, waiting⟩

namespace Upload

/-- The files that are answered and not yet decided about. -/
def decided (s : Upload) : List Int :=
  s.toUploader.filterMap Reply.decides ++ s.uploader.question.toList

/-- A file that has been skipped, or may still be. -/
def Protected (u : Uploader) (i : Int) : Prop :=
  i ∈ u.skipped ∨ ∃ job, u.job = some job ∧ job.Undecided i

/-- The manager has not passed the client, and is not at the file once it is skipped. -/
structure Placed (i : Int) (u : Uploader) (current : Int) : Prop where
  behind : ∀ job, u.job = some job → current ≤ job.fileNum
  passed : i ∈ u.skipped → current ≠ i

section Inv

variable (base : TransferJob) (i : Int) (p : Place) (node : Option Node)

structure Busy (s : Upload) (job : TransferJob) : Prop where
  reads : Reads job
  id : job.id = base.id
  asking : Asking s.toManager s.decided job
  below : i ∈ s.uploader.skipped → i < job.fileNum

structure Inv (s : Upload) : Prop where
  busy : ∀ job, s.uploader.job = some job → Busy base i s job
  old : ∀ fs ∈ s.toManager, fs.isNewWrite = false
  offers : ∀ r, .confirm r ∈ s.toUploader → r.union = some (.offsetBlk 0)
  same : ∀ job, s.manager.job = some job → Same base job
  placed : ∀ job, s.manager.job = some job →
    Placed i s.uploader (exec (FS.moves base) job.fileNum s.toManager)
  node : Protected s.uploader i → s.manager.tree.node p = node
  spared : Protected s.uploader i → ∀ job, s.manager.job = some job →
    StreamIn (· ≠ p) job ∧ Along (FS.moves base) (FS.Spares i) job.fileNum s.toManager

end Inv

variable {base : TransferJob} {i : Int} {s : Upload}

section Manage

variable {ends : Ends} {now : Nat} {fs : FS} {rest : List FS}

/-- What is left in the queue still has the question last, unless it is answered now. -/
theorem asking_manage {job : TransferJob} {m : Manager} {question : List Int}
    {toUploader : List Reply} (old : fs.isNewWrite = false)
    (asking : Asking (fs :: rest) (toUploader.filterMap Reply.decides ++ question) job) :
    Asking rest ((toUploader ++ (m.handleFs ends.lib now fs).2).filterMap Reply.decides ++ question)
      job := by
  have silent (quiet : ∀ reply ∈ (m.handleFs ends.lib now fs).2, reply.decides = none) :
      (toUploader ++ (m.handleFs ends.lib now fs).2).filterMap Reply.decides =
        toUploader.filterMap Reply.decides := by
    rw [List.filterMap_append, List.filterMap_eq_nil_iff.mpr quiet, List.append_nil]
  have replies := @Manager.handleFs_replies ends.lib m now fs old
  -- a message that does not ask has no answer that decides
  have unasking (none_ : fs.asks = none) :
      ∀ reply ∈ (m.handleFs ends.lib now fs).2, reply.decides = none := by
    rcases replies with quiet | ⟨k, -, asks, -⟩
    · exact quiet
    · cases none_.symm.trans asks
  cases asking with
  | unasked free undecided =>
      rw [List.filterMap_eq_nil_iff] at free
      have none_ := free fs (List.mem_cons_self ..)
      rw [silent (unasking none_)]
      refine .unasked ?_ undecided
      rw [List.filterMap_eq_nil_iff]
      exact fun fs' member => free fs' (List.mem_cons_of_mem fs member)
  | @asked earlier last queue about free undecided waiting =>
      cases earlier with
      | nil =>
          obtain ⟨rfl, rfl⟩ := List.cons.inj queue
          rcases replies with quiet | ⟨k, reply, asks, one, decides, -⟩
          · rw [silent quiet]
            exact .unasked rfl undecided
          · cases asks.symm.trans about
            obtain ⟨before, noQuestion⟩ := List.append_eq_nil_iff.mp undecided
            refine .decided rfl ?_ waiting
            rw [List.filterMap_append, before, one, noQuestion, List.append_nil, List.nil_append,
              List.filterMap_cons_some decides, List.filterMap_nil]
      | cons first earlier =>
          obtain ⟨rfl, rfl⟩ := List.cons.inj queue
          rw [List.filterMap_eq_nil_iff] at free
          rw [silent (unasking (free fs (List.mem_cons_self ..)))]
          refine .asked rfl about ?_ undecided waiting
          rw [List.filterMap_eq_nil_iff]
          exact fun fs' member => free fs' (List.mem_cons_of_mem fs member)
  | decided empty => cases empty

variable {e : FileEntry} {node : Option Node}

theorem manage_of_nil (queue : s.toManager = []) : s.manage ends now = s := by
  unfold Upload.manage
  rw [queue]

theorem manage_of_cons (queue : s.toManager = fs :: rest) :
    s.manage ends now =
      { s with
        toManager := rest
        manager := (s.manager.handleFs ends.lib now fs).1
        toUploader := s.toUploader ++ (s.manager.handleFs ends.lib now fs).2 } := by
  unfold Upload.manage
  rw [queue]

/-- The job after a message comes from one before it. -/
theorem manager_job_of_left {m : Manager} (old : fs.isNewWrite = false)
    (left : (m.handleFs ends.lib now fs).1.job = some job') : ∃ job, m.job = some job := by
  cases present : m.job with
  | some job => exact ⟨job, rfl⟩
  | none =>
      rw [Manager.handleFs_of_none present old] at left
      cases present.symm.trans left

theorem Inv.manage (inv : s.Inv base i (base.target ends.lib e) node)
    (listed : base.entry? i = some e) (alone : Alone ends.lib base i e) (file : node.isSome = true) :
    (s.manage ends now).Inv base i (base.target ends.lib e) node := by
  cases queue : s.toManager with
  | nil => rwa [manage_of_nil queue]
  | cons fs rest =>
      rw [manage_of_cons queue]
      have old : fs.isNewWrite = false := inv.old fs (queue ▸ List.mem_cons_self ..)
      have moved (job' : TransferJob) (left : (s.manager.handleFs ends.lib now fs).1.job = some job') :
          ∃ job, s.manager.job = some job ∧ Same base job' ∧
            job'.fileNum = fs.moves base job.fileNum := by
        obtain ⟨job, present⟩ := manager_job_of_left old left
        have same := inv.same job present
        obtain ⟨same', fileNum⟩ := Manager.handleFs_job present old left
        exact ⟨job, present, same.trans same', by rw [fileNum, same.moves]⟩
      have spared (isProtected : Protected s.uploader i) :
          Manager.Spared (base.target ends.lib e) s.manager
            (s.manager.handleFs ends.lib now fs).1 := by
        cases present : s.manager.job with
        | none =>
            rw [Manager.handleFs_of_none present old]
            exact .refl fun job present' => by cases present.symm.trans present'
        | some job =>
            obtain ⟨stream, along⟩ := inv.spared isProtected job present
            rw [queue] at along
            refine Manager.handleFs_spared present (inv.same job present) listed alone ?_ stream old
              along.1
            rwa [inv.node isProtected]
      refine ⟨?_, ?_, ?_, ?_, ?_, ?_, ?_⟩
      · intro job present
        obtain ⟨reads, id, asking, below⟩ := inv.busy job present
        rw [queue] at asking
        exact ⟨reads, id, asking_manage old asking, below⟩
      · intro fs' member
        exact inv.old fs' (queue ▸ List.mem_cons_of_mem fs member)
      · intro r member
        rcases List.mem_append.mp member with before | new
        · exact inv.offers r before
        · rcases @Manager.handleFs_replies ends.lib s.manager now fs old with
            quiet | ⟨k, reply, -, one, -, offers⟩
          · cases quiet _ new
          · rw [one, List.mem_singleton] at new
            exact offers r new.symm
      · intro job' left
        obtain ⟨job, -, same, -⟩ := moved job' left
        exact same
      · intro job' left
        obtain ⟨job, present, -, fileNum⟩ := moved job' left
        have placed := inv.placed job present
        rwa [queue, Runs.exec_cons, ← fileNum] at placed
      · intro isProtected
        exact (spared isProtected).1.trans (inv.node isProtected)
      · intro isProtected job' left
        obtain ⟨job, present, -, fileNum⟩ := moved job' left
        have along := (inv.spared isProtected job present).2
        rw [queue] at along
        exact ⟨(spared isProtected).2 job' left, fileNum ▸ along.2⟩

end Manage

section Client

variable {p : Place} {node : Option Node} {u : Uploader} {sent : List FS} {toUploader : List Reply}
  {current : Int}

theorem exec_of_still (still : ∀ fs ∈ sent, fs.moves base current = current) :
    exec (FS.moves base) current sent = current := by
  induction sent with
  | nil => rfl
  | cons fs rest ih =>
      rw [Runs.exec_cons, still fs (List.mem_cons_self ..)]
      exact ih fun fs' member => still fs' (List.mem_cons_of_mem fs member)

theorem along_of_still (still : ∀ fs ∈ sent, fs.moves base current = current)
    (spares : ∀ fs ∈ sent, fs.Spares i current) :
    Along (FS.moves base) (FS.Spares i) current sent := by
  induction sent with
  | nil => trivial
  | cons fs rest ih =>
      refine ⟨spares fs (List.mem_cons_self ..), ?_⟩
      rw [still fs (List.mem_cons_self ..)]
      exact ih (fun fs' member => still fs' (List.mem_cons_of_mem fs member))
        fun fs' member => spares fs' (List.mem_cons_of_mem fs member)

/-- What the client sends, and where it is afterwards. -/
structure Sends (base : TransferJob) (i : Int) (u : Uploader) (sent : List FS) (current : Int) :
    Prop where
  placed : Placed i u (exec (FS.moves base) current sent)
  spares : Protected u i → Along (FS.moves base) (FS.Spares i) current sent

/-- What the client does leaves the manager alone. -/
theorem Inv.send (inv : s.Inv base i p node) (old : ∀ fs ∈ sent, fs.isNewWrite = false)
    (left : ∀ r ∈ toUploader, r ∈ s.toUploader)
    (busy : ∀ job, u.job = some job → Busy base i (s.send (u, sent) toUploader) job)
    (still : Protected u i → Protected s.uploader i) (sends : ∀ job, s.manager.job = some job →
      Sends base i u sent (exec (FS.moves base) job.fileNum s.toManager)) :
    (s.send (u, sent) toUploader).Inv base i p node where
  busy := busy
  old := by
    intro fs member
    rcases List.mem_append.mp member with before | new
    · exact inv.old fs before
    · exact old fs new
  offers := fun r member => inv.offers r (left _ member)
  same := inv.same
  placed := by
    intro job present
    have placed := (sends job present).placed
    rwa [← Runs.exec_append] at placed
  node := fun isProtected => inv.node (still isProtected)
  spared := by
    intro isProtected job present
    obtain ⟨stream, along⟩ := inv.spared (still isProtected) job present
    exact ⟨stream, Runs.along_append.mpr ⟨along, (sends job present).spares isProtected⟩⟩

/-- The job is gone: nothing more is decided. -/
theorem Inv.send_gone (inv : s.Inv base i p node) (gone : u.job = none)
    (skipped : u.skipped = s.uploader.skipped) (old : ∀ fs ∈ sent, fs.isNewWrite = false)
    (left : ∀ r ∈ toUploader, r ∈ s.toUploader)
    (still : ∀ current, ∀ fs ∈ sent, fs.moves base current = current)
    (spares : ∀ current, current ≠ i → ∀ fs ∈ sent, fs.Spares i current) :
    (s.send (u, sent) toUploader).Inv base i p node := by
  have gone' (job : TransferJob) : u.job ≠ some job := by
    rw [gone]
    exact nofun
  refine inv.send old left (fun job present => absurd present (gone' job)) ?_ ?_
  · rintro (isSkipped | ⟨job, present, -⟩)
    · exact .inl (skipped ▸ isSkipped)
    · exact absurd present (gone' job)
  · intro job present
    have placed := inv.placed job present
    have still := still (exec (FS.moves base) job.fileNum s.toManager)
    refine ⟨?_, ?_⟩
    · rw [exec_of_still still]
      exact ⟨fun job present => absurd present (gone' job), skipped ▸ placed.passed⟩
    · rintro (isSkipped | ⟨job, present, -⟩)
      · exact along_of_still still (spares _ (placed.passed (skipped ▸ isSkipped)))
      · exact absurd present (gone' job)

/-- The client goes on with its job and has nothing to decide. -/
theorem Inv.send_still {job : TransferJob} (inv : s.Inv base i p node)
    (present : s.uploader.job = some job) (after : u.job = some job')
    (skipped : u.skipped = s.uploader.skipped) (forth : job.fileNum ≤ job'.fileNum)
    (confirmed : job'.fileNum = job.fileNum → job.fileConfirmed = true → job'.fileConfirmed = true)
    (reads : Reads job') (id : job'.id = job.id)
    (asking : Asking (s.toManager ++ sent) (s.send (u, sent) toUploader).decided job')
    (old : ∀ fs ∈ sent, fs.isNewWrite = false) (left : ∀ r ∈ toUploader, r ∈ s.toUploader)
    (sends : ∀ current, Placed i s.uploader current → Sends base i u sent current) :
    (s.send (u, sent) toUploader).Inv base i p node := by
  have busy := inv.busy job present
  refine inv.send old left ?_ ?_ fun job present => sends _ (inv.placed job present)
  · intro job'' present'
    cases after.symm.trans present'
    refine ⟨reads, id.trans busy.id, asking, ?_⟩
    intro isSkipped
    exact (busy.below (skipped ▸ isSkipped)).trans_le forth
  · rintro (isSkipped | ⟨job'', present', undecided⟩)
    · exact .inl (skipped ▸ isSkipped)
    · cases after.symm.trans present'
      refine .inr ⟨job, present, ?_⟩
      rcases undecided with later | ⟨here, unconfirmed⟩
      · exact .inl (forth.trans_lt later)
      · rcases forth.lt_or_eq with before | same
        · exact .inl (here ▸ before)
        · refine .inr ⟨same.trans here, ?_⟩
          by_contra isConfirmed
          cases (confirmed same.symm (Bool.not_eq_false _ ▸ isConfirmed)).symm.trans unconfirmed

section Sends

variable {job job' : TransferJob}

/-- Messages that leave the manager where it is. -/
theorem sends_of_still (placed : Placed i s.uploader current) (present : s.uploader.job = some job)
    (after : u.job = some job') (skipped : u.skipped = s.uploader.skipped)
    (forth : job.fileNum ≤ job'.fileNum) (still : ∀ fs ∈ sent, fs.moves base current = current)
    (spares : Protected u i → ∀ fs ∈ sent, fs.Spares i current) : Sends base i u sent current where
  placed := by
    rw [exec_of_still still]
    refine ⟨?_, skipped ▸ placed.passed⟩
    intro job'' present'
    cases after.symm.trans present'
    exact (placed.behind job present).trans forth
  spares := fun isProtected => along_of_still still (spares isProtected)

/-- A block of the current file. -/
theorem sends_block {b : FileTransferBlock} (placed : Placed i s.uploader current)
    (present : s.uploader.job = some job) (below : i ∈ s.uploader.skipped → i < job.fileNum)
    (after : u.job = some job') (skipped : u.skipped = s.uploader.skipped)
    (forth : job.fileNum ≤ job'.fileNum) (about : b.fileNum = job.fileNum)
    (beyond : job'.Undecided i → job.fileNum < i) : Sends base i u [.writeBlock b] current where
  placed := by
    have behind := placed.behind job present
    refine ⟨?_, ?_⟩
    · intro job'' present'
      cases after.symm.trans present'
      simp only [Runs.exec_cons, Runs.exec_nil, FS.moves]
      split_ifs
      · omega
      · omega
    · intro isSkipped
      rw [skipped] at isSkipped
      have passed := placed.passed isSkipped
      have earlier := below isSkipped
      simp only [Runs.exec_cons, Runs.exec_nil, FS.moves]
      split_ifs
      · omega
      · exact passed
  spares := by
    have behind := placed.behind job present
    rintro (isSkipped | ⟨job'', present', undecided⟩)
    · rw [skipped] at isSkipped
      have earlier := below isSkipped
      exact ⟨⟨by omega, placed.passed isSkipped⟩, trivial⟩
    · cases after.symm.trans present'
      have later := beyond undecided
      exact ⟨⟨by omega, by omega⟩, trivial⟩

end Sends

/-- What a job reports of errors, as the manager gets it. -/
theorem forward_of_isError {r : Response} {fs : FS} (error : r.isError = true)
    (sent : forward r = some fs) : ∃ id fileNum err, fs = .writeError id fileNum err := by
  cases r with
  | error id fileNum err => exact ⟨id, fileNum, err, (Option.some.inj sent).symm⟩
  | dir | digest | block | done => cases error

theorem forward_of_isDone {r : Response} {fs : FS} (done : r.isDone = true)
    (sent : forward r = some fs) : ∃ id fileNum, fs = .writeDone id fileNum := by
  cases r with
  | done id fileNum => exact ⟨id, fileNum, (Option.some.inj sent).symm⟩
  | dir | digest | block | error => cases done

/-- What a report or a farewell is to the manager. -/
structure Closing (base : TransferJob) (i : Int) (fs : FS) : Prop where
  asks : fs.asks = none
  old : fs.isNewWrite = false
  still : ∀ current, fs.moves base current = current
  spares : ∀ current, current ≠ i → fs.Spares i current

theorem closing_of_final {msgs : List Response}
    (final : ∀ r ∈ msgs, r.isError = true ∨ r.isDone = true) :
    ∀ fs ∈ msgs.filterMap forward, Closing base i fs := by
  intro fs member
  obtain ⟨r, inside, forwarded⟩ := List.mem_filterMap.mp member
  rcases final r inside with error | done
  · obtain ⟨id, fileNum, err, rfl⟩ := forward_of_isError error forwarded
    exact ⟨rfl, rfl, fun _ => rfl, fun _ _ => trivial⟩
  · obtain ⟨id, fileNum, rfl⟩ := forward_of_isDone done forwarded
    exact ⟨rfl, rfl, fun _ => rfl, fun _ passed => passed⟩

/-- A report never finishes a file. -/
theorem spares_of_errors {msgs : List Response} (errors : ∀ r ∈ msgs, r.isError = true)
    {current : Int} :
    ∀ fs ∈ msgs.filterMap forward, fs.Spares i current := by
  intro fs member
  obtain ⟨r, inside, forwarded⟩ := List.mem_filterMap.mp member
  obtain ⟨id, fileNum, err, rfl⟩ := forward_of_isError (errors r inside) forwarded
  trivial

theorem Inv.round {ends : Ends} {faults : Faults} {turn : Bool} (inv : s.Inv base i p node) :
    (s.round ends faults turn).Inv base i p node := by
  unfold Upload.round Uploader.onRound
  cases present : s.uploader.job with
  | none =>
      exact inv.send_gone present rfl (List.forall_mem_nil _) (fun r member => member) (fun _ => List.forall_mem_nil _) (fun _ _ => List.forall_mem_nil _)
  | some job =>
      have busy := inv.busy job present
      have round := @handleReadJob_cases ends.st.lib ends.source job faults turn busy.reads
      dsimp only
      generalize job.handleReadJob ends.st.lib ends.source faults turn = after at round ⊢
      obtain ⟨after, msgs⟩ := after
      dsimp only at round ⊢
      cases round with
      | rests settled =>
          refine inv.send_still present rfl rfl le_rfl (fun _ => id) busy.reads rfl ?_ (List.forall_mem_nil _)
            (fun r member => member) ?_
          · rw [List.filterMap_nil, List.append_nil]
            exact busy.asking
          · intro current placed
            exact sends_of_still placed present rfl rfl le_rfl (List.forall_mem_nil _) fun _ => List.forall_mem_nil _
      | @asks job' d idle alike waiting same _ about =>
          refine inv.send_still present rfl rfl same.ge ?_
            ⟨alike.detection.trans busy.reads.detection, alike.active, .inr (.inl waiting)⟩ alike.id
            ?_ (by simp [forward, FS.isNewWrite]) (fun r member => member) ?_
          · intro _ confirmed
            cases idle.confirmed.symm.trans confirmed
          · obtain ⟨free, undecided⟩ := busy.asking.of_not_waiting idle.not_waiting
            exact .asked rfl (by simp [FS.asks, about, same]) free undecided waiting
          · intro current placed
            exact sends_of_still placed present rfl rfl same.ge (by simp [forward, FS.moves])
              fun _ => by simp [forward, FS.Spares]
      | @sends job' b sending alike still same about =>
          refine inv.send_still present rfl rfl same.ge (fun _ _ => still.confirmed)
            ⟨alike.detection.trans busy.reads.detection, alike.active, .inr (.inr still)⟩ alike.id
            (busy.asking.send sending.not_waiting (by simp [forward, FS.asks]))
            (by simp [forward, FS.isNewWrite]) (fun r member => member) ?_
          intro current placed
          refine sends_block placed present busy.below rfl rfl same.ge about ?_
          rintro (later | ⟨-, unconfirmed⟩)
          · exact same ▸ later
          · cases unconfirmed.symm.trans still.confirmed
      | @finishes b sending about =>
          have next : job.nextFile.fileNum = job.fileNum + 1 := rfl
          refine inv.send_still present rfl rfl (by omega) ?_
            ⟨busy.reads.detection, busy.reads.active, .inl ⟨rfl, rfl⟩⟩ rfl
            (busy.asking.send sending.not_waiting (by simp [forward, FS.asks]))
            (by simp [forward, FS.isNewWrite]) (fun r member => member) ?_
          · intro same
            omega
          · intro current placed
            refine sends_block placed present busy.below rfl rfl (by omega) about ?_
            rintro (later | ⟨here, -⟩)
            · omega
            · omega
      | idles decided alike idle forth stays errors =>
          have closing := @closing_of_final base i msgs fun r member => .inl (errors r member)
          refine inv.send_still present rfl rfl forth ?_
            ⟨alike.detection.trans busy.reads.detection, alike.active, .inl idle⟩ alike.id
            (busy.asking.send decided fun fs member => (closing fs member).asks)
            (fun fs member => (closing fs member).old) (fun r member => member) ?_
          · intro same confirmed
            cases (stays same).confirmed.symm.trans confirmed
          · intro current placed
            exact sends_of_still placed present rfl rfl forth
              (fun fs member => (closing fs member).still current) fun _ => spares_of_errors errors
      | ends decided final =>
          have closing := @closing_of_final base i msgs final
          exact inv.send_gone rfl rfl (fun fs member => (closing fs member).old)
            (fun r member => member) (fun current fs member => (closing fs member).still current)
            fun current passed fs member => (closing fs member).spares current passed

variable {r : SendConfirm}

theorem skippedBy_of_offset {offset : Nat} (union : r.union = some (.offsetBlk offset)) :
    skippedBy r = [] := by
  rw [skippedBy, union, if_neg nofun]

theorem skippedBy_of_skip (union : r.union = some (.skip true)) :
    skippedBy r = [r.fileNum] := by
  rw [skippedBy, union, if_pos rfl]

section Decisions

variable {job job' : TransferJob}

/-- The file is to be sent; the manager may be told from where. -/
theorem Inv.overwrite (inv : s.Inv base i p node) (present : s.uploader.job = some job)
    (after : u.job = some job') (skipped : u.skipped = s.uploader.skipped) (reads : Reads job')
    (sending : Sending job') (same : job'.fileNum = job.fileNum) (id : job'.id = job.id)
    (asking : Asking (s.toManager ++ sent) (s.send (u, sent) toUploader).decided job')
    (left : ∀ r ∈ toUploader, r ∈ s.toUploader)
    (told : ∀ fs ∈ sent, ∃ r offset, fs = .sendConfirm r ∧ r.fileNum = job.fileNum ∧
      r.union = some (.offsetBlk offset)) :
    (s.send (u, sent) toUploader).Inv base i p node := by
  refine inv.send_still present after skipped same.ge (fun _ _ => sending.confirmed) reads id asking
    ?_ left ?_
  · intro fs member
    obtain ⟨r, offset, rfl, -⟩ := told fs member
    rfl
  · intro current placed
    refine sends_of_still placed present after skipped same.ge ?_ ?_
    · intro fs member
      obtain ⟨r, offset, rfl, -, union⟩ := told fs member
      rw [FS.moves, if_neg]
      rintro ⟨-, -, skip⟩
      cases union.symm.trans skip
    · intro isProtected fs member
      obtain ⟨r, offset, rfl, about, union⟩ := told fs member
      intro _
      rw [about]
      rcases isProtected with isSkipped | ⟨job'', present', later | ⟨-, unconfirmed⟩⟩
      · exact ((inv.busy job present).below (skipped ▸ isSkipped)).ne'
      · cases after.symm.trans present'
        exact (same ▸ later).ne
      · cases after.symm.trans present'
        cases unconfirmed.symm.trans sending.confirmed

/-- The file is skipped, and the manager is not at it any more. -/
theorem Inv.skip (inv : s.Inv base i p node) (present : s.uploader.job = some job)
    (waiting : Waiting job) (after : u.job = some job')
    (skipped : u.skipped = s.uploader.skipped ++ [job.fileNum]) (reads : Reads job')
    (next : job'.fileNum = job.fileNum + 1) (id : job'.id = job.id)
    (asking : Asking (s.toManager ++ sent) (s.send (u, sent) toUploader).decided job')
    (left : ∀ r ∈ toUploader, r ∈ s.toUploader) (old : ∀ fs ∈ sent, fs.isNewWrite = false)
    (sends : ∀ job, s.manager.job = some job →
      Sends base i u sent (exec (FS.moves base) job.fileNum s.toManager)) :
    (s.send (u, sent) toUploader).Inv base i p node := by
  have busy := inv.busy job present
  refine inv.send old left ?_ ?_ sends
  · intro job'' present'
    cases after.symm.trans present'
    refine ⟨reads, id.trans busy.id, asking, ?_⟩
    intro (isSkipped : i ∈ u.skipped)
    rw [skipped] at isSkipped
    rcases List.mem_append.mp isSkipped with before | here
    · have := busy.below before
      omega
    · rw [List.mem_singleton.mp here]
      omega
  · rintro (isSkipped | ⟨job'', present', undecided⟩)
    · rw [skipped] at isSkipped
      rcases List.mem_append.mp isSkipped with before | here
      · exact .inl before
      · exact .inr ⟨job, present, .inr ⟨(List.mem_singleton.mp here).symm, waiting.confirmed⟩⟩
    · cases after.symm.trans present'
      refine .inr ⟨job, present, .inl ?_⟩
      rcases undecided with later | ⟨here, -⟩
      · omega
      · omega

/-- The client is one file further. -/
theorem placed_of_skip (after : u.job = some job')
    (skipped : u.skipped = s.uploader.skipped ++ [job.fileNum])
    (behind : current ≤ job'.fileNum) (passed : i ∈ s.uploader.skipped → current ≠ i)
    (here : i = job.fileNum → current ≠ i) : Placed i u current where
  behind := by
    intro job'' present'
    cases after.symm.trans present'
    exact behind
  passed := by
    intro isSkipped
    rw [skipped] at isSkipped
    rcases List.mem_append.mp isSkipped with before | now
    · exact passed before
    · exact here (List.mem_singleton.mp now)

/-- A skip that is told moves the manager on, if it is at the file. -/
theorem sends_skip (placed : Placed i s.uploader current)
    (present : s.uploader.job = some job) (below : i ∈ s.uploader.skipped → i < job.fileNum)
    (own : r.id = base.id) (about : r.fileNum = job.fileNum) (union : r.union = some (.skip true))
    (after : u.job = some job') (skipped : u.skipped = s.uploader.skipped ++ [job.fileNum])
    (next : job'.fileNum = job.fileNum + 1) : Sends base i u [.sendConfirm r] current := by
  have behind := placed.behind job present
  have spares : FS.Spares i current (.sendConfirm r) := by
    rintro ⟨offset, offsetBlk⟩
    cases union.symm.trans offsetBlk
  refine ⟨?_, fun _ => ⟨spares, trivial⟩⟩
  have moved : exec (FS.moves base) current [.sendConfirm r] =
      if current = job.fileNum then current + 1 else current := by
    simp only [Runs.exec_cons, Runs.exec_nil, FS.moves, own, about, union, true_and, and_true]
  rw [moved]
  split_ifs with here
  · refine placed_of_skip after skipped (by omega) ?_ (by omega)
    intro isSkipped
    have := below isSkipped
    omega
  · exact placed_of_skip after skipped (by omega) placed.passed (by omega)

end Decisions

theorem Inv.cancel (inv : s.Inv base i p node) : s.cancel.Inv base i p node := by
  refine inv.send_gone rfl rfl ?_ (fun r member => member) ?_ ?_
  · intro fs member
    rw [List.mem_singleton.mp member]
    rfl
  · intro current fs member
    rw [List.mem_singleton.mp member]
    rfl
  · intro current _ fs member
    rw [List.mem_singleton.mp member]
    trivial

/-- The user is about to skip the very file the manager is at. -/
def untold (i : Int) (s : Upload) : UploadEvent → Bool
  | .answer false _ => s.uploader.job.isSome && s.uploader.question = some i &&
      s.manager.job.map (·.fileNum) = some i
  | _ => false

theorem Inv.answer {ends : Ends} {needOverride remember : Bool} (inv : s.Inv base i p node)
    (told : s.untold i (.answer needOverride remember) = false) :
    (s.answer ends needOverride remember).Inv base i p node := by
  unfold Upload.answer Uploader.onAnswer
  cases present : s.uploader.job with
  | none =>
      exact inv.send_gone rfl rfl (List.forall_mem_nil _) (fun r member => member) (fun _ => List.forall_mem_nil _) (fun _ _ => List.forall_mem_nil _)
  | some job =>
      have busy := inv.busy job present
      have asking := busy.asking
      unfold Upload.decided at asking
      cases question : s.uploader.question with
      | none =>
          refine inv.send_still present rfl rfl le_rfl (fun _ => id) busy.reads rfl ?_ (List.forall_mem_nil _)
            (fun r member => member) ?_
          · rw [List.append_nil]
            rw [question] at asking
            exact asking
          · intro current placed
            exact sends_of_still placed present rfl rfl le_rfl (List.forall_mem_nil _) fun _ => List.forall_mem_nil _
      | some k =>
          rw [question] at asking
          obtain ⟨empty, undecided, rfl, waiting⟩ := asking.of_question
          have settled (job' : TransferJob) :
              Asking (s.toManager ++ []) (s.toUploader.filterMap Reply.decides ++ []) job' := by
            rw [empty, undecided]
            exact .unasked rfl rfl
          obtain ⟨strategy, shape⟩ : ∃ strategy,
              (if remember then { job with defaultOverwriteStrategy := some needOverride } else job) =
                { job with defaultOverwriteStrategy := strategy } := by
            cases remember with
            | true => exact ⟨_, rfl⟩
            | false => exact ⟨_, rfl⟩
          dsimp only
          rw [shape]
          have waiting' : Waiting { job with defaultOverwriteStrategy := strategy } := { waiting with }
          have reads' : Reads { job with defaultOverwriteStrategy := strategy } :=
            ⟨busy.reads.detection, busy.reads.active, .inr (.inl waiting')⟩
          cases needOverride with
          | true =>
              obtain ⟨reads, sending, same, id⟩ := @confirm_of_offset ends.st.lib ends.source _
                ⟨job.id, job.fileNum, some (.offsetBlk 0)⟩ 0 reads' waiting' rfl rfl
              rw [Uploader.confirm, overrideUnion, if_pos rfl, skippedBy_of_offset rfl, List.append_nil]
              generalize TransferJob.confirm _ _ _ _ = job' at reads sending same id ⊢
              exact inv.overwrite present rfl rfl reads sending same id (settled _)
                (fun r member => member) (List.forall_mem_nil _)
          | false =>
              obtain ⟨reads, next, id⟩ := @confirm_skips ends.st.lib ends.source _
                ⟨job.id, job.fileNum, some (.skip true)⟩ reads' rfl rfl
              rw [Uploader.confirm, overrideUnion, if_neg Bool.false_ne_true, skippedBy_of_skip rfl]
              generalize TransferJob.confirm _ _ _ _ = job₁ at reads next id ⊢
              refine inv.skip present waiting rfl rfl reads next id (settled _)
                (fun r member => member) (List.forall_mem_nil _) ?_
              intro job' present'
              have placed := inv.placed job' present'
              refine ⟨placed_of_skip rfl rfl ?_ placed.passed ?_, fun _ => trivial⟩
              · exact (placed.behind job present).trans (next ▸ Int.le_add_one le_rfl)
              · rw [empty]
                intro here (same : job'.fileNum = i)
                have untold : s.untold i (.answer false remember) = true := by
                  simp [Upload.untold, present, question, present', same, here]
                cases untold.symm.trans told

variable {ends : Ends} {job : TransferJob} {taken : Reply} {rest : List Reply}

theorem mem_of_queue (queue : s.toUploader = taken :: rest) : ∀ r ∈ rest, r ∈ s.toUploader := by
  intro r member
  rw [queue]
  exact List.mem_cons_of_mem taken member

section

variable (inv : s.Inv base i p node)

include inv

/-- A reply that decides is the only one that does, and nothing is under way to the
    manager. -/
theorem Inv.of_decides (present : s.uploader.job = some job)
    (queue : s.toUploader = taken :: rest) (decides : taken.decides = some k) :
    s.toManager = [] ∧ k = job.fileNum ∧ Waiting job ∧ rest.filterMap Reply.decides = [] ∧
      s.uploader.question = none := by
  have asking := (inv.busy job present).asking
  rw [Upload.decided, queue, List.filterMap_cons_some decides, List.cons_append] at asking
  obtain ⟨empty, about, none_, waiting⟩ := asking.of_decided
  obtain ⟨undecided, noQuestion⟩ := List.append_eq_nil_iff.mp none_
  exact ⟨empty, about, waiting, undecided, Option.toList_eq_nil_iff.mp noQuestion⟩

/-- Once it is taken, nothing is asked any more. -/
theorem Inv.settled (present : s.uploader.job = some job) (queue : s.toUploader = taken :: rest)
    (decides : taken.decides = some k) (free : ∀ fs ∈ sent, fs.asks = none) :
    Asking (s.toManager ++ sent) (rest.filterMap Reply.decides ++ s.uploader.question.toList)
      job' := by
  obtain ⟨empty, -, -, undecided, noQuestion⟩ := inv.of_decides present queue decides
  rw [empty, undecided, noQuestion]
  exact .unasked (List.filterMap_eq_nil_iff.mpr free) rfl

/-- A reply that has no effect. -/
theorem Inv.drop (queue : s.toUploader = taken :: rest) :
    (s.send (s.uploader, []) rest).Inv base i p node := by
  cases present : s.uploader.job with
  | none =>
      exact inv.send_gone present rfl (List.forall_mem_nil _) (mem_of_queue queue) (fun _ => List.forall_mem_nil _) (fun _ _ => List.forall_mem_nil _)
  | some job =>
      have busy := inv.busy job present
      refine inv.send_still present present rfl le_rfl (fun _ => id) busy.reads rfl ?_ (List.forall_mem_nil _)
        (mem_of_queue queue) ?_
      · cases decides : taken.decides with
        | none =>
            have asking := busy.asking
            rw [Upload.decided, queue, List.filterMap_cons_none decides] at asking
            rw [List.append_nil]
            exact asking
        | some k => exact inv.settled present queue decides (List.forall_mem_nil _)
      · intro current placed
        exact sends_of_still placed present present rfl le_rfl (List.forall_mem_nil _) fun _ => List.forall_mem_nil _

/-- The manager has no such file: it is sent. -/
theorem Inv.onConfirm
    (present : s.uploader.job = some job) (queue : s.toUploader = .confirm r :: rest) :
    (s.send (s.uploader.confirm ends.st ends.source r job, []) rest).Inv base i p node := by
  obtain ⟨-, about, waiting, -⟩ := inv.of_decides present queue rfl
  have offers := inv.offers r (by rw [queue]; exact List.mem_cons_self ..)
  obtain ⟨reads, sending, same, id⟩ := @confirm_of_offset ends.st.lib ends.source job r 0
    (inv.busy job present).reads waiting about.symm offers
  rw [Uploader.confirm, skippedBy_of_offset offers, List.append_nil]
  generalize job.confirm ends.st.lib ends.source r = job' at reads sending same id ⊢
  exact inv.overwrite present rfl rfl reads sending same id (inv.settled present queue rfl (List.forall_mem_nil _))
    (mem_of_queue queue) (List.forall_mem_nil _)

end

theorem overwriteStrategy_cases {d : FileTransferDigest} {union : ConfirmUnion}
    (strategy : overwriteStrategy job d = some union) :
    (∃ offset, union = .offsetBlk offset) ∨ union = .skip true := by
  unfold overwriteStrategy at strategy
  split_ifs at strategy
  · exact .inl ⟨_, (Option.some.inj strategy).symm⟩
  · obtain ⟨needOverride, -, rfl⟩ := Option.map_eq_some_iff.mp strategy
    cases needOverride with
    | true => exact .inl ⟨0, rfl⟩
    | false => exact .inr rfl

/-- The manager has a file of that name already. -/
theorem Inv.onDigest {d : FileTransferDigest} (inv : s.Inv base i p node)
    (present : s.uploader.job = some job) (queue : s.toUploader = .response (.digest d) :: rest)
    (own : d.id = job.id) :
    (s.send (s.uploader.onDigest ends.st ends.source d job) rest).Inv base i p node := by
  obtain ⟨empty, about, waiting, undecided, noQuestion⟩ := inv.of_decides present queue rfl
  have busy := inv.busy job present
  unfold Uploader.onDigest
  split
  · exact inv.drop queue
  · split
    · rename_i union strategy
      rcases overwriteStrategy_cases strategy with ⟨offset, rfl⟩ | rfl
      · obtain ⟨reads, sending, same, id⟩ := @confirm_of_offset ends.st.lib ends.source job
          ⟨d.id, d.fileNum, some (.offsetBlk offset)⟩ offset busy.reads waiting about.symm rfl
        rw [Uploader.confirm, skippedBy_of_offset rfl, List.append_nil]
        generalize job.confirm _ _ _ = job' at reads sending same id ⊢
        refine inv.overwrite present rfl rfl reads sending same id
          (inv.settled present queue rfl (by simp [FS.asks])) (mem_of_queue queue) ?_
        intro fs member
        exact ⟨_, offset, List.mem_singleton.mp member, about, rfl⟩
      · obtain ⟨reads, next, id⟩ := @confirm_skips ends.st.lib ends.source job
          ⟨d.id, d.fileNum, some (.skip true)⟩ busy.reads about.symm rfl
        rw [Uploader.confirm, skippedBy_of_skip rfl]
        generalize job.confirm _ _ _ = job' at reads next id ⊢
        rw [about]
        refine inv.skip present waiting rfl rfl reads next id
          (inv.settled present queue rfl (by simp [FS.asks])) (mem_of_queue queue)
          (by simp [FS.isNewWrite]) ?_
        intro mine present'
        exact sends_skip (inv.placed mine present') present busy.below (own.trans busy.id) rfl rfl
          rfl rfl next
    · refine inv.send_still present present rfl le_rfl (fun _ => id) busy.reads rfl ?_ (List.forall_mem_nil _)
        (mem_of_queue queue) ?_
      · refine .decided (by rw [empty]; rfl) ?_ waiting
        change rest.filterMap Reply.decides ++ [d.fileNum] = _
        rw [undecided, about]
        rfl
      · intro current placed
        exact sends_of_still placed present present rfl le_rfl (List.forall_mem_nil _) fun _ => List.forall_mem_nil _

theorem Inv.reply (inv : s.Inv base i p node) : (s.reply ends).Inv base i p node := by
  unfold Upload.reply
  cases queue : s.toUploader with
  | nil => exact inv
  | cons reply rest =>
      unfold Uploader.onReply
      cases present : s.uploader.job with
      | none => exact inv.drop queue
      | some job =>
          match reply with
          | .confirm r =>
              dsimp only
              split_ifs
              · exact inv.onConfirm present queue
              · exact inv.drop queue
          | .response (.digest d) =>
              dsimp only
              split_ifs with own
              · exact inv.onDigest present queue own.1
              · exact inv.drop queue
          | .response (.error _ _ _) =>
              dsimp only
              split_ifs
              · exact inv.send_gone rfl rfl (List.forall_mem_nil _) (mem_of_queue queue) (fun _ => List.forall_mem_nil _)
                  (fun _ _ => List.forall_mem_nil _)
              · exact inv.drop queue
          | .response (.dir _ _) | .response (.block _) | .response (.done _ _) =>
              exact inv.drop queue

end Client

/-- Nothing is asked and nothing skipped. -/
structure Unasked (s : Upload) : Prop where
  skipped : s.uploader.skipped = []
  undetected : ∀ job, s.uploader.job = some job → job.enableOverwriteDetection = false
  question : s.uploader.question = none
  free : ∀ fs ∈ s.toManager, fs.asks = none ∧ fs.isNewWrite = false
  undecided : ∀ r ∈ s.toUploader, r.decides = none

section Unasked

variable {ends : Ends}

variable (unasked : s.Unasked)

include unasked

theorem Unasked.send {u : Uploader} {sent : List FS} {toUploader : List Reply}
    (skipped : u.skipped = []) (question : u.question = none)
    (undetected : ∀ job, u.job = some job → job.enableOverwriteDetection = false)
    (free : ∀ fs ∈ sent, fs.asks = none ∧ fs.isNewWrite = false)
    (left : ∀ r ∈ toUploader, r ∈ s.toUploader) : (s.send (u, sent) toUploader).Unasked where
  skipped := skipped
  undetected := undetected
  question := question
  free := by
    intro fs member
    rcases List.mem_append.mp member with before | new
    · exact unasked.free fs before
    · exact free fs new
  undecided := fun r member => unasked.undecided r (left r member)

theorem Unasked.round {faults : Faults} {turn : Bool} :
    (s.round ends faults turn).Unasked := by
  unfold Upload.round Uploader.onRound
  cases present : s.uploader.job with
  | none =>
      exact unasked.send unasked.skipped unasked.question (fun job present' =>
        unasked.undetected job present') (List.forall_mem_nil _) fun r member => member
  | some job =>
      obtain ⟨stays, digests⟩ := @handleReadJob_of_undetected ends.st.lib ends.source job faults turn
        (unasked.undetected job present)
      refine unasked.send unasked.skipped unasked.question stays ?_ fun r member => member
      intro fs member
      obtain ⟨r, inside, forwarded⟩ := List.mem_filterMap.mp member
      cases r with
      | digest d => exact absurd inside (digests d)
      | dir => cases forwarded
      | block | done | error =>
          cases forwarded
          exact ⟨rfl, rfl⟩

theorem Unasked.manage {now : Nat} : (s.manage ends now).Unasked := by
  cases queue : s.toManager with
  | nil => rwa [manage_of_nil queue]
  | cons fs rest =>
      rw [manage_of_cons queue]
      obtain ⟨none_, old⟩ := unasked.free fs (queue ▸ List.mem_cons_self ..)
      refine ⟨unasked.skipped, unasked.undetected, unasked.question, ?_, ?_⟩
      · intro fs' member
        exact unasked.free fs' (queue ▸ List.mem_cons_of_mem fs member)
      · intro r member
        rcases List.mem_append.mp member with before | new
        · exact unasked.undecided r before
        · rcases @Manager.handleFs_replies ends.lib s.manager now fs old with
            quiet | ⟨k, reply, asks, -⟩
          · exact quiet r new
          · cases none_.symm.trans asks

theorem Unasked.reply : (s.reply ends).Unasked := by
  unfold Upload.reply
  cases queue : s.toUploader with
  | nil => exact unasked
  | cons taken rest =>
      have left := mem_of_queue queue
      have undecided := unasked.undecided taken (queue ▸ List.mem_cons_self ..)
      have stays : (s.send (s.uploader, []) rest).Unasked :=
        unasked.send unasked.skipped unasked.question unasked.undetected (List.forall_mem_nil _) left
      unfold Uploader.onReply
      cases present : s.uploader.job with
      | none => exact stays
      | some job =>
          match taken with
          | .confirm r => cases undecided
          | .response (.digest d) => cases undecided
          | .response (.error _ _ _) =>
              dsimp only
              split_ifs
              · refine unasked.send unasked.skipped unasked.question ?_ (List.forall_mem_nil _) left
                intro job' gone
                cases gone
              · exact stays
          | .response (.dir _ _) | .response (.block _) | .response (.done _ _) => exact stays

theorem Unasked.step {event : UploadEvent} : (s.step ends event).Unasked := by
  cases event with
  | round faults turn => exact unasked.round
  | manage now => exact unasked.manage
  | reply => exact unasked.reply
  | answer needOverride remember =>
      change (s.send (s.uploader.onAnswer ends.st ends.source needOverride remember, [])
        s.toUploader).Unasked
      have unanswered : s.uploader.onAnswer ends.st ends.source needOverride remember =
          { s.uploader with question := none } := by
        unfold Uploader.onAnswer
        split
        · rename_i question
          cases unasked.question.symm.trans question
        · rfl
      rw [unanswered]
      exact unasked.send unasked.skipped rfl unasked.undetected (List.forall_mem_nil _) fun r member => member
  | cancel =>
      refine unasked.send unasked.skipped rfl ?_ ?_ fun r member => member
      · intro job gone
        cases gone
      · intro fs member
        rw [List.mem_singleton.mp member]
        exact ⟨rfl, rfl⟩

end Unasked

/-- The write job the manager has for an upload. -/
def received (ends : Ends) (folder : Text) (job : TransferJob) : TransferJob :=
  .newWrite job.id folder job.fileNum
    ((sentFiles ends.st job.files).map fun f => ⟨f.1, f.2, 0⟩) job.enableOverwriteDetection

section Runs

variable {ends : Ends} {folder : Text} {e : FileEntry} {node : Option Node} {t : Tree}

theorem Inv.step {event : UploadEvent} (inv : s.Inv base i (base.target ends.lib e) node)
    (listed : base.entry? i = some e) (alone : Alone ends.lib base i e) (file : node.isSome = true)
    (told : s.untold i event = false) :
    (s.step ends event).Inv base i (base.target ends.lib e) node := by
  cases event with
  | round faults turn => exact inv.round
  | manage now => exact inv.manage listed alone file
  | reply => exact inv.reply
  | answer needOverride remember => exact inv.answer told
  | cancel => exact inv.cancel

/-- The manager has the job unless it does not like the names, which it says. -/
theorem start_cases {job : TransferJob} :
    (start ends folder job t).manager.tree = t ∧
      (∀ job', (start ends folder job t).manager.job = some job' → job' = received ends folder job) ∧
      ∀ reply ∈ (start ends folder job t).toUploader, reply.decides = none := by
  unfold start Manager.handleFs Manager.newWrite
  dsimp only
  split
  · refine ⟨rfl, ?_, ?_⟩
    · intro job' gone
      cases gone
    · intro reply member
      rw [List.mem_singleton.mp member]
      rfl
  · exact ⟨rfl, fun job' left => (Option.some.inj left).symm, List.forall_mem_nil _⟩

theorem inv_start {job : TransferJob} {p : Place} (reads : Reads job) :
    (start ends folder job t).Inv (received ends folder job) i p (t.node p) := by
  obtain ⟨tree, manager, replies⟩ := @start_cases ends folder t job
  have undecided : (start ends folder job t).decided = [] := by
    rw [Upload.decided, List.filterMap_eq_nil_iff.mpr replies]
    rfl
  refine ⟨?_, List.forall_mem_nil _, ?_, ?_, ?_, fun _ => by rw [tree], ?_⟩
  · intro job' present
    cases present
    exact ⟨reads, rfl, .unasked rfl undecided, nofun⟩
  · intro r member
    cases replies _ member
  · intro job' present
    rw [manager job' present]
    exact .refl
  · intro job' present
    rw [manager job' present]
    refine ⟨?_, nofun⟩
    intro job'' present'
    cases present'
    exact le_rfl
  · intro _ job' present
    rw [manager job' present]
    exact ⟨nofun, trivial⟩

theorem unasked_start {job : TransferJob} (undetected : job.enableOverwriteDetection = false) :
    (start ends folder job t).Unasked := by
  obtain ⟨-, -, replies⟩ := @start_cases ends folder t job
  refine ⟨rfl, ?_, rfl, List.forall_mem_nil _, replies⟩
  rintro job' ⟨⟩
  exact undetected

/-- A skipped file that has its place to itself is as it was before the upload, unless it
    was the file the manager was at and the user skipped it when asked. -/
theorem skipped_file_left_alone (ends : Ends) (folder : Text) (id : Int) (path : Text)
    (fileNum : Int) (files : List FileEntry) (detection isResume : Bool) (t : Tree)
    (events : List UploadEvent) (i : Int) (e : FileEntry) (content : Host.Bytes) (modified : Nat) :
    let job := { newRead id path fileNum files detection with isResume := isResume }
    let base := received ends folder job
    base.entry? i = some e → Alone ends.lib base i e →
    t.node (base.target ends.lib e) = some (.file content modified) →
    Along (step ends) (fun s event => s.untold i event = false) (start ends folder job t) events →
    Always (step ends)
      (fun s => i ∈ s.uploader.skipped →
        s.manager.tree.node (base.target ends.lib e) = some (.file content modified))
      (start ends folder job t) events := by
  intro job base listed alone file told
  cases detection with
  | true =>
      have reads : Reads job := ⟨rfl, rfl, .inl ⟨rfl, rfl⟩⟩
      have start : (start ends folder job t).Inv base i (base.target ends.lib e)
          (some (.file content modified)) := file ▸ inv_start reads
      have always := Runs.always_of_along (fun s event inv told =>
        Inv.step inv listed alone rfl told) start told
      exact always.mono fun s inv isSkipped => inv.node (.inl isSkipped)
  | false =>
      have start : (start ends folder job t).Unasked := unasked_start rfl
      have always : Always (step ends) Unasked (Upload.start ends folder job t) events :=
        Runs.always_of_events (fun s event (_ : True) unasked => Unasked.step unasked)
          (fun event _ => trivial) start
      refine always.mono fun s unasked isSkipped => ?_
      rw [unasked.skipped] at isSkipped
      cases isSkipped

/-- The second of two files is skipped after the first one was sent. -/
theorem skipped_last_file_stays :
    let source : Tree := ⟨fun p =>
      if p = [['s']] then some .dir
      else if p = [['s'], ['a']] ∨ p = [['s'], ['b']] then some (.file [1] 7)
      else none, []⟩
    let t : Tree := ⟨fun p =>
      if p = [['d']] then some .dir else if p = [['d'], ['b']] then some (.file [2] 5) else none, []⟩
    let ends : Ends := ⟨.plain, source, Setting.plain.lib⟩
    let job := newRead 1 ['/', 's'] 0 [⟨['a'], 7, 1⟩, ⟨['b'], 7, 1⟩] true
    let s := exec (step ends) (start ends ['/', 'd'] job t)
      [.round {} true, .manage 9, .reply, .round {} true, .round {} true, .manage 9, .manage 9,
        .round {} true, .manage 9, .reply, .answer false false, .round {} true, .manage 9]
    s.uploader.skipped = [1] ∧ s.manager.job.isNone = true ∧
      s.manager.tree.node [['d'], ['b']] = some (.file [2] 5) := by
  refine ⟨by decide +kernel, by decide +kernel, ?_⟩
  refine (skipped_file_left_alone _ _ 1 ['/', 's'] 0 _ true false _ _ 1 ⟨['b'], 7, 0⟩ [2] 5 rfl ?_
    (by decide +kernel) (by decide +kernel)).last (by decide +kernel)
  intro k e' other listed
  unfold entry? at listed
  split_ifs at listed
  match index : k.toNat with
  | 0 =>
      rw [index] at listed
      cases listed
      exact ⟨by decide +kernel, by decide +kernel, by decide +kernel⟩
  | 1 => omega
  | n + 2 =>
      rw [index] at listed
      cases listed

/-- The first of two files is skipped, the second one is sent: with that the manager sets
    the time of the first one. -/
theorem skipped_first_file_changes :
    let source : Tree := ⟨fun p =>
      if p = [['s']] then some .dir
      else if p = [['s'], ['a']] ∨ p = [['s'], ['b']] then some (.file [1] 7)
      else none, []⟩
    let t : Tree := ⟨fun p =>
      if p = [['d']] then some .dir else if p = [['d'], ['a']] then some (.file [2] 5) else none, []⟩
    let ends : Ends := ⟨.plain, source, Setting.plain.lib⟩
    let job := newRead 1 ['/', 's'] 0 [⟨['a'], 7, 1⟩, ⟨['b'], 7, 1⟩] true
    let s := exec (step ends) (start ends ['/', 'd'] job t)
      [.round {} true, .manage 9, .reply, .answer false false, .round {} true, .manage 9, .reply,
        .round {} true, .manage 9]
    s.uploader.skipped = [0] ∧ s.manager.tree.node [['d'], ['a']] = some (.file [2] 7) := by
  decide +kernel

end Runs

end Upload

end RemoteControl.Transfer
