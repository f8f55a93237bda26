import RemoteControl.Transfer.Download

/-! # Downloads that end with the right bytes

The peer's job and the client's job go through a file together: the file is asked
about, the client answers, and blocks follow from where the two agreed. Each `Phase`
says where the question, the answer or the blocks are and what the client has by then.
As long as no offset is lost on the client's side, a download stays in one of them
until it is done, or an error that is under way, or has arrived, ends it.
-/

namespace RemoteControl.Transfer

open Host (SendConfirm ConfirmUnion)
open Runs (exec Along Always)
open TransferJob

namespace Download

/-- The write job of the client once it knows the files. -/
def Request.base (st : Setting) (r : Request) : TransferJob :=
  r.writes (Client.receivedEntries st r.files)

/-- What the peer has of a file, and since when. -/
def Request.original (ends : Ends) (r : Request) (i : Int) : Option (Host.Bytes × Nat) :=
  match r.reads.entry? i with
  | none => none
  | some e =>
      match ends.source.node (r.reads.target ends.peerLib e) with
      | some (.file content modified) => some (content, modified)
      | _ => none

/-- What a download needs to go well: data that survives its compression, files that can
    be written and do not get in each other's way, and nothing on the side of the peer
    that looks like an earlier download and is a directory. -/
structure Fits (ends : Ends) (r : Request) (t : Tree) : Prop where
  codec : ∀ data, ends.st.lib.decompress (ends.peerLib.compress data) = data
  first : 0 ≤ r.fileNum
  laid : Laid ends.st.lib (r.base ends.st)
  usable : Usable ends.st.lib (r.base ends.st) t
  clear : ∀ e ∈ r.files, ends.source.node (r.reads.downloadPlace ends.peerLib e) = some .dir →
    ends.source.exists_ (r.reads.digestPlace ends.peerLib e) = false

/-- What is left of earlier downloads of the same files is their beginning. -/
def Leftovers (ends : Ends) (r : Request) (t : Tree) : Prop :=
  ∀ i e content modified k front m, entry? (r.base ends.st) i = some e →
    r.original ends i = some (content, modified) →
    leftover ends.st.lib t ((r.base ends.st).downloadPlace ends.st.lib e)
      ((r.base ends.st).digestPlace ends.st.lib e)
      { id := r.id, fileNum := i, lastModified := modified, fileSize := content.length } = some k →
    t.node ((r.base ends.st).downloadPlace ends.st.lib e) = some (.file front m) → front <+: content

def Fits.plan {ends : Ends} {r : Request} {t : Tree} (fits : Fits ends r t) : Plan where
  lib := ends.st.lib
  base := r.base ends.st
  laid := fits.laid
  original := fun i => (r.original ends i).map Prod.fst

/-- Every question and every confirmation has been dealt with. -/
structure Settled (s : Download) : Prop where
  question : s.client.question = none
  delivered : s.client.sent.length = s.delivered

/-- The peer has the job that was asked for. -/
structure Serves (r : Request) (s : Download) (peer : TransferJob) : Prop where
  present : s.peer = some peer
  same : Same r.reads peer
  active : peer.isLastJob = false
  current : 0 ≤ peer.fileNum

/-- The peer is at a file that it has. -/
structure Offers (ends : Ends) (r : Request) (s : Download) (peer : TransferJob) (e : FileEntry)
    (content : Host.Bytes) (modified : Nat) : Prop extends Serves r s peer where
  listed : r.reads.entry? peer.fileNum = some e
  file : ends.source.node (r.reads.target ends.peerLib e) = some (.file content modified)

/-- The peer has asked about its file. -/
structure Asks (ends : Ends) (r : Request) (s : Download) (peer : TransferJob) (e : FileEntry)
    (content : Host.Bytes) (modified : Nat) : Prop extends Offers ends r s peer e content modified where
  stream : peer.stream = some ⟨r.reads.target ends.peerLib e, 0, .read⟩
  confirmed : peer.fileConfirmed = false
  waiting : peer.fileIsWaiting = true

section Phase

variable (ends : Ends) (r : Request) (plan : Plan) (t : Tree) (s : Download) (job : TransferJob)

/-- Where the two sides are with the file of the peer, and what the client has by then.
    The files after it are as they were in the tree `t`. -/
inductive Phase : Prop where
  | idle {peer : TransferJob} (serves : Serves r s peer) (idle : Idle peer)
      (closed : peer.stream = none) (settled : Settled s)
      (leads : plan.Leads s.skipped peer.fileNum job s.client.tree s.toClient)
      (keeps : plan.Keeps (peer.fileNum - 1) t s.client.tree)
  | asked {peer : TransferJob} {e : FileEntry} {content : Host.Bytes} {modified : Nat}
      {queue : List Response} (asks : Asks ends r s peer e content modified) (settled : Settled s)
      (last : s.toClient = queue ++ [.digest { id := r.id, fileNum := peer.fileNum
                                               lastModified := modified, fileSize := content.length }])
      (leads : plan.Leads s.skipped peer.fileNum job s.client.tree queue)
      (keeps : plan.Keeps (peer.fileNum - 1) t s.client.tree)
  | question {peer : TransferJob} {e : FileEntry} {content : Host.Bytes} {modified : Nat}
      (asks : Asks ends r s peer e content modified)
      (question : s.client.question = some peer.fileNum)
      (delivered : s.client.sent.length = s.delivered) (empty : s.toClient = [])
      (ready : plan.Ready s.skipped peer.fileNum job s.client.tree)
      (keeps : plan.Keeps (peer.fileNum - 1) t s.client.tree)
  | confirmed {peer : TransferJob} {e : FileEntry} {content : Host.Bytes} {modified : Nat}
      {front : List SendConfirm} {u : ConfirmUnion} (asks : Asks ends r s peer e content modified)
      (question : s.client.question = none)
      (sent : s.client.sent = front ++ [⟨r.id, peer.fileNum, some u⟩])
      (delivered : s.delivered = front.length) (empty : s.toClient = [])
      (agreed : plan.Agreed s.skipped peer.fileNum job s.client.tree u)
      (keeps : plan.Keeps (peer.fileNum - 1) t s.client.tree)
  | sending {peer : TransferJob} {e : FileEntry} {content : Host.Bytes} {modified : Nat}
      {from_ pos : Option Nat} (offers : Offers ends r s peer e content modified)
      (confirmed : peer.fileConfirmed = true)
      (stream : peer.stream = some ⟨r.reads.target ends.peerLib e, pos.getD 0, .read⟩)
      (settled : Settled s) (inside : pos.getD 0 ≤ content.length)
      (reached : plan.At s.skipped peer.fileNum from_ job s.client.tree)
      (feed : plan.Feed peer.fileNum content from_ s.toClient pos)
      (keeps : plan.Keeps peer.fileNum t s.client.tree)
  | stuck {peer : TransferJob} {stream : Stream} (serves : Serves r s peer)
      (listed : (peer.entry? peer.fileNum).isSome = true) (confirmed : peer.fileConfirmed = true)
      (open_ : peer.stream = some stream) (mode : stream.mode = .write) (settled : Settled s)
      (empty : s.toClient = [])
  | ended {n k : Int} {queue : List Response} (gone : s.peer = none) (settled : Settled s)
      (last : s.toClient = queue ++ [.done r.id k])
      (leads : plan.Leads s.skipped n job s.client.tree queue) (current : 0 ≤ n)
      (past : plan.base.entry? n = none)

end Phase

/-- The client's job is gone, or an error is under way that will end it. -/
inductive Over (r : Request) (s : Download) : Prop where
  | gone (gone : s.client.job = none)
  | failed {k : Int} {err : String} {front back : List Response}
      (queue : s.toClient = front ++ .error r.id k err :: back)
      (open_ : ∀ x ∈ front, x.isDone = false)

section Inv

variable (ends : Ends) (r : Request) (plan : Plan) (t : Tree) (s : Download)

/-- The client has its job, in one of the phases. -/
def Goes : Prop :=
  ∃ job, s.client.job = some job ∧ plan.Sound job s.client.tree ∧ Phase ends r plan t s job

structure Inv : Prop where
  own : ∀ job, s.client.job = some job → job.id = r.id
  phase : Over r s ∨ Goes ends r plan t s

end Inv

/-! ## Downloads that are over -/

section Over

variable {ends : Ends} {r : Request} {s : Download} {event : DownloadEvent} {faults : Faults}
  {turn : Bool}

theorem round_of_none (gone : s.peer = none) : s.round ends faults turn = s := by
  unfold Download.round
  rw [gone]

theorem round_of_some {peer : TransferJob} (present : s.peer = some peer) :
    s.round ends faults turn =
      { s with
        peer := (peer.handleReadJob ends.peerLib ends.source faults turn).1
        toClient := s.toClient ++ (peer.handleReadJob ends.peerLib ends.source faults turn).2 } := by
  unfold Download.round
  rw [present]

variable {st : Setting} {c : Client} {job' : TransferJob}

theorem onDigest_id {d : FileTransferDigest} {job : TransferJob} (present : c.job = some job)
    (left : (c.onDigest st d job).job = some job') : job'.id = job.id := by
  cases listed : job.entry? d.fileNum with
  | none =>
      unfold Client.onDigest at left
      rw [listed] at left
      cases present.symm.trans left
      rfl
  | some e =>
      rcases @Client.onDigest_cases d st c job e listed with asked | ⟨u, both, -⟩
      · rw [asked] at left
        obtain rfl := Option.some.inj left
        rfl
      · rw [both] at left
        obtain rfl := Option.some.inj left
        exact confirm_same.1

/-- Whatever arrives, the client's job is the one it was. -/
theorem onResponse_id {now : Nat} {x : Response} (left : (c.onResponse st now x).job = some job') :
    ∃ job, c.job = some job ∧ job'.id = job.id := by
  unfold Client.onResponse at left
  cases present : c.job with
  | none =>
      rw [present] at left
      cases present.symm.trans left
  | some job =>
      refine ⟨job, rfl, ?_⟩
      rw [present] at left
      dsimp only at left
      have stays (still : c.job = some job') : job'.id = job.id := by
        cases present.symm.trans still
        rfl
      match x with
      | .dir _ _ =>
          dsimp only at left
          split_ifs at left
          · obtain rfl := Option.some.inj left
            unfold setFinishedSizeOnResume
            split_ifs <;> rfl
          · exact stays left
      | .digest d =>
          dsimp only at left
          split_ifs at left
          · exact onDigest_id present left
          · exact stays left
      | .block b =>
          obtain rfl := Option.some.inj left
          exact write_same.1
      | .done _ _ | .error _ _ _ =>
          dsimp only at left
          split_ifs at left
          exact stays left

variable {n : Int} {needOverride remember : Bool}

theorem onAnswer_id     (left : (c.onAnswer st n needOverride remember).job = some job') :
    ∃ job, c.job = some job ∧ job'.id = job.id := by
  unfold Client.onAnswer at left
  cases present : c.job with
  | none =>
      rw [present] at left
      cases present.symm.trans left
  | some job =>
      rw [present] at left
      obtain rfl := Option.some.inj left
      refine ⟨job, rfl, confirm_same.1.trans ?_⟩
      split_ifs <;> rfl

theorem step_id (left : (s.step ends event).client.job = some job') :
    ∃ job, s.client.job = some job ∧ job'.id = job.id := by
  cases event with
  | round faults turn =>
      change (s.round ends faults turn).client.job = _ at left
      unfold Download.round at left
      split at left <;> exact ⟨job', left, rfl⟩
  | receive now =>
      change (s.receive ends now).client.job = _ at left
      unfold Download.receive at left
      split at left
      · exact ⟨job', left, rfl⟩
      · exact onResponse_id left
  | confirm =>
      change (s.confirm ends).client.job = _ at left
      unfold Download.confirm at left
      split at left <;> exact ⟨job', left, rfl⟩
  | answer needOverride remember =>
      change (s.answer ends needOverride remember).client.job = _ at left
      unfold Download.answer at left
      split at left
      · exact ⟨job', left, rfl⟩
      · exact onAnswer_id left

/-- What is over stays over. -/
theorem Over.step (over_ : Over r s) (own : ∀ job, s.client.job = some job → job.id = r.id) :
    Over r (s.step ends event) := by
  cases over_ with
  | gone gone =>
      refine .gone (Option.eq_none_iff_forall_ne_some.mpr fun job' left => ?_)
      obtain ⟨job, present, -⟩ := step_id left
      cases gone.symm.trans present
  | @failed k err front back queue open_ =>
      cases event with
      | round faults turn =>
          change Over r (s.round ends faults turn)
          cases present : s.peer with
          | none =>
              rw [round_of_none present]
              exact .failed queue open_
          | some peer =>
              have later (sent : List Response) : s.toClient ++ sent =
                  front ++ .error r.id k err :: (back ++ sent) := by
                rw [queue, List.append_assoc, List.cons_append]
              rw [round_of_some present]
              exact .failed (later _) open_
      | receive now =>
          change Over r (s.receive ends now)
          unfold Download.receive
          rw [queue]
          cases front with
          | nil =>
              refine .gone ?_
              dsimp only [List.nil_append]
              unfold Client.onResponse
              cases present : s.client.job with
              | none => exact present
              | some job =>
                  dsimp only
                  rw [if_pos (own job present).symm]
          | cons x front => exact .failed rfl fun y member => open_ y (List.mem_cons_of_mem x member)
      | confirm =>
          change Over r (s.confirm ends)
          unfold Download.confirm
          split <;> exact .failed queue open_
      | answer needOverride remember =>
          change Over r (s.answer ends needOverride remember)
          unfold Download.answer
          split <;> exact .failed queue open_

end Over

section Round

variable {ends : Ends} {r : Request} {t : Tree} {fits : Fits ends r t} {s : Download}
  {job peer : TransferJob} {faults : Faults} {turn : Bool} {e : FileEntry} {content : Host.Bytes}
  {modified : Nat}

theorem Serves.id (serves : Serves r s peer) : peer.id = r.id := serves.same.1

theorem Serves.detection (serves : Serves r s peer) : peer.enableOverwriteDetection = true :=
  serves.same.2.2.2.2

/-- The client has an entry for every file of the peer. -/
theorem base_unlisted {st : Setting} :
    entry? (r.base st) n = none ↔ r.reads.entry? n = none := by
  have length : (Client.receivedEntries st r.files).length = r.files.length := by
    unfold Client.receivedEntries
    split_ifs
    · exact List.length_map _
    · rfl
  unfold entry?
  change (if n < 0 then none else (Client.receivedEntries st r.files)[n.toNat]?) = none ↔
    (if n < 0 then none else r.files[n.toNat]?) = none
  rw [ite_eq_left_iff, ite_eq_left_iff, List.getElem?_eq_none_iff, List.getElem?_eq_none_iff, length]

/-- An error that is sent ends the client's job. -/
theorem over_of_error {k : Int} {err : String} {front back : List Response} {peer' : Option TransferJob}
    (open_ : ∀ x ∈ front, x.isDone = false) :
    Over r { s with peer := peer', toClient := front ++ .error r.id k err :: back } :=
  .failed rfl open_

/-- The peer has got through its files. -/
theorem farewell_round (own : peer.id = r.id) (settled : Settled s)
    (leads : fits.plan.Leads s.skipped n job s.client.tree s.toClient) (current : 0 ≤ n)
    (past : fits.plan.base.entry? n = none) :
    Over r { s with peer := none, toClient := s.toClient ++ [peer.farewell] } ∨
      Phase ends r fits.plan t { s with peer := none, toClient := s.toClient ++ [peer.farewell] } job := by
  rcases @farewell_cases peer with done | ⟨err, error⟩
  · rw [done, own]
    exact .inr (.ended rfl ⟨settled.question, settled.delivered⟩ rfl leads current past)
  · rw [error, own]
    exact .inl (over_of_error leads.not_done)

theorem idle_round (serves : Serves r s peer) (idle : Idle peer) (closed : peer.stream = none)
    (settled : Settled s)
    (leads : fits.plan.Leads s.skipped peer.fileNum job s.client.tree s.toClient)
    (keeps : fits.plan.Keeps (peer.fileNum - 1) t s.client.tree) :
    Over r (s.round ends faults turn) ∨ Phase ends r fits.plan t (s.round ends faults turn) job := by
  have begun := @initJob_cases ends.peerLib ends.source peer faults
  rw [round_of_some serves.present, handleReadJob_of_active faults turn serves.active]
  generalize peer.initJob ends.peerLib ends.source faults = after at begun ⊢
  obtain ⟨peer', msgs⟩ := after
  dsimp only at begun ⊢
  cases begun with
  | past unlisted =>
      have idle' : Idle { peer with stream := none } := ⟨idle.confirmed, idle.waiting⟩
      cases turn with
      | false =>
          rw [if_neg Bool.false_ne_true, List.append_nil]
          exact .inr (.idle ⟨rfl, serves.same, serves.active, serves.current⟩ idle' rfl
            ⟨settled.question, settled.delivered⟩ leads keeps)
      | true =>
          rw [if_pos rfl, takeTurn_of_idle faults (by exact serves.detection) idle', List.nil_append]
          exact farewell_round serves.id settled leads serves.current
            (base_unlisted.mpr (serves.same.entry _ ▸ unlisted))
  | ready _ _ stream =>
      rw [closed] at stream
      cases stream
  | opened _ _ undetected => cases serves.detection.symm.trans undetected
  | @asked stream content modified listed fine detection file opened =>
      obtain ⟨e, entry, rfl⟩ := opened.resolve_left (by rw [closed]; exact Bool.false_ne_true)
      have place : peer.target ends.peerLib e = r.reads.target ends.peerLib e := by
        rw [target, target, serves.same.filePath]
      have entry' : r.reads.entry? peer.fileNum = some e := serves.same.entry _ ▸ entry
      rw [place] at file ⊢
      have waiting : Waiting { peer with
          stream := some ⟨r.reads.target ends.peerLib e, 0, .read⟩
          fileConfirmed := false
          fileIsWaiting := true } := ⟨rfl, rfl, rfl, listed⟩
      have digest : ({ id := peer.id, fileNum := peer.fileNum, lastModified := modified
                       fileSize := content.length, isResume := peer.isResume } : FileTransferDigest) =
          { id := r.id, fileNum := peer.fileNum, lastModified := modified
            fileSize := content.length } := by
        rw [serves.id, serves.same.2.2.2.1]
        rfl
      rw [takeTurn_of_waiting faults (by exact serves.detection) waiting, List.append_nil, ite_self,
        digest]
      exact .inr
        (.asked ⟨⟨⟨rfl, serves.same, serves.active, serves.current⟩, entry', file⟩, rfl, rfl, rfl⟩
        ⟨settled.question, settled.delivered⟩ rfl leads keeps)
  | unopened err =>
      rw [serves.id]
      split_ifs <;> exact .inl (over_of_error leads.not_done)
  | undigested err =>
      rw [serves.id]
      split_ifs <;> exact .inl (over_of_error leads.not_done)

section

variable (offers : Offers ends r s peer e content modified)

include offers

theorem Offers.known :
    r.original ends peer.fileNum = some (content, modified) := by
  rw [Request.original, offers.listed]
  dsimp only
  rw [offers.file]

theorem Offers.original :
    fits.plan.original peer.fileNum = some content := by
  change (r.original ends peer.fileNum).map Prod.fst = some content
  rw [offers.known]
  rfl

theorem Offers.place :
    peer.target ends.peerLib e = r.reads.target ends.peerLib e := by
  rw [target, target, offers.same.filePath]

theorem Offers.isFile :
    ends.source.isFile (r.reads.target ends.peerLib e) = true := by
  rw [FileTree.isFile, offers.file]

theorem Offers.clear (fits : Fits ends r t)
    (isDir : ends.source.node (peer.downloadPlace ends.peerLib e) = some .dir) :
    ends.source.exists_ (peer.digestPlace ends.peerLib e) = false := by
  rw [downloadPlace, offers.same.filePath] at isDir
  rw [digestPlace, offers.same.filePath]
  exact fits.clear e (mem_of_entry offers.listed) isDir

theorem Offers.entry :
    ∃ e', fits.plan.base.entry? peer.fileNum = some e' := by
  refine Option.ne_none_iff_exists'.mp fun unlisted => ?_
  cases (base_unlisted.mp unlisted).symm.trans offers.listed

end

/-- The peer waits for its confirmation. -/
theorem Asks.round (asks : Asks ends r s peer e content modified) : s.round ends faults turn = s := by
  have waiting : Waiting peer :=
    ⟨by rw [asks.stream]; rfl, asks.confirmed, asks.waiting, by rw [asks.same.entry, asks.listed]; rfl⟩
  rw [round_of_some asks.present,
    handleReadJob_of_waiting faults turn asks.active asks.detection waiting, List.append_nil,
    ← asks.present]

variable {pos : Option Nat}

/-- A block of the file, sent as it is or compressed, feeds the client. -/
theorem Offers.fed {from_ : Option Nat} {buf data : Host.Bytes} {compressed : Bool}
    (offers : Offers ends r s peer e content modified)
    (feed : fits.plan.Feed peer.fileNum content from_ s.toClient pos)
    (inside : pos.getD 0 ≤ content.length) (isPrefix : buf <+: content.drop (pos.getD 0))
    (encoded : data = if compressed then ends.peerLib.compress buf else buf) :
    pos.getD 0 + buf.length ≤ content.length ∧
      fits.plan.Feed peer.fileNum content from_
        (s.toClient ++ [.block ⟨peer.id, peer.fileNum, data, compressed⟩])
        (some (pos.getD 0 + buf.length)) := by
  have decoded : buf = if compressed then ends.st.lib.decompress data else data := by
    cases compressed with
    | false => exact encoded.symm
    | true =>
        rw [if_pos rfl] at encoded ⊢
        rw [encoded, fits.codec]
  have short := isPrefix.length_le
  rw [List.length_drop] at short
  exact ⟨by omega, feed.snoc offers.id rfl decoded isPrefix⟩

theorem sending_round {from_ : Option Nat} (offers : Offers ends r s peer e content modified)
    (confirmed : peer.fileConfirmed = true)
    (stream : peer.stream = some ⟨r.reads.target ends.peerLib e, pos.getD 0, .read⟩)
    (settled : Settled s) (inside : pos.getD 0 ≤ content.length)
    (reached : fits.plan.At s.skipped peer.fileNum from_ job s.client.tree)
    (feed : fits.plan.Feed peer.fileNum content from_ s.toClient pos)
    (keeps : fits.plan.Keeps peer.fileNum t s.client.tree) :
    Over r (s.round ends faults turn) ∨ Phase ends r fits.plan t (s.round ends faults turn) job := by
  have listed : (peer.entry? peer.fileNum).isSome = true := by
    rw [offers.same.entry, offers.listed]
    rfl
  have sending : Sending peer := ⟨by rw [stream]; rfl, confirmed, listed⟩
  have turned := @takeTurn_cases ends.peerLib ends.source peer faults
  rw [round_of_some offers.present, handleReadJob_of_sending faults turn offers.active sending]
  cases turn with
  | false =>
      rw [if_neg Bool.false_ne_true, List.append_nil]
      exact .inr
        (.sending ⟨⟨rfl, offers.same, offers.active, offers.current⟩, offers.listed, offers.file⟩
        confirmed stream ⟨settled.question, settled.delivered⟩ inside reached feed keeps)
  | true =>
      rw [if_pos rfl]
      generalize peer.takeTurn ends.peerLib ends.source faults = after at turned ⊢
      obtain ⟨peer', msgs⟩ := after
      dsimp only at turned ⊢
      cases turned with
      | waits _ unconfirmed => cases unconfirmed.symm.trans confirmed
      | stalls _ _ unlisted =>
          rw [unlisted] at listed
          cases listed
      | ended idle => cases (idle offers.detection).1.symm.trans confirmed
      | streamless _ closed => cases closed.symm.trans stream
      | @sent _ _ data _ _ compressed _ _ stream' mode file more encoded =>
          cases stream.symm.trans stream'
          cases offers.file.symm.trans file
          obtain ⟨inside', fed⟩ := offers.fed feed inside (List.take_prefix ..) encoded
          refine .inr
            (.sending ⟨⟨rfl, offers.same, offers.active, offers.current⟩, offers.listed,
            offers.file⟩
            confirmed rfl ⟨settled.question, settled.delivered⟩ ?_ reached fed keeps)
          exact inside'
      | last _ _ stream' mode file whole =>
          cases stream.symm.trans stream'
          cases offers.file.symm.trans file
          obtain ⟨e', listed'⟩ := offers.entry
          have done : pos.getD 0 + ([] : Host.Bytes).length = content.length := by
            rw [List.take_eq_nil_iff] at whole
            have past := List.drop_eq_nil_iff.mp (whole.resolve_left (by decide))
            exact le_antisymm inside past
          have empty : ([] : Host.Bytes) = if false then ends.peerLib.compress [] else [] := rfl
          obtain ⟨-, fed⟩ := offers.fed feed inside List.nil_prefix empty
          rw [done] at fed
          refine .inr
            (.idle ⟨rfl, offers.same, offers.active, Int.le_add_one offers.current⟩ ⟨rfl, rfl⟩ rfl
            ⟨settled.question, settled.delivered⟩ (.feed rfl listed' offers.original reached fed) ?_)
          change fits.plan.Keeps (peer.fileNum + 1 - 1) t s.client.tree
          rwa [Int.add_sub_cancel]
      | failed err =>
          rw [offers.id]
          exact .inl (over_of_error feed.not_done)

/-- The peer cannot read what it has opened for writing. -/
theorem stuck_round {stream : Stream} (serves : Serves r s peer)
    (listed : (peer.entry? peer.fileNum).isSome = true) (confirmed : peer.fileConfirmed = true)
    (open_ : peer.stream = some stream) (mode : stream.mode = .write) (settled : Settled s)
    (empty : s.toClient = []) :
    Over r (s.round ends faults turn) ∨ Phase ends r fits.plan t (s.round ends faults turn) job := by
  have sending : Sending peer := ⟨by rw [open_]; rfl, confirmed, listed⟩
  have turned := @takeTurn_cases ends.peerLib ends.source peer faults
  rw [round_of_some serves.present, handleReadJob_of_sending faults turn serves.active sending]
  cases turn with
  | false =>
      rw [if_neg Bool.false_ne_true, List.append_nil]
      exact .inr (.stuck ⟨rfl, serves.same, serves.active, serves.current⟩ listed confirmed open_ mode
        ⟨settled.question, settled.delivered⟩ empty)
  | true =>
      rw [if_pos rfl]
      generalize peer.takeTurn ends.peerLib ends.source faults = after at turned ⊢
      obtain ⟨peer', msgs⟩ := after
      dsimp only at turned ⊢
      have unread {stream' : Stream} (open' : peer.stream = some stream') : stream'.mode ≠ .read := by
        cases open_.symm.trans open'
        rw [mode]
        exact nofun
      cases turned with
      | waits _ unconfirmed => cases unconfirmed.symm.trans confirmed
      | stalls _ _ unlisted =>
          rw [unlisted] at listed
          cases listed
      | ended idle => cases (idle serves.detection).1.symm.trans confirmed
      | streamless _ closed => cases closed.symm.trans open_
      | sent _ _ open' mode' => exact absurd mode' (unread open')
      | last _ _ open' mode' => exact absurd mode' (unread open')
      | failed err =>
          rw [serves.id, empty]
          exact .inl (over_of_error (List.forall_mem_nil _))

theorem Phase.round (phase : Phase ends r fits.plan t s job) :
    Over r (s.round ends faults turn) ∨ Phase ends r fits.plan t (s.round ends faults turn) job := by
  have same := phase
  cases phase with
  | idle serves idle closed settled leads keeps =>
    exact idle_round serves idle closed settled leads keeps
  | asked asks | question asks | confirmed asks =>
      rw [asks.round]
      exact .inr same
  | sending offers confirmed stream settled inside reached feed keeps =>
      exact sending_round offers confirmed stream settled inside reached feed keeps
  | stuck serves listed confirmed open_ mode settled empty =>
      exact stuck_round serves listed confirmed open_ mode settled empty
  | ended gone =>
      rw [round_of_none gone]
      exact .inr same

end Round

section Confirm

variable {ends : Ends} {r : Request} {t : Tree} {fits : Fits ends r t} {s : Download}
  {job peer : TransferJob} {e : FileEntry} {content : Host.Bytes} {modified : Nat}

theorem confirm_of_delivered (delivered : s.client.sent.length = s.delivered) : s.confirm ends = s := by
  unfold Download.confirm
  rw [List.getElem?_eq_none delivered.le]

theorem confirm_of_sent {front : List SendConfirm} {m : SendConfirm}
    (sent : s.client.sent = front ++ [m]) (delivered : s.delivered = front.length)
    (present : s.peer = some peer) (own : m.id = peer.id) :
    s.confirm ends =
      { s with
        peer := some (peer.confirm ends.peerLib ends.source m)
        delivered := s.delivered + 1 } := by
  have next : s.client.sent[s.delivered]? = some m := by
    rw [sent, delivered, List.getElem?_concat_length]
  unfold Download.confirm
  rw [next, present]
  dsimp only
  rw [Option.map_some, if_pos own]

/-- No file has less than what the client has of it. -/
theorem inside_of_at {plan : Plan} {skipped : Int → Prop}     (reached : plan.At skipped n pos job t) (original : plan.original n = some content) :
    pos.getD 0 ≤ content.length := by
  cases pos with
  | none => exact Nat.zero_le _
  | some pos =>
      have progress : plan.Progress skipped n pos job t := reached
      obtain ⟨_, _, front, _, _, original', _, _, isPrefix, inside⟩ := progress.open_
      cases original.symm.trans original'
      exact inside.trans isPrefix.length_le

theorem Phase.confirm (phase : Phase ends r fits.plan t s job) :
    Phase ends r fits.plan t (s.confirm ends) job := by
  have same := phase
  cases phase with
  | idle _ _ _ settled | asked _ settled | sending _ _ _ settled | stuck _ _ _ _ _ settled
  | ended _ settled =>
      rwa [confirm_of_delivered settled.delivered]
  | question _ _ delivered => rwa [confirm_of_delivered delivered]
  | @confirmed peer e content modified front u asks question sent delivered empty agreed keeps =>
      have delivered' : s.client.sent.length = s.delivered + 1 := by
        rw [sent, delivered, List.length_append, List.length_singleton]
      have listed : peer.entry? peer.fileNum = some e := by rw [asks.same.entry, asks.listed]
      rw [confirm_of_sent sent delivered asks.present asks.id.symm]
      cases agreed with
      | skip ready =>
          rw [confirm_of_skip rfl rfl]
          have serves : Serves r
              { s with peer := some peer.setFileSkipped, delivered := s.delivered + 1 }
              peer.setFileSkipped :=
            ⟨rfl, asks.same, asks.active, Int.le_add_one asks.current⟩
          refine .idle serves ⟨rfl, rfl⟩ rfl ⟨question, delivered'⟩ ?_ ?_
          · change fits.plan.Leads s.skipped (peer.fileNum + 1) job s.client.tree s.toClient
            rw [empty]
            exact .ready ready
          · change fits.plan.Keeps (peer.fileNum + 1 - 1) t s.client.tree
            rw [Int.add_sub_cancel]
            exact keeps.mono (Int.sub_le_self _ Int.one_nonneg)
      | @offset pos reached =>
          obtain ⟨stream, transferred, finishedSize, shape, kind⟩ := @confirm_stream ends.peerLib
            ends.source peer ⟨r.id, peer.fileNum, some (.offsetBlk (pos.getD 0))⟩ (pos.getD 0) e rfl rfl
            (asks.place ▸ asks.stream) listed (asks.place ▸ asks.isFile) (asks.clear fits)
          rw [shape]
          rw [asks.place] at kind
          rcases kind with rfl | mode
          · exact .sending ⟨⟨rfl, asks.same, asks.active, asks.current⟩, asks.listed, asks.file⟩ rfl rfl
              ⟨question, delivered'⟩ (inside_of_at reached asks.original) reached
              (by rw [empty]; exact .nil) (keeps.mono (Int.sub_le_self _ Int.one_nonneg))
          · have isListed : (peer.entry? peer.fileNum).isSome = true := by
              rw [listed]
              rfl
            exact .stuck ⟨rfl, asks.same, asks.active, asks.current⟩ isListed rfl rfl mode
              ⟨question, delivered'⟩ empty

end Confirm

section Agree

variable {ends : Ends} {r : Request} {t : Tree} {fits : Fits ends r t} {s : Download}
  {job peer : TransferJob} {e : FileEntry} {content : Host.Bytes} {modified : Nat}

/-- The client confirms a file to its own job and to the peer. -/
theorem goes_of_answer {u : ConfirmUnion} (asks : Asks ends r s peer e content modified)
    (delivered : s.client.sent.length = s.delivered) (sound : fits.plan.Sound job s.client.tree)
    (ready : fits.plan.Ready s.skipped peer.fileNum job s.client.tree)
    (keeps : fits.plan.Keeps (peer.fileNum - 1) t s.client.tree)
    (answer : fits.plan.Answer peer.fileNum job s.client.tree u) :
    Goes ends r fits.plan t
      { s with
        client := { s.client with question := none }.confirmBoth ends.st job peer.fileNum u
        toClient := [] } := by
  have own : job.id = r.id := sound.same.1
  have sent : s.client.sent ++ [⟨job.id, peer.fileNum, some u⟩] =
      s.client.sent ++ [⟨r.id, peer.fileNum, some u⟩] := by rw [own]
  have agreed := @Plan.Ready.agree fits.plan s.skipped peer.fileNum job.id job s.client.tree
    (fun i => ∃ m ∈ s.client.sent ++ [⟨job.id, peer.fileNum, some u⟩],
      m.fileNum = i ∧ m.union = some (.skip true)) u ready sound.same answer ?_ ?_
  · exact ⟨_, rfl, ⟨sound.same.trans confirm_same, sound.usable⟩, .confirmed
      ⟨⟨⟨asks.present, asks.same, asks.active, asks.current⟩, asks.listed, asks.file⟩,
        asks.stream, asks.confirmed, asks.waiting⟩ rfl sent delivered.symm rfl agreed keeps⟩
  · rintro i ⟨m, member, skip⟩
    exact ⟨m, List.mem_append_left _ member, skip⟩
  · intro skip
    exact ⟨_, List.mem_append_right _ (List.mem_singleton_self _), rfl, congrArg some skip⟩

theorem answer_of_unasked (unasked : s.client.question = none) :
    s.answer ends needOverride remember = s := by
  unfold Download.answer
  rw [unasked]

theorem Goes.answer (goes : Goes ends r fits.plan t s) :
    Goes ends r fits.plan t (s.answer ends needOverride remember) := by
  have same := goes
  obtain ⟨job, present, sound, phase⟩ := goes
  cases phase with
  | idle _ _ _ settled | asked _ settled | sending _ _ _ settled | stuck _ _ _ _ _ settled
  | ended _ settled =>
      rwa [answer_of_unasked settled.question]
  | confirmed _ unasked => rwa [answer_of_unasked unasked]
  | @question peer _ _ _ asks question delivered empty ready keeps =>
      let told := if remember then { job with defaultOverwriteStrategy := some needOverride } else job
      have stays : told.stream = job.stream ∧ told.fileNum = job.fileNum ∧ Same job told := by
        cases remember <;> exact ⟨rfl, rfl, .refl⟩
      obtain ⟨stream, current, alike⟩ := stays
      have answered : s.answer ends needOverride remember =
          { s with
            client := { s.client with question := none }.confirmBoth ends.st told peer.fileNum
              (overrideUnion needOverride)
            toClient := [] } := by
        unfold Download.answer Client.onAnswer
        rw [question, present, ← empty]
        rfl
      have answer : fits.plan.Answer peer.fileNum told s.client.tree (overrideUnion needOverride) := by
        cases needOverride with
        | false => exact .skip
        | true => exact .whole
      rw [answered]
      exact goes_of_answer asks delivered ⟨sound.same.trans alike, sound.usable⟩
        (ready.congr stream current) keeps answer

end Agree

section Receive

variable {ends : Ends} {r : Request} {t : Tree} {fits : Fits ends r t} {s : Download}
  {job peer : TransferJob} {e : FileEntry} {content : Host.Bytes} {modified now : Nat} {n : Int}
  {x : Response} {rest queue : List Response}

theorem receive_of_nil (empty : s.toClient = []) : s.receive ends now = s := by
  unfold Download.receive
  rw [empty]

theorem receive_of_cons (head : s.toClient = x :: rest) :
    s.receive ends now = { s with client := s.client.onResponse ends.st now x, toClient := rest } := by
  unfold Download.receive
  rw [head]

theorem onResponse_block {c : Client} {b : FileTransferBlock} {job' : TransferJob} {t' : Tree}
    {result : Except String Unit} (present : c.job = some job)
    (written : job.write ends.st.lib now b c.tree = (job', t', result)) :
    c.onResponse ends.st now (.block b) = { c with job := some job', tree := t' } := by
  unfold Client.onResponse
  rw [present]
  dsimp only
  rw [written]

/-- What is under way to the client is taken, block by block. -/
theorem receive_leads (present : s.client.job = some job) (sound : fits.plan.Sound job s.client.tree)
    (head : s.toClient = x :: rest)
    (leads : fits.plan.Leads s.skipped n job s.client.tree (x :: queue)) :
    ∃ job' t', s.receive ends now =
        { s with client := { s.client with job := some job', tree := t' }, toClient := rest } ∧
      fits.plan.Sound job' t' ∧ fits.plan.Keeps (n - 1) s.client.tree t' ∧
      fits.plan.Leads s.skipped n job' t' queue := by
  obtain ⟨b, job', t', rfl, written, sound', keeps, leads'⟩ :=
    @Plan.Leads.write fits.plan s.skipped n job s.client.tree queue x now leads sound
  refine ⟨job', t', ?_, sound', keeps, leads'⟩
  rw [receive_of_cons head, onResponse_block present written]

/-- An offset that is not lost is where the client can go on. -/
theorem resumes_of_leftover {d : FileTransferDigest} {e' : FileEntry} {k : Nat}
    (sound : fits.plan.Sound job s.client.tree) (listed : fits.plan.base.entry? n = some e')
    (keeps : fits.plan.Keeps (n - 1) t s.client.tree) (leftovers : Leftovers ends r t)
    (original : r.original ends n = some (content, modified))
    (left : leftover ends.st.lib s.client.tree (job.downloadPlace ends.st.lib e')
      (job.digestPlace ends.st.lib e') d = some k)
    (time : d.lastModified = modified) (size : d.fileSize = content.length)
    (positive : 0 < k % 2 ^ 32) (current : job.fileNum = n) :
    fits.plan.Resumes n (k % 2 ^ 32) job s.client.tree := by
  have before := Int.sub_lt_self n Int.one_pos
  have download : s.client.tree.node (fits.plan.base.downloadPlace ends.st.lib e') =
      t.node (fits.plan.base.downloadPlace ends.st.lib e') := keeps n e' before listed _ download_mem
  have digest : s.client.tree.node (fits.plan.base.digestPlace ends.st.lib e') =
      t.node (fits.plan.base.digestPlace ends.st.lib e') := keeps n e' before listed _ digest_mem
  have place : job.downloadPlace ends.st.lib e' = fits.plan.base.downloadPlace ends.st.lib e' := by
    rw [downloadPlace, downloadPlace, sound.same.filePath]
  have place' : job.digestPlace ends.st.lib e' = fits.plan.base.digestPlace ends.st.lib e' := by
    rw [digestPlace, digestPlace, sound.same.filePath]
  rw [place, place'] at left
  have left : leftover ends.st.lib t (fits.plan.base.downloadPlace ends.st.lib e')
      (fits.plan.base.digestPlace ends.st.lib e')
      { id := r.id, fileNum := n, lastModified := modified, fileSize := content.length } = some k :=
    (leftover_congr download digest size time).symm.trans left
  obtain ⟨front, m, file, exists_, rfl, -⟩ := leftover_eq_some left
  have original' : fits.plan.original n = some content := by
    change (r.original ends n).map Prod.fst = some content
    rw [original]
    rfl
  have isPrefix : front <+: content :=
    leftovers n e' content modified _ front m listed original left file
  refine ⟨current, positive, e', content, front, m, listed, original', download.trans file, ?_,
    isPrefix,
    Nat.mod_le ..⟩
  exact (congrArg Option.isSome digest).trans exists_

/-- The client takes the digest of a file. -/
theorem receive_digest (asks : Asks ends r s peer e content modified) (settled : Settled s)
    (present : s.client.job = some job) (sound : fits.plan.Sound job s.client.tree)
    (last : s.toClient = [.digest { id := r.id, fileNum := peer.fileNum
                                    lastModified := modified, fileSize := content.length }])
    (ready : fits.plan.Ready s.skipped peer.fileNum job s.client.tree)
    (keeps : fits.plan.Keeps (peer.fileNum - 1) t s.client.tree) (leftovers : Leftovers ends r t)
    (kept : s.losesOffset ends (.receive now) = false) :
    Goes ends r fits.plan t (s.receive ends now) := by
  obtain ⟨e', listed⟩ := @Offers.entry ends r t fits s peer e content modified asks.toOffers
  let d : FileTransferDigest :=
    { id := r.id, fileNum := peer.fileNum, lastModified := modified, fileSize := content.length }
  let told : TransferJob := { job with digest := ⟨d.fileSize, d.lastModified⟩ }
  have same : Same fits.plan.base told := sound.same
  have taken : s.client.onResponse ends.st now (.digest d) = s.client.onDigest ends.st d job := by
    unfold Client.onResponse
    rw [present]
    dsimp only
    rw [if_pos ⟨sound.same.1.symm, rfl⟩]
  have unasked : { s.client with question := none } = s.client := by
    rw [← settled.question]
  rw [receive_of_cons last, taken]
  rcases @Client.onDigest_cases d ends.st s.client job e' ((sound.same.entry _).trans listed) with
    asked | ⟨u, both, kind⟩
  · rw [asked]
    exact ⟨told, rfl, ⟨same, sound.usable⟩, .question
      ⟨⟨⟨asks.present, asks.same, asks.active, asks.current⟩, asks.listed, asks.file⟩,
        asks.stream, asks.confirmed,
          asks.waiting⟩ rfl settled.delivered rfl (ready.congr rfl rfl) keeps⟩
  · have answer : fits.plan.Answer peer.fileNum told s.client.tree u := by
      rcases kind with rfl | rfl | ⟨k, left, rfl, offset⟩
      · exact .skip
      · exact .whole
      · rcases Nat.eq_zero_or_pos (k % 2 ^ 32) with zero | positive
        · rw [zero]
          exact .whole
        · have current : told.fileNum = peer.fileNum := by
            by_contra elsewhere
            have lost : s.losesOffset ends (.receive now) = true := by
              unfold losesOffset
              rw [last, present]
              dsimp only
              rw [offset, Bool.and_eq_true_iff, decide_eq_true_iff, decide_eq_true_iff]
              exact ⟨elsewhere, positive⟩
            cases kept.symm.trans lost
          exact .resume (resumes_of_leftover ⟨same, sound.usable⟩ listed keeps leftovers asks.known left
            rfl rfl positive current)
    rw [both, ← unasked]
    exact goes_of_answer asks settled.delivered ⟨same, sound.usable⟩ (ready.congr rfl rfl) keeps answer

theorem onResponse_done {c : Client} {k : Int} (present : c.job = some job) (own : job.id = r.id) :
    c.onResponse ends.st now (.done r.id k) =
      { c with job := none, tree := (job.modifyTime ends.st.lib c.tree).2 } := by
  unfold Client.onResponse
  rw [present]
  dsimp only
  rw [if_pos own.symm]

theorem Goes.receive (goes : Goes ends r fits.plan t s) (leftovers : Leftovers ends r t)
    (kept : s.losesOffset ends (.receive now) = false) :
    Over r (s.receive ends now) ∨ Goes ends r fits.plan t (s.receive ends now) := by
  have same := goes
  obtain ⟨job, present, sound, phase⟩ := goes
  cases phase with
  | question _ _ _ empty | confirmed _ _ _ _ empty | stuck _ _ _ _ _ _ empty =>
      rw [receive_of_nil empty]
      exact .inr same
  | idle serves idle closed settled leads keeps =>
      cases head : s.toClient with
      | nil =>
          rw [receive_of_nil head]
          exact .inr same
      | cons x rest =>
          rw [head] at leads
          obtain ⟨job', t', taken, sound', keeps', leads'⟩ :=
            @receive_leads ends r t fits s job now _ x rest rest present sound head leads
          rw [taken]
          exact .inr ⟨job', rfl, sound',
            .idle ⟨serves.present, serves.same, serves.active, serves.current⟩
            idle closed ⟨settled.question, settled.delivered⟩ leads' (keeps.trans keeps')⟩
  | @asked peer e content modified queue asks settled last leads keeps =>
      cases queue with
      | nil => exact .inr (receive_digest asks settled present sound last leads.to_ready keeps leftovers kept)
      | cons x queue =>
          obtain ⟨job', t', taken, sound', keeps', leads'⟩ :=
            @receive_leads ends r t fits s job now _ x _ queue present sound last leads
          rw [taken]
          exact .inr ⟨job', rfl, sound', .asked
            ⟨⟨⟨asks.present, asks.same, asks.active, asks.current⟩, asks.listed, asks.file⟩,
              asks.stream, asks.confirmed, asks.waiting⟩
            ⟨settled.question, settled.delivered⟩ rfl leads' (keeps.trans keeps')⟩
  | @sending peer e content modified pos pos' offers confirmed stream settled inside reached feed keeps =>
      cases head : s.toClient with
      | nil =>
          rw [receive_of_nil head]
          exact .inr same
      | cons x rest =>
          rw [head] at feed
          obtain ⟨e', listed⟩ := @Offers.entry ends r t fits s peer e content modified offers
          obtain ⟨b, job', t', next, rfl, written, sound', keeps', reached', feed'⟩ :=
            @Plan.Feed.write fits.plan s.skipped _ job s.client.tree e' content _ _ _ x now feed reached
              sound listed offers.original
          rw [receive_of_cons head, onResponse_block present written]
          exact .inr ⟨job', rfl, sound', .sending
            ⟨⟨offers.present, offers.same, offers.active, offers.current⟩, offers.listed, offers.file⟩
            confirmed stream ⟨settled.question, settled.delivered⟩ inside reached' feed'
            (keeps.trans keeps')⟩
  | @ended n k queue gone settled last leads current past =>
      cases queue with
      | nil =>
          rw [receive_of_cons last, onResponse_done present sound.same.1]
          exact .inl (.gone rfl)
      | cons x queue =>
          obtain ⟨job', t', taken, sound', -, leads'⟩ :=
            @receive_leads ends r t fits s job now _ x _ queue present sound last leads
          rw [taken]
          exact .inr ⟨job', rfl, sound', .ended gone ⟨settled.question, settled.delivered⟩ rfl leads'
            current past⟩

end Receive

section Runs

variable {ends : Ends} {r : Request} {t : Tree} {fits : Fits ends r t} {s : Download}

theorem Goes.round {faults : Faults} {turn : Bool} (goes : Goes ends r fits.plan t s) :
    Over r (s.round ends faults turn) ∨ Goes ends r fits.plan t (s.round ends faults turn) := by
  obtain ⟨job, present, sound, phase⟩ := goes
  have client : (s.round ends faults turn).client = s.client := by
    unfold Download.round
    split <;> rfl
  rcases phase.round with over_ | phase'
  · exact .inl over_
  · refine .inr ⟨job, ?_, ?_, phase'⟩
    · rw [client, present]
    · rwa [client]

theorem Goes.confirm (goes : Goes ends r fits.plan t s) : Goes ends r fits.plan t (s.confirm ends) := by
  obtain ⟨job, present, sound, phase⟩ := goes
  have client : (s.confirm ends).client = s.client := by
    unfold Download.confirm
    split <;> rfl
  refine ⟨job, ?_, ?_, phase.confirm⟩
  · rw [client, present]
  · rwa [client]

theorem Inv.step {event : DownloadEvent} (inv : Inv ends r fits.plan t s)
    (leftovers : Leftovers ends r t)
    (kept : s.losesOffset ends event = false) : Inv ends r fits.plan t (s.step ends event) := by
  constructor
  · intro job' left
    obtain ⟨job, present, same⟩ := step_id left
    exact same.trans (inv.own job present)
  · rcases inv.phase with over_ | goes
    · exact .inl (over_.step inv.own)
    · cases event with
      | round faults turn => exact goes.round
      | receive now => exact goes.receive leftovers kept
      | confirm => exact .inr goes.confirm
      | answer needOverride remember => exact .inr goes.answer

theorem start_client : ∃ finishedSize, (start ends r t).client =
    { job := some { r.base ends.st with finishedSize := finishedSize }, tree := t } := by
  have told : (start ends r t).client =
      { job := some (r.base ends.st).setFinishedSizeOnResume, tree := t } := by
    unfold start Client.onResponse
    exact if_pos rfl
  rw [told]
  unfold setFinishedSizeOnResume
  split_ifs
  · exact ⟨_, rfl⟩
  · exact ⟨_, rfl⟩

theorem inv_start : Inv ends r fits.plan t (start ends r t) := by
  obtain ⟨finishedSize, client⟩ := @start_client ends r t
  have shape : start ends r t =
      { peer := some r.reads
        client := { job := some { r.base ends.st with finishedSize := finishedSize }, tree := t } } := by
    rw [← client]
    rfl
  rw [shape]
  refine ⟨?_, .inr ⟨_, rfl, ⟨.refl, fits.usable⟩, ?_⟩⟩
  · rintro job' ⟨⟩
    rfl
  · refine .idle ⟨rfl, .refl, rfl, fits.first⟩ ⟨rfl, rfl⟩ rfl ⟨rfl, rfl⟩ (.ready (.fresh rfl rfl ?_))
      fun _ _ _ _ _ _ => rfl
    intro j e first before
    exact absurd before (not_lt.mpr first)

/-- Every file that was not skipped is there with the content it has on the other side. -/
def Received (ends : Ends) (r : Request) (s : Download) : Prop :=
  ∀ i e, r.fileNum ≤ i → entry? (r.base ends.st) i = some e → ¬ s.skipped i →
    ∃ content before modified, r.original ends i = some (content, before) ∧
      s.client.tree.node ((r.base ends.st).target ends.st.lib e) = some (.file content modified)

theorem lt_of_listed {job : TransferJob} {i : Int} {e : FileEntry} (listed : job.entry? i = some e)
    (past : job.entry? n = none) (current : 0 ≤ n) : i < n := by
  unfold entry? at listed past
  rw [if_neg (not_lt.mpr current), List.getElem?_eq_none_iff] at past
  split_ifs at listed
  obtain ⟨inside, -⟩ := List.getElem?_eq_some_iff.mp listed
  omega

theorem Goes.received {now : Nat} {k : Int} {rest : List Response} (goes : Goes ends r fits.plan t s)
    (head : s.toClient = .done r.id k :: rest) : Received ends r (s.receive ends now) := by
  obtain ⟨job, present, sound, phase⟩ := goes
  cases phase with
  | question _ _ _ empty | confirmed _ _ _ _ empty | stuck _ _ _ _ _ _ empty =>
      cases empty.symm.trans head
  | idle _ _ _ _ leads => cases leads.not_done _ (head ▸ List.mem_cons_self ..)
  | sending _ _ _ _ _ _ feed => cases feed.not_done _ (head ▸ List.mem_cons_self ..)
  | @asked _ _ _ _ queue _ _ last leads =>
      cases queue with
      | nil => cases last.symm.trans head
      | cons x queue =>
          obtain ⟨rfl, -⟩ := List.cons.inj (last.symm.trans head)
          cases leads.not_done _ (List.mem_cons_self ..)
  | @ended n k' queue gone settled last leads current past =>
      cases queue with
      | cons x queue =>
          obtain ⟨rfl, -⟩ := List.cons.inj (last.symm.trans head)
          cases leads.not_done _ (List.mem_cons_self ..)
      | nil =>
          obtain ⟨-, finished, -⟩ := leads.to_ready.modifyTime sound.same sound.usable
          rw [receive_of_cons last, onResponse_done present sound.same.1]
          intro i e first listed unskipped
          obtain ⟨content, modified, original, file⟩ :=
            finished i e first (lt_of_listed listed past current) listed unskipped
          obtain ⟨⟨_, before⟩, known, rfl⟩ := Option.map_eq_some_iff.mp original
          exact ⟨_, before, modified, known, file⟩

/-- A download that is done while the client still has its job has brought every file that
    was not skipped, unless the client has asked for an offset in a file that its own job
    was not at. -/
theorem done_with_right_bytes (ends : Ends) (r : Request) (t : Tree) (events : List DownloadEvent)
    (fits : Fits ends r t) (leftovers : Leftovers ends r t)
    (kept : Along (step ends) (fun s event => s.losesOffset ends event = false)
    (start ends r t) events) :
    Always (step ends)
      (fun s => ∀ now k rest, s.toClient = .done r.id k :: rest → s.client.job.isSome = true →
        Received ends r (s.receive ends now))
      (start ends r t) events := by
  have always : Always (step ends) (Inv ends r fits.plan t) (start ends r t) events :=
    Runs.always_of_along (fun s event inv kept => inv.step leftovers kept) inv_start kept
  refine always.mono fun s inv now k rest head present => ?_
  rcases inv.phase with over_ | goes
  · exfalso
    cases over_ with
    | gone gone =>
        rw [gone] at present
        cases present
    | @failed _ _ front _ queue open_ =>
        rw [head] at queue
        cases front with
        | nil => cases queue
        | cons x front =>
            obtain ⟨rfl, -⟩ := List.cons.inj queue
            cases open_ _ (List.mem_cons_self ..)
  · exact goes.received head

/-! A digest file has the size and the time of the file as two bytes. -/

def sampleLibrary : Library where
  windows := false
  compress := id
  decompress := id
  encodeDigest d := [.ofNat d.size, .ofNat d.modified]
  decodeDigest
    | [size, modified] => some ⟨size.toNat, modified.toNat⟩
    | _ => none

def sampleEnds : Ends where
  st := ⟨sampleLibrary, false, true⟩
  peerLib := sampleLibrary
  source := ⟨fun p =>
    if p = [['s']] then some .dir
    else if p = [['s'], ['a']] ∨ p = [['s'], ['b']] then some (.file [1, 2, 3] 7)
    else none, []⟩

def sampleTree : Tree where
  node p :=
    if p = [['d']] then some .dir
    else if p = [['d'], 'b' :: downloadSuffix] then some (.file [1] 5)
    else if p = [['d'], 'b' :: digestSuffix] then some (.file [3, 7] 5)
    else none
  touched := []

def sampleRequest (fileNum : Int) : Request where
  id := 1
  path := ['/', 's']
  folder := ['/', 'd']
  fileNum := fileNum
  files := [⟨['a'], 7, 3⟩, ⟨['b'], 7, 3⟩]
  isResume := true

theorem sample_entry {fileNum i : Int} {e : FileEntry}
    (listed : entry? ((sampleRequest fileNum).base sampleEnds.st) i = some e) :
    i = 0 ∧ e = ⟨['a'], 7, 3⟩ ∨ i = 1 ∧ e = ⟨['b'], 7, 3⟩ := by
  unfold entry? at listed
  split_ifs at listed with negative
  match index : i.toNat with
  | 0 =>
      rw [index] at listed
      exact .inl ⟨by omega, (Option.some.inj listed).symm⟩
  | 1 =>
      rw [index] at listed
      exact .inr ⟨by omega, (Option.some.inj listed).symm⟩
  | n + 2 =>
      rw [index] at listed
      cases listed

theorem sample_laid (fileNum : Int) :
    Laid sampleEnds.st.lib ((sampleRequest fileNum).base sampleEnds.st) := by
  have laid : Laid sampleEnds.st.lib ((sampleRequest 0).base sampleEnds.st) := by
    refine ⟨by decide +kernel, by decide +kernel, ?_⟩
    intro j k e e' different listed listed'
    rcases sample_entry listed with ⟨rfl, rfl⟩ | ⟨rfl, rfl⟩ <;>
      rcases sample_entry listed' with ⟨rfl, rfl⟩ | ⟨rfl, rfl⟩
    · exact absurd rfl different
    · decide +kernel
    · decide +kernel
    · exact absurd rfl different
  exact laid.of_same ⟨rfl, rfl, rfl, rfl, rfl⟩

theorem sample_usable (fileNum : Int) :
    Usable sampleEnds.st.lib ((sampleRequest fileNum).base sampleEnds.st) sampleTree := by
  have usable : Usable sampleEnds.st.lib ((sampleRequest 0).base sampleEnds.st) sampleTree := by
    have noFile : ∀ e ∈ ((sampleRequest 0).base sampleEnds.st).files,
        ∀ q ∈ parents false (((sampleRequest 0).base sampleEnds.st).filePath sampleLibrary e),
          sampleTree.isFile q = false := by decide +kernel
    refine ⟨by decide +kernel, ?_, by decide +kernel⟩
    intro e member q above content modified file
    have isFile := noFile e member q above
    rw [FileTree.isFile, file] at isFile
    cases isFile
  have alike :
      Same ((sampleRequest 0).base sampleEnds.st) ((sampleRequest fileNum).base sampleEnds.st) :=
    ⟨rfl, rfl, rfl, rfl, rfl⟩
  exact (Usable.iff_same alike).mpr usable

theorem sample_fits {fileNum : Int} (first : 0 ≤ fileNum) :
    Fits sampleEnds (sampleRequest fileNum) sampleTree where
  codec := fun _ => rfl
  first := first
  laid := sample_laid fileNum
  usable := sample_usable fileNum
  clear := by
    have clear : ∀ e ∈ (sampleRequest 0).files,
        sampleEnds.source.node ((sampleRequest 0).reads.downloadPlace sampleEnds.peerLib e) =
            some .dir →
          sampleEnds.source.exists_ ((sampleRequest 0).reads.digestPlace sampleEnds.peerLib e) =
            false := by decide +kernel
    exact clear

theorem sample_leftovers (fileNum : Int) :
    Leftovers sampleEnds (sampleRequest fileNum) sampleTree := by
  intro i e content modified k front m listed original left file
  rcases sample_entry listed with ⟨rfl, rfl⟩ | ⟨rfl, rfl⟩
  · have absent : sampleTree.node
        (((sampleRequest fileNum).base sampleEnds.st).downloadPlace sampleEnds.st.lib ⟨['a'], 7, 3⟩) =
          none := by rfl
    cases absent.symm.trans file
  · have there : sampleTree.node
        (((sampleRequest fileNum).base sampleEnds.st).downloadPlace sampleEnds.st.lib ⟨['b'], 7, 3⟩) =
          some (.file [1] 5) := by rfl
    have known : (sampleRequest fileNum).original sampleEnds 1 = some ([1, 2, 3], 7) := by rfl
    cases there.symm.trans file
    cases known.symm.trans original
    decide

/-- The transfer begins with the second file: what is left of it is used. -/
theorem resumed_first_file_arrives :
    let s := exec (step sampleEnds) (start sampleEnds (sampleRequest 1) sampleTree)
      [.round {} true, .receive 9, .confirm, .round {} true, .round {} true, .receive 9, .receive 9,
        .round {} true]
    s.client.sent = [⟨1, 1, some (.offsetBlk 1)⟩] ∧ s.toClient = [.done 1 2] ∧
      Received sampleEnds (sampleRequest 1) (s.receive sampleEnds 9) := by
  refine ⟨by decide +kernel, by decide +kernel, ?_⟩
  exact (done_with_right_bytes sampleEnds (sampleRequest 1) sampleTree _ (sample_fits (by decide))
    (sample_leftovers 1) (by decide +kernel)).last 9 2 [] (by decide +kernel) (by decide +kernel)

/-- The transfer begins with the first file: the second one is asked for from its second
    byte, written from its first, and done. -/
theorem resumed_second_file_loses_beginning :
    let s := exec (step sampleEnds) (start sampleEnds (sampleRequest 0) sampleTree)
      [.round {} true, .receive 9, .confirm, .round {} true, .round {} true, .receive 9, .receive 9,
        .round {} true, .receive 9, .confirm, .round {} true, .round {} true, .receive 9, .receive 9,
        .round {} true]
    Fits sampleEnds (sampleRequest 0) sampleTree ∧ Leftovers sampleEnds (sampleRequest 0) sampleTree ∧
      s.toClient = [.done 1 2] ∧ s.client.job.isSome = true ∧
      s.client.sent = [⟨1, 0, some (.offsetBlk 0)⟩, ⟨1, 1, some (.offsetBlk 1)⟩] ∧
      (s.receive sampleEnds 9).client.tree.node [['d'], ['b']] = some (.file [2, 3] 7) ∧
      ¬ Received sampleEnds (sampleRequest 0) (s.receive sampleEnds 9) := by
  intro s
  have sent : s.client.sent = [⟨1, 0, some (.offsetBlk 0)⟩, ⟨1, 1, some (.offsetBlk 1)⟩] := by
    decide +kernel
  have written : (s.receive sampleEnds 9).client.tree.node [['d'], ['b']] = some (.file [2, 3] 7) := by
    decide +kernel
  refine ⟨sample_fits le_rfl, sample_leftovers 0,
    by decide +kernel, by decide +kernel, sent, written, ?_⟩
  intro received
  have unskipped : ¬ (s.receive sampleEnds 9).skipped 1 := by
    rintro ⟨m, member, -, skip⟩
    have sent' : (s.receive sampleEnds 9).client.sent =
        [⟨1, 0, some (.offsetBlk 0)⟩, ⟨1, 1, some (.offsetBlk 1)⟩] := by decide +kernel
    rw [sent', List.mem_pair] at member
    rcases member with rfl | rfl
    · cases skip
    · cases skip
  obtain ⟨content, before, modified, known, file⟩ := received 1 ⟨['b'], 7, 3⟩ (by decide) rfl unskipped
  cases known
  cases written.symm.trans file

end Runs

end Download

end RemoteControl.Transfer
