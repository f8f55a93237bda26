import RemoteControl.Clipboard.FileRanges

/-! # Reads of the file system

`FuseServer::read_node` sends a request and waits on the one channel on which all replies
come in. A reply is taken for the answer if it has the stream id of the file, and that is
all it says: an answer that comes after its read has given up is still there for the next
read of the same file, whatever part of the file that asks for.

The server reads one file at a time. The peer answers each request at most once, as late
as it likes and in any order.
-/

namespace RemoteControl.Clipboard

/-- A call of `read_node`. -/
structure Ask (ι : Type*) where
  node : ι
  offset : Int64
  size : UInt32
  deriving DecidableEq

/-- What comes in on the channel. A response does not say which request it answers. -/
inductive Message (ι : Type*) where
  | response (ask : Ask ι) (msgFlags : Int32) (requestedData : Bytes)
  | other
  deriving DecidableEq

/-- What a read has returned, and where it came from. -/
structure Returned (ι : Type*) where
  call : Ask ι
  data : Bytes
  source : Message ι
  deriving DecidableEq

structure Fuse (ι : Type*) where
  /-- The read that waits, and how often it has asked again. -/
  reading : Option (Ask ι × Nat) := none
  /-- Requests that the peer has not answered yet. -/
  outstanding : List (Ask ι) := []
  channel : List (Message ι) := []
  returned : List (Returned ι) := []

inductive FuseEvent (ι : Type*) where
  /-- A call, and whether the request can be sent. -/
  | read (ask : Ask ι) (sent : Bool)
  /-- The peer answers one of the requests. -/
  | reply (i : Nat) (msgFlags : Int32) (requestedData : Bytes)
  | junk
  /-- The read takes a message, and can ask again or not. -/
  | receive (sent : Bool)
  /-- `recv_timeout` finds nothing in time. -/
  | timeout

def readRetry : Nat := 3

/-- What of a message is to be seen. -/
def Message.wire {ι : Type*} (nodes : ι → FuseNode) : Message ι → ClipboardFile
  | .response ask msgFlags requestedData =>
      .fileContentsResponse msgFlags (nodes ask.node).streamId requestedData
  | .other => .other

namespace Fuse

variable {ι : Type*} (nodes : ι → FuseNode)

/-- The request goes out and the read waits for the answer, or it fails. -/
def send (ask : Ask ι) (retries : Nat) (sent : Bool) (s : Fuse ι) : Fuse ι :=
  if sent then { s with reading := some (ask, retries), outstanding := s.outstanding ++ [ask] }
  else { s with reading := none }

/-- One turn of the loop in `read_node`. -/
def receive (ask : Ask ι) (retries : Nat) (sent : Bool) (m : Message ι) (rest : List (Message ι))
    (s : Fuse ι) : Fuse ι :=
  let s := { s with channel := rest }
  match m.wire nodes with
  | .fileContentsResponse msgFlags streamId requestedData =>
      if streamId ≠ (nodes ask.node).streamId then s
      else if msgFlags &&& 1 = 0 then
        if retries + 1 > readRetry then { s with reading := none }
        else s.send ask (retries + 1) sent
      else
        { s with
          reading := none
          returned := s.returned ++ [⟨ask, requestedData, m⟩] }
  | _ => { s with reading := none }

def step (s : Fuse ι) : FuseEvent ι → Fuse ι
  | .read ask sent => if s.reading.isSome then s else s.send ask 0 sent
  | .reply i msgFlags requestedData =>
      match s.outstanding[i]? with
      | none => s
      | some ask =>
          { s with
            outstanding := s.outstanding.eraseIdx i
            channel := s.channel ++ [.response ask msgFlags requestedData] }
  | .junk => { s with channel := s.channel ++ [.other] }
  | .receive sent =>
      match s.reading, s.channel with
      | some (ask, retries), m :: rest => s.receive nodes ask retries sent m rest
      | _, _ => s
  | .timeout => if s.channel = [] then { s with reading := none } else s

/-- Every read has returned the answer to a request for the same part of the same file. -/
def OwnAnswers (s : Fuse ι) : Prop :=
  ∀ r ∈ s.returned, ∃ msgFlags, r.source = .response r.call msgFlags r.data

/-- An answer that a read of the file would take, or one that may still come. -/
def Pending (s : Fuse ι) (ask : Ask ι) : Prop :=
  ask ∈ s.outstanding ∨ ∃ msgFlags data, msgFlags &&& 1 ≠ 0 ∧ .response ask msgFlags data ∈ s.channel

/-- No read begins while an answer about another part of its file is pending. -/
def Settled (s : Fuse ι) : FuseEvent ι → Prop
  | .read ask _ => s.reading = none → ∀ old, s.Pending old → old.node = ask.node → old = ask
  | _ => True

section Steps

variable {nodes} {s : Fuse ι} {ask : Ask ι} {retries : Nat} {sent : Bool} {m : Message ι}
  {rest : List (Message ι)}

theorem receive_other :
    s.receive nodes ask retries sent .other rest = { s with channel := rest, reading := none } := rfl

variable {old : Ask ι} {msgFlags : Int32} {data : Bytes}

theorem receive_mismatch (mismatch : (nodes old.node).streamId ≠ (nodes ask.node).streamId) :
    s.receive nodes ask retries sent (.response old msgFlags data) rest =
      { s with channel := rest } := by
  simp only [receive, Message.wire, if_pos mismatch]

theorem receive_failure (same : (nodes old.node).streamId = (nodes ask.node).streamId)
    (failure : msgFlags &&& 1 = 0) :
    s.receive nodes ask retries sent (.response old msgFlags data) rest =
      if retries + 1 > readRetry then { s with channel := rest, reading := none }
      else { s with channel := rest }.send ask (retries + 1) sent := by
  simp only [receive, Message.wire, same, ne_eq, not_true_eq_false, if_false, if_pos failure]

theorem receive_success (same : (nodes old.node).streamId = (nodes ask.node).streamId)
    (success : msgFlags &&& 1 ≠ 0) :
    s.receive nodes ask retries sent (.response old msgFlags data) rest =
      { s with
        channel := rest
        reading := none
        returned := s.returned ++ [⟨ask, data, .response old msgFlags data⟩] } := by
  simp only [receive, Message.wire, same, ne_eq, not_true_eq_false, if_false, if_neg success]

end Steps

/-! ## The invariant -/

/-- What is pending for the file of a read is about the same part of it. -/
structure Inv (s : Fuse ι) : Prop where
  own : s.OwnAnswers
  pending : ∀ ask retries, s.reading = some (ask, retries) →
    ∀ old, s.Pending old → old.node = ask.node → old = ask

section Inv

variable {nodes} {s : Fuse ι} {ask : Ask ι} {retries : Nat} {rest : List (Message ι)}

theorem Inv.idle (inv : s.Inv) (channel : List (Message ι)) :
    { s with channel := channel, reading := none }.Inv :=
  ⟨inv.own, nofun⟩

/-- Asking (again) leaves only answers about the own part. -/
theorem inv_send (own : s.OwnAnswers) (settled : ∀ old, s.Pending old → old.node = ask.node → old = ask)
    (sent : Bool) : (s.send ask retries sent).Inv := by
  unfold send
  split_ifs
  · refine ⟨own, ?_⟩
    rintro _ _ ⟨⟩ old (asked | answered) same
    · rcases List.mem_append.mp asked with before | now
      · exact settled old (.inl before) same
      · exact List.mem_singleton.mp now
    · exact settled old (.inr answered) same
  · exact ⟨own, nofun⟩

theorem Pending.of_tail {m : Message ι} {old : Ask ι} (arrived : s.channel = m :: rest)
    (pending : { s with channel := rest }.Pending old) : s.Pending old := by
  rcases pending with asked | ⟨msgFlags, data, success, member⟩
  · exact .inl asked
  · exact .inr ⟨msgFlags, data, success, arrived ▸ List.mem_cons_of_mem m member⟩

theorem Inv.receive {m : Message ι} (inv : s.Inv)
    (distinct : Function.Injective fun i => (nodes i).streamId)
    (reading : s.reading = some (ask, retries)) (arrived : s.channel = m :: rest) (sent : Bool) :
    (s.receive nodes ask retries sent m rest).Inv := by
  have settled : ∀ old, { s with channel := rest }.Pending old → old.node = ask.node → old = ask :=
    fun old pending => inv.pending ask retries reading old (pending.of_tail arrived)
  cases m with
  | other => exact inv.idle rest
  | response old msgFlags data =>
      by_cases same : (nodes old.node).streamId = (nodes ask.node).streamId
      · by_cases failure : msgFlags &&& 1 = 0
        · rw [receive_failure same failure]
          split_ifs
          · exact inv.idle rest
          · refine inv_send ?_ settled sent
            exact inv.own
        · rw [receive_success same failure]
          refine ⟨?_, nofun⟩
          intro r member
          rcases List.mem_append.mp member with before | now
          · exact inv.own r before
          · rw [List.mem_singleton.mp now]
            have here : s.Pending old :=
              .inr ⟨msgFlags, data, failure, arrived ▸ List.mem_cons_self ..⟩
            rw [inv.pending ask retries reading old here (distinct same)]
            exact ⟨msgFlags, rfl⟩
      · rw [receive_mismatch same]
        refine ⟨inv.own, ?_⟩
        intro ask' retries' reading'
        cases reading.symm.trans reading'
        exact settled

theorem Inv.step (inv : s.Inv) (distinct : Function.Injective fun i => (nodes i).streamId)
    (event : FuseEvent ι) (settled : s.Settled event) : (s.step nodes event).Inv := by
  cases event with
  | read ask sent =>
      simp only [Fuse.step]
      split_ifs with busy
      · exact inv
      · exact inv_send inv.own (settled (Option.not_isSome_iff_eq_none.mp busy)) sent
  | reply i msgFlags data =>
      simp only [Fuse.step]
      split
      · exact inv
      · rename_i asked found
        refine ⟨inv.own, ?_⟩
        intro ask retries reading old pending same
        refine inv.pending ask retries reading old ?_ same
        rcases pending with left | ⟨flags, data', success, member⟩
        · exact .inl (List.mem_of_mem_eraseIdx left)
        · rcases List.mem_append.mp member with before | now
          · exact .inr ⟨flags, data', success, before⟩
          · cases List.mem_singleton.mp now
            exact .inl (List.mem_of_getElem? found)
  | junk =>
      refine ⟨inv.own, ?_⟩
      intro ask retries reading old pending same
      refine inv.pending ask retries reading old ?_ same
      rcases pending with left | ⟨flags, data', success, member⟩
      · exact .inl left
      · rcases List.mem_append.mp member with before | now
        · exact .inr ⟨flags, data', success, before⟩
        · cases List.mem_singleton.mp now
  | receive sent =>
      simp only [Fuse.step]
      split
      · rename_i ask retries m rest reading arrived
        exact inv.receive distinct reading arrived sent
      · exact inv
  | timeout =>
      simp only [Fuse.step]
      split_ifs
      · exact ⟨inv.own, nofun⟩
      · exact inv

end Inv

variable {nodes} {s : Fuse ι} {ask old : Ask ι} {retries : Nat} {m : Message ι}
  {rest : List (Message ι)}

/-- A good answer about `old` is in the channel. -/
def Queued (old : Ask ι) (channel : List (Message ι)) : Prop :=
  ∃ msgFlags data, msgFlags &&& 1 ≠ 0 ∧ .response old msgFlags data ∈ channel

/-- Some way to go on ends with an answer that is not the read's own. -/
def GoesWrong (nodes : ι → FuseNode) (s : Fuse ι) : Prop :=
  ∃ events, ¬ (Runs.exec (step nodes) s events).OwnAnswers

theorem GoesWrong.of_step (event : FuseEvent ι) (wrong : (s.step nodes event).GoesWrong nodes) :
    s.GoesWrong nodes := by
  obtain ⟨events, wrong⟩ := wrong
  exact ⟨event :: events, wrong⟩

theorem step_receive (reading : s.reading = some (ask, retries)) (arrived : s.channel = m :: rest) :
    s.step nodes (.receive true) = s.receive nodes ask retries true m rest := by
  simp only [step, reading, arrived]

theorem step_read_of_idle (idle : s.reading = none) :
    s.step nodes (.read ask true) =
      { s with reading := some (ask, 0), outstanding := s.outstanding ++ [ask] } := by
  simp only [step, idle, Option.isSome_none, Bool.false_eq_true, if_false, send, if_true]

theorem Queued.tail (queued : Queued old (m :: rest))
    (not_ : ∀ msgFlags data, msgFlags &&& 1 ≠ 0 → m ≠ .response old msgFlags data) :
    Queued old rest := by
  obtain ⟨msgFlags, data, success, member⟩ := queued
  rcases List.mem_cons.mp member with rfl | later
  · exact absurd rfl (not_ msgFlags data success)
  · exact ⟨msgFlags, data, success, later⟩

/-- A read that finds an answer about another part in its channel takes it, or one of the
    reads after it does. -/
theorem goesWrong_of_queued (other : old ≠ ask) (same : old.node = ask.node)
    {channel : List (Message ι)} (arrived : s.channel = channel)
    (reading : s.reading = some (ask, retries)) (queued : Queued old channel) :
    s.GoesWrong nodes := by
  induction channel generalizing s retries with
  | nil =>
      obtain ⟨_, _, _, member⟩ := queued
      cases member
  | cons m rest ih =>
      -- the read is over or goes on; either way one for the same part waits in the end
      have goesOn (s₁ : Fuse ι) (received : s.receive nodes ask retries true m rest = s₁)
          (left : s₁.channel = rest) (still : s₁.reading = none ∨ ∃ k, s₁.reading = some (ask, k))
          (behind : Queued old rest) : s.GoesWrong nodes := by
        refine .of_step (.receive true) ?_
        rw [step_receive reading arrived, received]
        rcases still with idle | ⟨k, waiting⟩
        · refine .of_step (.read ask true) ?_
          rw [step_read_of_idle idle]
          exact ih left rfl behind
        · exact ih left waiting behind
      cases m with
      | other =>
          exact goesOn _ receive_other rfl (.inl rfl) (queued.tail (by rintro _ _ _ ⟨⟩))
      | response old' msgFlags data =>
          by_cases stream : (nodes old'.node).streamId = (nodes ask.node).streamId
          · by_cases failure : msgFlags &&& 1 = 0
            · have behind : Queued old rest := by
                refine queued.tail ?_
                rintro flags' data' success ⟨⟩
                exact success failure
              refine goesOn _ (receive_failure stream failure) ?_ ?_ behind
              · split_ifs <;> rfl
              · split_ifs
                · exact .inl rfl
                · exact .inr ⟨retries + 1, rfl⟩
            · by_cases own : old' = ask
              · refine goesOn _ (receive_success stream failure) rfl (.inl rfl) (queued.tail ?_)
                rintro flags' data' - ⟨⟩
                exact other own
              · refine ⟨[.receive true], ?_⟩
                rw [Runs.exec_cons, Runs.exec_nil, step_receive reading arrived,
                  receive_success stream failure]
                intro owned
                obtain ⟨flags', answer⟩ := owned ⟨ask, data, .response old' msgFlags data⟩
                  (List.mem_append_right _ (List.mem_singleton_self _))
                exact own (Message.response.inj answer).1
          · refine goesOn _ (receive_mismatch stream) rfl (.inr ⟨retries, reading⟩) (queued.tail ?_)
            rintro flags' data' - ⟨⟩
            exact stream (by rw [same])

theorem goesWrong_of_unsettled (unsettled : ¬ s.Settled (.read ask true)) :
    (s.step nodes (.read ask true)).GoesWrong nodes := by
  simp only [Settled, not_forall] at unsettled
  obtain ⟨idle, old, pending, same, other⟩ := unsettled
  rw [step_read_of_idle idle]
  rcases pending with asked | queued
  · -- the peer answers the old request now
    obtain ⟨i, found⟩ := List.mem_iff_getElem?.mp (List.mem_append_left [ask] asked)
    refine .of_step (.reply i 1 []) ?_
    simp only [step, found]
    exact goesWrong_of_queued other same rfl rfl
      ⟨1, [], by decide, List.mem_append_right _ (List.mem_singleton_self _)⟩
  · exact goesWrong_of_queued other same rfl rfl queued

end Fuse

/-- In every run in which reads only begin while no answer about another part of their
    file is pending, each read returns an answer to its own request. Once a read begins
    otherwise, the run can go on so that one does not. -/
theorem fuse_reads_get_own_answers {ι : Type*} (nodes : ι → FuseNode)
    (distinct : Function.Injective fun i => (nodes i).streamId) :
    (∀ events, Runs.Along (Fuse.step nodes) Fuse.Settled {} events →
      Runs.Always (Fuse.step nodes) Fuse.OwnAnswers {} events) ∧
    ∀ (s : Fuse ι) (ask : Ask ι), ¬ s.Settled (.read ask true) →
      ∃ events, ¬ Runs.Always (Fuse.step nodes) Fuse.OwnAnswers s (.read ask true :: events) := by
  constructor
  · intro events along
    have always : Runs.Always (Fuse.step nodes) Fuse.Inv {} events :=
      Runs.always_of_along (fun s event inv settled => inv.step distinct event settled)
        ⟨nofun, nofun⟩ along
    exact always.mono fun s inv => inv.own
  · intro s ask unsettled
    obtain ⟨events, wrong⟩ := @Fuse.goesWrong_of_unsettled ι nodes s ask unsettled
    exact ⟨events, fun always => wrong always.last⟩

/-- Two files with stream ids of their own. -/
def twoNodes : Bool → FuseNode
  | false => firstNode
  | true => ⟨0, 8, 1, by decide⟩

/-- The peer fails once and is asked again, while an answer about the other file waits. -/
theorem retried_read_gets_own_answer :
    Runs.Always (Fuse.step twoNodes) Fuse.OwnAnswers {}
      [.read ⟨true, 0, 4⟩ true, .timeout, .read ⟨false, 4, 4⟩ true, .reply 0 1 [9], .reply 0 0 [],
        .receive true, .receive true, .reply 0 1 [1], .receive true] ∧
    ∃ events, ¬ Runs.Always (Fuse.step twoNodes) Fuse.OwnAnswers
      { outstanding := [⟨false, 0, 4⟩] } (.read ⟨false, 4, 4⟩ true :: events) := by
  have distinct : Function.Injective fun i => (twoNodes i).streamId := by
    have apart : ∀ i j, (twoNodes i).streamId = (twoNodes j).streamId → i = j := by decide
    exact fun i j => apart i j
  obtain ⟨kept, lost⟩ := fuse_reads_get_own_answers twoNodes distinct
  refine ⟨kept _ ⟨?_, trivial, ?_, ?_⟩, lost _ _ ?_⟩
  · rintro - old (asked | ⟨_, _, _, member⟩)
    · cases asked
    · cases member
  · rintro - old (asked | ⟨_, _, _, member⟩)
    · cases List.mem_singleton.mp asked
      rintro ⟨⟩
    · cases member
  · exact ⟨trivial, trivial, trivial, trivial, trivial, trivial, trivial⟩
  · intro settled
    cases settled rfl ⟨false, 0, 4⟩ (.inl (List.mem_singleton_self _)) rfl

/-- The answer about offset 0 comes after the read has given up, and the read at offset 4
    returns it. -/
theorem late_answer_returned :
    let run : List (FuseEvent Bool) :=
      [.read ⟨false, 0, 4⟩ true, .timeout, .reply 0 1 [1, 2, 3, 4], .read ⟨false, 4, 4⟩ true,
        .receive true]
    (Runs.exec (Fuse.step twoNodes) {} run).returned =
        [⟨⟨false, 4, 4⟩, [1, 2, 3, 4], .response ⟨false, 0, 4⟩ 1 [1, 2, 3, 4]⟩] ∧
      ¬ Runs.Always (Fuse.step twoNodes) Fuse.OwnAnswers {} run := by
  intro run
  have returned : (Runs.exec (Fuse.step twoNodes) {} run).returned =
      [⟨⟨false, 4, 4⟩, [1, 2, 3, 4], .response ⟨false, 0, 4⟩ 1 [1, 2, 3, 4]⟩] := by decide
  refine ⟨returned, fun always => ?_⟩
  obtain ⟨msgFlags, answer⟩ := always.last _ (returned ▸ List.mem_singleton_self _)
  cases (Message.response.inj answer).1

end RemoteControl.Clipboard
