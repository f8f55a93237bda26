import RemoteControl.Clipboard.PasteCompleteness
import RemoteControl.Clipboard.PasteRenames

/-! # Requests and their answers

The peer answers each request at most once, with at most as many bytes as were asked for, and
whenever it likes. An answer carries the connection and the list index of its request only,
so that a task takes the answer to a request of an earlier task for its own.
-/

namespace RemoteControl.Clipboard.Paste

open Transfer (Text Place)

inductive Reply where
  | data (requestedData : Bytes)
  | failed (msgFlags : Int32)
  deriving DecidableEq

/-- A request, the number of the task that has sent it, and the answer to it. -/
structure Asked where
  task : Nat
  request : FileContentsRequest
  reply : Option Reply := none
  deriving DecidableEq

namespace Reply

/-- What the peer may answer. -/
def Fits (reply : Reply) (request : FileContentsRequest) : Prop :=
  match reply with
  | .data requestedData => requestedData.length ≤ request.cbRequested
  | .failed msgFlags => msgFlags ≠ 1

instance (reply : Reply) (request : FileContentsRequest) : Decidable (reply.Fits request) := by
  unfold Fits
  cases reply <;> infer_instance

/-- The message that the answer comes in. -/
def response (reply : Reply) (request : FileContentsRequest) : FileContentsResponse where
  connId := request.connId
  msgFlags :=
    match reply with
    | .data _ => 1
    | .failed msgFlags => msgFlags
  streamId := Int32.ofInt request.listIndex
  requestedData :=
    match reply with
    | .data requestedData => requestedData
    | .failed _ => []

def isFailed : Reply → Bool
  | .data _ => false
  | .failed _ => true

end Reply

structure Exchange where
  state : State
  /-- How many tasks were started so far. -/
  tasks : Nat := 0
  asked : List Asked := []
  /-- The task has ended with an answer that tells of an error. -/
  refused : Bool := false

namespace Exchange

inductive Event where
  | start (targetDir : Text) (files : List FileDescription) (o : Outcomes)
  | cancel (o : Outcomes)
  | timeout (late : Bool) (o : Outcomes)
  | other (p : Place) (n : Node)
  /-- The answer to the `k`th request comes. -/
  | answer (k : Nat) (reply : Reply) (o : Outcomes)

def running (s : State) : Bool := s.task.any (!·.isFinished)

/-- What is asked for in the new state is noted. -/
def move (x : Exchange) (s : State) : Exchange :=
  { x with
    state := s
    asked := x.asked ++ (s.requests.drop x.state.requests.length).map fun request =>
      { task := x.tasks, request } }

/-- An answer to a request that has none yet. -/
def answer (x : Exchange) (k : Nat) (a : Asked) (reply : Reply) (o : Outcomes) : Exchange :=
  let s := x.state.response (reply.response a.request) o
  let x := { x with asked := x.asked.set k { a with reply := some reply } }
  { x.move s with refused := x.refused || reply.isFailed && running x.state && !running s }

def step (x : Exchange) : Event → Exchange
  | .start targetDir files o =>
      if running x.state then x
      else { x with tasks := x.tasks + 1, refused := false }.move (x.state.start targetDir files o)
  | .cancel o => x.move (x.state.cancel o)
  | .timeout late o => x.move (x.state.timeout late o)
  | .other p n => x.move (x.state.other p n)
  | .answer k reply o =>
      match x.asked[k]? with
      | none => x
      | some a => if a.reply = none ∧ reply.Fits a.request then x.answer k a reply o else x

def initial (v : Volume) : Exchange := { state := .initial v }

end Exchange

/-- The answered pieces of a file in the order in which they were asked for, with their
    positions. -/
def pieces (asked : List Asked) (task : Nat) (index : Int) : List (Nat × Bytes) :=
  asked.filterMap fun a =>
    match a.reply with
    | some (.data data) =>
        if a.task = task ∧ a.request.listIndex = index then some (a.request.nPosition, data) else none
    | _ => none

/-- Each piece begins where the one before it ends. -/
def InRow : Nat → List (Nat × Bytes) → Prop
  | _, [] => True
  | position, (p, data) :: rest => p = position ∧ InRow (position + data.length) rest

/-- The answers to requests of the task that tell of an error. -/
def failures (asked : List Asked) (task : Nat) : Nat :=
  asked.countP fun a => decide (a.task = task) && a.reply.any Reply.isFailed

/-- What has got its name are the pieces that the task has asked for, and it has not given up
    because of answers to other requests than its own. -/
structure Faithful (x : Exchange) : Prop where
  renamed : ∀ file ∈ renames x.state.notes, InRow 0 (pieces x.asked x.tasks file.1) ∧
    ((pieces x.asked x.tasks file.1).map (·.2)).flatten = file.2
  refused : x.refused = true → recvRetryTimes < failures x.asked x.tasks

/-- Before an event: an answer that the task looks at is one to a request of its own, no task
    begins with errors counted already, and in the event the buffer is flushed. -/
def Own (x : Exchange) (e : Exchange.Event) : Prop :=
  .notFlushed ∉ (x.step e).state.notes ∧
    match e with
    | .start _ files _ => Exchange.running x.state = false →
        x.state.retryCount = 0 ∧ ∀ desc ∈ files, desc.size < 2 ^ 64
    | .answer k reply _ => ∀ a ∈ x.asked[k]?, ∀ h ∈ x.state.task,
        Accepts h (reply.response a.request) ∨ Refuses h (reply.response a.request) → a.task = x.tasks
    | _ => True

/-! ## Lists of requests -/

section Asked

variable {asked : List Asked} {task k : Nat} {index : Int} {a : Asked} {reply : Reply}

theorem filterMap_set {α β : Type*} {f : α → Option β} {l : List α} {k : Nat} {x y : α}
    (here : l[k]? = some x) (same : f y = f x) : (l.set k y).filterMap f = l.filterMap f := by
  induction l generalizing k with
  | nil => rfl
  | cons first rest ih =>
      cases k with
      | zero =>
          obtain rfl := Option.some.inj here
          simp [List.filterMap_cons, same]
      | succ k => simp [List.filterMap_cons, ih here]

theorem pieces_append (front back : List Asked) :
    pieces (front ++ back) task index = pieces front task index ++ pieces back task index :=
  List.filterMap_append

/-- Only the file that was asked about gets a piece. -/
theorem pieces_set (here : asked[k]? = some a) (open_ : a.reply = none)
    (other : ¬ (a.task = task ∧ a.request.listIndex = index)) :
    pieces (asked.set k { a with reply := some reply }) task index = pieces asked task index := by
  refine filterMap_set here ?_
  cases reply <;> simp [open_, other]

theorem failures_set (here : asked[k]? = some a) (open_ : a.reply = none) :
    failures (asked.set k { a with reply := some reply }) task =
      failures asked task + if decide (a.task = task) && reply.isFailed then 1 else 0 := by
  obtain ⟨bound, rfl⟩ := List.getElem?_eq_some_iff.mp here
  rw [failures, failures, List.countP_set bound]
  simp [open_]

theorem failures_le_set (here : asked[k]? = some a) (open_ : a.reply = none) :
    failures asked task ≤ failures (asked.set k { a with reply := some reply }) task := by
  rw [failures_set here open_]
  exact Nat.le_add_right ..

theorem inRow_append {position : Nat} {left right : List (Nat × Bytes)} :
    InRow position (left ++ right) ↔
    InRow position left ∧ InRow (position + ((left.map (·.2)).flatten).length) right := by
  induction left generalizing position with
  | nil => simp [InRow]
  | cons piece rest ih =>
      obtain ⟨p, data⟩ := piece
      simp only [List.cons_append, InRow, ih, List.map_cons, List.flatten_cons, List.length_append,
        and_assoc, Nat.add_assoc]

/-- An entry that nothing was asked about. -/
theorem pieces_eq_nil (upTo : ∀ a ∈ asked, a.task = task → a.request.listIndex < index) :
    pieces asked task index = [] := by
  refine List.filterMap_eq_nil_iff.mpr fun a member => ?_
  split
  case h_1 => exact if_neg fun ⟨own, same⟩ => Int.ne_of_lt (upTo a member own) same
  case h_2 => rfl

/-- The last request is the only one that has no answer. -/
theorem eq_last {front : List Asked} {b : Asked} (whole : asked = front ++ [b])
    (answered : ∀ c ∈ front, c.task = task → c.reply ≠ none) (here : asked[k]? = some a)
    (own : a.task = task) (open_ : a.reply = none) : k = front.length ∧ a = b := by
  subst whole
  rcases Nat.lt_trichotomy k front.length with early | rfl | late
  · rw [List.getElem?_append_left early] at here
    exact absurd open_ (answered a (List.mem_of_getElem? here) own)
  · simpa [eq_comm] using here
  · rw [List.getElem?_eq_none (by simp; omega)] at here
    cases here

end Asked

/-- The pieces put together. -/
def joined (row : List (Nat × Bytes)) : Bytes := (row.map (·.2)).flatten

/-- What the open file holds are the pieces of its entry. -/
def Held (asked : List Asked) (task : Nat) (w : Working) (writer : BufWriter) : Prop :=
  Holding writer w.volume (joined (pieces asked task w.progress.listIndex)) ∧
    InRow 0 (pieces asked task w.progress.listIndex) ∧
    (joined (pieces asked task w.progress.listIndex)).length = w.progress.offset ∧
    w.progress.offset < w.progress.downloadFileSize

/-- What is known of a task that goes on. -/
structure Ongoing (asked : List Asked) (task : Nat) (w : Working) : Prop where
  nonneg : 0 ≤ w.progress.listIndex
  upTo : ∀ a ∈ asked, a.task = task → a.request.listIndex ≤ w.progress.listIndex
  earlier : ∀ file ∈ renames w.notes, file.1 < w.progress.listIndex
  held : ∀ writer ∈ w.progress.fileHandle, Held asked task w writer

def Noted (asked : List Asked) (task : Nat) (notes : List Note) : Prop :=
  ∀ file ∈ renames notes,
    InRow 0 (pieces asked task file.1) ∧ joined (pieces asked task file.1) = file.2

/-- The last request is the one for the next block, and all others of the task are answered. -/
structure Waiting (asked : List Asked) (task : Nat) (h : PasteTaskHandle) : Prop where
  last : ∃ front a, asked = front ++ [a] ∧ a.task = task ∧ a.reply = none ∧
    h.fileContentsRequest = .ok (some a.request) ∧ ∀ b ∈ front, b.task = task → b.reply ≠ none

/-- The invariant of the runs. -/
structure Matched (x : Exchange) : Prop where
  noted : Noted x.asked x.tasks x.state.notes
  refused : x.refused = true → recvRetryTimes < failures x.asked x.tasks
  clear : ∀ a ∈ x.asked, a.task = x.tasks → a.reply = none →
    ∀ file ∈ renames x.state.notes, file.1 ≠ a.request.listIndex
  known : ∀ a ∈ x.asked, a.task ≤ x.tasks
  inOrder : ∀ h ∈ x.state.task, InOrder Anything h.files h.targetDir (x.state.working h)
  sizes : ∀ h ∈ x.state.task, ∀ desc ∈ h.files, desc.size < 2 ^ 64
  waiting : ∀ h ∈ x.state.task, h.isFinished = false → Waiting x.asked x.tasks h
  ongoing : ∀ h ∈ x.state.task, h.isFinished = false → Ongoing x.asked x.tasks (x.state.working h)
  counted : ∀ h ∈ x.state.task, h.isFinished = false → x.state.retryCount ≤ failures x.asked x.tasks

namespace Exchange

variable {x : Exchange} {s : State} {files : List FileDescription} {targetDir : Text} {w : Working} {o : Outcomes}

theorem pieces_new (requests : List FileContentsRequest) (index : Int) (n task : Nat) :
    pieces (requests.map fun request => { task := n, request }) task index = [] := by
  simp [pieces, List.filterMap_map]

theorem failures_new (asked : List Asked) (requests : List FileContentsRequest) (n task : Nat) :
    failures (asked ++ requests.map fun request => { task := n, request }) task =
      failures asked task := by
  simp [failures, List.countP_append, List.countP_map, Function.comp_def]

theorem noted_new {asked : List Asked} {task : Nat} {notes : List Note} (noted : Noted asked task notes)
    (requests : List FileContentsRequest) (n : Nat) :
    Noted (asked ++ requests.map fun request => { task := n, request }) task notes := by
  intro file member
  rw [pieces_append, pieces_new, List.append_nil]
  exact noted file member

/-- The state after a task has ended. -/
theorem matched_of_finished (task : s.task = some w.handle) (volume : s.volume = w.volume)
    (notes : s.notes = w.notes) (requests : s.requests = x.state.requests)
    (inOrder : InOrder Anything files targetDir w) (finished : w.handle.isFinished = true)
    (noted : Noted x.asked x.tasks w.notes)
    (refused : x.refused = true → recvRetryTimes < failures x.asked x.tasks)
    (clear : ∀ a ∈ x.asked, a.task = x.tasks → a.reply = none →
      ∀ file ∈ renames w.notes, file.1 ≠ a.request.listIndex)
    (known : ∀ a ∈ x.asked, a.task ≤ x.tasks) (sizes : ∀ desc ∈ files, desc.size < 2 ^ 64) :
    Matched (x.move s) := by
  have same : files = w.handle.files ∧ targetDir = w.handle.targetDir :=
    ⟨inOrder.files.symm, inOrder.targetDir.symm⟩
  obtain ⟨rfl, rfl⟩ := same
  have now : s.working w.handle = w := by rw [State.working, volume, notes]
  have asked : (x.move s).asked = x.asked := by simp [move, requests]
  have ended {P : PasteTaskHandle → Prop} : ∀ h ∈ s.task, h.isFinished = false → P h := by
    intro h is unfinished
    obtain rfl := Option.some.inj (task.symm.trans is)
    simp [finished] at unfinished
  refine ⟨?_, ?_, ?_, ?_, ?_, ?_, ended, ended, ended⟩
  · rw [asked]
    exact notes ▸ noted
  · rw [asked]
    exact refused
  · rw [asked]
    exact notes ▸ clear
  · rw [asked]
    exact known
  · intro h is
    obtain rfl := Option.some.inj (task.symm.trans is)
    exact now.symm ▸ inOrder
  · intro h is
    obtain rfl := Option.some.inj (task.symm.trans is)
    exact sizes

theorem onFinished_renames (good : Good Anything files targetDir w)
    (running : w.progress.isCanceled = false)
    (finished : w.handle.isFinished = true) : renames (w.onFinished o).notes = renames w.notes := by
  have ended :
      renames (if w.progress.error.isSome then w.onCancelled o o.removeAgain else w.onDone o).notes =
      renames w.notes := by
    cases error : w.progress.error with
    | some e => rfl
    | none =>
        cases opened : w.progress.fileHandle with
        | none => simp [Working.onDone, opened]
        | some writer =>
            have := (good.open_ writer opened).unfinished error running
            simp [finished] at this
  unfold Working.onFinished
  dsimp only
  generalize (if w.progress.error.isSome then w.onCancelled o o.removeAgain else w.onDone o) =
    w' at ended ⊢
  split <;> exact ended

theorem request_of_asks {h : PasteTaskHandle} {r : Option FileContentsRequest}
    (unfinished : ¬ h.isFinished = true)
    (asks : h.fileContentsRequest = .ok r) : ∃ request, r = some request ∧
      request.listIndex = h.progress.listIndex ∧ request.nPosition = h.progress.offset ∧
      ∃ file, h.files[h.progress.listIndex.toNat]? = some file ∧ request.connId = file.connId ∧
        request.cbRequested = min blockSize (file.size - h.progress.offset) := by
  unfold PasteTaskHandle.fileContentsRequest at asks
  rw [if_neg unfinished] at asks
  dsimp only at asks
  split at asks
  case h_1 => cases asks
  case h_2 file listed =>
    obtain rfl := Except.ok.inj asks
    exact ⟨_, rfl, rfl, rfl, file, listed, rfl, rfl⟩

/-- Requests that are all answered. -/
def Answered (asked : List Asked) (task : Nat) : Prop := ∀ a ∈ asked, a.task = task → a.reply ≠ none

/-- What is known when every request of the task has its answer. -/
structure AllAnswered (x : Exchange) (notes : List Note) : Prop where
  noted : Noted x.asked x.tasks notes
  refused : x.refused = true → recvRetryTimes < failures x.asked x.tasks
  answered : Answered x.asked x.tasks
  known : ∀ a ∈ x.asked, a.task ≤ x.tasks

/-- The state after the next block was asked for. -/
theorem matched_of_asked {request : FileContentsRequest} (task : s.task = some w.handle)
    (volume : s.volume = w.volume) (notes : s.notes = w.notes)
    (requests : s.requests = x.state.requests ++ [request])
    (inOrder : InOrder Anything files targetDir w)
    (asks : w.handle.fileContentsRequest = .ok (some request))
    (index : request.listIndex = w.progress.listIndex)
    (all : AllAnswered x w.notes) (sizes : ∀ desc ∈ files, desc.size < 2 ^ 64)
    (ongoing : Ongoing x.asked x.tasks w) (counted : s.retryCount ≤ failures x.asked x.tasks) :
    Matched (x.move s) := by
  obtain ⟨noted, refused, answered, known⟩ := all
  have same : files = w.handle.files ∧ targetDir = w.handle.targetDir :=
    ⟨inOrder.files.symm, inOrder.targetDir.symm⟩
  obtain ⟨rfl, rfl⟩ := same
  have now : s.working w.handle = w := by rw [State.working, volume, notes]
  have asked : (x.move s).asked = x.asked ++ [{ task := x.tasks, request }] := by simp [move, requests]
  have one : [({ task := x.tasks, request } : Asked)] =
    [request].map fun request => { task := x.tasks, request } := rfl
  have failed : failures (x.move s).asked x.tasks = failures x.asked x.tasks := by
    rw [asked, one, failures_new]
  have pieces_ (index : Int) :
      pieces (x.move s).asked x.tasks index = pieces x.asked x.tasks index := by
    rw [asked, one, pieces_append, pieces_new, List.append_nil]
  have mem {P : Asked → Prop} (before : ∀ a ∈ x.asked, P a) (last : P { task := x.tasks, request }) :
      ∀ a ∈ (x.move s).asked, P a := by
    rw [asked]
    exact List.forall_mem_append.mpr ⟨before, List.forall_mem_singleton.mpr last⟩
  refine ⟨?_, ?_, ?_, ?_, ?_, ?_, ?_, ?_, ?_⟩
  · rw [asked, one]
    exact notes ▸ noted_new noted _ _
  · intro now'
    exact failed.symm ▸ refused now'
  · refine mem
      (fun a member own open_ => absurd open_ (answered a member own)) fun _ _ file member => ?_
    have early := ongoing.earlier file (notes ▸ member)
    rw [index]
    omega
  · exact mem known (Nat.le_refl _)
  · intro h is
    obtain rfl := Option.some.inj (task.symm.trans is)
    exact now.symm ▸ inOrder
  · intro h is
    obtain rfl := Option.some.inj (task.symm.trans is)
    exact sizes
  · intro h is _
    obtain rfl := Option.some.inj (task.symm.trans is)
    exact ⟨x.asked, _, asked, rfl, rfl, asks, answered⟩
  · intro h is _
    obtain rfl := Option.some.inj (task.symm.trans is)
    have here : (x.move s).state.working w.handle = w := now
    rw [here]
    refine ⟨ongoing.nonneg, mem ongoing.upTo fun _ => Int.le_of_eq index, ongoing.earlier,
      fun writer opened => ?_⟩
    have held := ongoing.held writer opened
    unfold Held at held ⊢
    have tasks : (x.move s).tasks = x.tasks := rfl
    rw [tasks, pieces_]
    exact held
  · intro h is _
    exact failed.symm ▸ counted

/-- What a task does after an event on it, when all of its requests are answered. -/
theorem matched_goOn (requests : s.requests = x.state.requests) (good : Good Anything files targetDir w)
    (ready : Ready w) (running : w.progress.isCanceled = false) (all : AllAnswered x w.notes)
    (sizes : ∀ desc ∈ files, desc.size < 2 ^ 64)
    (ongoing : w.handle.isFinished = false → Ongoing x.asked x.tasks w)
    (counted : s.retryCount ≤ failures x.asked x.tasks) : Matched (x.move (s.goOn w o)) := by
  have clear (w' : Working) : ∀ a ∈ x.asked, a.task = x.tasks → a.reply = none →
      ∀ file ∈ renames w'.notes, file.1 ≠ a.request.listIndex :=
    fun a member own open_ => absurd open_ (all.answered a member own)
  unfold State.goOn
  split
  case isTrue finished =>
    obtain ⟨after, closed⟩ := good.onFinished (o := o) anything_opens.toPreserves
    have ended := isFinished_onFinished (o := o) finished
    have same := onFinished_renames (o := o) good running finished
    refine matched_of_finished rfl rfl rfl requests
      (State.ended after closed ended) ended ?_ all.refused
      (clear _) all.known sizes
    unfold Noted
    rw [same]
    exact all.noted
  case isFalse unfinished =>
    unfold State.request
    cases asks : w.handle.fileContentsRequest with
    | error e =>
        obtain ⟨after, closed⟩ := good.onError (o := o) anything_opens.toPreserves e
        have ended := State.Failed.isFinished (State.failed_onError (w := w) (o := o) e)
        exact matched_of_finished rfl rfl rfl requests (State.ended after closed ended) ended all.noted
          all.refused (clear _) all.known sizes
    | ok r =>
        obtain ⟨request, rfl, index, -⟩ := request_of_asks unfinished asks
        exact matched_of_asked rfl rfl rfl (by rw [requests]; rfl)
          ⟨good, ready, fun finished => absurd finished unfinished⟩ asks index all sizes
          (ongoing (by simpa using unfinished)) counted

end Exchange

end RemoteControl.Clipboard.Paste
