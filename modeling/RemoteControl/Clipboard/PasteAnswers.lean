import RemoteControl.Clipboard.PasteExchange

/-! # Answers and what they are for

As long as a task only looks at answers to its own requests, the pieces that it puts together
are the ones that it has asked for, over whole runs.
-/

namespace RemoteControl.Clipboard.Paste

open Runs (Always Along)
open State (Failed)
open Transfer (Text Place)

namespace Exchange

variable {x : Exchange} {s : State} {files : List FileDescription} {targetDir : Text} {w : Working} {o : Outcomes}
  {h : PasteTaskHandle} {k : Nat} {a : Asked} {reply : Reply}

/-- The answer to the last request of a task is looked at. -/
theorem considered (waiting : Waiting x.asked x.tasks h) (unfinished : h.isFinished = false)
    (here : x.asked[k]? = some a) (own : a.task = x.tasks) (open_ : a.reply = none)
    (nonneg : 0 ≤ h.progress.listIndex) :
    Accepts h (reply.response a.request) ∨ Refuses h (reply.response a.request) := by
  obtain ⟨front, b, whole, -, -, asks, answered⟩ := waiting.last
  obtain ⟨-, rfl⟩ := eq_last whole answered here own open_
  obtain ⟨request, same, index, -, file, listed, conn, -⟩ := request_of_asks (by simp [unfinished]) asks
  obtain rfl := Option.some.inj same
  have small : h.progress.listIndex < 2 ^ 31 := by
    have early : h.progress.listIndex < asI32 h.files.length := by
      simp only [PasteTaskHandle.isFinished, Bool.or_eq_false_iff,
        decide_eq_false_iff_not] at unfinished
      exact Int.not_le.mp unfinished.2
    have bound : asI32 h.files.length < 2 ^ 31 := by
      unfold asI32
      omega
    omega
  have stream : (reply.response a.request).streamId.toInt = h.progress.listIndex := by
    rw [← index]
    exact Int32.toInt_ofInt_of_le (by omega) (by omega)
  by_cases fine : (reply.response a.request).msgFlags = 1
  · exact .inl ⟨unfinished, stream, fine, file, listed, conn.symm⟩
  · exact .inr ⟨unfinished, stream, fine⟩

/-- With the answer. -/
def replied (x : Exchange) (k : Nat) (a : Asked) (reply : Reply) : Exchange :=
  { x with asked := x.asked.set k { a with reply := some reply } }

theorem known_replied (matched : Matched x) (here : x.asked[k]? = some a) :
    ∀ b ∈ (x.replied k a reply).asked, b.task ≤ x.tasks := by
  intro b member
  rcases List.mem_or_eq_of_mem_set member with before | rfl
  · exact matched.known b before
  · exact matched.known a (List.mem_of_getElem? here)

theorem noted_replied (matched : Matched x) (here : x.asked[k]? = some a) (open_ : a.reply = none) :
    Noted (x.replied k a reply).asked x.tasks x.state.notes := by
  intro file member
  have same : pieces (x.replied k a reply).asked x.tasks file.1 = pieces x.asked x.tasks file.1 := by
    refine pieces_set here open_ fun ⟨own, index⟩ => ?_
    exact matched.clear a (List.mem_of_getElem? here) own open_ file member index.symm
  rw [same]
  exact matched.noted file member

theorem refused_replied (matched : Matched x) (here : x.asked[k]? = some a) (open_ : a.reply = none) :
    (x.replied k a reply).refused = true →
      recvRetryTimes < failures (x.replied k a reply).asked x.tasks :=
  fun now => Nat.lt_of_lt_of_le (matched.refused now) (failures_le_set here open_)

/-- An answer that no task looks at changes nothing, whatever it is an answer to. -/
theorem matched_ignored (matched : Matched x) (here : x.asked[k]? = some a) (open_ : a.reply = none)
    (ignored : ∀ h ∈ x.state.task,
    ¬ Accepts h (reply.response a.request) ∧ ¬ Refuses h (reply.response a.request)) :
    Matched (x.replied k a reply) := by
  have foreign : ∀ h ∈ x.state.task, h.isFinished = false → a.task ≠ x.tasks := by
    intro h is unfinished own
    have nonneg := (matched.ongoing h is unfinished).nonneg
    rcases considered
      (matched.waiting h is unfinished) unfinished here own open_ nonneg with looked | looked
    · exact (ignored h is).1 looked
    · exact (ignored h is).2 looked
  refine ⟨noted_replied matched here open_, refused_replied matched here open_, ?_,
    known_replied matched here, matched.inOrder, matched.sizes, ?_, ?_, ?_⟩
  · intro b member own none_
    rcases List.mem_or_eq_of_mem_set member with before | rfl
    · exact matched.clear b before own none_
    · cases none_
  · intro h is unfinished
    obtain ⟨front, b, whole, own, none_, asks, answered⟩ := (matched.waiting h is unfinished).last
    have other := foreign h is unfinished
    have early : k < front.length := by
      rw [whole] at here
      rcases Nat.lt_trichotomy k front.length with early | rfl | late
      · exact early
      · have same : b = a := by simpa using here
        exact absurd (same ▸ own) other
      · rw [List.getElem?_eq_none (by simp; omega)] at here
        cases here
    refine ⟨front.set k { a with reply := some reply }, b, ?_, own, none_, asks,
      fun c member own' => ?_⟩
    · change x.asked.set k _ = _
      rw [whole, List.set_append_left _ _ early]
    · rcases List.mem_or_eq_of_mem_set member with before | rfl
      · exact answered c before own'
      · exact absurd own' other
  · intro h is unfinished
    obtain ⟨nonneg, upTo, earlier, held⟩ := matched.ongoing h is unfinished
    have other := foreign h is unfinished
    refine ⟨nonneg, fun b member own => ?_, earlier, fun writer opened => ?_⟩
    · rcases List.mem_or_eq_of_mem_set member with before | rfl
      · exact upTo b before own
      · exact absurd own other
    · have same (index : Int) :
          pieces (x.replied k a reply).asked x.tasks index = pieces x.asked x.tasks index :=
        pieces_set here open_ fun both => other both.1
      have before := held writer opened
      unfold Held at before ⊢
      have tasks : (x.replied k a reply).tasks = x.tasks := rfl
      rw [tasks, same]
      exact before
  · intro h is unfinished
    exact Nat.le_trans (matched.counted h is unfinished) (failures_le_set here open_)

/-- The answer to the last request leaves none without an answer. -/
theorem answered_replied (reply : Reply) (waiting : Waiting x.asked x.tasks h)
    (here : x.asked[k]? = some a) (own : a.task = x.tasks) (open_ : a.reply = none) :
    Answered (x.replied k a reply).asked x.tasks ∧ h.fileContentsRequest = .ok (some a.request) := by
  obtain ⟨front, b, whole, -, -, asks, answered⟩ := waiting.last
  obtain ⟨rfl, rfl⟩ := eq_last whole answered here own open_
  refine ⟨fun c member own' => ?_, asks⟩
  change c ∈ x.asked.set _ _ at member
  rw [whole, List.set_append_right _ _ (Nat.le_refl _), Nat.sub_self, List.set_cons_zero] at member
  rcases List.mem_append.mp member with before | last
  · exact answered c before own'
  · rw [List.mem_singleton.mp last]
    exact nofun

/-- It puts its data behind the pieces of the current file. -/
theorem pieces_replied (data : Bytes) (waiting : Waiting x.asked x.tasks h)
    (here : x.asked[k]? = some a) (own : a.task = x.tasks) (open_ : a.reply = none) :
    pieces (x.replied k a (.data data)).asked x.tasks a.request.listIndex =
      pieces x.asked x.tasks a.request.listIndex ++ [(a.request.nPosition, data)] := by
  obtain ⟨front, b, whole, -, -, -, answered⟩ := waiting.last
  obtain ⟨rfl, rfl⟩ := eq_last whole answered here own open_
  change pieces (x.asked.set _ _) _ _ = _
  rw [whole, List.set_append_right _ _ (Nat.le_refl _), Nat.sub_self, List.set_cons_zero, pieces_append,
    pieces_append]
  simp [pieces, own, open_]

theorem allAnswered_replied (matched : Matched x) (reply : Reply) (waiting : Waiting x.asked x.tasks h)
    (here : x.asked[k]? = some a) (own : a.task = x.tasks) (open_ : a.reply = none) :
    AllAnswered (x.replied k a reply) x.state.notes :=
  ⟨noted_replied matched here open_, refused_replied matched here open_,
    (answered_replied reply waiting here own open_).1, known_replied matched here⟩

theorem matched_of_refused {y : Exchange} (matched : Matched y) {flag : Bool}
    (enough : flag = true → recvRetryTimes < failures y.asked y.tasks) :
    Matched { y with refused := flag } :=
  ⟨matched.noted, enough, matched.clear, matched.known, matched.inOrder, matched.sizes, matched.waiting,
    matched.ongoing, matched.counted⟩

theorem not_canceled (unfinished : h.isFinished = false) : h.progress.isCanceled = false := by
  simp only [PasteTaskHandle.isFinished, Bool.or_eq_false_iff] at unfinished
  exact unfinished.1.1

variable {msgFlags : Int32} {writer : BufWriter} {data : Bytes} {index : Int} {asked : List Asked}
  {writer' : BufWriter} {v : Volume}

/-- With an answer that tells of an error the pieces stay as they are. -/
theorem pieces_failed (here : x.asked[k]? = some a) (open_ : a.reply = none) :
    pieces (x.replied k a (.failed msgFlags)).asked x.tasks index = pieces x.asked x.tasks index :=
  filterMap_set here (by simp [open_])

theorem ongoing_failed (ongoing : Ongoing x.asked x.tasks w) (here : x.asked[k]? = some a)
    (open_ : a.reply = none) : Ongoing (x.replied k a (.failed msgFlags)).asked x.tasks w := by
  obtain ⟨nonneg, upTo, earlier, held⟩ := ongoing
  refine ⟨nonneg, fun b member own => ?_, earlier, fun writer opened => ?_⟩
  · rcases List.mem_or_eq_of_mem_set member with before | rfl
    · exact upTo b before own
    · exact upTo a (List.mem_of_getElem? here) own
  · have before := held writer opened
    unfold Held at before ⊢
    rwa [pieces_failed here open_]

/-- An error that the peer tells of, in answer to a request of the task. -/
theorem matched_failed (matched : Matched x) (is : x.state.task = some h)
    (refuses : Refuses h (Reply.response (.failed msgFlags) a.request))
    (here : x.asked[k]? = some a) (own : a.task = x.tasks) (open_ : a.reply = none) :
    Matched ((x.replied k a (.failed msgFlags)).move
        (x.state.failedResponse (x.state.working h) (Reply.response (.failed msgFlags) a.request) o)) ∧
      (running (x.state.failedResponse (x.state.working h)
        (Reply.response (.failed msgFlags) a.request) o) = false →
        recvRetryTimes < failures (x.replied k a (.failed msgFlags)).asked x.tasks) := by
  have unfinished := refuses.1
  have inOrder := matched.inOrder h is
  have waiting := matched.waiting h is unfinished
  have asks := (answered_replied (.failed msgFlags) waiting here own open_).2
  have all := allAnswered_replied matched (.failed msgFlags) waiting here own open_
  have counted :
      x.state.retryCount + 1 ≤ failures (x.replied k a (.failed msgFlags)).asked x.tasks := by
    have before := matched.counted h is unfinished
    have now :
        failures (x.replied k a (.failed msgFlags)).asked x.tasks =
        failures x.asked x.tasks + 1 := by
      refine (failures_set here open_).trans ?_
      simp [own, Reply.isFailed]
    omega
  unfold State.failedResponse
  dsimp only
  split
  case isTrue enough =>
    refine ⟨?_, fun _ => by omega⟩
    have good : Good Anything h.files h.targetDir ((x.state.working h).setProgress
        { (x.state.working h).progress with
          error := some (.invalidRequest ("Failed to read file contents, stream id: " ++
            toString (Reply.response (.failed msgFlags) a.request).streamId ++ ", msg_flags: " ++
            toString (Reply.response (.failed msgFlags) a.request).msgFlags)) }) :=
      inOrder.of_same rfl rfl rfl rfl rfl rfl rfl rfl
    have ended : Failed ((x.state.working h).setProgress
        { (x.state.working h).progress with
          error := some (.invalidRequest ("Failed to read file contents, stream id: " ++
            toString (Reply.response (.failed msgFlags) a.request).streamId ++ ", msg_flags: " ++
            toString (Reply.response (.failed msgFlags) a.request).msgFlags)) }) := .inl rfl
    have calm : (x.state.working h).progress.isCanceled = false := not_canceled unfinished
    refine matched_goOn (x := x.replied k a (.failed msgFlags)) rfl good
      (.inl ended.isFinished) calm all
      (matched.sizes h is) (fun no => ?_) counted
    rw [ended.isFinished] at no
    cases no
  case isFalse few =>
    constructor
    · exact matched_goOn (x := x.replied k a (.failed msgFlags)) rfl inOrder.toGood inOrder.ready
        (not_canceled unfinished) all (matched.sizes h is)
        (fun _ => ongoing_failed (matched.ongoing h is unfinished) here open_) counted
    · intro stopped
      have asks' : (x.state.working h).handle.fileContentsRequest = .ok (some a.request) := asks
      have unfinished' : (x.state.working h).handle.isFinished = false := unfinished
      simp [running, State.goOn, State.request, asks', unfinished', State.put] at stopped

/-- The task ends with an error of its own. -/
theorem matched_onError (requests : s.requests = x.state.requests)
    (good : Good Anything files targetDir w)
    (running : w.progress.isCanceled = false) (all : AllAnswered x w.notes)
    (sizes : ∀ desc ∈ files, desc.size < 2 ^ 64) (counted : s.retryCount ≤ failures x.asked x.tasks)
    (e : PasteError) : Matched (x.move (s.goOn (w.onError e o) o)) := by
  obtain ⟨after, -⟩ := good.onError (o := o) anything_opens.toPreserves e
  have finished := Failed.isFinished (State.failed_onError (w := w) (o := o) e)
  refine matched_goOn requests after (.inl finished) running all sizes (fun no => ?_) counted
  rw [finished] at no
  cases no

/-- Nothing was asked about the file that has just been opened. -/
theorem ongoing_of_onward {task : Nat} (onward : Onward index w)
    (good : Good Anything files targetDir w) (start : -1 ≤ index)
    (opened : w.progress.fileHandle ≠ none)
    (upTo : ∀ a ∈ asked, a.task = task → a.request.listIndex ≤ index)
    (earlier : ∀ file ∈ renames w.notes, file.1 ≤ index) : Ongoing asked task w := by
  obtain ⟨writer, here, holding, offset, later⟩ := onward.resolve_left opened
  have before (a : Asked) (member : a ∈ asked) (own : a.task = task) :
      a.request.listIndex < w.progress.listIndex :=
    Int.lt_of_le_of_lt (upTo a member own) later
  refine ⟨by omega, fun a member own => Int.le_of_lt (before a member own),
    fun file member => Int.lt_of_le_of_lt (earlier file member) later, fun writer' here' => ?_⟩
  obtain rfl := Option.some.inj (here.symm.trans here')
  obtain ⟨desc, -, -, some_, size⟩ := (good.open_ writer here).desc
  have none_ : pieces asked task w.progress.listIndex = [] := pieces_eq_nil before
  unfold Held
  rw [none_, offset, size]
  exact ⟨holding, trivial, rfl, Nat.pos_of_ne_zero some_⟩

/-- What the pieces tell of the file that is written to, and of the one after it. -/
theorem received {task size : Nat} (unfinished : w.handle.isFinished = false)
    (opened : w.progress.fileHandle = some writer) (open_ : OpenAt w writer)
    (holding : Holding writer w.volume (joined (pieces asked task w.progress.listIndex)))
    (row : InRow 0 (pieces asked task w.progress.listIndex))
    (length : (joined (pieces asked task w.progress.listIndex)).length = w.progress.offset + size)
    (fits : (joined (pieces asked task w.progress.listIndex)).length < 2 ^ 64)
    (upTo : ∀ a ∈ asked, a.task = task → a.request.listIndex ≤ w.progress.listIndex)
    (earlier : ∀ file ∈ renames w.notes, file.1 < w.progress.listIndex)
    (noted : Noted asked task w.notes) (flushed : .notFlushed ∉ (w.updateNext size o).1.notes)
    (good : Good Anything files targetDir (w.updateNext size o).1) :
    Noted asked task (w.updateNext size o).1.notes ∧
      ((w.updateNext size o).1.progress.fileHandle ≠ none →
        Ongoing asked task (w.updateNext size o).1) := by
  have cases_ := updateNext_renames unfinished opened open_ holding length fits flushed
  generalize (w.updateNext size o).1 = after at cases_ good ⊢
  have nonneg := open_.index.2.1
  rcases cases_ with ⟨same, opened', index, offset, early, held⟩ | ⟨same, onward⟩
  · unfold Noted
    rw [same]
    refine ⟨noted,
      fun _ => ⟨index ▸ nonneg, index ▸ upTo, index ▸ same ▸ earlier, fun writer' here => ?_⟩⟩
    obtain rfl := Option.some.inj (opened'.symm.trans here)
    unfold Held
    rw [index, offset]
    exact ⟨held, row, rfl, early⟩
  · have before : ∀ file ∈ renames after.notes, file = (w.progress.listIndex,
        joined (pieces asked task w.progress.listIndex)) ∨ file ∈ renames w.notes := by
      rcases same with same | same
      · rw [same]
        exact fun file => .inr
      · rw [same]
        exact fun file => List.mem_cons.mp
    refine ⟨fun file member => ?_,
      fun some_ => ongoing_of_onward onward good (by omega) some_ upTo fun file member => ?_⟩
    · rcases before file member with rfl | old
      · exact ⟨row, rfl⟩
      · exact noted file old
    · rcases before file member with rfl | old
      · exact Int.le_refl _
      · exact Int.le_of_lt (earlier file old)

/-- Data that was taken as a whole. -/
theorem handle_written (opened : w.progress.fileHandle = some writer)
    (taken : writer.write w.volume data o = (v, writer', true)) :
    w.handleFileContentsResponse data o = (written w v writer').updateNext data.length o := by
  simp only [Working.handleFileContentsResponse, opened, taken]
  rfl

theorem received_written (matched : Matched x) (is : x.state.task = some h)
    (unfinished : h.isFinished = false) (opened : h.progress.fileHandle = some writer)
    (taken : writer.write x.state.volume data o = (v, writer', true)) (here : x.asked[k]? = some a)
    (own : a.task = x.tasks) (open_ : a.reply = none) (fits : data.length ≤ a.request.cbRequested)
    (flushed : .notFlushed ∉
    ((written (x.state.working h) v writer').updateNext data.length o).1.notes) :
    Noted (x.replied k a (.data data)).asked x.tasks
        ((written (x.state.working h) v writer').updateNext data.length o).1.notes ∧
      (((written (x.state.working h) v writer').updateNext data.length o).1.progress.fileHandle ≠ none →
        Ongoing (x.replied k a (.data data)).asked x.tasks
          ((written (x.state.working h) v writer').updateNext data.length o).1) := by
  have inOrder := matched.inOrder h is
  have waiting := matched.waiting h is unfinished
  obtain ⟨nonneg, upTo, earlier, held⟩ := matched.ongoing h is unfinished
  obtain ⟨holding, row, length, early⟩ := held writer opened
  obtain ⟨holding', grows, place⟩ := holding_write holding taken rfl
  have openAt := inOrder.open_ writer opened
  obtain ⟨request, same, index, position, file, listed, -, most⟩ :=
    request_of_asks (by simp [unfinished]) (answered_replied (.data data) waiting here own open_).2
  obtain rfl := Option.some.inj same
  have pieces_ : pieces (x.replied k a (.data data)).asked x.tasks h.progress.listIndex =
      pieces x.asked x.tasks h.progress.listIndex ++ [(a.request.nPosition, data)] :=
    index ▸ pieces_replied data waiting here own open_
  have joined_ : joined (pieces (x.replied k a (.data data)).asked x.tasks h.progress.listIndex) =
      joined (pieces x.asked x.tasks h.progress.listIndex) ++ data := by
    simp [pieces_, joined]
  have after := (inOrder.handleFileContentsResponse (o := o) anything_opens data).1
  rw [handle_written (w := x.state.working h) opened taken] at after
  refine received (w := written (x.state.working h) v writer') unfinished rfl
    (openAt_written openAt grows place holding')
    ?_ ?_ ?_ ?_ ?_ earlier (noted_replied matched here open_) flushed after
  · exact joined_ ▸ holding'
  · change InRow 0 (pieces _ _ h.progress.listIndex)
    rw [pieces_, inRow_append]
    exact ⟨row, by rw [position, Nat.zero_add]; exact length.symm, trivial⟩
  · change (joined (pieces _ _ h.progress.listIndex)).length = h.progress.offset + data.length
    rw [joined_, List.length_append]
    exact congrArg (· + data.length) length
  · obtain ⟨desc, here', -, -, size⟩ := openAt.desc
    have same : desc = file := Option.some.inj (here'.symm.trans listed)
    have small := matched.sizes h is file (List.mem_of_getElem? listed)
    have early : h.progress.offset < h.progress.downloadFileSize := early
    have length :
        (joined (pieces x.asked x.tasks h.progress.listIndex)).length = h.progress.offset := length
    have size : h.progress.downloadFileSize = file.size := same ▸ size
    change (joined (pieces _ _ h.progress.listIndex)).length < 2 ^ 64
    rw [joined_, List.length_append, length]
    have upTo := Nat.le_trans fits (most ▸ Nat.min_le_right ..)
    omega
  · intro b member own'
    rcases List.mem_or_eq_of_mem_set member with before | rfl
    · exact upTo b before own'
    · exact Int.le_of_eq index

/-- Data that the peer sends, in answer to a request of the task. -/
theorem matched_accepted (matched : Matched x) (is : x.state.task = some h)
    (accepts : Accepts h (Reply.response (.data data) a.request)) (here : x.asked[k]? = some a)
    (own : a.task = x.tasks) (open_ : a.reply = none) (fits : data.length ≤ a.request.cbRequested)
    (flushed : .notFlushed ∉ (x.state.accepted h (Reply.response (.data data) a.request) o).notes) :
    Matched ((x.replied k a (.data data)).move
      (x.state.accepted h (Reply.response (.data data) a.request) o)) := by
  have unfinished := accepts.1
  have calm : (x.state.working h).progress.isCanceled = false := not_canceled unfinished
  have inOrder := matched.inOrder h is
  have sizes := matched.sizes h is
  have all := allAnswered_replied matched (.data data) (matched.waiting h is unfinished) here own open_
  have counted : x.state.retryCount ≤ failures (x.replied k a (.data data)).asked x.tasks :=
    Nat.le_trans (matched.counted h is unfinished) (failures_le_set here open_)
  obtain ⟨after, ready⟩ := inOrder.handleFileContentsResponse (o := o) anything_opens data
  unfold State.accepted at flushed ⊢
  cases opened : (x.state.working h).progress.fileHandle with
  | none =>
      simp only [Working.handleFileContentsResponse, opened]
      exact matched_onError
        (x := x.replied k a (.data data)) rfl inOrder.toGood calm all sizes counted _
  | some writer =>
      cases written_ : writer.write (x.state.working h).volume data o with
      | mk v rest =>
          obtain ⟨writer', ok⟩ := rest
          cases ok with
          | false =>
              have same : (x.state.working h).handleFileContentsResponse data o =
                  (written (x.state.working h) v writer',
                    some (.fileError h.progress.downloadFilePath)) := by
                simp only [Working.handleFileContentsResponse, opened, written_]
                rfl
              rw [same] at after
              simp only [Reply.response, same]
              exact matched_onError (x := x.replied k a (.data data)) rfl after calm all sizes counted _
          | true =>
              have same := handle_written opened written_
              have calm' := updateNext_isCanceled (written (x.state.working h) v writer') data.length o
              have some_ :=
                updateNext_ready (w := written (x.state.working h) v writer')
                (o := o) data.length unfinished
              have received :=
                received_written (o := o) matched is unfinished opened written_ here own open_ fits
              rw [same] at after ready
              simp only [Reply.response, same] at flushed ⊢
              generalize (written (x.state.working h) v writer').updateNext data.length o = r at *
              obtain ⟨w, error⟩ := r
              cases error with
              | some e =>
                  have flushed' : .notFlushed ∉ w.notes := fun member =>
                    flushed ((State.goOn_notes x.state (w.onError e o) o).subset member)
                  have all' : AllAnswered (x.replied k a (.data data)) w.notes :=
                    ⟨(received flushed').1, all.refused, all.answered, all.known⟩
                  exact matched_onError (x := x.replied k a (.data data)) rfl after
                    (calm'.trans calm) all' sizes counted e
              | none =>
                  have flushed' := fun member => flushed ((State.goOn_notes ..).subset member)
                  obtain ⟨noted, ongoing⟩ := received flushed'
                  refine matched_goOn (x := x.replied k a (.data data)) rfl after (ready rfl)
                    (calm'.trans calm)
                    ⟨noted, all.refused, all.answered, all.known⟩ sizes (fun no => ongoing ?_) counted
                  exact (some_ rfl).resolve_left (by simp [no])

@[simp] theorem move_state (x : Exchange) : x.move x.state = x := by simp [move]

/-- What a start makes of an empty task. -/
theorem updateNext_fresh (v : Volume) (targetDir : Text) (files : List FileDescription) (o : Outcomes) :
    renames ((State.fresh v targetDir files).updateNext 0 o).1.notes = [] ∧
      (((State.fresh v targetDir files).updateNext 0 o).1.handle.isFinished = false →
        Onward (-1) ((State.fresh v targetDir files).updateNext 0 o).1 ∧
          (((State.fresh v targetDir files).updateNext 0 o).1.progress.fileHandle = none →
            0 ≤ ((State.fresh v targetDir files).updateNext 0 o).1.progress.listIndex)) := by
  by_cases finished : (State.fresh v targetDir files).handle.isFinished = true
  · rw [Working.updateNext, if_pos finished]
    refine ⟨rfl, fun no => ?_⟩
    rw [finished] at no
    cases no
  · have start : (State.fresh v targetDir files).progress.listIndex = -1 := rfl
    rw [updateNext_eq (by simpa using finished), if_pos start]
    obtain ⟨same, onward⟩ :=
      goThrough_onward (w := (State.fresh v targetDir files).counting 0) (o := o) rfl
    refine ⟨same, fun unfinished => ⟨onward, fun closed => ?_⟩⟩
    cases error : (goThrough ((State.fresh v targetDir files).counting 0) o).2 with
    | some e => exact goThrough_stuck error
    | none =>
        rcases goThrough_ready error with ended | some_
        · rw [ended] at unfinished
          cases unfinished
        · exact absurd closed some_

theorem start_goOn {s : State} (free : ∀ h ∈ s.task, h.isFinished = true) (none_ : s.retryCount = 0) :
    s.start targetDir files o =
      { s with foreign := s.volume.tree.node }.goOn
        ((State.fresh s.volume targetDir files).updateNext 0 o).1 o := by
  rw [State.start_eq free, State.goOn]
  split
  case isTrue => simp [State.put, none_]
  case isFalse => rfl

section

variable (matched : Matched x)

include matched

theorem matched_start (free : running x.state = false) (none_ : x.state.retryCount = 0)
    (sizes : ∀ desc ∈ files, desc.size < 2 ^ 64) :
    Matched ({ x with tasks := x.tasks + 1, refused := false }.move
      (x.state.start targetDir files o)) := by
  have free : ∀ h ∈ x.state.task, h.isFinished = true := by
    intro h is
    simpa [running, show x.state.task = some h from is] using free
  have new : ∀ a ∈ x.asked, a.task ≠ x.tasks + 1 := fun a member own => by
    have := matched.known a member
    omega
  have good : Good Anything files targetDir (State.fresh x.state.volume targetDir files) :=
    ⟨rfl, rfl, nofun, trivial⟩
  obtain ⟨after, ready⟩ := good.updateNext (o := o) anything_opens (fun _ => rfl) 0
  obtain ⟨nothing, onward⟩ := updateNext_fresh x.state.volume targetDir files o
  have calm := updateNext_isCanceled (State.fresh x.state.volume targetDir files) 0 o
  rw [start_goOn free none_]
  refine matched_goOn (x := { x with tasks := x.tasks + 1, refused := false }) rfl after
    (ready (.inr ⟨rfl, rfl⟩))
    calm ⟨?_, nofun, fun a member own => absurd own (new a member),
      fun a member => ?_⟩ sizes (fun unfinished => ?_)
    (none_ ▸ Nat.zero_le _)
  · intro file member
    simp [nothing] at member
  · exact Nat.le_succ_of_le (matched.known a member)
  · obtain ⟨onward, stuck⟩ := onward unfinished
    by_cases closed : ((State.fresh x.state.volume targetDir files).updateNext 0 o).1.progress.fileHandle = none
    · refine ⟨stuck closed, fun a member own => absurd own (new a member),
        by simp [nothing], by simp [closed]⟩
    · refine ongoing_of_onward onward after (by decide) closed
        (fun a member own => absurd own (new a member)) ?_
      simp [nothing]

theorem matched_cancel : Matched (x.move (x.state.cancel o)) := by
  cases task : x.state.task with
  | none => simpa [State.cancel, task] using matched
  | some h =>
      have inOrder := matched.inOrder h task
      have good : Good Anything h.files h.targetDir
          ((x.state.working h).setProgress { (x.state.working h).progress with isCanceled := true }) :=
        inOrder.of_same rfl rfl rfl rfl rfl rfl rfl rfl
      obtain ⟨after, closed⟩ := good.onCancelled (o := o) anything_opens.toPreserves o.remove
      simp only [State.cancel, task]
      exact matched_of_finished rfl rfl rfl rfl
        (State.ended after closed rfl) rfl matched.noted matched.refused
        matched.clear matched.known (matched.sizes h task)

theorem matched_timeout {late : Bool} :
    Matched (x.move (x.state.timeout late o)) := by
  cases task : x.state.task with
  | none => simpa [State.timeout, task] using matched
  | some h =>
      simp only [State.timeout, task]
      split
      case isTrue => simpa using matched
      case isFalse going =>
        have unfinished : h.isFinished = false := by
          simp only [Bool.or_eq_true, not_or, Bool.not_eq_true] at going
          exact going.1
        have inOrder := matched.inOrder h task
        have good : Good Anything h.files h.targetDir ((x.state.working h).setProgress
            { (x.state.working h).progress with error := some (.invalidRequest "Failed to read file contents") }) :=
          inOrder.of_same rfl rfl rfl rfl rfl rfl rfl rfl
        obtain ⟨after, closed⟩ := good.onFinished (o := o) anything_opens.toPreserves
        have failed := State.failed_onFinished (o := o) (w := (x.state.working h).setProgress
          { (x.state.working h).progress with error := some (.invalidRequest "Failed to read file contents") }) rfl
        have calm : (x.state.working h).progress.isCanceled = false := not_canceled unfinished
        have same := onFinished_renames (o := o) good calm (Failed.isFinished (.inl rfl))
        refine matched_of_finished rfl rfl rfl rfl
          (State.ended after closed failed.isFinished) failed.isFinished ?_
          matched.refused ?_ matched.known (matched.sizes h task)
        · unfold Noted
          rw [same]
          exact matched.noted
        · rw [same]
          exact matched.clear

theorem matched_other {p : Place} {n : Node} :
    Matched (x.move (x.state.other p n)) := by
  obtain ⟨task, notes⟩ := State.other_task (s := x.state) p n
  have counters : (x.state.other p n).requests = x.state.requests ∧
      (x.state.other p n).retryCount = x.state.retryCount := by
    unfold State.other
    split <;> exact ⟨rfl, rfl⟩
  have asked : (x.move (x.state.other p n)).asked = x.asked := by simp [move, counters.1]
  have is' {h : PasteTaskHandle} (is : h ∈ (x.move (x.state.other p n)).state.task) :
      h ∈ x.state.task := task ▸ is
  refine ⟨?_, ?_, ?_, ?_, fun h is => ?_, fun h is => matched.sizes h (is' is),
    fun h is unfinished => ?_,
    fun h is unfinished => ?_, fun h is unfinished => ?_⟩
  · rw [asked]
    exact notes.symm ▸ matched.noted
  · rw [asked]
    exact matched.refused
  · rw [asked]
    exact notes.symm ▸ matched.clear
  · rw [asked]
    exact matched.known
  · obtain ⟨good, ready, closed⟩ := matched.inOrder h (is' is)
    exact ⟨⟨rfl, rfl, fun writer opened => State.openAt_other (good.open_ writer opened), trivial⟩,
      ready, closed⟩
  · rw [asked]
    exact matched.waiting h (is' is) unfinished
  · rw [asked]
    obtain ⟨nonneg, upTo, earlier, held⟩ := matched.ongoing h (is' is) unfinished
    refine ⟨nonneg, upTo, fun file member => earlier file ?_, fun writer opened => ?_⟩
    · exact (congrArg renames notes : _ = renames x.state.notes) ▸ member
    obtain ⟨⟨content, modified, file, same⟩, rest⟩ := held writer opened
    exact ⟨⟨content, modified, State.node_other file, same⟩, rest⟩
  · rw [asked]
    exact counters.2.symm ▸ matched.counted h (is' is) unfinished

/-- When the task has ended with an answer that tells of an error. -/
theorem refused_of (here : x.asked[k]? = some a) (open_ : a.reply = none)
    (enough : reply.isFailed = true → running x.state = true → running s = false →
      recvRetryTimes < failures (x.replied k a reply).asked x.tasks) :
    (x.refused || reply.isFailed && running x.state && !running s) = true →
      recvRetryTimes < failures ((x.replied k a reply).move s).asked x.tasks := by
  intro now
  have same :
      failures ((x.replied k a reply).move s).asked x.tasks =
      failures (x.replied k a reply).asked x.tasks :=
    failures_new ..
  rw [same]
  simp only [Bool.or_eq_true, Bool.and_eq_true, Bool.not_eq_true'] at now
  rcases now with before | ⟨⟨failed, was⟩, ended⟩
  · exact refused_replied matched here open_ before
  · exact enough failed was ended

/-- One answer. -/
theorem matched_answer (here : x.asked[k]? = some a) (open_ : a.reply = none)
    (fits : reply.Fits a.request) (own : Own x (.answer k reply o)) :
    Matched (x.answer k a reply o) := by
  have step_ : x.step (.answer k reply o) = x.answer k a reply o := by simp [step, here, open_, fits]
  obtain ⟨flushed, own⟩ := own
  rw [step_] at flushed
  unfold answer
  rcases x.state.response_cases (reply.response a.request) o with
    ⟨ignored, same⟩ | ⟨h, is, refuses, same⟩ | ⟨h, is, accepts, same⟩
  · rw [same]
    refine matched_of_refused (y := (x.replied k a reply).move x.state) ?_
      (refused_of matched here open_ fun _ now ended => ?_)
    · simpa [replied] using matched_ignored matched here open_ ignored
    · rw [now] at ended
      cases ended
  · have mine := own a here h is (.inr refuses)
    rw [same]
    cases reply with
    | data data => exact absurd rfl refuses.2.2
    | failed msgFlags =>
        obtain ⟨after, enough⟩ := matched_failed (o := o) matched is refuses here mine open_
        exact matched_of_refused after (refused_of matched here open_ fun _ _ => enough)
  · have mine := own a here h is (.inl accepts)
    rw [same]
    cases reply with
    | failed msgFlags => exact absurd accepts.2.2.1 fits
    | data data =>
        refine matched_of_refused (y := (x.replied k a (.data data)).move
          (x.state.accepted h (Reply.response (.data data) a.request) o)) ?_
            (refused_of matched here open_ nofun)
        have flushed :
            .notFlushed ∉ (x.state.response (Reply.response (.data data) a.request) o).notes :=
            flushed
        exact matched_accepted matched is accepts here mine open_ fits (same ▸ flushed)

theorem matched_step (e : Event) (own : Own x e) : Matched (x.step e) := by
  cases e with
  | start targetDir files o =>
      by_cases free : running x.state = false
      · obtain ⟨none_, sizes⟩ := own.2 free
        simpa [step, free] using matched_start matched free none_ sizes
      · simpa [step, free] using matched
  | cancel o => exact matched_cancel matched
  | timeout late o => exact matched_timeout matched
  | other p n => exact matched_other matched
  | answer k reply o =>
      cases here : x.asked[k]? with
      | none => simpa [step, here] using matched
      | some a =>
          by_cases fine : a.reply = none ∧ reply.Fits a.request
          · have := matched_answer matched here fine.1 fine.2 own
            simpa [step, here, fine] using this
          · simpa [step, here, fine] using matched

end

theorem matched_initial (v : Volume) : Matched (initial v) := by
  have idle {p : PasteTaskHandle → Prop} : ∀ h ∈ (initial v).state.task, p h :=
    fun _ is => absurd is (Option.not_mem_none _)
  exact ⟨List.forall_mem_nil _, nofun, List.forall_mem_nil _, List.forall_mem_nil _, idle, idle, idle,
    idle, idle⟩

end Exchange

/-- In a run in which a task only looks at answers to its own requests, the files that get
    their names consist of these answers. -/
theorem pasted_bytes_are_answers (v : Volume) (events : List Exchange.Event)
    (own : Along Exchange.step Own (Exchange.initial v) events) :
    Always Exchange.step Faithful (Exchange.initial v) events := by
  have always : Always Exchange.step Matched (Exchange.initial v) events :=
    Runs.always_of_along (fun x e matched now => Exchange.matched_step matched e now)
      (Exchange.matched_initial v) own
  exact always.mono fun x matched => ⟨matched.noted, matched.refused⟩

/-- A list with one file. -/
def oneOf (name : Text) (size : Nat) : List FileDescription :=
  [⟨0, name, .file, 0, 0, 0, 0, size, 0o644⟩]

theorem pasted_bytes_are_answers_one :
    Always Exchange.step Faithful (Exchange.initial withTarget)
      [.start ['/', 't'] (oneOf ['a'] 3) {}, .answer 0 (.data [1, 2, 3]) {}] := by
  apply pasted_bytes_are_answers
  refine ⟨⟨by decide +kernel, fun _ => by decide +kernel⟩, ⟨by decide +kernel, ?_⟩, trivial⟩
  rintro a is _ - -
  revert a
  decide +kernel

/-- The late answer to a task that was canceled becomes the file of the next one. -/
theorem late_answer_becomes_other_file :
    ¬ Always Exchange.step Faithful (Exchange.initial withTarget)
      [.start ['/', 't'] (oneOf ['a'] 3) {}, .cancel {}, .start ['/', 't'] (oneOf ['b'] 3) {},
        .answer 0 (.data [1, 2, 3]) {}] := by
  intro always
  have last := always.last
  have renamed := (last.renamed (0, [1, 2, 3]) (by decide +kernel)).2
  revert renamed
  decide +kernel

end RemoteControl.Clipboard.Paste
