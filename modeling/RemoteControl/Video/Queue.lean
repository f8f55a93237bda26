import RemoteControl.Runs
import RemoteControl.Tickets

/-! # Frames on their way to the decoder

The client sends key frames to the decoder thread of a display through a channel. Delta
frames go into a queue of bounded length, with a `VideoQueue` message for each. A full
queue drops its first frame for the new one, and no message is sent.

The message of the frame that is dropped goes to the next one then. With a key frame behind
it in the channel, a frame that came after the key frame overtakes it.
-/

namespace RemoteControl.Video.Queue

open Tickets

/-- `VIDEO_QUEUE_SIZE` -/
def videoQueueSize : Nat := 120

inductive MediaData (α : Type) where
  | videoQueue
  | videoFrame (vf : α)
  /-- `Reset` and `RecordScreen`, which are about no frame. -/
  | other
  deriving DecidableEq

/-- Where the decoder thread is. -/
inductive Decoder (α : Type) where
  | waiting
  /-- It has a `VideoQueue` message and takes a frame off the queue next. -/
  | hasToken
  /-- It has a frame from the queue and looks at `discard_queue` next. -/
  | popped (vf : α)
  /-- It has a key frame and takes `discard_queue` back next. -/
  | hasFrame (vf : α)
  deriving DecidableEq

structure State (α : Type) where
  channel : List (MediaData α) := []
  videoQueue : List α := []
  discardQueue : Bool := false
  /-- The receiving loop has put a frame into the queue and sends the message next. -/
  pushed : Bool := false
  decoder : Decoder α := .waiting
  /-- The frames received so far, for what is said about the run. -/
  received : List α := []
  /-- The frames given to `handle_frame`. -/
  handled : List α := []
  deriving DecidableEq

inductive Event (α : Type) where
  /-- A `VideoFrame` message arrives. -/
  | videoFrame (vf : α)
  /-- The receiving loop sends the message for a frame in the queue. -/
  | sendToken
  | sendOther
  /-- A refresh of the video is asked for, or the thread is given up. -/
  | discard
  /-- The decoder thread takes its next step. -/
  | decode
  deriving DecidableEq

variable {α : Type} (containsKeyFrame : α → Bool)

namespace State

/-- `force_push` -/
def forcePush (s : State α) (vf : α) : State α :=
  if s.videoQueue.length < videoQueueSize then
    { s with videoQueue := s.videoQueue ++ [vf], pushed := true }
  else { s with videoQueue := s.videoQueue.tail ++ [vf] }

/-- The branch for `VideoFrame` of `handle_msg_from_peer`. -/
def receive (s : State α) (vf : α) : State α :=
  if containsKeyFrame vf then
    { s with channel := s.channel ++ [.videoFrame vf], received := s.received ++ [vf] }
  else { s.forcePush vf with received := s.received ++ [vf] }

/-- One step of the loop of `start_video_thread`. -/
def decode (s : State α) : State α :=
  match s.decoder with
  | .waiting =>
      match s.channel with
      | [] => s
      | .videoQueue :: channel => { s with channel, decoder := .hasToken }
      | .videoFrame vf :: channel => { s with channel, decoder := .hasFrame vf }
      | .other :: channel => { s with channel }
  | .hasToken =>
      match s.videoQueue with
      | [] => { s with decoder := .waiting }
      | vf :: videoQueue => { s with videoQueue, decoder := .popped vf }
  | .popped vf =>
      if s.discardQueue then { s with decoder := .waiting }
      else { s with decoder := .waiting, handled := s.handled ++ [vf] }
  | .hasFrame vf =>
      { s with decoder := .waiting, discardQueue := false, handled := s.handled ++ [vf] }

/-- While the receiving loop is between its two operations it does nothing else. -/
def step (s : State α) : Event α → State α
  | .videoFrame vf => if s.pushed then s else s.receive containsKeyFrame vf
  | .sendToken =>
      if s.pushed then { s with channel := s.channel ++ [.videoQueue], pushed := false } else s
  | .sendOther => if s.pushed then s else { s with channel := s.channel ++ [.other] }
  | .discard => if s.pushed then s else { s with discardQueue := true }
  | .decode => s.decode

/-! ## What is under way -/

def item : MediaData α → List (Item α)
  | .videoQueue => [.ticket]
  | .videoFrame vf => [.direct vf]
  | .other => []

def heldToken : Decoder α → List (Item α)
  | .hasToken => [.ticket]
  | _ => []

def dueToken : Bool → List (Item α)
  | true => [.ticket]
  | false => []

/-- The message that the decoder holds, those in the channel, and the one that is sent next. -/
def underWay (s : State α) : List (Item α) :=
  heldToken s.decoder ++ s.channel.flatMap item ++ dueToken s.pushed

def heldFrame : Decoder α → List α
  | .popped vf => [vf]
  | .hasFrame vf => [vf]
  | _ => []

/-- The frame that the decoder holds. -/
def inHand (s : State α) : List α := heldFrame s.decoder

/-- The `VideoQueue` messages that no frame was taken for yet. -/
def pendingTokens (s : State α) : Nat := tickets s.underWay

end State

namespace State

variable {containsKeyFrame} {s s' : State α} {vf : α}

/-- The frames handled, and those that will be if nothing more happens to them. -/
def expected (s : State α) : List α := s.handled ++ s.inHand ++ merge s.underWay s.videoQueue

/-- Every frame in the queue has a message, and only delta frames go through it. -/
structure Paired (containsKeyFrame : α → Bool) (s : State α) : Prop where
  tokens : s.pendingTokens = s.videoQueue.length
  queued : ∀ vf ∈ s.videoQueue, containsKeyFrame vf = false
  popped : ∀ vf, s.decoder = .popped vf → containsKeyFrame vf = false

/-- What a step can do to the frames. -/
inductive Change (containsKeyFrame : α → Bool) (s : State α) (e : Event α) (s' : State α) : Prop where
  | same (expected : s'.expected = s.expected) (received : s'.received = s.received)
  | arrived (vf : α) (expected : s'.expected = s.expected ++ [vf])
      (received : s'.received = s.received ++ [vf])
  | discarded (vf : α) (later : List α) (delta : containsKeyFrame vf = false)
      (before : s.expected = s.handled ++ vf :: later) (after : s'.expected = s.handled ++ later)
      (received : s'.received = s.received)
  | overwritten (vf : α) (event : e = .videoFrame vf) (idle : s.pushed = false)
      (delta : containsKeyFrame vf = false) (full : videoQueueSize ≤ s.videoQueue.length)
      (expected : s'.expected =
        s.handled ++ s.inHand ++ merge s.underWay (s.videoQueue.tail ++ [vf]))
      (received : s'.received = s.received ++ [vf])

theorem delta_append {queue : List α} (queued : ∀ vf' ∈ queue, containsKeyFrame vf' = false)
    (delta : containsKeyFrame vf = false) :
    ∀ vf' ∈ queue ++ [vf], containsKeyFrame vf' = false := by
  intro vf' member
  rcases List.mem_append.mp member with old | last
  · exact queued vf' old
  · rw [List.mem_singleton.mp last]
    exact delta

section

variable (paired : Paired containsKeyFrame s)

include paired

section

variable (idle : s.pushed = false)

include idle

/-- A key frame goes into the channel, behind all that is under way. -/
theorem paired_receive_key (key : containsKeyFrame vf = true) :
    Paired containsKeyFrame (s.receive containsKeyFrame vf) ∧
      Change containsKeyFrame s (.videoFrame vf) (s.receive containsKeyFrame vf) := by
  have tokens := paired.tokens
  rw [pendingTokens] at tokens
  have way : (s.receive containsKeyFrame vf).underWay = s.underWay ++ [.direct vf] := by
    simp [receive, key, underWay, idle, item, dueToken]
  refine ⟨⟨?_, ?_, ?_⟩, .arrived vf ?_ ?_⟩
  · rw [pendingTokens, way]
    simpa [tickets, receive, key] using tokens
  · simpa [receive, key] using paired.queued
  · simpa [receive, key] using paired.popped
  · simp only [expected, way]
    simp [receive, key, inHand, merge_append_direct tokens]
  · simp [receive, key]

/-- A delta frame goes to the end of the queue, with a message of its own under way. -/
theorem paired_receive_room
    (delta : containsKeyFrame vf = false) (room : s.videoQueue.length < videoQueueSize) :
    Paired containsKeyFrame (s.receive containsKeyFrame vf) ∧
      Change containsKeyFrame s (.videoFrame vf) (s.receive containsKeyFrame vf) := by
  have tokens := paired.tokens
  rw [pendingTokens] at tokens
  have way : (s.receive containsKeyFrame vf).underWay = s.underWay ++ [.ticket] := by
    simp [receive, forcePush, delta, room, underWay, idle, dueToken]
  refine ⟨⟨?_, ?_, ?_⟩, .arrived vf ?_ ?_⟩
  · rw [pendingTokens, way]
    simpa [tickets, receive, forcePush, delta, room] using tokens
  · simpa [receive, forcePush, delta, room] using delta_append paired.queued delta
  · simpa [receive, forcePush, delta, room] using paired.popped
  · simp only [expected, way]
    simp [receive, forcePush, delta, room, inHand, merge_append_ticket tokens]
  · simp [receive, delta]

/-- A full queue loses its first frame to the new one. -/
theorem paired_receive_full
    (delta : containsKeyFrame vf = false) (full : videoQueueSize ≤ s.videoQueue.length) :
    Paired containsKeyFrame (s.receive containsKeyFrame vf) ∧
      Change containsKeyFrame s (.videoFrame vf) (s.receive containsKeyFrame vf) := by
  have tokens := paired.tokens
  rw [pendingTokens] at tokens
  have room : ¬ s.videoQueue.length < videoQueueSize := Nat.not_lt.mpr full
  have way : (s.receive containsKeyFrame vf).underWay = s.underWay := by
    simp [receive, forcePush, delta, room, underWay]
  have left : ∀ vf' ∈ s.videoQueue.tail, containsKeyFrame vf' = false := by
    intro vf' member
    exact paired.queued vf' (List.mem_of_mem_tail member)
  refine ⟨⟨?_, ?_, ?_⟩, .overwritten vf rfl idle delta full ?_ ?_⟩
  · have positive : 0 < videoQueueSize := by decide
    have same : (s.videoQueue.tail ++ [vf]).length = s.videoQueue.length := by
      simp only [List.length_append, List.length_tail, List.length_singleton]
      omega
    rw [pendingTokens, way, tokens]
    simp [receive, forcePush, delta, room, same, -List.length_append]
  · simpa [receive, forcePush, delta, room] using delta_append left delta
  · simpa [receive, forcePush, delta, room] using paired.popped
  · simp only [expected, way]
    simp [receive, forcePush, delta, room, inHand]
  · simp [receive, delta]

theorem paired_receive (vf : α) :
    Paired containsKeyFrame (s.receive containsKeyFrame vf) ∧
      Change containsKeyFrame s (.videoFrame vf) (s.receive containsKeyFrame vf) := by
  cases key : containsKeyFrame vf with
  | true => exact paired_receive_key paired idle key
  | false =>
      rcases Nat.lt_or_ge s.videoQueue.length videoQueueSize with room | full
      · exact paired_receive_room paired idle key room
      · exact paired_receive_full paired idle key full

end

theorem paired_decode :
    Paired containsKeyFrame s.decode ∧ Change containsKeyFrame s .decode s.decode := by
  have tokens := paired.tokens
  simp only [pendingTokens] at tokens
  obtain ⟨channel, queue, discard, pushed, decoder, received, handled⟩ := s
  cases decoder with
  | waiting =>
      cases channel with
      | nil => exact ⟨paired, .same rfl rfl⟩
      | cons m channel =>
          cases m with
          | videoQueue =>
              exact ⟨⟨tokens, paired.queued, by simp [decode]⟩, .same rfl rfl⟩
          | videoFrame vf =>
              refine ⟨⟨?_, paired.queued, by simp [decode]⟩, .same ?_ rfl⟩
              · simpa [pendingTokens, decode, underWay, heldToken, item, tickets] using tokens
              · simp [expected, decode, underWay, heldToken, inHand, heldFrame, item, merge]
          | other =>
              exact ⟨⟨tokens, paired.queued, by simp [decode]⟩, .same rfl rfl⟩
  | hasToken =>
      cases queue with
      | nil => simp [underWay, heldToken, tickets] at tokens
      | cons vf queue =>
          refine ⟨⟨?_, ?_, ?_⟩, .same ?_ rfl⟩
          · simpa [pendingTokens, decode, underWay, heldToken, tickets] using tokens
          · exact fun vf' member => paired.queued vf' (List.mem_cons_of_mem vf member)
          · intro vf' eq
            obtain rfl : vf = vf' := by simpa [decode] using eq
            exact paired.queued vf (List.mem_cons_self ..)
          · simp [expected, decode, underWay, heldToken, inHand, heldFrame, merge]
  | popped vf =>
      have delta := paired.popped vf rfl
      cases discard with
      | true =>
          refine ⟨⟨tokens, paired.queued, by simp [decode]⟩, ?_⟩
          refine .discarded vf (merge (channel.flatMap item ++ dueToken pushed) queue) delta ?_ ?_ rfl
          · simp [expected, inHand, heldFrame, underWay, heldToken]
          · simp [expected, decode, inHand, heldFrame, underWay, heldToken]
      | false =>
          refine ⟨⟨tokens, paired.queued, by simp [decode]⟩, .same ?_ rfl⟩
          simp [expected, decode, inHand, heldFrame, underWay, heldToken]
  | hasFrame vf =>
      refine ⟨⟨tokens, paired.queued, by simp [decode]⟩, .same ?_ rfl⟩
      simp [expected, decode, inHand, heldFrame, underWay, heldToken]

theorem paired_step (e : Event α) :
    Paired containsKeyFrame (s.step containsKeyFrame e) ∧
      Change containsKeyFrame s e (s.step containsKeyFrame e) := by
  have stays : Paired containsKeyFrame s ∧ Change containsKeyFrame s e s := ⟨paired, .same rfl rfl⟩
  have tokens := paired.tokens
  simp only [pendingTokens] at tokens
  cases e with
  | videoFrame vf =>
      simp only [step]
      split
      · exact stays
      · exact paired_receive paired (by simpa using ‹¬ s.pushed = true›) vf
  | sendToken =>
      simp only [step]
      split
      · rename_i pushed
        have way :
            ({ s with channel := s.channel ++ [.videoQueue], pushed := false } : State α).underWay =
            s.underWay := by simp [underWay, pushed, item, dueToken]
        refine ⟨⟨?_, paired.queued, paired.popped⟩, .same ?_ rfl⟩
        · rw [pendingTokens, way, tokens]
        · simp only [expected, way]
          rfl
      · exact stays
  | sendOther =>
      simp only [step]
      split
      · exact stays
      · have way : ({ s with channel := s.channel ++ [.other] } : State α).underWay = s.underWay := by
          simp [underWay, item]
        refine ⟨⟨?_, paired.queued, paired.popped⟩, .same ?_ rfl⟩
        · rw [pendingTokens, way, tokens]
        · simp only [expected, way]
          rfl
  | discard =>
      simp only [step]
      split
      · exact stays
      · exact ⟨⟨paired.tokens, paired.queued, paired.popped⟩, .same rfl rfl⟩
  | decode => exact paired_decode paired

end

/-- What can be said about every state: who is paired with what, and the key frames. -/
structure Inv (containsKeyFrame : α → Bool) (s : State α) : Prop where
  paired : Paired containsKeyFrame s
  keys : s.expected.filter containsKeyFrame = s.received.filter containsKeyFrame

theorem inv_init : Inv containsKeyFrame {} where
  paired := ⟨rfl, by simp, by simp⟩
  keys := rfl

theorem Inv.step (inv : Inv containsKeyFrame s) (e : Event α) :
    Inv containsKeyFrame (s.step containsKeyFrame e) := by
  obtain ⟨paired, change⟩ := paired_step inv.paired e
  refine ⟨paired, ?_⟩
  cases change with
  | same expected received => rw [expected, received, inv.keys]
  | arrived vf expected received =>
      rw [expected, received, List.filter_append, List.filter_append, inv.keys]
  | discarded vf later delta before after received =>
      rw [after, received, ← inv.keys, before]
      simp [delta]
  | overwritten vf event idle delta full expected received =>
      have queued : ∀ b ∈ s.videoQueue.tail ++ [vf], containsKeyFrame b = false := by
        intro b member
        rcases List.mem_append.mp member with old | last
        · exact inv.paired.queued b (List.mem_of_mem_tail old)
        · rwa [List.mem_singleton.mp last]
      have keys := inv.keys
      rw [State.expected, List.filter_append, filter_merge inv.paired.queued] at keys
      rw [expected, received, List.filter_append, filter_merge queued, keys]
      simp [delta]

/-- A frame of the queue is overwritten only while no key frame is behind a `VideoQueue`
    message. -/
def OverwritesInOrder (containsKeyFrame : α → Bool) (s : State α) : Event α → Prop
  | .videoFrame vf =>
      containsKeyFrame vf = false → s.pushed = false → videoQueueSize ≤ s.videoQueue.length →
        directsFirst s.underWay = true
  | _ => True

theorem expected_step (inv : Inv containsKeyFrame s) {e : Event α}
    (order : s.expected.Sublist s.received) (fine : OverwritesInOrder containsKeyFrame s e) :
    (s.step containsKeyFrame e).expected.Sublist (s.step containsKeyFrame e).received := by
  obtain ⟨-, change⟩ := paired_step inv.paired e
  cases change with
  | same expected received => rwa [expected, received]
  | arrived vf expected received =>
      rw [expected, received]
      exact order.append_right [vf]
  | discarded vf later delta before after received =>
      rw [after, received]
      rw [before] at order
      exact ((List.sublist_cons_self vf later).append_left s.handled).trans order
  | overwritten vf event idle delta full expected received =>
      subst event
      have first := fine delta idle full
      have some_ : s.videoQueue ≠ [] := by
        intro none_
        simp [none_, videoQueueSize] at full
      have kept := merge_overwrite (b := vf) first inv.paired.tokens some_
      rw [expected, received]
      apply (kept.append_left (s.handled ++ s.inHand)).trans
      rw [← List.append_assoc]
      exact order.append_right [vf]

/-- What the client relies on. -/
structure Delivered (containsKeyFrame : α → Bool) (s : State α) : Prop where
  order : s.handled.Sublist s.received
  keys : s.channel = [] → s.decoder = .waiting →
    s.handled.filter containsKeyFrame = s.received.filter containsKeyFrame
  tokens : s.videoQueue.length ≤ s.pendingTokens

theorem delivered_of_inv (inv : Inv containsKeyFrame s) (order : s.expected.Sublist s.received) :
    Delivered containsKeyFrame s where
  order := by
    rw [expected, List.append_assoc] at order
    exact (List.sublist_append_left ..).trans order
  keys empty waiting := by
    have keys := inv.keys
    have due : (merge (dueToken s.pushed) s.videoQueue).filter containsKeyFrame = [] := by
      rw [filter_merge inv.paired.queued]
      cases s.pushed <;> rfl
    simpa [expected, inHand, underWay, heldFrame, heldToken, empty, waiting, due] using keys
  tokens := Nat.le_of_eq inv.paired.tokens.symm

/-- When every overwriting is in order, all that is handled is in order. The key frames and
    the messages are there in any case. -/
theorem delivered {events : List (Event α)}
    (fine : Runs.Along (State.step containsKeyFrame) (OverwritesInOrder containsKeyFrame) {} events) :
    Runs.Always (State.step containsKeyFrame) (Delivered containsKeyFrame) {} events := by
  have always : Runs.Always (State.step containsKeyFrame)
      (fun s => Inv containsKeyFrame s ∧ s.expected.Sublist s.received) {} events := by
    apply Runs.always_of_along _ ⟨inv_init, List.Sublist.refl _⟩ fine
    rintro s e ⟨inv, order⟩ inOrder
    exact ⟨inv.step e, expected_step inv order inOrder⟩
  exact always.mono fun s ⟨inv, order⟩ => delivered_of_inv inv order

/-- A delta frame, a key frame, 119 more delta frames, which fill the queue, and one more,
    which overwrites the first. Then the decoder thread takes what it was sent first. -/
def overtaking : List (Event (Nat × Bool)) :=
  [.videoFrame (0, false), .sendToken, .videoFrame (1, true)] ++
    (List.range 119).flatMap (fun i => [.videoFrame (i + 2, false), .sendToken]) ++
      [.videoFrame (121, false), .decode, .decode, .decode, .decode, .decode]

theorem overtaking_not_delivered :
    ¬ ∀ events : List (Event (Nat × Bool)),
      Runs.Always (State.step Prod.snd) (Delivered Prod.snd) {} events := by
  intro all
  have order := (all overtaking).last.order
  revert order
  decide +kernel

theorem delivered_three :
    Runs.Always (State.step Prod.snd) (Delivered Prod.snd) {}
      [.videoFrame (0, true), .decode, .videoFrame (1, false), .decode, .sendToken, .discard,
        .decode, .videoFrame (2, true), .decode, .decode, .decode, .decode] :=
  delivered (by simp [Runs.Along, OverwritesInOrder, State.step, State.receive, State.forcePush,
    State.decode, videoQueueSize])

end State

end RemoteControl.Video.Queue
