import Mathlib.Algebra.Ring.Int.Defs
import Mathlib.Algebra.Ring.Nat
import RemoteControl.Video.Codec

/-! # Recording a session

A `Recorder` writes encoded frames into files. It begins a new one when the size or the
codec of the picture changes, and when a timestamp goes back. A file without a frame, or
of less than a second, is removed when it is closed.

What happens to the files is announced on the channel of the context. The closing message
comes from the destructor of the writer, the opening one from `Recorder::check`.
-/

namespace RemoteControl.Video.Recorder

open Runs (exec)

structure EncodedVideoFrame where
  data : List UInt8 := []
  key : Bool
  pts : Int64
  deriving DecidableEq

/-- `video_frame::Union` -/
inductive Union where
  | vp8s (frames : List EncodedVideoFrame)
  | vp9s (frames : List EncodedVideoFrame)
  | av1s (frames : List EncodedVideoFrame)
  | h264s (frames : List EncodedVideoFrame)
  | h265s (frames : List EncodedVideoFrame)
  /-- Pictures that are not encoded -/
  | other
  deriving DecidableEq

def Union.format : Union → CodecFormat
  | .vp8s _ => .vp8
  | .vp9s _ => .vp9
  | .av1s _ => .av1
  | .h264s _ => .h264
  | .h265s _ => .h265
  | .other => .unknown

def Union.frames : Union → List EncodedVideoFrame
  | .vp8s frames | .vp9s frames | .av1s frames | .h264s frames | .h265s frames => frames
  | .other => []

inductive RecordState where
  | newFile (filename : String)
  | newFrame
  | writeTail
  | removeFile
  deriving DecidableEq

/-- `RecorderContext2` -/
structure Context where
  filename : String
  width : Nat
  height : Nat
  format : CodecFormat
  deriving DecidableEq

def Context.fits (w h : Nat) (format : CodecFormat) (c : Context) : Bool :=
  !(c.width != w || c.height != h || c.format != format)

/-- A frame as a file gets it, with the size and the codec of its picture. -/
structure Received where
  frame : EncodedVideoFrame
  width : Nat
  height : Nat
  format : CodecFormat
  /-- What the muxer is told, in nanoseconds. -/
  timestamp : Option UInt64
  deriving DecidableEq

/-- A `RecorderApi` with its file. -/
structure Writer where
  ctx2 : Context
  key : Bool := false
  written : Bool := false
  frames : List Received := []
  deriving DecidableEq

/-- What the system does, each time it is asked. -/
structure Env where
  /-- Whether the program was built with the feature -/
  hwcodec : Bool := true
  /-- The name that `set_filename` makes, if the directory can be made. -/
  filename : Nat → Except String String
  /-- Whether the file and its muxer can be made. -/
  create : Nat → Except String Unit
  /-- Whether the muxer takes a frame. -/
  takes : Nat → Bool
  /-- Whether `MIN_SECS` have passed since the start of the file. -/
  lasted : Nat → Bool

structure State where
  inner : Option Writer := none
  /-- Whether the context has a channel -/
  tx : Bool := true
  ctx2 : Option Context := none
  pts : Option Int64 := none
  checkFailed : Bool := false
  /-- The files that were closed. -/
  closed : List Writer := []
  /-- What was sent on the channel. -/
  sent : List RecordState := []
  /-- How often the system was asked. -/
  asked : Nat := 0

/-- What a muxer is told of the time of a frame. -/
def timestamp (format : CodecFormat) (f : EncodedVideoFrame) : Option UInt64 :=
  match format with
  | .vp8 | .vp9 | .av1 => some (f.pts.toUInt64 * 1000000)
  -- `Muxer::write_video` is not given it.
  | _ => none

/-- `write_video` of `WebmRecorder` and of `HwRecorder`, for a frame of a picture of `w` by `h`
    in the format. -/
def Writer.writeVideo (takes : Bool) (w h : Nat) (format : CodecFormat) (f : EncodedVideoFrame)
    (i : Writer) : Writer :=
  let i := if f.key then { i with key := true } else i
  if i.key then
    { i with
      frames := i.frames ++ [⟨f, w, h, format, timestamp i.ctx2.format f⟩]
      written := i.written || takes }
  else i

namespace State

def sendState (state : RecordState) (r : State) : State :=
  if r.tx then { r with sent := r.sent ++ [state] } else r

/-- `self.inner = None`, with the `Drop` of the writer. -/
def clearInner (env : Env) (r : State) : State :=
  match r.inner with
  | none => r
  | some i =>
      let state := if !i.written || !env.lasted r.asked then .removeFile else .writeTail
      sendState state
        { r with inner := none, closed := r.closed ++ [i], asked := r.asked + 1 }

/-- The new context of `check`, and with it no writer. -/
def newContext (env : Env) (w h : Nat) (format : CodecFormat) (r : State) :
    State × Except String Unit :=
  let asked := { r with asked := r.asked + 1 }
  match env.filename r.asked with
  | .error e => (asked, .error e)
  | .ok filename =>
      (clearInner env { asked with ctx2 := some ⟨filename, w, h, format⟩ }, .ok ())

/-- The second half of `check`: a writer for the context, when there is none. -/
def openInner (env : Env) (format : CodecFormat) (r : State) : State × Except String Unit :=
  match r.ctx2 with
  | none => (r, .error "ctx2 is None")
  | some ctx2 =>
      if r.inner.isSome then (r, .ok ())
      else if !env.hwcodec && (format = .h264 || format = .h265 || format = .unknown) then
        (r, .error "unsupported codec type")
      else
        let asked := { r with asked := r.asked + 1 }
        match env.create r.asked with
        | .error e => (asked, .error e)
        | .ok () =>
            (sendState (.newFile ctx2.filename) { asked with inner := some { ctx2 }, pts := none },
              .ok ())

def check (env : Env) (w h : Nat) (format : CodecFormat) (r : State) : State × Except String Unit :=
  if r.ctx2.any (Context.fits w h format) then openInner env format r
  else
    match newContext env w h format r with
    | (r, .error e) => (r, .error e)
    | (r, .ok ()) => openInner env format r

/-- `check`, which is never called again after a failure. -/
def tryCheck (env : Env) (w h : Nat) (format : CodecFormat) (r : State) : State × Except String Unit :=
  match check env w h format r with
  | (r, .error e) => ({ r with checkFailed := true }, .error e)
  | (r, .ok ()) => (r, .ok ())

def checkPts (env : Env) (f : EncodedVideoFrame) (w h : Nat) (format : CodecFormat) (r : State) :
    State × Except String Unit :=
  if r.pts.isNone && !f.key then (r, .error "first frame is not key frame")
  else
    let oldPts := r.pts
    let r := { r with pts := some f.pts }
    if oldPts.getD 0 > f.pts then
      match tryCheck env w h format { clearInner env r with ctx2 := none } with
      | (r, .error e) => (r, .error e)
      | (r, .ok ()) => ({ r with pts := some f.pts }, .ok ())
    else (r, .ok ())

/-- `self.as_mut().map(|x| x.write_video(f))` -/
def writeVideo (env : Env) (w h : Nat) (format : CodecFormat) (f : EncodedVideoFrame) (r : State) :
    State :=
  { r with
    inner := r.inner.map (Writer.writeVideo (env.takes r.asked) w h format f)
    asked := r.asked + 1 }

def writeFrames (env : Env) (w h : Nat) (format : CodecFormat) :
    List EncodedVideoFrame → State → State × Except String Unit
  | [], r => (r, .ok ())
  | f :: rest, r =>
      match checkPts env f w h format r with
      | (r, .error e) => (r, .error e)
      | (r, .ok ()) => writeFrames env w h format rest (writeVideo env w h format f r)

def writeFrame (env : Env) (frame : Union) (w h : Nat) (r : State) : State × Except String Unit :=
  if r.checkFailed then (r, .error "check failed")
  else if frame.format = .unknown then (r, .error "unsupported frame type")
  else
    match tryCheck env w h frame.format r with
    | (r, .error e) => (r, .error e)
    | (r, .ok ()) =>
        match writeFrames env w h frame.format frame.frames r with
        | (r, .error e) => (r, .error e)
        | (r, .ok ()) => (sendState .newFrame r, .ok ())

/-- A call of `write_frame` -/
structure Call where
  frame : Union
  w : Nat
  h : Nat

def step (env : Env) (r : State) (c : Call) : State := (writeFrame env c.frame c.w c.h r).1

/-- The recorder after the calls and its `Drop` -/
def recorded (env : Env) (tx : Bool) (calls : List Call) : State :=
  clearInner env (exec (step env) { tx } calls)

end State

/-! ## The messages on the channel -/

/-- Messages in blocks, the last one of which is open or not. -/
inductive Blocks : Bool → List RecordState → Prop where
  | nil : Blocks false []
  | newFile {sent} (filename : String) (before : Blocks false sent) : Blocks true
    (sent ++ [.newFile filename])
  | newFrame {sent} (before : Blocks true sent) : Blocks true (sent ++ [.newFrame])
  | close {sent} (state : RecordState) (before : Blocks true sent)
      (closes : state = .writeTail ∨ state = .removeFile) : Blocks false (sent ++ [state])

/-- `NewFile`, any number of `NewFrame`, and one `WriteTail` or `RemoveFile` -/
def IsBlock (block : List RecordState) : Prop :=
  ∃ filename frames last, block = .newFile filename :: List.replicate frames .newFrame ++ [last] ∧
    (last = .writeTail ∨ last = .removeFile)

/-- The blocks that are there, and what was sent of the open one. -/
theorem Blocks.parts {isOpen : Bool} {sent : List RecordState} (h : Blocks isOpen sent) :
    ∃ blocks : List (List RecordState), (∀ block ∈ blocks, IsBlock block) ∧
      if isOpen then ∃ filename frames,
        sent = blocks.flatten ++ .newFile filename :: List.replicate frames .newFrame
      else sent = blocks.flatten := by
  induction h with
  | nil => exact ⟨[], by simp, rfl⟩
  | newFile filename before ih =>
      obtain ⟨blocks, are, rfl⟩ := ih
      exact ⟨blocks, are, filename, 0, rfl⟩
  | newFrame before ih =>
      obtain ⟨blocks, are, filename, frames, rfl⟩ := ih
      refine ⟨blocks, are, filename, frames + 1, ?_⟩
      simp [List.replicate_succ']
  | close state before closes ih =>
      obtain ⟨blocks, are, filename, frames, rfl⟩ := ih
      refine ⟨blocks ++ [.newFile filename :: List.replicate frames .newFrame ++ [state]], ?_, by simp⟩
      intro block member
      rcases List.mem_append.mp member with old | new
      · exact are block old
      · obtain rfl := List.mem_singleton.mp new
        exact ⟨filename, frames, state, rfl, closes⟩

/-- A timestamp that the claimed range allows. -/
def InRange (pts : Int64) : Prop := 0 ≤ pts ∧ pts ≤ 2 ^ 43

instance (pts : Int64) : Decidable (InRange pts) := inferInstanceAs (Decidable (_ ∧ _))

/-- A file of one codec and one size that begins with a key frame and does not go back in
    time. -/
structure Writer.WellFormed (i : Writer) : Prop where
  same : ∀ x ∈ i.frames, x.format = i.ctx2.format ∧ x.width = i.ctx2.width ∧ x.height = i.ctx2.height
  key : ∀ x ∈ i.frames.head?, x.frame.key = true
  ordered : i.frames.Pairwise fun x y => x.frame.pts ≤ y.frame.pts ∧
    ∀ s ∈ x.timestamp, ∀ t ∈ y.timestamp, s ≤ t

/-- Up to the end of the range the nanoseconds stay within 64 bits. -/
theorem nanos_mono {p q : Int64} (nonneg : 0 ≤ p) (le : p ≤ q) (small : q ≤ 2 ^ 43) :
    p.toUInt64 * 1000000 ≤ q.toUInt64 * 1000000 := by
  have order := UInt64.le_iff_toNat_le.mp (Int64.toUInt64_le nonneg le)
  have bound : q.toUInt64.toNat ≤ 2 ^ 43 :=
    UInt64.le_iff_toNat_le.mp (Int64.toUInt64_le (Int64.le_trans nonneg le) small)
  rw [UInt64.le_iff_toNat_le, UInt64.toNat_mul, UInt64.toNat_mul]
  have factor : (1000000 : UInt64).toNat = 1000000 := rfl
  rw [factor, Nat.mod_eq_of_lt (by omega), Nat.mod_eq_of_lt (by omega)]
  omega

variable {format : CodecFormat} {f : EncodedVideoFrame} {i : Writer}

theorem timestamp_mono {g : EncodedVideoFrame} (from_ : InRange f.pts) (to_ : InRange g.pts)
    (le : f.pts ≤ g.pts) : ∀ s ∈ timestamp format f, ∀ t ∈ timestamp format g, s ≤ t := by
  unfold timestamp
  split
  case h_4 =>
    intro s told
    cases told
  all_goals
    rintro _ ⟨rfl⟩ _ ⟨rfl⟩
    exact nanos_mono from_.1 le to_.2

/-- What more holds of the file that is being written, with the last timestamp that was seen. -/
structure Writer.Recording (pts : Option Int64) (i : Writer) : Prop extends Writer.WellFormed i where
  begun : i.key = true → i.frames ≠ []
  last : ∀ x ∈ i.frames, ∃ p ∈ pts, x.frame.pts ≤ p
  told : ∀ x ∈ i.frames, InRange x.frame.pts ∧ x.timestamp = timestamp i.ctx2.format x.frame

theorem Writer.recording_new {ctx2 : Context} (pts : Option Int64) : Writer.Recording pts { ctx2 } where
  same x member := by cases member
  key x member := by cases member
  ordered := .nil
  begun key := by cases key
  last x member := by cases member
  told x member := by cases member

/-- A later timestamp was seen. -/
theorem Writer.Recording.later {pts : Option Int64} {q : Int64} (rec_ : i.Recording pts)
    (le : ∀ p ∈ pts, p ≤ q) : i.Recording (some q)  where
  toWellFormed := rec_.toWellFormed
  begun := rec_.begun
  last x member := by
    obtain ⟨p, seen, old⟩ := rec_.last x member
    exact ⟨q, rfl, Int64.le_trans old (le p seen)⟩
  told := rec_.told

theorem Context.fits_iff {w h : Nat} {c : Context} :
    c.fits w h format = true ↔ c.width = w ∧ c.height = h ∧ c.format = format := by
  simp [Context.fits, and_assoc]

@[simp] theorem Writer.writeVideo_ctx2 {takes : Bool} {w h : Nat} :
    (i.writeVideo takes w h format f).ctx2 = i.ctx2 := by
  unfold Writer.writeVideo
  dsimp only
  split <;> split <;> rfl

/-- A file goes on with a frame that is not older than the last one. -/
theorem Writer.Recording.append {i' : Writer} {x : Received} (rec_ : i.Recording (some x.frame.pts))
    (range : InRange x.frame.pts) (frames : i'.frames = i.frames ++ [x]) (ctx2 : i'.ctx2 = i.ctx2)
    (same : x.format = i.ctx2.format ∧ x.width = i.ctx2.width ∧ x.height = i.ctx2.height)
    (told : x.timestamp = timestamp i.ctx2.format x.frame)
    (starts : i.frames = [] → x.frame.key = true) : i'.Recording (some x.frame.pts)  where
  same y member := by
    rw [ctx2]
    rw [frames] at member
    rcases List.mem_append.mp member with old | new
    · exact rec_.same y old
    · exact List.mem_singleton.mp new ▸ same
  key y first := by
    rw [frames] at first
    cases written : i.frames with
    | nil =>
        rw [written] at first
        obtain rfl := Option.some.inj first
        exact starts written
    | cons z rest =>
        rw [written] at first
        exact rec_.key y (by rw [written]; exact first)
  ordered := by
    rw [frames, List.pairwise_append]
    refine ⟨rec_.ordered, List.pairwise_singleton .., ?_⟩
    intro y member z new
    obtain rfl := List.mem_singleton.mp new
    obtain ⟨p, ⟨rfl⟩, le⟩ := rec_.last y member
    obtain ⟨rangeY, toldY⟩ := rec_.told y member
    rw [toldY, told]
    exact ⟨le, timestamp_mono rangeY range le⟩
  begun _ := by simp [frames]
  last y member := by
    rw [frames] at member
    rcases List.mem_append.mp member with old | new
    · exact rec_.last y old
    · obtain rfl := List.mem_singleton.mp new
      exact ⟨_, rfl, Int64.le_refl _⟩
  told y member := by
    rw [ctx2]
    rw [frames] at member
    rcases List.mem_append.mp member with old | new
    · exact rec_.told y old
    · exact List.mem_singleton.mp new ▸ ⟨range, told⟩

/-- A frame that is not older than the last one can be written. -/
theorem Writer.Recording.writeVideo (takes : Bool) {w h : Nat} (rec_ : i.Recording (some f.pts))
    (range : InRange f.pts) (fits : i.ctx2.fits w h format = true) :
    (i.writeVideo takes w h format f).Recording (some f.pts) := by
  obtain ⟨width, height, format_⟩ := Context.fits_iff.mp fits
  let x : Received := ⟨f, w, h, format, timestamp i.ctx2.format f⟩
  have same : x.format = i.ctx2.format ∧ x.width = i.ctx2.width ∧ x.height = i.ctx2.height :=
    ⟨format_.symm, width.symm, height.symm⟩
  have append (i' : Writer) (frames : i'.frames = i.frames ++ [x]) (ctx2 : i'.ctx2 = i.ctx2)
      (starts : i.frames = [] → f.key = true) : i'.Recording (some f.pts) :=
    Writer.Recording.append (x := x) rec_ range frames ctx2 same rfl starts
  cases key : f.key with
  | true =>
      simp only [Writer.writeVideo, key, if_true]
      exact append _ rfl rfl fun _ => key
  | false =>
      cases begun : i.key with
      | true =>
          simp only [Writer.writeVideo, key, begun, if_true, Bool.false_eq_true, if_false]
          exact append _ rfl rfl fun none_ => (rec_.begun begun none_).elim
      | false => simpa [Writer.writeVideo, key, begun] using rec_

namespace State

variable {env : Env} {w h : Nat} {format : CodecFormat} {r : State}

/-- Closed files are well formed, and the messages are in step with the files. -/
structure Sound (r : State) : Prop where
  inner : ∀ i ∈ r.inner, i.WellFormed
  closed : ∀ i ∈ r.closed, i.WellFormed
  sent : r.tx = true → Blocks r.inner.isSome r.sent
  silent : r.tx = false → r.sent = []

structure Inv (r : State) : Prop extends Sound r where
  recording : ∀ i ∈ r.inner, r.ctx2 = some i.ctx2 ∧ i.Recording r.pts

/-- There is a file for the picture. -/
def Ready (w h : Nat) (format : CodecFormat) (r : State) : Prop :=
  ∃ i ∈ r.inner, i.ctx2.fits w h format = true

/-- What a fallible part keeps, and what it leads to when it succeeds. -/
def Ensures (out : State × Except String Unit) (post : State → Prop) : Prop :=
  Inv out.1 ∧ (out.2 = .ok () → post out.1)

section

variable {state : RecordState}

@[simp] theorem sendState_inner : (sendState state r).inner = r.inner := by
  unfold sendState; split <;> rfl

@[simp] theorem sendState_tx : (sendState state r).tx = r.tx := by
  unfold sendState; split <;> rfl

@[simp] theorem sendState_ctx2 : (sendState state r).ctx2 = r.ctx2 := by
  unfold sendState; split <;> rfl

@[simp] theorem sendState_pts : (sendState state r).pts = r.pts := by
  unfold sendState; split <;> rfl

@[simp] theorem sendState_closed : (sendState state r).closed = r.closed := by
  unfold sendState; split <;> rfl

theorem sendState_sent (tx : r.tx = true) : (sendState state r).sent = r.sent ++ [state] := by
  simp [sendState, tx]

theorem sendState_silent (tx : r.tx = false) : (sendState state r).sent = r.sent := by
  simp [sendState, tx]

end

theorem sound_start {tx : Bool} : Sound { tx } where
  inner i member := by cases member
  closed i member := by cases member
  sent _ := .nil
  silent _ := rfl

/-- A message that fits the files is sent. -/
theorem Sound.sendState {before : State} {state : RecordState} (sound : Sound before)
    (tx : r.tx = before.tx) (sent : r.sent = before.sent)
    (inner : ∀ i ∈ r.inner, i.WellFormed) (closed : ∀ i ∈ r.closed, i.WellFormed)
    (fits : Blocks before.inner.isSome before.sent → Blocks r.inner.isSome (before.sent ++ [state])) :
    Sound (sendState state r) where
  inner := by simpa using inner
  closed := by simpa using closed
  sent on := by
    rw [sendState_tx, tx] at on
    rw [sendState_inner, sendState_sent (tx.trans on), sent]
    exact fits (sound.sent on)
  silent off := by
    rw [sendState_tx, tx] at off
    rw [sendState_silent (tx.trans off), sent]
    exact sound.silent off

theorem clearInner_inner : (clearInner env r).inner = none := by
  unfold clearInner
  split
  case h_1 none_ => exact none_
  case h_2 => simp

@[simp] theorem clearInner_ctx2 : (clearInner env r).ctx2 = r.ctx2 := by
  unfold clearInner
  split
  case h_1 => rfl
  case h_2 => simp

/-- A file is closed with its message. -/
theorem clearInner_sound (env : Env) (sound : Sound r) : Sound (clearInner env r) := by
  unfold clearInner
  split
  case h_1 => exact sound
  case h_2 i current =>
    refine sound.sendState ?_ ?_ ?_ ?_ ?_
    · rfl
    · rfl
    · intro i' member
      cases member
    · intro i' member
      rcases List.mem_append.mp member with old | new
      · exact sound.closed i' old
      · exact List.mem_singleton.mp new ▸ sound.inner i current
    · intro before
      rw [current] at before
      refine .close _ before ?_
      split
      · exact .inr rfl
      · exact .inl rfl

/-- Without a file there is nothing more to keep. -/
theorem Sound.idle (sound : Sound r) (none_ : r.inner = none) : Inv r where
  toSound := sound
  recording i member := by simp [none_] at member

/-- What `asked` and the other fields that no file depends on are set to does not matter. -/
theorem Inv.same {r' : State} (inv : Inv r) (inner : r'.inner = r.inner) (tx : r'.tx = r.tx)
    (ctx2 : r'.ctx2 = r.ctx2) (pts : r'.pts = r.pts) (closed : r'.closed = r.closed)
    (sent : r'.sent = r.sent) : Inv r' where
  inner := by rw [inner]; exact inv.inner
  closed := by rw [closed]; exact inv.closed
  sent := by rw [tx, inner, sent]; exact inv.sent
  silent := by rw [tx, sent]; exact inv.silent
  recording := by rw [inner, ctx2, pts]; exact inv.recording

/-- A later timestamp was seen. -/
theorem Inv.seen {q : Int64} (inv : Inv r) (le : ∀ p ∈ r.pts, p ≤ q) :
    Inv { r with pts := some q } where
  inner := inv.inner
  closed := inv.closed
  sent := inv.sent
  silent := inv.silent
  recording i here := ⟨(inv.recording i here).1, (inv.recording i here).2.later le⟩

theorem newContext_ensures (env : Env) (w h : Nat) (format : CodecFormat) (inv : Inv r) :
    Ensures (newContext env w h format r) fun r' =>
    r'.inner = none ∧ r'.ctx2.any (Context.fits w h format) = true := by
  unfold newContext
  dsimp only
  split
  case h_1 => exact ⟨inv.same rfl rfl rfl rfl rfl rfl, nofun⟩
  case h_2 filename named =>
    have sound : Sound { r with asked := r.asked + 1, ctx2 := some ⟨filename, w, h, format⟩ } :=
      ⟨inv.inner, inv.closed, inv.sent, inv.silent⟩
    refine ⟨(clearInner_sound env sound).idle clearInner_inner, fun _ => ⟨clearInner_inner, ?_⟩⟩
    simp [Context.fits]

theorem openInner_ensures (env : Env) (inv : Inv r)
    (fits : r.ctx2.any (Context.fits w h format) = true) :
    Ensures (openInner env format r) fun r' =>
      Ready w h format r' ∧ (r.inner = none → r'.pts = none) := by
  unfold openInner
  cases current : r.ctx2 with
  | none => simp [current] at fits
  | some ctx2 =>
      rw [current, Option.any_some] at fits
      dsimp only
      split
      case isTrue open_ =>
        refine ⟨inv, fun _ => ?_⟩
        obtain ⟨i, here⟩ := Option.isSome_iff_exists.mp open_
        have same := (inv.recording i here).1
        obtain rfl := Option.some.inj (current.symm.trans same)
        exact ⟨⟨i, here, fits⟩, fun none_ => by simp [none_] at here⟩
      case isFalse closed =>
        split
        case isTrue => exact ⟨inv, nofun⟩
        case isFalse =>
          split
          case h_1 => exact ⟨inv.same rfl rfl current.symm rfl rfl rfl, nofun⟩
          case h_2 =>
            have none_ : r.inner.isSome = false := by simpa using closed
            refine ⟨⟨inv.toSound.sendState ?_ ?_ ?_ ?_ ?_, ?_⟩,
              fun _ => ⟨⟨{ ctx2 }, by simp, fits⟩, fun _ => by simp⟩⟩
            · rfl
            · rfl
            · intro i here
              obtain rfl := Option.some.inj here
              exact (Writer.recording_new none).toWellFormed
            · exact inv.closed
            · intro before
              rw [none_] at before
              exact .newFile ctx2.filename before
            · intro i here
              rw [sendState_inner] at here
              obtain rfl := Option.some.inj here
              exact ⟨by simp, Writer.recording_new _⟩

theorem check_ensures (env : Env) (w h : Nat) (format : CodecFormat) (inv : Inv r) :
    Ensures (check env w h format r) fun r' =>
    Ready w h format r' ∧ (r.inner = none → r'.pts = none) := by
  unfold check
  split
  case isTrue fits => exact openInner_ensures env inv fits
  case isFalse =>
    have new := newContext_ensures env w h format inv
    split
    case h_1 r' e failed =>
      rw [failed] at new
      exact ⟨new.1, nofun⟩
    case h_2 r' made =>
      rw [made] at new
      obtain ⟨none_, fits⟩ := new.2 rfl
      have opened := openInner_ensures env new.1 fits
      exact ⟨opened.1, fun ok => ⟨(opened.2 ok).1, fun _ => (opened.2 ok).2 none_⟩⟩

theorem tryCheck_ensures (env : Env) (w h : Nat) (format : CodecFormat) (inv : Inv r) :
    Ensures (tryCheck env w h format r) fun r' =>
    Ready w h format r' ∧ (r.inner = none → r'.pts = none) := by
  have checked := check_ensures env w h format inv
  unfold tryCheck
  split
  case h_1 r' e failed =>
    rw [failed] at checked
    exact ⟨checked.1.same rfl rfl rfl rfl rfl rfl, nofun⟩
  case h_2 r' ok =>
    rw [ok] at checked
    exact checked

/-- After `check_pts` there is a file whose frames are not younger than `f`. -/
theorem checkPts_ensures (env : Env) (f : EncodedVideoFrame) (inv : Inv r)
    (ready : Ready w h format r) :
    Ensures (checkPts env f w h format r) fun r' =>
      Ready w h format r' ∧ r'.pts = some f.pts := by
  unfold checkPts
  split
  case isTrue => exact ⟨inv, nofun⟩
  case isFalse =>
    dsimp only
    split
    case isTrue =>
      have seen : Sound { r with pts := some f.pts } := ⟨inv.inner, inv.closed, inv.sent, inv.silent⟩
      have cleared := clearInner_sound env seen
      have idle : Inv { clearInner env { r with pts := some f.pts } with ctx2 := none } :=
        Sound.idle ⟨cleared.inner, cleared.closed, cleared.sent, cleared.silent⟩ clearInner_inner
      have checked := tryCheck_ensures env w h format idle
      split
      case h_1 r' e failed =>
        rw [failed] at checked
        exact ⟨checked.1, nofun⟩
      case h_2 r' ok =>
        rw [ok] at checked
        obtain ⟨ready', unseen⟩ := checked.2 rfl
        have none_ : r'.pts = none := unseen clearInner_inner
        refine ⟨checked.1.seen fun p was => ?_, fun _ => ⟨ready', rfl⟩⟩
        simp [none_] at was
    case isFalse newer =>
      refine ⟨inv.seen fun p was => ?_, fun _ => ⟨ready, rfl⟩⟩
      have le := Int64.not_lt.mp newer
      rwa [was, Option.getD_some] at le

/-- The frame goes into the file that is there. -/
theorem writeVideo_inv (env : Env) {f : EncodedVideoFrame} (inv : Inv r)
    (ready : Ready w h format r) (range : InRange f.pts) (last : r.pts = some f.pts) :
    Inv (writeVideo env w h format f r) ∧ Ready w h format (writeVideo env w h format f r) := by
  obtain ⟨i, here, fits⟩ := ready
  obtain ⟨ctx2, rec_⟩ := inv.recording i here
  rw [last] at rec_
  have written := rec_.writeVideo (env.takes r.asked) range fits
  have now :
      (writeVideo env w h format f r).inner =
      some (i.writeVideo (env.takes r.asked) w h format f) := by
    simp [writeVideo, Option.mem_def.mp here]
  refine ⟨⟨⟨?_, inv.closed, ?_, inv.silent⟩, ?_⟩, ⟨_, now, by simpa using fits⟩⟩
  · intro i' member
    obtain rfl := Option.some.inj (now.symm.trans member)
    exact written.toWellFormed
  · intro tx
    have sent := inv.sent tx
    rw [Option.mem_def.mp here] at sent
    rwa [now]
  · intro i' member
    obtain rfl := Option.some.inj (now.symm.trans member)
    exact ⟨ctx2.trans (by simp), last ▸ written⟩

theorem writeFrames_ensures (env : Env) {frames : List EncodedVideoFrame} (inv : Inv r)
    (ready : Ready w h format r) (range : ∀ f ∈ frames, InRange f.pts) :
    Ensures (writeFrames env w h format frames r) (Ready w h format) := by
  induction frames generalizing r with
  | nil => exact ⟨inv, fun _ => ready⟩
  | cons f rest ih =>
      have here := range f List.mem_cons_self
      have checked := checkPts_ensures env f inv ready
      unfold writeFrames
      split
      case h_1 r' e failed =>
        rw [failed] at checked
        exact ⟨checked.1, nofun⟩
      case h_2 r' ok =>
        rw [ok] at checked
        obtain ⟨ready', last⟩ := checked.2 rfl
        obtain ⟨inv', ready''⟩ := writeVideo_inv env checked.1 ready' here last
        exact ih inv' ready'' fun g member => range g (List.mem_cons_of_mem f member)

theorem writeFrame_inv {frame : Union} (inv : Inv r) (range : ∀ f ∈ frame.frames, InRange f.pts) :
    Inv (writeFrame env frame w h r).1 := by
  unfold writeFrame
  split
  case isTrue => exact inv
  case isFalse =>
    split
    case isTrue => exact inv
    case isFalse =>
      have checked := tryCheck_ensures env w h frame.format inv
      split
      case h_1 r' e failed =>
        rw [failed] at checked
        exact checked.1
      case h_2 r' ok =>
        rw [ok] at checked
        have written := writeFrames_ensures env checked.1 (checked.2 rfl).1 range
        split
        case h_1 r'' e failed =>
          rw [failed] at written
          exact written.1
        case h_2 r'' ok =>
          rw [ok] at written
          obtain ⟨i, here, -⟩ := written.2 rfl
          have inv' := written.1
          refine ⟨inv'.toSound.sendState rfl rfl inv'.inner inv'.closed fun before => ?_, ?_⟩
          · rw [Option.mem_def.mp here] at before ⊢
            exact .newFrame before
          · simpa using inv'.recording

/-- Every file is well formed, and the messages are whole blocks: whatever the calls of
    `write_frame` are, and whatever fails, up to the drop of the recorder. -/
theorem recordings_well_formed (env : Env) (tx : Bool) (calls : List Call)
    (range : ∀ c ∈ calls, ∀ f ∈ c.frame.frames, InRange f.pts) :
    (∀ file ∈ (recorded env tx calls).closed, file.WellFormed) ∧
      ∃ blocks : List (List RecordState), (∀ block ∈ blocks, IsBlock block) ∧
        (recorded env tx calls).sent = blocks.flatten := by
  have start : Inv { tx } := sound_start.idle rfl
  have keep (r : State) (c : Call) (here : ∀ f ∈ c.frame.frames, InRange f.pts) (inv : Inv r) :
      Inv (step env r c) := writeFrame_inv inv here
  have inv := (Runs.always_of_events keep range start).last
  have sound := clearInner_sound env inv.toSound
  refine ⟨sound.closed, ?_⟩
  cases on : (recorded env tx calls).tx with
  | true =>
      have sent := sound.sent on
      rw [clearInner_inner] at sent
      exact sent.parts
  | false => exact ⟨[], by simp, sound.silent on⟩

/-- The third file cannot be made. -/
def thirdFails : Env where
  filename n := .ok s!"{n}.webm"
  create n := if n < 12 then .ok () else .error "no space left on device"
  takes _ := true
  lasted n := n % 2 = 0

/-- A timestamp goes back at a frame that is no key frame, and the size changes twice. -/
def changes : List Call :=
  [⟨.vp9s [⟨[], true, 40⟩, ⟨[], false, 80⟩], 640, 480⟩,
    ⟨.vp9s [⟨[], false, 10⟩, ⟨[], true, 50⟩, ⟨[], false, 90⟩], 640, 480⟩,
    ⟨.vp9s [⟨[], true, 130⟩], 1280, 720⟩, ⟨.h264s [⟨[], true, 170⟩], 640, 480⟩]

theorem recordings_well_formed_changes :
    (∀ file ∈ (recorded thirdFails true changes).closed, file.WellFormed) ∧
      ∃ blocks : List (List RecordState), (∀ block ∈ blocks, IsBlock block) ∧
        (recorded thirdFails true changes).sent = blocks.flatten :=
  recordings_well_formed _ _ _ (by decide)

example : (recorded thirdFails true changes).closed.map (fun file => file.frames.map (·.frame.pts)) =
    [[40, 80], [50, 90]] := by decide +kernel

end State

end RemoteControl.Video.Recorder
