import RemoteControl.Clipboard.Contents
import RemoteControl.Runs

/-! # Reading the clipboard through the connection manager

The service of a Windows host that runs as root asks the connection manager for the
clipboard, over a connection that it keeps from call to call. A reply is a message with the
items; the contents of more than 3 KiB follow in one frame without a tag.

Requests and replies are not numbered. A call that gives up waiting leaves its reply in the
connection.
-/

namespace RemoteControl.Clipboard.CmRead

open ClipboardContents (Clipboard FormatValue)
open Runs (exec Always Along)

structure ClipboardNonFile where
  compress : Bool
  content : ClipboardContents.Bytes
  contentLen : Nat
  nextRaw : Bool
  width : Int32
  height : Int32
  format : FormatValue
  specialName : List Char
  deriving DecidableEq

/-- The messages from the manager -/
inductive Data where
  /-- `ClipboardNonFile(Some((err, contents)))` -/
  | clipboardNonFile (err : String) (contents : List ClipboardNonFile)
  | monitorReady
  | other
  deriving DecidableEq

inductive Frame where
  | message (data : Data)
  | raw (data : ClipboardContents.Bytes)
  deriving DecidableEq

/-- How messages are written, and what bytes are taken for. -/
structure Wire where
  encode : Data → ClipboardContents.Bytes
  decode : ClipboardContents.Bytes → Option Data

/-- What `next` makes of a frame -/
def Frame.data (w : Wire) : Frame → Option Data
  | .message data => some data
  | .raw data => w.decode data

/-- What `next_raw` makes of a frame -/
def Frame.bytes (w : Wire) : Frame → ClipboardContents.Bytes
  | .message data => w.encode data
  | .raw data => data

/-- An item as the manager puts it into the message -/
def pack (c : Clipboard) : ClipboardNonFile :=
  let big : Bool := 1024 * 3 < c.content.length
  { compress := c.compress
    content := if big then [] else c.content
    contentLen := c.content.length
    nextRaw := big
    width := c.width
    height := c.height
    format := c.format
    specialName := c.specialName }

/-- `raw_contents` -/
def rawContents (clipboards : List Clipboard) : ClipboardContents.Bytes :=
  clipboards.flatMap fun c => if 1024 * 3 < c.content.length then c.content else []

/-- The frames of a reply. -/
def reply (clipboard : Except String (List Clipboard)) : List Frame :=
  match clipboard with
  | .ok clipboards =>
      let raw := rawContents clipboards
      .message (.clipboardNonFile "" (clipboards.map pack)) :: if raw.isEmpty then [] else [.raw raw]
  | .error e => [.message (.clipboardNonFile e [])]

/-- The connection that is kept -/
structure Stream where
  /-- The calls whose requests the manager has not handled. -/
  requests : List Nat := []
  frames : List Frame := []
  broken : Bool := false

/-- No request and no reply is left in the connection. -/
def Stream.Clean (stream : Stream) : Prop :=
  stream.requests = [] ∧ ∀ frame ∈ stream.frames,
    frame = .message .monitorReady ∨ frame = .message .other

instance : DecidablePred Stream.Clean := fun _ => inferInstanceAs (Decidable (_ ∧ _))

/-- Where a call is -/
inductive Pc where
  | idle
  /-- `next_timeout(800)` -/
  | next (call : Nat)
  /-- `timeout(1000, next_raw())` -/
  | nextRaw (call : Nat) (contents : List ClipboardNonFile)
  deriving DecidableEq

def Pc.waitsForRaw : Pc → Bool
  | .nextRaw _ _ => true
  | _ => false

structure State where
  stream : Option Stream := none
  pc : Pc := .idle
  calls : Nat := 0
  /-- The items of the replies so far, with the calls whose requests they answer. -/
  replies : List (Nat × List Clipboard) := []
  /-- The calls that have returned `Ok`. -/
  returned : List (Nat × List ClipboardNonFile) := []
  panicked : Bool := false

/-- `split_to` for each item that waits for its content; it panics when there is not enough. -/
def split : List ClipboardNonFile → ClipboardContents.Bytes → Option (List ClipboardNonFile)
  | [], _ => some []
  | c :: rest, data =>
      if c.nextRaw then
        if c.contentLen ≤ data.length then
          (split rest (data.drop c.contentLen)).map
            ({ c with content := data.take c.contentLen } :: ·)
        else none
      else (split rest data).map (c :: ·)

inductive Event where
  /-- A call of `read_clipboard_from_cm_ipc`: whether the request goes out on the connection that
      is there, and else whether it goes out on a new one. -/
  | call (sends connects : Bool)
  /-- The manager handles the next request. -/
  | reply (clipboard : Except String (List Clipboard))
  /-- The manager sends something else. -/
  | send (monitorReady : Bool)
  /-- The next frame is there in time. -/
  | next
  | timeout
  /-- The connection breaks, with what is in it. -/
  | reset

namespace State

/-- The call ends with `Ok(contents)`. -/
def finish (call : Nat) (contents : List ClipboardNonFile) (s : State) : State :=
  { s with pc := .idle, returned := (call, contents) :: s.returned }

def call (sends connects : Bool) (s : State) : State :=
  let n := s.calls
  let s := { s with calls := n + 1 }
  match s.stream with
  | some stream =>
      if sends then
        { s with pc := .next n, stream := some { stream with requests := stream.requests ++ [n] } }
      else if connects then { s with pc := .next n, stream := some { requests := [n] } }
      else s
  | none => if connects then { s with pc := .next n, stream := some { requests := [n] } } else s

/-- A call that waits for a reply gets a frame. -/
def takeReply (w : Wire) (n : Nat) (frame : Frame) (s : State) : State :=
  match frame.data w with
  | some (.clipboardNonFile err contents) =>
      if !err.isEmpty then { s with pc := .idle }
      else if contents.any (·.nextRaw) then { s with pc := .nextRaw n contents }
      else finish n contents s
  | some .monitorReady => s
  | some .other | none => { s with pc := .idle }

/-- A call that waits for the contents gets a frame. -/
def takeRaw (w : Wire) (n : Nat) (contents : List ClipboardNonFile) (frame : Frame) (s : State) :
    State :=
  match split contents (frame.bytes w) with
  | some contents => finish n contents s
  | none => { s with pc := .idle, panicked := true }

def take (w : Wire) (frame : Frame) (s : State) : State :=
  match s.pc with
  | .idle => s
  | .next n => takeReply w n frame s
  | .nextRaw n contents => takeRaw w n contents frame s

def step (w : Wire) (s : State) : Event → State
  | .call sends connects =>
      match s.pc with
      | .idle => call sends connects s
      | _ => s
  | .reply clipboard =>
      match s.stream with
      | some ⟨n :: requests, frames, false⟩ =>
          { s with
            stream := some ⟨requests, frames ++ reply clipboard, false⟩
            replies := (n, clipboard.toOption.getD []) :: s.replies }
      | _ => s
  | .send monitorReady =>
      match s.stream with
      | some ⟨requests, frames, false⟩ =>
          let data := if monitorReady then Data.monitorReady else .other
          { s with stream := some ⟨requests, frames ++ [.message data], false⟩ }
      | _ => s
  | .next =>
      match s.pc, s.stream with
      | .idle, _ => s
      | _, some ⟨requests, frame :: frames, broken⟩ =>
          take w frame { s with stream := some ⟨requests, frames, broken⟩ }
      | _, _ => s
  | .timeout =>
      match s.pc with
      | .idle => s
      | .next _ => { s with pc := .idle }
      -- the contents that were to come stay empty
      | .nextRaw n contents => finish n contents { s with stream := none }
  | .reset =>
      let s := { s with stream := s.stream.map fun _ => { broken := true } }
      match s.pc with
      | .idle => s
      | .next _ => { s with pc := .idle }
      | .nextRaw _ _ => { s with pc := .idle, stream := none }

/-- An item with its content -/
def item (c : ClipboardNonFile) : Clipboard where
  compress := c.compress
  content := c.content
  width := c.width
  height := c.height
  format := c.format
  specialName := c.specialName

/-- Each call that has returned `Ok` has returned the items of a reply to its own request, and no
    content was cut beyond its end. -/
def Current (s : State) : Prop :=
  (∀ r ∈ s.returned, (r.1, r.2.map item) ∈ s.replies) ∧ s.panicked = false

/-- A call that uses the connection again finds it without a request or a reply of another call,
    and contents that are still to come do come in time. -/
def InStep (s : State) : Event → Prop
  | .call sends _ => s.pc = .idle → sends = true → ∀ stream ∈ s.stream, stream.Clean
  | .timeout => s.pc.waitsForRaw = false
  | _ => True

instance : DecidablePred Current := fun _ => inferInstanceAs (Decidable (_ ∧ _))

instance (s : State) : (e : Event) → Decidable (InStep s e)
  | .call _ _ => inferInstanceAs (Decidable (_ → _ → _))
  | .timeout => inferInstanceAs (Decidable (_ = _))
  | .reply _ | .send _ | .next | .reset => inferInstanceAs (Decidable True)

end State

/-! ## Packing and splitting -/

theorem item_pack {c : Clipboard} (small : (pack c).nextRaw = false) : State.item (pack c) = c := by
  have content : ¬ 3072 < c.content.length := by simpa [pack] using small
  simp [pack, State.item, content]

theorem rawContents_cons {c : Clipboard} {rest : List Clipboard} :
    rawContents (c :: rest) = (if (pack c).nextRaw then c.content else []) ++ rawContents rest := by
  simp [rawContents, pack]

/-- There is a frame without a tag exactly when an item waits for it. -/
theorem any_nextRaw {clipboards : List Clipboard} :
    (clipboards.map pack).any (·.nextRaw) = !(rawContents clipboards).isEmpty := by
  induction clipboards with
  | nil => rfl
  | cons c rest ih =>
      rw [rawContents_cons, List.map_cons, List.any_cons, ih]
      cases big : (pack c).nextRaw with
      | false => simp
      | true =>
          have content : 1024 * 3 < c.content.length := by simpa [pack] using big
          have filled : c.content ≠ [] := by
            rintro empty
            simp [empty] at content
          simp [filled]

theorem map_item_pack {clipboards : List Clipboard}
    (small : (clipboards.map pack).any (·.nextRaw) = false) :
    (clipboards.map pack).map State.item = clipboards := by
  rw [List.map_map]
  refine (List.map_congr_left fun c member => ?_).trans (List.map_id clipboards)
  exact item_pack (by simpa using List.any_eq_false.mp small (pack c) (List.mem_map_of_mem member))

/-- The contents are cut where the manager has put them together. -/
theorem split_pack (clipboards : List Clipboard) : ∃ contents,
    split (clipboards.map pack) (rawContents clipboards) = some contents ∧
      contents.map State.item = clipboards := by
  induction clipboards with
  | nil => exact ⟨[], rfl, rfl⟩
  | cons c rest ih =>
      obtain ⟨contents, cut, items⟩ := ih
      rw [rawContents_cons, List.map_cons, split]
      cases big : (pack c).nextRaw with
      | false => exact ⟨pack c :: contents, by simp [cut], by simp [items, item_pack big]⟩
      | true =>
          refine ⟨{ pack c with content := c.content } :: contents, ?_, ?_⟩
          · have content : 3072 < c.content.length := by simpa [pack] using big
            simp [pack, cut, content]
          · simp [items, State.item, pack]

/-- What the manager has sent at once -/
inductive Msg where
  | reply (call : Nat) (clipboard : Except String (List Clipboard))
  | other (data : Data) (harmless : data = .monitorReady ∨ data = .other)

def Msg.frames : Msg → List Frame
  | .reply _ clipboard => CmRead.reply clipboard
  | .other data _ => [.message data]

namespace State

variable {w : Wire} {s : State}

/-- The reply is on record, and a waiting call waits for it. -/
def Known (replies : List (Nat × List Clipboard)) (pc : Pc) (m : Msg) : Prop :=
  ∀ n clipboard, m = .reply n clipboard →
    (n, clipboard.toOption.getD []) ∈ replies ∧ ∀ call, pc = .next call → n = call

/-- The frames are those of whole replies, but for the one whose contents are waited for. -/
def Flows (replies : List (Nat × List Clipboard)) (pc : Pc) (frames : List Frame) : Prop :=
  ∃ msgs : List Msg, (∀ m ∈ msgs, Known replies pc m) ∧
    match pc with
    | .nextRaw n contents => ∃ clipboards, contents = clipboards.map pack ∧ (n, clipboards) ∈ replies ∧
        frames = .raw (rawContents clipboards) :: msgs.flatMap Msg.frames
    | _ => frames = msgs.flatMap Msg.frames

structure Inv (s : State) : Prop where
  current : Current s
  flows : ∀ stream ∈ s.stream, Flows s.replies s.pc stream.frames
  requests : ∀ stream ∈ s.stream, ∀ n ∈ stream.requests, ∀ call, s.pc = .next call → n = call
  connected : s.pc ≠ .idle → s.stream.isSome

theorem inv_start : Inv {} where
  current := ⟨by simp, rfl⟩
  flows stream member := by cases member
  requests stream member := by cases member
  connected busy := (busy rfl).elim

variable {n : Nat} {replies : List (Nat × List Clipboard)} {pc : Pc} {frames : List Frame}
  {contents : List ClipboardNonFile} {frame : Frame} {requests : List Nat} {broken : Bool}
  {stream : Option Stream}

/-- A clean connection holds no reply. -/
theorem known_of_clean {msgs : List Msg} (clean : ∀ frame ∈ msgs.flatMap Msg.frames,
    frame = .message .monitorReady ∨ frame = .message .other) : ∀ m ∈ msgs, Known replies pc m := by
  rintro _ member n clipboard rfl
  have here (frame : Frame) (inReply : frame ∈ reply clipboard) :=
    clean frame (List.mem_flatMap.mpr ⟨_, member, inReply⟩)
  cases clipboard with
  | ok clipboards => simpa using here _ List.mem_cons_self
  | error e => simpa using here _ List.mem_cons_self

theorem flows_nil (idle : pc.waitsForRaw = false) : Flows replies pc [] := by
  refine ⟨[], by simp, ?_⟩
  cases pc with
  | nextRaw n contents => cases idle
  | _ => rfl

/-- An idle call has no more to ask of the connection. -/
theorem Flows.idle {call : Nat} (flows : Flows replies (.next call) frames) :
    Flows replies .idle frames := by
  obtain ⟨msgs, known, eq⟩ := flows
  exact ⟨msgs, fun m member n clipboard same => ⟨(known m member n clipboard same).1, nofun⟩, eq⟩

/-- More comes from the manager. -/
theorem Flows.append {replies' : List (Nat × List Clipboard)} (flows : Flows replies pc frames)
    (m : Msg) (known : Known replies' pc m) (more : replies ⊆ replies') :
    Flows replies' pc (frames ++ m.frames) := by
  obtain ⟨msgs, knowns, eq⟩ := flows
  refine ⟨msgs ++ [m], ?_, ?_⟩
  · intro m' member
    rcases List.mem_append.mp member with old | new
    · intro n clipboard same
      have before := knowns m' old n clipboard same
      exact ⟨more before.1, before.2⟩
    · exact List.mem_singleton.mp new ▸ known
  · cases pc with
    | nextRaw n contents =>
        obtain ⟨clipboards, packed, recorded, rfl⟩ := eq
        exact ⟨clipboards, packed, more recorded, by simp⟩
    | _ =>
        simp only at eq
        simp [eq]

section

variable (inv : Inv s)

include inv

theorem connect_inv :
    Inv { s with calls := n + 1, pc := .next n, stream := some { requests := [n] } }  where
  current := inv.current
  flows stream same := by
    obtain rfl := Option.some.inj same
    exact flows_nil rfl
  requests stream same m member call waits := by
    obtain rfl := Option.some.inj same
    obtain rfl := List.mem_singleton.mp member
    exact Pc.next.inj waits
  connected _ := rfl

theorem call_inv {sends connects : Bool}
    (clean : sends = true → ∀ stream ∈ s.stream, stream.Clean) (idle : s.pc = .idle) :
    Inv (call sends connects s) := by
  have refused : Inv { s with calls := s.calls + 1 } :=
    ⟨inv.current, inv.flows, inv.requests, inv.connected⟩
  unfold call
  dsimp only
  split
  case h_2 =>
    split
    case isTrue ok => exact connect_inv inv
    case isFalse => exact refused
  case h_1 stream kept =>
    split
    case isTrue sent =>
      obtain ⟨none_, harmless⟩ := clean sent stream kept
      obtain ⟨msgs, -, frames⟩ := inv.flows stream kept
      rw [idle] at frames
      refine ⟨inv.current, ?_, ?_, fun _ => rfl⟩
      · intro stream' same
        obtain rfl := Option.some.inj same
        exact ⟨msgs, known_of_clean (frames ▸ harmless), frames⟩
      · intro stream' same n member call waits
        obtain rfl := Option.some.inj same
        simp only [none_, List.nil_append, List.mem_singleton] at member
        exact member.trans (Pc.next.inj waits)
    case isFalse =>
      split
      case isTrue ok => exact connect_inv inv
      case isFalse => exact refused

theorem reply_inv {clipboard : Except String (List Clipboard)} :
    Inv (s.step w (.reply clipboard)) := by
  simp only [step]
  split
  case h_2 => exact inv
  case h_1 n requests frames kept =>
    have flows := inv.flows _ kept
    have mine := inv.requests _ kept
    refine ⟨⟨?_, inv.current.2⟩, ?_, ?_, fun _ => rfl⟩
    · intro r member
      exact List.mem_cons_of_mem _ (inv.current.1 r member)
    · intro stream same
      obtain rfl := Option.some.inj same
      refine flows.append (.reply n clipboard) ?_ (List.subset_cons_self _ _)
      rintro _ _ ⟨⟩
      exact ⟨List.mem_cons_self, mine n List.mem_cons_self⟩
    · intro stream same m member
      obtain rfl := Option.some.inj same
      exact mine m (List.mem_cons_of_mem n member)

theorem send_inv {monitorReady : Bool} : Inv (s.step w (.send monitorReady)) := by
  simp only [step]
  split
  case h_2 => exact inv
  case h_1 requests frames kept =>
    refine ⟨inv.current, ?_, ?_, fun _ => rfl⟩
    · intro stream same
      obtain rfl := Option.some.inj same
      have harmless : (if monitorReady then Data.monitorReady else .other) = .monitorReady ∨
          (if monitorReady then Data.monitorReady else .other) = .other := by
        cases monitorReady with
        | true => exact .inl rfl
        | false => exact .inr rfl
      exact (inv.flows _ kept).append (.other _ harmless) nofun (List.Subset.refl _)
    · intro stream same
      obtain rfl := Option.some.inj same
      exact inv.requests ⟨requests, frames, false⟩ kept

theorem timeout_inv (inStep : s.pc.waitsForRaw = false) : Inv (s.step w .timeout) := by
  simp only [step]
  cases at_ : s.pc with
  | idle => exact inv
  | nextRaw n contents =>
      rw [at_] at inStep
      cases inStep
  | next n =>
      refine ⟨inv.current, ?_, nofun, fun busy => (busy rfl).elim⟩
      intro stream kept
      have flows := inv.flows stream kept
      rw [at_] at flows
      exact flows.idle

theorem reset_inv : Inv (s.step w .reset) := by
  have broken (pc : Pc) (idle : pc.waitsForRaw = false) (connected : pc ≠ .idle → s.stream.isSome) :
      Inv { s with pc, stream := s.stream.map fun _ => { broken := true } } := by
    refine ⟨inv.current, ?_, ?_, by simpa using connected⟩
    · intro stream kept
      obtain ⟨old, -, rfl⟩ := Option.map_eq_some_iff.mp kept
      exact flows_nil idle
    · intro stream kept n member
      obtain ⟨old, -, rfl⟩ := Option.map_eq_some_iff.mp kept
      cases member
  simp only [step]
  split
  case h_1 at_ => exact broken s.pc (at_ ▸ rfl) fun busy => (busy at_).elim
  case h_2 => exact broken .idle rfl fun busy => (busy rfl).elim
  case h_3 => exact ⟨inv.current, nofun, nofun, fun busy => (busy rfl).elim⟩

/-- A call gives up. -/
theorem giveUp_inv (flows : ∀ kept ∈ stream, Flows s.replies .idle kept.frames) :
    Inv { s with pc := .idle, stream }  where
  current := inv.current
  flows := flows
  requests _ _ _ _ _ waits := by cases waits
  connected busy := (busy rfl).elim

/-- A call returns the items of a reply to its request. -/
theorem finish_inv (mine : (n, contents.map item) ∈ s.replies)
    (flows : ∀ kept ∈ stream, Flows s.replies .idle kept.frames) :
    Inv (finish n contents { s with stream })  where
  current := by
    refine ⟨fun r member => ?_, inv.current.2⟩
    rcases List.mem_cons.mp member with rfl | old
    · exact mine
    · exact inv.current.1 r old
  flows := flows
  requests _ _ _ _ _ waits := by cases waits
  connected busy := (busy rfl).elim

/-- A call goes on waiting. -/
theorem wait_inv {stream after : Stream} (kept : s.stream = some stream)
    (requests : after.requests = stream.requests) (flows : Flows s.replies s.pc after.frames) :
    Inv { s with stream := some after } where
  current := inv.current
  flows stream' same := Option.some.inj same ▸ flows
  requests stream' same n member := by
    obtain rfl := Option.some.inj same
    exact inv.requests stream kept n (requests ▸ member)
  connected _ := rfl

theorem takeReply_inv (waits : s.pc = .next n)
    (kept : s.stream = some ⟨requests, frame :: frames, broken⟩) :
    Inv (takeReply w n frame { s with stream := some ⟨requests, frames, broken⟩ }) := by
  obtain ⟨msgs, known, eq⟩ := inv.flows _ kept
  rw [waits] at eq known
  cases msgs with
  | nil => cases eq
  | cons m rest =>
      simp only [List.flatMap_cons] at eq
      have knownRest (m : Msg) (member : m ∈ rest) := known m (List.mem_cons_of_mem _ member)
      have idle (eq : frames = rest.flatMap Msg.frames) (kept : Stream)
          (same : kept ∈ some
            (Stream.mk requests frames broken)) : Flows s.replies .idle kept.frames := by
        obtain rfl := Option.some.inj same
        exact ⟨rest, fun m member call clipboard same =>
          ⟨(knownRest m member call clipboard same).1, nofun⟩, eq⟩
      cases m with
      | other data harmless =>
          obtain ⟨rfl, tail⟩ := List.cons.inj eq
          rcases harmless with rfl | rfl
          · exact wait_inv inv kept rfl (waits ▸ ⟨rest, knownRest, tail⟩)
          · have given := giveUp_inv inv (idle tail)
            exact given
      | reply call clipboard =>
          obtain ⟨recorded, mine⟩ := known _ List.mem_cons_self call clipboard rfl
          obtain rfl := mine n rfl
          cases clipboard with
          | error e =>
              obtain ⟨rfl, tail⟩ := List.cons.inj eq
              simp only [takeReply, Frame.data]
              split
              case isTrue =>
                have given := giveUp_inv inv (idle tail)
                exact given
              case isFalse => exact finish_inv inv recorded (idle tail)
          | ok clipboards =>
              obtain ⟨rfl, tail⟩ := List.cons.inj eq
              have noErr : (!"".isEmpty) = false := rfl
              simp only [takeReply, Frame.data, noErr, any_nextRaw, Bool.false_eq_true, if_false]
              cases raw : (rawContents clipboards).isEmpty with
              | true =>
                  simp only [raw, if_true] at tail
                  have items := map_item_pack (raw ▸ any_nextRaw)
                  exact finish_inv inv (items.symm ▸ recorded) (idle tail)
              | false =>
                  simp only [raw, Bool.false_eq_true, if_false] at tail
                  refine ⟨inv.current, ?_, nofun, fun _ => rfl⟩
                  intro stream same
                  obtain rfl := Option.some.inj same
                  refine ⟨rest, ?_, clipboards, rfl, recorded, tail⟩
                  exact fun m member call clipboard same =>
                    ⟨(knownRest m member call clipboard same).1, nofun⟩

theorem takeRaw_inv (waits : s.pc = .nextRaw n contents)
    (kept : s.stream = some ⟨requests, frame :: frames, broken⟩) :
    Inv (takeRaw w n contents frame { s with stream := some ⟨requests, frames, broken⟩ }) := by
  obtain ⟨msgs, known, eq⟩ := inv.flows _ kept
  rw [waits] at eq known
  obtain ⟨clipboards, rfl, recorded, eq⟩ := eq
  obtain ⟨rfl, rfl⟩ := List.cons.inj eq
  obtain ⟨contents, cut, items⟩ := split_pack clipboards
  simp only [takeRaw, Frame.bytes, cut]
  apply finish_inv inv (items.symm ▸ recorded)
  intro stream same
  obtain rfl := Option.some.inj same
  exact ⟨msgs, fun m member call clipboard same => ⟨(known m member call clipboard same).1, nofun⟩, rfl⟩

theorem next_inv : Inv (s.step w .next) := by
  simp only [step]
  split
  case h_1 => exact inv
  case h_3 => exact inv
  case h_2 requests frame frames broken kept busy =>
    unfold take
    split
    case h_1 idle => exact (busy idle).elim
    case h_2 n waits => exact takeReply_inv inv waits kept
    case h_3 n contents waits => exact takeRaw_inv inv waits kept

theorem Inv.step {e : Event} (inStep : InStep s e) : Inv (s.step w e) := by
  cases e with
  | call sends connects =>
      simp only [State.step]
      split
      case h_1 idle => exact call_inv inv (inStep idle) idle
      case h_2 => exact inv
  | reply clipboard => exact reply_inv inv
  | send monitorReady => exact send_inv inv
  | next => exact next_inv inv
  | timeout => exact timeout_inv inv inStep
  | reset => exact reset_inv inv

end

/-- When no call uses a connection with another call's reply in it, and the contents come in time,
    each call that succeeds returns the items of a reply to its own request. -/
theorem clipboard_reads_current (w : Wire) (events : List Event)
    (inStep : Along (step w) InStep {} events) :
    Always (step w) Current {} events :=
  (Runs.always_of_along (fun _ _ inv here => inv.step here) inv_start inStep).mono fun _ inv =>
    inv.current

/-- Bytes that are taken for no message -/
def noMessage : Wire := ⟨fun _ => [], fun _ => none⟩

def text (content : List UInt8) : Clipboard := { content }

theorem clipboard_reads_current_three :
    Always (step noMessage) Current {}
      [.call false true, .send true, .reply (.ok [text [1], text (List.replicate 3073 2)]), .next, .next,
        .next, .call true false, .timeout, .reset, .call false true, .reply (.error "no clipboard"),
        .next] :=
  clipboard_reads_current _ _ (by decide +kernel)

/-- A reply that comes late is taken for that of the next call. -/
theorem late_reply_returned :
    ¬ ∀ events, Always (step noMessage) Current {} events := by
  intro always
  have broken :=
    (always [.call false true, .timeout, .reply (.ok [text [1]]), .call true false, .next]).last
  revert broken
  decide +kernel

end State

end RemoteControl.Clipboard.CmRead
