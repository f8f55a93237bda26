import RemoteControl.Stream.Secured

/-! # One direction of a connection

`Framed` reads the bytes of the network into a buffer and decodes them there, so what an
end has not returned yet is in its buffer or still under way.

`Line` is all that has to be known of one direction: the messages the receiving end is
going to return, and the raw bytes behind them once the sending end has left the frames.
Each operation of an end has one lemma here, and nothing outside looks into the codec.
-/

namespace RemoteControl.Stream

open Incremental BytesCodec

variable {Key : Type} (box : SecretBox Key)

/-- A `FramedStream` and what its `Framed` has read and not decoded. -/
structure Endpoint (Key : Type) where
  stream : FramedStream Key
  buffer : Bytes := []

/-- What polling `next` comes to. -/
inductive Polled where
  | pending
  | item (bytes : Bytes)
  | failed (err : String)
  /-- The counter of the key has overflown. -/
  | stopped

namespace Endpoint

def setRaw (e : Endpoint Key) : Endpoint Key := { e with stream := e.stream.setRaw }

/-- `send_bytes`: what goes to the network. A payload that is too long is refused. -/
def sendBytes (data : Bytes) (e : Endpoint Key) : Bytes := (e.stream.codec.encode data []).1

/-- `send_raw`, for a message that is serialized already. -/
def send (msg : Bytes) (e : Endpoint Key) : Option (Endpoint Key × Bytes) :=
  (e.stream.sendRaw box msg).map fun (stream, frame) =>
    ({ e with stream := stream }, e.sendBytes frame)

/-- The network hands over the next bytes. -/
def arrive (bytes : Bytes) (e : Endpoint Key) : Endpoint Key :=
  { e with buffer := e.buffer ++ bytes }

def poll (e : Endpoint Key) : Endpoint Key × Polled :=
  match e.stream.codec.decode e.buffer with
  | (codec, buffer, .error err) => (⟨{ e.stream with codec := codec }, buffer⟩, .failed err)
  | (codec, buffer, .ok none) => (⟨{ e.stream with codec := codec }, buffer⟩, .pending)
  | (codec, buffer, .ok (some bytes)) =>
      let (stream, next) := { e.stream with codec := codec }.next box (some (.ok bytes))
      (⟨stream, buffer⟩, match next with
        | none => .stopped
        | some (.error err) => .failed err
        | some (.ok data) => .item data)

def isRaw (e : Endpoint Key) : Bool := e.stream.codec.raw

/-- The key and the messages sealed so far. -/
def sealing (e : Endpoint Key) : Option (Key × Nat) :=
  e.stream.encrypt.map fun e => (e.key, e.sealedCount)

/-- The key and the messages opened so far. -/
def opening (e : Endpoint Key) : Option (Key × Nat) :=
  e.stream.encrypt.map fun e => (e.key, e.openedCount)

theorem sendBytes_of_raw {e : Endpoint Key} (raw : e.isRaw = true) (data : Bytes) :
    e.sendBytes data = data := by
  simp [sendBytes, BytesCodec.encode, show e.stream.codec.raw = true from raw]

end Endpoint

/-! ## Frames of a key -/

/-- The frames of messages that are sealed after `count` others. -/
def sealedFrames (key : Key) : Nat → List Bytes → List Bytes
  | _, [] => []
  | count, msg :: msgs => box.seal_ msg (getNonce (count + 1)) key :: sealedFrames key (count + 1) msgs

/-- The frames an end expects in which these messages come. -/
def framesFor (opening : Option (Key × Nat)) (msgs : List Bytes) : List Bytes :=
  match opening with
  | none => msgs
  | some (key, count) => sealedFrames box key count msgs

/-- The counter of an end has room for that many messages more. -/
def Roomy (opening : Option (Key × Nat)) (more : Nat) : Prop :=
  ∀ key count, opening = some (key, count) → count + more ≤ maxCount

/-- An end has sealed as many messages as the other will have opened after `more` of them. -/
def InStep (sender receiver : Endpoint Key) (more : Nat) : Prop :=
  sender.sealing = receiver.opening.map fun (key, count) => (key, count + more)

/-- The longest message that fits into a frame, sealed or not. -/
def Fits (msg : Bytes) : Prop := msg.length + 16 ≤ 0x3FFFFFFF

instance (msg : Bytes) : Decidable (Fits msg) := inferInstanceAs (Decidable (_ ≤ _))

theorem sealedFrames_append (key : Key) (count : Nat) (msgs : List Bytes) (msg : Bytes) :
    sealedFrames box key count (msgs ++ [msg]) = sealedFrames box key count msgs ++
      [box.seal_ msg (getNonce (count + msgs.length + 1)) key] := by
  induction msgs generalizing count with
  | nil => rfl
  | cons first msgs ih =>
      simp only [List.cons_append, sealedFrames, ih, List.length_cons]
      rw [Nat.add_right_comm count 1, Nat.add_assoc count msgs.length 1]

section Sealing

variable {box} {e e' sender sender' receiver : Endpoint Key} {msg bytes : Bytes} {more : Nat}

/-- All that sending does to an end: it counts the message. -/
theorem send_spec (sent : sender.send box msg = some (sender', bytes)) :
    sender'.stream.codec = sender.stream.codec ∧ sender'.buffer = sender.buffer ∧
      sender'.opening = sender.opening ∧
      ∃ frame, bytes = sender.sendBytes frame ∧ frame.length ≤ msg.length + 16 ∧
        (sender.sealing = none → sender'.sealing = none ∧ frame = msg) ∧
        ∀ key count, sender.sealing = some (key, count) → count < maxCount ∧
          sender'.sealing = some (key, count + 1) ∧
            frame = box.seal_ msg (getNonce (count + 1)) key := by
  unfold Endpoint.send FramedStream.sendRaw at sent
  unfold Endpoint.sealing Endpoint.opening
  cases secured : sender.stream.encrypt with
  | none =>
      simp only [secured, sealWith, Option.map_some, Option.some.injEq, Prod.mk.injEq] at sent
      obtain ⟨rfl, rfl⟩ := sent
      exact ⟨rfl, rfl, rfl, msg, rfl, Nat.le_add_right _ _, fun _ => ⟨rfl, rfl⟩, nofun⟩
  | some e =>
      simp only [secured, sealWith, Option.map_map, Option.map_eq_some_iff] at sent
      obtain ⟨⟨e', frame⟩, sealed_, same⟩ := sent
      obtain ⟨rfl, rfl⟩ := Prod.mk.inj same
      obtain ⟨room, rfl, rfl⟩ := Encrypt.enc_spec sealed_
      refine ⟨rfl, rfl, rfl, _, rfl, (box.longer ..).le, nofun, ?_⟩
      intro key count same
      obtain ⟨rfl, rfl⟩ := Prod.mk.inj (Option.some.inj same)
      exact ⟨room, rfl, rfl⟩

/-- A message that is sent in step goes out as the next frame the other end expects. -/
theorem send_expected (sent : sender.send box msg = some (sender', bytes))
    (inStep : InStep sender receiver more) (room : Roomy receiver.opening more) (msgs : List Bytes)
    (many : msgs.length = more) :
    ∃ frame, bytes = sender.sendBytes frame ∧ frame.length ≤ msg.length + 16 ∧
      framesFor box receiver.opening (msgs ++ [msg]) = framesFor box receiver.opening msgs ++ [frame] ∧
      InStep sender' receiver (more + 1) ∧ Roomy receiver.opening (more + 1) := by
  obtain ⟨-, -, -, frame, written, short, plain, sealed_⟩ := send_spec sent
  refine ⟨frame, written, short, ?_⟩
  unfold InStep at inStep ⊢
  cases secured : receiver.opening with
  | none =>
      rw [secured] at inStep
      obtain ⟨kept, rfl⟩ := plain inStep
      exact ⟨rfl, kept, nofun⟩
  | some opening =>
      obtain ⟨key, count⟩ := opening
      rw [secured] at inStep
      obtain ⟨last, counted, rfl⟩ := sealed_ key (count + more) inStep
      refine ⟨?_, counted, ?_⟩
      · subst many
        exact sealedFrames_append box key count msgs msg
      · intro key' count' same
        obtain ⟨rfl, rfl⟩ := Prod.mk.inj (Option.some.inj same)
        omega

/-- The next frame an end expects opens to the next message. -/
theorem open_expected {stream : FramedStream Key} {buffer frame : Bytes} {frames msgs : List Bytes}
    (room : Roomy (Endpoint.mk stream buffer).opening (more + 1))
    (expected : framesFor box (Endpoint.mk stream buffer).opening (msg :: msgs) = frame :: frames) :
    ∃ stream', stream.next box (some (.ok frame)) = (stream', some (.ok msg)) ∧
      stream'.codec = stream.codec ∧
      (Endpoint.mk stream' buffer).sealing = (Endpoint.mk stream buffer).sealing ∧
      framesFor box (Endpoint.mk stream' buffer).opening msgs = frames ∧
      Roomy (Endpoint.mk stream' buffer).opening more ∧
      ∀ sender, InStep sender (Endpoint.mk stream buffer) (more + 1) →
        InStep sender (Endpoint.mk stream' buffer) more := by
  unfold Endpoint.opening InStep at *
  unfold Endpoint.sealing
  cases secured : stream.encrypt with
  | none =>
      simp only [secured, Option.map_none, framesFor, List.cons.injEq] at expected
      obtain ⟨rfl, rfl⟩ := expected
      refine ⟨{ stream with encrypt := none }, ?_, rfl, rfl, rfl, nofun, ?_⟩
      · simp only [FramedStream.next, secured, openWith]
      · intro sender inStep
        exact inStep.trans (by rw [Endpoint.opening, secured]; rfl)
  | some e =>
      simp only [secured, Option.map_some, framesFor, sealedFrames, List.cons.injEq] at expected
      obtain ⟨rfl, rfl⟩ := expected
      have last : e.openedCount + (more + 1) ≤ maxCount := room e.key e.openedCount (by simp [secured])
      have opened : e.dec box (box.seal_ msg (getNonce (e.openedCount + 1)) e.key) =
          some ({ e with openedCount := e.openedCount + 1 }, .ok msg) := by
        apply (Encrypt.dec_of_long (by rw [box.longer]; omega) _).mpr
        exact ⟨by omega, rfl, by simp [box.opens]⟩
      refine ⟨{ stream with encrypt := some { e with openedCount := e.openedCount + 1 } }, ?_, rfl,
        rfl, rfl, ?_, ?_⟩
      · simp only [FramedStream.next, secured, openWith, opened]
      · intro key count same
        obtain ⟨rfl, rfl⟩ := Prod.mk.inj (Option.some.inj same)
        change e.openedCount + 1 + more ≤ maxCount
        omega
      · intro sender inStep
        rw [inStep, Endpoint.opening, secured]
        simp [Endpoint.opening]
        omega

end Sealing

/-- What an end that still reads frames is going to return: these messages, and behind them
    raw bytes. -/
structure Underway (e : Endpoint Key) (flight : Bytes) (msgs : List Bytes) (data : Bytes) : Prop where
  framed : e.isRaw = false
  frames : decoder.Yields e.stream.codec (e.buffer ++ flight) (framesFor box e.opening msgs) {} data
  room : Roomy e.opening msgs.length

namespace Underway

variable {box} {e sender sender' : Endpoint Key} {flight data bytes msg : Bytes} {msgs : List Bytes}

theorem arrive (underway : Underway box e (bytes ++ flight) msgs data) :
    Underway box (e.arrive bytes) flight msgs data where
  framed := underway.framed
  frames := by
    have frames := underway.frames
    rw [← List.append_assoc] at frames
    exact frames
  room := underway.room

theorem write (underway : Underway box e flight msgs data) (more : Bytes) :
    Underway box e (flight ++ more) msgs (data ++ more) where
  framed := underway.framed
  frames := by
    rw [← List.append_assoc]
    exact decoder_steady.yields_append underway.framed underway.frames more
  room := underway.room

/-- A message is sent while nothing raw is under way. -/
theorem send (underway : Underway box e flight msgs []) (framed : sender.isRaw = false)
    (sent : sender.send box msg = some (sender', bytes)) (inStep : InStep sender e msgs.length)
    (fits : Fits msg) : Underway box e (flight ++ bytes) (msgs ++ [msg]) [] ∧
      InStep sender' e (msgs ++ [msg]).length := by
  obtain ⟨frame, rfl, short, expected, inStep', room⟩ :=
    send_expected sent inStep underway.room msgs rfl
  unfold Fits at fits
  obtain ⟨tag, -, written, -⟩ := head_eq (show frame.length ≤ 0x3FFFFFFF by omega)
  have bytes : sender.sendBytes frame = toLe (tag + 1) (4 * frame.length + tag) ++ frame := by
    simp only [Endpoint.sendBytes, BytesCodec.encode, show sender.stream.codec.raw = false from framed,
      written, Bool.false_eq_true, if_false, List.nil_append]
  have called : ({} : BytesCodec).decode (toLe (tag + 1) (4 * frame.length + tag) ++ frame ++ []) =
      ({}, [], .ok (some frame)) :=
    decode_of_encoded rfl rfl written (show frame.length ≤ 2 ^ 64 - 1 by omega) []
  rw [List.append_nil] at called
  rw [List.length_append]
  refine ⟨⟨underway.framed, ?_, by rw [List.length_append]; exact room⟩, inStep'⟩
  rw [bytes, expected, ← List.append_assoc]
  exact (decoder_steady.yields_append underway.framed underway.frames _).append
    (.cons called (.nil _ _))

/-- Polling returns the first message as soon as it is there, and nothing else before. -/
theorem poll (underway : Underway box e flight (msg :: msgs) data) :
    ∃ e', e'.sealing = e.sealing ∧ e'.isRaw = false ∧
      ((e.poll box = (e', .pending) ∧ Underway box e' flight (msg :: msgs) data ∧
          e'.opening = e.opening) ∨
        (e.poll box = (e', .item msg) ∧ Underway box e' flight msgs data ∧
          ∀ sender, InStep sender e (msgs.length + 1) → InStep sender e' msgs.length)) := by
  obtain ⟨framed, frames, room⟩ := underway
  obtain ⟨frame, rest, expected⟩ :
      ∃ frame rest, framesFor box e.opening (msg :: msgs) = frame :: rest := by
    unfold framesFor
    split
    · exact ⟨msg, msgs, rfl⟩
    · exact ⟨_, _, rfl⟩
  rw [expected] at frames
  obtain ⟨stream, buffer⟩ := e
  cases called : stream.codec.decode buffer with
  | mk codec rest' =>
      obtain ⟨buffer', result⟩ := rest'
      have keep : codec.raw = false := decoder_steady.keep framed called
      cases result with
      | error err => exact absurd frames (decoder_steady.not_yields_of_error framed called)
      | ok result =>
          cases result with
          | none =>
              refine ⟨⟨{ stream with codec := codec }, buffer'⟩, rfl, keep,
                .inl ⟨?_, ⟨keep, ?_, room⟩, rfl⟩⟩
              · simp only [Endpoint.poll, called]
              · have later := decoder_steady.yields_of_none framed called frames
                rw [← expected] at later
                exact later
          | some frame' =>
              obtain ⟨rfl, later⟩ := decoder_steady.yields_of_frame framed called frames
              obtain ⟨stream', opened, same, sealing, expected', room', inStep⟩ :=
                @open_expected _ box msg msgs.length { stream with codec := codec } buffer' _ _ _
                  room expected
              refine ⟨⟨stream', buffer'⟩, sealing, by simp only [Endpoint.isRaw, same, keep],
                .inr ⟨?_, ⟨by simp only [Endpoint.isRaw, same, keep], ?_, room'⟩, inStep⟩⟩
              · simp only [Endpoint.poll, called, opened]
              · rw [expected', same]
                exact later

/-- With no message before them, the raw bytes are all there is. -/
theorem all_raw (underway : Underway box e flight [] data) :
    e.stream.codec = {} ∧ e.buffer ++ flight = data := by
  have frames := underway.frames
  have none_ : framesFor box e.opening [] = [] := by
    unfold framesFor
    split <;> rfl
  rw [none_] at frames
  generalize e.stream.codec = codec, e.buffer ++ flight = src at frames
  cases frames
  exact ⟨rfl, rfl⟩

theorem suffix (underway : Underway box e flight msgs data) : data <:+ e.buffer ++ flight :=
  underway.frames.suffix decode_suffix

theorem poll_of_nothing (underway : Underway box e flight [] []) : e.poll box = (e, .pending) := by
  obtain ⟨codec, nothing⟩ := underway.all_raw
  obtain ⟨⟨_, encrypt⟩, buffer⟩ := e
  obtain rfl : _ = ({} : BytesCodec) := codec
  obtain rfl : buffer = [] := (List.append_eq_nil_iff.mp nothing).1
  rfl

end Underway

/-- One direction: the messages under way and the raw bytes behind them. -/
structure Line (sender receiver : Endpoint Key) (flight : Bytes) (msgs : List Bytes) (data : Bytes) :
    Prop where
  /-- An end that still frames its messages has sent nothing raw. -/
  sending : sender.isRaw = false →
    data = [] ∧ (receiver.isRaw = false → InStep sender receiver msgs.length)
  receiving : receiver.isRaw = false → Underway box receiver flight msgs data
  raw : receiver.isRaw = true →
    receiver.stream.encrypt = none ∧ msgs = [] ∧ receiver.buffer ++ flight = data

namespace Line

variable {box} {sender sender' receiver receiver' : Endpoint Key} {flight data bytes msg : Bytes}
variable {msgs : List Bytes}

/-- Two ends that have agreed on a key, or on none, begin in step. -/
theorem fresh (key : Option Key) :
    Line box { stream := { encrypt := key.map .new } } { stream := { encrypt := key.map .new } } []
      [] [] where
  sending := by
    refine fun _ => ⟨rfl, fun _ => ?_⟩
    cases key <;> rfl
  receiving := by
    intro _
    cases key with
    | none => exact ⟨rfl, .nil _ _, nofun⟩
    | some key =>
        refine ⟨rfl, .nil _ _, fun key' count same => ?_⟩
        obtain ⟨-, rfl⟩ := Prod.mk.inj (Option.some.inj same)
        exact Nat.zero_le _
  raw := nofun

theorem arrive (line : Line box sender receiver (bytes ++ flight) msgs data) :
    Line box sender (receiver.arrive bytes) flight msgs data where
  sending := line.sending
  receiving := fun framed => (line.receiving framed).arrive
  raw := by
    intro raw
    obtain ⟨plain, none_, all⟩ := line.raw raw
    exact ⟨plain, none_, by rw [← all, ← List.append_assoc]; rfl⟩

section

variable (line : Line box sender receiver flight msgs data)

include line

theorem send (framed : sender.isRaw = false)
    (framed' : receiver.isRaw = false) (sent : sender.send box msg = some (sender', bytes))
    (fits : Fits msg) : Line box sender' receiver (flight ++ bytes) (msgs ++ [msg]) data := by
  obtain ⟨rfl, inStep⟩ := line.sending framed
  obtain ⟨underway, inStep'⟩ := (line.receiving framed').send framed sent (inStep framed') fits
  exact ⟨fun _ => ⟨rfl, fun _ => inStep'⟩, fun _ => underway, fun raw => by simp [framed'] at raw⟩

theorem write (raw : sender.isRaw = true)
    (more : Bytes) : Line box sender receiver (flight ++ more) msgs (data ++ more) where
  sending := fun framed => by simp [raw] at framed
  receiving := fun framed => (line.receiving framed).write more
  raw := by
    intro raw
    obtain ⟨plain, none_, all⟩ := line.raw raw
    exact ⟨plain, none_, by rw [← all, List.append_assoc]⟩

/-- What the sending end does on the other line does not matter here. -/
theorem sender_congr (raw : sender'.isRaw = sender.isRaw) (sealing : sender'.sealing = sender.sealing) :
    Line box sender' receiver flight msgs data where
  sending := by
    unfold InStep
    rw [raw, sealing]
    exact line.sending
  receiving := line.receiving
  raw := line.raw

theorem sender_setRaw :
    Line box sender.setRaw receiver flight msgs data :=
  ⟨nofun, line.receiving, line.raw⟩

end

theorem receiver_setRaw (line : Line box sender receiver flight [] data) :
    Line box sender receiver.setRaw flight [] data where
  sending := fun framed => ⟨(line.sending framed).1, nofun⟩
  receiving := nofun
  raw := by
    intro _
    refine ⟨rfl, rfl, ?_⟩
    cases raw : receiver.isRaw with
    | true => exact (line.raw raw).2.2
    | false => exact (line.receiving raw).all_raw.2

/-- What the receiving end sends does not change what it expects. -/
theorem receiver_sends (line : Line box sender receiver flight msgs data)
    (sent : receiver.send box msg = some (receiver', bytes)) :
    Line box sender receiver' flight msgs data := by
  obtain ⟨codec, buffer, opening, -⟩ := send_spec sent
  have raw : receiver'.isRaw = receiver.isRaw := congrArg BytesCodec.raw codec
  refine ⟨?_, ?_, ?_⟩
  · unfold InStep
    rw [raw, opening]
    exact line.sending
  · intro framed
    obtain ⟨framed', frames, room⟩ := line.receiving (raw ▸ framed)
    rw [← codec, ← buffer, ← opening] at frames
    exact ⟨framed, frames, opening ▸ room⟩
  · intro raw'
    obtain ⟨plain, none_, all⟩ := line.raw (raw ▸ raw')
    have opening' : receiver'.opening = none := by rw [opening, Endpoint.opening, plain]; rfl
    exact ⟨Option.map_eq_none_iff.mp opening', none_, buffer ▸ all⟩

/-- An end that still reads frames returns the next message, once it is there. -/
theorem poll (line : Line box sender receiver flight (msg :: msgs) data)
    (framed : receiver.isRaw = false) :
    ∃ receiver', receiver'.sealing = receiver.sealing ∧ receiver'.isRaw = false ∧
      ((receiver.poll box = (receiver', .pending) ∧
          Line box sender receiver' flight (msg :: msgs) data) ∨
        (receiver.poll box = (receiver', .item msg) ∧ Line box sender receiver' flight msgs data)) := by
  obtain ⟨receiver', sealing, framed', later⟩ := (line.receiving framed).poll
  refine ⟨receiver', sealing, framed', ?_⟩
  rcases later with ⟨polled, underway, opening⟩ | ⟨polled, underway, inStep⟩
  · refine .inl ⟨polled, ⟨?_, fun _ => underway, fun raw => by simp [framed'] at raw⟩⟩
    intro sending
    obtain ⟨nothing, inStep⟩ := line.sending sending
    refine ⟨nothing, fun _ => ?_⟩
    unfold InStep
    rw [opening]
    exact inStep framed
  · refine .inr ⟨polled, ⟨?_, fun _ => underway, fun raw => by simp [framed'] at raw⟩⟩
    intro sending
    obtain ⟨nothing, inStep'⟩ := line.sending sending
    exact ⟨nothing, fun _ => inStep sender (inStep' framed)⟩

theorem poll_of_nothing (line : Line box sender receiver flight [] [])
    (framed : receiver.isRaw = false) : receiver.poll box = (receiver, .pending) :=
  (line.receiving framed).poll_of_nothing

/-- The raw bytes are the last ones under way. -/
theorem suffix (line : Line box sender receiver flight msgs data) :
    data <:+ receiver.buffer ++ flight := by
  cases raw : receiver.isRaw with
  | true => exact (line.raw raw).2.2 ▸ List.suffix_rfl
  | false => exact (line.receiving raw).suffix

/-- A raw end returns what there is. -/
theorem poll_raw (line : Line box sender receiver flight msgs data) (raw : receiver.isRaw = true) :
    receiver.poll box = (receiver, .pending) ∨
      ∃ rest, data = receiver.buffer ++ rest ∧
        receiver.poll box = ({ receiver with buffer := [] }, .item receiver.buffer) ∧
        Line box sender { receiver with buffer := [] } flight msgs rest := by
  obtain ⟨plain, rfl, rfl⟩ := line.raw raw
  have raw' : receiver.stream.codec.raw = true := raw
  by_cases empty : receiver.buffer = []
  · left
    obtain ⟨stream, buffer⟩ := receiver
    obtain rfl : buffer = [] := empty
    have decoded : stream.codec.decode [] = (stream.codec, [], .ok none) := by
      simp [BytesCodec.decode, show stream.codec.raw = true from raw]
    simp only [Endpoint.poll, decoded]
  · right
    refine ⟨flight, rfl, ?_, fun framed => ?_, fun framed => ?_, fun _ => ⟨plain, rfl, rfl⟩⟩
    · obtain ⟨⟨codec, encrypt⟩, buffer⟩ := receiver
      obtain rfl : encrypt = none := plain
      have decoded : codec.decode buffer = (codec, [], .ok (some buffer)) := by
        have empty' : buffer ≠ [] := empty
        simp [BytesCodec.decode, show codec.raw = true from raw, empty']
      simp only [Endpoint.poll, decoded]
      rfl
    · obtain ⟨nothing, -⟩ := line.sending framed
      exact ⟨(List.append_eq_nil_iff.mp nothing).2, fun framed => by
        simp [show Endpoint.isRaw { receiver with buffer := [] } = true from raw] at framed⟩
    · simp [show Endpoint.isRaw { receiver with buffer := [] } = true from raw] at framed

end Line

/-- Both directions of a connection, as its near end sees them. -/
structure Link (near far : Endpoint Key) (out in_ : Bytes) (msgs : List Bytes) (data : Bytes)
    (answers : List Bytes) (back : Bytes) : Prop where
  away : Line box near far out msgs data
  towards : Line box far near in_ answers back

namespace Link

variable {box} {near near' far : Endpoint Key} {out in_ data back bytes msg : Bytes}
variable {msgs answers : List Bytes}

theorem symm (link : Link box near far out in_ msgs data answers back) :
    Link box far near in_ out answers back msgs data :=
  ⟨link.towards, link.away⟩

theorem arrive (link : Link box near far out (bytes ++ in_) msgs data answers back) :
    Link box (near.arrive bytes) far out in_ msgs data answers back :=
  ⟨link.away.sender_congr rfl rfl, link.towards.arrive⟩

theorem send (link : Link box near far out in_ msgs data answers back) (framed : near.isRaw = false)
    (framed' : far.isRaw = false) (sent : near.send box msg = some (near', bytes)) (fits : Fits msg) :
    Link box near' far (out ++ bytes) in_ (msgs ++ [msg]) data answers back :=
  ⟨link.away.send framed framed' sent fits, link.towards.receiver_sends sent⟩

theorem write (link : Link box near far out in_ msgs data answers back) (raw : near.isRaw = true)
    (more : Bytes) : Link box near far (out ++ more) in_ msgs (data ++ more) answers back :=
  ⟨link.away.write raw more, link.towards⟩

theorem setRaw (link : Link box near far out in_ msgs data [] back) :
    Link box near.setRaw far out in_ msgs data [] back :=
  ⟨link.away.sender_setRaw, link.towards.receiver_setRaw⟩

theorem poll (link : Link box near far out in_ msgs data (msg :: answers) back)
    (framed : near.isRaw = false) :
    ∃ near', near'.isRaw = false ∧
      ((near.poll box = (near', .pending) ∧
          Link box near' far out in_ msgs data (msg :: answers) back) ∨
        (near.poll box = (near', .item msg) ∧ Link box near' far out in_ msgs data answers back)) := by
  obtain ⟨near', sealing, framed', polled⟩ := link.towards.poll framed
  have away := link.away.sender_congr (framed'.trans framed.symm) sealing
  exact ⟨near', framed', polled.imp (fun ⟨polled, line⟩ => ⟨polled, away, line⟩)
    fun ⟨polled, line⟩ => ⟨polled, away, line⟩⟩

theorem poll_raw (link : Link box near far out in_ msgs data answers back) (raw : near.isRaw = true) :
    near.poll box = (near, .pending) ∨
      ∃ rest, back = near.buffer ++ rest ∧
        near.poll box = ({ near with buffer := [] }, .item near.buffer) ∧
        Link box { near with buffer := [] } far out in_ msgs data answers rest := by
  rcases link.towards.poll_raw raw with nothing | ⟨rest, all, polled, line⟩
  · exact .inl nothing
  · exact .inr ⟨rest, all, polled, link.away.sender_congr rfl rfl, line⟩

end Link

end RemoteControl.Stream
