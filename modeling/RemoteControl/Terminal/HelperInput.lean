import RemoteControl.LittleEndian
import RemoteControl.Pipe

/-! # The input of the terminal helper

The service writes what is typed and the size of the window into a pipe as messages, and
a thread of `run_terminal_helper` reads them from there: a header of five bytes, and the
payload into a buffer that is used again and only ever grows.
-/

namespace RemoteControl.Terminal.Helper

open Pipe

/-- `MSG_TYPE_DATA` -/
def msgTypeData : UInt8 := 1

/-- `MSG_TYPE_RESIZE` -/
def msgTypeResize : UInt8 := 2

/-- `MSG_HEADER_SIZE` -/
def msgHeaderSize : Nat := 5

/-- `MAX_PAYLOAD_SIZE` -/
def maxPayloadSize : Nat := 16 * 1024 * 1024

def encodeHelperMessage (msgType : UInt8) (payload : List UInt8) : List UInt8 :=
  msgType :: toLe 4 payload.length ++ payload

def encodeResizeMessage (rows cols : UInt16) : List UInt8 :=
  encodeHelperMessage msgTypeResize (toLe 2 rows.toNat ++ toLe 2 cols.toNat)

/-- What is done to the pseudo terminal. -/
inductive PtyOp where
  | write (data : List UInt8)
  | resize (rows cols : UInt16)
  deriving DecidableEq

inductive ReadEnd where
  | full
  | eof
  | failed
  deriving DecidableEq

/-- `read_exact_or_eof`: how the reading ends, the pipe and the buffer afterwards. -/
def readExactOrEof (pipe : List (Item UInt8)) (buf : List UInt8) (pos : Nat) :
    ReadEnd × List (Item UInt8) × List UInt8 :=
  if pos < buf.length then
    match _called : read (buf.length - pos) pipe with
    | (.read [], pipe') => (.eof, pipe', buf)
    | (.read (b :: bytes), pipe') =>
        readExactOrEof pipe'
          (buf.take pos ++ b :: bytes ++ buf.drop (pos + (bytes.length + 1))) (pos + (bytes.length + 1))
    | (.interrupted, pipe') => readExactOrEof pipe' buf pos
    | (.failed, pipe') => (.failed, pipe', buf)
  else (.full, pipe, buf)
termination_by weight pipe
decreasing_by
  · exact (took _called).2.2.1 (by simp)
  · exact (took _called).2

section Reading

variable {pipe pipe' : List (Item UInt8)} {buf : List UInt8} {pos : Nat} {b : UInt8}
  {bytes : List UInt8}

/-- What a successful read has put into the buffer stays inside it. -/
theorem length_overwrite (more : pos < buf.length) (fits : (b :: bytes).length ≤ buf.length - pos) :
    (buf.take pos ++ b :: bytes ++ buf.drop (pos + (bytes.length + 1))).length = buf.length := by
  simp only [List.length_append, List.length_take, List.length_drop, List.length_cons] at fits ⊢
  omega

variable (pipe buf pos)

theorem length_readExactOrEof : (readExactOrEof pipe buf pos).2.2.length = buf.length := by
  fun_induction readExactOrEof pipe buf pos with
  | case1 pipe buf pos more pipe' called => rfl
  | case2 pipe buf pos more b bytes pipe' called ih =>
      have effect := took called
      rw [ih]
      exact length_overwrite more effect.2.1
  | case3 pipe buf pos more pipe' called ih => exact ih
  | case4 pipe buf pos more pipe' called => rfl
  | case5 pipe buf pos done => rfl

theorem weight_readExactOrEof :
    weight (readExactOrEof pipe buf pos).2.1 ≤ weight pipe ∧
      (pos < buf.length → (readExactOrEof pipe buf pos).1 = .full →
        weight (readExactOrEof pipe buf pos).2.1 < weight pipe) := by
  fun_induction readExactOrEof pipe buf pos with
  | case1 pipe buf pos more pipe' called =>
      have := weight_read_le (buf.length - pos) pipe
      rw [called] at this
      simpa using this
  | case2 pipe buf pos more b bytes pipe' called ih =>
      have effect := took called
      have less := effect.2.2.1 (by simp)
      exact ⟨ih.1.trans less.le, fun _ _ => Nat.lt_of_le_of_lt ih.1 less⟩
  | case3 pipe buf pos more pipe' called ih =>
      have effect := took called
      exact ⟨ih.1.trans effect.2.le, fun _ _ => Nat.lt_of_le_of_lt ih.1 effect.2⟩
  | case4 pipe buf pos more pipe' called =>
      have := weight_read_le (buf.length - pos) pipe
      rw [called] at this
      simpa using this
  | case5 pipe buf pos done => simp [done]

end Reading

structure Loop where
  inputPipe : List (Item UInt8)
  headerBuf : List UInt8 := List.replicate msgHeaderSize 0
  payloadBuf : List UInt8 := List.replicate 4096 0
  ops : List PtyOp := []
  headerSize : headerBuf.length = msgHeaderSize := by rfl

namespace Loop

def readHeader (s : Loop) : ReadEnd × Loop :=
  let r := readExactOrEof s.inputPipe s.headerBuf 0
  (r.1, { s with
    inputPipe := r.2.1
    headerBuf := r.2.2
    headerSize := by rw [length_readExactOrEof, s.headerSize] })

def msgType (s : Loop) : UInt8 := s.headerBuf.headD 0

def payloadLen (s : Loop) : Nat := ofLe (s.headerBuf.drop 1)

/-- `payload_buf.resize`, if the buffer is too short. -/
def growPayloadBuf (s : Loop) : Loop :=
  { s with payloadBuf := s.payloadBuf ++ List.replicate (s.payloadLen - s.payloadBuf.length) 0 }

/-- Reads into `payload_buf[..payload_len]`; an empty payload takes no read. -/
def readPayload (s : Loop) : ReadEnd × Loop :=
  let r := readExactOrEof s.inputPipe (s.payloadBuf.take s.payloadLen) 0
  (r.1, { s with inputPipe := r.2.1, payloadBuf := r.2.2 ++ s.payloadBuf.drop s.payloadLen })

def payload (s : Loop) : List UInt8 := s.payloadBuf.take s.payloadLen

def act (s : Loop) (op : PtyOp) : Loop := { s with ops := s.ops ++ [op] }

end Loop

/-- What the shell and its terminal do while the thread runs. -/
structure Shell where
  /-- The shell has exited. -/
  exiting : Loop → Bool
  /-- How many bytes the terminal takes before a write or a flush fails, if it does. -/
  writeFails : Loop → Option Nat

/-- What a whole message leads to, and whether the loop goes on. -/
def handle (shell : Shell) (s : Loop) : Bool × Loop :=
  if s.msgType = msgTypeData then
    match shell.writeFails s with
    | none => (true, s.act (.write s.payload))
    | some n => (false, s.act (.write (s.payload.take n)))
  else if s.msgType = msgTypeResize then
    if 4 ≤ s.payloadLen then
      let rows := UInt16.ofNat (ofLe (s.payloadBuf.take 2))
      let cols := UInt16.ofNat (ofLe ((s.payloadBuf.drop 2).take 2))
      (true, s.act (.resize rows cols))
    else (true, s)
  else (false, s)

/-- One round of the loop, and whether there is another one. -/
def round (shell : Shell) (s : Loop) : Bool × Loop :=
  match s.readHeader with
  | (.full, s) =>
      if maxPayloadSize < s.payloadLen then (false, s)
      else
        match s.growPayloadBuf.readPayload with
        | (.full, s) => handle shell s
        | (_, s) => (false, s)
  | (_, s) => (false, s)

@[simp] theorem handle_inputPipe (shell : Shell) (s : Loop) :
    (handle shell s).2.inputPipe = s.inputPipe := by
  simp only [handle, Loop.act]
  repeat' split
  all_goals rfl

variable {s s' : Loop}

theorem weight_readHeader (read : s.readHeader = (.full, s')) :
    weight s'.inputPipe < weight s.inputPipe := by
  simp only [Loop.readHeader, Prod.mk.injEq] at read
  rw [← read.2]
  apply (weight_readExactOrEof _ _ _).2 _ read.1
  rw [s.headerSize]
  decide

theorem weight_readPayload (s : Loop) : weight s.readPayload.2.inputPipe ≤ weight s.inputPipe :=
  (weight_readExactOrEof _ _ _).1

theorem round_weight {shell : Shell} (again : round shell s = (true, s')) :
    weight s'.inputPipe < weight s.inputPipe := by
  simp only [round] at again
  split at again
  · rename_i s₁ header
    have less := weight_readHeader header
    split at again
    · simp at again
    · split at again
      · rename_i s₂ payload
        have le := weight_readPayload s₁.growPayloadBuf
        rw [payload] at le
        have same := handle_inputPipe shell s₂
        rw [again] at same
        rw [same]
        exact Nat.lt_of_le_of_lt le less
      · simp at again
  · simp at again

/-- The input thread of `run_terminal_helper`. -/
def inputLoop (shell : Shell) (s : Loop) : Loop :=
  if shell.exiting s then s
  else
    match _round : round shell s with
    | (true, s') => inputLoop shell s'
    | (false, s') => s'
termination_by weight s.inputPipe
decreasing_by exact round_weight _round

/-! ## Whole messages -/

inductive Message where
  | data (payload : List UInt8) (fits : payload.length ≤ maxPayloadSize)
  | resize (rows cols : UInt16)

namespace Message

def msgType : Message → UInt8
  | .data _ _ => msgTypeData
  | .resize _ _ => msgTypeResize

def payload : Message → List UInt8
  | .data payload _ => payload
  | .resize rows cols => toLe 2 rows.toNat ++ toLe 2 cols.toNat

/-- What the service writes into the pipe. -/
def encode : Message → List UInt8
  | .data payload _ => encodeHelperMessage msgTypeData payload
  | .resize rows cols => encodeResizeMessage rows cols

/-- What the message asks for. -/
def op : Message → PtyOp
  | .data payload _ => .write payload
  | .resize rows cols => .resize rows cols

theorem encode_eq (m : Message) : m.encode = encodeHelperMessage m.msgType m.payload := by
  cases m <;> rfl

theorem length_payload_le (m : Message) : m.payload.length ≤ maxPayloadSize := by
  cases m with
  | data payload fits => exact fits
  | resize rows cols =>
      simp only [payload, List.length_append, length_toLe]
      decide

end Message

theorem readExactOrEof_full {pipe : List (Item UInt8)} {buf bytes rest : List UInt8} {pos : Nat}
    (room : buf.length = pos + bytes.length) (arrives : delivered pipe = bytes ++ rest) :
    ∃ pipe', readExactOrEof pipe buf pos = (.full, pipe', buf.take pos ++ bytes) ∧
      delivered pipe' = rest := by
  fun_induction readExactOrEof pipe buf pos generalizing bytes with
  | case1 pipe buf pos more pipe' called =>
      have effect := took called
      have none_ := effect.2.2.2 rfl (by omega)
      rw [arrives, List.append_eq_nil_iff] at none_
      rw [none_.1, List.length_nil] at room
      omega
  | case2 pipe buf pos more b first pipe' called ih =>
      have effect := took called
      obtain ⟨split, short, -, -⟩ := effect
      rw [arrives] at split
      -- the bytes read are the first ones of those that are awaited
      obtain ⟨later, rfl⟩ : ∃ later, bytes = b :: first ++ later := by
        have isPrefix : b :: first <+: bytes ++ rest := ⟨_, split.symm⟩
        obtain ⟨later, same⟩ := List.prefix_of_prefix_length_le isPrefix (List.prefix_append bytes rest)
          (by omega)
        exact ⟨later, same.symm⟩
      rw [List.append_assoc, List.append_cancel_left_eq] at split
      simp only [List.length_append, List.length_cons] at room
      obtain ⟨pipe'', read, end_⟩ := ih
        (by rw [length_overwrite more short]; omega) split.symm
      refine ⟨pipe'', ?_, end_⟩
      rw [read]
      have before : pos + (first.length + 1) = (buf.take pos ++ b :: first).length := by
        simp only [List.length_append, List.length_take, List.length_cons]
        omega
      rw [before, List.take_left, List.append_assoc]
  | case3 pipe buf pos more pipe' called ih =>
      have effect := took called
      exact ih room (effect.1 ▸ arrives)
  | case4 pipe buf pos more pipe' called =>
      have effect : delivered pipe = [] := took called
      rw [arrives, List.append_eq_nil_iff] at effect
      rw [effect.1, List.length_nil] at room
      omega
  | case5 pipe buf pos done =>
      have empty : bytes = [] := by
        apply List.eq_nil_of_length_eq_zero
        omega
      subst empty
      refine ⟨pipe, ?_, arrives⟩
      rw [List.append_nil, List.take_of_length_le (by omega)]

theorem readExactOrEof_short {pipe : List (Item UInt8)} {buf : List UInt8} {pos : Nat}
    (short : (delivered pipe).length < buf.length - pos) : (readExactOrEof pipe buf pos).1 ≠ .full := by
  fun_induction readExactOrEof pipe buf pos with
  | case1 pipe buf pos more pipe' called => nofun
  | case2 pipe buf pos more b bytes pipe' called ih =>
      have effect := took called
      obtain ⟨split, fits, -, -⟩ := effect
      apply ih
      have count := congrArg List.length split
      rw [length_overwrite more fits]
      simp only [List.length_append, List.length_cons] at count
      omega
  | case3 pipe buf pos more pipe' called ih =>
      have effect := took called
      apply ih
      rwa [← effect.1]
  | case4 pipe buf pos more pipe' called => nofun
  | case5 pipe buf pos done => omega

section Rounds

variable {s : Loop} {rest : List UInt8}

theorem readHeader_full {msgType : UInt8} {n : Nat} (fits : n < 256 ^ 4)
    (arrives : delivered s.inputPipe = msgType :: toLe 4 n ++ rest) :
    ∃ s', s.readHeader = (.full, s') ∧ s'.msgType = msgType ∧ s'.payloadLen = n ∧
      s'.ops = s.ops ∧ delivered s'.inputPipe = rest := by
  have room : s.headerBuf.length = 0 + (msgType :: toLe 4 n).length := by
    simp [s.headerSize, msgHeaderSize]
  obtain ⟨pipe', read, after⟩ := readExactOrEof_full room arrives
  refine ⟨s.readHeader.2, ?_, ?_, ?_, rfl, ?_⟩
  · simp [Loop.readHeader, read]
  · simp [Loop.readHeader, Loop.msgType, read]
  · simp [Loop.readHeader, Loop.payloadLen, read, ofLe_toLe_of_lt fits]
  · simp [Loop.readHeader, read, after]

theorem length_growPayloadBuf (s : Loop) :
    (s.growPayloadBuf.payloadBuf.take s.growPayloadBuf.payloadLen).length = s.payloadLen := by
  have same : s.growPayloadBuf.payloadLen = s.payloadLen := rfl
  rw [same]
  simp only [Loop.growPayloadBuf, List.length_take, List.length_append, List.length_replicate]
  omega

theorem readPayload_full {payload : List UInt8} (len : s.payloadLen = payload.length)
    (arrives : delivered s.inputPipe = payload ++ rest) :
    ∃ s', s.growPayloadBuf.readPayload = (.full, s') ∧ s'.msgType = s.msgType ∧
      s'.payloadLen = payload.length ∧ (∃ stale, s'.payloadBuf = payload ++ stale) ∧
      s'.ops = s.ops ∧ delivered s'.inputPipe = rest := by
  have room : (s.growPayloadBuf.payloadBuf.take s.growPayloadBuf.payloadLen).length =
      0 + payload.length := by
    rw [length_growPayloadBuf, len, Nat.zero_add]
  obtain ⟨pipe', read, after⟩ := readExactOrEof_full room arrives
  change readExactOrEof s.growPayloadBuf.inputPipe _ _ = _ at read
  refine ⟨s.growPayloadBuf.readPayload.2, ?_, rfl, len, ?_, rfl, ?_⟩
  · simp [Loop.readPayload, read]
  · simp [Loop.readPayload, read]
  · simp [Loop.readPayload, read, after]

end Rounds

/-- The shell runs, and its terminal takes whatever is written to it. -/
structure Shell.Running (shell : Shell) : Prop where
  exiting : ∀ s, shell.exiting s = false
  writeFails : ∀ s, shell.writeFails s = none

/-- Nothing, or some of the bytes of a message but not all of them. -/
def CutShort (bytes : List UInt8) : Prop := ∃ m : Message, bytes <+: m.encode ∧ bytes ≠ m.encode

section Rounds

variable {shell : Shell} {s : Loop}

theorem ofNat_ofLe_append (n : UInt16) (rest : List UInt8) :
    UInt16.ofNat (ofLe ((toLe 2 n.toNat ++ rest).take 2)) = n := by
  have cut : (toLe 2 n.toNat ++ rest).take 2 = toLe 2 n.toNat := List.take_left' (length_toLe _ _)
  rw [cut, ofLe_toLe_of_lt n.toNat_lt, UInt16.ofNat_toNat]

theorem handle_message (running : shell.Running) (m : Message) (type : s.msgType = m.msgType)
    (len : s.payloadLen = m.payload.length) {stale : List UInt8}
    (payload : s.payloadBuf = m.payload ++ stale) : handle shell s = (true, s.act m.op) := by
  cases m with
  | data bytes fits =>
      have taken : s.payload = bytes := by
        rw [Loop.payload, len, payload]
        exact List.take_left
      simp [handle, type, Message.msgType, running.writeFails, Message.op, taken]
  | resize rows cols =>
      have long : 4 ≤ s.payloadLen := by simp [len, Message.payload]
      have first : UInt16.ofNat (ofLe (s.payloadBuf.take 2)) = rows := by
        rw [payload, Message.payload, List.append_assoc]
        exact ofNat_ofLe_append rows _
      have second : UInt16.ofNat (ofLe ((s.payloadBuf.drop 2).take 2)) = cols := by
        rw [payload, Message.payload, List.append_assoc, List.drop_left' (length_toLe _ _)]
        exact ofNat_ofLe_append cols _
      have other : msgTypeResize ≠ msgTypeData := by decide
      simp [handle, type, Message.msgType, other, long, first, second, Message.op]

theorem round_message (running : shell.Running) (m : Message) {rest : List UInt8}
    (arrives : delivered s.inputPipe = m.encode ++ rest) :
    ∃ s', round shell s = (true, s') ∧ s'.ops = s.ops ++ [m.op] ∧ delivered s'.inputPipe = rest := by
  have le := m.length_payload_le
  rw [m.encode_eq, encodeHelperMessage, List.append_assoc] at arrives
  obtain ⟨s₁, header, type, len, ops₁, arrives⟩ :=
    readHeader_full (Nat.lt_of_le_of_lt le (by decide)) arrives
  obtain ⟨s₂, read, sameType, sameLen, ⟨stale, payload⟩, ops₂, after⟩ :=
    readPayload_full len arrives
  refine ⟨s₂.act m.op, ?_, ?_, after⟩
  · have small : ¬ maxPayloadSize < s₁.payloadLen := by omega
    simp only [round, header, if_neg small, read]
    exact handle_message running m (sameType.trans type) sameLen payload
  · rw [Loop.act, ops₂, ops₁]

theorem round_of_header_short (short : s.readHeader.1 ≠ .full) :
    round shell s = (false, s.readHeader.2) := by
  rw [round]
  split
  · rename_i header
    exact absurd (congrArg Prod.fst header) short
  · rename_i header
    rw [header]

/-- A message that the pipe ends in leads to nothing. -/
theorem round_cutShort (short : CutShort (delivered s.inputPipe)) :
    ∃ s', round shell s = (false, s') ∧ s'.ops = s.ops := by
  obtain ⟨m, ⟨missing, split⟩, other⟩ := short
  rw [m.encode_eq, encodeHelperMessage] at split other
  by_cases inHeader : (delivered s.inputPipe).length < msgHeaderSize
  · refine ⟨s.readHeader.2, round_of_header_short ?_, rfl⟩
    apply readExactOrEof_short
    rwa [s.headerSize]
  · obtain ⟨part, arrives⟩ : m.msgType :: toLe 4 m.payload.length <+: delivered s.inputPipe := by
      have isPrefix : m.msgType :: toLe 4 m.payload.length <+: delivered s.inputPipe ++ missing :=
        ⟨m.payload, split.symm⟩
      apply List.prefix_of_prefix_length_le isPrefix (List.prefix_append _ _)
      simpa [msgHeaderSize] using inHeader
    have le := m.length_payload_le
    obtain ⟨s₁, header, type, len, ops₁, after⟩ :=
      readHeader_full (Nat.lt_of_le_of_lt le (by decide)) arrives.symm
    -- what is there of the payload is less than the header says
    have lacks : part.length < m.payload.length := by
      rw [← arrives, List.append_assoc, List.append_cancel_left_eq] at split
      have notNil : missing ≠ [] := by
        rintro rfl
        exact other (by rw [← arrives, ← split, List.append_nil])
      have := List.length_pos_iff.mpr notNil
      have count := congrArg List.length split
      rw [List.length_append] at count
      omega
    have notFull : s₁.growPayloadBuf.readPayload.1 ≠ .full := by
      apply readExactOrEof_short
      rw [length_growPayloadBuf, len]
      exact after.symm ▸ lacks
    have small : ¬ maxPayloadSize < s₁.payloadLen := by omega
    refine ⟨s₁.growPayloadBuf.readPayload.2, ?_, ops₁⟩
    simp only [round, header, if_neg small]

end Rounds

section Run

variable {shell : Shell}

theorem inputLoop_of_again (running : shell.Running)
    (again : round shell s = (true, s')) : inputLoop shell s = inputLoop shell s' := by
  rw [inputLoop, running.exiting, if_neg Bool.false_ne_true]
  split <;> simp_all

theorem inputLoop_of_last (running : shell.Running)
    (last : round shell s = (false, s')) : inputLoop shell s = s' := by
  rw [inputLoop, running.exiting, if_neg Bool.false_ne_true]
  split <;> simp_all

theorem inputLoop_messages (running : shell.Running) {messages : List Message} {cut : List UInt8}
    (short : CutShort cut)
    (arrives : delivered s.inputPipe = messages.flatMap Message.encode ++ cut) :
    (inputLoop shell s).ops = s.ops ++ messages.map Message.op := by
  induction messages generalizing s with
  | nil =>
      rw [List.flatMap_nil, List.nil_append] at arrives
      obtain ⟨s', last, ops⟩ : ∃ s', round shell s = (false, s') ∧ s'.ops = s.ops := by
        apply round_cutShort
        rwa [arrives]
      rw [inputLoop_of_last running last, ops]
      simp
  | cons m messages ih =>
      rw [List.flatMap_cons, List.append_assoc] at arrives
      obtain ⟨s', again, ops, rest⟩ := round_message running m arrives
      rw [inputLoop_of_again running again, ih rest, ops]
      simp

/-- However the reads cut the stream, the terminal gets what each message asks for, in
    order, and nothing of a message that the pipe ends in. -/
theorem inputLoop_delivers (running : shell.Running) (messages : List Message) {cut : List UInt8}
    (short : CutShort cut) (pipe : List (Item UInt8))
    (arrives : delivered pipe = messages.flatMap Message.encode ++ cut) :
    (inputLoop shell { inputPipe := pipe }).ops = messages.map Message.op := by
  rw [inputLoop_messages running short arrives]
  rfl

end Run

/-- A shell that lives on, with a terminal that takes everything. -/
def alive : Shell := { exiting := fun _ => false, writeFails := fun _ => none }

theorem inputLoop_delivers_three :
    (inputLoop alive
      { inputPipe := [.interrupted, .chunk 1 [3], .chunk 0 [0, 0], .interrupted,
          .chunk 108 [115, 13, 1, 0, 0], .chunk 0 [0, 2, 4, 0, 0, 0, 24, 0, 80],
          .chunk 0 [1, 9, 0]] }).ops =
      [.write [108, 115, 13], .write [], .resize 24 80] := by
  have short : CutShort [1, 9, 0] :=
    ⟨.data [0, 0, 0, 0, 0, 0, 0, 0, 0] (by decide), by decide, by decide⟩
  exact inputLoop_delivers ⟨fun _ => rfl, fun _ => rfl⟩
    [.data [108, 115, 13] (by decide), .data [] (by decide), .resize 24 80] short _ (by decide)

end RemoteControl.Terminal.Helper
