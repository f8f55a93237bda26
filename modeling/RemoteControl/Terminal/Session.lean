import RemoteControl.Terminal.OutputBuffer

/-! # One terminal session

`TerminalSession` of `terminal_service.rs` and what is done to it under its lock: the
reader thread pushes into the output channel, `read_outputs` takes what is there, a client
that opens the terminal again makes it stream, `reset_status` makes it stop streaming.

A response counts as sent where `read_outputs` makes it, with the lock held. The helper
process that holds the terminal of another user on Windows is left out.
-/

namespace RemoteControl.Terminal

/-- `COMPRESS_THRESHOLD` -/
def compressThreshold : Nat := 512

/-- `CHANNEL_BUFFER_SIZE` -/
def channelBufferSize : Nat := 500

/-- `DEFAULT_RECONNECT_BUFFER_BYTES` -/
def defaultReconnectBufferBytes : Nat := 8 * 1024

/-- `MAX_SIGWINCH_PHASE_ATTEMPTS` -/
def maxSigwinchPhaseAttempts : Nat := 3

/-- A child process. -/
abbrev Child := Nat

/-- `compress` and `decompress`. A compressor that fails returns nothing; what it does return
    can be decompressed. -/
structure Compression where
  compress : Bytes → Bytes
  decompress : Bytes → Bytes
  inverts : ∀ data, compress data ≠ [] → decompress (compress data) = data

/-- A compressor that leaves the data as they are. -/
def Compression.plain : Compression where
  compress := id
  decompress := id
  inverts := fun _ _ => rfl

structure TerminalData where
  terminalId : Int
  data : Bytes
  compressed : Bool := false
  deriving DecidableEq

structure TerminalOpened where
  terminalId : Int
  success : Bool
  message : String
  pid : Nat
  serviceId : String
  persistentSessions : List Int := []
  deriving DecidableEq

structure TerminalClosed where
  terminalId : Int
  exitCode : Int
  deriving DecidableEq

inductive TerminalResponse where
  | opened (o : TerminalOpened)
  | data (d : TerminalData)
  | closed (c : TerminalClosed)
  | error (message : String)
  deriving DecidableEq

section Responses

variable (c : Compression)

def createTerminalDataResponse (terminalId : Int) (data : Bytes) : TerminalResponse :=
  if compressThreshold < data.length then
    let compressed := c.compress data
    if compressed.length < data.length then .data ⟨terminalId, compressed, true⟩
    else .data ⟨terminalId, data, false⟩
  else .data ⟨terminalId, data, false⟩

/-- What the client makes of the data. -/
def TerminalData.payload (d : TerminalData) : Bytes :=
  if d.compressed then c.decompress d.data else d.data

/-- The payload of a response about the terminal, if it has one. -/
def TerminalResponse.payloadFor (terminalId : Int) : TerminalResponse → Option Bytes
  | .data d => if d.terminalId = terminalId then some (d.payload c) else none
  | _ => none

/-- The compressor does not fail on the data, or is not asked. -/
def sendable (data : Bytes) : Bool :=
  decide (data.length ≤ compressThreshold ∨ c.compress data ≠ [])

variable {c}

theorem payloadFor_createTerminalDataResponse {terminalId : Int} {data : Bytes}
    (fine : sendable c data = true) :
    (createTerminalDataResponse c terminalId data).payloadFor c terminalId = some data := by
  have decompressed (long : compressThreshold < data.length) :
      c.decompress (c.compress data) = data := by
    apply c.inverts
    simpa [sendable, Nat.not_le.mpr long] using fine
  by_cases long : compressThreshold < data.length
  · by_cases shorter : (c.compress data).length < data.length <;>
      simp [createTerminalDataResponse, TerminalResponse.payloadFor, TerminalData.payload, long,
        shorter, decompressed]
  · simp [createTerminalDataResponse, TerminalResponse.payloadFor, TerminalData.payload, long]

theorem payloadFor_other {terminalId other : Int} (different : other ≠ terminalId) (data : Bytes) :
    (createTerminalDataResponse c other data).payloadFor c terminalId = none := by
  by_cases long : compressThreshold < data.length
  · by_cases shorter : (c.compress data).length < data.length <;>
      simp [createTerminalDataResponse, TerminalResponse.payloadFor, different, long, shorter]
  · simp [createTerminalDataResponse, TerminalResponse.payloadFor, different, long]

end Responses

inductive SigwinchPhase where
  | idle
  | tempResize (retries : Nat)
  | restore (retries : Nat)
  deriving DecidableEq

inductive SigwinchAction where
  | tempResize
  | restore
  deriving DecidableEq

inductive SessionState where
  | closed
  | active (pendingBuffer : Option Bytes) (sigwinch : SigwinchPhase)
  deriving DecidableEq

structure TerminalSession where
  /-- `pty_pair` is there -/
  ptyPair : Bool := false
  child : Option Child := none
  /-- what is in the channel from the reader thread, if the session still has its end of it -/
  outputRx : Option (List Bytes) := none
  /-- the reader thread has not been joined -/
  readerThread : Bool := false
  outputBuffer : OutputBuffer := {}
  pid : Nat := 0
  rows : Nat
  cols : Nat
  closedMessageSent : Bool := false
  state : SessionState := .closed
  deriving DecidableEq

/-- What one turn of the loop of `read_outputs` meets. -/
structure Turn where
  /-- `thread.is_finished()` -/
  finished : Bool := false
  /-- what the reader thread pushes while the channel is being drained -/
  during : List Bytes := []
  /-- whether the pseudo terminal takes the size -/
  resize : Nat → Nat → Bool := fun _ _ => true

/-- What one turn comes to. -/
structure Turned where
  drained : List Bytes := []
  responses : List TerminalResponse := []
  /-- the terminal is put on the list of closed ones -/
  closed : Bool := false
  deriving DecidableEq

/-- Which resize the phase asks for, one attempt fewer left. -/
def SigwinchPhase.attempt : SigwinchPhase → SigwinchPhase × Option SigwinchAction
  | .tempResize 0 => (.idle, none)
  | .tempResize (retries + 1) => (.tempResize retries, some .tempResize)
  | .restore 0 => (.idle, none)
  | .restore (retries + 1) => (.restore retries, some .restore)
  | .idle => (.idle, none)

namespace TerminalSession

/-- `try_send_output` of the reader thread: a full channel drops the data. -/
def push (data : Bytes) (s : TerminalSession) : TerminalSession :=
  match s.outputRx with
  | some queue =>
    if queue.length < channelBufferSize then { s with outputRx := some (queue ++ [data]) } else s
  | none => s

/-- All that `push` touches is the channel. -/
theorem push_eq (data : Bytes) (s : TerminalSession) :
    ∃ outputRx, s.push data = { s with outputRx := outputRx } := by
  unfold push
  split
  · split_ifs
    · exact ⟨_, rfl⟩
    · exact ⟨_, rfl⟩
  · exact ⟨_, rfl⟩

@[simp] theorem push_child (data : Bytes) (s : TerminalSession) : (s.push data).child = s.child := by
  obtain ⟨outputRx, same⟩ := s.push_eq data
  rw [same]

@[simp] theorem push_state (data : Bytes) (s : TerminalSession) : (s.push data).state = s.state := by
  obtain ⟨outputRx, same⟩ := s.push_eq data
  rw [same]

def doSigwinchResize (s : TerminalSession) (resize : Nat → Nat → Bool) (action : SigwinchAction) :
    Bool :=
  if s.rows = 0 ∨ s.cols = 0 then false
  else
    let targetRows :=
      match action with
      | .tempResize => if 2 < s.rows then s.rows - 1 else s.rows + 1
      | .restore => s.rows
    s.ptyPair && resize targetRows s.cols

/-- The two phases of a redraw: the next phase, after the resize if one is due. -/
def sigwinch (s : TerminalSession) (resize : Nat → Nat → Bool) (phase : SigwinchPhase) :
    SigwinchPhase :=
  match phase.attempt with
  | (phase, none) => phase
  | (phase, some action) =>
      if s.doSigwinchResize resize action then
        match action with
        | .tempResize => .restore maxSigwinchPhaseAttempts
        | .restore => .idle
      else phase

/-- The loop over `try_recv`. -/
def received (s : TerminalSession) (during : List Bytes) : List Bytes :=
  match s.outputRx with
  | some queue => queue ++ during
  | none => []

/-- One turn of the loop of `read_outputs`. It has no result when the output buffer does not
    take what was received. -/
def readOutput (c : Compression) (terminalId : Int) (turn : Turn) (s : TerminalSession) :
    Option (TerminalSession × Turned) :=
  let closed := !s.closedMessageSent && s.readerThread && turn.finished
  let received := s.received turn.during
  (received.foldlM OutputBuffer.append s.outputBuffer).map fun outputBuffer =>
    let s := { s with
      closedMessageSent := s.closedMessageSent || closed
      outputRx := s.outputRx.map fun _ => []
      outputBuffer := outputBuffer }
    match s.state with
    | .closed => (s, { drained := received, closed := closed })
    | .active pendingBuffer phase =>
        -- history goes before what has just been received
        let history := pendingBuffer.toList.filter (· ≠ [])
        ({ s with state := .active none (s.sigwinch turn.resize phase) },
          { drained := received
            responses := (history ++ received).map (createTerminalDataResponse c terminalId)
            closed := closed })

/-- What a visit sends: the history if the client has come back, and what it has received. -/
def streams (s : TerminalSession) (during : List Bytes) : List Bytes :=
  match s.state with
  | .closed => []
  | .active pendingBuffer _ => pendingBuffer.toList.filter (· ≠ []) ++ s.received during

/-- The output buffer takes what a visit receives. -/
def takes (s : TerminalSession) (during : List Bytes) : Bool :=
  s.outputBuffer.acceptsAll (s.received during)

theorem readOutput_of_takes {s : TerminalSession} {turn : Turn} (takes : s.takes turn.during = true)
    (c : Compression) (terminalId : Int) :
    ∃ s' turned, s.readOutput c terminalId turn = some (s', turned) ∧
      turned.responses = (s.streams turn.during).map (createTerminalDataResponse c terminalId) ∧
      (∀ pending phase, s.state = .active pending phase → ∃ phase',
        s'.state = .active none phase') := by
  obtain ⟨buffer, appended⟩ := OutputBuffer.appends_of_acceptsAll takes
  cases state : s.state <;> simp [readOutput, appended, streams, state]

/-- What `handle_open` does to a terminal that exists already. -/
def reopen (s : TerminalSession) : TerminalSession :=
  let buffer := s.outputBuffer.getRecent defaultReconnectBufferBytes
  { s with state := .active (if buffer ≠ [] then some buffer else none) (.tempResize maxSigwinchPhaseAttempts) }

/-- What `reset_status` does to each session. -/
def close (s : TerminalSession) : TerminalSession := { s with state := .closed }

/-- Everything `stop` does but for the child, which leaves the session. -/
def stopped (s : TerminalSession) : TerminalSession :=
  { s with state := .closed, outputRx := none, ptyPair := false, readerThread := false, child := none }

end TerminalSession

end RemoteControl.Terminal
