import RemoteControl.Growing
import RemoteControl.Runs

/-! # Uploading a recording

While a recording is written, another thread sends what is there of the file to the
server, in parts from where the last one was thought to end. A part can be longer than
that: its length is looked up before it is read. At the end the first 1024 bytes are sent
again, which the recorder may have rewritten meanwhile.

The uploader is told of the recorder's steps through a channel and can be far behind them.
-/

namespace RemoteControl.Video.RecordUpload

open Growing Runs

abbrev Bytes := List UInt8

/-- `MAX_HEADER_LEN` -/
def maxHeaderLen : Nat := 1024

/-- `SHOULD_SEND_SIZE` -/
def shouldSendSize : Nat := 1024 * 1024

/-- A `WriteTail` comes with what the file holds when it is sent; the uploader does not
    look at that. -/
inductive RecordState where
  | newFile (filepath : String)
  | newFrame
  | writeTail (file : Option Bytes)
  | removeFile
  deriving DecidableEq

/-- What a call of `handle_frame` is for; for a tail it flushes. -/
inductive Job where
  | frame
  | tail (file : Option Bytes)
  deriving DecidableEq

/-- What the uploader does next. -/
inductive Pc where
  | recv
  | sendNew
  /-- Opens the file and looks up its length. -/
  | metadata (job : Job)
  /-- Reads the file to its end, with `buf` so far. -/
  | readToEnd (job : Job) (len : Nat) (buf : Bytes)
  | sendPart (job : Job) (len : Nat) (buf : Bytes)
  | readTail (file : Option Bytes)
  | sendTail (file : Option Bytes) (buf : Bytes)
  /-- `handle_tail` has succeeded. -/
  | tailSent (file : Option Bytes)
  | sendRemove
  deriving DecidableEq

structure State where
  /-- The files of the recorder. -/
  files : String → Option Bytes
  /-- The copies on the server, by the name of the file. -/
  copies : String → Option Bytes := fun _ => none
  channel : List RecordState := []
  /-- The file that the recorder has last begun. -/
  current : String := ""
  /-- The files for which a `WriteTail` was sent. -/
  tailed : List String := []
  filepath : String := ""
  filename : String := ""
  uploadSize : Nat := 0
  running : Bool := false
  pc : Pc := .recv
  /-- The file of the last `NewFile` that was taken. -/
  target : String := ""
  /-- A `RemoveFile` was handled since then. -/
  removed : Bool := false

inductive Reply where
  | ok
  /-- The server may have stored the data all the same. -/
  | failed (stored : Bool)
  deriving DecidableEq

/-- What the uploader meets in a step. -/
structure Outcome where
  /-- `SHOULD_SEND_TIME` has passed since the last part. -/
  elapsed : Bool := true
  /-- The file cannot be opened or read. -/
  ioFails : Bool := false
  /-- One less than the bytes that a read, that of the tail included, gets at most. -/
  chunk : Nat := 4095
  reply : Reply := .ok
  deriving DecidableEq

inductive Event where
  | append (path : String) (data : Bytes)
  /-- Bytes of the header are written anew. -/
  | rewrite (path : String) (start : Nat) (data : Bytes)
  | newFile (path : String)
  | newFrame
  | writeTail
  | removeFile
  | upload (o : Outcome)
  deriving DecidableEq

namespace State

/-- What is in a file, nothing if it is not there. -/
def content (s : State) (path : String) : Bytes := (s.files path).getD []

def write (s : State) (path : String) (file : Bytes) : State :=
  { s with files := Function.update s.files path (some file) }

def send (s : State) (state : RecordState) : State := { s with channel := s.channel ++ [state] }

/-- Data at an offset of a copy. -/
def storeAt (copy : Bytes) (offset : Nat) (data : Bytes) : Bytes :=
  splice (copy ++ List.replicate (offset - copy.length) 0) offset data

def store (s : State) (offset : Nat) (data : Bytes) : State :=
  { s with copies :=
      Function.update s.copies s.filename (some (storeAt ((s.copies s.filename).getD []) offset data)) }

def create (s : State) : State :=
  { s with copies := Function.update s.copies s.filename (some []) }

def remove (s : State) : State := { s with copies := Function.update s.copies s.filename none }

/-- An error ends the handling and the upload of the file. -/
def fail (s : State) : State := { s with running := false, pc := .recv }

/-- `send`, with what the server does. -/
def post (s : State) (reply : Reply) (effect next : State → State) : State :=
  match reply with
  | .ok => next (effect s)
  | .failed stored => (if stored then effect s else s).fail

def handleNewFile (fileName : String → Option String) (s : State) (filepath : String) : State :=
  match fileName filepath with
  | some filename =>
      { s with
        filename, filepath
        uploadSize := 0
        running := true
        pc := .sendNew
        target := filepath
        removed := false }
  | none => { s with target := filepath }.fail

/-- One round of the loop of `run` up to the first thing that takes time. -/
def recv (fileName : String → Option String) (s : State) (o : Outcome) : State :=
  match s.channel with
  | [] => s
  | .newFile filepath :: channel => { s with channel }.handleNewFile fileName filepath
  | .newFrame :: channel =>
      if s.running && o.elapsed then { s with channel, pc := .metadata .frame }
      else { s with channel }
  | .writeTail file :: channel =>
      if s.running then { s with channel, pc := .metadata (.tail file) } else { s with channel }
  | .removeFile :: channel =>
      if s.running then { s with channel, pc := .sendRemove } else { s with channel }

/-- `handle_frame` has returned. -/
def frameHandled (s : State) : Job → State
  | .frame => { s with pc := .recv }
  | .tail file => { s with pc := .readTail file }

def metadata (s : State) (o : Outcome) (job : Job) : State :=
  match s.files s.filepath with
  | none => s.fail
  | some file =>
      let len := file.length
      if o.ioFails then s.fail
      else if len ≤ s.uploadSize then s.frameHandled job
      else if job = .frame ∧ len - s.uploadSize < shouldSendSize then s.frameHandled job
      else { s with pc := .readToEnd job len [] }

/-- One read of `read_to_end`, which goes on until there is nothing more. -/
def readToEnd (s : State) (o : Outcome) (job : Job) (len : Nat) (buf : Bytes) : State :=
  if o.ioFails then s.fail
  else
    let part := ((s.content s.filepath).drop (s.uploadSize + buf.length)).take (o.chunk + 1)
    if part = [] then { s with pc := .sendPart job len buf }
    else { s with pc := .readToEnd job len (buf ++ part) }

def upload (fileName : String → Option String) (s : State) (o : Outcome) : State :=
  match s.pc with
  | .recv => s.recv fileName o
  | .sendNew => s.post o.reply create fun s => { s with pc := .recv }
  | .metadata job => s.metadata o job
  | .readToEnd job len buf => s.readToEnd o job len buf
  | .sendPart job len buf =>
      s.post o.reply (store · s.uploadSize buf) fun s => { s with uploadSize := len }.frameHandled job
  | .readTail file =>
      match s.files s.filepath with
      | none => s.fail
      | some content =>
          if o.ioFails then s.fail
          else { s with pc := .sendTail file (content.take (min maxHeaderLen (o.chunk + 1))) }
  | .sendTail file buf => s.post o.reply (store · 0 buf) fun s => { s with pc := .tailSent file }
  | .tailSent _ => { s with pc := .recv }
  | .sendRemove => s.post o.reply remove fun s => { s with removed := true, pc := .recv }

def step (fileName : String → Option String) (s : State) : Event → State
  | .append path data => s.write path (s.content path ++ data)
  | .rewrite path start data =>
      if start + data.length ≤ maxHeaderLen ∧ start + data.length ≤ (s.content path).length then
        s.write path (splice (s.content path) start data)
      else s
  | .newFile path => { s with current := path }.send (.newFile path)
  | .newFrame => s.send .newFrame
  | .writeTail => { s with tailed := s.current :: s.tailed }.send (.writeTail (s.files s.current))
  | .removeFile => s.send .removeFile
  | .upload o => s.upload fileName o

end State

/-! ## What the channel still holds -/

/-- A file that was finished as `file`, and is still that. -/
def Frozen (files : String → Option Bytes) (tailed : List String) (path : String)
    (file : Option Bytes) : Prop :=
  files path = file ∧ path ∈ tailed

/-- What is in the channel, for an uploader whose last file is `target`, leads to `current`,
    and each `WriteTail` in it has the file it is for. -/
def Pending (files : String → Option Bytes) (tailed : List String) (current : String) :
    String → List RecordState → Prop
  | target, [] => target = current
  | _, .newFile path :: rest => Pending files tailed current path rest
  | target, .writeTail file :: rest =>
      Frozen files tailed target file ∧ Pending files tailed current target rest
  | target, .newFrame :: rest => Pending files tailed current target rest
  | target, .removeFile :: rest => Pending files tailed current target rest

variable {s : State} {files : String → Option Bytes} {tailed : List String} {tailed' : List String}
  {current : String}

/-- More is sent, and the files that were finished stay. -/
theorem Pending.send {files' : String → Option Bytes} {current' target : String}
    {channel more : List RecordState} (pending : Pending files tailed current target channel)
    (keep : ∀ path file, Frozen files tailed path file → Frozen files' tailed' path file)
    (last : Pending files' tailed' current' current more) :
    Pending files' tailed' current' target (channel ++ more) := by
  induction channel generalizing target with
  | nil =>
      rw [show target = current from pending]
      exact last
  | cons state rest ih =>
      cases state with
      | newFile path => exact ih pending
      | newFrame => exact ih pending
      | removeFile => exact ih pending
      | writeTail file => exact ⟨keep target file pending.1, ih pending.2⟩

/-- The tail that is being handled. -/
def Pc.tail : Pc → Option (Option Bytes)
  | .metadata (.tail file) => some file
  | .readToEnd (.tail file) _ _ => some file
  | .sendPart (.tail file) _ _ => some file
  | .readTail file => some file
  | .sendTail file _ => some file
  | .tailSent file => some file
  | _ => none

def Pc.readsTail : Pc → Bool
  | .readTail _ => true
  | _ => false

/-- How far the steps for a part or a tail have come with the copy of `file`. -/
def Progress (file : Option Bytes) (copy : Bytes) (uploadSize : Nat) : Pc → Prop
  | .readToEnd _ len buf =>
      uploadSize ≤ len ∧ len ≤ (file.getD []).length ∧
        PartOf maxHeaderLen uploadSize buf (file.getD [])
  | .sendPart job len buf =>
      len ≤ uploadSize + buf.length ∧ PartOf maxHeaderLen uploadSize buf (file.getD []) ∧
        (job = .frame ∨ uploadSize + buf.length = (file.getD []).length)
  | .readTail _ => copy.length = (file.getD []).length
  | .sendTail _ buf => ∃ content, file = some content ∧ copy.length = content.length ∧
      buf = content.take maxHeaderLen
  | .tailSent _ => file = some copy
  | _ => True

/-- The copy has the file up to `uploadSize` and possibly more, the header aside. -/
def Copied (file copy : Option Bytes) (uploadSize : Nat) : Pc → Prop
  | .sendNew => uploadSize = 0
  | pc => ∃ stored, copy = some stored ∧ uploadSize ≤ stored.length ∧
      Extends maxHeaderLen stored (file.getD []) ∧ Progress file stored uploadSize pc

/-- While no tail is handled the file may grow. -/
theorem Copied.grow {file file' copy : Option Bytes} {uploadSize : Nat} {pc : Pc}
    (copied : Copied file copy uploadSize pc) (free : pc.tail = none)
    (more : Extends maxHeaderLen (file.getD []) (file'.getD [])) :
    Copied file' copy uploadSize pc := by
  have longer := more.length_le
  cases pc with
  | sendNew => exact copied
  | readTail => simp [Pc.tail] at free
  | sendTail => simp [Pc.tail] at free
  | tailSent => simp [Pc.tail] at free
  | recv | metadata | sendRemove =>
      obtain ⟨stored, at_, size, behind, progress⟩ := copied
      exact ⟨stored, at_, size, behind.trans more, progress⟩
  | readToEnd job len buf =>
      obtain ⟨stored, at_, size, behind, least, inside, read⟩ := copied
      exact ⟨stored, at_, size, behind.trans more, least, by omega, read.mono more⟩
  | sendPart job len buf =>
      obtain ⟨stored, at_, size, behind, enough, read, whole⟩ := copied
      cases job with
      | frame => exact ⟨stored, at_, size, behind.trans more, enough, read.mono more, .inl rfl⟩
      | tail => simp [Pc.tail] at free

structure Inv (s : State) : Prop where
  pending : Pending s.files s.tailed s.current s.target s.channel
  target : s.running = true → s.filepath = s.target
  running : s.pc ≠ .recv → s.running = true
  tail : ∀ file, s.pc.tail = some file → Frozen s.files s.tailed s.filepath file
  copied : s.running = true → s.removed = false →
    Copied (s.files s.filepath) (s.copies s.filename) s.uploadSize s.pc

/-- With `WriteTail` the recorder is done with a file. -/
def Finished (s : State) : Event → Prop
  | .append path _ => path ∉ s.tailed
  | .rewrite path _ _ => path ∉ s.tailed
  | _ => True

instance (s : State) : DecidablePred (Finished s)
  | .append .. | .rewrite .. => inferInstanceAs (Decidable (_ ∉ _))
  | .newFile _ | .newFrame | .writeTail | .removeFile | .upload _ => inferInstanceAs (Decidable True)

/-- The one read of the tail gets all of the header. -/
def HeaderRead (s : State) : Event → Prop
  | .upload o =>
      s.pc.readsTail = true → min maxHeaderLen (s.content s.filepath).length ≤ o.chunk + 1
  | _ => True

instance (s : State) : DecidablePred (HeaderRead s)
  | .upload _ => inferInstanceAs (Decidable (_ → _ ≤ _))
  | .append .. | .rewrite .. | .newFile _ | .newFrame | .writeTail | .removeFile =>
      inferInstanceAs (Decidable True)

/-- What the recorder may do to the files. -/
structure Recorded (files files' : String → Option Bytes) (tailed tailed' : List String) : Prop where
  grow : ∀ path, Extends maxHeaderLen ((files path).getD []) ((files' path).getD [])
  frozen : ∀ path file, Frozen files tailed path file → Frozen files' tailed' path file

theorem Recorded.same (more : tailed ⊆ tailed') : Recorded files files tailed tailed'  where
  grow _ := .refl _
  frozen _ _ frozen := ⟨frozen.1, more frozen.2⟩

theorem Recorded.update {path : String} {content : Bytes} (open_ : path ∉ tailed)
    (more : Extends maxHeaderLen ((files path).getD []) content) :
    Recorded files (Function.update files path (some content)) tailed tailed  where
  grow other := by
    by_cases here : other = path
    · subst here
      simpa using more
    · rw [Function.update_of_ne here]
      exact .refl _
  frozen other file frozen := by
    have here : other ≠ path := fun same => open_ (same ▸ frozen.2)
    exact ⟨(Function.update_of_ne here ..).trans frozen.1, frozen.2⟩

/-- Nothing that the recorder does disturbs the uploader. -/
theorem Inv.recorded (inv : Inv s) (more : List RecordState)
    (recorded : Recorded s.files files s.tailed tailed)
    (last : Pending files tailed current s.current more) :
    Inv { s with files, current, tailed, channel := s.channel ++ more }  where
  pending := inv.pending.send recorded.frozen last
  target := inv.target
  running := inv.running
  tail file handled := recorded.frozen _ _ (inv.tail file handled)
  copied running present := by
    have copied := inv.copied running present
    cases handled : s.pc.tail with
    | none => exact copied.grow handled (recorded.grow _)
    | some file =>
        have frozen := inv.tail file handled
        have same : files s.filepath = s.files s.filepath :=
          (recorded.frozen _ _ frozen).1.trans frozen.1.symm
        simpa only [same] using copied

section

variable {s : State} {fileName : String → Option String}

variable {o : Outcome} {reply : Reply} {copies : String → Option Bytes} {job : Job} {buf : Bytes}
  {file : Option Bytes} {len : Nat} {rest : List RecordState} {size : Nat}

section

variable (inv : Inv s)

include inv

theorem Inv.fail : Inv { s with copies }.fail where
  pending := inv.pending
  target := nofun
  running idle := absurd rfl idle
  tail := nofun
  copied := nofun

/-- After a request the next state is reached with its effect, or the upload is over. -/
theorem Inv.post {effect next : State → State} (stores : effect s = { s with copies })
    (sent : Inv (next { s with copies })) : Inv (s.post reply effect next) := by
  unfold State.post
  split
  · exact stores ▸ sent
  · split
    · exact stores ▸ inv.fail
    · exact inv.fail

theorem Inv.handleNewFile {filepath : String} (next : s.channel = .newFile filepath :: rest) :
    Inv ({ s with channel := rest }.handleNewFile fileName filepath) := by
  have pending := inv.pending
  rw [next] at pending
  unfold State.handleNewFile
  split
  · exact {
      pending
      target := fun _ => rfl
      running := fun _ => rfl
      tail := nofun
      copied := fun _ _ => rfl }
  · exact {
      pending
      target := nofun
      running := fun busy => absurd rfl busy
      tail := nofun
      copied := nofun }

/-- Between two events of the channel, the uploader may turn to anything that needs no
    more than it has. -/
theorem Inv.turn {pc : Pc} (idle : s.pc = .recv)
    (pending : Pending s.files s.tailed s.current s.target rest)
    (running : pc ≠ .recv → s.running = true)
    (tail : ∀ file, pc.tail = some file → Frozen s.files s.tailed s.filepath file)
    (copied : ∀ size copy file, Copied file copy size .recv → Copied file copy size pc) :
    Inv { s with channel := rest, pc }  where
  pending := pending
  target := inv.target
  running := running
  tail := tail
  copied up present := copied _ _ _ (by simpa only [idle] using inv.copied up present)

theorem Inv.recv (idle : s.pc = .recv) : Inv (s.recv fileName o) := by
  have stay {rest : List RecordState} (pending : Pending s.files s.tailed s.current s.target rest) :
      Inv { s with channel := rest } := by
    have turned : Inv { s with channel := rest, pc := .recv } :=
      inv.turn idle pending nofun nofun fun _ _ _ copied => copied
    simpa only [← idle] using turned
  unfold State.recv
  split
  · exact inv
  · rename_i next
    exact inv.handleNewFile next
  · rename_i next
    have pending := inv.pending
    rw [next] at pending
    split
    · rename_i due
      have up : s.running = true := by simp_all
      exact inv.turn idle pending (fun _ => up) nofun fun _ _ _ copied => copied
    · exact stay pending
  · rename_i file _ next
    have pending := inv.pending
    rw [next] at pending
    split
    · rename_i up
      have frozen : Frozen s.files s.tailed s.filepath file := by
        rw [inv.target up]
        exact pending.1
      apply inv.turn idle pending.2 (fun _ => up)
      · intro handled same
        cases same
        exact frozen
      · exact fun _ _ _ copied => copied
    · exact stay pending.2
  · rename_i next
    have pending := inv.pending
    rw [next] at pending
    split
    · rename_i up
      exact inv.turn idle pending (fun _ => up) nofun fun _ _ _ copied => copied
    · exact stay pending

/-- The uploader goes on with the same file. -/
theorem Inv.proceed (pc : Pc) (busy : s.pc ≠ .recv)
    (tail : ∀ file, pc.tail = some file → s.pc.tail = some file)
    (copied : s.removed = false → Copied (s.files s.filepath) (copies s.filename) size pc) :
    Inv { s with copies, uploadSize := size, pc }  where
  pending := inv.pending
  target := inv.target
  running _ := inv.running busy
  tail file handled := inv.tail file (tail file handled)
  copied _ present := copied present

theorem Inv.copied_at {pc : Pc} (at_ : s.pc = pc) (busy : pc ≠ .recv) (present : s.removed = false) :
    Copied (s.files s.filepath) (s.copies s.filename) s.uploadSize pc :=
  at_ ▸ inv.copied (inv.running (at_ ▸ busy)) present

/-- With `handle_frame` over, a frame needs nothing more and a tail the whole file. -/
theorem Inv.frameHandled (busy : s.pc ≠ .recv) (tail : ∀ file, job = .tail file → s.pc.tail = some file)
    (copied : s.removed = false → ∃ stored, copies s.filename = some stored ∧
      size ≤ stored.length ∧ Extends maxHeaderLen stored (s.content s.filepath) ∧
      (job = .frame ∨ stored.length = (s.content s.filepath).length)) :
    Inv ({ s with copies, uploadSize := size }.frameHandled job) := by
  cases job with
  | frame =>
      apply inv.proceed .recv busy nofun
      intro present
      obtain ⟨stored, at_, longer, behind, -⟩ := copied present
      exact ⟨stored, at_, longer, behind, trivial⟩
  | tail file =>
      apply inv.proceed _ busy
      · intro other same
        exact tail other (by simpa [Pc.tail] using same)
      · intro present
        obtain ⟨stored, at_, longer, behind, whole⟩ := copied present
        exact ⟨stored, at_, longer, behind, whole.resolve_left (by simp)⟩

theorem Inv.metadata (at_ : s.pc = .metadata job) : Inv (s.metadata o job) := by
  have busy : s.pc ≠ .recv := by simp [at_]
  have tail (file : Option Bytes) (same : job = .tail file) : s.pc.tail = some file := by
    rw [at_, same, Pc.tail]
  have copied := inv.copied_at at_ nofun
  unfold State.metadata
  split
  · exact inv.fail
  · rename_i content found
    have whole : s.content s.filepath = content := by simp [State.content, found]
    split
    · exact inv.fail
    dsimp only
    split
    · rename_i nothing_new
      apply inv.frameHandled busy tail
      intro present
      obtain ⟨stored, stored_at, size, behind, -⟩ := copied present
      have := behind.length_le
      exact ⟨stored, stored_at, size, behind, .inr (by simp [whole, found] at *; omega)⟩
    split
    · rename_i little
      apply inv.frameHandled busy tail
      intro present
      obtain ⟨stored, stored_at, size, behind, -⟩ := copied present
      exact ⟨stored, stored_at, size, behind, .inl little.1⟩
    · apply inv.proceed _ busy
      · intro file handled
        cases job with
        | frame => nomatch handled
        | tail _ => exact tail file (by simpa [Pc.tail] using handled)
      · intro present
        obtain ⟨stored, stored_at, size, behind, -⟩ := copied present
        have := behind.length_le
        exact ⟨stored, stored_at, size, behind, by omega, by simp [found], .nil (by omega)⟩

theorem Inv.readToEnd (at_ : s.pc = .readToEnd job len buf) :
    Inv (s.readToEnd o job len buf) := by
  have busy : s.pc ≠ .recv := by simp [at_]
  have tail (pc : Pc) (same : pc.tail = s.pc.tail) (file : Option Bytes)
      (handled : pc.tail = some file) : s.pc.tail = some file := same ▸ handled
  have copied := inv.copied_at at_ nofun
  unfold State.readToEnd
  split
  · exact inv.fail
  dsimp only
  split
  · rename_i ended
    apply inv.proceed _ busy (tail _ (by cases job <;> simp [at_, Pc.tail]))
    intro present
    obtain ⟨stored, stored_at, size, behind, least, inside, read⟩ := copied present
    have all : (s.content s.filepath).length ≤ s.uploadSize + buf.length := by
      simpa using ended
    have := read.length_le
    exact ⟨stored, stored_at, size, behind, by simp [State.content] at *; omega, read,
      .inr (by simp [State.content] at *; omega)⟩
  · apply inv.proceed _ busy (tail _ (by cases job <;> simp [at_, Pc.tail]))
    intro present
    obtain ⟨stored, stored_at, size, behind, least, inside, read⟩ := copied present
    exact ⟨stored, stored_at, size, behind, least, inside, read.read_on _⟩

end

theorem storeAt_eq {copy data : Bytes} {offset : Nat} (inside : offset ≤ copy.length) :
    State.storeAt copy offset data = splice copy offset data := by
  simp [State.storeAt, Nat.sub_eq_zero_of_le inside]

theorem Inv.sendPart (inv : Inv s) (at_ : s.pc = .sendPart job len buf) :
    Inv (s.post reply (State.store · s.uploadSize buf)
      fun s => { s with uploadSize := len }.frameHandled job) := by
  have busy : s.pc ≠ .recv := by simp [at_]
  apply inv.post rfl
  · apply inv.frameHandled busy
    · intro file same
      rw [at_, same, Pc.tail]
    · intro present
      have copied := inv.copied_at at_ nofun present
      obtain ⟨stored, stored_at, size, behind, enough, read, whole⟩ := copied
      have := behind.length_le
      refine ⟨_, Function.update_self .., ?_, ?_, ?_⟩
      · rw [stored_at, Option.getD_some, storeAt_eq size, length_splice size]
        omega
      · rw [stored_at, Option.getD_some, storeAt_eq size]
        exact behind.store size read
      · apply whole.imp_right
        intro whole
        rw [stored_at, Option.getD_some, storeAt_eq size, length_splice size]
        simp [State.content] at *
        omega

/-- The tail completes the copy. -/
theorem Inv.sendTail (inv : Inv s) (at_ : s.pc = .sendTail file buf) :
    Inv (s.post reply (State.store · 0 buf) fun s => { s with pc := .tailSent file }) := by
  have busy : s.pc ≠ .recv := by simp [at_]
  apply inv.post rfl
  apply inv.proceed _ busy
  · intro other handled
    simpa [at_, Pc.tail] using handled
  · intro present
    have copied := inv.copied_at at_ nofun present
    obtain ⟨stored, stored_at, size, behind, content, found, whole, rfl⟩ := copied
    rw [found] at behind ⊢
    have complete : splice stored 0 (content.take maxHeaderLen) = content :=
      behind.complete whole
    refine ⟨content, ?_, Nat.le_trans size (Nat.le_of_eq whole), .refl _, rfl⟩
    dsimp only
    rw [Function.update_self, stored_at, Option.getD_some, storeAt_eq (Nat.zero_le _), complete]

theorem Inv.readTail (inv : Inv s) (at_ : s.pc = .readTail file) (full : HeaderRead s (.upload o)) :
    Inv (s.upload fileName o) := by
  have full : min maxHeaderLen (s.content s.filepath).length ≤ o.chunk + 1 := full (by rw [at_]; rfl)
  have busy : s.pc ≠ .recv := by simp [at_]
  simp only [State.upload, at_]
  split
  · exact inv.fail
  · rename_i content found
    split
    · exact inv.fail
    · apply inv.proceed _ busy
      · intro other handled
        simpa [at_, Pc.tail] using handled
      · intro present
        have copied := inv.copied_at at_ nofun present
        obtain ⟨stored, stored_at, size, behind, whole⟩ := copied
        have whole : stored.length = content.length := by simpa [Progress, found] using whole
        refine ⟨stored, stored_at, size, behind, content, found, whole, ?_⟩
        have inside : min maxHeaderLen content.length ≤ o.chunk + 1 := by
          simpa [State.content, found] using full
        rw [List.take_eq_take_iff]
        omega

theorem Inv.sendNew (inv : Inv s) (at_ : s.pc = .sendNew) :
    Inv (s.post reply State.create fun s => { s with pc := .recv }) := by
  have busy : s.pc ≠ .recv := by simp [at_]
  apply inv.post rfl
  apply inv.proceed .recv busy nofun
  intro present
  have copied := inv.copied_at at_ nofun present
  refine ⟨[], Function.update_self .., Nat.le_of_eq copied, ?_, trivial⟩
  exact ⟨Nat.zero_le _, fun _ _ inside => absurd inside (Nat.not_lt_zero _)⟩

theorem Inv.upload (inv : Inv s) (full : HeaderRead s (.upload o)) : Inv (s.upload fileName o) := by
  cases at_ : s.pc with
  | recv => simpa only [State.upload, at_] using inv.recv at_
  | sendNew => simpa only [State.upload, at_] using inv.sendNew at_
  | metadata job => simpa only [State.upload, at_] using inv.metadata at_
  | readToEnd job len buf => simpa only [State.upload, at_] using inv.readToEnd at_
  | sendPart job len buf => simpa only [State.upload, at_] using inv.sendPart at_
  | readTail file => exact inv.readTail at_ full
  | sendTail file buf => simpa only [State.upload, at_] using inv.sendTail at_
  | tailSent file =>
      have busy : s.pc ≠ .recv := by simp [at_]
      simp only [State.upload, at_]
      apply inv.proceed .recv busy nofun
      intro present
      have copied := inv.copied_at at_ nofun present
      obtain ⟨stored, stored_at, size, behind, -⟩ := copied
      exact ⟨stored, stored_at, size, behind, trivial⟩
  | sendRemove =>
      have busy : s.pc ≠ .recv := by simp [at_]
      simp only [State.upload, at_]
      apply inv.post rfl
      exact {
        pending := inv.pending
        target := inv.target
        running := nofun
        tail := nofun
        copied := nofun }

end

variable {fileName : String → Option String}

theorem Inv.step {e : Event} (inv : Inv s) (finished : Finished s e) (full : HeaderRead s e) :
    Inv (s.step fileName e) := by
  have written {path : String} {content : Bytes} (open_ : path ∉ s.tailed)
      (more : Extends maxHeaderLen (s.content path) content) : Inv (s.write path content) := by
    have recorded := inv.recorded [] (.update open_ more) rfl
    simpa only [State.write, List.append_nil] using recorded
  cases e with
  | append path data => exact written finished (.append _ _)
  | rewrite path start data =>
      simp only [State.step]
      split
      · rename_i header
        exact written finished (.splice header.1 header.2)
      · exact inv
  | newFile path => exact inv.recorded _ (.same (List.Subset.refl _)) rfl
  | newFrame => exact inv.recorded _ (.same (List.Subset.refl _)) rfl
  | writeTail =>
      apply inv.recorded _ (.same (List.subset_cons_self ..))
      exact ⟨⟨rfl, List.mem_cons_self ..⟩, rfl⟩
  | removeFile => exact inv.recorded _ (.same (List.Subset.refl _)) rfl
  | upload o => exact inv.upload full

/-- The file of a `WriteTail` that was handled. -/
def Pc.sent : Pc → Option (Option Bytes)
  | .tailSent file => some file
  | _ => none

/-- A tail that was handled leaves the file as it was at its `WriteTail` on the server. -/
def Complete (s : State) : Prop :=
  ∀ file ∈ s.pc.sent, s.copies s.filename = file

instance : DecidablePred Complete := fun s =>
  inferInstanceAs (Decidable (∀ file ∈ s.pc.sent, s.copies s.filename = file))

theorem Inv.complete (inv : Inv s) (present : s.removed = false) : Complete s := by
  intro file sent
  cases at_ : s.pc with
  | tailSent finished =>
      rw [at_] at sent
      cases sent
      have busy : s.pc ≠ .recv := by simp [at_]
      have frozen := inv.tail file (by rw [at_, Pc.tail])
      have copied := inv.copied_at at_ nofun present
      obtain ⟨stored, stored_at, -, -, found⟩ := copied
      exact stored_at.trans (found.symm.trans frozen.1)
  | _ => simp [at_, Pc.sent] at sent

theorem Inv.initial (files : String → Option Bytes) : Inv { files } where
  pending := rfl
  target := nofun
  running idle := absurd rfl idle
  tail := nofun
  copied := nofun

/-- When a recorder leaves alone what it has finished, and the header is read whole, each
    recording that was uploaded to its tail, and not removed meanwhile, is on the server as it
    was finished. -/
theorem uploaded (files : String → Option Bytes) (events : List Event)
    (fair : Along (State.step fileName) (fun s e => Finished s e ∧ HeaderRead s e) { files } events) :
    Always (State.step fileName) (fun s => s.removed = false → Complete s) { files } events :=
  (always_of_along (fun _ _ inv fair => Inv.step inv fair.1 fair.2) (Inv.initial files) fair).mono
    fun _ => Inv.complete

theorem uploaded_grown : Always (State.step some) (fun s => s.removed = false → Complete s)
    { files := fun _ => none }
    [.newFile "a", .append "a" [1, 2], .newFrame, .upload {}, .upload {}, .rewrite "a" 0 [3],
      .writeTail, .upload {}, .upload {}, .upload {}, .upload {}, .upload {}, .upload {},
      .upload {}, .upload {}, .upload {}] :=
  uploaded _ _ (by decide)

/-- All that holds a recorder to what the copying relies on before the tail. -/
def HeaderFinished (s : State) : Event → Prop
  | .rewrite path _ _ => path ∉ s.tailed
  | _ => True

instance (s : State) : DecidablePred (HeaderFinished s)
  | .rewrite .. => inferInstanceAs (Decidable (_ ∉ _))
  | .append .. | .newFile _ | .newFrame | .writeTail | .removeFile | .upload _ =>
      inferInstanceAs (Decidable True)

/-- The file grows before the uploader comes to its tail. -/
def appendedAfterTail : List Event :=
  [.append "a" [1], .newFile "a", .writeTail, .append "a" [2]] ++ List.replicate 9 (.upload {})

/-- After a removal the uploader goes on from where it was. -/
def tailAfterRemoval : List Event :=
  [.append "a" (List.replicate 1025 0), .newFile "a", .writeTail, .removeFile, .writeTail] ++
    List.replicate 16 (.upload {})

/-- The header is rewritten once a part is on the server, and the read of the tail is short. -/
def headerReadShort (data : Bytes) : List Event :=
  [.newFile "a", .append "a" data, .newFrame, .upload {}, .upload {}, .upload {}, .upload {},
    .upload { chunk := data.length }, .upload {}, .upload {}, .rewrite "a" 0 [1, 1], .writeTail,
    .upload {}, .upload {}, .upload { chunk := 0 }, .upload {}]

theorem not_uploaded_of_headerReadShort {data : Bytes} (long : data.length = shouldSendSize)
    (other : data.drop 1 ≠ 1 :: data.drop 2) :
    Along (State.step some) Finished { files := fun _ => none } (headerReadShort data) ∧
      ¬ Complete (exec (State.step some) { files := fun _ => none } (headerReadShort data)) := by
  have header : 2 ≤ maxHeaderLen := by decide
  have due : shouldSendSize ≠ 0 := by decide
  have some_ : data ≠ [] := by
    rintro rfl
    exact due long.symm
  -- one read gets the whole part, and the next one nothing
  have whole : data.take (shouldSendSize + 1) = data := List.take_of_length_le (by omega)
  have ended : data.drop shouldSendSize = [] := List.drop_of_length_le (by omega)
  constructor
  · simp [headerReadShort, Along, Finished, State.step, State.send, State.write, State.content,
      State.upload, State.recv, State.handleNewFile, State.post, State.create, State.metadata,
      State.readToEnd, State.frameHandled, State.store, State.storeAt, splice, long, due, some_,
      whole, ended]
  · have inside : 2 ≤ shouldSendSize := by decide
    have sent : shouldSendSize - 2 + 1 + 1 ≤ shouldSendSize := by omega
    have one : min maxHeaderLen 1 = 1 := rfl
    simpa [headerReadShort, Complete, Pc.sent, State.step, State.send, State.write, State.content,
      State.upload, State.recv, State.handleNewFile, State.post, State.create, State.metadata,
      State.readToEnd, State.frameHandled, State.store, State.storeAt, splice, long, header, due,
      some_, whole, ended, inside, sent, one] using other

theorem not_uploaded :
    (Along (State.step some) HeaderFinished { files := fun _ => none } appendedAfterTail ∧
      ¬ Always (State.step some) Complete { files := fun _ => none } appendedAfterTail) ∧
    (Along (State.step some) Finished { files := fun _ => none } tailAfterRemoval ∧
      ¬ Always (State.step some) Complete { files := fun _ => none } tailAfterRemoval) ∧
    Along (State.step some) Finished { files := fun _ => none }
        (headerReadShort (List.replicate shouldSendSize 0)) ∧
      ¬ Always (State.step some) Complete { files := fun _ => none }
        (headerReadShort (List.replicate shouldSendSize 0)) := by
  refine ⟨by decide +kernel, by decide +kernel, ?_⟩
  have other : (List.replicate shouldSendSize (0 : UInt8)).drop 1 ≠
      1 :: (List.replicate shouldSendSize 0).drop 2 := by
    intro same
    have first := congrArg List.head? same
    simp [List.drop_replicate, List.head?_replicate] at first
  obtain ⟨finished, incomplete⟩ := not_uploaded_of_headerReadShort List.length_replicate other
  exact ⟨finished, fun always => incomplete always.last⟩

end RemoteControl.Video.RecordUpload
