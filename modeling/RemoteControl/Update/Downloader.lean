import Mathlib.Data.List.AList
import RemoteControl.OpenFiles
import RemoteControl.Runs

/-! # Downloads

Each call of `download_file` that finds no other download of its URL starts a thread, which
asks for the length (HEAD) and then for the data (GET), and records what it gets in the
entry of the URL. It looks the entry up each time it has something to record. An entry can
be removed at any time, and the next call makes a new one for the same URL.

The task that removes an entry after a time belongs to the runtime of the thread and ends
with it, before the time is up. If it came to it, it would do what `remove` does.
-/

namespace RemoteControl.Update

open OpenFiles Runs

abbrev Bytes := List UInt8

structure DownloadData where
  data : Bytes
  path : Option String
  totalSize : Option Nat
  downloadedSize : Nat
  error : Option String
  deriving DecidableEq

structure Downloader where
  data : Bytes := []
  path : Option String
  totalSize : Option Nat := none
  downloadedSize : Nat := 0
  error : Option String := none
  finished : Bool := false
  /-- The attempt that listens for a cancellation. -/
  txCancel : Nat
  /-- The attempt that has recorded the error. -/
  errorBy : Option Nat := none
  deriving DecidableEq

/-- How far a call of `download_file` has come before its thread starts. -/
inductive CallPc where
  | check
  | removeStale (path : String)
  | checkPath
  | insert
  | returned (result : Except String String)

structure Call where
  url : String
  path : Option String
  pc : CallPc := .check

/-- How far a download has come, from its entry on. -/
inductive Pc where
  /-- The file of an entry with an error, which was in the way. -/
  | removeStale (path : String)
  | head
  | get
  /-- `File::create` -/
  | create
  | receive
  | write (chunk : Bytes)
  | recordSize (chunk : Bytes)
  | flush (isAllDownloaded : Bool)
  | finish (isAllDownloaded : Bool)
  /-- `do_download` has returned. -/
  | returned (isAllDownloaded : Bool)
  | failed (error : String)
  | ended
  deriving DecidableEq

/-- A download, with what it has been sent so far. -/
structure Attempt where
  url : String
  path : Option String
  pc : Pc := .head
  /-- The length that HEAD has given. -/
  headLength : Option Nat := none
  /-- The body of the GET response, of which more and more comes. -/
  response : Option Bytes := none
  received : Bytes := []
  /-- The file that is open. -/
  dest : Option Nat := none
  deriving DecidableEq

/-- The next chunk of the response, none at its end. -/
def Attempt.nextChunk (a : Attempt) (size : Nat) : Bytes :=
  ((a.response.getD []).drop a.received.length).take (size + 1)

structure State where
  downloaders : AList (fun _ : String => Downloader) := ∅
  disk : String → Slot UInt8 := fun _ => {}
  calls : Nat → Option Call := fun _ => none
  attempts : Nat → Option Attempt := fun _ => none
  /-- The number of the next attempt. -/
  next : Nat := 0
  /-- The attempts that were sent a cancellation. -/
  canceled : List Nat := []

/-- What comes next for a thread. -/
inductive Outcome where
  /-- `rx_cancel.recv()` returns. -/
  | canceled
  /-- The operation fails; a write may have got to some of its bytes. -/
  | fails (error : String) (written : Nat)
  | head (length : Nat)
  | get (body : Bytes)
  /-- The operation succeeds; a chunk has at most one more than so many bytes. -/
  | ok (size : Nat)
  deriving DecidableEq

inductive Event where
  | download (call : Nat) (url : String) (path : Option String)
  /-- A call goes on; an operation on files may fail. -/
  | call (call : Nat) (fails : Option String)
  | attempt (attempt : Nat) (outcome : Outcome)
  | cancel (url : String)
  | remove (url : String)
  deriving DecidableEq

namespace State

/-- `get_mut(id).map(..)` -/
def modify (s : State) (url : String) (change : Downloader → Downloader) : State :=
  match s.downloaders.lookup url with
  | some d => { s with downloaders := s.downloaders.insert url (change d) }
  | none => s

def getDownloadData (s : State) (url : String) : Except String DownloadData :=
  match s.downloaders.lookup url with
  | some d => .ok {
      data := if d.totalSize.getD 0 = d.downloadedSize ∧ d.path = none then d.data else []
      path := d.path
      totalSize := d.totalSize
      downloadedSize := d.downloadedSize
      error := d.error }
  | none => .error "Downloader not found"

def cancel (s : State) (url : String) : State :=
  match s.downloaders.lookup url with
  | some d => { s with canceled := d.txCancel :: s.canceled }
  | none => s

def remove (s : State) (url : String) : State :=
  { s with downloaders := s.downloaders.erase url }

def exists? (s : State) (path : String) : Bool := (s.disk path).current.isSome

def setSlot (s : State) (path : String) (slot : Slot UInt8) : State :=
  { s with disk := Function.update s.disk path slot }

def removeFile (s : State) (path : String) : State := s.setSlot path (s.disk path).remove

def setCall (s : State) (call : Nat) (c : Call) (pc : CallPc) : State :=
  { s with calls := Function.update s.calls call (some { c with pc }) }

/-- The second pass over the entries, and the thread it starts. -/
def insert (s : State) (c : Call) (stale : Option String) : State :=
  { s with
    downloaders := s.downloaders.insert c.url { path := c.path, txCancel := s.next }
    attempts := Function.update s.attempts s.next (some {
      url := c.url
      path := c.path
      pc := match stale with
        | some path => .removeStale path
        | none => .head })
    next := s.next + 1 }

def callStep (s : State) (call : Nat) (c : Call) (fails : Option String) : State :=
  match c.pc with
  | .check =>
      match s.downloaders.lookup c.url with
      | none => s.setCall call c .checkPath
      | some d =>
          match d.error, d.path with
          | none, _ => s.setCall call c (.returned (.ok c.url))
          | some _, some path => (s.remove c.url).setCall call c (.removeStale path)
          | some _, none => (s.remove c.url).setCall call c .checkPath
  | .removeStale path =>
      match fails with
      | none => (s.removeFile path).setCall call c .checkPath
      | some _ => s.setCall call c .checkPath
  | .checkPath =>
      match c.path, fails with
      | none, _ => s.setCall call c .insert
      | some path, fails =>
          if s.exists? path then s.setCall call c (.returned (.error s!"File {path} already exists"))
          else
            match fails with
            | none => s.setCall call c .insert
            | some e => s.setCall call c (.returned (.error e))
  | .insert =>
      match s.downloaders.lookup c.url with
      | none => (s.insert c none).setCall call c (.returned (.ok c.url))
      | some d =>
          match d.error with
          | none => s.setCall call c (.returned (.ok c.url))
          | some _ => (s.insert c d.path).setCall call c (.returned (.ok c.url))
  | .returned _ => s

def setAttempt (s : State) (attempt : Nat) (a : Attempt) : State :=
  { s with attempts := Function.update s.attempts attempt (some a) }

def goto (s : State) (attempt : Nat) (a : Attempt) (pc : Pc) : State :=
  s.setAttempt attempt { a with pc }

/-- `rx_cancel.recv()` returns when a cancellation was sent or the entry, which holds the other
    end, is gone. -/
def hearsCancel (s : State) (attempt : Nat) : Prop :=
  attempt ∈ s.canceled ∨ ∀ d ∈ s.downloaders.entries, d.2.txCancel ≠ attempt

instance (s : State) (attempt : Nat) : Decidable (s.hearsCancel attempt) :=
  inferInstanceAs (Decidable (_ ∨ _))

def receive (s : State) (attempt : Nat) (a : Attempt) (size : Nat) : State :=
  match a.nextChunk size, a.path with
  | [], _ => s.goto attempt a (.flush true)
  | chunk, some _ => s.goto attempt a (.write chunk)
  | chunk, none =>
      (s.modify a.url fun d =>
        { d with data := d.data ++ chunk, downloadedSize := d.downloadedSize + chunk.length }).setAttempt
        attempt { a with received := a.received ++ chunk }

def writeFile (s : State) (a : Attempt) (chunk : Bytes) : State :=
  match a.path, a.dest with
  | some path, some file => s.setSlot path ((s.disk path).write 0 file a.received.length chunk)
  | _, _ => s

/-- A canceled download takes the entry with it and the file of that entry. -/
def removeEntry (s : State) (url : String) : State :=
  match s.downloaders.lookup url with
  | none => s
  | some d =>
      match d.path with
      | none => s.remove url
      | some path => (s.remove url).removeFile path

/-- A select over the cancellation and something else. -/
def orCancel (s : State) (attempt : Nat) (a : Attempt) (pc : Pc) : State :=
  if s.hearsCancel attempt then s.goto attempt a pc else s

def attemptStep (s : State) (attempt : Nat) (a : Attempt) (o : Outcome) : State :=
  match a.pc, o with
  | .removeStale _, .fails .. => s.goto attempt a .head
  | .removeStale path, _ => (s.removeFile path).goto attempt a .head
  | .head, .canceled => s.orCancel attempt a (.returned false)
  | .head, .head length =>
      (s.modify a.url fun d => { d with totalSize := some length }).setAttempt attempt
        { a with headLength := some length, pc := .get }
  | .head, .fails e _ => s.goto attempt a (.failed e)
  | .head, _ => s
  | .get, .canceled => s.orCancel attempt a (.returned false)
  | .get, .get body =>
      s.setAttempt attempt { a with
        response := some body
        pc := if a.path.isSome then .create else .receive }
  | .get, .fails e _ => s.goto attempt a (.failed e)
  | .get, _ => s
  | .create, .fails e _ => s.goto attempt a (.failed e)
  | .create, _ =>
      match a.path with
      | none => s
      | some path =>
          let (slot, file) := (s.disk path).create
          (s.setSlot path slot).setAttempt attempt { a with dest := some file, pc := .receive }
  | .receive, .canceled => s.orCancel attempt a (.flush false)
  | .receive, .ok size => s.receive attempt a size
  | .receive, .fails e _ => s.goto attempt a (.failed e)
  | .receive, _ => s
  | .write chunk, .fails e written => (s.writeFile a (chunk.take written)).goto attempt a (.failed e)
  | .write chunk, _ => (s.writeFile a chunk).goto attempt a (.recordSize chunk)
  | .recordSize chunk, _ =>
      (s.modify a.url fun d => { d with downloadedSize := d.downloadedSize + chunk.length }).setAttempt
        attempt { a with received := a.received ++ chunk, pc := .receive }
  | .flush all, .fails e _ => s.goto attempt a (if a.path.isSome then .failed e else .finish all)
  | .flush all, _ => s.goto attempt a (.finish all)
  | .finish all,
    _ => (s.modify a.url fun d => { d with finished := true }).goto attempt a (.returned all)
  | .returned true, _ => s.goto attempt a .ended
  | .returned false, _ => (s.removeEntry a.url).goto attempt a .ended
  | .failed e, _ =>
      (s.modify a.url fun d =>
        { d with error := some e, errorBy := some attempt }).goto attempt a .ended
  | .ended, _ => s

def step (s : State) : Event → State
  | .download call url path =>
      match s.calls call with
      | none => { s with calls := Function.update s.calls call (some { url, path }) }
      | some _ => s
  | .call call fails =>
      match s.calls call with
      | none => s
      | some c => s.callStep call c fails
  | .attempt attempt o =>
      match s.attempts attempt with
      | none => s
      | some a => s.attemptStep attempt a o
  | .cancel url => s.cancel url
  | .remove url => s.remove url

end State

namespace State

/-- The body of one GET response, all of which has come. -/
def Response (s : State) (body : Bytes) : Prop :=
  ∃ n < s.next, ∃ a ∈ s.attempts n, a.response = some body ∧ a.received = body

/-- Data, and a file that is reported to be there, are such a body. -/
def Genuine (s : State) (r : DownloadData) : Prop :=
  (r.data ≠ [] → s.Response r.data) ∧
    ∀ path ∈ r.path, r.totalSize = some r.downloadedSize → r.error = none →
      ∃ body ∈ (s.disk path).content, s.Response body

instance (s : State) (body : Bytes) : Decidable (s.Response body) :=
  inferInstanceAs
    (Decidable (∃ n < s.next, ∃ a ∈ s.attempts n, a.response = some body ∧ a.received = body))

instance (s : State) (r : DownloadData) : Decidable (s.Genuine r) :=
  inferInstanceAs
    (Decidable (_ ∧ ∀ path ∈ r.path, _ → _ → ∃ body ∈ (s.disk path).content, s.Response body))

/-- No download shows anything of another. -/
structure Unmixed (s : State) : Prop where
  genuine : ∀ url r, s.getDownloadData url = .ok r → s.Genuine r
  error : ∀ url, ∀ d ∈ s.downloaders.lookup url, ∀ n ∈ d.errorBy, n = d.txCancel

end State

/-- What a thread may record in an entry. -/
inductive Entering where
  | length (length : Nat)
  | chunk (chunk : Bytes)
  | error

namespace Attempt

/-- What a step records in the entry of the URL. -/
def records (a : Attempt) (o : Outcome) : Option Entering :=
  match a.pc, o with
  | .head, .head length => some (.length length)
  | .receive, .ok size =>
      if a.path = none ∧ a.nextChunk size ≠ [] then some (.chunk (a.nextChunk size)) else none
  | .recordSize chunk, _ => some (.chunk chunk)
  | .failed _, _ => some .error
  | _, _ => none

/-- What does not make a download seem complete too early: a file has a length, and a chunk
    that ends where the length of HEAD ends is the last one. -/
def Timely (a : Attempt) : Entering → Prop
  | .length length => a.path ≠ none → length ≠ 0
  | .chunk chunk =>
      a.headLength = some (a.received.length + chunk.length) →
        a.received ++ chunk = a.response.getD []
  | .error => True

instance (a : Attempt) : DecidablePred a.Timely
  | .length length => inferInstanceAs (Decidable (a.path ≠ none → length ≠ 0))
  | .chunk _ => inferInstanceAs (Decidable (_ → _))
  | .error => inferInstanceAs (Decidable True)

end Attempt

namespace State

/-- The file that a step creates, writes to or removes. -/
def touches (s : State) (a : Attempt) (o : Outcome) : Option String :=
  match a.pc, o with
  | .removeStale _, .fails .. => none
  | .removeStale path, _ => some path
  | .create, .fails .. => none
  | .create, _ => a.path
  | .write _, _ => a.path.filter fun path => (s.disk path).current = a.dest
  | _, _ => none

/-- Only this attempt has an entry for the file. -/
def Alone (s : State) (path : String) (n : Option Nat) : Prop :=
  ∀ d ∈ s.downloaders.entries, d.2.path = some path → d.2.txCancel ∈ n

instance (s : State) (path : String) (n : Option Nat) : Decidable (s.Alone path n) :=
  inferInstanceAs (Decidable (∀ d ∈ s.downloaders.entries, d.2.path = some path → d.2.txCancel ∈ n))

/-- The file that a canceled download takes with it. -/
def removes (s : State) (a : Attempt) : Option String :=
  if a.pc = .returned false then (s.downloaders.lookup a.url).bind Downloader.path else none

/-- A thread records in its own entry, and in time, and leaves alone the files that other
    entries are for. -/
def ThreadApart (s : State) (n : Nat) (a : Attempt) (o : Outcome) : Prop :=
  (∀ r ∈ a.records o, ∀ d ∈ s.downloaders.lookup a.url, d.txCancel = n ∧ a.Timely r) ∧
    (∀ path ∈ s.touches a o, s.Alone path (some n)) ∧
      ∀ path ∈ s.removes a, (s.remove a.url).Alone path none

instance (s : State) (n : Nat) (a : Attempt) (o : Outcome) : Decidable (s.ThreadApart n a o) :=
  inferInstanceAs (Decidable (_ ∧ _ ∧ _))

/-- The file that a call removes. -/
def callRemoves (c : Call) (fails : Option String) : Option String :=
  match c.pc, fails with
  | .removeStale path, none => some path
  | _, _ => none

def Apart (s : State) : Event → Prop
  | .call call fails => ∀ c ∈ s.calls call, ∀ path ∈ callRemoves c fails, s.Alone path none
  | .attempt n o => ∀ a ∈ s.attempts n, s.ThreadApart n a o
  | .download .. | .cancel _ | .remove _ => True

instance (s : State) : DecidablePred s.Apart
  | .call call fails =>
      inferInstanceAs (Decidable (∀ c ∈ s.calls call, ∀ path ∈ callRemoves c fails, s.Alone path none))
  | .attempt n o => inferInstanceAs (Decidable (∀ a ∈ s.attempts n, s.ThreadApart n a o))
  | .download .. | .cancel _ | .remove _ => inferInstanceAs (Decidable True)

end State

/-! ## What is known of an attempt and its entry -/

/-- The chunk that is on its way into the file. -/
def Pc.chunk : Pc → Option Bytes
  | .write chunk | .recordSize chunk => some chunk
  | _ => none

/-- Nothing was received yet. -/
def Pc.early : Pc → Bool
  | .removeStale _ | .head | .get | .create => true
  | _ => false

/-- The file is open, if there is to be one. -/
def Pc.receiving : Pc → Bool
  | .receive | .write _ | .recordSize _ => true
  | _ => false

structure Attempt.Sound (a : Attempt) : Prop where
  received : a.received <+: a.response.getD []
  early : a.pc.early = true → a.received = [] ∧ a.dest = none
  opened : a.path ≠ none → a.received ≠ [] ∨ a.pc.receiving = true → a.dest ≠ none
  chunk : ∀ chunk ∈ a.pc.chunk,
    a.path ≠ none ∧ chunk ≠ [] ∧ a.received ++ chunk <+: a.response.getD []

/-- What is in the file of an attempt. -/
def Attempt.HasWritten (a : Attempt) (content : Bytes) : Prop :=
  match a.pc with
  | .receive | .write _ => content = a.received
  | .recordSize chunk => content = a.received ++ chunk
  | _ => a.received <+: content ∧ content <+: a.response.getD []

/-- The entry `d` of attempt `n` and its file show how far the attempt `a` has come. -/
structure Shows (disk : String → Slot UInt8) (url : String) (d : Downloader) (n : Nat) (a : Attempt) :
    Prop where
  url : a.url = url
  path : d.path = a.path
  total : d.totalSize = a.headLength
  size : d.downloadedSize = a.received.length
  data : a.path = none → d.data = a.received
  error : ∀ m ∈ d.errorBy, m = n
  timely : ∀ length ∈ a.headLength, a.received.length = length → a.received ≠ [] →
    a.received = a.response.getD []
  long : a.path ≠ none → a.headLength ≠ some 0
  file : ∀ path ∈ a.path, ∀ file ∈ a.dest,
    (disk path).current = some file ∧ a.HasWritten ((disk path).contents file)

structure Inv (s : State) : Prop where
  fresh : ∀ n, s.next ≤ n → s.attempts n = none
  sound : ∀ n, ∀ a ∈ s.attempts n, a.Sound
  entries : ∀ url, ∀ d ∈ s.downloaders.lookup url, ∃ a ∈ s.attempts d.txCancel,
    Shows s.disk url d d.txCancel a

section

variable {s : State} {url : String} {d : Downloader} {n : Nat} {a a' : Attempt} {call : Nat}
  {c : Call} {content : Bytes} {downloaders : AList fun _ : String => Downloader} {length : Nat}

/-- Only the file that is there matters. -/
theorem Shows.disk_congr {disk disk' : String → Slot UInt8} (shows_ : Shows disk url d n a)
    (same : ∀ path ∈ d.path, (disk' path).current = (disk path).current ∧
      ∀ file ∈ (disk path).current, (disk' path).contents file = (disk path).contents file) :
    Shows disk' url d n a :=
  { shows_ with
    file := by
      intro path known file open_
      obtain ⟨current, written⟩ := shows_.file path known file open_
      obtain ⟨current', contents⟩ := same path (shows_.path ▸ known)
      rw [contents file current]
      exact ⟨current'.trans current, written⟩ }

/-- A step of a thread: what it has come to is sound, its own entry shows it, and the other
    entries show what they did. -/
theorem Inv.advance {disk : String → Slot UInt8} (inv : Inv s) (at_ : s.attempts n = some a)
    (sound : a'.Sound)
    (own : ∀ url, ∀ d ∈ downloaders.lookup url, d.txCancel = n → Shows disk url d n a')
    (others : ∀ url, ∀ d ∈ downloaders.lookup url, d.txCancel ≠ n →
      ∃ d₀ ∈ s.downloaders.lookup url, d₀.txCancel = d.txCancel ∧
        ∀ b, Shows s.disk url d₀ d₀.txCancel b → Shows disk url d d.txCancel b) :
    Inv { s with downloaders, disk, attempts := Function.update s.attempts n (some a') }  where
  fresh m later := by
    have ne : m ≠ n := by
      rintro rfl
      simp [inv.fresh m later] at at_
    exact (Function.update_of_ne ne ..).trans (inv.fresh m later)
  sound m b known := by
    by_cases here : m = n
    · subst here
      obtain rfl : a' = b := by simpa using known
      exact sound
    · exact inv.sound m b ((Function.update_of_ne here ..).symm.trans known)
  entries url d known := by
    by_cases here : d.txCancel = n
    · refine ⟨a', ?_, here ▸ own url d known here⟩
      simp [here]
    · obtain ⟨d₀, known₀, same, shows_⟩ := others url d known here
      obtain ⟨b, attempt, shown⟩ := inv.entries url d₀ known₀
      rw [same] at attempt
      exact ⟨b, (Function.update_of_ne here ..).trans attempt, shows_ b shown⟩

/-- The entry of an attempt shows it. -/
theorem Inv.shows_ (inv : Inv s) (at_ : s.attempts n = some a) (known : d ∈ s.downloaders.lookup url)
    (own : d.txCancel = n) : Shows s.disk url d n a := by
  obtain ⟨b, attempt, shown⟩ := inv.entries url d known
  rw [own] at attempt shown
  obtain rfl : a = b := Option.some.inj (at_.symm.trans attempt)
  exact shown

/-- The thread goes on by itself. -/
theorem Inv.setAttempt (inv : Inv s) (at_ : s.attempts n = some a) (sound : a'.Sound)
    (own : ∀ url d, Shows s.disk url d n a → Shows s.disk url d n a') : Inv (s.setAttempt n a') :=
  inv.advance at_ sound
    (fun url d known here => own url d (inv.shows_ at_ known here))
    (fun _ d known _ => ⟨d, known, rfl, fun _ shown => shown⟩)

theorem lookup_modify (s : State) (url other : String) (change : Downloader → Downloader) :
    (s.modify url change).downloaders.lookup other =
      if other = url then (s.downloaders.lookup url).map change else s.downloaders.lookup other := by
  unfold State.modify
  split
  · rename_i d found
    by_cases here : other = url
    · subst here
      simp [found]
    · simp [here, AList.lookup_insert_ne here]
  · rename_i missing
    by_cases here : other = url
    · subst here
      simp [missing]
    · simp [here]

theorem modify_eq (s : State) (url : String) (change : Downloader → Downloader) :
    s.modify url change = { s with downloaders := (s.modify url change).downloaders } := by
  unfold State.modify
  split <;> rfl

/-- The thread records something in its own entry. -/
theorem Inv.record {change : Downloader → Downloader} (inv : Inv s) (at_ : s.attempts n = some a)
    (keeps : ∀ d, (change d).txCancel = d.txCancel) (sound : a'.Sound)
    (mine : ∀ d ∈ s.downloaders.lookup a.url, d.txCancel = n)
    (own : ∀ d ∈ s.downloaders.lookup a.url, Shows s.disk a.url d n a →
      Shows s.disk a.url (change d) n a') :
    Inv ((s.modify a.url change).setAttempt n a') := by
  rw [modify_eq]
  apply inv.advance at_ sound
  · intro url d known here
    rw [lookup_modify] at known
    split at known
    · rename_i same
      subst same
      obtain ⟨d₀, known₀, rfl⟩ := Option.map_eq_some_iff.mp known
      exact own d₀ known₀ (inv.shows_ at_ known₀ (mine d₀ known₀))
    · rename_i other
      exact absurd (inv.shows_ at_ known here).url.symm other
  · intro url d known other
    rw [lookup_modify] at known
    split at known
    · obtain ⟨d₀, known₀, rfl⟩ := Option.map_eq_some_iff.mp known
      exact absurd ((keeps d₀).trans (mine d₀ known₀)) other
    · exact ⟨d, known, rfl, fun _ shown => shown⟩

variable {chunk : Bytes} {o : Outcome} {path : String} {pc : Pc}

/-- The thread does something to a file that no other entry is for. -/
theorem Inv.touch {slot : Slot UInt8} (inv : Inv s) (at_ : s.attempts n = some a) (sound : a'.Sound)
    (alone : s.Alone path (some n)) (own : ∀ url d, Shows s.disk url d n a →
      Shows (Function.update s.disk path slot) url d n a') :
    Inv ((s.setSlot path slot).setAttempt n a') := by
  apply inv.advance at_ sound
  · exact fun url d known here => own url d (inv.shows_ at_ known here)
  · intro url d known other
    refine ⟨d, known, rfl, fun b shown => shown.disk_congr ?_⟩
    intro path' known'
    have ne : path' ≠ path := by
      rintro rfl
      have mine := alone ⟨url, d⟩ (AList.mem_lookup_iff.mp known) known'
      exact other (Option.some.inj mine).symm
    have same : (s.setSlot path slot).disk path' = s.disk path' := Function.update_of_ne ne ..
    rw [same]
    exact ⟨rfl, fun _ _ => rfl⟩

theorem hasWritten_of_passive (passive : a.pc.receiving = false) :
    a.HasWritten content ↔ a.received <+: content ∧ content <+: a.response.getD [] := by
  unfold Attempt.HasWritten
  split
  · simp_all [Pc.receiving]
  · simp_all [Pc.receiving]
  · simp_all [Pc.receiving]
  · exact .rfl

theorem Attempt.HasWritten.loose (sound : a.Sound) (written : a.HasWritten content) :
    a.received <+: content ∧ content <+: a.response.getD [] := by
  cases pc : a.pc with
  | receive | write =>
      have same : content = a.received := by simpa [Attempt.HasWritten, pc] using written
      subst same
      exact ⟨List.prefix_refl _, sound.received⟩
  | recordSize chunk =>
      have same : content = a.received ++ chunk := by simpa [Attempt.HasWritten, pc] using written
      subst same
      exact ⟨List.prefix_append .., (sound.chunk chunk (by simp [pc, Pc.chunk])).2.2⟩
  | _ => exact (hasWritten_of_passive (by simp [pc, Pc.receiving])).mp written

/-- A turn to something that receives nothing. -/
theorem Attempt.Sound.goto (sound : a.Sound) (passive : pc.receiving = false)
    (early : pc.early = true → a.pc.early = true) : ({ a with pc } : Attempt).Sound  where
  received := sound.received
  early now := sound.early (early now)
  opened file more := sound.opened file (.inl (more.resolve_right (by simp [passive])))
  chunk chunk coming := by
    cases pc <;> simp_all [Pc.chunk, Pc.receiving]

theorem Inv.goto (inv : Inv s) (at_ : s.attempts n = some a) (passive : pc.receiving = false)
    (early : pc.early = true → a.pc.early = true) : Inv (s.goto n a pc) := by
  have sound := inv.sound n a at_
  apply inv.setAttempt at_ (sound.goto passive early)
  intro url d shown
  exact { shown with
    file := fun path known file open_ => by
      obtain ⟨current, written⟩ := shown.file path known file open_
      have loose := written.loose sound
      exact ⟨current, (hasWritten_of_passive passive).mpr loose⟩ }

theorem Inv.orCancel (inv : Inv s) (at_ : s.attempts n = some a) (passive : pc.receiving = false)
    (early : pc.early = false) : Inv (s.orCancel n a pc) := by
  unfold State.orCancel
  split
  · exact inv.goto at_ passive (by simp [early])
  · exact inv

theorem Inv.stale (inv : Inv s) (at_ : s.attempts n = some a) (pc : a.pc = .removeStale path)
    (alone : s.Alone path (some n)) : Inv ((s.removeFile path).goto n a .head) := by
  have sound := inv.sound n a at_
  have nothing := sound.early (by simp [pc, Pc.early])
  apply inv.touch at_ (sound.goto rfl fun _ => by simp [pc, Pc.early]) alone
  intro url d shown
  exact { shown with
    file := fun _ _ file open_ => by simp [nothing.2] at open_ }

theorem Inv.head (inv : Inv s) (at_ : s.attempts n = some a) (pc : a.pc = .head)
    (apart : ∀ d ∈ s.downloaders.lookup a.url, d.txCancel = n ∧ a.Timely (.length length)) :
    Inv ((s.modify a.url fun d => { d with totalSize := some length }).setAttempt n
      { a with headLength := some length, pc := .get }) := by
  have sound := inv.sound n a at_
  have nothing := sound.early (by simp [pc, Pc.early])
  apply inv.record at_
  · exact fun _ => rfl
  · exact {
      received := sound.received
      early := fun _ => nothing
      opened := fun _ => by simp [nothing.1, Pc.receiving]
      chunk := nofun }
  · exact fun d known => (apart d known).1
  · intro d known shown
    exact { shown with
      total := rfl
      timely := fun _ _ _ some_ => absurd nothing.1 some_
      long := fun file zero => (apart d known).2 file (Option.some.inj zero)
      file := fun _ _ file open_ => by simp [nothing.2] at open_ }

theorem Inv.get {body : Bytes} (inv : Inv s) (at_ : s.attempts n = some a) (pc : a.pc = .get) :
    Inv (s.setAttempt n { a with
      response := some body
      pc := if a.path.isSome then .create else .receive }) := by
  have sound := inv.sound n a at_
  have nothing := sound.early (by simp [pc, Pc.early])
  apply inv.setAttempt at_
  · exact {
      received := by simp [nothing.1]
      early := fun _ => nothing
      opened := by
        intro file
        have some_ : a.path.isSome = true := Option.isSome_iff_ne_none.mpr file
        simp [nothing.1, some_, Pc.receiving]
      chunk := by
        intro chunk
        cases a.path <;> simp [Pc.chunk] }
  · intro url d shown
    exact { shown with
      timely := fun _ _ _ some_ => absurd nothing.1 some_
      file := fun _ _ file open_ => by simp [nothing.2] at open_ }

theorem Inv.create (inv : Inv s) (at_ : s.attempts n = some a) (pc : a.pc = .create)
    (file : a.path = some path) (alone : s.Alone path (some n)) :
    Inv ((s.setSlot path (s.disk path).create.1).setAttempt n
      { a with dest := some (s.disk path).create.2, pc := .receive }) := by
  have sound := inv.sound n a at_
  have nothing := sound.early (by simp [pc, Pc.early])
  apply inv.touch at_ _ alone
  · intro url d shown
    exact { shown with
      file := by
        intro path' known file' open_
        obtain rfl : path = path' := Option.some.inj (file.symm.trans known)
        obtain rfl := Option.some.inj open_
        have created := (s.disk path).create_spec
        simp only [Function.update_self, Attempt.HasWritten]
        exact ⟨created.1, created.2.trans nothing.1.symm⟩ }
  · exact {
      received := sound.received
      early := nofun
      opened := nofun
      chunk := nofun }

theorem nextChunk_prefix (sound : a.Sound) (size : Nat) :
    a.received ++ a.nextChunk size <+: a.response.getD [] := by
  have whole : a.received ++ (a.response.getD []).drop a.received.length = a.response.getD [] := by
    obtain ⟨rest, same⟩ := sound.received
    simp [← same]
  calc a.received ++ a.nextChunk size
      <+: a.received ++ (a.response.getD []).drop a.received.length :=
        (List.prefix_append_right_inj _).mpr (List.take_prefix ..)
    _ = a.response.getD [] := whole

section

variable (inv : Inv s) (at_ : s.attempts n = some a)

include inv at_

theorem Inv.receive {size : Nat} (pc : a.pc = .receive)
    (apart : s.ThreadApart n a (.ok size)) : Inv (s.receive n a size) := by
  have sound := inv.sound n a at_
  have coming := nextChunk_prefix sound size
  have open_ (file : a.path ≠ none) : a.dest ≠ none :=
    sound.opened file (.inr (by simp [pc, Pc.receiving]))
  unfold State.receive
  split
  · exact inv.goto at_ rfl nofun
  · rename_i path file more
    apply inv.setAttempt at_
    · exact {
        received := sound.received
        early := nofun
        opened := fun file _ => open_ file
        chunk := by
          intro chunk same
          cases same
          exact ⟨by simp [file], more, coming⟩ }
    · intro url d shown
      exact { shown with
        file := fun path known file open_ => by
          simpa only [Attempt.HasWritten, pc] using shown.file path known file open_ }
  · rename_i data more
    have recorded : a.records (.ok size) = some (.chunk (a.nextChunk size)) := by
      simp only [Attempt.records, pc]
      exact if_pos ⟨data, more⟩
    apply inv.record at_
    · exact fun _ => rfl
    · exact {
        received := coming
        early := fun now => by simp [pc, Pc.early] at now
        opened := fun file => absurd data file
        chunk := fun _ other => by simp [pc, Pc.chunk] at other }
    · exact fun d known => (apart.1 _ recorded d known).1
    · intro d known shown
      have timely := (apart.1 _ recorded d known).2
      exact { shown with
        size := by simp [shown.size]
        data := fun _ => by simp [shown.data data]
        timely := by
          rintro length given rfl _
          apply timely
          rw [given]
          simp
        file := fun path file => by simp [data] at file }

/-- Bytes of a chunk go into the file of the attempt, if it is still there. -/
theorem Inv.writeFile {part : Bytes} {next : Pc}
    (pc : a.pc = .write chunk) (apart : s.ThreadApart n a o)
    (sound : ({ a with pc := next } : Attempt).Sound)
    (written : ({ a with pc := next } : Attempt).HasWritten (a.received ++ part)) :
    Inv ((s.writeFile a part).goto n a next) := by
  unfold State.writeFile
  split
  · rename_i path file known open_
    apply inv.advance at_ sound
    · intro url d entry mine
      have shown := inv.shows_ at_ entry mine
      obtain ⟨current, content⟩ := shown.file path known file open_
      have content : (s.disk path).contents file = a.received := by
        simpa only [Attempt.HasWritten, pc] using content
      exact { shown with
        file := by
          intro path' known' file' open'
          obtain rfl : path = path' := Option.some.inj (known.symm.trans known')
          obtain rfl : file = file' := Option.some.inj (open_.symm.trans open')
          have grown := (s.disk path).write_end 0 part (congrArg List.length content.symm)
          simp only [State.setSlot, Function.update_self]
          rw [grown, content]
          exact ⟨current, written⟩ }
    · intro url d entry other
      refine ⟨d, entry, rfl, fun b shown => shown.disk_congr ?_⟩
      intro path' known'
      by_cases here : path' = path
      · subst here
        have elsewhere : (s.disk path').current ≠ some file := by
          intro current
          have alone := apart.2.1 path' (by simp [State.touches, pc, known, current, open_])
          have mine := alone ⟨url, d⟩ (AList.mem_lookup_iff.mp entry) known'
          exact other (Option.some.inj mine).symm
        simp only [State.setSlot, Function.update_self]
        refine ⟨rfl, fun file' current => Slot.write_contents_of_ne _ _ _ _ ?_⟩
        rintro rfl
        exact elsewhere current
      · have same : (s.setSlot path ((s.disk path).write 0 file a.received.length part)).disk path' =
            s.disk path' := Function.update_of_ne here ..
        rw [same]
        exact ⟨rfl, fun _ _ => rfl⟩
  · rename_i closed
    apply inv.setAttempt at_ sound
    intro url d shown
    exact { shown with
      file := fun path known file open_ => absurd open_ (closed path file known) }

/-- Some of a chunk is in the file when the attempt fails. -/
theorem Inv.writeFailed (pc : a.pc = .write chunk)
    (apart : s.ThreadApart n a o) (e : String) (written : Nat) :
    Inv ((s.writeFile a (chunk.take written)).goto n a (.failed e)) := by
  have sound := inv.sound n a at_
  obtain ⟨-, -, coming⟩ := sound.chunk chunk (by simp [pc, Pc.chunk])
  have part : a.received ++ chunk.take written <+: a.response.getD [] :=
    ((List.prefix_append_right_inj _).mpr (List.take_prefix ..)).trans coming
  exact inv.writeFile at_ pc apart (sound.goto rfl nofun) ⟨List.prefix_append .., part⟩

/-- All of a chunk is in the file, and its size is recorded next. -/
theorem Inv.wrote (pc : a.pc = .write chunk)
    (apart : s.ThreadApart n a o) : Inv ((s.writeFile a chunk).goto n a (.recordSize chunk)) := by
  have sound := inv.sound n a at_
  have recording : ({ a with pc := .recordSize chunk } : Attempt).Sound := {
    received := sound.received
    early := nofun
    opened := fun file _ => sound.opened file (.inr (by simp [pc, Pc.receiving]))
    chunk := by
      intro _ same
      cases same
      exact sound.chunk chunk (by simp [pc, Pc.chunk]) }
  exact inv.writeFile at_ pc apart recording rfl

theorem Inv.recordSize (pc : a.pc = .recordSize chunk)
    (apart : ∀ d ∈ s.downloaders.lookup a.url, d.txCancel = n ∧ a.Timely (.chunk chunk)) :
    Inv ((s.modify a.url fun d =>
      { d with downloadedSize := d.downloadedSize + chunk.length }).setAttempt
      n { a with received := a.received ++ chunk, pc := .receive }) := by
  have sound := inv.sound n a at_
  obtain ⟨file, -, coming⟩ := sound.chunk chunk (by simp [pc, Pc.chunk])
  apply inv.record at_
  · exact fun _ => rfl
  · exact {
      received := coming
      early := nofun
      opened := fun file _ => sound.opened file (.inr (by simp [pc, Pc.receiving]))
      chunk := nofun }
  · exact fun d known => (apart d known).1
  · intro d known shown
    exact { shown with
      size := by simp [shown.size]
      data := fun data => absurd data file
      timely := by
        rintro length given rfl _
        apply (apart d known).2
        rw [given]
        simp
      file := fun path known file open_ => by
        simpa only [Attempt.HasWritten, pc] using shown.file path known file open_ }

/-- Whose entry it is does not matter for `finished`, which is not shown. -/
theorem Inv.finish (passive : pc.receiving = false) (late : pc.early = false) :
    Inv ((s.modify a.url fun d => { d with finished := true }).goto n a pc) := by
  have went := inv.goto at_ passive (by simp [late])
  rw [modify_eq]
  apply inv.advance at_ (went.sound n _ (Function.update_self ..))
  · intro url d known mine
    rw [lookup_modify] at known
    split at known
    · obtain ⟨d₀, known₀, rfl⟩ := Option.map_eq_some_iff.mp known
      have shown : Shows s.disk a.url d₀ n _ := went.shows_ (Function.update_self ..) known₀ mine
      rename_i here
      subst here
      exact { shown with }
    · exact went.shows_ (Function.update_self ..) known mine
  · intro url d known other
    rw [lookup_modify] at known
    split at known
    · obtain ⟨d₀, known₀, rfl⟩ := Option.map_eq_some_iff.mp known
      rename_i here
      subst here
      exact ⟨d₀, known₀, rfl, fun b shown => { shown with }⟩
    · exact ⟨d, known, rfl, fun b shown => shown⟩

theorem Inv.fail {e : String} (mine : ∀ d ∈ s.downloaders.lookup a.url, d.txCancel = n) :
    Inv ((s.modify a.url fun d => { d with error := some e, errorBy := some n }).goto n a .ended) := by
  have went : Inv (s.goto n a .ended) := inv.goto at_ rfl nofun
  apply inv.record at_
  · exact fun _ => rfl
  · exact went.sound n _ (Function.update_self ..)
  · exact mine
  · intro d known _
    have shown := went.shows_ (Function.update_self ..) known (mine d known)
    exact { shown with
      error := fun m same => (Option.some.inj same).symm }

end

theorem lookup_erase_some {other : String} (known : d ∈ (downloaders.erase url).lookup other) :
    other ≠ url ∧ d ∈ downloaders.lookup other := by
  by_cases here : other = url
  · subst here
    simp at known
  · rw [AList.lookup_erase_ne here] at known
    exact ⟨here, known⟩

/-- Entries that are left show what they did. -/
theorem Inv.remove (inv : Inv s) (url : String) : Inv (s.remove url) where
  fresh := inv.fresh
  sound := inv.sound
  entries other d known := inv.entries other d (lookup_erase_some known).2

/-- A file that no entry is for is removed. -/
theorem Inv.removeFile (inv : Inv s) (alone : s.Alone path none) : Inv (s.removeFile path)  where
  fresh := inv.fresh
  sound := inv.sound
  entries url d known := by
    obtain ⟨a, attempt, shown⟩ := inv.entries url d known
    refine ⟨a, attempt, shown.disk_congr ?_⟩
    intro path' known'
    have ne : path' ≠ path := by
      rintro rfl
      nomatch alone ⟨url, d⟩ (AList.mem_lookup_iff.mp known) known'
    have same : (s.removeFile path).disk path' = s.disk path' := Function.update_of_ne ne ..
    rw [same]
    exact ⟨rfl, fun _ _ => rfl⟩

theorem Inv.removeEntry (inv : Inv s) (url : String)
    (alone : ∀ path ∈ (s.downloaders.lookup url).bind Downloader.path, (s.remove url).Alone path none) :
    Inv (s.removeEntry url) := by
  unfold State.removeEntry
  split
  · exact inv
  · rename_i d known
    split
    · exact inv.remove url
    · rename_i path file
      exact (inv.remove url).removeFile (alone path (by simp [known, file]))

theorem removeEntry_attempts (s : State) (url : String) :
    (s.removeEntry url).attempts = s.attempts := by
  unfold State.removeEntry
  split
  · rfl
  · split <;> rfl

theorem Inv.attemptStep (inv : Inv s) (at_ : s.attempts n = some a) (apart : s.ThreadApart n a o) :
    Inv (s.attemptStep n a o) := by
  obtain ⟨records, touches, removes⟩ := apart
  cases pc : a.pc with
  | removeStale path =>
      have early : Pc.early .head = true → a.pc.early = true := fun _ => by simp [pc, Pc.early]
      cases o with
      | fails => simpa [State.attemptStep, pc] using inv.goto at_ rfl early
      | canceled | head | get | ok =>
          have stale := inv.stale at_ pc (touches path (by simp [State.touches, pc]))
          simpa [State.attemptStep, pc] using stale
  | head =>
      cases o with
      | canceled => simpa [State.attemptStep, pc] using inv.orCancel at_ rfl rfl
      | fails => simpa [State.attemptStep, pc] using inv.goto at_ rfl (by simp [Pc.early])
      | head length =>
          have recorded := inv.head at_ pc (records (.length length) (by simp [Attempt.records, pc]))
          simpa [State.attemptStep, pc] using recorded
      | get | ok => simpa [State.attemptStep, pc] using inv
  | get =>
      cases o with
      | canceled => simpa [State.attemptStep, pc] using inv.orCancel at_ rfl rfl
      | fails => simpa [State.attemptStep, pc] using inv.goto at_ rfl (by simp [Pc.early])
      | get body => simpa only [State.attemptStep, pc] using inv.get at_ pc
      | head | ok => simpa [State.attemptStep, pc] using inv
  | create =>
      cases o with
      | fails => simpa [State.attemptStep, pc] using inv.goto at_ rfl (by simp [Pc.early])
      | canceled | head | get | ok =>
          simp only [State.attemptStep, pc]
          split
          · exact inv
          · rename_i path file
            exact inv.create at_ pc file (touches path (by simp [State.touches, pc, file]))
  | receive =>
      cases o with
      | canceled => simpa [State.attemptStep, pc] using inv.orCancel at_ rfl rfl
      | fails => simpa [State.attemptStep, pc] using inv.goto at_ rfl (by simp [Pc.early])
      | ok size =>
          simpa [State.attemptStep, pc] using inv.receive at_ pc ⟨records, touches, removes⟩
      | head | get => simpa [State.attemptStep, pc] using inv
  | write chunk =>
      cases o with
      | fails e written =>
          simpa [State.attemptStep, pc] using
            inv.writeFailed at_ pc ⟨records, touches, removes⟩ e written
      | canceled | head | get | ok =>
          simpa [State.attemptStep, pc] using inv.wrote at_ pc ⟨records, touches, removes⟩
  | recordSize chunk =>
      have recorded := inv.recordSize at_ pc (records (.chunk chunk) (by simp [Attempt.records, pc]))
      simpa [State.attemptStep, pc] using recorded
  | flush all =>
      cases o with
      | fails e =>
          simp only [State.attemptStep, pc]
          split <;> exact inv.goto at_ rfl nofun
      | canceled | head | get | ok =>
          have went : Inv (s.goto n a (.finish all)) := inv.goto at_ rfl nofun
          simpa [State.attemptStep, pc] using went
  | finish all =>
      have finished := inv.finish at_ (Eq.refl (Pc.returned all).receiving) rfl
      simpa [State.attemptStep, pc] using finished
  | returned all =>
      cases all with
      | true =>
          have went : Inv (s.goto n a .ended) := inv.goto at_ rfl nofun
          simpa [State.attemptStep, pc] using went
      | false =>
          have removed := inv.removeEntry a.url fun path known =>
            removes path (by simpa [State.removes, pc] using known)
          simp only [State.attemptStep, pc]
          apply removed.goto _ rfl (by simp [Pc.early])
          rw [removeEntry_attempts]
          exact at_
  | failed e =>
      have recorded := inv.fail at_ (e := e) fun d known =>
        (records .error (by simp [Attempt.records, pc]) d known).1
      simpa [State.attemptStep, pc] using recorded
  | ended => simpa [State.attemptStep, pc] using inv

/-- How far the calls have come does not matter to the threads. -/
theorem Inv.setCall {pc : CallPc} (inv : Inv s) : Inv (s.setCall call c pc) :=
  { inv with }

theorem Inv.insert (inv : Inv s) (c : Call) (stale : Option String) : Inv (s.insert c stale) where
  fresh m later := by
    have ne : m ≠ s.next := Nat.ne_of_gt later
    exact (Function.update_of_ne ne ..).trans (inv.fresh m (Nat.le_of_lt later))
  sound m a known := by
    by_cases here : m = s.next
    · subst here
      obtain rfl : _ = a := by simpa [State.insert] using known
      exact {
        received := List.nil_prefix
        early := fun _ => ⟨rfl, rfl⟩
        opened := by cases stale <;> simp [Pc.receiving]
        chunk := by cases stale <;> simp [Pc.chunk] }
    · exact inv.sound m a ((Function.update_of_ne here ..).symm.trans known)
  entries url d known := by
    by_cases here : url = c.url
    · subst here
      obtain rfl : _ = d := by simpa [State.insert] using known
      refine ⟨_, Function.update_self .., ?_⟩
      exact {
        url := rfl
        path := rfl
        total := rfl
        size := rfl
        data := fun _ => rfl
        error := nofun
        timely := nofun
        long := nofun
        file := nofun }
    · have known : d ∈ s.downloaders.lookup url :=
        (AList.lookup_insert_ne here).symm.trans known
      obtain ⟨a, attempt, shown⟩ := inv.entries url d known
      have ne : d.txCancel ≠ s.next := by
        intro same
        rw [same, Option.mem_def, inv.fresh _ (Nat.le_refl _)] at attempt
        nomatch attempt
      exact ⟨a, (Function.update_of_ne ne ..).trans attempt, shown⟩

theorem Inv.callStep {fails : Option String} (inv : Inv s)
    (apart : ∀ path ∈ State.callRemoves c fails, s.Alone path none) :
    Inv (s.callStep call c fails) := by
  unfold State.callStep
  split
  · split
    · exact inv.setCall
    · split
      · exact inv.setCall
      · exact (inv.remove c.url).setCall
      · exact (inv.remove c.url).setCall
  · rename_i path pc
    split
    · exact (inv.removeFile (apart path (by simp [State.callRemoves, pc]))).setCall
    · exact inv.setCall
  · split
    · exact inv.setCall
    · split
      · exact inv.setCall
      · split <;> exact inv.setCall
  · split
    · exact (inv.insert c none).setCall
    · split
      · exact inv.setCall
      · rename_i d _ _ _ _
        exact (inv.insert c d.path).setCall
  · exact inv

theorem Inv.step {e : Event} (inv : Inv s) (apart : s.Apart e) : Inv (s.step e) := by
  cases e with
  | download call url path =>
      simp only [State.step]
      split
      · exact { inv with }
      · exact inv
  | call call fails =>
      simp only [State.step]
      split
      · exact inv
      · rename_i c known
        exact inv.callStep (apart c known)
  | attempt n o =>
      simp only [State.step]
      split
      · exact inv
      · rename_i a known
        exact inv.attemptStep known (apart a known)
  | cancel url =>
      simp only [State.step, State.cancel]
      split
      · exact { inv with }
      · exact inv
  | remove url => exact inv.remove url

/-- What has come of a response is all of it once it seems to be. -/
theorem Inv.response (inv : Inv s) (at_ : s.attempts n = some a) (shown : Shows s.disk url d n a)
    (given : d.totalSize = some length) (complete : d.downloadedSize = length)
    (some_ : a.received ≠ []) : s.Response a.received := by
  have sound := inv.sound n a at_
  have whole := shown.timely length (shown.total.symm.trans given)
    (shown.size.symm.trans complete) some_
  refine ⟨n, ?_, a, at_, ?_, rfl⟩
  · by_contra later
    rw [inv.fresh n (Nat.not_lt.mp later)] at at_
    nomatch at_
  · cases response : a.response with
    | none => exact absurd (by simpa [response] using whole) some_
    | some body => simpa [response] using whole.symm

theorem Inv.unmixed (inv : Inv s) : s.Unmixed where
  genuine url r got := by
    unfold State.getDownloadData at got
    split at got
    · rename_i d known
      cases got
      obtain ⟨a, at_, shown⟩ := inv.entries url d known
      constructor
      · intro some_
        dsimp only at some_ ⊢
        split at some_
        · rename_i complete
          rw [if_pos complete]
          have data := shown.data (shown.path ▸ complete.2)
          rw [data] at some_ ⊢
          have long := List.length_pos_iff.mpr some_
          cases given : d.totalSize with
          | none =>
              have size := shown.size
              simp only [given, Option.getD_none] at complete
              omega
          | some length =>
              simp only [given, Option.getD_some] at complete
              exact inv.response at_ shown given complete.1.symm some_
        · exact absurd rfl some_
      · intro path file complete _
        have file : a.path = some path := shown.path.symm.trans file
        have complete : d.totalSize = some d.downloadedSize := complete
        have some_ : a.received ≠ [] := by
          intro none_
          apply shown.long (by simp [file])
          rw [← shown.total, complete, shown.size, none_]
          rfl
        have response := inv.response at_ shown complete rfl some_
        have open_ := (inv.sound _ a at_).opened (by simp [file]) (.inl some_)
        obtain ⟨handle, open_⟩ := Option.ne_none_iff_exists'.mp open_
        obtain ⟨current, written⟩ := shown.file path file handle open_
        have loose := written.loose (inv.sound _ a at_)
        have whole := shown.timely _ (shown.total.symm.trans complete) shown.size.symm some_
        refine ⟨a.received, ?_, response⟩
        have content : (s.disk path).contents handle = a.received := by
          apply List.IsPrefix.eq_of_length_le (whole ▸ loose.2)
          exact loose.1.length_le
        simp [Slot.content, current, content]
    · nomatch got
  error url d known n recorded := by
    obtain ⟨a, -, shown⟩ := inv.entries url d known
    exact shown.error n recorded

end

theorem Inv.initial (disk : String → Slot UInt8) : Inv { disk } where
  fresh _ _ := rfl
  sound _ _ is := absurd is (Option.not_mem_none _)
  entries _ _ is := absurd is (Option.not_mem_none _)

/-- Downloads that are kept apart are never mixed. -/
theorem downloads_unmixed (disk : String → Slot UInt8) (events : List Event)
    (apart : Along State.step State.Apart { disk } events) :
    Always State.step State.Unmixed { disk } events :=
  (always_of_along (fun _ _ => Inv.step) (Inv.initial disk) apart).mono fun _ => Inv.unmixed

/-- A download into memory whose entry is removed, and made anew, before its last chunk. -/
def retried : List Event :=
  [.download 0 "u" none, .call 0 none, .call 0 none, .call 0 none, .attempt 0 (.head 4),
    .attempt 0 (.get [1, 2, 3, 4]), .attempt 0 (.ok 1), .remove "u", .download 1 "u" none,
    .call 1 none, .call 1 none, .call 1 none, .attempt 1 (.head 4), .attempt 0 (.ok 1),
    .attempt 1 (.get [1, 2, 3, 4]), .attempt 1 (.ok 1)]

/-- The late chunk comes before the data of the second attempt, and makes it seem complete. -/
theorem retried_mixed : ¬ Always State.step State.Unmixed {} retried := by
  intro always
  have genuine := always.last.genuine "u" ⟨[3, 4, 1, 2], none, some 4, 4, none⟩ (by decide +kernel)
  exact absurd (genuine.1 (by decide)) (by decide +kernel)

/-- A download into a file, and another of the same URL after it. -/
def repeated : List Event :=
  [.download 0 "u" (some "p"), .call 0 none, .call 0 none, .call 0 none, .attempt 0 (.head 3),
    .attempt 0 (.get [1, 2, 3]), .attempt 0 (.ok 0), .attempt 0 (.ok 1), .attempt 0 (.ok 0),
    .attempt 0 (.ok 0), .attempt 0 (.ok 1), .attempt 0 (.fails "broken" 0), .attempt 0 (.ok 0),
    .download 1 "u" (some "p"), .call 1 none, .call 1 none, .call 1 none, .call 1 none,
    .attempt 1 (.head 1), .attempt 1 (.get [4]), .attempt 1 (.ok 0), .attempt 1 (.ok 0),
    .attempt 1 (.ok 0), .attempt 1 (.ok 0)]

theorem repeated_unmixed :
    (exec State.step {} repeated).getDownloadData "u" = .ok ⟨[], some "p", some 1, 1, none⟩ ∧
      Always State.step State.Unmixed {} repeated :=
  ⟨by decide +kernel, downloads_unmixed _ _ (by decide +kernel)⟩

end RemoteControl.Update
