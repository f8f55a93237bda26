import Mathlib.Algebra.Ring.Int.Defs
import Mathlib.Algebra.Ring.Nat
import Mathlib.Data.List.Basic

/-! # Files on the clipboard

`LocalFile` of `clipboard/src/platform/unix/local_file.rs`: a file that was copied, as it
was found on the disk, with a buffered reader that stays open between two requests. The
reader is only moved when a request does not begin where the last one has ended, so what
is read depends on the two agreeing about that place.

The disk does not change while files are read.
-/

namespace RemoteControl.Clipboard

abbrev Bytes := List UInt8

/-- A part of an `OsStr`: a character, or bytes that are none. -/
inductive OsChar where
  | char (c : Char)
  | invalid (bytes : Bytes)
  deriving DecidableEq

abbrev OsText := List OsChar

def replacementCharacter : Char := Char.ofNat 0xFFFD

def OsChar.lossy : OsChar → Char
  | .char c => c
  | .invalid _ => replacementCharacter

def OsText.toStringLossy (path : OsText) : List Char := path.map OsChar.lossy

inductive CliprdrError where
  | invalidRequest (description : String)
  | fileError (path : List Char) (err : String)
  | conversionFailure
  deriving DecidableEq

inductive FileKind where
  | file
  | directory
  | other
  deriving DecidableEq

/-- What the system tells about a path. Its lengths are signed numbers. -/
structure Metadata where
  len : UInt64
  kind : FileKind
  mode : UInt32
  /-- Nanoseconds since 1970, if the system knows them. -/
  modified : Option Int
  signed : len.toNat < 2 ^ 63

/-- What is at a path. The content is missing when the file cannot be opened; else it is
    as long as the system says, or longer for a special file. -/
structure Entry where
  metadata : Metadata
  content : Option Bytes
  long : ∀ c, content = some c → metadata.len.toNat ≤ c.length

abbrev Disk := OsText → Option Entry

def Disk.content (disk : Disk) (path : OsText) : Option Bytes := (disk path).bind Entry.content

def Disk.isFile (disk : Disk) (path : OsText) : Bool :=
  (disk path).any fun e => e.metadata.kind = .file

/-- `BufReader<File>`: the position in the file and what has been read ahead of it. -/
structure BufReader where
  pos : Nat
  buffer : Bytes
  deriving DecidableEq

/-- `BLOCK_SIZE * 2` -/
def bufCapacity : Nat := 2 * (4 * 1024 * 1024)

namespace BufReader

variable (content : Bytes)

def fillBuf (r : BufReader) : BufReader :=
  if r.buffer = [] then
    let chunk := (content.drop r.pos).take bufCapacity
    ⟨r.pos + chunk.length, chunk⟩
  else r

/-- A large read goes past an empty buffer. -/
def read (n : Nat) (r : BufReader) : BufReader × Bytes :=
  if r.buffer = [] ∧ bufCapacity ≤ n then
    let chunk := (content.drop r.pos).take n
    (⟨r.pos + chunk.length, []⟩, chunk)
  else
    let r := r.fillBuf content
    (⟨r.pos, r.buffer.drop n⟩, r.buffer.take n)

/-- Reads until `n` bytes are there. Every read but the last one brings a byte, so that
    `n` of them are enough. -/
def readLoop : (turns n : Nat) → BufReader → BufReader × Except String Bytes
  | _, 0, r => (r, .ok [])
  | 0, _ + 1, r => (r, .error "failed to fill whole buffer")
  | turns + 1, n + 1, r =>
      match r.read content (n + 1) with
      | (r, []) => (r, .error "failed to fill whole buffer")
      | (r, b :: chunk) =>
          match readLoop turns (n - chunk.length) r with
          | (r, .ok rest) => (r, .ok (b :: chunk ++ rest))
          | (r, .error err) => (r, .error err)

def readExact (n : Nat) (r : BufReader) : BufReader × Except String Bytes :=
  r.readLoop content n n

/-- `File::seek` takes the offset as a signed number; the buffer is thrown away. -/
def seek (offset : Nat) (r : BufReader) : BufReader × Except String Unit :=
  if offset < 2 ^ 63 then (⟨offset, []⟩, .ok ()) else (r, .error "Invalid argument")

end BufReader

structure LocalFile where
  relativeRoot : OsText
  path : OsText
  handle : Option BufReader
  offset : Nat
  size : UInt64
  /-- Nanoseconds since 1970. -/
  lastWriteTime : Int
  isDir : Bool
  perm : UInt32
  readOnly : Bool
  hidden : Bool
  system : Bool
  archive : Bool
  normal : Bool

namespace LocalFile

variable (disk : Disk)

def tryOpen (relativeRoot path : OsText) : Except CliprdrError LocalFile :=
  match disk path with
  | none => .error (.fileError path.toStringLossy "No such file or directory")
  | some e =>
      let isDir : Bool := e.metadata.kind = .directory
      let readOnly : Bool := e.metadata.mode &&& 0o222 = 0
      let hidden : Bool := path.toStringLossy.head? = some '.'
      .ok
        { relativeRoot := relativeRoot
          path := path
          handle := none
          offset := 0
          size := e.metadata.len
          lastWriteTime := e.metadata.modified.getD 0
          isDir := isDir
          perm := e.metadata.mode
          readOnly := readOnly
          hidden := hidden
          system := false
          archive := false
          normal := !(isDir || readOnly || false || hidden || false) }

def loadHandle (f : LocalFile) : LocalFile × Except CliprdrError Unit :=
  if !f.isDir && f.handle.isNone then
    match disk.content f.path with
    | none => (f, .error (.fileError f.path.toStringLossy "Permission denied"))
    | some content =>
        ({ f with handle := some (BufReader.fillBuf content ⟨0, []⟩) }, .ok ())
  else (f, .ok ())

/-- The part of `read_exact_at` after the handle is loaded. -/
def readHandleAt (content : Bytes) (n offset : Nat) (r : BufReader) (f : LocalFile) :
    LocalFile × Except CliprdrError Bytes :=
  let (r, sought) := if offset ≠ f.offset then r.seek offset else (r, .ok ())
  match sought with
  | .error err => ({ f with handle := some r }, .error (.fileError f.path.toStringLossy err))
  | .ok () =>
      match r.readExact content n with
      | (r, .error err) =>
          ({ f with handle := some r }, .error (.fileError f.path.toStringLossy err))
      | (r, .ok data) =>
          -- a file that has been read to its end is closed
          if offset + n ≥ f.size.toNat then ({ f with handle := none, offset := 0 }, .ok data)
          else ({ f with handle := some r, offset := offset + n }, .ok data)

/-- `read_exact_at` with a buffer of `n` bytes. -/
def readExactAt (n offset : Nat) (f : LocalFile) : LocalFile × Except CliprdrError Bytes :=
  match f.loadHandle disk with
  | (f, .error err) => (f, .error err)
  | (f, .ok ()) =>
      match f.handle with
      | none => (f, .error (.fileError f.path.toStringLossy "file handle not found"))
      | some r => f.readHandleAt ((disk.content f.path).getD []) n offset r

end LocalFile

/-! ## Where a reader is -/

namespace BufReader

variable {content : Bytes} {pos n : Nat} {r : BufReader}

/-- The next byte read is that at `pos`. -/
structure At (content : Bytes) (pos : Nat) (r : BufReader) : Prop where
  place : r.pos = pos + r.buffer.length
  ahead : r.buffer <+: content.drop pos

theorem at_empty (content : Bytes) (pos : Nat) : At content pos ⟨pos, []⟩ :=
  ⟨rfl, List.nil_prefix⟩

theorem At.fillBuf (at_ : At content pos r) :
    At content pos (r.fillBuf content) ∧
      (pos < content.length → (r.fillBuf content).buffer ≠ []) := by
  unfold BufReader.fillBuf
  split_ifs with empty
  · have place : r.pos = pos := by rw [at_.place, empty]; rfl
    rw [place]
    refine ⟨⟨rfl, List.take_prefix _ _⟩, ?_⟩
    intro more none_
    have length := congrArg List.length none_
    simp only [List.length_take, List.length_drop, List.length_nil, bufCapacity] at length
    omega
  · exact ⟨at_, fun _ => empty⟩

theorem drop_prefix_drop {l whole : Bytes} (isPrefix : l <+: whole) (n : Nat) :
    l.drop n <+: whole.drop (l.take n).length := by
  obtain ⟨rest, rfl⟩ := isPrefix
  refine ⟨rest, ?_⟩
  rw [List.drop_append_of_le_length (List.length_take_le' n l), List.length_take]
  rcases Nat.le_total n l.length with short | long
  · rw [Nat.min_eq_left short]
  · rw [Nat.min_eq_right long, List.drop_length, List.drop_eq_nil_of_le long]

/-- A read brings what is at the place, and something as long as there is more. -/
theorem At.read (at_ : At content pos r) (n : Nat) :
    (r.read content n).2 <+: content.drop pos ∧ (r.read content n).2.length ≤ n ∧
      At content (pos + (r.read content n).2.length) (r.read content n).1 ∧
      (0 < n → pos < content.length → (r.read content n).2 ≠ []) := by
  unfold BufReader.read
  split_ifs with large
  · have place : r.pos = pos := by rw [at_.place, large.1]; rfl
    rw [place]
    refine ⟨List.take_prefix _ _, ?_, at_empty _ _, ?_⟩
    · exact List.length_take_le _ _
    · intro some_ more none_
      have length := congrArg List.length none_
      simp only [List.length_take, List.length_drop, List.length_nil] at length
      omega
  · obtain ⟨filled, more⟩ := at_.fillBuf
    refine ⟨(List.take_prefix _ _).trans filled.ahead, List.length_take_le _ _, ⟨?_, ?_⟩, ?_⟩
    · rw [filled.place]
      simp only [List.length_take, List.length_drop]
      omega
    · rw [← List.drop_drop]
      exact drop_prefix_drop filled.ahead n
    · intro some_ inside none_
      rcases List.take_eq_nil_iff.mp none_ with zero | empty
      · omega
      · exact more inside empty

theorem chunk_append_rest {chunk rest : Bytes} (isPrefix : chunk <+: content.drop pos)
    (short : chunk.length ≤ n)
    (later : rest = (content.drop (pos + chunk.length)).take (n - chunk.length)) :
    chunk ++ rest = (content.drop pos).take n := by
  obtain ⟨tail, whole⟩ := isPrefix
  have drops : content.drop (pos + chunk.length) = tail := by
    rw [← List.drop_drop, ← whole]
    exact List.drop_left
  rw [later, drops, ← whole, List.take_append, List.take_of_length_le short]

variable {turns : Nat}

/-- A loop that succeeds brings what is at the place. -/
theorem At.readLoop_ok {r' : BufReader} {data : Bytes} (at_ : At content pos r)
    (ok : r.readLoop content turns n = (r', .ok data)) :
    data = (content.drop pos).take n ∧ At content (pos + n) r' := by
  fun_induction BufReader.readLoop content turns n r generalizing pos data r' with
  | case1 =>
      cases ok
      exact ⟨rfl, at_⟩
  | case2 => cases ok
  | case3 => cases ok
  | case4 turns n r r₁ b chunk got r₂ rest more ih =>
      cases ok
      have step := at_.read (n + 1)
      rw [got] at step
      obtain ⟨isPrefix, short, after, -⟩ := step
      obtain ⟨later, at'⟩ := ih after more
      simp only [List.length_cons] at short after at'
      refine ⟨chunk_append_rest isPrefix (by rw [List.length_cons]; exact short) ?_, ?_⟩
      · rw [List.length_cons, later, List.length_cons]
        congr 1
        omega
      · rw [show pos + (n + 1) = pos + (chunk.length + 1) + (n - chunk.length) by omega]
        exact at'
  | case5 => cases ok

/-- Inside the file every read brings something. -/
theorem At.readLoop (at_ : At content pos r) (enough : n ≤ turns) (inside : pos + n ≤ content.length) :
    ∃ r', r.readLoop content turns n = (r', .ok ((content.drop pos).take n)) ∧
      At content (pos + n) r' := by
  obtain ⟨r', data, ok⟩ : ∃ r' data, r.readLoop content turns n = (r', .ok data) := by
    fun_induction BufReader.readLoop content turns n r generalizing pos with
    | case1 turns r => exact ⟨r, [], rfl⟩
    | case2 => omega
    | case3 turns n r r₁ got =>
        have brings := (at_.read (n + 1)).2.2.2 (Nat.succ_pos n) (by omega)
        rw [got] at brings
        exact absurd rfl brings
    | case4 turns n r r₁ b chunk got r₂ rest more ih => exact ⟨r₂, b :: chunk ++ rest, rfl⟩
    | case5 turns n r r₁ b chunk got r₂ err fails ih =>
        have step := at_.read (n + 1)
        rw [got] at step
        simp only [List.length_cons] at step
        obtain ⟨r', data, ok⟩ := ih step.2.2.1 (by omega) (by omega)
        cases fails.symm.trans ok
  obtain ⟨rfl, after⟩ := at_.readLoop_ok ok
  exact ⟨r', ok, after⟩

theorem length_read_le (n : Nat) (r : BufReader) : (r.read content n).2.length ≤ n := by
  unfold BufReader.read
  split_ifs <;> exact List.length_take_le _ _

/-- As many bytes are read as were asked for. -/
theorem length_readLoop {r' : BufReader} {data : Bytes}
    (read : r.readLoop content turns n = (r', .ok data)) : data.length = n := by
  fun_induction BufReader.readLoop content turns n r generalizing data r' with
  | case1 => cases read; rfl
  | case2 => cases read
  | case3 => cases read
  | case4 turns n r r₁ b chunk got r₂ rest more ih =>
      cases read
      have short := @length_read_le content (n + 1) r
      have length := ih more
      rw [got] at short
      simp only [List.cons_append, List.length_cons, List.length_append] at short ⊢
      omega
  | case5 => cases read

theorem At.readExact (at_ : At content pos r) (inside : pos + n ≤ content.length) :
    ∃ r', r.readExact content n = (r', .ok ((content.drop pos).take n)) ∧
      At content (pos + n) r' :=
  at_.readLoop (Nat.le_refl n) inside

end BufReader

namespace LocalFile

variable {disk : Disk} {f : LocalFile} {content : Bytes} {n offset : Nat} {r : BufReader}
  {f' : LocalFile} {data : Bytes}

/-- The reader stands where the file says, and the file is on the disk with its size. -/
structure Steady (disk : Disk) (f : LocalFile) : Prop where
  closed : f.handle = none → f.offset = 0
  opened : ∀ r, f.handle = some r →
    ∃ content, disk.content f.path = some content ∧ r.At content f.offset
  long : ∀ content, disk.content f.path = some content → f.size.toNat ≤ content.length
  signed : f.size.toNat < 2 ^ 63

/-- A file keeps its place in the list: only the reader changes. -/
def Relisted (f f' : LocalFile) : Prop :=
  ∃ handle offset, f' = { f with handle := handle, offset := offset }

theorem Relisted.refl (f : LocalFile) : f.Relisted f := ⟨f.handle, f.offset, rfl⟩

theorem tryOpen_steady {root path : OsText} (found : tryOpen disk root path = .ok f) :
    f.Steady disk := by
  unfold tryOpen at found
  split at found
  · cases found
  · rename_i e here
    cases found
    refine ⟨fun _ => rfl, nofun, ?_, e.metadata.signed⟩
    intro content readable
    simp only [Disk.content, here, Option.bind_some] at readable
    exact e.long content readable

theorem Steady.loadHandle (steady : f.Steady disk) :
    (f.loadHandle disk).1.Steady disk ∧ f.Relisted (f.loadHandle disk).1 := by
  unfold LocalFile.loadHandle
  split_ifs with due
  · obtain ⟨-, closed⟩ := (Bool.and_eq_true _ _).mp due
    have start := steady.closed (Option.isNone_iff_eq_none.mp closed)
    cases readable : disk.content f.path with
    | none => exact ⟨steady, .refl f⟩
    | some content =>
        refine ⟨⟨nofun, ?_, steady.long, steady.signed⟩, _, f.offset, rfl⟩
        rintro r ⟨⟩
        refine ⟨content, readable, ?_⟩
        rw [start]
        exact (BufReader.at_empty content 0).fillBuf.1
  · exact ⟨steady, .refl f⟩

/-- The file is closed and cannot be opened, or it is open afterwards. -/
theorem loadHandle_of_file (isFile : f.isDir = false) (readable : disk.content f.path = some content) :
    (f.loadHandle disk).2 = .ok () ∧ (f.loadHandle disk).1.handle.isSome = true := by
  unfold LocalFile.loadHandle
  cases handle : f.handle with
  | none => simp [isFile, readable]
  | some r => simp [isFile, handle]

theorem length_readHandleAt (read : f.readHandleAt content n offset r = (f', .ok data)) :
    data.length = n := by
  unfold readHandleAt at read
  dsimp only at read
  split at read
  · cases read
  · split at read
    · cases read
    · rename_i r' data' exact_
      have length := BufReader.length_readLoop exact_
      split_ifs at read <;> (cases read; exact length)

theorem length_readExactAt (read : f.readExactAt disk n offset = (f', .ok data)) :
    data.length = n := by
  unfold readExactAt at read
  split at read
  · cases read
  · split at read
    · cases read
    · exact length_readHandleAt read

/-- A reader that stands where it should, or is sought there, brings the bytes of the
    file. -/
theorem Steady.readHandleAt (steady : f.Steady disk) (handle : f.handle = some r)
    (readable : disk.content f.path = some content) (inside : offset + n ≤ f.size.toNat) :
    (f.readHandleAt content n offset r).1.Steady disk ∧
      f.Relisted (f.readHandleAt content n offset r).1 ∧
      (f.readHandleAt content n offset r).2 = .ok ((content.drop offset).take n) := by
  have long := steady.long content readable
  have small : offset < 2 ^ 63 := by
    have := steady.signed
    omega
  have standing : r.At content f.offset := by
    obtain ⟨content', readable', at_⟩ := steady.opened r handle
    cases readable.symm.trans readable'
    exact at_
  have served (r₁ : BufReader) (at_ : r₁.At content offset)
      (sought : (if offset ≠ f.offset then r.seek offset else (r, .ok ())) = (r₁, .ok ())) :
      (f.readHandleAt content n offset r).1.Steady disk ∧
        f.Relisted (f.readHandleAt content n offset r).1 ∧
        (f.readHandleAt content n offset r).2 = .ok ((content.drop offset).take n) := by
    obtain ⟨r₂, read, after⟩ := at_.readExact (n := n) (by omega)
    simp only [LocalFile.readHandleAt, sought, read]
    split_ifs
    · exact ⟨⟨fun _ => rfl, nofun, steady.long, steady.signed⟩, ⟨none, 0, rfl⟩, rfl⟩
    · refine ⟨⟨nofun, ?_, steady.long, steady.signed⟩, ⟨some r₂, offset + n, rfl⟩, rfl⟩
      rintro r ⟨⟩
      exact ⟨content, readable, after⟩
  by_cases same : offset = f.offset
  · exact served r (same ▸ standing) (by simp [same])
  · refine served ⟨offset, []⟩ (BufReader.at_empty content offset) ?_
    simp only [ne_eq, same, not_false_eq_true, if_true, BufReader.seek, small]

theorem Steady.readExactAt (steady : f.Steady disk) (inside : offset + n ≤ f.size.toNat) :
    (f.readExactAt disk n offset).1.Steady disk ∧ f.Relisted (f.readExactAt disk n offset).1 ∧
      ∀ content, f.isDir = false → disk.content f.path = some content →
        (f.readExactAt disk n offset).2 = .ok ((content.drop offset).take n) := by
  obtain ⟨loaded, relisted⟩ := steady.loadHandle
  have opens := @loadHandle_of_file disk f
  unfold LocalFile.readExactAt
  generalize f.loadHandle disk = result at loaded relisted opens
  obtain ⟨f', outcome⟩ := result
  obtain ⟨handle, offset', rfl⟩ := relisted
  cases outcome with
  | error err =>
      refine ⟨loaded, ⟨handle, offset', rfl⟩, ?_⟩
      intro content isFile readable
      cases (opens isFile readable).1
  | ok =>
      cases handle with
      | none =>
          refine ⟨loaded, ⟨none, offset', rfl⟩, ?_⟩
          intro content isFile readable
          cases (opens isFile readable).2
      | some r =>
          obtain ⟨content, readable, -⟩ := loaded.opened r rfl
          obtain ⟨after, ⟨handle', offset'', relisted⟩, answer⟩ :=
            loaded.readHandleAt rfl readable inside
          dsimp only at readable ⊢
          rw [readable, Option.getD_some]
          refine ⟨after, ⟨handle', offset'', relisted⟩, ?_⟩
          rintro content' - ⟨⟩
          exact answer

end LocalFile

end RemoteControl.Clipboard
