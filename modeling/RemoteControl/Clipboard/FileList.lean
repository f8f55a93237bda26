import Mathlib.Data.List.DropRight
import RemoteControl.Clipboard.LocalFile
import RemoteControl.Utf16

/-! # Lists of files

A list of copied files is sent as a count and one descriptor of 592 bytes for each file,
written by `LocalFile::as_bin` and read by `FileDescription::parse_file_descriptor`. The
name field holds 260 units of UTF-16. The reader takes backslashes for separators, and
the writer puts a replacement character where a name is not text, so that not every name
comes back as it was.
-/

namespace RemoteControl.Clipboard

namespace OsText

def sep : OsChar := .char '/'

/-- The text between the separators. -/
def segments (path : OsText) : List OsText := path.splitOnP (· = sep)

/-- Repeated separators and `.` in the middle of a path are no components. -/
def isBlank (segment : OsText) : Bool := segment = [] || segment = [.char '.']

/-- `std::path::Component`, with a file name or `..` as its text. -/
inductive Component where
  | root
  | cur
  | name (text : OsText)
  deriving DecidableEq

/-- What a path begins with, if it is not a name. -/
def start (path : OsText) : List Component :=
  if path.head? = some sep then [.root]
  else if path.segments.head? = some [.char '.'] then [.cur]
  else []

/-- The segments after the start. -/
def body (path : OsText) : List OsText :=
  if path.start = [] then path.segments else path.segments.tail

def components (path : OsText) : List Component :=
  path.start ++ (path.body.filter (!isBlank ·)).map .name

/-- The segments after the first `k` components. -/
def dropComponents : Nat → List OsText → List OsText
  | 0, rest => rest
  | _ + 1, [] => []
  | k + 1, s :: rest => if isBlank s then dropComponents (k + 1) rest else dropComponents k rest

/-- `Components::as_path` after the first `k` components were taken: blank segments at the
    ends are left out. -/
def asPath (path : OsText) (k : Nat) : OsText :=
  if k = 0 then
    match path.start with
    | [.root] => sep :: [sep].intercalate (path.body.rdropWhile isBlank)
    | [.cur] => [sep].intercalate ([.char '.'] :: path.body.rdropWhile isBlank)
    | _ => [sep].intercalate (path.body.rdropWhile isBlank)
  else
    let rest := dropComponents (k - path.start.length) path.body
    [sep].intercalate ((rest.dropWhile isBlank).rdropWhile isBlank)

/-- `Path::strip_prefix` -/
def stripPrefix (path base : OsText) : Option OsText :=
  if base.components <+: path.components then some (path.asPath base.components.length) else none

end OsText

namespace LocalFile

/-- The path relative to the folder the files were copied from. -/
def relativePath (f : LocalFile) : OsText := (f.path.stripPrefix f.relativeRoot).getD f.path

/-- 1601-01-01 + `LDAP_EPOCH_DELTA` * 100 ns = 1970-01-01 -/
def ldapEpochDelta : Nat := 116444772610000000

def flagsFdAttributes : Nat := 0x04
def flagsFdSize : Nat := 0x40
def flagsFdLastWrite : Nat := 0x20
def flagsFdProgressui : Nat := 0x4000
def flagsFdUnixMode : Nat := 0x08

def fileAttributes (f : LocalFile) : Nat :=
  (if f.readOnly then 0x1 else 0) ||| (if f.hidden then 0x2 else 0) |||
    (if f.system then 0x4 else 0) ||| (if f.isDir then 0x10 else 0) |||
    (if f.archive then 0x20 else 0) ||| (if f.normal then 0x80 else 0)

/-- In 100 ns since 1601; a time before 1970 counts as 1970, and the nanoseconds are cut to
    64 bits. -/
def win32Time (f : LocalFile) : Nat :=
  f.lastWriteTime.toNat % 2 ^ 64 / 100 + ldapEpochDelta

def flags : Nat :=
  flagsFdSize ||| flagsFdLastWrite ||| flagsFdAttributes ||| flagsFdProgressui ||| flagsFdUnixMode

/-- The descriptor of a file. A name of more than 520 bytes makes the length of the padding
    negative, which panics. -/
def asBin (f : LocalFile) : Option Bytes :=
  let name := Utf16.toBytes (Utf16.encode f.relativePath.toStringLossy)
  if 520 < name.length then none
  else
    some (toLe 4 flags ++ List.replicate 32 0 ++ toLe 4 f.fileAttributes ++
      List.replicate 12 0 ++ toLe 4 f.perm.toNat ++ toLe 8 f.win32Time ++
      toLe 4 (f.size.toNat / 2 ^ 32) ++ toLe 4 (f.size.toNat % 2 ^ 32) ++
      name ++ List.replicate (520 - name.length) 0)

end LocalFile

/-- The descriptors one after the other. -/
def putFiles : List LocalFile → Option Bytes
  | [] => some []
  | f :: rest =>
      match f.asBin, putFiles rest with
      | some data, some later => some (data ++ later)
      | _, _ => none

def buildFileListPdu (files : List LocalFile) : Option Bytes :=
  (putFiles files).map (toLe 4 files.length ++ ·)

inductive FileType where
  | file
  | directory
  | symlink
  deriving DecidableEq

structure FileDescription where
  connId : Int32
  name : List Char
  kind : FileType
  atime : Nat
  lastModified : Nat
  lastMetadataChanged : Nat
  creationTime : Nat
  size : Nat
  perm : Nat
  deriving DecidableEq

/-- `get_u32_le` and the like: a number and what follows it. -/
def getLe (width : Nat) (bytes : Bytes) : Nat × Bytes := (ofLe (bytes.take width), bytes.drop width)

def permOf (flags attributes perm : Nat) : Nat :=
  if flags &&& LocalFile.flagsFdUnixMode ≠ 0 then perm
  else if attributes = 0x80 then 0o755
  else if attributes &&& 0x01 ≠ 0 then 0o444
  else if attributes &&& 0x02 ≠ 0 then 0o400
  else if attributes &&& 0x10 ≠ 0 then 0o755
  else 0o644

/-- Nanoseconds since 1970. -/
def lastModifiedOf (flags lastWriteTime : Nat) : Nat :=
  if flags &&& LocalFile.flagsFdLastWrite ≠ 0 ∧ LocalFile.ldapEpochDelta ≤ lastWriteTime then
    (lastWriteTime - LocalFile.ldapEpochDelta) * 100 % 2 ^ 64
  else 0

/-- A backslash is a separator on the other side. -/
def separated (c : Char) : Char := if c = '\\' then '/' else c

/-- `replace('\\', "/")`, then `trim_end_matches('\0')` -/
def cleanName (text : List Char) : List Char :=
  (text.map separated).rdropWhile (· = '\x00')

def parseFileDescriptor (connId : Int32) (bytes : Bytes) :
    Except CliprdrError FileDescription × Bytes :=
  let (flags, bytes) := getLe 4 bytes
  let bytes := bytes.drop 32
  let (attributes, bytes) := getLe 4 bytes
  let bytes := bytes.drop 12
  let (mode, bytes) := getLe 4 bytes
  let (lastWriteTime, bytes) := getLe 8 bytes
  let (fileSizeHigh, bytes) := getLe 4 bytes
  let (fileSizeLow, bytes) := getLe 4 bytes
  let block := bytes.take 520
  let bytes := bytes.drop 520
  match Utf16.decodeLe block with
  | none => (.error .conversionFailure, bytes)
  | some text =>
      if flags &&& LocalFile.flagsFdAttributes = 0 then
        (.error (.invalidRequest "file description must have valid attributes"), bytes)
      else
        let lastModified := lastModifiedOf flags lastWriteTime
        (.ok
          { connId := connId
            name := cleanName text
            kind := if attributes &&& 0x10 ≠ 0 then .directory else .file
            atime := lastModified
            lastModified := lastModified
            lastMetadataChanged := lastModified
            creationTime := lastModified
            size := fileSizeHigh * 2 ^ 32 + fileSizeLow
            perm := permOf flags attributes (mode % 2 ^ 16) }, bytes)

/-- The loop of `parse_file_descriptors`. -/
def parseLoop (connId : Int32) : Nat → Bytes → Except CliprdrError (List FileDescription)
  | 0, _ => .ok []
  | count + 1, bytes =>
      match parseFileDescriptor connId bytes with
      | (.error e, _) => .error e
      | (.ok desc, bytes) =>
          match parseLoop connId count bytes with
          | .error e => .error e
          | .ok files => .ok (desc :: files)

def parseFileDescriptors (pdu : Bytes) (connId : Int32) :
    Except CliprdrError (List FileDescription) :=
  if pdu.length < 4 then
    .error (.invalidRequest "file descriptor request with infficient length")
  else
    let (count, data) := getLe 4 pdu
    if data.length = 0 ∧ count = 0 then .ok []
    else if data.length ≠ 592 * count then
      .error (.invalidRequest "file descriptor request with invalid length")
    else parseLoop connId count data

/-! ## The round trip -/

/-- What a file is described as on the other side: backslashes in its name have become
    separators, what is no text replacement characters, and its time is in steps of 100 ns
    since 1970. -/
def LocalFile.description (connId : Int32) (f : LocalFile) : FileDescription where
  connId := connId
  name := f.relativePath.toStringLossy.map separated
  kind := if f.isDir then .directory else .file
  atime := f.lastWriteTime.toNat / 100 * 100
  lastModified := f.lastWriteTime.toNat / 100 * 100
  lastMetadataChanged := f.lastWriteTime.toNat / 100 * 100
  creationTime := f.lastWriteTime.toNat / 100 * 100
  size := f.size.toNat
  perm := f.perm.toNat

/-- A file that fits a descriptor: its name has at most 260 units and no null character, its
    mode 16 bits and its time 64. -/
structure LocalFile.Fits (f : LocalFile) : Prop where
  short : (Utf16.encode f.relativePath.toStringLossy).length ≤ 260
  text : '\x00' ∉ f.relativePath.toStringLossy
  mode : f.perm.toNat < 2 ^ 16
  time : f.lastWriteTime < 2 ^ 64

theorem getLe_append (width n : Nat) (rest : Bytes) :
    getLe width (toLe width n ++ rest) = (n % 256 ^ width, rest) := by
  rw [getLe, List.take_left' (length_toLe width n), List.drop_left' (length_toLe width n), ofLe_toLe]

theorem drop_zeros (k : Nat) (rest : Bytes) : (List.replicate k 0 ++ rest).drop k = rest :=
  List.drop_left' (List.length_replicate ..)

theorem separated_ne_null {c : Char} (visible : c ≠ '\x00') : separated c ≠ '\x00' := by
  unfold separated
  split_ifs
  · decide
  · exact visible

/-- The padding is taken off again. -/
theorem cleanName_padded {name : List Char} (text : '\x00' ∉ name) (k : Nat) :
    cleanName (name ++ List.replicate k '\x00') = name.map separated := by
  unfold cleanName
  induction k with
  | zero =>
      rw [List.replicate_zero, List.append_nil, List.rdropWhile_eq_self_iff]
      intro nonempty last
      have member := List.getLast_mem nonempty
      obtain ⟨c, inName, same⟩ := List.mem_map.mp member
      refine separated_ne_null (c := c) (fun null => text (null ▸ inName)) ?_
      rw [same]
      exact of_decide_eq_true last
  | succ k ih =>
      rw [List.replicate_succ', ← List.append_assoc, List.map_append, List.map_singleton,
        List.rdropWhile_concat_pos _ _ _ rfl]
      exact ih

theorem attributes_directory (f : LocalFile) : f.fileAttributes &&& 0x10 ≠ 0 ↔ f.isDir = true := by
  unfold LocalFile.fileAttributes
  generalize f.readOnly = r, f.hidden = h, f.system = s, f.isDir = d, f.archive = a, f.normal = n
  revert r h s d a n
  decide

theorem fileAttributes_lt (f : LocalFile) : f.fileAttributes < 256 ^ 4 := by
  unfold LocalFile.fileAttributes
  generalize f.readOnly = r, f.hidden = h, f.system = s, f.isDir = d, f.archive = a, f.normal = n
  revert r h s d a n
  decide

section Descriptor

variable {f : LocalFile}

theorem LocalFile.Fits.asBin (fits : f.Fits) :
    ∃ k, (Utf16.toBytes (Utf16.encode f.relativePath.toStringLossy)).length + 2 * k = 520 ∧
      f.asBin = some (toLe 4 LocalFile.flags ++ List.replicate 32 0 ++ toLe 4 f.fileAttributes ++
        List.replicate 12 0 ++ toLe 4 f.perm.toNat ++ toLe 8 f.win32Time ++
        toLe 4 (f.size.toNat / 2 ^ 32) ++ toLe 4 (f.size.toNat % 2 ^ 32) ++
        (Utf16.toBytes (Utf16.encode f.relativePath.toStringLossy) ++ List.replicate (2 * k) 0)) := by
  have short := fits.short
  have length := Utf16.length_toBytes (Utf16.encode f.relativePath.toStringLossy)
  refine ⟨260 - (Utf16.encode f.relativePath.toStringLossy).length, by omega, ?_⟩
  have padding : 520 - (Utf16.toBytes (Utf16.encode f.relativePath.toStringLossy)).length =
      2 * (260 - (Utf16.encode f.relativePath.toStringLossy).length) := by omega
  unfold LocalFile.asBin
  dsimp only
  rw [if_neg (by omega), padding, List.append_assoc _ (Utf16.toBytes _)]

theorem win32Time_lt (f : LocalFile) : f.win32Time < 256 ^ 8 := by
  unfold LocalFile.win32Time LocalFile.ldapEpochDelta
  omega

/-- The time is read as it was written, in steps of 100 ns. -/
theorem lastModifiedOf_win32Time (fits : f.Fits) :
    lastModifiedOf LocalFile.flags f.win32Time = f.lastWriteTime.toNat / 100 * 100 := by
  have time := fits.time
  have small : f.lastWriteTime.toNat < 2 ^ 64 := by omega
  have late : LocalFile.ldapEpochDelta ≤ f.win32Time := Nat.le_add_left ..
  unfold lastModifiedOf
  rw [if_pos ⟨by decide, late⟩, LocalFile.win32Time, Nat.mod_eq_of_lt small, Nat.add_sub_cancel]
  omega

theorem parseFileDescriptor_asBin (fits : f.Fits) (connId : Int32) :
    ∃ data, f.asBin = some data ∧ data.length = 592 ∧
      ∀ rest, parseFileDescriptor connId (data ++ rest) = (.ok (f.description connId), rest) := by
  obtain ⟨k, whole, bin⟩ := fits.asBin
  refine ⟨_, bin, ?_, ?_⟩
  · simp only [List.length_append, length_toLe, List.length_replicate]
    omega
  · intro rest
    have block := Utf16.decodeLe_padded f.relativePath.toStringLossy k
    have length : (Utf16.toBytes (Utf16.encode f.relativePath.toStringLossy) ++
        List.replicate (2 * k) 0).length = 520 := by
      rw [List.length_append, List.length_replicate]
      exact whole
    generalize Utf16.toBytes (Utf16.encode f.relativePath.toStringLossy) ++
      List.replicate (2 * k) 0 = name at block length
    have flags : LocalFile.flags % 256 ^ 4 = LocalFile.flags := rfl
    unfold parseFileDescriptor
    simp only [List.append_assoc, getLe_append, drop_zeros, List.take_left' length,
      List.drop_left' length, block, cleanName_padded fits.text, flags,
      Nat.mod_eq_of_lt (fileAttributes_lt f), Nat.mod_eq_of_lt (win32Time_lt f),
      lastModifiedOf_win32Time fits]
    have valid : ¬ LocalFile.flags &&& LocalFile.flagsFdAttributes = 0 := by decide
    have size : f.size.toNat / 2 ^ 32 % 256 ^ 4 * 2 ^ 32 + f.size.toNat % 2 ^ 32 % 256 ^ 4 =
        f.size.toNat := by
      have := f.size.toNat_lt
      omega
    have perm : permOf LocalFile.flags f.fileAttributes (f.perm.toNat % 256 ^ 4 % 2 ^ 16) =
        f.perm.toNat := by
      have := fits.mode
      rw [permOf, if_pos (by decide)]
      omega
    simp only [valid, if_false, size, perm, attributes_directory]
    rfl

end Descriptor

theorem putFiles_parse (connId : Int32) {files : List LocalFile} (fits : ∀ f ∈ files, f.Fits) :
    ∃ data, putFiles files = some data ∧ data.length = 592 * files.length ∧
      parseLoop connId files.length data = .ok (files.map (LocalFile.description connId)) := by
  induction files with
  | nil => exact ⟨[], rfl, rfl, rfl⟩
  | cons f rest ih =>
      obtain ⟨later, put, length, parsed⟩ :=
        ih fun g member => fits g (List.mem_cons_of_mem f member)
      obtain ⟨data, bin, size, parse⟩ :=
        parseFileDescriptor_asBin (fits f (List.mem_cons_self ..)) connId
      refine ⟨data ++ later, ?_, ?_, ?_⟩
      · simp only [putFiles, bin, put]
      · rw [List.length_append, size, length, List.length_cons]
        omega
      · simp only [List.length_cons, parseLoop, parse later, parsed, List.map_cons]

/-- A list of files that fit their descriptors takes 592 bytes for each, and comes back with
    the same kinds, sizes and modes, and with the names and times as described. -/
theorem file_list_round_trip (files : List LocalFile) (connId : Int32)
    (few : files.length < 2 ^ 32) (fits : ∀ f ∈ files, f.Fits) :
    ∃ pdu, buildFileListPdu files = some pdu ∧ pdu.length = 4 + 592 * files.length ∧
      parseFileDescriptors pdu connId = .ok (files.map (LocalFile.description connId)) := by
  obtain ⟨data, put, length, parsed⟩ := putFiles_parse connId fits
  refine ⟨toLe 4 files.length ++ data, by rw [buildFileListPdu, put]; rfl, ?_, ?_⟩
  · rw [List.length_append, length_toLe, length]
  · have count : files.length % 256 ^ 4 = files.length := Nat.mod_eq_of_lt few
    have enough : ¬ (toLe 4 files.length ++ data).length < 4 := by
      rw [List.length_append, length_toLe]
      omega
    simp only [parseFileDescriptors, if_neg enough, getLe_append, count, length, ne_eq,
      not_true_eq_false, if_false]
    split_ifs with empty
    · rw [List.length_eq_zero_iff.mp empty.2]
      rfl
    · exact parsed

/-- A file of 5 bytes in the folder `/d`. -/
def inFolder (name : OsText) (time : Int) : LocalFile where
  relativeRoot := [.char '/', .char 'd']
  path := [.char '/', .char 'd', .char '/'] ++ name
  handle := none
  offset := 0
  size := 5
  lastWriteTime := time
  isDir := false
  perm := 0o644
  readOnly := false
  hidden := false
  system := false
  archive := false
  normal := true

theorem inFolder_fits : (inFolder [.char 'a'] 250).Fits where
  short := by decide
  text := by decide
  mode := by decide
  time := by decide

theorem one_file_round_trip :
    ∃ pdu, buildFileListPdu [inFolder [.char 'a'] 250] = some pdu ∧ pdu.length = 596 ∧
      parseFileDescriptors pdu 0 =
        .ok [⟨0, ['a'], .file, 200, 200, 200, 200, 5, 0o644⟩] := by
  obtain ⟨pdu, built, length, parsed⟩ := file_list_round_trip [inFolder [.char 'a'] 250] 0 (by decide)
    (by
      intro f member
      rw [List.mem_singleton.mp member]
      exact inFolder_fits)
  exact ⟨pdu, built, length, parsed⟩

/-- As many files as the count has no number for: the reader expects none. -/
theorem too_many_files {f : LocalFile} (fits : f.Fits) (connId : Int32) :
    ∃ pdu, buildFileListPdu (List.replicate (2 ^ 32) f) = some pdu ∧
      parseFileDescriptors pdu connId =
        .error (.invalidRequest "file descriptor request with invalid length") := by
  have all : ∀ g ∈ List.replicate (2 ^ 32) f, g.Fits := by
    intro g member
    rw [List.eq_of_mem_replicate member]
    exact fits
  obtain ⟨data, put, length, -⟩ := putFiles_parse connId all
  rw [List.length_replicate] at length
  refine ⟨toLe 4 (2 ^ 32) ++ data, by rw [buildFileListPdu, put, List.length_replicate]; rfl, ?_⟩
  have enough : ¬ (toLe 4 (2 ^ 32) ++ data).length < 4 := by
    rw [List.length_append, length_toLe]
    omega
  have count : 2 ^ 32 % 256 ^ 4 = 0 := by decide
  simp only [parseFileDescriptors, if_neg enough, getLe_append, count, length]
  rfl

/-- Names with a backslash or with bytes that are no text come back as other names. A name
    of 261 units is no descriptor at all, a time of 2^64 ns comes back as 1970, and a list of
    2^32 files is refused. -/
theorem some_files_come_back_changed :
    (inFolder [.char 'a', .char '\\', .char 'b'] 0).relativePath.toStringLossy = ['a', '\\', 'b'] ∧
      (buildFileListPdu [inFolder [.char 'a', .char '\\', .char 'b'] 0]).map
          (parseFileDescriptors · 0) =
        some (.ok [⟨0, ['a', '/', 'b'], .file, 0, 0, 0, 0, 5, 0o644⟩]) ∧
      (buildFileListPdu [inFolder [.invalid [0xFF]] 0]).map (parseFileDescriptors · 0) =
        some (.ok [⟨0, [replacementCharacter], .file, 0, 0, 0, 0, 5, 0o644⟩]) ∧
      buildFileListPdu [inFolder (List.replicate 261 (.char 'a')) 0] = none ∧
      (buildFileListPdu [inFolder [.char 'a'] (2 ^ 64)]).map (parseFileDescriptors · 0) =
        some (.ok [⟨0, ['a'], .file, 0, 0, 0, 0, 5, 0o644⟩]) ∧
      ∃ pdu, buildFileListPdu (List.replicate (2 ^ 32) (inFolder [.char 'a'] 250)) = some pdu ∧
        parseFileDescriptors pdu 0 =
          .error (.invalidRequest "file descriptor request with invalid length") :=
  ⟨by decide, by decide +kernel, by decide +kernel, by decide +kernel, by decide +kernel,
    too_many_files inFolder_fits 0⟩

end RemoteControl.Clipboard
