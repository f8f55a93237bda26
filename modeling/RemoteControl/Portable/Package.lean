import Mathlib.Data.List.Nodup
import RemoteControl.LittleEndian
import RemoteControl.Utf8

/-! # The package of a portable build

`write_package_metadata` of `generate.py` writes the files of a portable build into one,
and `BinaryReader::read` takes them apart again. The end of the files is marked by the
same eight bytes that the package begins with. The reader looks for them where the next
file would begin, with the length of its path.
-/

namespace RemoteControl.Portable

open Utf8

/-- `LENGTH`, `length_count` -/
def lengthCount : Nat := 4

/-- `IDENTIFIER_LENGTH` -/
def identifierLength : Nat := 8

/-- `MD5_LENGTH` -/
def md5Length : Nat := 32

def identifier : List Char := "rustdesk".toList

structure BinaryData where
  md5Code : List UInt8
  raw : List UInt8
  path : List Char
  deriving DecidableEq

inductive Panic where
  /-- `bin data invalid!` -/
  | dataInvalid
  /-- `bin file is not valid!` -/
  | fileInvalid
  /-- An index or the end of a slice is out of range. -/
  | outOfRange
  deriving DecidableEq

/-- `data[i]` -/
def byteAt (data : List UInt8) (i : Nat) : Except Panic UInt8 :=
  match data[i]? with
  | some b => .ok b
  | none => .error .outOfRange

/-- `data[lo..hi]` -/
def slice (data : List UInt8) (lo hi : Nat) : Except Panic (List UInt8) :=
  if lo ≤ hi ∧ hi ≤ data.length then .ok ((data.drop lo).take (hi - lo)) else .error .outOfRange

/-- `u32::from_be_bytes` of the four bytes from `i` on. -/
def u32At (data : List UInt8) (i : Nat) : Except Panic Nat := do
  let a ← byteAt data i
  let b ← byteAt data (i + 1)
  let c ← byteAt data (i + 2)
  let d ← byteAt data (i + 3)
  return ofBe [a, b, c, d]

/-- The file at `base`, and where the next one begins. -/
def readFile (data : List UInt8) (base : Nat) : Except Panic (BinaryData × Nat) := do
  let pathLength ← u32At data base
  let pathAt := base + lengthCount
  let path ← slice data pathAt (pathAt + pathLength)
  let sizeAt := pathAt + pathLength
  let fileLength ← u32At data sizeAt
  let rawAt := sizeAt + lengthCount
  let raw ← slice data rawAt (rawAt + fileLength)
  let md5At := rawAt + fileLength
  let md5 ← slice data md5At (md5At + md5Length)
  return ({ md5Code := md5, raw, path := fromUtf8Lossy path }, md5At + md5Length)

variable {data : List UInt8} {i : Nat} {table : Md5Table} {file : BinaryData}

theorem slice_ok {part : List UInt8} {lo hi : Nat} (read : slice data lo hi = .ok part) :
    lo ≤ hi ∧ hi ≤ data.length := by
  unfold slice at read
  split at read
  · assumption
  · cases read

theorem readFile_advances {base next : Nat} (read : readFile data base = .ok (file, next)) :
    base < next ∧ next ≤ data.length := by
  simp only [readFile, bind, Except.bind, pure, Except.pure] at read
  repeat' split at read
  all_goals cases read
  have inside := slice_ok (by assumption : slice data _ (_ + md5Length) = _)
  simp only [md5Length, lengthCount] at inside ⊢
  omega

/-- The loop: files up to the identifier, and where the executable begins. -/
def readFiles (data : List UInt8) (base : Nat) (parsed : List BinaryData) :
    Except Panic (List BinaryData × Nat) :=
  match slice data base (base + identifierLength) with
  | .error panic => .error panic
  | .ok iden =>
      if fromUtf8Lossy iden = identifier then .ok (parsed, base + identifierLength)
      else
        match _read : readFile data base with
        | .error panic => .error panic
        | .ok (file, next) => readFiles data next (parsed ++ [file])
termination_by data.length - base
decreasing_by
  have := readFile_advances _read
  omega

/-- `BinaryReader::read` -/
def read (data : List UInt8) : Except Panic (List BinaryData × List Char) := do
  if data.length ≤ identifierLength then throw .dataInvalid
  let iden ← slice data 0 identifierLength
  if fromUtf8Lossy iden ≠ identifier then throw .fileInvalid
  let (parsed, base) ← readFiles data identifierLength []
  let executable ← slice data base data.length
  return (parsed, fromUtf8Lossy executable)

/-- The `dict` of `generate_md5_table`: for each path the compressed content and the md5
    code, in the order of insertion. -/
structure Md5Table where
  items : List (List Char × List UInt8 × List UInt8)
  keysNodup : (items.map Prod.fst).Nodup

namespace Md5Table

def keys (table : Md5Table) : List (List Char) := table.items.map Prod.fst

/-- `md5_table[path]` -/
def get (table : Md5Table) (path : List Char) : Option (List UInt8 × List UInt8) :=
  table.items.lookup path

end Md5Table

/-- `to_bytes`, which raises an error when the number does not fit. -/
def toBytes (n : Nat) : Option (List UInt8) :=
  if n < 256 ^ lengthCount then some (toBe lengthCount n) else none

/-- What the loop writes for one path, after `f`. -/
def writeFile (table : Md5Table) (f : List UInt8) (path : List Char) : Option (List UInt8) := do
  let (compressedData, md5Code) ← table.get path
  let path := encode path
  let pathLength ← toBytes path.length
  let dataLength ← toBytes compressedData.length
  return f ++ pathLength ++ path ++ dataLength ++ compressedData ++ md5Code

/-- `write_package_metadata`: the bytes of `data.bin`. -/
def writePackageMetadata (table : Md5Table) (exe : List Char) : Option (List UInt8) := do
  let f ← table.keys.foldlM (writeFile table) (encode identifier)
  return f ++ encode identifier ++ encode exe

/-! ## Reading what was written -/

/-- From `i` on there is `rest`. -/
def From (data : List UInt8) (i : Nat) (rest : List UInt8) : Prop :=
  ∃ before, data = before ++ rest ∧ before.length = i

namespace From

variable {data part rest : List UInt8} {i n : Nat}

theorem next (here : From data i (part ++ rest)) (len : part.length = n) :
    From data (i + n) rest := by
  obtain ⟨before, rfl, rfl⟩ := here
  exact ⟨before ++ part, by simp, by simp [len]⟩

theorem tail {b : UInt8} (here : From data i (b :: rest)) : From data (i + 1) rest := by
  obtain ⟨before, rfl, rfl⟩ := here
  exact ⟨before ++ [b], by simp, by simp⟩

theorem slice (here : From data i (part ++ rest)) (len : part.length = n) :
    slice data i (i + n) = .ok part := by
  obtain ⟨before, rfl, rfl⟩ := here
  simp [Portable.slice, ← len]

theorem slice_end (here : From data i rest) : Portable.slice data i data.length = .ok rest := by
  obtain ⟨before, rfl, rfl⟩ := here
  simp [Portable.slice]

theorem byteAt {b : UInt8} (here : From data i (b :: rest)) : byteAt data i = .ok b := by
  obtain ⟨before, rfl, rfl⟩ := here
  simp [Portable.byteAt]

theorem u32At (here : From data i (toBe lengthCount n ++ rest)) (fits : n < 256 ^ lengthCount) :
    u32At data i = .ok n := by
  obtain ⟨a, b, c, d, bytes⟩ : ∃ a b c d, toBe lengthCount n = [a, b, c, d] := ⟨_, _, _, _, rfl⟩
  have value : ofBe [a, b, c, d] = n := by
    rw [← bytes]
    exact ofBe_toBe_of_lt fits
  rw [bytes] at here
  simp only [Portable.u32At, bind, Except.bind, pure, Except.pure, here.byteAt, here.tail.byteAt,
    here.tail.tail.byteAt, here.tail.tail.tail.byteAt, value]

end From

/-- What is written for one file. -/
def record (file : BinaryData) : List UInt8 :=
  toBe lengthCount (encode file.path).length ++ encode file.path ++
    toBe lengthCount file.raw.length ++ file.raw ++ file.md5Code

/-- The lengths that the format has room for, where a path never begins like the identifier. -/
structure Fits (file : BinaryData) : Prop where
  path : (encode file.path).length < 2 ^ 24
  raw : file.raw.length < 2 ^ 32
  md5Code : file.md5Code.length = md5Length

theorem encode_identifier :
    encode identifier = [114, 117, 115, 116, 100, 101, 115, 107] := by decide

theorem length_identifier : (encode identifier).length = identifierLength := by
  rw [encode_identifier]
  rfl

/-- The length of a path begins with a zero, the identifier with a letter. -/
theorem ne_identifier (bytes : List UInt8) : fromUtf8Lossy (0 :: bytes) ≠ identifier := by
  intro same
  have first : (fromUtf8Lossy (0 :: bytes)).head? = some (Char.ofNat 0) := rfl
  rw [same] at first
  exact absurd first (by decide)

theorem length_record (fits : Fits file) : identifierLength ≤ (record file).length := by
  simp only [record, List.length_append, length_toBe, fits.md5Code, identifierLength, md5Length]
  omega

theorem record_cons (fits : Fits file) : ∃ bytes, record file = 0 :: bytes := by
  have first : toBe lengthCount (encode file.path).length = 0 :: toBe 3 (encode file.path).length :=
    toBe_succ_of_lt fits.path
  rw [record, first]
  exact ⟨_, rfl⟩

theorem readFile_record {rest : List UInt8} (fits : Fits file)
    (here : From data i (record file ++ rest)) :
    readFile data i = .ok (file, i + (record file).length) := by
  have pathFits : (encode file.path).length < 256 ^ lengthCount :=
    Nat.lt_trans fits.path (by decide)
  simp only [record, List.append_assoc] at here
  have path := here.next (length_toBe _ _)
  have size := path.next rfl
  have raw := size.next (length_toBe _ _)
  have md5 := raw.next rfl
  simp only [readFile, bind, Except.bind, pure, Except.pure, here.u32At pathFits, path.slice rfl,
    size.u32At fits.raw, raw.slice rfl, md5.slice fits.md5Code, fromUtf8Lossy_encode]
  simp [record, fits.md5Code, Nat.add_assoc]

theorem readFiles_of_file {iden : List UInt8} {next : Nat}
    (ahead : slice data i (i + identifierLength) = .ok iden)
    (other : fromUtf8Lossy iden ≠ identifier) (read : readFile data i = .ok (file, next))
    (parsed : List BinaryData) :
    readFiles data i parsed = readFiles data next (parsed ++ [file]) := by
  rw [readFiles, ahead]
  simp only [if_neg other]
  split <;> simp_all

/-- The loop reads the files in front of an identifier, and stops behind it. -/
theorem readFiles_records {rest : List UInt8} {files : List BinaryData}
    (fits : ∀ file ∈ files, Fits file)
    (here : From data i (files.flatMap record ++ (encode identifier ++ rest)))
    (parsed : List BinaryData) :
    ∃ j, readFiles data i parsed = .ok (parsed ++ files, j) ∧ From data j rest := by
  induction files generalizing i parsed with
  | nil =>
      rw [List.flatMap_nil, List.nil_append] at here
      have iden := here.slice length_identifier
      refine ⟨i + identifierLength, ?_, here.next length_identifier⟩
      rw [readFiles, iden]
      simp [fromUtf8Lossy_encode]
  | cons file files ih =>
      have fit := fits file (by simp)
      rw [List.flatMap_cons, List.append_assoc] at here
      obtain ⟨j, read, end_⟩ := ih (fun file' member => fits file' (by simp [member]))
        (here.next rfl) (parsed ++ [file])
      refine ⟨j, ?_, end_⟩
      have cut : record file ++ (files.flatMap record ++ (encode identifier ++ rest)) =
          (record file).take identifierLength ++ ((record file).drop identifierLength ++
            (files.flatMap record ++ (encode identifier ++ rest))) := by
        rw [← List.append_assoc _ ((record file).drop _), List.take_append_drop]
      have iden := (cut ▸ here).slice (List.length_take_of_le (length_record fit))
      obtain ⟨bytes, cons⟩ := record_cons fit
      have other : fromUtf8Lossy ((record file).take identifierLength) ≠ identifier := by
        rw [cons]
        exact ne_identifier _
      rw [readFiles_of_file iden other (readFile_record fit here), read]
      simp

namespace Md5Table

/-- The files of a table as the reader gives them. -/
def files (table : Md5Table) : List BinaryData :=
  table.items.map fun (path, compressedData, md5Code) =>
    { md5Code, raw := compressedData, path }

theorem get_of_mem {table : Md5Table} {path : List Char} {value : List UInt8 × List UInt8}
    (member : (path, value) ∈ table.items) : table.get path = some value := by
  obtain ⟨items, nodup⟩ := table
  simp only [get] at member ⊢
  induction items with
  | nil => cases member
  | cons item items ih =>
      simp only [List.map_cons, List.nodup_cons] at nodup
      cases member with
      | head => exact List.lookup_cons_self
      | tail _ later =>
          have other : path ≠ item.1 := by
            intro same
            exact nodup.1 (List.mem_map.mpr ⟨_, later, same⟩)
          obtain ⟨path', value'⟩ := item
          simp only [List.lookup_cons, beq_false_of_ne other]
          exact ih nodup.2 later

end Md5Table

theorem writeFile_record (fits : Fits file)
    (member : (file.path, file.raw, file.md5Code) ∈ table.items) (f : List UInt8) :
    writeFile table f file.path = some (f ++ record file) := by
  have pathFits : (encode file.path).length < 256 ^ lengthCount :=
    Nat.lt_trans fits.path (by decide)
  have rawFits : file.raw.length < 256 ^ lengthCount := fits.raw
  simp [writeFile, Md5Table.get_of_mem member, toBytes, pathFits, rawFits, record]

theorem writeFiles_records {files : List BinaryData} (fits : ∀ file ∈ files, Fits file)
    (member : ∀ file ∈ files, (file.path, file.raw, file.md5Code) ∈ table.items) (f : List UInt8) :
    (files.map BinaryData.path).foldlM (writeFile table) f = some (f ++ files.flatMap record) := by
  induction files generalizing f with
  | nil => simp
  | cons file files ih =>
      have written := writeFile_record (fits file (by simp)) (member file (by simp)) f
      have rest := ih (fun file' later => fits file' (by simp [later]))
        (fun file' later => member file' (by simp [later])) (f ++ record file)
      simp [written, rest]

theorem writePackageMetadata_eq (fits : ∀ file ∈ table.files, Fits file) (exe : List Char) :
    writePackageMetadata table exe =
      some (encode identifier ++ (table.files.flatMap record ++ (encode identifier ++ encode exe))) := by
  have keys : table.keys = table.files.map BinaryData.path := by
    simp [Md5Table.keys, Md5Table.files, Function.comp_def]
  have member : ∀ file ∈ table.files, (file.path, file.raw, file.md5Code) ∈ table.items := by
    intro file member
    obtain ⟨item, listed, rfl⟩ := List.mem_map.mp member
    exact listed
  simp [writePackageMetadata, keys, writeFiles_records fits member]

/-- Whatever the contents are, the reader gets back what was packed, and no slice is out of
    range. -/
theorem read_writePackageMetadata {table : Md5Table} (fits : ∀ file ∈ table.files, Fits file)
    (exe : List Char) :
    ∃ data, writePackageMetadata table exe = some data ∧ read data = .ok (table.files, exe) := by
  refine ⟨_, writePackageMetadata_eq fits exe, ?_⟩
  generalize packed : encode identifier ++
    (table.files.flatMap record ++ (encode identifier ++ encode exe)) = data
  have start : From data (0 : Nat) data := ⟨[], rfl, rfl⟩
  have begin_ : From data 0 (encode identifier ++
      (table.files.flatMap record ++ (encode identifier ++ encode exe))) := packed.symm ▸ start
  have iden := begin_.slice length_identifier
  have files := begin_.next length_identifier
  rw [Nat.zero_add] at iden files
  obtain ⟨j, parsed, executable⟩ := readFiles_records fits files []
  have long : ¬ data.length ≤ identifierLength := by
    rw [← packed]
    simp only [List.length_append, length_identifier, identifierLength]
    omega
  simp [read, bind, Except.bind, pure, Except.pure, long, iden, parsed, executable.slice_end,
    fromUtf8Lossy_encode]

theorem read_writePackageMetadata_two :
    ∃ data, writePackageMetadata
        ⟨[("./a.txt".toList, encode identifier, List.replicate 32 48),
          ("./b".toList, [], List.replicate 32 49)], by decide⟩ "./a.txt".toList = some data ∧
      read data = .ok ([⟨List.replicate 32 48, encode identifier, "./a.txt".toList⟩,
        ⟨List.replicate 32 49, [], "./b".toList⟩], "./a.txt".toList) := by
  apply read_writePackageMetadata
  intro file member
  simp only [Md5Table.files, List.map_cons, List.map_nil, List.mem_cons, List.not_mem_nil,
    or_false] at member
  rcases member with rfl | rfl <;> exact ⟨by decide, by decide, by decide⟩

end RemoteControl.Portable
