import RemoteControl.Config.Secrets
import RemoteControl.Transfer.Compress

/-! # The cached address book and the cached group

`Ab` and `Group` of `config.rs` keep the last answer of the server in a file each. `store` empties the
file before it compresses, checks and encrypts what goes into it, and `load` deletes a file that it cannot
read.
-/

namespace RemoteControl.Caches

open Secrets (Bytes Text Machine)
open Transfer (Zstd)

/-- The file of each path. -/
abbrev Files := Text → Option Bytes

/-- `serde_json::from_str` into a type with a default. -/
structure Format (α : Type) where
  fromStr : Text → Option α
  default_ : α
  /-- The empty text is no JSON. -/
  empty : fromStr [] = none

/-- What happens to the file during a `store`. -/
structure Outcome where
  /-- `File::create` succeeds. -/
  created : Bool
  /-- How many bytes `write_all` writes before it fails. There is no failure when these are all. -/
  written : Nat

/-- `max_len` -/
def maxLen : Nat := 64 * 1024 * 1024

/-- The key is brought to its length, so `encrypt` does not fail. -/
def symmetricCrypt (m : Machine) (data : Bytes) (encrypt : Bool) : Option Bytes :=
  if encrypt then some (m.sealData data) else m.openData data

section Functions

variable {α : Type} (z : Zstd) (m : Machine) (f : Format α)

/-- What is in the new file when `store` returns. -/
def written (o : Outcome) (json : Text) : Bytes :=
  let data := z.compress (Utf8.encode json)
  if data.length > maxLen then []
  else
    match symmetricCrypt m data true with
    | some data => data.take o.written
    | none => []

def storeAt (path : Text) (o : Outcome) (json : Text) (files : Files) : Files :=
  if o.created then Function.update files path (some (written z m o json)) else files

/-- What `load` makes of a file. -/
def read (data : Bytes) : Option α :=
  (symmetricCrypt m data false).bind fun data => f.fromStr (Utf8.fromUtf8Lossy (z.decompress data))

/-- The value, and the files afterwards. A file that is there can be read. -/
def loadAt (path : Text) (files : Files) : α × Files :=
  match (files path).bind (read z m f) with
  | some value => (value, files)
  | none => (f.default_, Function.update files path none)

end Functions

/-! ## What a file is read as -/

section Reading

variable {α : Type} {z : Zstd} {m : Machine} {f : Format α} {json : Text}

/-- What was sealed is read as what was sealed. -/
theorem read_sealData (data : Bytes) :
    read z m f (m.sealData data) = f.fromStr (Utf8.fromUtf8Lossy (z.decompress data)) := by
  simp [read, symmetricCrypt, Secrets.openData_sealData]

theorem read_compressed (made : z.compressor (Utf8.encode json) ≠ none) :
    read z m f (m.sealData (z.compress (Utf8.encode json))) = f.fromStr json := by
  obtain ⟨out, done⟩ := Option.ne_none_iff_exists'.mp made
  have back : z.decompress (z.compress (Utf8.encode json)) = Utf8.encode json := by
    simp [Zstd.compress, Zstd.decompress, done, z.inverts _ out done]
  rw [read_sealData, back, Utf8.fromUtf8Lossy_encode]

/-- What is sealed after a failure of the compressor opens to nothing, which is no JSON. -/
theorem read_uncompressed (failed : z.compressor (Utf8.encode json) = none) :
    read z m f (m.sealData (z.compress (Utf8.encode json))) = none := by
  have nothing : z.decompress (z.compress (Utf8.encode json)) = [] := by
    rw [Zstd.compress_of_failure failed]
    exact z.noFrame
  rw [read_sealData, nothing]
  exact f.empty

theorem read_of_closed {data : Bytes} (closed : m.openData data = none) : read z m f data = none := by
  simp [read, symmetricCrypt, closed]

/-- An empty file is too short to be opened. -/
theorem read_nil : read z m f [] = none := by
  apply read_of_closed
  cases opened : m.openData [] with
  | none => rfl
  | some data =>
      have short := Secrets.length_of_openData opened
      simp [Secrets.macBytes] at short

end Reading

section Storing

variable {α : Type} (z : Zstd) (m : Machine) (f : Format α)

/-- What `store` seals. -/
def sealed (json : Text) : Bytes := m.sealData (z.compress (Utf8.encode json))

/-- Every step after the file was emptied succeeds. -/
structure Filled (o : Outcome) (json : Text) : Prop where
  compressed : z.compressor (Utf8.encode json) ≠ none
  fits : (z.compress (Utf8.encode json)).length ≤ maxLen
  all : (sealed z m json).length ≤ o.written

/-- Every step succeeds. -/
structure Succeeds (o : Outcome) (json : Text) : Prop extends Filled z m o json where
  created : o.created = true

/-- No beginning of what `store` seals can be opened. -/
def Tamperproof (json : Text) : Prop :=
  ∀ n < (sealed z m json).length, m.openData ((sealed z m json).take n) = none

variable {z m f} {o : Outcome} {json : Text}

theorem written_of_filled (filled : Filled z m o json) : written z m o json = sealed z m json := by
  simp [written, symmetricCrypt, Nat.not_lt.mpr filled.fits]
  exact List.take_of_length_le filled.all

theorem read_written_of_filled (filled : Filled z m o json) :
    read z m f (written z m o json) = f.fromStr json := by
  rw [written_of_filled filled]
  exact read_compressed filled.compressed

/-- A step that fails leaves a file that cannot be read. -/
theorem read_written_of_not_filled (torn : Tamperproof z m json) (fails : ¬Filled z m o json) :
    read z m f (written z m o json) = none := by
  by_cases long : (z.compress (Utf8.encode json)).length > maxLen
  · rw [written, if_pos long]
    exact read_nil
  · have begun : written z m o json = (sealed z m json).take o.written := by
      simp [written, symmetricCrypt, long, sealed]
    rw [begun]
    by_cases all : (sealed z m json).length ≤ o.written
    · rw [List.take_of_length_le all]
      cases made : z.compressor (Utf8.encode json) with
      | none => exact read_uncompressed made
      | some out => exact absurd ⟨by simp [made], Nat.le_of_not_lt long, all⟩ fails
    · exact read_of_closed (torn _ (Nat.lt_of_not_le all))

variable {path : Text} {files : Files}

theorem storeAt_of_created (created : o.created = true) :
    (storeAt z m path o json files) path = some (written z m o json) := by
  simp [storeAt, created]

theorem loadAt_of_read {value : α} (known : (files path).bind (read z m f) = some value) :
    loadAt z m f path files = (value, files) := by
  simp [loadAt, known]

theorem loadAt_of_not_read (unknown : (files path).bind (read z m f) = none) :
    (loadAt z m f path files).2 path = none := by
  simp [loadAt, unknown]

end Storing

inductive Cache where
  | ab
  | group

def Cache.path (appName : Text) : Cache → Text
  | .ab => appName ++ "_ab".toList
  | .group => appName ++ "_group".toList

namespace Ab

variable {α : Type} (z : Zstd) (m : Machine) (f : Format α) (appName : Text)

def store := storeAt z m (Cache.path appName .ab)

def load := loadAt z m f (Cache.path appName .ab)

end Ab

namespace Group

variable {α : Type} (z : Zstd) (m : Machine) (f : Format α) (appName : Text)

def store := storeAt z m (Cache.path appName .group)

def load := loadAt z m f (Cache.path appName .group)

end Group

section Surviving

variable {α : Type} {z : Zstd} {m : Machine} {f : Format α} {o earlierO : Outcome}
  {json earlierJson path appName : Text} {earlier : α} {files : Files}

/-- `loaded` is what `load` gives after the store: a value of one of the two stores, whose file is still
    there because the default was not needed, and that of the later one when it succeeded. -/
structure Survives (z : Zstd) (m : Machine) (f : Format α) (o : Outcome) (json path : Text) (earlier : α)
    (loaded : α × Files) : Prop where
  one : loaded.1 = earlier ∨ f.fromStr json = some loaded.1
  found : loaded.2 path ≠ none
  later : Succeeds z m o json → ∀ value, f.fromStr json = some value → loaded.1 = value

/-- The file was not emptied, or was filled with a text that can be parsed. -/
def Safe (z : Zstd) (m : Machine) (f : Format α) (o : Outcome) (json : Text) : Prop :=
  o.created = false ∨ Succeeds z m o json ∧ f.fromStr json ≠ none

theorem survives_of_kept (known : (files path).bind (read z m f) = some earlier)
    (kept : o.created = false) :
    Survives z m f o json path earlier (loadAt z m f path (storeAt z m path o json files)) := by
  have same : storeAt z m path o json files = files := by simp [storeAt, kept]
  rw [same, loadAt_of_read known]
  refine ⟨.inl rfl, ?_, fun succeeds => ?_⟩
  · intro missing
    have gone : files path = none := missing
    simp [gone] at known
  · have created := succeeds.created
    simp [kept] at created

theorem survives_of_succeeds {value : α} (succeeds : Succeeds z m o json)
    (parsed : f.fromStr json = some value) :
    Survives z m f o json path earlier (loadAt z m f path (storeAt z m path o json files)) := by
  have there : storeAt z m path o json files path = some (written z m o json) :=
    storeAt_of_created succeeds.created
  have known : (storeAt z m path o json files path).bind (read z m f) = some value := by
    rw [there, Option.bind_some, read_written_of_filled succeeds.toFilled, parsed]
  rw [loadAt_of_read known]
  refine ⟨.inr parsed, ?_, fun _ other same => ?_⟩
  · simp [there]
  · exact Option.some_inj.mp (parsed.symm.trans same)

theorem loadAt_storeAt_iff (torn : Tamperproof z m json)
    (known : (files path).bind (read z m f) = some earlier) :
    Survives z m f o json path earlier (loadAt z m f path (storeAt z m path o json files)) ↔
      Safe z m f o json := by
  constructor
  · intro survives
    by_cases created : o.created = true
    · right
      by_contra fails
      have unknown : (storeAt z m path o json files path).bind (read z m f) = none := by
        rw [storeAt_of_created created, Option.bind_some]
        by_cases filled : Filled z m o json
        · rw [read_written_of_filled filled]
          by_contra parsed
          exact fails ⟨⟨filled, created⟩, parsed⟩
        · exact read_written_of_not_filled torn filled
      exact survives.found (loadAt_of_not_read unknown)
    · exact .inl (Bool.eq_false_iff.mpr created)
  · intro safe
    cases safe with
    | inl kept => exact survives_of_kept known kept
    | inr fine =>
        obtain ⟨value, parsed⟩ := Option.ne_none_iff_exists'.mp fine.2
        exact survives_of_succeeds fine.1 parsed

/-- After a store over an earlier one, `load` gives one of the two values and needs no default, and gives
    the later one when its store succeeded, exactly when the file could not be emptied or was filled with
    a text that can be parsed. -/
theorem cached_survives_iff (stored : Succeeds z m earlierO earlierJson)
    (parsed : f.fromStr earlierJson = some earlier) (torn : Tamperproof z m json) :
    (Survives z m f o json (Cache.path appName .ab) earlier
        (Ab.load z m f appName (Ab.store z m appName o json (Ab.store z m appName earlierO earlierJson files))) ↔
      Safe z m f o json) ∧
    (Survives z m f o json (Cache.path appName .group) earlier
        (Group.load z m f appName
          (Group.store z m appName o json (Group.store z m appName earlierO earlierJson files))) ↔
      Safe z m f o json) := by
  have known (path : Text) :
      (storeAt z m path earlierO earlierJson files path).bind (read z m f) = some earlier := by
    rw [storeAt_of_created stored.created, Option.bind_some, read_written_of_filled stored.toFilled, parsed]
  exact ⟨loadAt_storeAt_iff torn (known _), loadAt_storeAt_iff torn (known _)⟩

end Surviving

/-- The length in one byte, after zeros, and the data as they are. -/
def countingBox : Secrets.Secretbox where
  seal_ _ data := List.replicate 15 0 ++ UInt8.ofNat data.length :: data
  open_ _ data :=
    match data.drop 15 with
    | length :: opened => if data.take 15 = List.replicate 15 0 ∧ length = UInt8.ofNat opened.length then
        some opened else none
    | [] => none
  open_of_seal _ data := by simp
  length_of_open _ data opened known := by
    split at known
    · rename_i length rest split
      split at known
      · cases known
        have same := congrArg List.length split
        simp [Secrets.macBytes] at same ⊢
        omega
      · exact absurd known nofun
    · exact absurd known nofun

def sampleMachine : Machine := ⟨countingBox, [1], none⟩

def emptyJson : Text := "\x7b\x7d".toList

def tokenJson : Text := "\x7b\"access_token\":\"t\"\x7d".toList

/-- The texts of two objects are values. -/
def sampleFormat : Format Nat where
  fromStr text := if text = emptyJson then some 1 else if text = tokenJson then some 2 else none
  default_ := 0
  empty := by decide

/-- A store of which every step succeeds. -/
theorem succeeds_sample {json : Text} (sample : json = emptyJson ∨ json = tokenJson) :
    Succeeds (Zstd.storing fun _ => false) sampleMachine ⟨true, 100⟩ json := by
  rcases sample with rfl | rfl
  · exact ⟨⟨by decide, by decide, by decide⟩, rfl⟩
  · exact ⟨⟨by decide, by decide, by decide⟩, rfl⟩

theorem cached_survives_stored :
    Survives (Zstd.storing fun _ => false) sampleMachine sampleFormat ⟨true, 100⟩ tokenJson
      (Cache.path ['R'] .ab) 1
      (Ab.load (Zstd.storing fun _ => false) sampleMachine sampleFormat ['R']
        (Ab.store (Zstd.storing fun _ => false) sampleMachine ['R'] ⟨true, 100⟩ tokenJson
          (Ab.store (Zstd.storing fun _ => false) sampleMachine ['R'] ⟨true, 100⟩ emptyJson fun _ => none))) :=
  have later := succeeds_sample (.inr rfl)
  (cached_survives_iff (succeeds_sample (.inl rfl)) rfl (by unfold Tamperproof; decide)).1.mpr
    (.inr ⟨later, by decide⟩)

/-- The disk is full after the file was emptied: the earlier address book is gone, and the default is
    loaded. -/
theorem cached_lost :
    ¬∀ (z : Zstd) (m : Machine) (f : Format Nat) (o earlierO : Outcome) (json earlierJson appName : Text)
        (earlier : Nat) (files : Files),
      Succeeds z m earlierO earlierJson → f.fromStr earlierJson = some earlier → Tamperproof z m json →
        Survives z m f o json (Cache.path appName .ab) earlier
          (Ab.load z m f appName (Ab.store z m appName o json (Ab.store z m appName earlierO earlierJson files))) := by
  intro claimed
  have survives :=
    claimed (Zstd.storing fun _ => false) sampleMachine sampleFormat ⟨true, 0⟩ ⟨true, 100⟩ emptyJson
      tokenJson ['R'] 2 (fun _ => none) (succeeds_sample (.inr rfl)) rfl (by unfold Tamperproof; decide)
  cases survives.one with
  | inl earlier => exact absurd earlier (by decide)
  | inr later => exact absurd later (by decide)

end RemoteControl.Caches
