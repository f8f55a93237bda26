import RemoteControl.Terminal.Session
import RemoteControl.Transfer.Sources

/-! # Compressed blocks

`compress` of `hbb_common/compress.rs` returns nothing when the compressor fails, and a block of a
transfer or of a terminal takes what it returns whenever that is shorter than the data.
-/

namespace RemoteControl.Transfer

open Host (Bytes)

/-- The library below `compress.rs`. -/
structure Zstd where
  /-- What the compressor of the thread returns, if there is one and it does not fail. -/
  compressor : Bytes → Option Bytes
  decodeAll : Bytes → Option Bytes
  /-- What was compressed is decoded again. -/
  inverts : ∀ data out, compressor data = some out → decodeAll out = some data
  /-- Without a frame there is nothing to decode. -/
  noFrame : (decodeAll []).getD [] = []

namespace Zstd

variable (z : Zstd)

def compress (data : Bytes) : Bytes := (z.compressor data).getD []

def decompress (data : Bytes) : Bytes := (z.decodeAll data).getD []

variable {z} {data : Bytes}

theorem decompress_compress_iff (some_data : data ≠ []) :
    z.decompress (z.compress data) = data ↔ z.compressor data ≠ none := by
  unfold compress decompress
  cases done : z.compressor data with
  | none =>
      refine iff_of_false ?_ (not_not.mpr rfl)
      rw [Option.getD_none, z.noFrame]
      exact some_data.symm
  | some out =>
      refine iff_of_true ?_ nofun
      rw [Option.getD_some, z.inverts data out done, Option.getD_some]

/-- A failure is taken for the shortest of all compressions. -/
theorem compress_of_failure (failed : z.compressor data = none) : z.compress data = [] := by
  unfold compress
  rw [failed, Option.getD_none]

variable (z)

/-- What the other side makes of a block. -/
def unpack (data : Bytes) (compressed : Bool) : Bytes := if compressed then z.decompress data else data

/-- The shorter of the data and of what `compress` returns, as both callers choose it. -/
def shorter (data : Bytes) : Bytes × Bool :=
  if (z.compress data).length < data.length then (z.compress data, true) else (data, false)

variable {z}

theorem unpack_shorter_iff (some_data : data ≠ []) :
    z.unpack (z.shorter data).1 (z.shorter data).2 = data ↔ z.compressor data ≠ none := by
  unfold shorter
  by_cases less : (z.compress data).length < data.length
  · rw [if_pos less]
    exact decompress_compress_iff some_data
  · rw [if_neg less]
    refine iff_of_true rfl fun failed => less ?_
    rw [compress_of_failure failed]
    exact List.length_pos_iff.mpr some_data

end Zstd

namespace Sources.Job

/-- The blocks of the file where the job stands are compressed. -/
def compresses (job : Job) : Bool :=
  match job.dataSource with
  | .filePath fileName =>
      match job.files[usize job.fileNum]? with
      | some e => !TransferJob.isCompressedFile (job.sentName fileName e)
      | none => false
  | .memoryCursor => false

variable {z : Zstd} {job : Job} {chunks : List
  (Except String Bytes)} {buf : Bytes} {block : FileTransferBlock}

theorem pack_some (name : Text) (buf : Bytes) :
    pack z.compress (some name) buf =
      if TransferJob.isCompressedFile name then (buf, false) else z.shorter buf := rfl

/-- A block is an empty one at the end of the file, or the packed bytes. -/
theorem readBlock_block {name : Option Text} (filled : fill chunks [] = .ok buf)
    (sent : (job.readBlock z.compress name chunks).2 = .ok (some block)) :
    buf = [] ∧ block.data = [] ∧ block.compressed = false ∨
      buf ≠ [] ∧ block.data = (pack z.compress name buf).1 ∧
        block.compressed = (pack z.compress name buf).2 := by
  unfold readBlock at sent
  cases opened : job.dataStream with
  | none => rw [opened] at sent; exact absurd sent nofun
  | some stream =>
      rw [opened, filled] at sent
      dsimp only at sent
      by_cases none_left : buf = []
      · rw [if_pos none_left] at sent
        refine .inl ⟨none_left, ?_⟩
        cases source : job.dataSource with
        | memoryCursor => rw [source] at sent; exact absurd sent nofun
        | filePath fileName =>
            rw [source] at sent
            cases sent
            exact ⟨rfl, rfl⟩
      · rw [if_neg none_left] at sent
        cases sent
        exact .inr ⟨none_left, rfl, rfl⟩

theorem read_unpacks_iff (filled : fill chunks [] = .ok buf)
    (sent : (job.read z.compress chunks).2 = .ok (some block)) :
    z.unpack block.data block.compressed = buf ↔
      ¬(job.compresses = true ∧ buf ≠ [] ∧ z.compressor buf = none) := by
  unfold read at sent
  split at sent
  · exact absurd sent nofun
  unfold compresses
  cases source : job.dataSource with
  | memoryCursor =>
      rw [source] at sent
      refine iff_of_true ?_ fun fails => nomatch fails.1
      obtain ⟨rfl, data, plain⟩ | ⟨-, data, plain⟩ := readBlock_block filled sent
      · rw [data, plain]
        rfl
      · rw [data, plain]
        rfl
  | filePath fileName =>
      rw [source] at sent
      dsimp only at sent ⊢
      cases there : job.files[usize job.fileNum]? with
      | none => rw [there] at sent; exact absurd sent nofun
      | some e =>
          rw [there] at sent
          dsimp only at sent ⊢
          obtain ⟨rfl, data, plain⟩ | ⟨some_data, data, packed⟩ := readBlock_block filled sent
          · rw [data, plain]
            exact iff_of_true rfl fun fails => fails.2.1 rfl
          · rw [data, packed, pack_some]
            by_cases done : TransferJob.isCompressedFile (job.sentName fileName e) = true
            · rw [if_pos done, done]
              exact iff_of_true rfl fun fails => nomatch fails.1
            · rw [if_neg done, Zstd.unpack_shorter_iff some_data, Bool.eq_false_iff.mpr done]
              exact ⟨fun fine fails => fine fails.2.2, fun fine failed => fine ⟨rfl, some_data, failed⟩⟩

end Sources.Job

namespace Zstd

open Terminal (TerminalData createTerminalDataResponse compressThreshold)

def compression (z : Zstd) : Terminal.Compression where
  compress := z.compress
  decompress := z.decompress
  inverts data compressed := by
    by_cases some_data : data = []
    · subst some_data
      unfold compress decompress at *
      cases done : z.compressor [] with
      | none =>
          rw [done] at compressed
          exact absurd rfl compressed
      | some out => rw [Option.getD_some, z.inverts [] out done, Option.getD_some]
    · exact (decompress_compress_iff some_data).mpr fun failed =>
        compressed (compress_of_failure failed)

theorem createTerminalDataResponse_eq (z : Zstd) (terminalId : Int) (data : Bytes) :
    createTerminalDataResponse z.compression terminalId data =
      if compressThreshold < data.length then .data ⟨terminalId, (z.shorter data).1, (z.shorter data).2⟩
      else .data ⟨terminalId, data, false⟩ := by
  unfold createTerminalDataResponse shorter compression
  dsimp only
  split_ifs <;> rfl

theorem response_unpacks_iff (z : Zstd) (terminalId : Int) (data : Bytes) :
    (createTerminalDataResponse z.compression terminalId data).payloadFor z.compression terminalId =
      some data ↔
      ¬(compressThreshold < data.length ∧ z.compressor data = none) := by
  rw [createTerminalDataResponse_eq]
  by_cases long : compressThreshold < data.length
  · have some_data : data ≠ [] := List.length_pos_iff.mp (Nat.zero_lt_of_lt long)
    rw [if_pos long]
    have payload :
        (Terminal.TerminalResponse.data ⟨terminalId, (z.shorter data).1,
        (z.shorter data).2⟩).payloadFor
        z.compression terminalId = some (z.unpack (z.shorter data).1 (z.shorter data).2) := if_pos rfl
    rw [payload, Option.some_inj]
    exact (unpack_shorter_iff some_data).trans
      ⟨fun fine fails => fine fails.2, fun fine failed => fine ⟨long, failed⟩⟩
  · rw [if_neg long]
    exact iff_of_true (if_pos rfl) fun fails => long fails.1

/-- What `TransferJob::read` and `create_terminal_data_response` emit is decompressed to the bytes
    that were read exactly when the compressor does not fail on bytes that are handed to it. -/
theorem emitted_unpack_iff (z : Zstd) :
    (∀ (job : Sources.Job) (chunks : List (Except String Bytes)) (buf : Bytes)
      (block : FileTransferBlock),
        Sources.Job.fill chunks [] = .ok buf → (job.read z.compress chunks).2 = .ok (some block) →
        (z.unpack block.data block.compressed = buf ↔
          ¬(job.compresses = true ∧ buf ≠ [] ∧ z.compressor buf = none))) ∧
      ∀ (terminalId : Int) (data : Bytes),
        (createTerminalDataResponse z.compression terminalId data).payloadFor z.compression terminalId = some data ↔
          ¬(compressThreshold < data.length ∧ z.compressor data = none) :=
  ⟨fun _ _ _ _ filled sent => Sources.Job.read_unpacks_iff filled sent, z.response_unpacks_iff⟩

/-- The number that a frame begins with. -/
def magic : Bytes := [0x28, 0xb5, 0x2f, 0xfd]

/-- A compressor that stores the data in a frame as they are, and fails on some. -/
def storing (fails : Bytes → Bool) : Zstd where
  compressor data := if fails data then none else some (magic ++ data)
  decodeAll out := if out.take 4 = magic then some (out.drop 4) else none
  inverts data out done := by
    split at done
    · exact absurd done nofun
    · cases done
      rfl
  noFrame := rfl

/-- A job that stands at the only file of a folder. -/
def textJob : Sources.Job :=
  { id := 1, jobType := .generic, dataSource := .filePath [], fileNum := 0, files := [⟨['a'], 0, 2⟩]
    dataStream := some .fileStream, enableOverwriteDetection := false }

theorem emitted_unpack_stored : (storing fun _ => false).unpack [7, 7] false = [7, 7] :=
  ((emitted_unpack_iff (storing fun _ => false)).1 textJob [.ok [7, 7], .ok []] [7, 7] ⟨1, 0,
    [7, 7], false⟩
    (by decide) (by decide)).mpr (by decide)

/-- The compressor fails on two bytes of a file, and an empty block is sent that counts as compressed. -/
theorem failed_compression_loses_bytes :
    ¬∀ z : Zstd,
      (∀ (job : Sources.Job) (chunks : List (Except String Bytes)) (buf : Bytes)
        (block : FileTransferBlock),
          Sources.Job.fill chunks [] = .ok buf → (job.read z.compress chunks).2 = .ok (some block) →
          z.unpack block.data block.compressed = buf) ∧
        ∀ (terminalId : Int) (data : Bytes),
          (createTerminalDataResponse z.compression terminalId data).payloadFor z.compression terminalId =
            some data := by
  intro claimed
  have kept :=
    (claimed (storing fun _ => true)).1 textJob [.ok [1, 2], .ok []] [1, 2] ⟨1, 0, [],
    true⟩ (by decide) (by decide)
  exact absurd kept (by decide)

end Zstd

end RemoteControl.Transfer
