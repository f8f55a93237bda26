import Mathlib.Data.List.Forall2
import RemoteControl.Clipboard.FileContents

/-! # Ranges of files

The two sides of a request together: `read_node` splits a read into the numbers of a
message and `read_file_contents` puts them together again. The bytes that come back are
those that were asked for as long as no half has its sign bit set. Any requests may have
been served before; they leave the readers of the files in order.
-/

namespace RemoteControl.Clipboard

/-- A file of the peer, as the file system that shows it knows it. A list of files comes in
    one frame of less than 2^30 bytes, 592 for each file. -/
structure FuseNode where
  connId : Int32
  streamId : Int32
  index : Nat
  small : index < 2 ^ 31

/-- The request `read_node` makes; shifting and masking divide with remainder. -/
def FuseNode.request (node : FuseNode) (offset : Int64) (size : UInt32) : ContentsRequest where
  streamId := node.streamId
  listIndex := Int32.ofInt node.index
  dwFlags := 2
  nPositionLow := Int32.ofInt (offset.toInt % 2 ^ 32)
  nPositionHigh := Int32.ofInt (offset.toInt / 2 ^ 32)
  cbRequested := Int32.ofInt size.toNat

section Widening

variable {n : Nat}

theorem asU64_ofInt_of_lt (small : n < 2 ^ 31) : asU64 (Int32.ofInt n) = n := by
  have same : (Int32.ofInt n).toInt = n := Int32.toInt_ofInt_of_le (by omega) (by omega)
  unfold asU64
  rw [same]
  omega

/-- A number with the sign bit becomes a huge one. -/
theorem asU64_ofInt_of_ge (large : 2 ^ 31 ≤ n) (word : n < 2 ^ 32) :
    asU64 (Int32.ofInt n) = 2 ^ 64 - 2 ^ 32 + n := by
  have same : (Int32.ofInt n).toInt = n - 2 ^ 32 := by
    rw [Int32.toInt_ofInt, Int.bmod_def, Int32.size]
    split_ifs <;> omega
  unfold asU64
  rw [same]
  omega

theorem position_eq_add {high low : Nat} (fits : high < 2 ^ 31) (small : low < 2 ^ 31) :
    position (Int32.ofInt high) (Int32.ofInt low) = 2 ^ 32 * high + low := by
  have below : low < 2 ^ 32 := by omega
  have shifted : high <<< 32 % 2 ^ 64 = high <<< 32 := by
    rw [Nat.shiftLeft_eq]
    omega
  rw [position, asU64_ofInt_of_lt fits, asU64_ofInt_of_lt small, shifted, Nat.lor_comm,
    or_shiftLeft_eq_add below, Nat.add_comm]

/-- A lower half with the sign bit spoils the upper one. -/
theorem position_large {low : Nat} (high : Int32) (large : 2 ^ 31 ≤ low) (word : low < 2 ^ 32) :
    2 ^ 63 ≤ position high (Int32.ofInt low) := by
  have half : asU64 (Int32.ofInt low) ≤ position high (Int32.ofInt low) := Nat.right_le_or
  rw [asU64_ofInt_of_ge large word] at half
  exact le_trans (by omega) half

variable {node : FuseNode} {offset : Int64} {size : UInt32}

/-- The halves give the offset back exactly when the lower one has no sign bit. -/
theorem position_request_iff (natural : 0 ≤ offset.toInt) :
    position (node.request offset size).nPositionHigh (node.request offset size).nPositionLow =
        offset.toInt.toNat ↔ offset.toInt % 2 ^ 32 < 2 ^ 31 := by
  have bound := offset.toInt_lt
  obtain ⟨n, whole⟩ := Int.eq_ofNat_of_zero_le natural
  have high : offset.toInt / 2 ^ 32 = (n / 2 ^ 32 : Nat) := by omega
  have low : offset.toInt % 2 ^ 32 = (n % 2 ^ 32 : Nat) := by omega
  simp only [FuseNode.request, high, low]
  by_cases small : n % 2 ^ 32 < 2 ^ 31
  · rw [position_eq_add (by omega) small]
    omega
  · have large := position_large (Int32.ofInt (n / 2 ^ 32 : Nat)) (not_lt.mp small)
      (Nat.mod_lt n (by omega))
    omega

theorem asU64_cbRequested_iff :
    asU64 (node.request offset size).cbRequested = size.toNat ↔ size.toNat < 2 ^ 31 := by
  have word := size.toNat_lt
  by_cases small : size.toNat < 2 ^ 31
  · exact iff_of_true (asU64_ofInt_of_lt small) small
  · have large : asU64 (Int32.ofInt size.toNat) = _ := asU64_ofInt_of_ge (not_lt.mp small) word
    refine iff_of_false ?_ small
    rw [FuseNode.request, large]
    omega

theorem asU64_listIndex : asU64 (node.request offset size).listIndex = node.index :=
  asU64_ofInt_of_lt node.small

end Widening

theorem LocalFile.Relisted.trans {f f₁ f₂ : LocalFile} (first : f.Relisted f₁)
    (second : f₁.Relisted f₂) : f.Relisted f₂ := by
  obtain ⟨handle, offset, rfl⟩ := first
  obtain ⟨handle', offset', rfl⟩ := second
  exact ⟨handle', offset', rfl⟩

/-- A file is still the one that was listed, and its reader in order. -/
def Holds (disk : Disk) (f f' : LocalFile) : Prop := f.Relisted f' ∧ f'.Steady disk

/-- All files are. -/
def AllHold (disk : Disk) (listed : List LocalFile) (now : List LocalFile) : Prop :=
  List.Forall₂ (Holds disk) listed now

section Hold

variable {disk : Disk} {checks : Bool} {listed now : List LocalFile} {f f' : LocalFile}
  {fileIdx offset length : Nat}

theorem AllHold.get (hold : AllHold disk listed now) (here : listed[fileIdx]? = some f) :
    ∃ f', now[fileIdx]? = some f' ∧ Holds disk f f' := by
  induction hold generalizing fileIdx with
  | nil => cases here
  | cons first rest ih =>
      cases fileIdx with
      | zero =>
          cases here
          exact ⟨_, rfl, first⟩
      | succ fileIdx => exact ih here

theorem AllHold.set (hold : AllHold disk listed now) (here : now[fileIdx]? = some f)
    (held : f.Steady disk → Holds disk f f') : AllHold disk listed (now.set fileIdx f') := by
  induction hold generalizing fileIdx with
  | nil => cases here
  | cons first rest ih =>
      cases fileIdx with
      | zero =>
          cases here
          exact .cons ⟨first.1.trans (held first.2).1, (held first.2).2⟩ rest
      | succ fileIdx => exact .cons first (ih here)

theorem AllHold.hotReload (hold : AllHold disk listed now) :
    AllHold disk listed (hotReload disk now).1 := by
  induction hold with
  | nil => exact .nil
  | cons first rest ih =>
      unfold Clipboard.hotReload
      split_ifs
      · exact .cons first ih
      · obtain ⟨steady, relisted⟩ := first.2.loadHandle
        exact .cons ⟨first.1.trans relisted, steady⟩ rest

/-- The next file that is no directory can be opened. -/
def NextReadable (disk : Disk) : List LocalFile → Prop
  | [] => True
  | f :: rest => if f.isDir then NextReadable disk rest else (disk.content f.path).isSome = true

theorem AllHold.nextReadable_iff (hold : AllHold disk listed now) :
    NextReadable disk now ↔ NextReadable disk listed := by
  induction hold with
  | nil => exact .rfl
  | cons first rest ih =>
      obtain ⟨⟨handle, offset, rfl⟩, -⟩ := first
      simp only [NextReadable, ih]

theorem LocalFile.Steady.loadHandle_ok_iff (steady : f.Steady disk) (isFile : f.isDir = false) :
    (f.loadHandle disk).2 = .ok () ↔ (disk.content f.path).isSome = true := by
  cases readable : disk.content f.path with
  | some content => exact iff_of_true (loadHandle_of_file isFile readable).1 rfl
  | none =>
      have closed : f.handle = none := by
        by_contra opened
        obtain ⟨r, handle⟩ := Option.ne_none_iff_exists'.mp opened
        obtain ⟨content, readable', -⟩ := steady.opened r handle
        cases readable.symm.trans readable'
      refine iff_of_false ?_ nofun
      simp [LocalFile.loadHandle, isFile, closed, readable]

/-- Opening the next file fails exactly when it cannot be opened. -/
theorem AllHold.hotReload_ok_iff (hold : AllHold disk listed now) :
    (Clipboard.hotReload disk now).2 = .ok () ↔ NextReadable disk listed := by
  rw [← hold.nextReadable_iff]
  induction hold with
  | nil => exact iff_of_true rfl trivial
  | @cons f f' _ _ first rest ih =>
      unfold Clipboard.hotReload NextReadable
      cases isDir : f'.isDir with
      | true => exact ih
      | false => exact first.2.loadHandle_ok_iff isDir

end Hold

namespace ClipFiles

variable {disk : Disk} {checks : Bool} {listed : List LocalFile} {c : ClipFiles} {f : LocalFile}
  {streamId : Int32} {fileIdx offset length : Nat}

theorem reloadAfter_hold (hold : AllHold disk listed c.fileList) :
    AllHold disk listed (c.reloadAfter disk fileIdx).1.fileList := by
  have later : AllHold disk _ _ := AllHold.hotReload (List.forall₂_drop (fileIdx + 1) hold)
  have whole := List.rel_append (List.forall₂_take (fileIdx + 1) hold) later
  dsimp only at whole
  rwa [List.take_append_drop] at whole

theorem finish_hold (hold : AllHold disk listed c.fileList) (ops : List Op) (m : ClipboardFile) :
    AllHold disk listed (c.finish disk fileIdx ops m).files.fileList := by
  have reloaded := @reloadAfter_hold disk listed c fileIdx hold
  unfold finish
  split <;> (rename_i c' _ after; rw [after] at reloaded; exact reloaded)

/-- What is read lies in the file, also if the sum has wrapped: then no buffer is that
    large. -/
theorem readSize_inside {size : Nat} (signed : size < 2 ^ 63) (inside : offset ≤ size)
    (fits : readSize size offset length < 2 ^ 63) :
    offset + readSize size offset length ≤ size := by
  unfold readSize at fits ⊢
  split_ifs at fits ⊢ with past
  · omega
  · rw [Nat.mod_eq_of_lt (by omega)] at past
    omega

theorem serveRange_hold (hold : AllHold disk listed c.fileList) (here : c.fileList[fileIdx]? = some f)
    (inside : offset ≤ f.size.toNat) :
    AllHold disk listed (c.serveRange disk checks streamId fileIdx offset length f).files.fileList := by
  unfold serveRange
  dsimp only
  split_ifs with overflow large
  · exact hold
  · exact hold
  · have held (steady : f.Steady disk) :
        Holds disk f (f.readExactAt disk (readSize f.size.toNat offset length) offset).1 := by
      obtain ⟨after, relisted, -⟩ :=
        steady.readExactAt (readSize_inside steady.signed inside (not_le.mp large))
      exact ⟨relisted, after⟩
    split <;> rename_i f' _ read <;> rw [read] at held
    · exact hold.set here held
    · exact finish_hold (hold.set here held) _ _

theorem readFileContents_hold (connId : Int32) (r : ContentsRequest)
    (hold : AllHold disk listed c.fileList) :
    AllHold disk listed (readFileContents disk checks connId r c).files.fileList := by
  unfold readFileContents
  split
  · exact hold
  · rename_i request decoded
    dsimp only
    unfold serveFileContents
    split
    · split
      · exact hold
      · exact finish_hold hold _ _
    · split
      · exact hold
      · rename_i f here
        split_ifs with past
        · exact hold
        · exact serveRange_hold hold here (not_lt.mp past)

theorem finish_ok_iff (hold : AllHold disk listed c.fileList) (ops : List Op)
    (m m' : ClipboardFile) :
    (c.finish disk fileIdx ops m).answer = .ok m' ↔
      NextReadable disk (listed.drop (fileIdx + 1)) ∧ m' = m := by
  have later : AllHold disk _ _ := List.forall₂_drop (fileIdx + 1) hold
  rw [← later.hotReload_ok_iff]
  unfold finish
  generalize reloaded : c.reloadAfter disk fileIdx = result
  obtain ⟨c', outcome⟩ := result
  have same : (hotReload disk (c.fileList.drop (fileIdx + 1))).2 = outcome := congrArg Prod.snd reloaded
  rw [same]
  cases outcome with
  | ok => simp only [true_and, Answer.ok.injEq, eq_comm]
  | error e => simp only [reduceCtorEq, false_and]

theorem readExactAt_unreadable (steady : f.Steady disk) (isFile : f.isDir = false)
    (unreadable : disk.content f.path = none) (n : Nat) :
    ∃ f' e, f.readExactAt disk n offset = (f', .error e) := by
  have fails := mt (steady.loadHandle_ok_iff isFile).mp (by rw [unreadable]; nofun)
  unfold LocalFile.readExactAt
  generalize f.loadHandle disk = loaded at fails
  obtain ⟨f', outcome⟩ := loaded
  cases outcome with
  | ok => exact absurd rfl fails
  | error e => exact ⟨f', e, rfl⟩

/-- A range of a file is answered with its bytes when the file, and the one to be opened
    next, can be read, and else with an error. -/
theorem serveRange_ok_iff (hold : AllHold disk listed c.fileList)
    (here : c.fileList[fileIdx]? = some f) (steady : f.Steady disk) (isFile : f.isDir = false)
    (inside : offset ≤ f.size.toNat) (short : length < 2 ^ 31) (m : ClipboardFile) :
    (c.serveRange disk checks streamId fileIdx offset length f).answer = .ok m ↔
      ∃ content, disk.content f.path = some content ∧
        NextReadable disk (listed.drop (fileIdx + 1)) ∧
        m = .fileContentsResponse 1 streamId
          ((content.drop offset).take (min length (f.size.toNat - offset))) := by
  have signed := steady.signed
  have small : offset + length < 2 ^ 64 := by omega
  have unchecked : (checks && decide (2 ^ 64 ≤ offset + length)) = false := by
    rw [decide_eq_false (not_le.mpr small), Bool.and_false]
  have bytes := readSize_eq f.size.toNat small
  have fits : ¬ 2 ^ 63 ≤ min length (f.size.toNat - offset) := by omega
  unfold serveRange
  simp only [unchecked, Bool.false_eq_true, if_false, bytes, fits]
  cases readable : disk.content f.path with
  | none =>
      obtain ⟨f', e, failed⟩ := @readExactAt_unreadable disk f offset steady isFile readable
        (min length (f.size.toNat - offset))
      rw [failed]
      simp
  | some content =>
      obtain ⟨after, relisted, read⟩ := @LocalFile.Steady.readExactAt disk f
        (min length (f.size.toNat - offset)) offset steady (by omega)
      have answer := read content isFile readable
      generalize f.readExactAt disk (min length (f.size.toNat - offset)) offset = result
        at after relisted answer
      obtain ⟨f', outcome⟩ := result
      cases answer
      dsimp only
      rw [finish_ok_iff (hold.set here fun _ => ⟨relisted, after⟩)]
      simp

end ClipFiles

/-- `LocalFile::try_open` of each path to which the walk of `construct_file_list` comes. -/
def tryOpenAll (disk : Disk) (relativeRoot : OsText) :
    List OsText → Except CliprdrError (List LocalFile)
  | [] => .ok []
  | path :: rest =>
      match LocalFile.tryOpen disk relativeRoot path, tryOpenAll disk relativeRoot rest with
      | .ok f, .ok files => .ok (f :: files)
      | .error e, _ => .error e
      | .ok _, .error e => .error e

variable {disk : Disk}

theorem tryOpenAll_hold {root : OsText} {paths : List OsText}
    {files : List LocalFile} (found : tryOpenAll disk root paths = .ok files) :
    AllHold disk files files := by
  induction paths generalizing files with
  | nil =>
      cases found
      exact .nil
  | cons path rest ih =>
      unfold tryOpenAll at found
      split at found
      · rename_i f files' opened others
        cases found
        exact .cons ⟨.refl f, LocalFile.tryOpen_steady opened⟩ (ih others)
      · cases found
      · cases found

/-- The files after some requests. -/
def serveAll (disk : Disk) (checks : Bool) (c : ClipFiles) (requests : List (Int32 × ContentsRequest)) :
    ClipFiles :=
  Runs.exec (fun c r => (readFileContents disk checks r.1 r.2 c).files) c requests

theorem serveAll_hold {checks : Bool} {listed : List LocalFile} {c : ClipFiles}
    (hold : AllHold disk listed c.fileList) (requests : List (Int32 × ContentsRequest)) :
    AllHold disk listed (serveAll disk checks c requests).fileList := by
  refine (Runs.always_of_events (p := fun c : ClipFiles => AllHold disk listed c.fileList)
    (fun c r (_ : True) hold => ?_) (fun _ _ => trivial) hold).last
  exact ClipFiles.readFileContents_hold r.1 r.2 hold

theorem request_decode (node : FuseNode) (offset : Int64) (size : UInt32) :
    (node.request offset size).decode = .ok (.range node.streamId node.index
      (position (node.request offset size).nPositionHigh (node.request offset size).nPositionLow)
      (asU64 (node.request offset size).cbRequested)) := by
  have index := @asU64_listIndex node offset size
  have flags : (node.request offset size).dwFlags = 2 := rfl
  rw [ContentsRequest.decode, if_neg (by rw [flags]; decide), if_pos flags, index]
  rfl

theorem getLast?_answers {checks : Bool} {connId : Int32} {r : ContentsRequest}
    {request : FileContentsRequest} {c : ClipFiles} (decoded : r.decode = .ok request) :
    (readFileContents disk checks connId r c).answers.getLast? =
      some (c.serveFileContents disk checks connId request).answer := by
  simp only [readFileContents, decoded, List.getLast?_append, List.getLast?_singleton,
    Option.some_or]

/-- A read that was split by `read_node` is put together as it was and answered with just
    the bytes asked for, exactly when no half has its sign bit set and the file, and the
    next one to be opened, can be read. -/
theorem read_gets_its_range_iff (disk : Disk) (checks : Bool) (root : OsText) (paths : List OsText)
    (c : ClipFiles) (synced : tryOpenAll disk root paths = .ok c.fileList)
    (earlier : List (Int32 × ContentsRequest)) (connId : Int32) (node : FuseNode) (f : LocalFile)
    (listed : c.fileList[node.index]? = some f) (isFile : f.isDir = false) (offset : Int64)
    (size : UInt32) (natural : 0 ≤ offset.toInt) (inside : offset.toInt ≤ f.size.toNat) :
    (position (node.request offset size).nPositionHigh (node.request offset size).nPositionLow =
          offset.toInt.toNat ∧
        asU64 (node.request offset size).cbRequested = size.toNat ∧
        ∃ content, disk.content f.path = some content ∧
          (readFileContents disk checks connId (node.request offset size)
              (serveAll disk checks c earlier)).answers.getLast? =
            some (.ok (.fileContentsResponse 1 node.streamId
              ((content.drop offset.toInt.toNat).take
                (min size.toNat (f.size.toNat - offset.toInt.toNat)))))) ↔
      offset.toInt % 2 ^ 32 < 2 ^ 31 ∧ size.toNat < 2 ^ 31 ∧
        (disk.content f.path).isSome = true ∧
        NextReadable disk (c.fileList.drop (node.index + 1)) := by
  rw [position_request_iff natural, asU64_cbRequested_iff]
  refine and_congr_right fun low => and_congr_right fun short => ?_
  have same := (@position_request_iff node offset size natural).mpr low
  have whole := (@asU64_cbRequested_iff node offset size).mpr short
  have hold := @serveAll_hold disk checks _ c (tryOpenAll_hold synced) earlier
  obtain ⟨f', here, ⟨handle, offset', rfl⟩, steady⟩ := hold.get listed
  have within : offset.toInt.toNat ≤ f.size.toNat := by omega
  have last : (readFileContents disk checks connId (node.request offset size)
      (serveAll disk checks c earlier)).answers.getLast? =
      some ((serveAll disk checks c earlier).serveRange disk checks node.streamId node.index
        offset.toInt.toNat size.toNat { f with handle := handle, offset := offset' }).answer := by
    rw [getLast?_answers (request_decode node offset size), same, whole]
    simp only [ClipFiles.serveFileContents, here, if_neg (not_lt.mpr within)]
  have answer := @ClipFiles.serveRange_ok_iff disk checks _ _ _ node.streamId _ _ _ hold here steady
    isFile within short
  simp only [last, Option.some.injEq, answer]
  constructor
  · rintro ⟨content, readable, -, -, next, -⟩
    exact ⟨by rw [readable]; rfl, next⟩
  · rintro ⟨readable, next⟩
    obtain ⟨content, readable⟩ := Option.isSome_iff_exists.mp readable
    exact ⟨content, readable, content, readable, next, rfl⟩

/-- A disk on which every path is a file of the given bytes. -/
def diskOf (len : UInt64) (content : Bytes) (long : len.toNat ≤ content.length)
    (signed : len.toNat < 2 ^ 63) : Disk := fun _ =>
  some
    { metadata := { len := len, kind := .file, mode := 0o644, modified := none, signed := signed }
      content := some content
      long := by
        rintro _ ⟨⟩
        exact long }

def firstNode : FuseNode := ⟨0, 7, 0, by decide⟩

theorem small_file_gets_its_range :
    (readFileContents (diskOf 3 [1, 2, 3] (by decide) (by decide)) false 0 (firstNode.request 1 5)
      (serveAll (diskOf 3 [1, 2, 3] (by decide) (by decide)) false (onlyFiles 3)
        [(0, firstNode.request 0 2)])).answers.getLast? =
      some (.ok (.fileContentsResponse 1 7 [2, 3])) := by
  obtain ⟨-, -, content, found, answer⟩ := (read_gets_its_range_iff
    (diskOf 3 [1, 2, 3] (by decide) (by decide)) false [] [[]] (onlyFiles 3) rfl
    [(0, firstNode.request 0 2)] 0 firstNode (onlyFile 3) rfl rfl 1 5 (by decide) (by decide)).mpr
      ⟨by decide, by decide, rfl, trivial⟩
  cases found
  exact answer

/-- A file of 2^31 + 1 bytes: its last byte is at an offset whose lower half has the sign
    bit. The other side takes it for an offset far beyond the file. -/
theorem sign_bit_loses_range :
    let disk := diskOf 0x80000001 (List.replicate 0x80000001 0)
      (by rw [List.length_replicate]; decide) (by decide)
    tryOpenAll disk [] [[]] = .ok (onlyFiles 0x80000001).fileList ∧
      (0x80000000 : Int64).toInt ≤ (onlyFile 0x80000001).size.toNat ∧
      position (firstNode.request 0x80000000 1).nPositionHigh
          (firstNode.request 0x80000000 1).nPositionLow = 2 ^ 64 - 2 ^ 31 ∧
      (readFileContents disk false 0 (firstNode.request 0x80000000 1)
          (onlyFiles 0x80000001)).answers =
        [.err (.invalidRequest "invalid reading offset requested from conn: 0")] := by
  refine ⟨rfl, by decide, by decide, ?_⟩
  rfl

end RemoteControl.Clipboard
