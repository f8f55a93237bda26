import RemoteControl.Clipboard.FileList
import RemoteControl.Clipboard.Volume
import RemoteControl.Runs

/-! # Pasting files on macOS

`PasteTask` asks the peer for the files of a list, block by block, and writes each into a
`.rddownload` file that gets its own name in the end. A worker thread takes the answers; it
and the calls of `start` and `cancel` take turns under one lock.

What the file system refuses is up to the `Outcomes` of an event. Some of these failures the
code logs or does not look at: they are kept as notes.
-/

namespace RemoteControl.Clipboard.Paste

open Transfer (Text Place)

/-- `CliprdrError`, without what the system says about a file. -/
inductive PasteError where
  | invalidRequest (description : String)
  | commonError (description : String)
  | fileError (path : Text)
  deriving DecidableEq

def recvRetryTimes : Nat := 3

/-- `BLOCK_SIZE` -/
def blockSize : Nat := 4 * 1024 * 1024

/-- `DOWNLOAD_EXTENSION` -/
def downloadExtension : Text := ['r', 'd', 'd', 'o', 'w', 'n', 'l', 'o', 'a', 'd']

def invalidFileIndex : Int := -1

/-- `as i32` -/
def asI32 (n : Nat) : Int :=
  if n % 4294967296 < 2147483648 then n % 4294967296 else (n % 4294967296 : Nat) - 4294967296

/-- Sums of `u64` wrap. -/
def wrap (n : Nat) : Nat := n % 2 ^ 64

structure FileContentsResponse where
  connId : Int32
  msgFlags : Int32
  streamId : Int32
  requestedData : Bytes
  deriving DecidableEq

/-- The stream id of a request is the list index, and the position goes in two halves. -/
structure FileContentsRequest where
  connId : Int32
  listIndex : Int
  nPosition : Nat
  cbRequested : Nat
  deriving DecidableEq

/-- What the file system does in one event, apart from what follows from the paths. A number
    says how far an operation comes that fails. -/
structure Outcomes where
  /-- The buffer is written because the data does not fit into it. -/
  writeBuffer : Option Nat := none
  /-- The data is longer than the buffer. -/
  writeData : Option Nat := none
  flush : Option Nat := none
  /-- The buffer is written once more when the writer is dropped. -/
  drop : Option Nat := none
  rename : Bool := true
  createEmpty : Nat → Bool := fun _ => true
  createDir : Nat → Option Nat := fun _ => none
  createParent : Option Nat := none
  createDownload : Bool := true
  remove : Bool := true
  /-- `on_finished` removes the file of a failed task again. -/
  removeAgain : Bool := true

/-- What happens without being reported. -/
inductive Note where
  /-- Neither flush nor drop has written all of the buffer. -/
  | notFlushed
  | noNewName
  | notRenamed
  | notCreated (index : Nat)
  | noDirectory (index : Nat)
  /-- `File::create` has emptied a file that was there. -/
  | truncated (place : Place)
  /-- A file has got its final name. -/
  | renamed (index : Int) (content : Bytes)
  deriving DecidableEq

/-- `BufWriter<File>` -/
structure BufWriter where
  /-- Where the file is. -/
  place : Place
  buffer : Bytes := []
  deriving DecidableEq

namespace BufWriter

def capacity : Nat := blockSize * 2

/-- It fails when something is left in the buffer. -/
def flushBuf (writer : BufWriter) (v : Volume) (fault : Option Nat) : Volume × BufWriter :=
  let k := fault.getD writer.buffer.length
  ({ v with tree := appendTo v.tree writer.place (writer.buffer.take k) },
    { writer with buffer := writer.buffer.drop k })

/-- The loop over `write`, and whether all of the data was taken. -/
def write (writer : BufWriter) (v : Volume) (data : Bytes) (o : Outcomes) : Volume × BufWriter × Bool :=
  let spare := capacity - writer.buffer.length
  if data.length < spare then (v, { writer with buffer := writer.buffer ++ data }, true)
  else
    let (v, writer) := if spare < data.length then writer.flushBuf v o.writeBuffer else (v, writer)
    if spare < data.length ∧ writer.buffer ≠ [] then (v, writer, false)
    else if capacity ≤ data.length then
      let k := o.writeData.getD data.length
      ({ v with tree := appendTo v.tree writer.place (data.take k) }, writer, data.length ≤ k)
    else (v, { writer with buffer := writer.buffer ++ data }, true)

end BufWriter

/-- The `i`th variant of a name. -/
def numbered (path : Text) (kind : FileType) (i : Nat) : Text :=
  match kind, extension path with
  | .file, some ext => withFileName path (fileStem path ++ '-' :: digits i ++ '.' :: ext)
  | _, _ => path ++ [' ', '('] ++ digits i ++ [')']

def getFirstFilename (v : Volume) (path : Text) (kind : FileType) : Option Text :=
  if !v.exists_ path then some path
  else if kind = .symlink then none
  else ((List.range' 1 9999998).map (numbered path kind)).find? (!v.exists_ ·)

def getNewFilename (v : Volume) (targetDir : Text) (desc : FileDescription) : Option Text :=
  let path := join targetDir desc.name
  if v.exists_ path then getFirstFilename v path desc.kind else some path

structure PasteTaskProgress where
  listIndex : Int := -1
  offset : Nat := 0
  totalSize : Nat
  currentSize : Nat := 0
  downloadFileIndex : Int := invalidFileIndex
  downloadFileSize : Nat := 0
  downloadFilePath : Text := []
  downloadFileCurrentSize : Nat := 0
  fileHandle : Option BufWriter := none
  error : Option PasteError := none
  isCanceled : Bool := false
  deriving DecidableEq

structure PasteTaskHandle where
  progress : PasteTaskProgress
  targetDir : Text
  files : List FileDescription
  deriving DecidableEq

def PasteTaskHandle.isFinished (h : PasteTaskHandle) : Bool :=
  h.progress.isCanceled || h.progress.error.isSome || asI32 h.files.length ≤ h.progress.listIndex

/-- The request for the next block, unless the task is finished. -/
def PasteTaskHandle.fileContentsRequest (h : PasteTaskHandle) :
    Except PasteError (Option FileContentsRequest) :=
  if h.isFinished then .ok none
  else
    let listIndex := h.progress.listIndex
    match h.files[listIndex.toNat]? with
    | none => .error (.invalidRequest ("Invalid file index: " ++ toString listIndex))
    | some file =>
        .ok (some
          { connId := file.connId
            listIndex
            nPosition := h.progress.offset
            cbRequested := min blockSize (file.size - h.progress.offset) })

/-- A task with the volume that it works on. -/
structure Working where
  handle : PasteTaskHandle
  volume : Volume
  notes : List Note := []

namespace Working

def progress (w : Working) : PasteTaskProgress := w.handle.progress

def setProgress (w : Working) (progress : PasteTaskProgress) : Working :=
  { w with handle := { w.handle with progress } }

def note (w : Working) (n : Note) : Working := { w with notes := n :: w.notes }

/-- The file at the place as it is now. -/
def contentAt (w : Working) (p : Place) : Bytes :=
  match w.volume.tree.node p with
  | some (.file content _) => content
  | _ => []

def onCancelled (w : Working) (o : Outcomes) (remove : Bool) : Working :=
  let v := w.progress.fileHandle.elim w.volume fun writer => (writer.flushBuf w.volume o.drop).1
  { w.setProgress { w.progress with fileHandle := none } with
    volume := if remove then (v.removeFile w.progress.downloadFilePath).getD v else v }

def onError (w : Working) (error : PasteError) (o : Outcomes) : Working :=
  (w.setProgress { w.progress with error := some error }).onCancelled o o.remove

/-- The file gets its name. After this the task knows no download file any more. -/
def renameDownload (w : Working) (writer : BufWriter) (target : Text) (o : Outcomes) : Working :=
  let w' := w.setProgress
    { w.progress with downloadFilePath := [], downloadFileIndex := invalidFileIndex }
  match if o.rename then w.volume.rename w.progress.downloadFilePath target else none with
  | some v =>
      { w' with volume := v }.note (.renamed w.progress.downloadFileIndex (w.contentAt writer.place))
  | none => w'.note .notRenamed

/-- The buffer is flushed, and the writer is dropped. -/
def closeWriter (w : Working) (writer : BufWriter) (o : Outcomes) : Working :=
  let (v, writer) := writer.flushBuf w.volume o.flush
  let (v, writer) := writer.flushBuf v o.drop
  let w := { w.setProgress { w.progress with fileHandle := none } with volume := v }
  if writer.buffer = [] then w else w.note .notFlushed

def onDone (w : Working) (o : Outcomes) : Working :=
  match w.progress.fileHandle with
  | none => w
  | some writer =>
      if w.progress.downloadFileIndex = invalidFileIndex then w
      else
        let w := w.closeWriter writer o
        match w.handle.files[w.progress.downloadFileIndex.toNat]? with
        | none => w
        | some desc =>
            match getNewFilename w.volume w.handle.targetDir desc with
            -- the path and the index stay as they are
            | none => w.note .noNewName
            | some target => w.renameDownload writer target o

def createEmpty (w : Working) (i : Nat) (desc : FileDescription) (o : Outcomes) : Working :=
  match getNewFilename w.volume w.handle.targetDir desc with
  | none => w.note (.notCreated i)
  | some path =>
      match if o.createEmpty i then w.volume.create path else none with
      | some (_, v) => { w with volume := v }
      | none => w.note (.notCreated i)

def createDirectory (w : Working) (i : Nat) (desc : FileDescription) (o : Outcomes) : Working :=
  let path := join w.handle.targetDir desc.name
  let v := if w.volume.exists_ path then w.volume else (w.volume.createDirAll path (o.createDir i)).1
  let w := { w with volume := v }
  if v.isDir path then w else w.note (.noDirectory i)

def openNewWriter (w : Working) (o : Outcomes) : Working × Option PasteError :=
  let progress := w.progress
  match w.handle.files[progress.listIndex.toNat]? with
  | none =>
      (w, some (.invalidRequest ("Invalid file index: " ++ toString progress.listIndex ++
        ", file count: " ++ toString w.handle.files.length)))
  | some file =>
      let originalFilePath := join w.handle.targetDir file.name
      match getFirstFilename w.volume (originalFilePath ++ '.' :: downloadExtension) file.kind with
      | none =>
          (w, some (.commonError
            ("Failed to get download file path: " ++ String.ofList originalFilePath)))
      | some path =>
          -- a path with the extension has a parent
          let (v, made) :=
            if w.volume.exists_ (parent path) then (w.volume, true)
            else w.volume.createDirAll (parent path) o.createParent
          let w := { w with volume := v }
          if !made then (w, some (.fileError (parent path)))
          else
            match if o.createDownload then v.create path else none with
            | some (place, v') =>
                let w' := { w with volume := v' }.setProgress
                  { progress with
                    downloadFileIndex := progress.listIndex
                    downloadFileSize := file.size
                    downloadFilePath := path
                    downloadFileCurrentSize := 0
                    fileHandle := some { place } }
                (if v.tree.exists_ place then w'.note (.truncated place) else w', none)
            | none => (w.setProgress { progress with error := some (.fileError path) }, none)

/-- The loop of `update_next`, up to the next file that has to be downloaded. -/
def updateLoop (o : Outcomes) : List (FileDescription × Nat) → Working → Working × Option PasteError
  | [], w => (w, none)
  | (desc, i) :: rest, w =>
      match desc.kind with
      | .file =>
          if desc.size = 0 then updateLoop o rest (w.createEmpty i desc o)
          else (w.setProgress { w.progress with listIndex := i, offset := 0 }).openNewWriter o
      | .directory => updateLoop o rest (w.createDirectory i desc o)
      | .symlink => updateLoop o rest w

/-- The entries after `list_index`. -/
def entriesLeft (w : Working) : List (FileDescription × Nat) :=
  (w.handle.files.zipIdx.take (asI32 w.handle.files.length).toNat).drop (w.progress.listIndex + 1).toNat

/-- Without an open file there is nothing left to do. -/
def settle (w : Working) : Working :=
  if w.progress.fileHandle.isNone then
    w.setProgress
      { w.progress with
        listIndex := asI32 w.handle.files.length
        offset := 0
        downloadFileSize := 0
        downloadFileCurrentSize := 0 }
  else w

def updateNext (w : Working) (size : Nat) (o : Outcomes) : Working × Option PasteError :=
  if w.handle.isFinished then (w, none)
  else
    let w := w.setProgress { w.progress with currentSize := wrap (w.progress.currentSize + size) }
    let isStart := w.progress.listIndex = -1
    if isStart ∨ w.progress.downloadFileSize ≤ wrap (w.progress.offset + size) then
      let w := if isStart then w else w.onDone o
      match w.updateLoop o w.entriesLeft with
      | (w, some e) => (w, some e)
      | (w, none) => (w.settle, none)
    else
      ((w.setProgress
        { w.progress with
          offset := wrap (w.progress.offset + size)
          downloadFileCurrentSize := wrap (w.progress.downloadFileCurrentSize + size) }).settle, none)

def handleFileContentsResponse (w : Working) (data : Bytes) (o : Outcomes) :
    Working × Option PasteError :=
  match w.progress.fileHandle with
  | none => (w, some (.fileError w.progress.downloadFilePath))
  | some writer =>
      let (v, writer, ok) := writer.write w.volume data o
      let w := { w.setProgress { w.progress with fileHandle := some writer } with volume := v }
      if ok then w.updateNext data.length o else (w, some (.fileError w.progress.downloadFilePath))

def onFinished (w : Working) (o : Outcomes) : Working :=
  let w := if w.progress.error.isSome then w.onCancelled o o.removeAgain else w.onDone o
  if w.progress.currentSize ≠ w.progress.totalSize then
    w.setProgress { w.progress with error := some (.invalidRequest "Failed to download all files") }
  else w

end Working

structure State where
  volume : Volume
  task : Option PasteTaskHandle := none
  /-- The variable of the worker thread. -/
  retryCount : Nat := 0
  /-- The requests sent so far. -/
  requests : List FileContentsRequest := []
  /-- The notes of the task. -/
  notes : List Note := []
  /-- What is on the volume that the task has not made: what was there when it was started, and
      what other programs have made since. -/
  foreign : Place → Option Node := fun _ => none

inductive Event where
  | start (targetDir : Text) (files : List FileDescription) (o : Outcomes)
  | cancel (o : Outcomes)
  /-- The worker takes an answer from its channel. -/
  | response (fileContents : FileContentsResponse) (o : Outcomes)
  /-- Nothing has come for 300 ms; `late` says whether the request is older than 5 s. -/
  | timeout (late : Bool) (o : Outcomes)
  /-- Another program makes a file or a directory. -/
  | other (p : Place) (n : Node)

namespace State

def working (s : State) (handle : PasteTaskHandle) : Working := ⟨handle, s.volume, s.notes⟩

def put (s : State) (w : Working) : State :=
  { s with task := some w.handle, volume := w.volume, notes := w.notes }

/-- `send_file_contents_request`, and `on_error` when that fails. -/
def request (s : State) (w : Working) (o : Outcomes) : State :=
  match w.handle.fileContentsRequest with
  | .ok r => { s.put w with requests := s.requests ++ r.toList }
  | .error e => s.put (w.onError e o)

def start (s : State) (targetDir : Text) (files : List FileDescription) (o : Outcomes) : State :=
  if s.task.any (!·.isFinished) then s
  else
    let s := { s with foreign := s.volume.tree.node }
    let progress : PasteTaskProgress := { totalSize := wrap (files.map (·.size)).sum }
    let w : Working := ⟨⟨progress, targetDir, files⟩, s.volume, []⟩
    let w := (w.updateNext 0 o).1
    if w.handle.isFinished then s.put (w.onFinished o) else s.request w o

def cancel (s : State) (o : Outcomes) : State :=
  match s.task with
  | none => s
  | some h =>
      let w := s.working h
      s.put ((w.setProgress { w.progress with isCanceled := true }).onCancelled o o.remove)

/-- What the worker does after an answer. -/
def goOn (s : State) (w : Working) (o : Outcomes) : State :=
  if w.handle.isFinished then { s.put (w.onFinished o) with retryCount := 0 } else s.request w o

/-- An answer that tells of an error. -/
def failedResponse (s : State) (w : Working) (fileContents : FileContentsResponse) (o : Outcomes) :
    State :=
  let retryCount := s.retryCount + 1
  let error : PasteError := .invalidRequest ("Failed to read file contents, stream id: " ++
    toString fileContents.streamId ++ ", msg_flags: " ++ toString fileContents.msgFlags)
  let w := if recvRetryTimes < retryCount then w.setProgress { w.progress with error := some error } else w
  { s with retryCount }.goOn w o

def response (s : State) (fileContents : FileContentsResponse) (o : Outcomes) : State :=
  match s.task with
  | none => s
  | some h =>
      if h.isFinished then s
      else if fileContents.streamId.toInt ≠ h.progress.listIndex then s
      else if fileContents.msgFlags ≠ 1 then s.failedResponse (s.working h) fileContents o
      else
        match h.files[fileContents.streamId.toInt.toNat]? with
        | none => s
        | some file =>
            if file.connId ≠ fileContents.connId then s
            else
              match (s.working h).handleFileContentsResponse fileContents.requestedData o with
              | (w, none) => s.goOn w o
              | (w, some e) => s.goOn (w.onError e o) o

/-- `check_receive_timemout` -/
def timeout (s : State) (late : Bool) (o : Outcomes) : State :=
  match s.task with
  | none => s
  | some h =>
      if h.isFinished || !late then s
      else
        let w := s.working h
        let w := w.setProgress
          { w.progress with error := some (.invalidRequest "Failed to read file contents") }
        { s.put (w.onFinished o) with retryCount := 0 }

/-- Another program makes something in a directory where nothing is. -/
def other (s : State) (p : Place) (n : Node) : State :=
  if s.volume.tree.node p = none ∧ s.volume.tree.node p.dropLast = some .dir then
    { s with
      volume := { s.volume with
        tree := { s.volume.tree with node := Function.update s.volume.tree.node p (some n) } }
      foreign := Function.update s.foreign p (some n) }
  else s

def step (s : State) : Event → State
  | .start targetDir files o => s.start targetDir files o
  | .cancel o => s.cancel o
  | .response fileContents o => s.response fileContents o
  | .timeout late o => s.timeout late o
  | .other p n => s.other p n

/-- No task has been started yet. -/
def initial (v : Volume) : State := { volume := v, foreign := v.tree.node }

end State

end RemoteControl.Clipboard.Paste
