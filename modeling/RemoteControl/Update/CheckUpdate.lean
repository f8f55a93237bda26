import RemoteControl.Runs
import RemoteControl.Splitting
import RemoteControl.Update.VersionNumber

/-! # Updates that install themselves

`check_update` of `updater.rs` on Windows: it asks which release is the latest, makes the address
of its file out of the address of its page, and installs the file that is in the temporary
directory. A file from an earlier run is taken for the right one when it has the right length.

Every step of a run can fail. The process may also stop in any step, which is a failure like
another here: a run uses nothing that an earlier one has left in memory.
-/

namespace RemoteControl.CheckUpdate

open Runs
open Splitting (replace)
open VersionNumbers (Text getVersionNumber)

abbrev Bytes := List UInt8

/-- The build, the server and the file system. `κ` tells the files of the machine apart. -/
structure World (κ : Type) where
  flutter : Bool
  /-- `crate::VERSION` -/
  version : Text
  /-- What the server has for an address. -/
  body : Text → Bytes
  /-- The file of a name in the temporary directory. -/
  tempFile : Text → κ

/-- What is going on when it is looked at before the installation. -/
structure Activity where
  aliveConns : List Int
  controllingSessionCount : Nat
  /-- The first arguments of the processes of the program. -/
  firstArgs : List String
  deriving DecidableEq

/-- How HEAD ends. -/
inductive Head where
  | sendFails
  | badStatus
  | noLength
  /-- The length is that of what the server has. -/
  | length
  deriving DecidableEq

/-- How GET ends. -/
inductive Get where
  | sendFails
  | badStatus
  | bytesFail
  | ok
  deriving DecidableEq

/-- One call of `check_update` with how its steps end, as far as it comes to them. -/
structure Call where
  manually : Bool
  allowAutoUpdate : Bool
  isMsiInstalled : Option Bool
  isCustomClient : Bool
  /-- The address of the latest release, if `do_check_software_update` gets that far. -/
  response : Option Text
  /-- `exists` says no of a file it cannot look at. -/
  existsFails : Bool
  metadataFails : Bool
  head : Head
  removeFails : Bool
  get : Get
  createFails : Bool
  /-- How many bytes are written when writing fails or the process stops. -/
  cut : Option Nat
  activity : Activity
  /-- `update_new_version` removes the file when it cannot start the update. -/
  removesFile : Bool
  deriving DecidableEq

structure State (κ : Type) where
  disk : κ → Option Bytes
  /-- The address for which a file was last written. No step looks at it. -/
  writtenFor : κ → Option Text

/-- A call of `update_new_version`, with what is in the file. -/
structure Install (κ : Type) where
  updateMsi : Bool
  version : Text
  filePath : κ
  content : Option Bytes

/-- What a call of `check_update` comes to: the addresses it requests, and what it installs. -/
structure Result (κ : Type) where
  state : State κ
  requests : List Text := []
  install : Option (Install κ) := none

def tag : Text := "tag".toList

def download : Text := "download".toList

def lastPart (url : Text) : Text := (url.splitOn '/').getLast?.getD []

/-- The address in front of the name, which has the version for its last part. -/
def releaseUrl (updateUrl : Text) : Text := replace tag download updateUrl

/-- The first arguments of the processes with a session. -/
def sessionArgs : List String :=
  ["--connect", "--play", "--file-transfer", "--view-camera", "--port-forward", "--rdp"]

namespace State

variable {κ : Type} [DecidableEq κ] (s : State κ)

/-- `remove_file`; no file has been written for any address there then. -/
def remove (path : κ) : State κ where
  disk := Function.update s.disk path none
  writtenFor := Function.update s.writtenFor path none

/-- `File::create` and the bytes that come to be written. -/
def write (path : κ) (url : Text) (bytes : Bytes) : State κ where
  disk := Function.update s.disk path (some bytes)
  writtenFor := Function.update s.writtenFor path (some url)

end State

namespace World

variable {κ : Type} (x : World κ)

/-- What the name of a file is made of. -/
def fileName (updateMsi : Bool) (version : Text) : Text :=
  if x.flutter then
    "rustdesk-".toList ++ version ++ "-x86_64.".toList ++ if updateMsi then "msi".toList else "exe".toList
  else "rustdesk-".toList ++ version ++ "-x86-sciter.exe".toList

def downloadUrl (updateMsi : Bool) (updateUrl : Text) : Text :=
  releaseUrl updateUrl ++ '/' :: x.fileName updateMsi (lastPart (releaseUrl updateUrl))

def getDownloadFileFromUrl (url : Text) : κ := x.tempFile (lastPart url)

/-- What `SOFTWARE_UPDATE_URL` is set to, if the latest release is known. -/
def doCheckSoftwareUpdate (response : Option Text) : Option Text :=
  response.map fun url =>
    if getVersionNumber (lastPart url) > getVersionNumber x.version then url else []

def hasNoControllingConns (a : Activity) : Bool :=
  if x.flutter then a.controllingSessionCount = 0
  else sessionArgs.all fun arg => arg ∉ a.firstArgs

def hasNoActiveConns (a : Activity) : Bool := a.aliveConns.isEmpty && x.hasNoControllingConns a

/-- Which update a call is about, if it comes to one. -/
def target (call : Call) : Option (Bool × Text) :=
  match call.isMsiInstalled with
  | none => none
  | some msi =>
      if call.manually || call.allowAutoUpdate then
        match x.doCheckSoftwareUpdate call.response with
        | none => none
        | some url => if url.isEmpty then none else some (msi && !call.isCustomClient, url)
      else none

section Calls

variable [DecidableEq κ]

/-- Whether the file is there already, if that can be told, with what is requested for it. A file
of another length is removed. -/
def lookForFile (s : State κ) (url : Text) (call : Call) : State κ × List Text × Option Bool :=
  let filePath := x.getDownloadFileFromUrl url
  match s.disk filePath with
  | none => (s, [], some false)
  | some content =>
      if call.existsFails then (s, [], some false)
      else if call.metadataFails then (s, [], none)
      else
        match call.head with
        | .sendFails | .badStatus | .noLength => (s, [url], none)
        | .length =>
            if content.length = (x.body url).length then (s, [url], some true)
            else if call.removeFails then (s, [url], none)
            else (s.remove filePath, [url], some false)

/-- The download, and whether it succeeds. -/
def fetch (s : State κ) (url : Text) (call : Call) : State κ × Bool :=
  match call.get with
  | .sendFails | .badStatus | .bytesFail => (s, false)
  | .ok =>
      if call.createFails then (s, false)
      else
        match call.cut with
        | some n => (s.write (x.getDownloadFileFromUrl url) url ((x.body url).take n), false)
        | none => (s.write (x.getDownloadFileFromUrl url) url (x.body url), true)

/-- The end of a call that has the file. -/
def finish (s : State κ) (updateMsi : Bool) (updateUrl : Text) (requests : List Text) (call : Call) :
    Result κ :=
  if x.hasNoActiveConns call.activity then
    let filePath := x.getDownloadFileFromUrl (x.downloadUrl updateMsi updateUrl)
    let version := lastPart (releaseUrl updateUrl)
    { state := if call.removesFile then s.remove filePath else s
      requests := requests
      install := some ⟨updateMsi, version, filePath, s.disk filePath⟩ }
  else { state := s, requests := requests }

def checkUpdate (s : State κ) (call : Call) : Result κ :=
  match x.target call with
  | none => { state := s }
  | some (updateMsi, updateUrl) =>
      let url := x.downloadUrl updateMsi updateUrl
      match x.lookForFile s url call with
      | (s, requests, none) => { state := s, requests := requests }
      | (s, requests, some true) => x.finish s updateMsi updateUrl requests call
      | (s, requests, some false) =>
          let (s, fine) := x.fetch s url call
          if fine then x.finish s updateMsi updateUrl (requests ++ [url]) call
          else { state := s, requests := requests ++ [url] }

def step (s : State κ) (call : Call) : State κ := (x.checkUpdate s call).state

end Calls

/-- The address of a release, with what is in front of `/tag/` and the version behind it. -/
def IsRelease (url P V : Text) : Prop :=
  "https://".toList <+: P ∧ '/' ∉ V ∧ url = P ++ '/' :: (tag ++ '/' :: V)

/-- The address of the file of a release. -/
def fileUrl (updateMsi : Bool) (P V : Text) : Text :=
  P ++ '/' :: (download ++ '/' :: (V ++ '/' :: x.fileName updateMsi V))

/-- No connection and no controlling session. -/
def Quiet (a : Activity) : Prop :=
  a.aliveConns = [] ∧
    if x.flutter then a.controllingSessionCount = 0 else ∀ arg ∈ sessionArgs, arg ∉ a.firstArgs

section Law

variable [DecidableEq κ]

structure Lawful (s : State κ) (call : Call) : Prop where
  requests : ∀ updateMsi updateUrl P V, x.target call = some (updateMsi, updateUrl) →
    IsRelease updateUrl P V → ∀ url ∈ (x.checkUpdate s call).requests, url = x.fileUrl updateMsi P V
  installs : ∀ install, (x.checkUpdate s call).install = some install →
    (∃ updateMsi updateUrl, x.target call = some (updateMsi, updateUrl) ∧
      install.content = some (x.body (x.downloadUrl updateMsi updateUrl))) ∧ x.Quiet call.activity

/-- A call for this address comes to a request: the file is not there, or can be looked at. -/
def Asks (s : State κ) (url : Text) (call : Call) : Prop :=
  s.disk (x.getDownloadFileFromUrl url) = none ∨ call.existsFails = true ∨ call.metadataFails = false

/-- A call finds out the length of the file that is there, and of the one on the server. -/
def Compares (call : Call) : Prop :=
  call.existsFails = false ∧ call.metadataFails = false ∧ call.head = .length

/-- The address that a call makes requests for has no second `tag`. -/
def OneTag (s : State κ) (call : Call) : Prop :=
  ∀ updateMsi updateUrl P V, x.target call = some (updateMsi, updateUrl) →
    IsRelease updateUrl P V → x.Asks s (x.downloadUrl updateMsi updateUrl) call →
      ¬tag <:+: P ∧ ¬tag <:+: V

/-- A file that is installed because it has the right length is the right one. -/
def FoundWhole (s : State κ) (call : Call) : Prop :=
  ∀ updateMsi updateUrl content, x.target call = some (updateMsi, updateUrl) →
    let url := x.downloadUrl updateMsi updateUrl
    Compares call → x.Quiet call.activity → s.disk (x.getDownloadFileFromUrl url) = some content →
      content.length = (x.body url).length → content = x.body url

/-- The file in the way, if there is one, was written for the address of the call. -/
def OwnFile (s : State κ) (call : Call) : Prop :=
  ∀ updateMsi updateUrl, x.target call = some (updateMsi, updateUrl) →
    let url := x.downloadUrl updateMsi updateUrl
    s.disk (x.getDownloadFileFromUrl url) = none ∨
      s.writtenFor (x.getDownloadFileFromUrl url) = some url

/-- What was written for an address is a part of what the server has for it. -/
def Inv (s : State κ) : Prop :=
  ∀ path url content, s.writtenFor path = some url → s.disk path = some content →
    content <+: x.body url

end Law

/-! ## Addresses -/

variable {x} {P V updateUrl url : Text} {updateMsi : Bool}

theorem lastPart_append_cons {left right : Text} (last : '/' ∉ right) :
    lastPart (left ++ '/' :: right) = right := by
  simp [lastPart, List.splitOn_append_cons_self, List.splitOn_eq_singleton last]

theorem releaseUrl_release (release : IsRelease updateUrl P V) :
    releaseUrl updateUrl =
      replace tag download P ++ '/' :: (download ++ '/' :: replace tag download V) := by
  have word : tag ≠ [] := by decide
  have slash : '/' ∉ tag := by decide
  have middle : replace tag download tag = download := by decide
  rw [releaseUrl, release.2.2, Splitting.replace_append_cons word slash,
    Splitting.replace_append_cons word slash, middle]

theorem slash_not_mem_version (release : IsRelease updateUrl P V) : '/' ∉ replace tag download V := by
  intro member
  rcases Splitting.mem_replaceFrom member with version | word
  · exact release.2.1 version
  · exact absurd word (by decide)

/-- The address that is requested, by what is left of the parts of the address of the page. -/
theorem downloadUrl_release (release : IsRelease updateUrl P V) :
    x.downloadUrl updateMsi updateUrl =
      x.fileUrl updateMsi (replace tag download P) (replace tag download V) := by
  have version : lastPart (releaseUrl updateUrl) = replace tag download V := by
    rw [releaseUrl_release release, ← List.cons_append, ← List.append_assoc]
    exact lastPart_append_cons (slash_not_mem_version release)
  rw [downloadUrl, version, releaseUrl_release release]
  simp [fileUrl]

theorem length_fileName (V : Text) :
    (x.fileName updateMsi V).length = V.length + (x.fileName updateMsi []).length := by
  unfold fileName
  split
  · simp only [List.length_append, List.length_nil]
    omega
  · simp only [List.length_append, List.length_nil]
    omega

theorem length_fileUrl (P V : Text) :
    (x.fileUrl updateMsi P V).length =
      P.length + 2 * V.length + (x.fileUrl updateMsi [] []).length := by
  have name := @length_fileName κ x updateMsi V
  simp only [fileUrl, List.length_append, List.length_cons, List.length_nil]
  omega

/-- The right file is asked for if and only if `tag` is nowhere else in the address. -/
theorem downloadUrl_eq_iff (release : IsRelease updateUrl P V) :
    x.downloadUrl updateMsi updateUrl = x.fileUrl updateMsi P V ↔ ¬tag <:+: P ∧ ¬tag <:+: V := by
  have word : tag ≠ [] := by decide
  have longer : tag.length < download.length := by decide
  rw [downloadUrl_release release]
  constructor
  · intro same
    have lengths := congrArg List.length same
    rw [length_fileUrl, length_fileUrl P V] at lengths
    have prefix_ := @Splitting.length_le_replace tag download P word longer
    have version := @Splitting.length_le_replace tag download V word longer
    constructor
    · intro inside
      have := @Splitting.length_lt_replace tag download P word longer inside
      omega
    · intro inside
      have := @Splitting.length_lt_replace tag download V word longer inside
      omega
  · rintro ⟨before, behind⟩
    rw [Splitting.replace_of_not_infix before, Splitting.replace_of_not_infix behind]

theorem hasNoActiveConns_iff (a : Activity) : x.hasNoActiveConns a = true ↔ x.Quiet a := by
  unfold hasNoActiveConns hasNoControllingConns Quiet
  split
  · simp
  · simp

variable [DecidableEq κ] {s : State κ} {call : Call}

theorem inv_remove (inv : x.Inv s) (path : κ) : x.Inv (s.remove path) := by
  intro other url content written there
  by_cases same : other = path
  · simp [State.remove, same] at there
  · simp only [State.remove, Function.update_of_ne same] at written there
    exact inv other url content written there

theorem inv_write (inv : x.Inv s) (path : κ) {bytes : Bytes} (part : bytes <+: x.body url) :
    x.Inv (s.write path url bytes) := by
  intro other url' content written there
  by_cases same : other = path
  · simp only [State.write, same, Function.update_self, Option.some.injEq] at written there
    rw [← written, ← there]
    exact part
  · simp only [State.write, Function.update_of_ne same] at written there
    exact inv other url' content written there

/-- What looking for the file comes to. -/
structure Looked (x : World κ) (s : State κ) (url : Text) (call : Call)
    (looked : State κ × List Text × Option Bool) : Prop where
  requests : ∀ asked ∈ looked.2.1, asked = url
  /-- A call that ends here has made a request if it could look at the file. -/
  asks : looked.2.2 = some false ∨ (looked.2.1 ≠ [] ↔ x.Asks s url call)
  missing : looked.2.2 = some false → x.Asks s url call
  inv : x.Inv s → x.Inv looked.1
  /-- Only a file of the right length is there already. -/
  found : looked.2.2 = some true → looked.1 = s ∧ Compares call ∧
    ∃ content, s.disk (x.getDownloadFileFromUrl url) = some content ∧
      content.length = (x.body url).length

theorem lookForFile_looked : Looked x s url call (x.lookForFile s url call) := by
  unfold lookForFile
  dsimp only
  split
  · next there => exact ⟨by simp, .inl rfl, fun _ => .inl there, id, by simp⟩
  · next content there =>
      split
      · next unseen => exact ⟨by simp, .inl rfl, fun _ => .inr (.inl unseen), id, by simp⟩
      · next seen =>
          split
          · next fails => exact ⟨by simp, .inr (by simp [Asks, there, seen, fails]), by simp, id, by simp⟩
          · next fine =>
              have asks : x.Asks s url call := .inr (.inr (Bool.eq_false_iff.mpr fine))
              have ends : [url] ≠ [] ↔ x.Asks s url call := iff_of_true (by simp) asks
              cases head : call.head with
              | sendFails | badStatus | noLength => exact ⟨by simp, .inr ends, by simp, id, by simp⟩
              | length =>
                  dsimp only
                  split
                  · next long =>
                      have compares : Compares call :=
                        ⟨Bool.eq_false_iff.mpr seen, Bool.eq_false_iff.mpr fine, head⟩
                      exact ⟨by simp, .inr ends, by simp, id,
                        fun _ => ⟨rfl, compares, content, there, long⟩⟩
                  · split
                    · exact ⟨by simp, .inr ends, by simp, id, by simp⟩
                    · exact ⟨by simp, .inl rfl, fun _ => asks, fun inv => inv_remove inv _, by simp⟩

theorem lookForFile_of_compares (compares : Compares call) {content : Bytes}
    (there : s.disk (x.getDownloadFileFromUrl url) = some content)
    (long : content.length = (x.body url).length) :
    x.lookForFile s url call = (s, [url], some true) := by
  obtain ⟨seen, fine, head⟩ := compares
  simp [lookForFile, there, seen, fine, head, long]

/-- A download that succeeds leaves the whole file, and one that does not a part of it. -/
theorem fetch_spec :
    (x.Inv s → x.Inv (x.fetch s url call).1) ∧
      ((x.fetch s url call).2 = true →
        (x.fetch s url call).1.disk (x.getDownloadFileFromUrl url) = some (x.body url)) := by
  unfold fetch
  cases call.get with
  | sendFails | badStatus | bytesFail => exact ⟨id, by simp⟩
  | ok =>
      dsimp only
      split
      · exact ⟨id, by simp⟩
      · cases call.cut with
        | some n => exact ⟨fun inv => inv_write inv _ (List.take_prefix n _), by simp⟩
        | none => exact ⟨fun inv => inv_write inv _ (List.prefix_refl _), by simp [State.write]⟩

/-- A call that has the file installs what is in it, if there is nothing going on. -/
structure Finished (x : World κ) (s : State κ) (url : Text) (requests : List Text) (call : Call)
    (result : Result κ) : Prop where
  requests : result.requests = requests
  inv : x.Inv s → x.Inv result.state
  installs : ∀ install, result.install = some install →
    install.content = s.disk (x.getDownloadFileFromUrl url) ∧ x.Quiet call.activity

theorem finish_finished (requests : List Text) :
    Finished x s (x.downloadUrl updateMsi updateUrl) requests call
      (x.finish s updateMsi updateUrl requests call) := by
  unfold finish
  split
  · next idle =>
      refine ⟨rfl, fun inv => ?_, ?_⟩
      · dsimp only
        split
        · exact inv_remove inv _
        · exact inv
      · rintro install ⟨⟩
        exact ⟨rfl, (hasNoActiveConns_iff call.activity).mp idle⟩
  · exact ⟨rfl, id, by simp⟩

/-- What a call comes to that is about an update. -/
structure Checked (x : World κ) (s : State κ) (url : Text) (call : Call) (result : Result κ) :
    Prop where
  requests : ∀ asked ∈ result.requests, asked = url
  asks : result.requests ≠ [] ↔ x.Asks s url call
  inv : x.Inv s → x.Inv result.state
  /-- What is installed was just fetched, or was there in the right length. -/
  installs : ∀ install, result.install = some install →
    (install.content = some (x.body url) ∨ Compares call ∧ ∃ content, install.content = some content ∧
      s.disk (x.getDownloadFileFromUrl url) = some content ∧
        content.length = (x.body url).length) ∧ x.Quiet call.activity

theorem checkUpdate_checked (target : x.target call = some (updateMsi, updateUrl)) :
    Checked x s (x.downloadUrl updateMsi updateUrl) call (x.checkUpdate s call) := by
  unfold checkUpdate
  rw [target]
  dsimp only
  have looked := @lookForFile_looked _ x (x.downloadUrl updateMsi updateUrl) _ s call
  rcases came : x.lookForFile s (x.downloadUrl updateMsi updateUrl) call with ⟨s', asked, there⟩
  rw [came] at looked
  obtain ⟨requests, asks, missing, inv, found⟩ := looked
  cases there with
  | none => exact ⟨requests, asks.resolve_left nofun, inv, by simp⟩
  | some there =>
      cases there with
      | true =>
          obtain ⟨rfl, compares, content, disk, long⟩ := found rfl
          have finished := @finish_finished _ x updateUrl updateMsi _ s' call asked
          refine ⟨?_, ?_, finished.inv, fun install installed => ?_⟩
          · rw [finished.requests]
            exact requests
          · rw [finished.requests]
            exact asks.resolve_left nofun
          · obtain ⟨same, quiet⟩ := finished.installs install installed
            exact ⟨.inr ⟨compares, content, same.trans disk, disk, long⟩, quiet⟩
      | false =>
          dsimp only at inv ⊢
          have every : ∀ url ∈ asked ++ [x.downloadUrl updateMsi updateUrl],
              url = x.downloadUrl updateMsi updateUrl := by
            intro url member
            rcases List.mem_append.mp member with before | here
            · exact requests url before
            · exact List.mem_singleton.mp here
          have some_ : asked ++ [x.downloadUrl updateMsi updateUrl] ≠ [] ↔
              x.Asks s (x.downloadUrl updateMsi updateUrl) call :=
            iff_of_true (by simp) (missing rfl)
          have fetched := @fetch_spec _ x (x.downloadUrl updateMsi updateUrl) _ s' call
          rcases brought : x.fetch s' (x.downloadUrl updateMsi updateUrl) call with ⟨s'', fine⟩
          rw [brought] at fetched
          obtain ⟨kept, whole⟩ := fetched
          cases fine with
          | false => exact ⟨every, some_, kept ∘ inv, by simp⟩
          | true =>
              have finished := @finish_finished _ x updateUrl updateMsi _ s'' call
                (asked ++ [x.downloadUrl updateMsi updateUrl])
              refine ⟨?_, ?_, finished.inv ∘ kept ∘ inv, fun install installed => ?_⟩
              · rw [if_pos rfl, finished.requests]
                exact every
              · rw [if_pos rfl, finished.requests]
                exact some_
              · obtain ⟨same, quiet⟩ := finished.installs install installed
                exact ⟨.inl (same.trans (whole rfl)), quiet⟩

theorem checkUpdate_of_no_target (none : x.target call = none) :
    x.checkUpdate s call = { state := s } := by
  unfold checkUpdate
  rw [none]

/-- What one call keeps. -/
theorem inv_step (inv : x.Inv s) (call : Call) : x.Inv (x.step s call) := by
  unfold step
  cases target : x.target call with
  | none =>
      rw [checkUpdate_of_no_target target]
      exact inv
  | some about =>
      obtain ⟨updateMsi, updateUrl⟩ := about
      exact (checkUpdate_checked target).inv inv

/-- A call that finds a file of the right length installs it. -/
theorem checkUpdate_of_compares (target : x.target call = some (updateMsi, updateUrl))
    (compares : Compares call) (quiet : x.Quiet call.activity) {content : Bytes}
    (there : s.disk (x.getDownloadFileFromUrl (x.downloadUrl updateMsi updateUrl)) = some content)
    (long : content.length = (x.body (x.downloadUrl updateMsi updateUrl)).length) :
    ∃ install, (x.checkUpdate s call).install = some install ∧ install.content = some content := by
  unfold checkUpdate
  rw [target]
  dsimp only
  rw [lookForFile_of_compares compares there long]
  simp [finish, (hasNoActiveConns_iff call.activity).mpr quiet, there]

/-- A call does what it should if and only if it asks for the right file and takes no other file
for it. -/
theorem lawful_iff : x.Lawful s call ↔ x.OneTag s call ∧ x.FoundWhole s call := by
  cases target : x.target call with
  | none =>
      refine iff_of_true ⟨fun _ _ _ _ about => ?_, fun install installed => ?_⟩
        ⟨fun _ _ _ _ about => ?_, fun _ _ _ about => ?_⟩
      · exact nomatch target.symm.trans about
      · rw [checkUpdate_of_no_target target] at installed
        cases installed
      · exact nomatch target.symm.trans about
      · exact nomatch target.symm.trans about
  | some about =>
      obtain ⟨updateMsi, updateUrl⟩ := about
      have checked := @checkUpdate_checked _ x _ _ _ s _ target
      constructor
      · intro lawful
        constructor
        · intro msi url P V about release asks
          cases target.symm.trans about
          obtain ⟨asked, member⟩ := List.exists_mem_of_ne_nil _ (checked.asks.mpr asks)
          have right := lawful.requests _ _ P V target release asked member
          rw [checked.requests asked member] at right
          exact (downloadUrl_eq_iff release).mp right
        · intro msi url content about _ compares quiet there long
          cases target.symm.trans about
          obtain ⟨install, installed, same⟩ := checkUpdate_of_compares target compares quiet there long
          obtain ⟨⟨msi, url, about, whole⟩, -⟩ := lawful.installs install installed
          cases target.symm.trans about
          exact Option.some.inj (same.symm.trans whole)
      · rintro ⟨oneTag, found⟩
        refine ⟨fun msi url P V about release asked member => ?_, fun install installed => ?_⟩
        · cases target.symm.trans about
          have asks := checked.asks.mp (List.ne_nil_of_mem member)
          rw [checked.requests asked member]
          exact (downloadUrl_eq_iff release).mpr (oneTag _ _ P V target release asks)
        · obtain ⟨whole, quiet⟩ := checked.installs install installed
          refine ⟨⟨updateMsi, updateUrl, target, ?_⟩, quiet⟩
          rcases whole with fetched | ⟨compares, content, same, there, long⟩
          · exact fetched
          · rw [same, found _ _ content target compares quiet there long]

/-- A call that downloads while something is going on leaves the file for the next one. -/
theorem step_of_fetched (target : x.target call = some (updateMsi, updateUrl))
    (missing : s.disk (x.getDownloadFileFromUrl (x.downloadUrl updateMsi updateUrl)) = none)
    (got : call.get = .ok) (created : call.createFails = false) (whole : call.cut = none)
    (busy : ¬x.Quiet call.activity) :
    x.step s call = s.write (x.getDownloadFileFromUrl (x.downloadUrl updateMsi updateUrl))
      (x.downloadUrl updateMsi updateUrl) (x.body (x.downloadUrl updateMsi updateUrl)) := by
  have idle : x.hasNoActiveConns call.activity = false := by
    rw [Bool.eq_false_iff, ne_eq, hasNoActiveConns_iff]
    exact busy
  simp [step, checkUpdate, target, lookForFile, missing, fetch, got, created, whole, finish, idle]

/-- A file that was fetched for one address is installed for another that has the same file and
something else of the same length. -/
theorem not_lawful_of_shared {first second : Call} {updateUrl' : Text} {updateMsi' : Bool}
    (target : x.target first = some (updateMsi, updateUrl))
    (missing : s.disk (x.getDownloadFileFromUrl (x.downloadUrl updateMsi updateUrl)) = none)
    (got : first.get = .ok) (created : first.createFails = false) (whole : first.cut = none)
    (busy : ¬x.Quiet first.activity) (target' : x.target second = some (updateMsi', updateUrl'))
    (compares : Compares second) (quiet : x.Quiet second.activity)
    (shared : x.getDownloadFileFromUrl (x.downloadUrl updateMsi' updateUrl') =
      x.getDownloadFileFromUrl (x.downloadUrl updateMsi updateUrl))
    (long : (x.body (x.downloadUrl updateMsi updateUrl)).length =
      (x.body (x.downloadUrl updateMsi' updateUrl')).length)
    (different : x.body (x.downloadUrl updateMsi updateUrl) ≠
      x.body (x.downloadUrl updateMsi' updateUrl')) : ¬Along x.step x.Lawful s [first, second] := by
  rintro ⟨-, lawful, -⟩
  have there : (x.step s first).disk (x.getDownloadFileFromUrl (x.downloadUrl updateMsi' updateUrl')) =
      some (x.body (x.downloadUrl updateMsi updateUrl)) := by
    rw [step_of_fetched target missing got created whole busy, shared]
    simp [State.write]
  exact different ((lawful_iff.mp lawful).2 _ _ _ target' compares quiet there long)

omit [DecidableEq κ] in
/-- A file that an earlier call for the same address has written, in whole or in part, is whole
when it has the length. -/
theorem foundWhole_of_ownFile (inv : x.Inv s) (own : x.OwnFile s call) : x.FoundWhole s call := by
  intro updateMsi updateUrl content target _ _ _ there long
  rcases own _ _ target with missing | written
  · exact nomatch there.symm.trans missing
  · exact (inv _ _ content written there).eq_of_length long

/-- A disk of which nothing is known. -/
def start (disk : κ → Option Bytes) : State κ where
  disk := disk
  writtenFor := fun _ => none

theorem along_foundWhole_of_ownFile {calls : List Call} (inv : x.Inv s)
    (own : Along x.step x.OwnFile s calls) : Along x.step x.FoundWhole s calls := by
  induction calls generalizing s with
  | nil => trivial
  | cons call rest ih => exact ⟨foundWhole_of_ownFile inv own.1, ih (inv_step inv call) own.2⟩

/-- All calls of a run do what they should, if and only if none asks for the file of a release that
has `tag` in another place, and none installs a file that has the right length only. The second
is so in every run in which no call finds a file that was written for another address. -/
theorem along_lawful_iff (x : World κ) (disk : κ → Option Bytes) (calls : List Call) :
    (Along x.step x.Lawful (start disk) calls ↔
      Along x.step (fun s call => x.OneTag s call ∧ x.FoundWhole s call) (start disk) calls) ∧
      (Along x.step x.OwnFile (start disk) calls → Along x.step x.FoundWhole (start disk) calls) := by
  have same : x.Lawful = fun s call => x.OneTag s call ∧ x.FoundWhole s call := by
    funext s call
    exact propext lawful_iff
  constructor
  · rw [same]
  · exact along_foundWhole_of_ownFile fun path url content written => nomatch written

/-- A build of version 1.4.5 and a server that has its own file for each address. -/
def plain : World Text where
  flutter := true
  version := "1.4.5".toList
  body := fun url => [1, 2, UInt8.ofNat url.length]
  tempFile := id

/-- A call for a release in which no step fails. -/
def plainCall (response : String) : Call where
  manually := true
  allowAutoUpdate := false
  isMsiInstalled := some false
  isCustomClient := false
  response := some response.toList
  existsFails := false
  metadataFails := false
  head := .length
  removeFails := false
  get := .ok
  createFails := false
  cut := none
  activity := ⟨[], 0, []⟩
  removesFile := false

/-- A call that has stopped while it was writing, and one that installs the update. -/
def stoppedAndDone : List Call :=
  [{ plainCall "https://a.example/tag/1.5.0" with cut := some 2 }, plainCall "https://a.example/tag/1.5.0"]

theorem stoppedAndDone_foundWhole :
    Along plain.step plain.OwnFile (start fun _ => none) stoppedAndDone ∧
      Along plain.step plain.FoundWhole (start fun _ => none) stoppedAndDone := by
  have own : Along plain.step plain.OwnFile (start fun _ => none) stoppedAndDone := by
    refine ⟨fun msi url about => .inl rfl, fun msi url about => ?_, trivial⟩
    have target : plain.target (plainCall "https://a.example/tag/1.5.0") =
        some (false, "https://a.example/tag/1.5.0".toList) := by decide
    cases target.symm.trans about
    exact .inr (by decide)
  exact ⟨own, (along_lawful_iff plain (fun _ => none) stoppedAndDone).2 own⟩

/-- The page of a release on a host whose own name has `tag` in it. -/
theorem not_along_lawful :
    ¬∀ (x : World Text) (disk : Text → Option Bytes) (calls : List Call),
      Along x.step x.Lawful (start disk) calls := by
  intro law
  have lawful := (law plain (fun _ => none) [plainCall "https://staging.example/tag/1.5.0"]).1
  have release : IsRelease "https://staging.example/tag/1.5.0".toList
      "https://staging.example".toList "1.5.0".toList := ⟨by decide, by decide, by decide⟩
  have right := lawful.requests false _ _ _ (by decide) release
    "https://sdownloading.example/download/1.5.0/rustdesk-1.5.0-x86_64.exe".toList (by decide)
  exact absurd right (by decide)

end World

end RemoteControl.CheckUpdate
