import RemoteControl.Host.Session

/-! # Subscriptions of a remote session

While a remote session lasts, the services it is subscribed to are to be a
function of its permissions and options. Each handler re-subscribes only the
services it takes for affected, so this is an invariant that has to be kept by
every one of them. `Same` says that a handler leaves one service alone, `Sync`
that a service is as wanted; `outOfStep` collects the steps that leave a service
behind.
-/

namespace RemoteControl.Host

open Runs World

variable (p : Platform)

/-- Whether the connection is to be subscribed to a service; `none` for services
    that do not follow permissions. -/
def wanted (c : Connection) : ServiceName → Option Bool
  | .clipboard => some (c.canSubClipboardService p)
  | .fileClipboard => if p.unixFileCopyPaste then some (c.canSubFileClipboardService p) else none
  | .cursor => some (c.peerKeyboardEnabled || c.showRemoteCursor)
  | .pos => some c.showRemoteCursor
  | .audio => some c.audioEnabled
  | .windowFocus => some (c.followRemoteWindow && !c.multiUiSession)
  | _ => none

/-- A hosted service has the connection as a subscriber iff it is wanted. -/
def Sync (w : World) (name : ServiceName) : Prop :=
  name ∈ w.server.services → ∀ want, wanted p w.conn name = some want →
    (w.server.isSubed name w.conn.id ↔ want = true)

def InSync (w : World) : Prop := ∀ name, Sync p w name

/-- Neither the subscription nor the wish for it has moved. -/
structure Same (name : ServiceName) (w w' : World) : Prop where
  hosted : name ∈ w'.server.services ↔ name ∈ w.server.services
  wanted : wanted p w'.conn name = wanted p w.conn name
  subed : w'.server.isSubed name w'.conn.id ↔ w.server.isSubed name w.conn.id

variable {p}

variable {name : ServiceName} {w : World} {q : Option BoolOption} {act : Bool → World → World}
  {sub : Bool} {other : ServiceName} {w₁ : World} {f : Connection → Connection} {w' : World}

theorem Same.sync_iff (same : Same p name w w') : Sync p w' name ↔ Sync p w name := by
  unfold Sync
  rw [same.hosted, same.wanted, same.subed]

theorem Same.refl : Same p name w w := ⟨.rfl, rfl, .rfl⟩

theorem Same.trans {w₂ : World} (first : Same p name w w₁) (second : Same p name w₁ w₂) :
    Same p name w w₂ :=
  ⟨second.hosted.trans first.hosted, second.wanted.trans first.wanted,
    second.subed.trans first.subed⟩

theorem Same.emit {a : Action} (before : Same p name w w₁) : Same p name w (w₁.emit a) :=
  ⟨before.hosted, before.wanted, before.subed⟩

theorem Same.modify (before : Same p name w w₁)
    (wish : Host.wanted p (f w₁.conn) name = Host.wanted p w₁.conn name)
    (id : (f w₁.conn).id = w₁.conn.id) : Same p name w (w₁.modify f) := by
  refine before.trans ⟨.rfl, wish, ?_⟩
  rw [modify_server, modify_conn, id]

theorem Same.subscribe (before : Same p name w w₁) (different : name ≠ other) :
    Same p name w (w₁.subscribe other sub) := by
  refine before.trans ⟨by rw [subscribe_server, Server.subscribe_services], rfl, ?_⟩
  rw [subscribe_server, subscribe_conn, Server.subscribe_isSubed, if_neg fun both => different both.1]

theorem Same.ite {w₂ : World} {c : Prop} [Decidable c] (yes : c → Same p name w w₁)
    (no : ¬ c → Same p name w w₂) : Same p name w (if c then w₁ else w₂) := by
  split
  · exact yes ‹_›
  · exact no ‹_›

/-- The last word on a service is a subscription by the wish itself. -/
theorem sync_subscribe (wish : ∀ want, wanted p w.conn name = some want → sub = want) :
    Sync p (w.subscribe name sub) name := by
  intro hosted want asked
  rw [subscribe_server, Server.subscribe_services] at hosted
  rw [subscribe_server, subscribe_conn, Server.subscribe_isSubed, if_pos ⟨rfl, hosted⟩,
    wish want asked]

theorem sync_subscribe_other (different : name ≠ other) :
    Sync p (w.subscribe other sub) name ↔ Sync p w name :=
  (Same.subscribe .refl different).sync_iff

/-- When only the wish moves, the service stays in step iff it did not move either. -/
theorem sync_modify_iff {want want' : Bool} (id : (f w.conn).id = w.conn.id)
    (hosted : name ∈ w.server.services) (wish : wanted p w.conn name = some want)
    (wish' : wanted p (f w.conn) name = some want') (sync : Sync p w name) :
    Sync p (w.modify f) name ↔ want = want' := by
  have subed := sync hosted want wish
  constructor
  · intro sync'
    have subed' := sync' hosted want' wish'
    rw [modify_server, modify_conn, id, subed] at subed'
    exact Bool.eq_iff_iff.mpr subed'
  · intro same _ asked_ asked
    obtain rfl := Option.some.inj (wish'.symm.trans asked)
    rw [modify_server, modify_conn, id, subed, same]

theorem Same.withOption (same : ∀ on, Same p name w (act on w)) :
    Same p name w (w.withOption q act) := by
  unfold World.withOption
  split
  · exact same true
  · exact same false
  · exact .refl

theorem sync_withOption (before : Sync p w name) (set : ∀ on, Sync p (act on w) name) :
    Sync p (w.withOption q act) name := by
  unfold World.withOption
  split
  · exact set true
  · exact set false
  · exact before

variable {β : Type*}

/-- A field that no value of an option moves. -/
theorem read_withOption (read : World → β) (keeps : ∀ on, read (act on w) = read w) :
    read (w.withOption q act) = read w := by
  unfold World.withOption
  split
  · exact keeps true
  · exact keeps false
  · rfl

section Options

variable {name : ServiceName} {w : World} (on : Bool) (o : OptionMessage) (env : Env)

theorem setShowRemoteCursor_same (cursor : name ≠ .cursor) (pos : name ≠ .pos) :
    Same p name w (w.setShowRemoteCursor on) := by
  refine .subscribe (.subscribe (.modify .refl ?_ rfl) cursor) pos
  cases name <;> first | rfl | contradiction

theorem setShowRemoteCursor_sync (touched : name = .cursor ∨ name = .pos) :
    Sync p (w.setShowRemoteCursor on) name := by
  rcases touched with rfl | rfl
  · refine (Same.subscribe .refl (by decide)).sync_iff.mpr (sync_subscribe fun _ asked => ?_)
    exact Option.some.inj asked
  · exact sync_subscribe fun _ asked => Option.some.inj asked

theorem setFollowRemoteWindow_same (focus : name ≠ .windowFocus) :
    Same p name w (w.setFollowRemoteWindow on) := by
  refine .subscribe (.modify .refl ?_ rfl) focus
  cases name <;> first | rfl | contradiction

/-- Following a window subscribes even when several displays are shown. -/
theorem setFollowRemoteWindow_sync_iff :
    Sync p (w.setFollowRemoteWindow on) .windowFocus ↔
      ¬ (.windowFocus ∈ w.server.services ∧ on = true ∧ w.conn.multiUiSession = true) := by
  unfold Sync setFollowRemoteWindow wanted
  by_cases hosted : .windowFocus ∈ w.server.services <;> cases on <;>
    cases multi : w.conn.multiUiSession <;> simp [Server.subscribe_isSubed, hosted, multi]

theorem subscribeAudio_same (audio : name ≠ .audio) : Same p name w w.subscribeAudio :=
  .ite (fun _ => .ite (fun _ => .subscribe .refl audio) (fun _ => .refl))
    (fun _ => .subscribe .refl audio)

theorem subscribeAudio_sync (remote : w.conn.isAuthedViewCameraConn = false) :
    Sync p w.subscribeAudio .audio := by
  unfold subscribeAudio
  rw [if_neg (by simp [remote])]
  exact sync_subscribe fun _ asked => Option.some.inj asked

theorem setDisableAudio_same (audio : name ≠ .audio) : Same p name w (w.setDisableAudio on) := by
  refine .trans ?_ (subscribeAudio_same audio)
  refine .modify .refl ?_ rfl
  cases name <;> first | rfl | contradiction

theorem setEnableFileTransfer_same (file : name ≠ .fileClipboard) :
    Same p name w (w.setEnableFileTransfer p on) := by
  have set : Same p name w (w.modify fun c => { c with enableFileTransfer := on }) := by
    refine .modify .refl ?_ rfl
    cases name <;> first | rfl | contradiction
  have told : Same p name w (if p.os = .windows then
      (w.modify fun c => { c with enableFileTransfer := on }).sendToCm (.clipboardFileEnabled
        (w.modify fun c => { c with enableFileTransfer := on }).conn.fileTransferEnabled)
      else w.modify fun c => { c with enableFileTransfer := on }) :=
    .ite (fun _ => .emit set) (fun _ => set)
  exact .ite (fun _ => .subscribe (.ite (fun _ => .emit told) (fun _ => told)) file) (fun _ => told)

theorem setDisableClipboard_same (clipboard : name ≠ .clipboard) (file : name ≠ .fileClipboard) :
    Same p name w (w.setDisableClipboard p on) := by
  refine .subscribe (.modify .refl ?_ rfl) clipboard
  cases name <;> first | rfl | contradiction

theorem setDisableClipboard_sync : Sync p (w.setDisableClipboard p on) .clipboard :=
  sync_subscribe fun _ asked => Option.some.inj asked

theorem setDisableKeyboard_same (clipboard : name ≠ .clipboard) (file : name ≠ .fileClipboard)
    (cursor : name ≠ .cursor) : Same p name w (w.setDisableKeyboard p on) := by
  have set (sub : Bool) : Same p name w
      ((w.modify fun c => { c with disableKeyboard := on }).subscribe .clipboard sub) := by
    refine .subscribe (.modify .refl ?_ rfl) clipboard
    cases name <;> first | rfl | contradiction
  exact .subscribe (.ite (fun _ => .subscribe (set _) file) (fun _ => set _)) cursor

theorem setDisableKeyboard_sync (touched : name = .clipboard ∨ name = .fileClipboard ∨ name = .cursor) :
    Sync p (w.setDisableKeyboard p on) name := by
  let set := w.modify fun c => { c with disableKeyboard := on }
  let clip := set.subscribe .clipboard (set.conn.canSubClipboardService p)
  have unfolded : w.setDisableKeyboard p on =
      (if p.unixFileCopyPaste then
        clip.subscribe .fileClipboard (clip.conn.canSubFileClipboardService p)
      else clip).subscribe .cursor (set.conn.peerKeyboardEnabled || set.conn.showRemoteCursor) := by
    simp only [setDisableKeyboard, clip, set]
    split <;> rfl
  have clip_ : Sync p clip .clipboard := sync_subscribe fun _ asked => Option.some.inj asked
  rw [unfolded]
  by_cases unix : p.unixFileCopyPaste = true
  · rw [if_pos unix]
    rcases touched with rfl | rfl | rfl
    · exact (Same.subscribe (Same.subscribe .refl (by decide)) (by decide)).sync_iff.mpr clip_
    · refine (Same.subscribe .refl (by decide)).sync_iff.mpr (sync_subscribe fun want asked => ?_)
      rw [wanted, if_pos unix] at asked
      exact Option.some.inj asked
    · exact sync_subscribe fun _ asked => Option.some.inj asked
  · rw [if_neg unix]
    rcases touched with rfl | rfl | rfl
    · exact (Same.subscribe .refl (by decide)).sync_iff.mpr clip_
    · intro _ want asked
      rw [wanted, if_neg unix] at asked
      cases asked
    · exact sync_subscribe fun _ asked => Option.some.inj asked

theorem setEnableFileTransfer_sync : Sync p (w.setEnableFileTransfer p on) .fileClipboard := by
  by_cases unix : p.unixFileCopyPaste = true
  · simp only [setEnableFileTransfer, if_pos unix]
    refine sync_subscribe fun want asked => ?_
    rw [wanted, if_pos unix] at asked
    exact Option.some.inj asked
  · intro _ want asked
    rw [wanted, if_neg unix] at asked
    cases asked

/-- The options before and after those that concern a service. -/
theorem updateMediaOptions_same : Same p name w (w.updateMediaOptions o) := by
  have quality : Same p name w (w.updateImageQuality o) := by
    unfold updateImageQuality
    split
    · exact .refl
    · exact .ite (fun _ => .emit .refl) (fun _ => .refl)
  have fps : Same p name w (if o.customFps > 0 then (w.updateImageQuality o).emit .videoQos
      else w.updateImageQuality o) := .ite (fun _ => .emit quality) (fun _ => quality)
  have decoding : Same p name w ((w.updateImageQuality o).updateFpsAndDecoding o) :=
    .ite (fun _ => .emit fps) (fun _ => fps)
  refine decoding.trans (.withOption fun _ => .modify .refl ?_ rfl)
  cases name <;> rfl

theorem turnOnPrivacy_same (implKey : String) : Same p name w (w.turnOnPrivacy env implKey) := by
  have started : Same p name w ((if env.isInPrivacyMode && env.prePrivacyImplKey.isSome then
      w.send (.privacyMode "PrvOffSucceeded" "") else w).emit (.turnOnPrivacy implKey)) :=
    .emit (.ite (fun _ => .emit .refl) (fun _ => .refl))
  refine .ite (fun _ => .emit .refl) (fun _ => ?_)
  cases env.turnOnPrivacyRes with
  | none => exact .emit started
  | some res =>
      cases res with
      | error e => exact .emit (.ite (fun _ => .emit started) (fun _ => started))
      | ok on =>
          cases on with
          | false => exact .emit started
          | true => exact .ite (fun _ => .emit started) (fun _ => .emit (.emit started))

theorem updatePrivacyMode_same : Same p name w (w.updatePrivacyMode env o) := by
  refine .ite (fun _ => ?_) (fun _ => .refl)
  split
  · exact .ite (fun _ => turnOnPrivacy_same env "") (fun _ => .refl)
  · exact .ite (fun _ => .ite (fun _ => .emit .refl) (fun _ => .emit (.emit .refl)))
      (fun _ => .refl)
  · exact .refl

theorem updateBlockInput_same : Same p name w (w.updateBlockInput o) := by
  unfold updateBlockInput
  split
  · exact .ite (fun _ => .emit .refl) (fun _ => .emit .refl)
  · exact .ite (fun _ => .emit .refl) (fun _ => .emit .refl)
  · exact .refl

theorem updateTerminalPersistence_same : Same p name w (w.updateTerminalPersistence on) := by
  refine .emit (.modify .refl ?_ rfl)
  cases name <;> rfl

theorem setShowMyCursor_same : Same p name w (w.setShowMyCursor env on) := by
  have set : Same p name w (w.modify fun c => { c with showMyCursor := on }) := by
    refine .modify .refl ?_ rfl
    cases name <;> rfl
  exact .ite (fun _ => .emit set) (fun _ => .ite (fun _ => .emit set) (fun _ => set))

theorem updateActionOptions_same : Same p name w (w.updateActionOptions p env o) := by
  unfold updateActionOptions
  extract_lets privacy terminal
  have privacy_ : Same p name w privacy :=
    (updatePrivacyMode_same o env).trans (updateBlockInput_same o)
  have terminal_ : Same p name w terminal :=
    .ite (fun _ => privacy_.trans (.withOption fun on => updateTerminalPersistence_same on))
      (fun _ => privacy_)
  exact .ite (fun _ => terminal_.trans (.withOption fun on => setShowMyCursor_same on env))
    (fun _ => terminal_)

theorem Sync.then_same {w w' : World} (sync : Sync p w name) (same : Same p name w w') :
    Sync p w' name :=
  same.sync_iff.mpr sync

theorem setFollowRemoteCursor_same : Same p name w (w.setFollowRemoteCursor on) := by
  refine .modify .refl ?_ rfl
  cases name <;> rfl

/-- The cursor options move nothing but what they set. -/
theorem read_updateCursorOptions (read : World → β)
    (cursor : ∀ on w, read (w.setShowRemoteCursor on) = read w)
    (follow : ∀ on w, read (w.setFollowRemoteCursor on) = read w) :
    read (w.updateCursorOptions p o) = read w := by
  unfold updateCursorOptions
  split
  · exact (read_withOption read fun on => follow on _).trans
      (read_withOption read fun on => cursor on w)
  · rfl

theorem updateCursorOptions_same (cursor : name ≠ .cursor) (pos : name ≠ .pos) :
    Same p name w (w.updateCursorOptions p o) :=
  .ite (fun _ => (Same.withOption fun on => setShowRemoteCursor_same on cursor pos).trans
    (.withOption fun on => setFollowRemoteCursor_same on)) (fun _ => .refl)

theorem updateCursorOptions_sync (sync : Sync p w name) :
    Sync p (w.updateCursorOptions p o) name := by
  unfold updateCursorOptions
  split
  · have cursor : Sync p (w.withOption o.showRemoteCursor setShowRemoteCursor) name := by
      refine sync_withOption sync fun on => ?_
      by_cases touched : name = .cursor ∨ name = .pos
      · exact setShowRemoteCursor_sync on touched
      · exact sync.then_same (setShowRemoteCursor_same on (fun same => touched (.inl same))
          fun same => touched (.inr same))
    exact cursor.then_same (.withOption fun on => setFollowRemoteCursor_same on)
  · exact sync

/-- The window focus is the one service whose option looks at nothing else, and the
    file clipboard the one that the clipboard option forgets. Any other service is
    kept in step by the options. -/
theorem updateServiceOptions_sync (remote : w.conn.isAuthedViewCameraConn = false)
    (focus : name ≠ .windowFocus) (file : name ≠ .fileClipboard) (sync : Sync p w name) :
    Sync p (w.updateServiceOptions p o) name := by
  unfold updateServiceOptions
  extract_lets cursor followWindow audio fileTransfer clipboard
  have followWindow_ : Sync p followWindow name :=
    (updateCursorOptions_sync o sync).then_same
      (.withOption fun on => setFollowRemoteWindow_same on focus)
  have remote' : followWindow.conn.isAuthedViewCameraConn = false := by
    let read (w : World) : Bool := w.conn.isAuthedViewCameraConn
    have cursorRead : read cursor = read w :=
      read_updateCursorOptions o read (fun _ _ => rfl) (fun _ _ => rfl)
    exact ((read_withOption read fun _ => rfl).trans cursorRead).trans remote
  have audio_ : Sync p audio name := by
    refine sync_withOption followWindow_ fun on => ?_
    by_cases touched : name = .audio
    · subst touched
      exact subscribeAudio_sync remote'
    · exact followWindow_.then_same (setDisableAudio_same on touched)
  have fileTransfer_ : Sync p fileTransfer name :=
    audio_.then_same (.ite (fun _ => .withOption fun on => setEnableFileTransfer_same on file)
      (fun _ => .refl))
  have clipboard_ : Sync p clipboard name := by
    refine sync_withOption fileTransfer_ fun on => ?_
    by_cases touched : name = .clipboard
    · subst touched
      exact setDisableClipboard_sync on
    · exact fileTransfer_.then_same (setDisableClipboard_same on touched file)
  refine sync_withOption clipboard_ fun on => ?_
  by_cases touched : name = .clipboard ∨ name = .fileClipboard ∨ name = .cursor
  · exact setDisableKeyboard_sync on touched
  · exact clipboard_.then_same (setDisableKeyboard_same on (fun same => touched (.inl same)) file
      fun same => touched (.inr (.inr same)))

theorem updateServiceOptions_focus_iff (sync : Sync p w .windowFocus) :
    Sync p (w.updateServiceOptions p o) .windowFocus ↔
      ¬ (.windowFocus ∈ w.server.services ∧ o.followRemoteWindow = some .yes ∧
        w.conn.multiUiSession = true) := by
  unfold updateServiceOptions
  extract_lets cursor followWindow audio fileTransfer clipboard
  have before : Same p .windowFocus w cursor := updateCursorOptions_same o (by decide) (by decide)
  have multi : cursor.conn.multiUiSession = w.conn.multiUiSession :=
    read_updateCursorOptions o (fun w => w.conn.multiUiSession) (fun _ _ => rfl) (fun _ _ => rfl)
  have after : Same p .windowFocus followWindow
      (clipboard.withOption o.disableKeyboard (setDisableKeyboard p)) := by
    have audio_ : Same p .windowFocus followWindow audio :=
      .withOption fun on => setDisableAudio_same on (by decide)
    have file_ : Same p .windowFocus followWindow fileTransfer :=
      .ite (fun _ => audio_.trans (.withOption fun on => setEnableFileTransfer_same on (by decide)))
        (fun _ => audio_)
    have clipboard_ : Same p .windowFocus followWindow clipboard :=
      file_.trans (.withOption fun on => setDisableClipboard_same on (by decide) (by decide))
    exact clipboard_.trans
      (.withOption fun on => setDisableKeyboard_same on (by decide) (by decide) (by decide))
  rw [after.sync_iff, ← before.hosted, ← multi]
  have start := sync.then_same before
  simp only [followWindow]
  unfold World.withOption
  split
  · rename_i asked
    rw [setFollowRemoteWindow_sync_iff, asked]
    simp
  · rename_i asked
    rw [setFollowRemoteWindow_sync_iff, asked]
    simp
  · rename_i yes no
    exact iff_of_true start fun both => yes both.2.1

/-- What an option leaves a flag at. -/
def applied (q : Option BoolOption) (old : Bool) : Bool :=
  match q with
  | some .yes => true
  | some .no => false
  | _ => old

/-- The clipboard option changes what is wanted of the file clipboard and nobody
    acts on it. -/
def fileLeftBehind (p : Platform) (c : Connection) (o : OptionMessage) : Bool :=
  (o.disableKeyboard ≠ some .yes ∧ o.disableKeyboard ≠ some .no) ∧
    applied o.disableClipboard c.disableClipboard ≠ c.disableClipboard ∧ c.clipboard ∧ c.file ∧
      applied o.enableFileTransfer c.enableFileTransfer ∧ ¬ p.oneWayFileTransfer

theorem setDisableClipboard_file_iff (unix : p.unixFileCopyPaste = true)
    (hosted : .fileClipboard ∈ w.server.services) (sync : Sync p w .fileClipboard) :
    Sync p (w.setDisableClipboard p on) .fileClipboard ↔
      ¬ (on ≠ w.conn.disableClipboard ∧ w.conn.clipboard = true ∧ w.conn.file = true ∧
        w.conn.enableFileTransfer = true ∧ p.oneWayFileTransfer = false) := by
  rw [setDisableClipboard, sync_subscribe_other (by decide),
    sync_modify_iff rfl hosted (if_pos unix) (if_pos unix) sync]
  simp only [Connection.canSubFileClipboardService, Connection.clipboardEnabled,
    Connection.fileTransferEnabled]
  generalize w.conn.disableClipboard = disabled
  generalize w.conn.clipboard = clipboard
  generalize w.conn.file = file
  generalize w.conn.enableFileTransfer = enabled
  generalize p.oneWayFileTransfer = oneWay
  revert on disabled clipboard file enabled oneWay
  decide

theorem withOption_enableFileTransfer (q : Option BoolOption) :
    (w.withOption q (setEnableFileTransfer p)).conn =
      { w.conn with enableFileTransfer := applied q w.conn.enableFileTransfer } := by
  have set (on : Bool) : (w.setEnableFileTransfer p on).conn =
      { w.conn with enableFileTransfer := on } := by
    simp only [setEnableFileTransfer, tryEmptyFileClipboard]
    split_ifs <;> rfl
  cases q with
  | none => rfl
  | some value =>
      cases value with
      | notSet => rfl
      | yes => exact set true
      | no => exact set false

/-- The flags the file clipboard follows, as the cursor, window and audio options
    leave them. -/
theorem read_soundOptions (read : Connection → β)
    (cursor : ∀ on c, read { c with showRemoteCursor := on } = read c)
    (follow : ∀ on c, read { c with followRemoteCursor := on } = read c)
    (window : ∀ on c, read { c with followRemoteWindow := on } = read c)
    (audio : ∀ on c, read { c with disableAudio := on } = read c) :
    read (((w.updateCursorOptions p o).withOption o.followRemoteWindow
      setFollowRemoteWindow).withOption o.disableAudio setDisableAudio).conn = read w.conn := by
  have audio_ (on : Bool) (w : World) : read (w.setDisableAudio on).conn = read w.conn := by
    refine Eq.trans ?_ (audio on w.conn)
    simp only [setDisableAudio, subscribeAudio]
    split_ifs <;> rfl
  exact (read_withOption (fun w => read w.conn) fun on => audio_ on _).trans
    ((read_withOption (fun w => read w.conn) fun on => window on _).trans
      (read_updateCursorOptions o (fun w => read w.conn) (fun on w => cursor on w.conn)
        fun on w => follow on w.conn))

theorem updateServiceOptions_file_iff (unix : p.unixFileCopyPaste = true)
    (hosted : .fileClipboard ∈ w.server.services) (sync : Sync p w .fileClipboard) :
    Sync p (w.updateServiceOptions p o) .fileClipboard ↔ fileLeftBehind p w.conn o = false := by
  unfold updateServiceOptions
  extract_lets cursor followWindow audio fileTransfer clipboard
  have fileTransfer_eq : fileTransfer =
      audio.withOption o.enableFileTransfer (setEnableFileTransfer p) :=
    if_pos (by simp [Platform.hasCliprdr, unix])
  have sound : Same p .fileClipboard w audio :=
    ((updateCursorOptions_same o (by decide) (by decide)).trans
      (.withOption fun on => setFollowRemoteWindow_same on (by decide))).trans
      (.withOption fun on => setDisableAudio_same on (by decide))
  have disabled : audio.conn.disableClipboard = w.conn.disableClipboard :=
    read_soundOptions o (fun c => c.disableClipboard) (fun _ _ => rfl) (fun _ _ => rfl)
      (fun _ _ => rfl) (fun _ _ => rfl)
  have enabled : audio.conn.enableFileTransfer = w.conn.enableFileTransfer :=
    read_soundOptions o (fun c => c.enableFileTransfer) (fun _ _ => rfl) (fun _ _ => rfl)
      (fun _ _ => rfl) (fun _ _ => rfl)
  have permissions : audio.conn.toPermissions = w.conn.toPermissions :=
    read_soundOptions o (fun c => c.toPermissions) (fun _ _ => rfl) (fun _ _ => rfl)
      (fun _ _ => rfl) (fun _ _ => rfl)
  have fileTransfer_ : Sync p fileTransfer .fileClipboard := by
    rw [fileTransfer_eq]
    exact sync_withOption (sync.then_same sound) fun on => setEnableFileTransfer_sync on
  have conn : fileTransfer.conn = { audio.conn with
      enableFileTransfer := applied o.enableFileTransfer w.conn.enableFileTransfer } := by
    rw [fileTransfer_eq, ← enabled]
    exact withOption_enableFileTransfer _
  have hosted' : .fileClipboard ∈ fileTransfer.server.services := by
    have services : fileTransfer.server.services = audio.server.services := by
      rw [fileTransfer_eq]
      refine read_withOption (fun w => w.server.services) fun on => ?_
      simp only [setEnableFileTransfer, tryEmptyFileClipboard]
      split_ifs <;> simp
    rw [services]
    exact sound.hosted.mpr hosted
  have clipboard_iff : Sync p clipboard .fileClipboard ↔
      ¬ (applied o.disableClipboard w.conn.disableClipboard ≠ w.conn.disableClipboard ∧
        w.conn.clipboard = true ∧ w.conn.file = true ∧
        applied o.enableFileTransfer w.conn.enableFileTransfer = true ∧
        p.oneWayFileTransfer = false) := by
    have set (on : Bool) := setDisableClipboard_file_iff on unix hosted' fileTransfer_
    simp only [conn, permissions, disabled] at set
    simp only [clipboard]
    cases o.disableClipboard with
    | none => exact iff_of_true fileTransfer_ fun behind => behind.1 rfl
    | some value =>
        cases value with
        | notSet => exact iff_of_true fileTransfer_ fun behind => behind.1 rfl
        | yes => exact set true
        | no => exact set false
  have keyboard (on : Bool) : Sync p (clipboard.setDisableKeyboard p on) .fileClipboard :=
    setDisableKeyboard_sync on (.inr (.inl rfl))
  simp only [fileLeftBehind, decide_eq_false_iff_not]
  unfold World.withOption
  split
  · rename_i asked
    exact iff_of_true (keyboard true) fun behind => behind.1.1 asked
  · rename_i asked
    exact iff_of_true (keyboard false) fun behind => behind.1.2 asked
  · rename_i yes no
    rw [clipboard_iff, Bool.not_eq_true]
    exact not_congr ⟨fun behind => ⟨⟨yes, no⟩, behind⟩, And.right⟩

end Options

section Permissions

variable {name : ServiceName} {w : World} (enabled : Bool)

theorem switchKeyboard_sync (cursor : name ≠ .cursor) (sync : Sync p w name) :
    Sync p (w.switchKeyboard p enabled) name := by
  unfold switchKeyboard sendPermission
  extract_lets told clipboard file
  rw [sync_subscribe_other cursor]
  have clipboard_ : name ≠ .fileClipboard → Sync p clipboard name := by
    intro notFile
    by_cases touched : name = .clipboard
    · subst touched
      exact sync_subscribe fun _ asked => Option.some.inj asked
    · refine (sync_subscribe_other touched).mpr (sync.then_same (.emit (.modify .refl ?_ rfl)))
      cases name <;> first | rfl | contradiction
  by_cases touched : name = .fileClipboard
  · subst touched
    by_cases unix : p.unixFileCopyPaste = true
    · simp only [file, if_pos unix]
      exact sync_subscribe fun _ asked => Option.some.inj ((if_pos unix).symm.trans asked)
    · intro _ want asked
      rw [wanted, if_neg unix] at asked
      cases asked
  · simp only [file]
    split
    · exact (sync_subscribe_other touched).mpr (clipboard_ touched)
    · exact clipboard_ touched

/-- The cursor service follows the permission alone, although the peer may have
    disabled its keyboard. -/
theorem switchKeyboard_cursor_iff :
    Sync p (w.switchKeyboard p enabled) .cursor ↔
      ¬ (.cursor ∈ w.server.services ∧ enabled = true ∧ w.conn.disableKeyboard = true ∧
        w.conn.showRemoteCursor = false) := by
  unfold switchKeyboard sendPermission
  extract_lets told clipboard file
  have services : file.server.services = w.server.services := by
    simp only [file, clipboard, told]
    split_ifs <;> simp
  have conn : file.conn = { w.conn with keyboard := enabled } := by
    simp only [file, clipboard, told]
    split_ifs <;> rfl
  unfold Sync
  simp only [subscribe_server, subscribe_conn, Server.subscribe_services, services,
    Server.subscribe_isSubed, true_and, conn, wanted, Option.some.injEq, forall_eq']
  by_cases hosted : .cursor ∈ w.server.services
  · simp only [hosted, if_true, true_and, Connection.peerKeyboardEnabled, true_implies]
    generalize w.conn.disableKeyboard = disabled
    generalize w.conn.showRemoteCursor = shown
    cases enabled <;> cases disabled <;> cases shown <;> simp
  · simp [hosted]

theorem switchClipboard_sync (file : name ≠ .fileClipboard) (sync : Sync p w name) :
    Sync p (w.switchClipboard p enabled) name := by
  by_cases touched : name = .clipboard
  · subst touched
    exact sync_subscribe fun _ asked => Option.some.inj asked
  · refine (sync_subscribe_other touched).mpr (sync.then_same (.emit (.modify .refl ?_ rfl)))
    cases name <;> first | rfl | contradiction

/-- The clipboard permission moves the wish for the file clipboard and nobody acts
    on it. -/
theorem switchClipboard_file_iff (unix : p.unixFileCopyPaste = true)
    (hosted : .fileClipboard ∈ w.server.services) (sync : Sync p w .fileClipboard) :
    Sync p (w.switchClipboard p enabled) .fileClipboard ↔
      ¬ (enabled ≠ w.conn.clipboard ∧ w.conn.disableClipboard = false ∧ w.conn.file = true ∧
        w.conn.enableFileTransfer = true ∧ p.oneWayFileTransfer = false) := by
  rw [switchClipboard, sync_subscribe_other (by decide), sendPermission, send_eq,
    (Same.emit .refl).sync_iff, sync_modify_iff rfl hosted (if_pos unix) (if_pos unix) sync]
  simp only [Connection.canSubFileClipboardService, Connection.clipboardEnabled,
    Connection.fileTransferEnabled]
  generalize w.conn.disableClipboard = disabled
  generalize w.conn.clipboard = clipboard
  generalize w.conn.file = file
  generalize w.conn.enableFileTransfer = enableFileTransfer
  generalize p.oneWayFileTransfer = oneWay
  revert enabled disabled clipboard file enableFileTransfer oneWay
  decide

theorem switchAudio_sync (authorized : w.conn.authorized = true)
    (remote : w.conn.isAuthedViewCameraConn = false) (sync : Sync p w name) :
    Sync p (w.switchAudio enabled) name := by
  unfold switchAudio
  extract_lets told
  have authorized' : told.conn.authorized = true := authorized
  rw [if_pos authorized']
  by_cases touched : name = .audio
  · subst touched
    exact subscribeAudio_sync remote
  · refine (subscribeAudio_same touched).sync_iff.mpr
      (sync.then_same (.emit (.modify .refl ?_ rfl)))
    cases name <;> first | rfl | contradiction

theorem switchFile_sync (sync : Sync p w name) : Sync p (w.switchFile p enabled) name := by
  unfold switchFile sendPermission
  extract_lets told emptied
  by_cases touched : name = .fileClipboard
  · subst touched
    by_cases unix : p.unixFileCopyPaste = true
    · rw [if_pos unix]
      exact sync_subscribe fun _ asked => Option.some.inj ((if_pos unix).symm.trans asked)
    · intro _ want asked
      rw [wanted, if_neg unix] at asked
      cases asked
  · have told_ : Sync p told name := by
      refine sync.then_same (.emit (.modify .refl ?_ rfl))
      cases name <;> first | rfl | contradiction
    split
    · refine (sync_subscribe_other touched).mpr (told_.then_same ?_)
      exact .ite (fun _ => .emit .refl) (fun _ => .refl)
    · exact told_

end Permissions

section Displays

variable {name : ServiceName} {w : World}

/-- Adding video services leaves any other service alone. -/
theorem tryAddService_other (s : Server) {other : ServiceName} (id : ConnId)
    (different : name ≠ other) :
    (name ∈ (s.tryAddService other).services ↔ name ∈ s.services) ∧
      ((s.tryAddService other).isSubed name id ↔ s.isSubed name id) := by
  constructor
  · unfold Server.tryAddService Server.addService
    split
    · exact .rfl
    · simp [different]
  · rw [Server.tryAddService_isSubed]
    exact ⟨And.left, fun subed => ⟨subed, fun same => absurd same different⟩⟩

theorem foldl_tryAddService_other (source : VideoSource) (id : ConnId) (displays : List Nat)
    (notVideo : name.isVideo = false) (s : Server) :
    (name ∈ (displays.foldl (fun s d => s.tryAddService (.video source d)) s).services ↔
        name ∈ s.services) ∧
      ((displays.foldl (fun s d => s.tryAddService (.video source d)) s).isSubed name id ↔
        s.isSubed name id) := by
  induction displays generalizing s with
  | nil => exact ⟨.rfl, .rfl⟩
  | cons d rest ih =>
      have different : name ≠ .video source d := by
        rintro rfl
        cases notVideo
      obtain ⟨hosted, subed⟩ := tryAddService_other s id different
      obtain ⟨hosted', subed'⟩ := ih (s.tryAddService (.video source d))
      exact ⟨hosted'.trans hosted, subed'.trans subed⟩

theorem wanted_video {c : Connection} (video : name.isVideo = true) : wanted p c name = none := by
  cases name <;> first | rfl | cases video

theorem captureDisplays_sync (add sub set : List Nat) (sync : Sync p w name) :
    Sync p (w.captureDisplays add sub set) name := by
  by_cases video : name.isVideo = true
  · intro _ want asked
    rw [wanted_video video] at asked
    cases asked
  have notVideo : name.isVideo = false := by simpa using video
  unfold World.captureDisplays
  extract_lets source id addMissing added captured multiUiSession followed
  obtain ⟨hosted, subed⟩ := foldl_tryAddService_other source id add notVideo w.server
  obtain ⟨hosted', subed'⟩ := foldl_tryAddService_other source id set notVideo
    (add.foldl addMissing w.server)
  have captured_hosted : name ∈ captured.services ↔ name ∈ w.server.services := by
    rw [← hosted, ← hosted']
    simp only [captured]
    split_ifs <;> rfl
  have captured_subed : captured.isSubed name id ↔ w.server.isSubed name id := by
    rw [← subed, ← subed']
    simp only [captured]
    split_ifs <;> exact Server.captureDisplays_isSubed_of_not_video _ _ _ _ _ _ notVideo
  by_cases focus : name = .windowFocus
  · subst focus
    by_cases follow : w.conn.followRemoteWindow = true
    · have followed_eq : followed = captured.subscribe .windowFocus id !multiUiSession :=
        if_pos follow
      intro hosted want asked
      have captures : .windowFocus ∈ captured.services := by
        rw [modify_server, setServer_server, followed_eq, Server.subscribe_services] at hosted
        exact hosted
      have wish : (!multiUiSession) = want := by
        simpa [wanted, follow] using asked
      rw [modify_server, setServer_server, followed_eq, modify_conn, setServer_conn]
      exact (Server.subscribe_isSubed _ _ _ _ _).trans
        (by rw [if_pos ⟨rfl, captures⟩, wish])
    · have followed_eq : followed = captured := if_neg follow
      have same : Same p .windowFocus w
          ((w.setServer followed).modify fun c => { c with multiUiSession := multiUiSession }) := by
        rw [followed_eq]
        refine ⟨captured_hosted, ?_, captured_subed⟩
        have unfollowed : w.conn.followRemoteWindow = false := by simpa using follow
        simp [wanted, unfollowed]
      exact sync.then_same same
  · have followed_hosted : name ∈ followed.services ↔ name ∈ captured.services := by
      simp only [followed]
      split_ifs <;> simp
    have followed_subed : followed.isSubed name id ↔ captured.isSubed name id := by
      simp only [followed]
      split_ifs
      · rw [Server.subscribe_isSubed, if_neg fun both => focus both.1]
      · rfl
    refine sync.then_same
      ⟨followed_hosted.trans captured_hosted, ?_, followed_subed.trans captured_subed⟩
    cases name <;> first | rfl | contradiction

end Displays

/-- The events that move a permission, an option or the captured displays. -/
def concernsServices : Event → Bool
  | .cm _ (.switchPermission _ _) | .peer _ (.misc (.option _))
  | .peer _ (.misc (.captureDisplays _ _ _)) => true
  | _ => false

/-- The file clipboard is hosted and can be served to the peer. -/
def servesFileClipboard (p : Platform) (w : World) : Bool :=
  p.unixFileCopyPaste && w.server.contains .fileClipboard

/-- The events that move what is wanted of a service without acting on it, or act
    on it against what is wanted. -/
def outOfStep (p : Platform) (w : World) : Event → Bool
  | .cm _ (.switchPermission name enabled) =>
      if name = "keyboard" then
        w.server.contains .cursor && enabled && w.conn.disableKeyboard && !w.conn.showRemoteCursor
      else if name = "clipboard" then
        servesFileClipboard p w && enabled != w.conn.clipboard && !w.conn.disableClipboard &&
          w.conn.file && w.conn.enableFileTransfer && !p.oneWayFileTransfer
      else false
  | .peer _ (.misc (.option o)) =>
      servesFileClipboard p w && fileLeftBehind p w.conn o ||
        w.server.contains .windowFocus && o.followRemoteWindow = some .yes && w.conn.multiUiSession
  | _ => false

theorem inSync_iff_sync {service : ServiceName} (others : ∀ name, name ≠ service → Sync p w name) :
    InSync p w ↔ Sync p w service := by
  refine ⟨fun inSync => inSync service, fun sync name => ?_⟩
  by_cases same : name = service
  · exact same ▸ sync
  · exact others name same

/-- A file clipboard that nobody can be served is in step. -/
theorem sync_fileClipboard_of_not_served (services : w'.server.services = w.server.services)
    (unserved : servesFileClipboard p w = false) : Sync p w' .fileClipboard := by
  intro hosted want asked
  rw [services] at hosted
  have noUnix : ¬ p.unixFileCopyPaste = true := by
    intro unix
    simp [servesFileClipboard, Server.contains, unix, hosted] at unserved
  rw [wanted, if_neg noUnix] at asked
  cases asked

theorem served_iff : servesFileClipboard p w = true ↔
    p.unixFileCopyPaste = true ∧ .fileClipboard ∈ w.server.services := by
  simp [servesFileClipboard, Server.contains]

theorem switchKeyboard_inSync_iff (enabled : Bool) (inSync : InSync p w) :
    InSync p (w.switchKeyboard p enabled) ↔
      (w.server.contains .cursor && enabled && w.conn.disableKeyboard &&
        !w.conn.showRemoteCursor) = false := by
  rw [inSync_iff_sync (fun name cursor => switchKeyboard_sync enabled cursor (inSync name)),
    switchKeyboard_cursor_iff]
  simp [Server.contains]

theorem switchClipboard_inSync_iff (enabled : Bool) (inSync : InSync p w) :
    InSync p (w.switchClipboard p enabled) ↔
      (servesFileClipboard p w && enabled != w.conn.clipboard && !w.conn.disableClipboard &&
        w.conn.file && w.conn.enableFileTransfer && !p.oneWayFileTransfer) = false := by
  rw [inSync_iff_sync (fun name file => switchClipboard_sync enabled file (inSync name))]
  by_cases served : servesFileClipboard p w = true
  · obtain ⟨unix, hosted⟩ := served_iff.mp served
    rw [switchClipboard_file_iff enabled unix hosted (inSync .fileClipboard), served]
    simp
  · have unserved : servesFileClipboard p w = false := by simpa using served
    refine iff_of_true (sync_fileClipboard_of_not_served ?_ unserved) ?_
    · exact Server.subscribe_services ..
    · simp [unserved]

theorem switchPermission_inSync_iff (env : Env) (name : String) (enabled : Bool)
    (session : InSession .remote w.conn) (inSync : InSync p w) :
    InSync p (w.switchPermission p name enabled) ↔
      outOfStep p w (.cm env (.switchPermission name enabled)) = false := by
  simp only [switchPermission, outOfStep]
  by_cases keyboard : name = "keyboard"
  · rw [if_pos keyboard, if_pos keyboard]
    exact switchKeyboard_inSync_iff enabled inSync
  rw [if_neg keyboard, if_neg keyboard]
  by_cases clipboard : name = "clipboard"
  · rw [if_pos clipboard, if_pos clipboard]
    exact switchClipboard_inSync_iff enabled inSync
  rw [if_neg clipboard, if_neg clipboard]
  have told {f : Connection → Connection} {permission : PermissionKind}
      (wish : ∀ service, wanted p (f w.conn) service = wanted p w.conn service)
      (id : (f w.conn).id = w.conn.id) :
      InSync p ((w.modify f).sendPermission permission enabled) :=
    fun service => (inSync service).then_same (.emit (.modify .refl (wish service) id))
  refine iff_of_true ?_ rfl
  split_ifs
  · exact fun service =>
      switchAudio_sync enabled session.authorized session.remote_not_camera (inSync service)
  · exact fun service => switchFile_sync enabled (inSync service)
  · exact told (fun service => by cases service <;> rfl) rfl
  · exact told (fun service => by cases service <;> rfl) rfl
  · exact told (fun service => by cases service <;> rfl) rfl
  · exact inSync

theorem updateServiceOptions_services (o : OptionMessage) (w : World) :
    (w.updateServiceOptions p o).server.services = w.server.services := by
  let read (w : World) : Finset ServiceName := w.server.services
  have audio (on : Bool) (w : World) : read (w.setDisableAudio on) = read w := by
    simp only [read, setDisableAudio, subscribeAudio]
    split_ifs <;> simp
  have file (on : Bool) (w : World) : read (w.setEnableFileTransfer p on) = read w := by
    simp only [read, setEnableFileTransfer, tryEmptyFileClipboard]
    split_ifs <;> simp
  have keyboard (on : Bool) (w : World) : read (w.setDisableKeyboard p on) = read w := by
    simp only [read, setDisableKeyboard]
    split_ifs <;> simp
  unfold updateServiceOptions
  extract_lets cursor followWindow audio_ fileTransfer clipboard
  have cursor_ : read cursor = read w :=
    read_updateCursorOptions o read (fun _ _ => by simp [read, setShowRemoteCursor])
      fun _ _ => rfl
  have window_ : read followWindow = read cursor :=
    read_withOption read fun _ => by simp [read, setFollowRemoteWindow]
  have fileTransfer_ : read fileTransfer = read audio_ := by
    simp only [fileTransfer]
    split
    · exact read_withOption read fun on => file on _
    · rfl
  have clipboard_ : read clipboard = read fileTransfer :=
    read_withOption read fun _ => by simp [read, setDisableClipboard]
  calc read (clipboard.withOption o.disableKeyboard (setDisableKeyboard p))
    _ = read clipboard := read_withOption read fun on => keyboard on _
    _ = read audio_ := clipboard_.trans fileTransfer_
    _ = read followWindow := read_withOption read fun on => audio on _
    _ = read w := window_.trans cursor_

theorem updateServiceOptions_inSync_iff (env : Env) (o : OptionMessage)
    (remote : w.conn.isAuthedViewCameraConn = false) (inSync : InSync p w) :
    InSync p (w.updateServiceOptions p o) ↔
      outOfStep p w (.peer env (.misc (.option o))) = false := by
  have file_iff : Sync p (w.updateServiceOptions p o) .fileClipboard ↔
      (servesFileClipboard p w && fileLeftBehind p w.conn o) = false := by
    by_cases served : servesFileClipboard p w = true
    · obtain ⟨unix, hosted⟩ := served_iff.mp served
      rw [updateServiceOptions_file_iff o unix hosted (inSync .fileClipboard), served,
        Bool.true_and]
    · have unserved : servesFileClipboard p w = false := by simpa using served
      refine iff_of_true (sync_fileClipboard_of_not_served ?_ unserved) (by rw [unserved]; rfl)
      exact updateServiceOptions_services o w
  have focus_iff : Sync p (w.updateServiceOptions p o) .windowFocus ↔
      (w.server.contains .windowFocus && o.followRemoteWindow = some .yes &&
        w.conn.multiUiSession) = false := by
    rw [updateServiceOptions_focus_iff o (inSync .windowFocus)]
    simp [Server.contains]
  simp only [outOfStep]
  rw [Bool.or_eq_false_iff, ← file_iff, ← focus_iff]
  constructor
  · exact fun inSync' => ⟨inSync' .fileClipboard, inSync' .windowFocus⟩
  · rintro ⟨file, focus⟩ name
    by_cases isFile : name = .fileClipboard
    · exact isFile ▸ file
    by_cases isFocus : name = .windowFocus
    · exact isFocus ▸ focus
    · exact updateServiceOptions_sync o remote isFocus isFile (inSync name)

theorem updateOptions_inSync_iff (env : Env) (o : OptionMessage)
    (session : InSession .remote w.conn) (inSync : InSync p w) :
    InSync p (w.updateOptions p env o) ↔
      outOfStep p w (.peer env (.misc (.option o))) = false := by
  -- the media options come first and are out of the picture but for a flag of their own
  have media : (w.updateMediaOptions o).server = w.server ∧
      ∃ lock, (w.updateMediaOptions o).conn = { w.conn with lockAfterSessionEnd := lock } := by
    have quality : (w.updateImageQuality o).server = w.server ∧
        (w.updateImageQuality o).conn = w.conn := by
      unfold updateImageQuality
      cases o.imageQuality with
      | none => exact ⟨rfl, rfl⟩
      | some q =>
          dsimp only
          split_ifs <;> exact ⟨rfl, rfl⟩
    have decoding : ((w.updateImageQuality o).updateFpsAndDecoding o).server = w.server ∧
        ((w.updateImageQuality o).updateFpsAndDecoding o).conn = w.conn := by
      simp only [updateFpsAndDecoding]
      split_ifs <;> exact quality
    unfold updateMediaOptions World.withOption
    split
    · exact ⟨decoding.1, true, by rw [setLockAfterSessionEnd, modify_conn, decoding.2]⟩
    · exact ⟨decoding.1, false, by rw [setLockAfterSessionEnd, modify_conn, decoding.2]⟩
    · exact ⟨decoding.1, w.conn.lockAfterSessionEnd, decoding.2⟩
  obtain ⟨server, lock, conn⟩ := media
  have inSync₁ : InSync p (w.updateMediaOptions o) := fun name =>
    (inSync name).then_same (updateMediaOptions_same o)
  have remote₁ : (w.updateMediaOptions o).conn.isAuthedViewCameraConn = false := by
    rw [conn]
    exact session.remote_not_camera
  have same : outOfStep p (w.updateMediaOptions o) (.peer env (.misc (.option o))) =
      outOfStep p w (.peer env (.misc (.option o))) := by
    simp only [outOfStep, servesFileClipboard, fileLeftBehind, server, conn]
  rw [← same, ← updateServiceOptions_inSync_iff env o remote₁ inSync₁]
  exact forall_congr' fun name => (updateActionOptions_same o env).sync_iff

/-- An event keeps the subscriptions in step exactly when it is not one of
    `outOfStep`. -/
theorem inSync_event_iff {e : Event} (concerned : concernsServices e = true)
    (session : InSession .remote w.conn) (inSync : InSync p w) :
    InSync p (w.handleEvent p e) ↔ outOfStep p w e = false := by
  unfold concernsServices at concerned
  split at concerned
  · rename_i env name enabled
    exact switchPermission_inSync_iff env name enabled session inSync
  · rename_i env o
    have handled : w.handleEvent p (.peer env (.misc (.option o))) =
        afterMessage (w.updateOptions p env o, true) :=
      session.handle rfl nofun nofun
    rw [handled, ← updateOptions_inSync_iff env o session inSync]
    simp only [InSync, Sync, afterMessage_conn, afterMessage_server]
  · rename_i env add sub set
    have handled : w.handleEvent p (.peer env (.misc (.captureDisplays add sub set))) =
        afterMessage (w.captureDisplays add sub set, true) :=
      session.handle rfl nofun nofun
    refine iff_of_true ?_ rfl
    rw [handled]
    intro name
    have sync := captureDisplays_sync add sub set (inSync name)
    simpa only [Sync, afterMessage_conn, afterMessage_server] using sync
  · cases concerned

/-- The subscriptions with which a session starts: nothing against the wishes so
    far, and `add_connection` is told of every service that is not wanted. -/
def JoinsCleanly (p : Platform) (w : World) : Prop :=
  ∀ name ∈ w.server.services, wanted p w.conn name = some false →
    ¬ w.server.isSubed name w.conn.id ∧ name ∈ nopermServices p w.conn

instance (p : Platform) (w : World) : Decidable (JoinsCleanly p w) :=
  inferInstanceAs (Decidable (∀ name ∈ w.server.services, _ → _ ∧ _))

/-- While the loop runs, no event of `outOfStep` is handled. -/
def InStep (p : Platform) (w : World) (e : Event) : Prop :=
  w.running = true → outOfStep p w e = false

instance (p : Platform) (w : World) (e : Event) : Decidable (InStep p w e) :=
  inferInstanceAs (Decidable (_ → _))

/-- A service that is wanted is not among those kept from the connection. -/
theorem not_mem_nopermServices {c : Connection} (wish : wanted p c name = some true) :
    name ∉ nopermServices p c := by
  have shown : wanted p c .cursor = some true →
      c.peerKeyboardEnabled = false → c.showRemoteCursor = true := by
    intro wish disabled
    simpa [wanted, disabled] using wish
  cases name <;> simp_all [nopermServices, wanted]

theorem trySubMonitorServices_inSync_iff (env : Env) (remote : w.conn.isRemote = true)
    (first : w.conn.servicesSubed = false) :
    InSync p (w.trySubMonitorServices p env) ↔ JoinsCleanly p w := by
  unfold trySubMonitorServices
  rw [if_pos (by simp [remote, first])]
  extract_lets added joined
  have joined_iff {name : ServiceName} (notVideo : name.isVideo = false) :
      (name ∈ joined.services ↔ name ∈ w.server.services) ∧
        (joined.isSubed name w.conn.id ↔ w.server.isSubed name w.conn.id ∨
          (name ∈ w.server.services ∧ name ∉ nopermServices p w.conn)) := by
    have different : name ≠ .video .monitor p.primaryDisplayIdx := by
      rintro rfl
      cases notVideo
    obtain ⟨hosted, subed⟩ := tryAddService_other w.server w.conn.id different
    refine ⟨hosted, ?_⟩
    rw [Server.addConnection_isSubed, subed, hosted]
    simp [notVideo]
  have notVideo {name : ServiceName} {want : Bool} (wish : wanted p w.conn name = some want) :
      name.isVideo = false := by
    by_contra video
    rw [wanted_video (by simpa using video)] at wish
    cases wish
  have wish_eq (name : ServiceName) : wanted p ((w.setServer joined).modify fun c => { c with
      servicesSubed := true
      autoDisconnectTimer := if env.allowAutoDisconnect then some env.time else none }).conn name =
      wanted p w.conn name := by
    cases name <;> rfl
  constructor
  · intro inSync name hosted unwanted
    obtain ⟨hosted', subed⟩ := joined_iff (notVideo unwanted)
    have unsubed := inSync name (hosted'.mpr hosted) false ((wish_eq name).trans unwanted)
    rw [modify_server, setServer_server, modify_conn, setServer_conn, subed] at unsubed
    simp only [Bool.false_eq_true, iff_false, not_or, not_and, not_not] at unsubed
    exact ⟨unsubed.1, unsubed.2 hosted⟩
  · intro clean name hosted want wish
    rw [wish_eq] at wish
    obtain ⟨hosted', subed⟩ := joined_iff (notVideo wish)
    rw [modify_server, setServer_server] at hosted
    rw [modify_server, setServer_server, modify_conn, setServer_conn, subed]
    cases want with
    | false =>
        obtain ⟨unsubed, noperm⟩ := clean name (hosted'.mp hosted) wish
        simp [unsubed, noperm]
    | true => simp [hosted'.mp hosted, not_mem_nopermServices wish]

/-- A remote session is subscribed to what its permissions and options ask for
    exactly in the runs that start so and handle no event of `outOfStep`. -/
theorem inSync_iff_in_step {p : Platform} {w : World} (env : Env)
    (authorized : w.conn.authorized = true) (kind : w.conn.authedConnId = some .remote)
    (remote : w.conn.isRemote = true) (first : w.conn.servicesSubed = false)
    {events : List Event} (concerned : ∀ e ∈ events, concernsServices e = true) :
    Always (step p) (InSync p) (w.trySubMonitorServices p env) events ↔
      JoinsCleanly p w ∧ Along (step p) (InStep p) (w.trySubMonitorServices p env) events := by
  have session : InSession .remote (w.trySubMonitorServices p env).conn := by
    have login : (w.trySubMonitorServices p env).conn.toLoginState = w.conn.toLoginState := by
      unfold trySubMonitorServices
      split <;> rfl
    simp only [Connection.isRemote, Bool.and_eq_true, Bool.not_eq_true', Option.isNone_iff_eq_none]
      at remote
    obtain ⟨⟨⟨fileTransfer, socket⟩, viewCamera⟩, terminal⟩ := remote
    refine ⟨(congrArg LoginState.authorized login).trans authorized,
      (congrArg LoginState.portForwardSocket login).trans socket,
      (congrArg LoginState.authedConnId login).trans kind, ?_⟩
    simp [Connection.authConnType, login, fileTransfer, socket, viewCamera, terminal]
  have run (start : InSync p (w.trySubMonitorServices p env)) :
      Always (step p) (InSync p) (w.trySubMonitorServices p env) events ↔
        Along (step p) (InStep p) (w.trySubMonitorServices p env) events := by
    refine always_iff_along_of_events (q := fun w => InSession .remote w.conn)
      (fun w e _ => inSession_step e) ?_ concerned session start
    intro w e concerned session inSync
    unfold step InStep
    split
    · rename_i running
      exact (inSync_event_iff (w := w.awake) concerned session inSync).trans
        ⟨fun kept _ => kept, fun kept => kept running⟩
    · rename_i stopped
      exact iff_of_true inSync fun running => absurd running stopped
  rw [← trySubMonitorServices_inSync_iff env remote first]
  constructor
  · exact fun always => ⟨always.first, (run always.first).mp always⟩
  · exact fun both => (run both.1).mpr both.2

/-- A session in which the peer mutes its keyboard and the host takes it away. -/
theorem inSync_of_keyboard_taken_away :
    Always (step (.plain .linux)) (InSync (.plain .linux))
      ((World.opening (.plain .linux) {} {.cursor, .pos, .clipboard, .audio} false).authorize
        |>.trySubMonitorServices (.plain .linux) {})
      [.peer {} (.misc (.option { disableKeyboard := some .yes })),
        .cm {} (.switchPermission "keyboard" false),
        .peer {} (.misc (.captureDisplays [1] [] []))] :=
  (inSync_iff_in_step {} rfl rfl rfl rfl (by decide)).mpr (by decide)

/-- The host grants the keyboard to a peer that has muted it: the cursor comes along. -/
theorem keyboard_switch_ignores_muted_keyboard :
    ¬ ∀ (p : Platform) (env : Env) (w : World), w.conn.authorized = true →
      w.conn.authedConnId = some .remote → w.conn.isRemote = true →
      w.conn.servicesSubed = false → JoinsCleanly p w →
      ∀ events : List Event, (∀ e ∈ events, concernsServices e = true) →
        Always (step p) (InSync p) (w.trySubMonitorServices p env) events := by
  intro claim
  have always := claim (.plain .linux) {}
    (World.opening (.plain .linux) {} {.cursor, .pos, .clipboard, .audio} false).authorize
    rfl rfl rfl rfl (by decide)
    [.peer {} (.misc (.option { disableKeyboard := some .yes })),
      .cm {} (.switchPermission "keyboard" true)] (by decide)
  have cursor := always.last .cursor (by decide) false rfl
  exact absurd (cursor.mp (by decide)) (by decide)

end RemoteControl.Host
