import RemoteControl.Host.EventLoop

/-! # What handling an event can do

Every handler that is not part of the login has an `Effect`: it leaves the login
alone, takes only actions from a given set and subscribes the connection to
nothing but services from a given set. Effects compose, so the effect of a
handler is read off its parts.

`Allowed` is the one table of what the message loop checks before it acts. The
results about permissions and connection kinds start from it and do not look
into the handlers again.
-/

namespace RemoteControl.Host

/-- The login is the same, except that closing drops a forwarding socket. -/
def LoginState.Follows (l l' : LoginState) : Prop :=
  l' = l ∨ l' = { l with portForwardSocket := false }

theorem LoginState.Follows.trans {l₁ l₂ l₃ : LoginState} (first : l₁.Follows l₂)
    (second : l₂.Follows l₃) : l₁.Follows l₃ := by
  rcases first with rfl | rfl <;> rcases second with rfl | rfl
  · exact .inl rfl
  · exact .inr rfl
  · exact .inr rfl
  · exact .inr rfl

/-- Everything else can be read off either side. -/
theorem LoginState.Follows.read {β : Type*} {l l' : LoginState} (follows : l.Follows l')
    (f : LoginState → β) (ignores : f { l with portForwardSocket := false } = f l) :
    f l' = f l := by
  rcases follows with rfl | rfl
  · rfl
  · exact ignores

structure Change (acts : Action → Prop) (subs : ServiceName → Prop) (w w' : World) : Prop where
  login : w.conn.toLoginState.Follows w'.conn.toLoginState
  permissions : w'.conn.toPermissions = w.conn.toPermissions
  id : w'.conn.id = w.conn.id
  grows : w.out ⊆ w'.out
  out : ∀ a ∈ w'.out, a ∈ w.out ∨ acts a
  server : ∀ name, w'.server.isSubed name w.conn.id → w.server.isSubed name w.conn.id ∨ subs name

/-- A change after which the loop goes on. -/
structure Effect (acts : Action → Prop) (subs : ServiceName → Prop) (w w' : World) : Prop
    extends Change acts subs w w' where
  running : w'.running = w.running

/-- No service at all. -/
def noService : ServiceName → Prop := fun _ => False

/-- Any service that does not carry a video stream. -/
def notVideo : ServiceName → Prop := fun name => name.isVideo = false

namespace Effect

variable {acts acts' : Action → Prop} {subs subs' : ServiceName → Prop} {w w₁ w₂ : World}

theorem refl : Effect acts subs w w :=
  ⟨⟨.inl rfl, rfl, rfl, List.Subset.refl _, fun _ member => .inl member, fun _ subed => .inl subed⟩, rfl⟩

theorem trans (first : Effect acts subs w w₁) (second : Effect acts subs w₁ w₂) :
    Effect acts subs w w₂ where
  login := first.login.trans second.login
  permissions := second.permissions.trans first.permissions
  id := second.id.trans first.id
  grows := List.Subset.trans first.grows second.grows
  out := by
    intro a member
    rcases second.out a member with earlier | allowed
    · exact first.out a earlier
    · exact .inr allowed
  server := by
    intro name subed
    rw [← first.id] at subed
    rcases second.server name subed with earlier | allowed
    · rw [first.id] at earlier
      exact first.server name earlier
    · exact .inr allowed
  running := second.running.trans first.running

theorem mono (effect : Effect acts subs w w₁) (actions : ∀ a, acts a → acts' a)
    (services : ∀ name, subs name → subs' name) : Effect acts' subs' w w₁ where
  login := effect.login
  permissions := effect.permissions
  id := effect.id
  grows := effect.grows
  out := fun a member => (effect.out a member).imp_right (actions a)
  server := fun name subed => (effect.server name subed).imp_right (services name)
  running := effect.running

theorem emit {a : Action} (before : Effect acts subs w w₁) (allowed : acts a) :
    Effect acts subs w (w₁.emit a) where
  login := before.login
  permissions := before.permissions
  id := before.id
  grows := List.Subset.trans before.grows (List.subset_cons_self a w₁.out)
  out := by
    intro b member
    rcases List.mem_cons.mp member with rfl | earlier
    · exact .inr allowed
    · exact before.out b earlier
  server := before.server
  running := before.running

theorem emitAll {more : List Action} (before : Effect acts subs w w₁)
    (allowed : ∀ a ∈ more, acts a) : Effect acts subs w (w₁.emitAll more) where
  login := before.login
  permissions := before.permissions
  id := before.id
  grows := List.Subset.trans before.grows (List.subset_append_right _ _)
  out := by
    intro a member
    rcases List.mem_append.mp member with new | earlier
    · exact .inr (allowed a (List.mem_reverse.mp new))
    · exact before.out a earlier
  server := before.server
  running := before.running

theorem modify {f : Connection → Connection} (before : Effect acts subs w w₁)
    (login : (f w₁.conn).toLoginState = w₁.conn.toLoginState)
    (permissions : (f w₁.conn).toPermissions = w₁.conn.toPermissions)
    (id : (f w₁.conn).id = w₁.conn.id) : Effect acts subs w (w₁.modify f) where
  login := before.login.trans (.inl login)
  permissions := permissions.trans before.permissions
  id := id.trans before.id
  grows := before.grows
  out := before.out
  server := before.server
  running := before.running

theorem modifyGlobals {f : Globals → Globals} (before : Effect acts subs w w₁) :
    Effect acts subs w (w₁.modifyGlobals f) :=
  ⟨⟨before.login, before.permissions, before.id, before.grows, before.out, before.server⟩, before.running⟩

/-- Replacing the server is judged by the services it newly subscribes. -/
theorem serve {server : Server} (before : Effect acts subs w w₁)
    (subscribed : ∀ name, server.isSubed name w₁.conn.id →
      w₁.server.isSubed name w₁.conn.id ∨ subs name) :
    Effect acts subs w (w₁.setServer server) :=
  before.trans
    ⟨⟨.inl rfl, rfl, rfl, List.Subset.refl _, fun _ member => .inl member, subscribed⟩, rfl⟩

theorem subscribe {name : ServiceName} {sub : Bool} (before : Effect acts subs w w₁)
    (allowed : sub = true → subs name) : Effect acts subs w (w₁.subscribe name sub) := by
  apply before.serve
  intro other subed
  rw [Server.subscribe_isSubed] at subed
  split at subed
  · rename_i same
    rw [same.1]
    exact .inr (allowed subed)
  · exact .inl subed

theorem ite {c : Prop} [Decidable c] (yes : c → Effect acts subs w w₁)
    (no : ¬ c → Effect acts subs w w₂) : Effect acts subs w (if c then w₁ else w₂) := by
  split
  · exact yes ‹_›
  · exact no ‹_›

end Effect

namespace Change

variable {acts : Action → Prop} {subs : ServiceName → Prop} {w w₁ : World} {res : World × Bool}

theorem stop (before : Effect acts subs w w₁) : Change acts subs w w₁.stop :=
  ⟨before.login, before.permissions, before.id, before.grows, before.out, before.server⟩

theorem keepAlive (before : Effect acts subs w res.1) :
    Change acts subs w (World.keepAlive res) := by
  unfold World.keepAlive
  split
  · exact before.toChange
  · exact .stop before

theorem afterMessage (before : Effect acts subs w res.1) :
    Change acts subs w (World.afterMessage res) := by
  unfold World.afterMessage
  split
  · exact .stop before
  · exact .keepAlive before

end Change

/-- The actions by which a login records that one of its checks succeeded. -/
def Action.isLoginCheck : Action → Bool
  | .validatedPassword | .recentSession _ | .validatedTotp | .trustedDevice
  | .switchSidesMatched | .permitted _ => true
  | _ => false

def Message.isLogin : Message → Bool
  | .loginRequest _ | .auth2fa _ _ | .switchSidesResponse _ _ => true
  | _ => false

def CmData.isAuthorize : CmData → Bool
  | .authorize => true
  | _ => false

def CmData.isSwitchPermission : CmData → Bool
  | .switchPermission _ _ => true
  | _ => false

/-- The events from which `send_logon_response_and_keep_alive` can be reached. -/
def Event.isLogin : Event → Bool
  | .peer _ msg => msg.isLogin
  | .cm _ data => data.isAuthorize
  | _ => false

def Event.isAuthorize : Event → Bool
  | .cm _ data => data.isAuthorize
  | _ => false

def Event.isSwitchPermission : Event → Bool
  | .cm _ data => data.isSwitchPermission
  | _ => false

def Message.isInput : Message → Bool
  | .mouseEvent _ | .pointerDeviceEvent | .keyEvent _ => true
  | _ => false

def Message.asksResolution : Message → Bool
  | .misc (.switchDisplay _) | .misc (.changeResolution _)
  | .misc (.changeDisplayResolution _ _) => true
  | _ => false

def Message.togglesPrivacy : Message → Bool
  | .misc (.togglePrivacyMode _ _) => true
  | _ => false

/-- A virtual display that is plugged in is given a resolution, and others with it. -/
def resetsResolutions (p : Platform) (env : Env) (on : Bool) : Bool :=
  p.os = .windows && on && env.virtualDisplayErr = "" && env.pluggedInDisplays ≠ []

def Message.plugsIn : Message → Bool
  | .misc (.toggleVirtualDisplay _ on) => on
  | _ => false

def Message.isCliprdr : Message → Bool
  | .cliprdr _ => true
  | _ => false

def Message.asksScreenshot : Message → Bool
  | .screenshotRequest _ => true
  | _ => false

/-- The condition under which an input message reaches the system. -/
def InputAllowed (p : Platform) (c : Connection) (msg : Message) : Prop :=
  msg.isInput = true ∧ c.isAuthedViewCameraConn = false ∧
    (p.isDesktop = true → c.keyboard = true ∧ c.disableKeyboard = false)

/-- What is known about the connection and the message it handles once the loop
    takes an action. -/
def Allowed (p : Platform) (c : Connection) (msg : Message) : Action → Prop
  | .validatedPassword | .recentSession _ | .validatedTotp | .trustedDevice
  | .switchSidesMatched | .permitted _ => False
  | .inputMouse _ simulate _ => simulate = true → InputAllowed p c msg
  | .inputPointer | .inputKey _ _ | .mainServiceInput => InputAllowed p c msg
  | .blockOn | .blockOff => c.keyboard = true ∧ c.blockInput = true
  | .changeResolution _ _ =>
      c.keyboard = true ∧ p.isDesktop = true ∧ msg.asksResolution = true
  | .turnOnPrivacy _ | .turnOffPrivacy => c.keyboard = true ∨ msg.togglesPrivacy = true
  | .resetResolution _ _ => msg.plugsIn = true
  | .releaseModifier _ => False
  | .reboot => c.restart = true
  | .updateClipboard _ => p.isDesktop = true → c.clipboard = true
  | .updateClipboardFiles _ | .serverClipFile _ | .fuseFileContents _ | .send (.cliprdr _) =>
      msg.isCliprdr = true
  | .takeScreenshot _ => msg.asksScreenshot = true
  | .terminalAction _ => msg = .terminalAction
  | _ => True

/-- The video services a message can subscribe the connection to; the other
    services are free. -/
def Subscribable (c : Connection) (msg : Message) : ServiceName → Prop
  | .video source _ =>
      match msg with
      | .misc (.switchDisplay _) | .misc (.captureDisplays _ _ _) => source = c.videoSource
      | .misc (.selectedSid _) => source = .camera ∨ c.isRemote = true
      | _ => False
  | _ => True

theorem Subscribable.of_notVideo {c : Connection} {msg : Message} {name : ServiceName}
    (free : notVideo name) : Subscribable c msg name := by
  cases name <;> trivial

theorem Allowed.not_loginCheck {p : Platform} {c : Connection} {msg : Message} {a : Action}
    (allowed : Allowed p c msg a) : a.isLoginCheck = false := by
  cases a <;> first | rfl | exact allowed.elim

namespace World

variable {acts : Action → Prop} {subs : ServiceName → Prop}
variable (p : Platform) (env : Env) (w : World)

theorem updateAutoDisconnectTimer_effect :
    Effect acts subs w (w.updateAutoDisconnectTimer env) :=
  .modify .refl rfl rfl rfl

theorem withOption_effect {q : Option BoolOption} {act : Bool → World → World}
    (effect : ∀ on, Effect acts subs w (act on w)) : Effect acts subs w (w.withOption q act) := by
  unfold withOption
  split
  · exact effect true
  · exact effect false
  · exact .refl

section Options

variable {c : Connection} {msg : Message} (o : OptionMessage) (on : Bool)

theorem updateImageQuality_effect : Effect (Allowed p c msg) subs w (w.updateImageQuality o) := by
  unfold updateImageQuality
  split
  · exact .refl
  · exact .ite (fun _ => .emit .refl trivial) (fun _ => .refl)

theorem updateFpsAndDecoding_effect :
    Effect (Allowed p c msg) subs w (w.updateFpsAndDecoding o) := by
  have fps : Effect (Allowed p c msg) subs w (if o.customFps > 0 then w.emit .videoQos else w) :=
    .ite (fun _ => .emit .refl trivial) (fun _ => .refl)
  exact .ite (fun _ => .emit fps trivial) (fun _ => fps)

theorem setShowRemoteCursor_effect : Effect acts notVideo w (w.setShowRemoteCursor on) :=
  .subscribe (.subscribe (.modify .refl rfl rfl rfl) fun _ => rfl) fun _ => rfl

theorem setFollowRemoteWindow_effect : Effect acts notVideo w (w.setFollowRemoteWindow on) :=
  .subscribe (.modify .refl rfl rfl rfl) fun _ => rfl

theorem subscribeAudio_effect : Effect acts notVideo w w.subscribeAudio := by
  unfold subscribeAudio
  split_ifs
  · exact .subscribe .refl fun _ => rfl
  · exact .refl
  · exact .subscribe .refl fun _ => rfl

theorem setDisableAudio_effect : Effect acts notVideo w (w.setDisableAudio on) := by
  refine .trans ?_ (subscribeAudio_effect _)
  exact .modify .refl rfl rfl rfl

theorem setEnableFileTransfer_effect :
    Effect (Allowed p c msg) notVideo w (w.setEnableFileTransfer p on) := by
  have told : Effect (Allowed p c msg) notVideo w
      (if p.os = .windows then
        (w.modify fun c => { c with enableFileTransfer := on }).sendToCm (.clipboardFileEnabled
          (w.modify fun c => { c with enableFileTransfer := on }).conn.fileTransferEnabled)
      else w.modify fun c => { c with enableFileTransfer := on }) :=
    .ite (fun _ => .emit (.modify .refl rfl rfl rfl) trivial) (fun _ => .modify .refl rfl rfl rfl)
  refine .ite (fun _ => ?_) (fun _ => told)
  exact .subscribe (.ite (fun _ => .emit told trivial) (fun _ => told)) fun _ => rfl

theorem setDisableClipboard_effect : Effect acts notVideo w (w.setDisableClipboard p on) :=
  .subscribe (.modify .refl rfl rfl rfl) fun _ => rfl

theorem setDisableKeyboard_effect : Effect acts notVideo w (w.setDisableKeyboard p on) := by
  have set : Effect acts notVideo w ((w.modify fun c => { c with disableKeyboard := on }).subscribe
      .clipboard ((w.modify fun c => { c with disableKeyboard := on }).conn.canSubClipboardService
        p)) := .subscribe (.modify .refl rfl rfl rfl) fun _ => rfl
  exact .subscribe (.ite (fun _ => .subscribe set fun _ => rfl) (fun _ => set)) fun _ => rfl

theorem turnOffPrivacyToMsg_effect (allowed : Allowed p c msg .turnOffPrivacy) :
    Effect (Allowed p c msg) subs w ((turnOffPrivacyToMsg env w).1.send
      (turnOffPrivacyToMsg env w).2) := by
  refine .emit (.emit .refl allowed) ?_
  simp only [turnOffPrivacyToMsg]
  split <;> trivial

theorem turnOnPrivacy_effect (implKey : String) (allowed : Allowed p c msg .turnOffPrivacy) :
    Effect (Allowed p c msg) subs w (w.turnOnPrivacy env implKey) := by
  have started : Effect (Allowed p c msg) subs w
      ((if env.isInPrivacyMode && env.prePrivacyImplKey.isSome then
        w.send (.privacyMode "PrvOffSucceeded" "") else w).emit (.turnOnPrivacy implKey)) :=
    .emit (.ite (fun _ => .emit .refl trivial) (fun _ => .refl)) allowed
  refine .ite (fun _ => .emit .refl trivial) (fun _ => ?_)
  cases env.turnOnPrivacyRes with
  | none => exact .emit started trivial
  | some res =>
      cases res with
      | error e => exact .emit (.ite (fun _ => .emit started allowed) (fun _ => started)) trivial
      | ok on =>
          cases on with
          | false => exact .emit started trivial
          | true =>
              exact .ite (fun _ => .emit started trivial)
                (fun _ => .emit (.emit started allowed) trivial)

theorem turnOffPrivacy_effect (allowed : Allowed p c msg .turnOffPrivacy) :
    Effect (Allowed p c msg) subs w (w.turnOffPrivacy env) :=
  .ite (fun _ => .emit .refl trivial) (fun _ => turnOffPrivacyToMsg_effect p env w allowed)

theorem updatePrivacyMode_effect (kept : w.conn.toPermissions = c.toPermissions) :
    Effect (Allowed p c msg) subs w (w.updatePrivacyMode env o) := by
  have keyboard : w.conn.keyboard = c.keyboard := congrArg Permissions.keyboard kept
  have allowed (on : w.conn.keyboard = true) : Allowed p c msg .turnOffPrivacy :=
    .inl (keyboard ▸ on)
  refine .ite (fun _ => ?_) (fun _ => .refl)
  split
  · exact .ite (fun on => turnOnPrivacy_effect p env w "" (allowed on)) (fun _ => .refl)
  · exact .ite (fun on => turnOffPrivacy_effect p env w (allowed on)) (fun _ => .refl)
  · exact .refl

theorem updateBlockInput_effect (kept : w.conn.toPermissions = c.toPermissions) :
    Effect (Allowed p c msg) subs w (w.updateBlockInput o) := by
  have keyboard : w.conn.keyboard = c.keyboard := congrArg Permissions.keyboard kept
  have blockInput : w.conn.blockInput = c.blockInput := congrArg Permissions.blockInput kept
  unfold updateBlockInput
  rw [keyboard, blockInput]
  split
  · exact .ite (fun on => .emit .refl (by simpa [Allowed] using on)) (fun _ => .emit .refl trivial)
  · exact .ite (fun on => .emit .refl (by simpa [Allowed] using on)) (fun _ => .emit .refl trivial)
  · exact .refl

theorem setShowMyCursor_effect : Effect (Allowed p c msg) subs w (w.setShowMyCursor env on) := by
  have set : Effect (Allowed p c msg) subs w
      (w.modify fun c => { c with showMyCursor := on }) := .modify .refl rfl rfl rfl
  refine .ite (fun _ => .emit set trivial) (fun _ => ?_)
  exact .ite (fun _ => .emit set trivial) (fun _ => set)

theorem updateMediaOptions_effect :
    Effect (Allowed p c msg) subs w (w.updateMediaOptions o) := by
  refine .trans ?_ (withOption_effect _ fun _ => .modify .refl rfl rfl rfl)
  exact .trans (updateImageQuality_effect p w o) (updateFpsAndDecoding_effect p _ o)

theorem updateServiceOptions_effect :
    Effect (Allowed p c msg) notVideo w (w.updateServiceOptions p o) := by
  unfold updateServiceOptions
  extract_lets cursor followWindow audio file clipboard
  have cursor_ : Effect (Allowed p c msg) notVideo w cursor := by
    refine .ite (fun _ => .trans (withOption_effect _ fun on => setShowRemoteCursor_effect _ on)
      (withOption_effect _ fun _ => ?_)) (fun _ => .refl)
    exact .modify .refl rfl rfl rfl
  have followWindow_ : Effect (Allowed p c msg) notVideo w followWindow :=
    cursor_.trans (withOption_effect _ fun on => setFollowRemoteWindow_effect _ on)
  have audio_ : Effect (Allowed p c msg) notVideo w audio :=
    followWindow_.trans (withOption_effect _ fun on => setDisableAudio_effect _ on)
  have file_ : Effect (Allowed p c msg) notVideo w file :=
    .ite (fun _ => audio_.trans (withOption_effect _ fun on => setEnableFileTransfer_effect p _ on))
      (fun _ => audio_)
  have clipboard_ : Effect (Allowed p c msg) notVideo w clipboard :=
    file_.trans (withOption_effect _ fun on => setDisableClipboard_effect p _ on)
  exact clipboard_.trans (withOption_effect _ fun on => setDisableKeyboard_effect p _ on)

theorem updateActionOptions_effect (kept : w.conn.toPermissions = c.toPermissions) :
    Effect (Allowed p c msg) subs w (w.updateActionOptions p env o) := by
  unfold updateActionOptions
  extract_lets privacy terminal
  have onlyPrivacy : Effect (Allowed p c msg) subs w (w.updatePrivacyMode env o) :=
    updatePrivacyMode_effect p env w o kept
  have privacy_ : Effect (Allowed p c msg) subs w privacy :=
    onlyPrivacy.trans (updateBlockInput_effect p _ o (onlyPrivacy.permissions.trans kept))
  have terminal_ : Effect (Allowed p c msg) subs w terminal :=
    .ite (fun _ => privacy_.trans (withOption_effect _ fun _ =>
      .emit (.modify .refl rfl rfl rfl) trivial)) (fun _ => privacy_)
  exact .ite (fun _ => terminal_.trans (withOption_effect _ fun on =>
    setShowMyCursor_effect p env _ on)) (fun _ => terminal_)

theorem updateOptions_effect (kept : w.conn.toPermissions = c.toPermissions) :
    Effect (Allowed p c msg) notVideo w (w.updateOptions p env o) := by
  have media : Effect (Allowed p c msg) notVideo w (w.updateMediaOptions o) :=
    updateMediaOptions_effect p w o
  have services := media.trans (updateServiceOptions_effect p _ o)
  exact services.trans (updateActionOptions_effect p env _ o (services.permissions.trans kept))

end Options

section Messages

variable {c : Connection} {msg : Message} {name : ServiceName}

theorem inputAllowed_of_peerKeyboard (isInput : msg.isInput = true)
    (other : ¬ w.conn.isAuthedViewCameraConn = true)
    (enabled : p.isDesktop = true → w.conn.peerKeyboardEnabled = true) :
    InputAllowed p w.conn msg := by
  refine ⟨isInput, by simpa using other, fun desktop => ?_⟩
  simpa [Connection.peerKeyboardEnabled] using enabled desktop

theorem onMouseEvent_effect (me : MouseEvent) :
    Effect (Allowed p w.conn (.mouseEvent me)) subs w (w.onMouseEvent p env me) := by
  refine .ite (fun _ => .refl) (fun other => ?_)
  refine .trans ?_ (updateAutoDisconnectTimer_effect env _)
  refine .ite (fun mobile => .emit .refl ?_) (fun _ => .ite (fun enabled => .emit .refl ?_)
    (fun _ => .ite (fun _ => .emit .refl ?_) (fun _ => .refl)))
  · exact inputAllowed_of_peerKeyboard p w rfl other (by simp_all)
  · exact fun _ => inputAllowed_of_peerKeyboard p w rfl other fun _ => enabled
  · exact fun simulate => nomatch simulate

theorem onPointerDeviceEvent_effect :
    Effect (Allowed p w.conn .pointerDeviceEvent) subs w (w.onPointerDeviceEvent p env) := by
  refine .ite (fun _ => .refl) (fun other => ?_)
  refine .trans ?_ (updateAutoDisconnectTimer_effect env _)
  refine .ite (fun mobile => .emit .refl ?_)
    (fun _ => .ite (fun enabled => .emit .refl ?_) (fun _ => .refl))
  · exact inputAllowed_of_peerKeyboard p w rfl other (by simp_all)
  · exact inputAllowed_of_peerKeyboard p w rfl other fun _ => enabled

theorem trackModifier_effect (ke : KeyEvent) : Effect acts subs w (w.trackModifier p ke) := by
  unfold trackModifier
  split
  · exact .refl
  · exact .ite (fun _ => .modify .refl rfl rfl rfl) (fun _ => .modify .refl rfl rfl rfl)

theorem inputKeyEvent_effect (ke : KeyEvent) (allowed : ∀ press, acts (.inputKey ke press)) :
    Effect acts subs w (w.inputKeyEvent p ke) := by
  refine .ite (fun _ => ?_) (fun _ => .emit .refl (allowed _))
  split <;> exact .emit .refl (allowed _)

theorem onKeyEvent_effect (ke : KeyEvent) :
    Effect (Allowed p w.conn (.keyEvent ke)) subs w (w.onKeyEvent p env ke) := by
  refine .ite (fun _ => .refl) (fun _ => .ite (fun _ => .refl) (fun other => ?_))
  refine .ite (fun android => .emit (trackModifier_effect p w ke) ?_) (fun _ => ?_)
  · exact inputAllowed_of_peerKeyboard p w rfl other (by simp [Platform.isDesktop, android])
  · refine .trans ?_ (updateAutoDisconnectTimer_effect env _)
    refine .ite (fun enabled => ?_) (fun _ => .refl)
    refine .trans (trackModifier_effect p w ke) (inputKeyEvent_effect p _ ke fun _ => ?_)
    exact inputAllowed_of_peerKeyboard p w rfl other fun _ => enabled

theorem onClipboard_effect (content : Bytes) :
    Effect (Allowed p w.conn msg) subs w (w.onClipboard content) :=
  .ite (fun enabled => .emit .refl fun _ => enabled) (fun _ => .refl)

theorem onMultiClipboards_effect (contents : List Bytes) :
    Effect (Allowed p w.conn msg) subs w (w.onMultiClipboards p contents) := by
  refine .ite (fun _ => .ite (fun enabled => .emit .refl fun _ => enabled) (fun _ => .refl))
    (fun mobile => .ite (fun _ => .emit .refl ?_) (fun _ => .refl))
  exact fun desktop => absurd desktop mobile

theorem sendClipMessages_effect (msgs : List ClipboardFile) (allowed : ∀ m, acts (.send (.cliprdr m))) :
    Effect acts subs w (w.sendClipMessages msgs) := by
  unfold sendClipMessages
  induction msgs generalizing w with
  | nil => exact .refl
  | cons m rest ih =>
      refine .trans ?_ (ih _)
      cases m <;> first | exact .refl | exact .emit .refl (allowed _)

theorem serveClipMessages_effect (clip : ClipboardFile) (cliprdr : msg.isCliprdr = true) :
    Effect (Allowed p c msg) subs w (w.serveClipMessages p env clip).1 := by
  cases clip with
  | formatList formats =>
      simp only [serveClipMessages]
      split
      · split <;> exact .refl
      · exact .refl
  | formatDataRequest _ => simp only [serveClipMessages]; split <;> exact .refl
  | formatDataResponse flags formatData =>
      simp only [serveClipMessages]
      split
      · exact .emit .refl cliprdr
      · exact .refl
  | fileContentsResponse flags streamId requestedData =>
      simp only [serveClipMessages]
      split
      · exact .emit .refl cliprdr
      · exact .refl
  | tryEmpty => exact .emit .refl trivial
  | monitorReady | formatListResponse _ | files _ | fileContentsRequest _ _ _ _ _ _ => exact .refl

theorem onCliprdr_effect (clip : Option ClipboardFile) (cliprdr : msg.isCliprdr = true) :
    Effect (Allowed p c msg) subs w (w.onCliprdr p env clip) := by
  refine .ite (fun _ => .refl) (fun _ => ?_)
  split
  · exact .refl
  · exact .refl
  · refine .ite (fun _ => ?_) (fun _ => .ite (fun _ => .ite (fun _ => .emit .refl cliprdr)
      (fun _ => ?_)) (fun _ => .refl))
    · exact .ite (fun _ => .emit .refl trivial) (fun _ => .emit (.emit .refl trivial) cliprdr)
    · exact .trans (serveClipMessages_effect p env w _ cliprdr)
        (sendClipMessages_effect _ _ fun _ => cliprdr)

theorem createAndStartReadJob_effect (id : Int) (jobType : JobType) :
    Effect (Allowed p c msg) subs w (w.createAndStartReadJob env id jobType) := by
  unfold createAndStartReadJob
  split
  · exact .emit .refl trivial
  · exact .emit (.modify (.emit .refl trivial) rfl rfl rfl) trivial

theorem onSendFiles_effect (id : Int) (path : String) (includeHidden : Bool) (fileNum : Int)
    (jobType : JobType) :
    Effect (Allowed p c msg) subs w
      (w.onSendFiles p env id path includeHidden fileNum jobType) := by
  unfold onSendFiles
  cases jobType with
  | generic =>
      refine .modify (.ite (fun _ => ?_) (fun _ => createAndStartReadJob_effect p env w id _))
        rfl rfl rfl
      exact .emit (.modify .refl rfl rfl rfl) trivial
  | printer =>
      refine .ite (fun _ => .modify (.trans ?_ (createAndStartReadJob_effect p env _ id _))
        rfl rfl rfl) (fun _ => .refl)
      exact .modify .refl rfl rfl rfl

theorem onSendConfirm_effect (r : SendConfirm) :
    Effect (Allowed p c msg) subs w (w.onSendConfirm r) :=
  .ite (fun _ => .emit .refl trivial) (fun _ => .ite (fun _ => .emit .refl trivial)
    (fun _ => .emit .refl trivial))

theorem handleFileAction_effect (fa : FileAction) :
    Effect (Allowed p c msg) subs w (w.handleFileAction p env fa) := by
  unfold handleFileAction
  cases fa with
  | readDir _ _ | readEmptyDirs _ _ | removeDir _ _ _ | removeFile _ _ _ =>
      exact .emit .refl trivial
  | send id path includeHidden fileNum jobType =>
      exact onSendFiles_effect p env w id path includeHidden fileNum jobType
  | receive id path files fileNum totalSize =>
      exact .modify (.emit .refl trivial) rfl rfl rfl
  | create _ _ | rename _ _ _ => exact .emit (.emit .refl trivial) trivial
  | allFiles id path includeHidden =>
      refine .ite (fun _ => .emit .refl trivial) (fun _ => ?_)
      split <;> exact .emit .refl trivial
  | cancel id =>
      have told : Effect (Allowed p c msg) subs w (((w.sendFs (.cancelWrite id)).modify fun c =>
          { c with cmReadJobIds := c.cmReadJobIds.erase id }).sendFs (.cancelRead id)) :=
        .emit (.modify (.emit .refl trivial) rfl rfl rfl) trivial
      exact .ite (fun _ => .emit (.emit (.modify told rfl rfl rfl) trivial) trivial) (fun _ => told)
  | sendConfirm r => exact onSendConfirm_effect p w r

theorem onFileAction_effect (fa : Option FileAction) :
    Effect (Allowed p c msg) subs w (w.onFileAction p env fa) := by
  refine .ite (fun _ => .refl) (fun _ => .ite (fun _ => ?_) (fun _ => ?_))
  · split
    · exact .modify .refl rfl rfl rfl
    · exact .refl
  · cases fa with
    | none => exact .refl
    | some fa =>
        dsimp only
        split
        · exact .emit .refl trivial
        · exact handleFileAction_effect p env w fa

theorem onFileResponse_effect (fr : FileResponse) :
    Effect (Allowed p c msg) subs w (w.onFileResponse fr) := by
  cases fr with
  | block _ _ _ _ | done _ _ | digest _ _ _ _ _ | error _ _ _ => exact .emit .refl trivial
  | other => exact .refl

theorem onClose_effect (lock : Bool) : Effect (Allowed p c msg) subs w (w.onClose p lock) := by
  unfold onClose
  split
  · exact .refl
  · extract_lets closed locked told
    have closed_ : Effect (Allowed p c msg) subs w closed :=
      .emit (.modify .refl rfl rfl rfl) trivial
    have locked_ : Effect (Allowed p c msg) subs w locked :=
      .ite (fun _ => .emit closed_ trivial) (fun _ => closed_)
    have told_ : Effect (Allowed p c msg) subs w told :=
      .ite (fun _ => .emit locked_ trivial) (fun _ => .emit locked_ trivial)
    exact told_.trans ⟨⟨.inr rfl, rfl, rfl, List.Subset.refl _, fun _ member => .inl member,
      fun _ subed => .inl subed⟩, rfl⟩

theorem changeResolution_effect (d : Option Nat) (r : Resolution)
    (kept : w.conn.toPermissions = c.toPermissions) (desktop : p.isDesktop = true)
    (asks : msg.asksResolution = true) :
    Effect (Allowed p c msg) subs w (w.changeResolution env d r) := by
  have keyboard : w.conn.keyboard = c.keyboard := congrArg Permissions.keyboard kept
  refine .ite (fun on => .ite (fun _ => .emit .refl ?_) (fun _ => .refl)) (fun _ => .refl)
  exact ⟨keyboard ▸ on, desktop, asks⟩

theorem sendDisplayChanged_effect (display : Nat) :
    Effect (Allowed p c msg) subs w (w.sendDisplayChanged env display) :=
  .ite (fun _ => .emit .refl trivial) (fun _ => .refl)

theorem switchDisplayTo_effect (displayIdx : Nat)
    (allowed : ∀ idx, subs (.video w.conn.videoSource idx)) :
    Effect acts subs w (w.switchDisplayTo p displayIdx) := by
  unfold switchDisplayTo
  extract_lets source added dropped switched
  have added_ : Effect acts subs w (w.setServer added) := by
    refine .serve .refl fun name subed => .inl ?_
    by_cases primary : displayIdx ≠ p.primaryDisplayIdx
    · rw [show added = w.server.tryAddService (.video source displayIdx) from if_pos primary] at subed
      exact ((Server.tryAddService_isSubed ..).mp subed).1
    · rwa [show added = w.server from if_neg primary] at subed
  have dropped_ : Effect acts subs w (w.setServer dropped) := by
    by_cases old : w.conn.lr.version < version1_2_4
    · rw [show dropped = _ from if_pos old]
      exact .subscribe added_ fun sub => nomatch sub
    · rwa [show dropped = added from if_neg old]
  have switched_ : Effect acts subs w (w.setServer switched) :=
    .subscribe dropped_ fun _ => allowed displayIdx
  exact .modify switched_ rfl rfl rfl

theorem handleSwitchDisplay_effect (s : SwitchDisplay) :
    Effect (Allowed p w.conn (.misc (.switchDisplay s)))
      (Subscribable w.conn (.misc (.switchDisplay s))) w (w.handleSwitchDisplay p env s) := by
  refine .ite (fun _ => .trans ?_ (sendDisplayChanged_effect p env _ _)) (fun _ => .refl)
  have switched : Effect (Allowed p w.conn (.misc (.switchDisplay s)))
      (Subscribable w.conn (.misc (.switchDisplay s))) w (w.switchDisplayTo p s.display) :=
    switchDisplayTo_effect p w s.display fun _ => rfl
  refine .ite (fun sized => switched.trans ?_) (fun _ => switched)
  refine changeResolution_effect p env _ none _ switched.permissions ?_ rfl
  simp_all

theorem foldl_tryAddService_isSubed (s : Server) (source : VideoSource) (displays : List Nat)
    {id : ConnId}
    (subed : (displays.foldl (fun s d => s.tryAddService (.video source d)) s).isSubed name id) :
    s.isSubed name id := by
  induction displays generalizing s with
  | nil => exact subed
  | cons d rest ih => exact ((Server.tryAddService_isSubed ..).mp (ih _ subed)).1

theorem captureDisplays_isSubed_or (s : Server) (id : ConnId) (source : VideoSource)
    (displays : List Nat) (include_ exclude : Bool)
    (subed : (s.captureDisplays id source displays include_ exclude).isSubed name id) :
    s.isSubed name id ∨ ∃ idx, name = .video source idx := by
  cases name with
  | video other idx =>
      rw [Server.captureDisplays_isSubed] at subed
      by_cases hosted : ServiceName.video other idx ∈ s.services
      · rw [if_pos hosted] at subed
        by_cases listed : other = source ∧ idx ∈ displays
        · exact .inr ⟨idx, by rw [listed.1]⟩
        · rw [if_neg listed] at subed
          exact .inl subed.1
      · rw [if_neg hosted] at subed
        exact .inl subed
  | audio | display | clipboard | fileClipboard | cursor | pos | windowFocus | printer =>
      exact .inl ((Server.captureDisplays_isSubed_of_not_video _ _ _ _ _ _ rfl).mp subed)

theorem captureDisplays_effect (add sub set : List Nat)
    (allowed : ∀ idx, subs (.video w.conn.videoSource idx)) (focus : subs .windowFocus) :
    Effect acts subs w (w.captureDisplays add sub set) := by
  unfold captureDisplays
  extract_lets source id addMissing added captured multiUiSession followed
  have added_ : Effect acts subs w (w.setServer added) :=
    .serve .refl fun name subed =>
      .inl (foldl_tryAddService_isSubed _ _ _ (foldl_tryAddService_isSubed _ _ _ subed))
  have captured_ : Effect acts subs w ((w.setServer added).setServer captured) := by
    refine .serve added_ fun name subed => ?_
    have either : added.isSubed name id ∨ ∃ idx, name = .video source idx := by
      simp only [captured] at subed
      split_ifs at subed <;> exact captureDisplays_isSubed_or _ _ _ _ _ _ subed
    rcases either with earlier | ⟨idx, rfl⟩
    · exact .inl earlier
    · exact .inr (allowed idx)
  have followed_ : Effect acts subs w (w.setServer followed) := by
    by_cases follow : w.conn.followRemoteWindow = true
    · rw [show followed = _ from if_pos follow]
      exact .subscribe captured_ fun _ => focus
    · rwa [show followed = captured from if_neg follow]
  exact .modify followed_ rfl rfl rfl

theorem trySubCameraDisplays_effect (allowed : ∀ idx, subs (.video .camera idx)) :
    Effect acts subs w (w.trySubCameraDisplays p env) := by
  unfold trySubCameraDisplays
  extract_lets primary server
  refine .serve .refl fun name subed => ?_
  rcases (Server.addCameraConnection_isSubed ..).mp subed with earlier | ⟨idx, _, same, _⟩
  · have before : w.server.isSubed name w.conn.id := by
      cases present : primary with
      | none => rwa [show server = w.server by simp only [server, present]] at earlier
      | some idx =>
          rw [show server = w.server.tryAddService (.video .camera idx) by
            simp only [server, present]] at earlier
          exact ((Server.tryAddService_isSubed ..).mp earlier).1
    exact .inl before
  · exact .inr (same ▸ allowed idx)

theorem trySubMonitorServices_effect
    (allowed : w.conn.isRemote = true → ∀ name, subs name) :
    Effect acts subs w (w.trySubMonitorServices p env) := by
  unfold trySubMonitorServices
  split
  · rename_i remote
    have all := allowed (by simp_all)
    extract_lets added server
    have served : Effect acts subs w (w.setServer server) :=
      .serve .refl fun name _ => .inr (all name)
    exact .modify served rfl rfl rfl
  · exact .refl

theorem onSelectedSid_effect (sid : Nat) :
    Effect (Allowed p w.conn (.misc (.selectedSid sid)))
      (Subscribable w.conn (.misc (.selectedSid sid))) w (w.onSelectedSid p env).1 := by
  unfold onSelectedSid
  split
  · exact .refl
  · split_ifs
    · exact .refl
    · split
      · exact .emit (.modify .refl rfl rfl rfl) trivial
      · exact .refl
    · exact trySubCameraDisplays_effect p env w fun _ => .inl rfl
    · refine trySubMonitorServices_effect p env w fun remote name => ?_
      cases name <;> first | exact .inr remote | trivial
    · exact .refl

theorem togglePrivacyMode_effect (implKey : String) (on : Bool) (toggles : msg.togglesPrivacy = true) :
    Effect (Allowed p c msg) subs w (w.togglePrivacyMode env implKey on) :=
  .ite (fun _ => turnOnPrivacy_effect p env w implKey (.inr toggles))
    (fun _ => turnOffPrivacy_effect p env w (.inr toggles))

theorem handleElevationRequest_effect :
    Effect (Allowed p c msg) subs w (w.handleElevationRequest env) := by
  refine .trans ?_ (updateAutoDisconnectTimer_effect env _)
  exact .ite (fun _ => .emit .refl trivial) (fun _ => .ite
    (fun _ => .emit (.emit .refl trivial) trivial) (fun _ => .emit .refl trivial))

theorem onMisc_effect (m : Misc) :
    Effect (Allowed p w.conn (.misc m)) (Subscribable w.conn (.misc m)) w (w.onMisc p env m).1 := by
  cases m with
  | switchDisplay s => exact handleSwitchDisplay_effect p env w s
  | captureDisplays add sub set =>
      exact captureDisplays_effect w add sub set (fun _ => rfl) trivial
  | toggleVirtualDisplay display on =>
      have told : Effect (Allowed p w.conn (.misc (.toggleVirtualDisplay display on)))
          (Subscribable w.conn (.misc (.toggleVirtualDisplay display on))) w
          (w.emit (.virtualDisplay display on)) := .emit .refl trivial
      refine .ite (fun _ => .ite (fun _ => .ite (fun plugsIn => ?_) (fun _ => told))
        (fun _ => .emit told trivial)) (fun _ => .refl)
      refine .emitAll told fun a member => ?_
      obtain ⟨name, -, rfl⟩ := List.mem_map.mp member
      exact plugsIn
  | togglePrivacyMode implKey on => exact togglePrivacyMode_effect p env w implKey on rfl
  | chatMessage text =>
      refine .trans ?_ (updateAutoDisconnectTimer_effect env _)
      exact .modify (.emit .refl trivial) rfl rfl rfl
  | option o =>
      exact (updateOptions_effect p env w o rfl).mono (fun _ allowed => allowed)
        fun _ => Subscribable.of_notVideo
  | refreshVideo refresh =>
      refine .trans ?_ (updateAutoDisconnectTimer_effect env _)
      exact .ite (fun _ => .emit .refl trivial) (fun _ => .refl)
  | refreshVideoDisplay display =>
      refine .trans ?_ (updateAutoDisconnectTimer_effect env _)
      exact .emit .refl trivial
  | restartRemoteDevice =>
      refine .ite (fun on => .emit .refl ?_) (fun _ => .refl)
      simp_all [Allowed]
  | elevationRequest =>
      exact .ite (fun _ => handleElevationRequest_effect p env w) (fun _ => .refl)
  | audioFormat =>
      exact .ite (fun _ => .emit (.modify .refl rfl rfl rfl) trivial) (fun _ => .refl)
  | switchSidesRequest uuid =>
      simp only [onMisc]
      split
      · refine .trans ?_ (onClose_effect p _ false)
        exact .emit .refl trivial
      · exact .refl
  | changeResolution r =>
      exact .ite (fun desktop => changeResolution_effect p env w none r rfl desktop rfl)
        (fun _ => .refl)
  | changeDisplayResolution display r =>
      exact .ite (fun desktop => changeResolution_effect p env w (some display) r rfl desktop rfl)
        (fun _ => .refl)
  | selectedSid sid =>
      simp only [onMisc]
      split
      · exact onSelectedSid_effect p env w sid
      · exact .refl
  | messageQuery switchDisplay => exact sendDisplayChanged_effect p env w switchDisplay
  | videoReceived | autoAdjustFps _ | clientRecordStatus _ => exact .emit .refl trivial
  | closeReason _ | other => exact .refl

theorem closeVoiceCall_effect (benign : ∀ d, acts (.toCm d)) (audio : acts .audio) :
    Effect acts subs w w.closeVoiceCall := by
  have told : Effect acts subs w (((w.emit .audio).sendToCm .closeVoiceCall).modify fun c =>
      { c with voiceCalling := false }) :=
    .modify (.emit (.emit .refl audio) (benign _)) rfl rfl rfl
  exact .ite (fun _ => .subscribe told fun sub => nomatch sub) (fun _ => told)

theorem onVoiceCallRequest_effect (ts : Int) (isConnect : Bool) :
    Effect (Allowed p c msg) subs w (w.onVoiceCallRequest env ts isConnect) :=
  .ite (fun _ => .emit (.modify .refl rfl rfl rfl) trivial)
    (fun _ => closeVoiceCall_effect w (fun _ => trivial) trivial)

/-- Whatever an authorized peer sends, the loop acts only as `Allowed` says and
    subscribes only what `Subscribable` says. -/
theorem onAuthorizedMessage_effect (msg : Message) :
    Effect (Allowed p w.conn msg) (Subscribable w.conn msg) w
      (w.onAuthorizedMessage p env msg).1 := by
  cases msg with
  | mouseEvent me => exact onMouseEvent_effect p env w me
  | pointerDeviceEvent => exact onPointerDeviceEvent_effect p env w
  | keyEvent ke => exact onKeyEvent_effect p env w ke
  | clipboard content => exact onClipboard_effect p w content
  | multiClipboards contents => exact onMultiClipboards_effect p w contents
  | cliprdr clip => exact onCliprdr_effect p env w clip rfl
  | fileAction fa => exact onFileAction_effect p env w fa
  | fileResponse fr => exact onFileResponse_effect p w fr
  | misc m => exact onMisc_effect p env w m
  | audioFrame => exact .ite (fun _ => .emit .refl trivial) (fun _ => .refl)
  | voiceCallRequest ts isConnect => exact onVoiceCallRequest_effect p env w ts isConnect
  | screenshotRequest display => exact .emit (.emit .refl rfl) trivial
  | terminalAction =>
      refine .ite (fun _ => ?_) (fun _ => .refl)
      unfold handleTerminalAction
      split
      · exact .refl
      · exact .emit (.emit .refl rfl) trivial
  | loginRequest _ | auth2fa _ _ | testDelay _ | switchSidesResponse _ _ | voiceCallResponse
  | other => exact .refl

end Messages

/-- Anything but the checks of a login. -/
def plainActs : Action → Prop := fun a => a.isLoginCheck = false

/-- Services are open to authorized connections only. -/
def authedSubs (c : Connection) : ServiceName → Prop :=
  fun _ => c.authorized = true ∨ c.authedConnId.isSome = true

theorem onClose_plain (lock : Bool) : Effect plainActs subs w (w.onClose p lock) := by
  have closed : Effect (Allowed p w.conn .other) subs w (w.onClose p lock) :=
    onClose_effect p w lock
  exact closed.mono (fun _ => Allowed.not_loginCheck) fun _ allowed => allowed

theorem handleVoiceCall_effect (accepted : Bool) :
    Effect plainActs (authedSubs w.conn) w (w.handleVoiceCall accepted) := by
  unfold handleVoiceCall
  split
  · exact .refl
  · extract_lets taken told answered
    have taken_ : Effect plainActs (authedSubs w.conn) w taken := .modify .refl rfl rfl rfl
    have told_ : Effect plainActs (authedSubs w.conn) w told :=
      .ite (fun _ => .emit (.emit taken_ rfl) rfl) (fun _ => .emit taken_ rfl)
    have answered_ : Effect plainActs (authedSubs w.conn) w answered :=
      .modify (.emit told_ rfl) rfl rfl rfl
    have kind : answered.conn.authedConnId = w.conn.authedConnId :=
      answered_.login.read LoginState.authedConnId rfl
    refine .ite (fun camera => .subscribe answered_ fun _ => .inr ?_) (fun _ => answered_)
    simp_all [Connection.isAuthedViewCameraConn]

theorem onCmData_effect (data : CmData) (notAuthorize : data.isAuthorize = false)
    (notSwitch : data.isSwitchPermission = false) :
    Change plainActs (authedSubs w.conn) w (w.onCmData p env data) := by
  unfold onCmData
  cases data with
  | authorize => cases notAuthorize
  | switchPermission name enabled => cases notSwitch
  | close =>
      refine .stop (.trans ?_ (onClose_plain p _ true))
      exact .emit (.modify .refl rfl rfl rfl) rfl
  | cmErr e =>
      dsimp only
      split
      · exact .stop (onClose_plain p w false)
      · exact Effect.refl.toChange
  | chatMessage text => exact Effect.toChange (.modify (.emit .refl rfl) rfl rfl rfl)
  | clipboardFile clip =>
      refine Effect.toChange (.ite (fun _ => ?_) (fun _ => .refl))
      cases clip <;> first | exact .refl | exact .emit .refl rfl
  | privacyModeState state => cases state <;> exact Effect.toChange (.emit .refl rfl)
  | requestStartPortableService =>
      exact Effect.toChange (.ite (fun _ => .emit .refl rfl) (fun _ => .refl))
  | voiceCallResponse accepted => exact (handleVoiceCall_effect w accepted).toChange
  | closeVoiceCall => exact Effect.toChange (.emit (closeVoiceCall_effect w (fun _ => rfl) rfl) rfl)
  | readJobInitResult id result =>
      refine Effect.toChange (.ite (fun _ => ?_) (fun _ => .refl))
      cases result with
      | error err => exact .emit (.modify .refl rfl rfl rfl) rfl
      | ok _ => exact .modify (.emit .refl rfl) rfl rfl rfl
  | fileReadDone id fileNum | fileReadError id fileNum err =>
      exact Effect.toChange (.ite (fun _ => .emit (.modify .refl rfl rfl rfl) rfl) (fun _ => .refl))
  | fileBlockFromCM id fileNum blk compressed | fileDigestFromCM id fileNum modified size resume =>
      exact Effect.toChange (.ite (fun _ => .emit .refl rfl) (fun _ => .refl))
  | allFilesResult id result => cases result <;> exact Effect.toChange (.emit .refl rfl)
  | rawMessage | switchSidesBack => exact Effect.toChange (.emit .refl rfl)
  | other => exact Effect.refl.toChange

/-- A switched permission is announced, and the file clipboard emptied. -/
def switchActs : Action → Prop
  | .send (.permissionInfo _ _) | .emptyClipboardFiles => True
  | _ => False

/-- Switching a permission, seen as setting it and then telling the services. -/
theorem switchPermission_effect (name : String) (enabled : Bool) :
    ∃ permissions : Permissions, Effect switchActs notVideo
      (w.modify fun c => { c with toPermissions := permissions })
      (w.switchPermission p name enabled) := by
  unfold switchPermission
  split_ifs
  · refine ⟨{ w.conn.toPermissions with keyboard := enabled }, ?_⟩
    have told (sub : Bool) : Effect switchActs notVideo
        (w.modify fun c => { c with keyboard := enabled })
        (((w.modify fun c => { c with keyboard := enabled }).sendPermission .keyboard
          enabled).subscribe .clipboard sub) :=
      .subscribe (.emit .refl trivial) fun _ => rfl
    exact .subscribe (.ite (fun _ => .subscribe (told _) fun _ => rfl) (fun _ => told _))
      fun _ => rfl
  · exact ⟨{ w.conn.toPermissions with clipboard := enabled },
      .subscribe (.emit .refl trivial) fun _ => rfl⟩
  · refine ⟨{ w.conn.toPermissions with audio := enabled }, ?_⟩
    have told : Effect switchActs notVideo (w.modify fun c => { c with audio := enabled })
        ((w.modify fun c => { c with audio := enabled }).sendPermission .audio enabled) :=
      .emit .refl trivial
    exact .ite (fun _ => told.trans (subscribeAudio_effect _)) (fun _ => told)
  · refine ⟨{ w.conn.toPermissions with file := enabled }, ?_⟩
    have told : Effect switchActs notVideo (w.modify fun c => { c with file := enabled })
        ((w.modify fun c => { c with file := enabled }).sendPermission .file enabled) :=
      .emit .refl trivial
    exact .ite (fun _ => .subscribe (.ite (fun _ => .emit told trivial) (fun _ => told)) fun _ => rfl)
      (fun _ => told)
  · exact ⟨{ w.conn.toPermissions with restart := enabled }, .emit .refl trivial⟩
  · exact ⟨{ w.conn.toPermissions with recording := enabled }, .emit .refl trivial⟩
  · exact ⟨{ w.conn.toPermissions with blockInput := enabled }, .emit .refl trivial⟩
  · exact ⟨w.conn.toPermissions, .refl⟩

theorem handleTestDelay_effect (fromClient : Bool) :
    Effect plainActs subs w (w.handleTestDelay fromClient) :=
  .ite (fun _ => .emit .refl rfl) (fun _ => .ite
    (fun _ => .emit (.modify .refl rfl rfl rfl) rfl) (fun _ => .refl))

theorem handleFileClip_effect (clip : ClipboardFile) :
    Effect plainActs subs w (w.handleFileClip p clip) :=
  .ite (fun _ => .ite (fun _ => .refl) (fun _ => .ite (fun _ => .refl)
    (fun _ => .emit .refl rfl))) (fun _ => .refl)

theorem onPrinterData_effect (path : String) :
    Effect plainActs subs w (w.onPrinterData p env path) :=
  .ite (fun _ => .ite (fun _ => .modify .refl rfl rfl rfl) (fun _ => .emit .refl rfl))
    (fun _ => .refl)

/-- A message outside the login: nothing happens before the peer is authorized,
    and afterwards what `Allowed` says. -/
theorem onMessage_effect (msg : Message) (notLogin : msg.isLogin = false) :
    Effect plainActs (authedSubs w.conn) w (w.onMessage p env msg).1 := by
  unfold onMessage
  split
  · exact onClose_plain p w true
  · cases notLogin
  · cases notLogin
  · exact handleTestDelay_effect w _
  · cases notLogin
  · split_ifs with authorized
    · exact .refl
    · exact (onAuthorizedMessage_effect p env w _).mono
        (fun _ => Allowed.not_loginCheck) fun _ _ => .inl authorized
    · exact .refl

end World

/-- Every event that neither belongs to the login nor switches a permission. -/
theorem handleEvent_effect (p : Platform) (w : World) (e : Event) (notLogin : e.isLogin = false)
    (notSwitch : e.isSwitchPermission = false) :
    Change World.plainActs (World.authedSubs w.conn) w (w.handleEvent p e) := by
  cases e with
  | peer env msg =>
      refine .afterMessage (World.onMessage_effect p env w msg ?_)
      simpa [Event.isLogin] using notLogin
  | cm env data =>
      exact World.onCmData_effect p env w data (by simpa [Event.isLogin] using notLogin)
        (by simpa [Event.isSwitchPermission] using notSwitch)
  | fileClip clip => exact (World.handleFileClip_effect p w clip).toChange
  | printerData env path => exact (World.onPrinterData_effect p env w path).toChange
  | testDelayTimer =>
      exact Effect.toChange (.ite (fun _ => .emit (.modify .refl rfl rfl rfl) rfl) (fun _ => .refl))
  | disconnect env lock => exact .stop (World.onClose_plain p w lock)
  | othersTables g => exact Effect.toChange (.modifyGlobals (f := fun _ => g) .refl)
  | othersService name =>
      refine Effect.toChange (.serve .refl fun other subed => .inl ?_)
      exact ((Server.tryAddService_isSubed ..).mp subed).1
  | othersSubscribe id name sub =>
      refine Effect.toChange (.ite (fun _ => .refl) (fun other => .serve .refl fun name' subed => .inl ?_))
      exact (Server.subscribe_isSubed_of_ne w.server name name' sub other).mp subed

/-- What an event outside the login leaves of it. -/
theorem handleEvent_login (p : Platform) (w : World) {e : Event} (notLogin : e.isLogin = false) :
    w.conn.toLoginState.Follows (w.handleEvent p e).conn.toLoginState ∧
      (w.handleEvent p e).conn.id = w.conn.id ∧ w.out ⊆ (w.handleEvent p e).out := by
  by_cases switches : e.isSwitchPermission = true
  · cases e with
    | cm env data =>
        cases data with
        | switchPermission name enabled =>
            obtain ⟨_, effect⟩ := World.switchPermission_effect p w name enabled
            exact ⟨effect.login, effect.id, effect.grows⟩
        | _ => cases switches
    | _ => cases switches
  · have effect := handleEvent_effect p w e notLogin (by simpa using switches)
    exact ⟨effect.login, effect.id, effect.grows⟩

end RemoteControl.Host
