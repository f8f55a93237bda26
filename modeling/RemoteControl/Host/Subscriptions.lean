import RemoteControl.Host.Session

/-! # Who is subscribed to what

Before the login a connection is to hear nothing. After it, what a remote
connection hears is to follow from its permissions and options. For both the
steps that break the rule are found exactly, so the runs that keep it are the
runs without such a step.
-/

namespace RemoteControl.Host

open Runs World

variable (p : Platform)

/-- A connection that is not authorized hears nothing. -/
def Unserved (w : World) : Prop :=
  w.conn.authorized = false → ∀ name, ¬ w.server.isSubed name w.conn.id

/-- No kind is registered and no option has been applied yet. -/
structure Pending (c : Connection) : Prop where
  authedConnId : c.authedConnId = none
  service : c.service = ⟨false, false, false, false⟩

/-- The services a permission switch hands to a connection whose options are
    those of a new one. -/
def switchSubscribes (w : World) : Event → Bool
  | .cm _ (.switchPermission name enabled) =>
      enabled &&
        (name = "keyboard" && (w.server.contains .cursor ||
          w.server.contains .clipboard && w.conn.clipboard && !p.oneWayClipboard) ||
        name = "clipboard" && w.server.contains .clipboard && w.conn.keyboard && !p.oneWayClipboard)
  | _ => false

/-- Permissions that come with a service are not switched on before the login. -/
def SwitchAfterLogin (w : World) (e : Event) : Prop :=
  w.running = true → w.conn.authorized = false → switchSubscribes p w e = false

instance (w : World) (e : Event) : Decidable (SwitchAfterLogin p w e) :=
  inferInstanceAs (Decidable (_ → _ → _))

theorem onClose_service (w : World) (lock : Bool) :
    (w.onClose p lock).conn.service = w.conn.service := by
  simp only [onClose]
  split_ifs <;> rfl

theorem switchPermission_service (w : World) (name : String) (enabled : Bool) :
    (w.switchPermission p name enabled).conn.service = w.conn.service := by
  simp only [switchPermission, switchKeyboard, switchClipboard, switchAudio, switchFile,
    subscribeAudio]
  split_ifs <;> rfl

/-- The connection manager does not touch the options of the peer. -/
theorem onCmData_service (env : Env) (w : World) (data : CmData)
    (notAuthorize : data.isAuthorize = false) :
    (w.onCmData p env data).conn.service = w.conn.service := by
  cases data with
  | authorize => cases notAuthorize
  | close => exact onClose_service p _ true
  | cmErr e =>
      simp only [onCmData]
      split
      · exact onClose_service p _ false
      · rfl
  | switchPermission name enabled => exact switchPermission_service p w name enabled
  | clipboardFile clip =>
      simp only [onCmData, onCmClipboardFile]
      split
      · split <;> rfl
      · rfl
  | privacyModeState state => cases state <;> rfl
  | voiceCallResponse accepted =>
      simp only [onCmData, handleVoiceCall]
      split
      · rfl
      · split_ifs <;> rfl
  | closeVoiceCall =>
      simp only [onCmData, closeVoiceCall]
      split_ifs <;> rfl
  | readJobInitResult id result =>
      simp only [onCmData, handleReadJobInitResult]
      split
      · split <;> rfl
      · rfl
  | allFilesResult id result => cases result <;> rfl
  | requestStartPortableService | fileBlockFromCM _ _ _ _ | fileReadDone _ _ | fileReadError _ _ _
  | fileDigestFromCM _ _ _ _ _ =>
      simp only [onCmData, handleFileReadDone, handleFileReadError]
      split_ifs <;> rfl
  | chatMessage _ | rawMessage | switchSidesBack | other => rfl

variable {w : World} {e : Event} {w' : World}

/-- Nor does anything else before the login is finished. -/
theorem handleEvent_service (notLogin : e.isLogin = false)
    (unauthorized : w.conn.authorized = false) :
    (w.handleEvent p e).conn.service = w.conn.service := by
  cases e with
  | peer env msg =>
      simp only [handleEvent, afterMessage_conn]
      unfold onMessage
      split
      · exact onClose_service p w true
      · cases notLogin
      · cases notLogin
      · unfold handleTestDelay
        split_ifs <;> rfl
      · cases notLogin
      · rw [if_neg (by simp [unauthorized])]
  | cm env data => exact onCmData_service p env w data notLogin
  | fileClip clip =>
      simp only [handleEvent, handleFileClip]
      split_ifs <;> rfl
  | printerData env path =>
      simp only [handleEvent, onPrinterData]
      split_ifs <;> rfl
  | testDelayTimer =>
      simp only [handleEvent, onTestDelayTimer]
      split_ifs <;> rfl
  | disconnect env lock => exact onClose_service p w lock
  | othersSubscribe id name sub =>
      simp only [handleEvent]
      split_ifs <;> rfl
  | othersTables g | othersService name => rfl

/-- A part of the login that leaves options and services alone. -/
structure Quiet (w w' : World) : Prop where
  authedConnId : w'.conn.authedConnId = w.conn.authedConnId
  service : w'.conn.service = w.conn.service
  id : w'.conn.id = w.conn.id
  server : w'.server = w.server

theorem Quiet.trans {w₁ w₂ : World} (first : Quiet w w₁) (second : Quiet w₁ w₂) : Quiet w w₂ :=
  ⟨second.authedConnId.trans first.authedConnId, second.service.trans first.service,
    second.id.trans first.id, second.server.trans first.server⟩

theorem Shifted.quiet {standing : Standing} (shifted : Shifted standing w w')
    (kept : standing.authedConnId = w.conn.authedConnId) : Quiet w w' :=
  ⟨(congrArg Standing.authedConnId shifted.standing).trans kept, shifted.options, shifted.id,
    shifted.server⟩

theorem World.Announced.quiet {lr : LoginRequest} (announced : Announced lr w w') : Quiet w w' :=
  ⟨congrArg Standing.authedConnId announced.standing, announced.options, announced.id,
    announced.server⟩

theorem Admitted.quiet (admitted : Admitted w w') : Quiet w w' :=
  ⟨congrArg Standing.authedConnId admitted.standing, admitted.options, admitted.id,
    admitted.server⟩

/-- A logon that is not granted is quiet. -/
theorem quiet_of_outcome {w₁ : World} (before : Quiet w w₁) (outcome : Held w₁ w' ∨ Granted w₁ w') :
    w'.conn.authorized = true ∨ Quiet w w' := by
  rcases outcome with held | granted
  · exact .inr (before.trans (held.quiet rfl))
  · exact .inl granted.authorized

theorem Quiet.refl : Quiet w w := ⟨rfl, rfl, rfl, rfl⟩

theorem onMessage_quiet (env : Env) {msg : Message} (isLogin : msg.isLogin = true)
    (unauthorized : w.conn.authorized = false) :
    (w.onMessage p env msg).1.conn.authorized = true ∨ Quiet w (w.onMessage p env msg).1 := by
  cases msg with
  | loginRequest lr =>
      obtain ⟨w₁, w₂, announced, admitted, ended | ⟨-, outcome⟩⟩ :=
        handleLoginRequest_outcome p env w lr unauthorized
      · simp only [onMessage, ended]
        exact .inr (announced.quiet.trans admitted.quiet)
      · exact quiet_of_outcome (announced.quiet.trans admitted.quiet) (outcome.imp_right And.left)
  | auth2fa code hwid =>
      rcases handleAuth2fa_outcome p env w code hwid unauthorized with
        held | ⟨-, w₁, shifted, -, outcome⟩
      · exact .inr (held.quiet rfl)
      · exact quiet_of_outcome (shifted.quiet rfl) outcome
  | switchSidesResponse uuid lr =>
      cases lr with
      | none => exact .inr .refl
      | some lr =>
          by_cases flutter : p.flutter = true
          · obtain ⟨w₁, announced, held | ⟨w₂, shifted, -, outcome⟩⟩ :=
              handleSwitchSidesResponse_outcome p env w uuid lr flutter unauthorized
            · exact .inr (announced.quiet.trans (held.quiet rfl))
            · exact quiet_of_outcome (announced.quiet.trans (shifted.quiet rfl)) outcome
          · simp only [onMessage, handleSwitchSidesResponse_of_not_flutter p env w uuid (some lr)
              (by simpa using flutter)]
            exact .inr .refl
  | _ => cases isLogin

/-- The login itself subscribes nothing before it is granted. -/
theorem handleEvent_quiet (isLogin : e.isLogin = true) (unauthorized : w.conn.authorized = false) :
    (w.handleEvent p e).conn.authorized = true ∨ Quiet w (w.handleEvent p e) := by
  cases e with
  | peer env msg =>
      rcases onMessage_quiet p env (w := w) isLogin unauthorized with granted | quiet
      · exact .inl (by simpa [handleEvent] using granted)
      · exact .inr ⟨by simpa [handleEvent] using quiet.authedConnId,
          by simpa [handleEvent] using quiet.service, by simpa [handleEvent] using quiet.id,
          by simpa [handleEvent] using quiet.server⟩
  | cm env data =>
      cases data with
      | authorize =>
          obtain ⟨w₁, shifted, outcome⟩ := onAuthorize_outcome p env w unauthorized
          exact quiet_of_outcome (shifted.quiet rfl) outcome
      | _ => cases isLogin
  | _ => cases isLogin

section Switches

variable {w : World} (pending : Pending w.conn)

include pending

/-- What is left of the options in the conditions of the services. -/
theorem pending_flags : w.conn.showRemoteCursor = false ∧ w.conn.disableKeyboard = false ∧
    w.conn.disableClipboard = false ∧ w.conn.enableFileTransfer = false :=
  ⟨congrArg ServiceOptions.showRemoteCursor pending.service,
    congrArg ServiceOptions.disableKeyboard pending.service,
    congrArg ServiceOptions.disableClipboard pending.service,
    congrArg ServiceOptions.enableFileTransfer pending.service⟩

variable {enabled : Bool} (unserved : ∀ name, ¬ w.server.isSubed name w.conn.id)

include unserved

theorem switchKeyboard_isSubed (service : ServiceName) :
    (w.switchKeyboard p enabled).server.isSubed service w.conn.id ↔
      enabled = true ∧ (service = .cursor ∧ .cursor ∈ w.server.services ∨
        service = .clipboard ∧ .clipboard ∈ w.server.services ∧ w.conn.clipboard = true ∧
          p.oneWayClipboard = false) := by
  obtain ⟨showRemoteCursor, disableKeyboard, disableClipboard, enableFileTransfer⟩ :=
    pending_flags pending
  have none := unserved service
  simp only [switchKeyboard, sendPermission]
  cases service <;> cases enabled <;> split_ifs <;>
    simp_all [Server.subscribe_isSubed, Connection.canSubClipboardService,
      Connection.canSubFileClipboardService, Connection.clipboardEnabled,
      Connection.peerKeyboardEnabled, Connection.fileTransferEnabled]

theorem switchClipboard_isSubed (service : ServiceName) :
    (w.switchClipboard p enabled).server.isSubed service w.conn.id ↔
      enabled = true ∧ service = .clipboard ∧ .clipboard ∈ w.server.services ∧
        w.conn.keyboard = true ∧ p.oneWayClipboard = false := by
  obtain ⟨showRemoteCursor, disableKeyboard, disableClipboard, enableFileTransfer⟩ :=
    pending_flags pending
  have none := unserved service
  simp only [switchClipboard, sendPermission]
  cases service <;> cases enabled <;>
    simp_all [Server.subscribe_isSubed, Connection.canSubClipboardService,
      Connection.clipboardEnabled, Connection.peerKeyboardEnabled]

theorem switchFile_isSubed (service : ServiceName) :
    ¬ (w.switchFile p enabled).server.isSubed service w.conn.id := by
  obtain ⟨showRemoteCursor, disableKeyboard, disableClipboard, enableFileTransfer⟩ :=
    pending_flags pending
  have none := unserved service
  simp only [switchFile, sendPermission, tryEmptyFileClipboard]
  cases service <;> cases enabled <;> split_ifs <;>
    simp_all [Server.subscribe_isSubed, Connection.canSubFileClipboardService,
      Connection.fileTransferEnabled]

/-- The other permissions come without a service before the login. -/
theorem switchOther_isSubed {name : String} (keyboard : name ≠ "keyboard")
    (clipboard : name ≠ "clipboard") (unauthorized : w.conn.authorized = false)
    (service : ServiceName) :
    ¬ (w.switchPermission p name enabled).server.isSubed service w.conn.id := by
  unfold switchPermission
  rw [if_neg keyboard, if_neg clipboard]
  split_ifs
  · simpa [switchAudio, sendPermission, unauthorized] using unserved service
  · exact switchFile_isSubed p pending unserved service
  · exact unserved service
  · exact unserved service
  · exact unserved service
  · exact unserved service

/-- A permission switch before the login subscribes exactly what
    `switchSubscribes` says. -/
theorem switchPermission_unserved_iff (env : Env) (name : String)
    (unauthorized : w.conn.authorized = false) :
    (∀ service, ¬ (w.switchPermission p name enabled).server.isSubed service w.conn.id) ↔
      switchSubscribes p w (.cm env (.switchPermission name enabled)) = false := by
  by_cases keyboard : name = "keyboard"
  · subst keyboard
    simp only [switchPermission, if_true, switchKeyboard_isSubed p pending unserved]
    cases enabled with
    | false => simp [switchSubscribes]
    | true =>
        simp only [switchSubscribes, Server.contains]
        constructor
        · intro none
          have cursor := none .cursor
          have clipboard := none .clipboard
          simp_all
        · intro none service subed
          simp_all
  by_cases clipboard : name = "clipboard"
  · subst clipboard
    simp only [switchPermission, if_neg keyboard, if_true,
      switchClipboard_isSubed p pending unserved]
    cases enabled with
    | false => simp [switchSubscribes]
    | true => simp [switchSubscribes, Server.contains]
  · refine iff_of_true (switchOther_isSubed p pending unserved keyboard clipboard unauthorized) ?_
    simp [switchSubscribes, keyboard, clipboard]

end Switches

/-- Until the login is finished, the connection stays as it started. -/
def PendingLogin (w : World) : Prop := w.conn.authorized = false → Pending w.conn

theorem pendingLogin_event (w : World) (e : Event) (inv : PendingLogin w) :
    PendingLogin (w.handleEvent p e) := by
  intro unauthorized'
  by_cases authorized : w.conn.authorized = true
  · have remains := handleEvent_remains p (w := w) e authorized
    have authorized' : (w.handleEvent p e).conn.authorized = true :=
      (congrArg Kind.authorized remains.kind).trans authorized
    exact nomatch authorized'.symm.trans unauthorized'
  have unauthorized : w.conn.authorized = false := by simpa using authorized
  have pending := inv unauthorized
  by_cases login : e.isLogin = true
  · rcases handleEvent_quiet p (w := w) login unauthorized with granted | quiet
    · exact nomatch granted.symm.trans unauthorized'
    · exact ⟨quiet.authedConnId.trans pending.authedConnId, quiet.service.trans pending.service⟩
  · have notLogin : e.isLogin = false := by simpa using login
    obtain ⟨follows, -, -⟩ := handleEvent_login p w notLogin
    exact ⟨(follows.read LoginState.authedConnId rfl).trans pending.authedConnId,
      (handleEvent_service p notLogin unauthorized).trans pending.service⟩

theorem switchSubscribes_eq_false (other : e.isSwitchPermission = false) :
    switchSubscribes p w e = false := by
  cases e with
  | cm env data => cases data <;> first | rfl | cases other
  | _ => rfl

/-- One event breaks the rule exactly when it switches on a permission with a
    service before the login. -/
theorem unserved_event_iff (w : World) (e : Event) (inv : PendingLogin w) (unserved : Unserved w) :
    Unserved (w.handleEvent p e) ↔
      (w.conn.authorized = false → switchSubscribes p w e = false) := by
  by_cases authorized : w.conn.authorized = true
  · have remains := handleEvent_remains p (w := w) e authorized
    have authorized' : (w.handleEvent p e).conn.authorized = true :=
      (congrArg Kind.authorized remains.kind).trans authorized
    exact iff_of_true (fun unauthorized => nomatch authorized'.symm.trans unauthorized)
      fun unauthorized => nomatch authorized.symm.trans unauthorized
  have unauthorized : w.conn.authorized = false := by simpa using authorized
  have pending := inv unauthorized
  have none := unserved unauthorized
  by_cases login : e.isLogin = true
  · refine iff_of_true ?_ fun _ => ?_
    · rcases handleEvent_quiet p (w := w) login unauthorized with granted | quiet
      · exact fun unauthorized' => nomatch granted.symm.trans unauthorized'
      · intro _ name
        rw [quiet.server, quiet.id]
        exact none name
    · cases e with
      | cm env data => cases data <;> first | rfl | cases login
      | _ => rfl
  have notLogin : e.isLogin = false := by simpa using login
  obtain ⟨follows, id, -⟩ := handleEvent_login p w notLogin
  have unauthorized' : (w.handleEvent p e).conn.authorized = false :=
    (follows.read LoginState.authorized rfl).trans unauthorized
  have unfolded : Unserved (w.handleEvent p e) ↔
      ∀ name, ¬ (w.handleEvent p e).server.isSubed name w.conn.id := by
    rw [← id]
    exact ⟨fun unserved' => unserved' unauthorized', fun unserved' _ => unserved'⟩
  rw [unfolded]
  by_cases switches : e.isSwitchPermission = true
  · cases e with
    | cm env data =>
        cases data with
        | switchPermission name enabled =>
            exact (switchPermission_unserved_iff p pending none env name unauthorized).trans
              ⟨fun quiet _ => quiet, fun waits => waits unauthorized⟩
        | _ => cases switches
    | _ => cases switches
  · have other : e.isSwitchPermission = false := by simpa using switches
    refine iff_of_true (fun name subed => ?_) fun _ => switchSubscribes_eq_false p other
    have effect := handleEvent_effect p w e notLogin other
    rcases effect.server name subed with before | authorized | registered
    · exact none name before
    · exact nomatch unauthorized.symm.trans authorized
    · rw [pending.authedConnId] at registered
      cases registered

/-- A connection hears nothing before its login exactly in the runs that switch on
    no permission with a service before it. -/
theorem unserved_iff_switch_after_login {w : World} (started : w.Started p) (events : List Event) :
    Always (step p) Unserved w events ↔ Along (step p) (SwitchAfterLogin p) w events := by
  have start : PendingLogin w := by
    obtain ⟨env, id, ip, salt, challenge, controlPermissions, require2fa, conn⟩ := started.conn
    intro _
    rw [conn]
    exact ⟨rfl, rfl⟩
  refine always_iff_along_of_inv (q := PendingLogin) ?_ ?_ start fun _ => started.fresh
  · intro w e inv
    unfold step
    split
    · exact pendingLogin_event p w.awake e inv
    · exact inv
  · intro w e inv unserved
    unfold step SwitchAfterLogin
    split
    · rename_i running
      exact (unserved_event_iff p w.awake e inv unserved).trans
        ⟨fun waits _ => waits, fun waits => waits running⟩
    · rename_i stopped
      exact iff_of_true unserved fun running => absurd running stopped

/-- A session in which the keyboard is granted only after the login. -/
theorem unserved_until_authorize :
    Always (step (.plain .linux)) Unserved
      (World.opening (.plain .linux) {} {.cursor, .clipboard, .audio} false)
      [.cm {} (.switchPermission "audio" true), .cm {} .authorize,
        .cm {} (.switchPermission "keyboard" true)] :=
  (unserved_iff_switch_after_login (.plain .linux)
    (World.opening_started (.plain .linux) {} _ false) _).mpr (by decide)

/-- The user at the host switches the keyboard on while the login is pending: the
    peer hears the cursor. -/
theorem keyboard_switch_serves_unauthorized :
    ¬ ∀ (p : Platform) (w : World), w.Started p → ∀ events : List Event,
      (∀ e ∈ events, e.isAuthorize = false) → Always (step p) Unserved w events := by
  intro claim
  have always := claim (.plain .linux)
    (World.opening (.plain .linux) {} {.cursor, .clipboard, .audio} false)
    (World.opening_started (.plain .linux) {} _ false)
    [.cm {} (.switchPermission "keyboard" true)] (by simp [Event.isAuthorize, CmData.isAuthorize])
  exact always.last (by decide) .cursor (by decide)

end RemoteControl.Host
