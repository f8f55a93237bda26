import RemoteControl.Host.Effects

/-! # How a login ends

Every way into `send_logon_response_and_keep_alive` leaves the connection either
`Held`, with the standing and the services it had before, or `Granted`, that is
authorized. Each branch of the login gets one lemma that says which of the two
can come out of it and what is then known.
-/

namespace RemoteControl.Host

/-- The part of a connection that decides what an authorization is worth. -/
structure Standing where
  require2fa : Bool
  fromSwitch : Bool
  authorized : Bool
  authedConnId : Option AuthConnType
  fileTransfer : Option (String × Bool)
  viewCamera : Bool
  terminal : Bool
  portForwardSocket : Bool
  union : Option LoginUnion

def LoginState.standing (l : LoginState) : Standing where
  require2fa := l.require2fa
  fromSwitch := l.fromSwitch
  authorized := l.authorized
  authedConnId := l.authedConnId
  fileTransfer := l.fileTransfer
  viewCamera := l.viewCamera
  terminal := l.terminal
  portForwardSocket := l.portForwardSocket
  union := l.lr.union

/-- The options that matter for a subscription. -/
structure ServiceOptions where
  showRemoteCursor : Bool
  disableKeyboard : Bool
  disableClipboard : Bool
  enableFileTransfer : Bool

def PeerOptions.service (o : PeerOptions) : ServiceOptions where
  showRemoteCursor := o.showRemoteCursor
  disableKeyboard := o.disableKeyboard
  disableClipboard := o.disableClipboard
  enableFileTransfer := o.enableFileTransfer

/-- The connection now has the given standing; an answer may have been sent, but
    no option, permission or subscription has moved. -/
structure Shifted (standing : Standing) (w w' : World) : Prop where
  standing : w'.conn.standing = standing
  options : w'.conn.service = w.conn.service
  permissions : w'.conn.toPermissions = w.conn.toPermissions
  id : w'.conn.id = w.conn.id
  server : w'.server = w.server
  grows : w.out ⊆ w'.out

/-- A password was accepted, by comparison or through the session it belongs to. -/
def passwordAccepted (seen : List Action) : Prop :=
  .validatedPassword ∈ seen ∨ .recentSession false ∈ seen

/-- The login goes on as before. -/
abbrev Held (w w' : World) : Prop := Shifted w.conn.standing w w'

/-- The connection was authorized. -/
structure Granted (w w' : World) : Prop where
  authorized : w'.conn.authorized = true
  factor : w.conn.require2fa = false ∨ .recentSession true ∈ w'.out ∨ w.conn.fromSwitch = true
  fileTransfer : w'.conn.fileTransfer = w.conn.fileTransfer
  viewCamera : w'.conn.viewCamera = w.conn.viewCamera
  terminal : w'.conn.terminal = w.conn.terminal
  socket : w'.conn.portForwardSocket = true →
    w.conn.portForwardSocket = true ∨ ∃ pf, w.conn.lr.union = some (.portForward pf)
  grows : w.out ⊆ w'.out

namespace Held

variable {w w₁ w₂ : World}

theorem refl : Held w w := ⟨rfl, rfl, rfl, rfl, rfl, List.Subset.refl _⟩

theorem trans (first : Held w w₁) (second : Held w₁ w₂) : Held w w₂ :=
  ⟨second.standing.trans first.standing, second.options.trans first.options,
    second.permissions.trans first.permissions, second.id.trans first.id,
    second.server.trans first.server, List.Subset.trans first.grows second.grows⟩

theorem emit {a : Action} (before : Held w w₁) : Held w (w₁.emit a) :=
  before.trans ⟨rfl, rfl, rfl, rfl, rfl, List.subset_cons_self a w₁.out⟩

theorem modify {f : Connection → Connection} (before : Held w w₁)
    (standing : (f w₁.conn).standing = w₁.conn.standing)
    (options : (f w₁.conn).service = w₁.conn.service)
    (permissions : (f w₁.conn).toPermissions = w₁.conn.toPermissions)
    (id : (f w₁.conn).id = w₁.conn.id) : Held w (w₁.modify f) :=
  before.trans ⟨standing, options, permissions, id, rfl, List.Subset.refl _⟩

theorem modifyGlobals {f : Globals → Globals} (before : Held w w₁) :
    Held w (w₁.modifyGlobals f) :=
  before.trans ⟨rfl, rfl, rfl, rfl, rfl, List.Subset.refl _⟩

theorem ite {c : Prop} [Decidable c] (yes : c → Held w w₁) (no : ¬ c → Held w w₂) :
    Held w (if c then w₁ else w₂) := by
  split
  · exact yes ‹_›
  · exact no ‹_›

theorem authorized (held : Held w w₁) : w₁.conn.authorized = w.conn.authorized :=
  congrArg Standing.authorized held.standing

theorem granted (held : Held w w₁) (later : Granted w₁ w₂) : Granted w w₂ where
  authorized := later.authorized
  factor := by
    have require2fa : w₁.conn.require2fa = w.conn.require2fa :=
      congrArg Standing.require2fa held.standing
    have fromSwitch : w₁.conn.fromSwitch = w.conn.fromSwitch :=
      congrArg Standing.fromSwitch held.standing
    rw [← require2fa, ← fromSwitch]
    exact later.factor
  fileTransfer := later.fileTransfer.trans (congrArg Standing.fileTransfer held.standing)
  viewCamera := later.viewCamera.trans (congrArg Standing.viewCamera held.standing)
  terminal := later.terminal.trans (congrArg Standing.terminal held.standing)
  socket := by
    have socket : w₁.conn.portForwardSocket = w.conn.portForwardSocket :=
      congrArg Standing.portForwardSocket held.standing
    have union : w₁.conn.lr.union = w.conn.lr.union := congrArg Standing.union held.standing
    rw [← socket, ← union]
    exact later.socket
  grows := List.Subset.trans held.grows later.grows

end Held

variable {w₁ : World}

theorem Granted.later {w w₂ : World} (granted : Granted w w₁) (held : Held w₁ w₂) :
    Granted w w₂ where
  authorized := held.authorized.trans granted.authorized
  factor := granted.factor.imp_right fun factor => factor.imp_left fun member => held.grows member
  fileTransfer := (congrArg Standing.fileTransfer held.standing).trans granted.fileTransfer
  viewCamera := (congrArg Standing.viewCamera held.standing).trans granted.viewCamera
  terminal := (congrArg Standing.terminal held.standing).trans granted.terminal
  socket := by
    rw [show w₂.conn.portForwardSocket = w₁.conn.portForwardSocket from
      congrArg Standing.portForwardSocket held.standing]
    exact granted.socket
  grows := List.Subset.trans granted.grows held.grows

/-- What happens once the connection is authorized keeps its kind and records no
    further check. -/
structure Begins (w w' : World) : Prop where
  authorized : w'.conn.authorized = w.conn.authorized
  fileTransfer : w'.conn.fileTransfer = w.conn.fileTransfer
  viewCamera : w'.conn.viewCamera = w.conn.viewCamera
  terminal : w'.conn.terminal = w.conn.terminal
  socket : w'.conn.portForwardSocket = true → w.conn.portForwardSocket = true
  grows : w.out ⊆ w'.out
  out : ∀ a ∈ w'.out, a ∈ w.out ∨ World.plainActs a

theorem Effect.begins {subs : ServiceName → Prop} {w w' : World}
    (effect : Effect World.plainActs subs w w') : Begins w w' where
  authorized := effect.login.read LoginState.authorized rfl
  fileTransfer := effect.login.read LoginState.fileTransfer rfl
  viewCamera := effect.login.read LoginState.viewCamera rfl
  terminal := effect.login.read LoginState.terminal rfl
  socket := by
    intro open_
    rcases effect.login with same | same
    · rwa [show w'.conn.portForwardSocket = w.conn.portForwardSocket from
        congrArg LoginState.portForwardSocket same] at open_
    · rw [show w'.conn.portForwardSocket = false from
        congrArg LoginState.portForwardSocket same] at open_
      cases open_
  grows := effect.grows
  out := effect.out

namespace Begins

variable {w w₁ w₂ : World}

theorem refl : Begins w w :=
  ⟨rfl, rfl, rfl, rfl, fun open_ => open_, List.Subset.refl _, fun _ member => .inl member⟩

theorem trans (first : Begins w w₁) (second : Begins w₁ w₂) : Begins w w₂ where
  authorized := second.authorized.trans first.authorized
  fileTransfer := second.fileTransfer.trans first.fileTransfer
  viewCamera := second.viewCamera.trans first.viewCamera
  terminal := second.terminal.trans first.terminal
  socket := fun open_ => first.socket (second.socket open_)
  grows := List.Subset.trans first.grows second.grows
  out := by
    intro a member
    rcases second.out a member with earlier | plain
    · exact first.out a earlier
    · exact .inr plain

theorem emit {a : Action} (before : Begins w w₁) (plain : a.isLoginCheck = false) :
    Begins w (w₁.emit a) := by
  have added : Effect World.plainActs noService w₁ (w₁.emit a) := .emit .refl plain
  exact before.trans added.begins

theorem modify {f : Connection → Connection} (before : Begins w w₁)
    (standing : (f w₁.conn).standing = w₁.conn.standing) : Begins w (w₁.modify f) :=
  before.trans ⟨congrArg Standing.authorized standing, congrArg Standing.fileTransfer standing,
    congrArg Standing.viewCamera standing, congrArg Standing.terminal standing,
    fun open_ => (congrArg Standing.portForwardSocket standing).symm.trans open_,
    List.Subset.refl _, fun _ member => .inl member⟩

theorem ite {c : Prop} [Decidable c] (yes : c → Begins w w₁) (no : ¬ c → Begins w w₂) :
    Begins w (if c then w₁ else w₂) := by
  split
  · exact yes ‹_›
  · exact no ‹_›

end Begins

namespace World

variable (p : Platform) (env : Env) (w : World)

theorem updateOptions_begins (o : OptionMessage) : Begins w (w.updateOptions p env o) := by
  have updated : Effect (Allowed p w.conn .other) notVideo w (w.updateOptions p env o) :=
    updateOptions_effect p env w o rfl
  exact (updated.mono (fun _ => Allowed.not_loginCheck) fun _ allowed => allowed).begins

theorem applyOptionsInLogin_begins : Begins w (w.applyOptionsInLogin p env) := by
  unfold applyOptionsInLogin
  split
  · refine .trans ?_ (updateOptions_begins p env _ _)
    exact .modify .refl rfl
  · exact .refl

theorem initTerminalService_begins : Begins w (w.initTerminalService env) := by
  unfold initTerminalService
  split
  · exact .refl
  · exact .emit (.ite (fun _ => .modify .refl rfl) (fun _ => .refl)) rfl

theorem trySubCameraDisplays_begins : Begins w (w.trySubCameraDisplays p env) := by
  have camera : Effect plainActs (fun _ => True) w (w.trySubCameraDisplays p env) :=
    trySubCameraDisplays_effect p env w fun _ => trivial
  exact camera.begins

theorem trySubMonitorServices_begins : Begins w (w.trySubMonitorServices p env) := by
  have monitors : Effect plainActs (fun _ => True) w (w.trySubMonitorServices p env) :=
    trySubMonitorServices_effect p env w fun _ _ => trivial
  exact monitors.begins

theorem startSession_begins (subService : Bool) : Begins w (w.startSession p env subService) := by
  unfold startSession
  split
  · exact .ite (fun _ => .emit .refl rfl) (fun _ => .modify .refl rfl)
  · refine .ite (fun _ => ?_) (fun _ => .ite (fun _ => ?_) (fun _ => ?_))
    · refine .ite (fun _ => .trans ?_ (initTerminalService_begins env _)) (fun _ => ?_)
      · exact .modify .refl rfl
      · exact .modify .refl rfl
    · refine .emit (.modify (.ite (fun _ => ?_) (fun _ => .refl)) rfl) rfl
      exact trySubCameraDisplays_begins p env w
    · exact .ite (fun _ => trySubMonitorServices_begins p env w) (fun _ => .refl)

theorem sendLoginResponse_begins : Begins w (w.sendLoginResponse env).1 := by
  unfold sendLoginResponse
  split_ifs
  · exact .emit .refl rfl
  · exact .emit (.emit .refl rfl) rfl
  · exact .emit (.emit .refl rfl) rfl
  · exact .emit (.emit .refl rfl) rfl

theorem finishLogon_begins : Begins w.authorize (w.finishLogon p env) := by
  refine .ite (fun _ => .emit .refl rfl) (fun _ => .ite (fun _ => .emit .refl rfl) (fun _ => ?_))
  exact ((sendLoginResponse_begins env _).trans (applyOptionsInLogin_begins p env _)).trans
    (startSession_begins p env _ _)

theorem isRecentSession_held (tfa : Bool) : Held w (w.isRecentSession p env tfa).1 := by
  unfold isRecentSession
  extract_lets retained
  have retained_ : Held w retained := .modifyGlobals .refl
  split
  · split
    · exact .emit retained_
    · exact retained_
  · exact retained_

theorem isRecentSession_recorded (tfa : Bool) (recent : (w.isRecentSession p env tfa).2 = true) :
    .recentSession tfa ∈ (w.isRecentSession p env tfa).1.out := by
  unfold isRecentSession at recent ⊢
  extract_lets at recent ⊢
  split at recent
  · split at recent
    · simp_all
    · cases recent
  · cases recent

theorem lacks2fa_held : Held w (w.lacks2fa p env).1 := by
  unfold lacks2fa
  split
  · exact isRecentSession_held p env w true
  · exact .refl

theorem lacks2fa_factor (has : (w.lacks2fa p env).2 = false) :
    w.conn.require2fa = false ∨ .recentSession true ∈ (w.lacks2fa p env).1.out ∨
      w.conn.fromSwitch = true := by
  by_cases required : w.conn.require2fa = true
  · have fromSwitch : (w.isRecentSession p env true).1.conn.fromSwitch = w.conn.fromSwitch :=
      congrArg Standing.fromSwitch (isRecentSession_held p env w true).standing
    simp only [lacks2fa, required, if_true, fromSwitch] at has ⊢
    cases recent : (w.isRecentSession p env true).2 with
    | true => exact .inr (.inl (isRecentSession_recorded p env w true recent))
    | false => exact .inr (.inr (by simpa [recent] using has))
  · exact .inl (by simpa using required)

/-- The socket is opened only for a login request that asks for one. -/
structure Opens (w w' : World) : Prop where
  fileTransfer : w'.conn.fileTransfer = w.conn.fileTransfer
  viewCamera : w'.conn.viewCamera = w.conn.viewCamera
  terminal : w'.conn.terminal = w.conn.terminal
  socket : w'.conn.portForwardSocket = true →
    w.conn.portForwardSocket = true ∨ ∃ pf, w.conn.lr.union = some (.portForward pf)
  out : w'.out = w.out

theorem connectPortForwardIfNeeded_cases :
    ((w.connectPortForwardIfNeeded env).2 = false ∧ Held w (w.connectPortForwardIfNeeded env).1) ∨
    ((w.connectPortForwardIfNeeded env).2 = true ∧
      Opens w (w.connectPortForwardIfNeeded env).1) := by
  unfold connectPortForwardIfNeeded
  split
  · exact .inr ⟨rfl, rfl, rfl, rfl, .inl, rfl⟩
  · split
    · rename_i pf asked
      dsimp only
      split
      · exact .inr ⟨rfl, rfl, rfl, rfl, fun _ => .inr ⟨pf, asked⟩, rfl⟩
      · exact .inl ⟨rfl, .emit (.modify .refl rfl rfl rfl rfl)⟩
    · exact .inr ⟨rfl, rfl, rfl, rfl, .inl, rfl⟩

theorem finishLogon_granted {w : World} (opens : Opens w w₁)
    (factor : w.conn.require2fa = false ∨ .recentSession true ∈ w.out ∨ w.conn.fromSwitch = true) :
    Granted w (w₁.finishLogon p env) where
  authorized := (finishLogon_begins p env w₁).authorized
  factor := by
    refine factor.imp_right fun factor => factor.imp_left fun member => ?_
    exact (finishLogon_begins p env w₁).grows (opens.out ▸ member)
  fileTransfer := (finishLogon_begins p env w₁).fileTransfer.trans opens.fileTransfer
  viewCamera := (finishLogon_begins p env w₁).viewCamera.trans opens.viewCamera
  terminal := (finishLogon_begins p env w₁).terminal.trans opens.terminal
  socket := fun open_ => opens.socket ((finishLogon_begins p env w₁).socket open_)
  grows := fun _ member => (finishLogon_begins p env w₁).grows (opens.out ▸ member)

theorem sendLogon_outcome (unauthorized : w.conn.authorized = false) :
    Held w (w.sendLogonResponseAndKeepAlive p env).1 ∨
      Granted w (w.sendLogonResponseAndKeepAlive p env).1 := by
  unfold sendLogonResponseAndKeepAlive
  rw [if_neg (by simp [unauthorized])]
  have held := lacks2fa_held p env w
  have factor := lacks2fa_factor p env w
  generalize w.lacks2fa p env = res at held factor ⊢
  obtain ⟨w₁, lacks⟩ := res
  cases lacks with
  | true => exact .inl (.emit held)
  | false =>
      dsimp only at held factor ⊢
      rcases connectPortForwardIfNeeded_cases env w₁ with ⟨failed, refused⟩ | ⟨connected, opens⟩
      · generalize w₁.connectPortForwardIfNeeded env = res at failed refused ⊢
        obtain ⟨w₂, ok⟩ := res
        subst failed
        exact .inl (held.trans refused)
      · generalize w₁.connectPortForwardIfNeeded env = res at connected opens ⊢
        obtain ⟨w₂, ok⟩ := res
        subst connected
        refine .inr (held.granted (finishLogon_granted p env opens ?_))
        rcases factor rfl with notRequired | recent | switched
        · exact .inl ((congrArg Standing.require2fa held.standing).trans notRequired)
        · exact .inr (.inl recent)
        · exact .inr (.inr ((congrArg Standing.fromSwitch held.standing).trans switched))

theorem logonThen_outcome {after : World → World} (keeps : ∀ w, Held w (after w))
    (unauthorized : w.conn.authorized = false) :
    Held w (w.logonThen p env after).1 ∨ Granted w (w.logonThen p env after).1 := by
  have outcome := sendLogon_outcome p env w unauthorized
  unfold logonThen
  generalize w.sendLogonResponseAndKeepAlive p env = res at outcome ⊢
  obtain ⟨w₁, alive⟩ := res
  cases alive with
  | false => exact outcome
  | true =>
      rcases outcome with held | granted
      · exact .inl (held.trans (keeps w₁))
      · exact .inr (granted.later (keeps w₁))

variable (lr : LoginRequest)

theorem acceptLogin_outcome (errMsg : String) (unauthorized : w.conn.authorized = false) :
    Held w (w.acceptLogin p env lr errMsg).1 ∨ Granted w (w.acceptLogin p env lr errMsg).1 := by
  unfold acceptLogin
  split
  · exact logonThen_outcome p env w (fun _ => .emit .refl) unauthorized
  · exact .inl (.emit .refl)

theorem validatePassword_held : Held w (w.validatePassword p env).1 := by
  unfold validatePassword
  split_ifs
  · exact .emit (.modifyGlobals .refl)
  · exact .emit .refl
  · exact .refl

theorem validatePassword_recorded (valid : (w.validatePassword p env).2 = true) :
    .validatedPassword ∈ (w.validatePassword p env).1.out := by
  unfold validatePassword at valid ⊢
  split_ifs at valid ⊢
  · exact List.mem_cons_self
  · exact List.mem_cons_self

theorem checkFailure_held (i : Fin 2) : Held w (w.checkFailure env i).1 := by
  unfold checkFailure
  split
  · exact .refl
  · exact .emit .refl

/-- A login that is only granted once a password was accepted. -/
def PasswordOutcome (w w' : World) : Prop :=
  Held w w' ∨ (Granted w w' ∧ passwordAccepted w'.out)

theorem acceptLogin_password (errMsg : String) (held : Held w w₁)
    (unauthorized : w.conn.authorized = false) (accepted : passwordAccepted w₁.out) :
    PasswordOutcome w (w₁.acceptLogin p env lr errMsg).1 := by
  rcases acceptLogin_outcome p env w₁ lr errMsg (held.authorized.trans unauthorized) with
    later | granted
  · exact .inl (held.trans later)
  · exact .inr ⟨held.granted granted,
      accepted.imp (fun member => granted.grows member) fun member => granted.grows member⟩

theorem handlePasswordLogin_outcome (errMsg : String) (unauthorized : w.conn.authorized = false) :
    PasswordOutcome w (w.handlePasswordLogin p env lr errMsg).1 := by
  unfold handlePasswordLogin
  have checked := checkFailure_held env w 0
  generalize w.checkFailure env 0 = res at checked ⊢
  obtain ⟨w₁, read⟩ := res
  cases read with
  | none => exact .inl checked
  | some read =>
      have validated := checked.trans (validatePassword_held p env w₁)
      have recorded := validatePassword_recorded p env w₁
      dsimp only
      generalize w₁.validatePassword p env = res at validated recorded ⊢
      obtain ⟨w₂, valid⟩ := res
      cases valid with
      | true =>
          exact acceptLogin_password p env w lr errMsg (.modifyGlobals validated) unauthorized
            (.inl (recorded rfl))
      | false =>
          dsimp only
          split
          · exact .inl (.emit (.emit (.modifyGlobals validated)))
          · exact .inl (.emit (.modifyGlobals validated))

theorem tryStartCmIpc_held : Held w w.tryStartCmIpc :=
  .ite (fun _ => .emit (.modify .refl rfl rfl rfl rfl)) (fun _ => .refl)

theorem handleLoginCredentials_outcome (unauthorized : w.conn.authorized = false) :
    PasswordOutcome w (w.handleLoginCredentials p env lr).1 := by
  unfold handleLoginCredentials
  extract_lets started errMsg
  have started_ : Held w started :=
    .ite (fun _ => tryStartCmIpc_held w) (fun _ => .refl)
  split
  · exact .inl (.emit started_)
  split
  · exact .inl (.emit started_)
  split
  · exact .inl (.ite (fun _ => .emit (.emit started_)) (fun _ => .emit started_))
  · have checked := started_.trans (isRecentSession_held p env started false)
    have recorded := isRecentSession_recorded p env started false
    generalize started.isRecentSession p env false = res at checked recorded ⊢
    obtain ⟨w₁, recent⟩ := res
    cases recent with
    | true =>
        exact acceptLogin_password p env w lr errMsg checked unauthorized (.inr (recorded rfl))
    | false =>
        dsimp only
        split
        · exact .inl (.ite (fun _ => .emit checked) (fun _ => .emit checked))
        · rcases handlePasswordLogin_outcome p env w₁ lr errMsg
            (checked.authorized.trans unauthorized) with later | ⟨granted, accepted⟩
          · exact .inl (checked.trans later)
          · exact .inr ⟨checked.granted granted, accepted⟩

/-- The login request is remembered, whatever it asks for; only a trusted device
    takes the second factor away. -/
structure Announced (lr : LoginRequest) (w w' : World) : Prop where
  standing : { w'.conn.standing with require2fa := false } =
    { w.conn.standing with require2fa := false, union := lr.union }
  require2fa : w'.conn.require2fa = w.conn.require2fa ∨ .trustedDevice ∈ w'.out
  options : w'.conn.service = w.conn.service
  permissions : w'.conn.toPermissions = w.conn.toPermissions
  id : w'.conn.id = w.conn.id
  server : w'.server = w.server
  grows : w.out ⊆ w'.out

theorem announced : Announced lr w (w.handleLoginRequestWithoutValidation env lr) := by
  unfold handleLoginRequestWithoutValidation
  extract_lets remembered
  split
  · exact ⟨rfl, .inr List.mem_cons_self, rfl, rfl, rfl, rfl, List.subset_cons_self _ _⟩
  · exact ⟨rfl, .inl rfl, rfl, rfl, rfl, rfl, List.Subset.refl _⟩

end World

/-- A flag that marks a restricted kind is set only after its permission was
    found to be granted. -/
structure Admitted (w w' : World) : Prop where
  standing : { w'.conn.standing with fileTransfer := none, viewCamera := false, terminal := false } =
    { w.conn.standing with fileTransfer := none, viewCamera := false, terminal := false }
  options : w'.conn.service = w.conn.service
  permissions : w'.conn.toPermissions = w.conn.toPermissions
  id : w'.conn.id = w.conn.id
  server : w'.server = w.server
  grows : w.out ⊆ w'.out
  fileTransfer : w'.conn.fileTransfer.isSome = true →
    w.conn.fileTransfer.isSome = true ∨ .permitted .fileTransfer ∈ w'.out
  viewCamera : w'.conn.viewCamera = true → w.conn.viewCamera = true ∨ .permitted .camera ∈ w'.out
  terminal : w'.conn.terminal = true → w.conn.terminal = true ∨ .permitted .terminal ∈ w'.out

theorem Held.admitted {w w' : World} (held : Held w w') : Admitted w w' where
  standing := by rw [held.standing]
  options := held.options
  permissions := held.permissions
  id := held.id
  server := held.server
  grows := held.grows
  fileTransfer := fun set => .inl (by
    rwa [show w'.conn.fileTransfer = w.conn.fileTransfer from
      congrArg Standing.fileTransfer held.standing] at set)
  viewCamera := fun set => .inl ((congrArg Standing.viewCamera held.standing).symm.trans set)
  terminal := fun set => .inl ((congrArg Standing.terminal held.standing).symm.trans set)

theorem Admitted.trans {w w₂ : World} (first : Admitted w w₁) (second : Admitted w₁ w₂) :
    Admitted w w₂ where
  standing := second.standing.trans first.standing
  options := second.options.trans first.options
  permissions := second.permissions.trans first.permissions
  id := second.id.trans first.id
  server := second.server.trans first.server
  grows := List.Subset.trans first.grows second.grows
  fileTransfer := fun set => by
    rcases second.fileTransfer set with earlier | permitted
    · exact (first.fileTransfer earlier).imp_right fun member => second.grows member
    · exact .inr permitted
  viewCamera := fun set => by
    rcases second.viewCamera set with earlier | permitted
    · exact (first.viewCamera earlier).imp_right fun member => second.grows member
    · exact .inr permitted
  terminal := fun set => by
    rcases second.terminal set with earlier | permitted
    · exact (first.terminal earlier).imp_right fun member => second.grows member
    · exact .inr permitted

namespace World

variable (p : Platform) (env : Env) (w : World)

theorem handleTerminalLogin_admitted (lr : LoginRequest) (serviceId : String)
    (permitted : .permitted .terminal ∈ w.out) :
    Admitted w (w.handleTerminalLogin p env lr serviceId).1 := by
  unfold handleTerminalLogin
  split
  · exact Held.admitted (.emit .refl)
  · extract_lets marked
    have marked_ : Admitted w marked :=
      ⟨rfl, rfl, rfl, rfl, rfl, List.Subset.refl _, .inl, .inl, fun _ => .inr permitted⟩
    refine marked_.trans (Held.admitted ?_)
    split
    · split
      · exact .emit .refl
      · dsimp only
        split
        · split
          · exact .emit (.modify .refl rfl rfl rfl rfl)
          · exact ⟨rfl, rfl, rfl, rfl, rfl, List.Subset.refl _⟩
        · exact ⟨rfl, rfl, rfl, rfl, rfl, List.Subset.refl _⟩
    · exact .refl

theorem requirePermission_admitted (option : PermissionOption) (refusal : String)
    {granted : World → World × Bool}
    (admitted : Admitted (w.emit (.permitted option)) (granted (w.emit (.permitted option))).1) :
    Admitted w (w.requirePermission p env option refusal granted).1 := by
  unfold requirePermission
  split
  · exact (Held.admitted (.emit .refl)).trans admitted
  · exact Held.admitted (.emit .refl)

theorem handleLoginKind_admitted (lr : LoginRequest) :
    Admitted w (w.handleLoginKind p env lr).1 := by
  unfold handleLoginKind
  split
  · exact requirePermission_admitted p env w _ _
      ⟨rfl, rfl, rfl, rfl, rfl, List.Subset.refl _, fun _ => .inr List.mem_cons_self, .inl, .inl⟩
  · exact requirePermission_admitted p env w _ _
      ⟨rfl, rfl, rfl, rfl, rfl, List.Subset.refl _, .inl, fun _ => .inr List.mem_cons_self, .inl⟩
  · exact requirePermission_admitted p env w _ _
      (handleTerminalLogin_admitted p env _ lr _ List.mem_cons_self)
  · exact requirePermission_admitted p env w _ _
      (Held.admitted ⟨rfl, rfl, rfl, rfl, rfl, List.Subset.refl _⟩)
  · split
    · exact Held.admitted (.emit .refl)
    · exact Held.admitted .refl

theorem handleLoginKind_tunnel {lr : LoginRequest} {pf : PortForward}
    (asked : lr.union = some (.portForward pf)) (ok : (w.handleLoginKind p env lr).2 = true) :
    .permitted .tunnel ∈ (w.handleLoginKind p env lr).1.out := by
  unfold handleLoginKind requirePermission at ok ⊢
  rw [asked] at ok ⊢
  dsimp only at ok ⊢
  split at ok
  · rename_i granted
    rw [if_pos granted]
    exact List.mem_cons_self
  · cases ok

/-- A login request of a peer that is not authorized yet. -/
theorem handleLoginRequest_outcome (lr : LoginRequest) (unauthorized : w.conn.authorized = false) :
    ∃ w₁ w₂, Announced lr w w₁ ∧ Admitted w₁ w₂ ∧
      (w.handleLoginRequest p env lr = (w₂, false) ∨
        (∀ pf, lr.union = some (.portForward pf) → .permitted .tunnel ∈ w₂.out) ∧
          PasswordOutcome w₂ (w.handleLoginRequest p env lr).1) := by
  have announced_ := announced env w lr
  have unauthorized' : (w.handleLoginRequestWithoutValidation env lr).conn.authorized = false :=
    (congrArg Standing.authorized announced_.standing).trans unauthorized
  unfold handleLoginRequest
  generalize w.handleLoginRequestWithoutValidation env lr = w₁ at announced_ unauthorized' ⊢
  have admitted := handleLoginKind_admitted p env w₁ lr
  have tunnel (pf : PortForward) (asked : lr.union = some (.portForward pf)) :=
    handleLoginKind_tunnel p env w₁ asked
  have unauthorized'' : (w₁.handleLoginKind p env lr).1.conn.authorized = false :=
    (congrArg Standing.authorized admitted.standing).trans unauthorized'
  dsimp only
  rw [if_neg (by simpa using unauthorized')]
  generalize w₁.handleLoginKind p env lr = res at admitted tunnel unauthorized'' ⊢
  obtain ⟨w₂, ok⟩ := res
  refine ⟨w₁, w₂, announced_, admitted, ?_⟩
  cases ok with
  | false => exact .inl rfl
  | true =>
      exact .inr ⟨fun pf asked => tunnel pf asked rfl,
        handleLoginCredentials_outcome p env w₂ lr unauthorized''⟩

/-- The attempt is let through and the code is right. -/
def accepts2fa (code : String) : Bool :=
  (LoginFailures.checkFailure (w.globals.loginFailures (Fin.last 1)) w.conn.ip env.minute).2 = .proceed ∧
    w.conn.require2fa = true ∧ env.totpCheck code = some true

theorem accept2fa_outcome (hwid : Bytes) (unauthorized : w.conn.authorized = false) :
    Held (w.prove2fa env) (w.accept2fa p env hwid).1 ∨
      Granted (w.prove2fa env) (w.accept2fa p env hwid).1 :=
  logonThen_outcome p env (w.prove2fa env)
    (fun _ => .ite (fun _ => .emit (.emit .refl)) (fun _ => .emit .refl)) unauthorized

theorem prove2fa_shifted (held : Held w w₁) :
    Shifted { w.conn.standing with require2fa := false } w (w₁.prove2fa env) where
  standing := congrArg (fun s : Standing => { s with require2fa := false }) held.standing
  options := held.options
  permissions := held.permissions
  id := held.id
  server := held.server
  grows := fun _ member => List.mem_cons_of_mem _ (held.grows member)

theorem handleAuth2fa_outcome (code : String) (hwid : Bytes)
    (unauthorized : w.conn.authorized = false) :
    Held w (w.handleAuth2fa p env code hwid).1 ∨
      (w.accepts2fa env code = true ∧
        ∃ w₁, Shifted { w.conn.standing with require2fa := false } w w₁ ∧
          .validatedTotp ∈ w₁.out ∧
            (Held w₁ (w.handleAuth2fa p env code hwid).1 ∨
              Granted w₁ (w.handleAuth2fa p env code hwid).1)) := by
  have second : (Fin.last 1 : Fin 2) = 1 := rfl
  unfold handleAuth2fa checkFailure accepts2fa
  rw [second]
  rcases LoginFailures.checkFailure (w.globals.loginFailures 1) w.conn.ip env.minute with
    ⟨failure, proceed | ⟨err, wait⟩⟩
  · dsimp only
    split
    · rename_i required
      cases env.totpCheck code with
      | none => exact .inl .refl
      | some valid =>
          cases valid with
          | false => exact .inl (.emit (.modifyGlobals .refl))
          | true =>
              have updated : Held w (w.updateFailure (failure, env.minute) true 1) :=
                .modifyGlobals .refl
              exact .inr ⟨by simp [required], _, prove2fa_shifted env w updated,
                List.mem_cons_self, accept2fa_outcome p env _ hwid unauthorized⟩
    · exact .inl .refl
  · exact .inl (.emit .refl)

theorem handleSwitchSidesResponse_of_not_flutter (uuid : Bytes) (lr : Option LoginRequest)
    (flutter : p.flutter = false) : w.handleSwitchSidesResponse p env uuid lr = (w, true) := by
  unfold handleSwitchSidesResponse
  cases lr with
  | none => rfl
  | some lr => exact if_pos (by simp [flutter])

theorem switchedSides_shifted (held : Held w w₁) :
    Shifted { w.conn.standing with fromSwitch := true } w w₁.switchedSides where
  standing := congrArg (fun s : Standing => { s with fromSwitch := true }) held.standing
  options := held.options
  permissions := held.permissions
  id := held.id
  server := held.server
  grows := fun _ member => List.mem_cons_of_mem _ (held.grows member)

theorem handleSwitchSidesResponse_outcome (uuid : Bytes) (lr : LoginRequest)
    (flutter : p.flutter = true) (unauthorized : w.conn.authorized = false) :
    ∃ w₁, Announced lr w w₁ ∧
      (Held w₁ (w.handleSwitchSidesResponse p env uuid (some lr)).1 ∨
        ∃ w₂, Shifted { w₁.conn.standing with fromSwitch := true } w₁ w₂ ∧
          .switchSidesMatched ∈ w₂.out ∧
            (Held w₂ (w.handleSwitchSidesResponse p env uuid (some lr)).1 ∨
              Granted w₂ (w.handleSwitchSidesResponse p env uuid (some lr)).1)) := by
  have announced_ := announced env w lr
  have unauthorized' : (w.handleLoginRequestWithoutValidation env lr).conn.authorized = false :=
    (congrArg Standing.authorized announced_.standing).trans unauthorized
  refine ⟨_, announced_, ?_⟩
  unfold handleSwitchSidesResponse
  dsimp only
  rw [if_neg (by simp [flutter])]
  generalize w.handleLoginRequestWithoutValidation env lr = w₁ at unauthorized' ⊢
  have taken : Held w₁ (w₁.modifyGlobals fun g =>
      (g.retainSwitchSides env).removeSwitchSides lr.myId) := .modifyGlobals .refl
  split
  · refine .inr ⟨_, switchedSides_shifted w₁ taken, List.mem_cons_self, ?_⟩
    refine logonThen_outcome p env _ (fun _ => ?_) unauthorized'
    exact .ite (fun _ => Held.trans (.emit .refl) (tryStartCmIpc_held _)) (fun _ => .emit .refl)
  · exact .inl taken

/-- The user at the host decides: the second factor is waived. -/
theorem onAuthorize_outcome (unauthorized : w.conn.authorized = false) :
    ∃ w₁, Shifted { w.conn.standing with require2fa := false } w w₁ ∧
      (Held w₁ (w.onAuthorize p env) ∨ Granted w₁ (w.onAuthorize p env)) := by
  refine ⟨w.modify fun c => { c with require2fa := false },
    ⟨rfl, rfl, rfl, rfl, rfl, List.Subset.refl _⟩, ?_⟩
  have outcome := sendLogon_outcome p env (w.modify fun c => { c with require2fa := false })
    unauthorized
  unfold onAuthorize
  dsimp only
  generalize sendLogonResponseAndKeepAlive p env _ = res at outcome ⊢
  obtain ⟨w₂, alive⟩ := res
  have stopped : Held w₂ w₂.stop := ⟨rfl, rfl, rfl, rfl, rfl, List.Subset.refl _⟩
  cases alive with
  | false => exact outcome.imp (·.trans stopped) (·.later stopped)
  | true =>
      have either : Held w₂ (if w₂.conn.portForwardSocket then w₂.stop else w₂) :=
        .ite (fun _ => stopped) (fun _ => .refl)
      exact outcome.imp (·.trans either) (·.later either)

end World

end RemoteControl.Host
