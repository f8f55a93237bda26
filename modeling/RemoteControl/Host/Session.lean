import RemoteControl.Host.Outcomes

/-! # Sessions

Once a connection is authorized, what it was authorized as stays with it: login
messages that still arrive are answered and change nothing, and no handler
touches the kind. `InSession` is the invariant the results about sessions of one
kind start from.
-/

namespace RemoteControl.Host

/-- What the connection was authorized as. -/
structure Kind where
  authorized : Bool
  authedConnId : Option AuthConnType
  fileTransfer : Option (String × Bool)
  viewCamera : Bool
  terminal : Bool
  terminalUserToken : Option TerminalUserToken

def LoginState.kind (l : LoginState) : Kind where
  authorized := l.authorized
  authedConnId := l.authedConnId
  fileTransfer := l.fileTransfer
  viewCamera := l.viewCamera
  terminal := l.terminal
  terminalUserToken := l.terminalUserToken

/-- The kind of the connection is still the same. -/
structure Remains (w w' : World) : Prop where
  kind : w'.conn.kind = w.conn.kind
  socket : w'.conn.portForwardSocket = true → w.conn.portForwardSocket = true
  id : w'.conn.id = w.conn.id
  grows : w.out ⊆ w'.out

theorem LoginState.Follows.socket {l l' : LoginState} (follows : l.Follows l')
    (open_ : l'.portForwardSocket = true) : l.portForwardSocket = true := by
  rcases follows with rfl | rfl
  · exact open_
  · cases open_

variable {p : Platform} {kind : AuthConnType} {w : World} {c : Connection} {msg : Message}
  {w' : World}

theorem Change.remains {acts : Action → Prop} {subs : ServiceName → Prop}
    (change : Change acts subs w w') : Remains w w' :=
  ⟨change.login.read LoginState.kind rfl, change.login.socket, change.id, change.grows⟩

theorem Remains.refl : Remains w w :=
  ⟨rfl, fun open_ => open_, rfl, List.Subset.refl _⟩

variable {w₁ : World}

theorem Remains.trans {w₂ : World} (first : Remains w w₁) (second : Remains w₁ w₂) :
    Remains w w₂ :=
  ⟨second.kind.trans first.kind, fun open_ => first.socket (second.socket open_),
    second.id.trans first.id, List.Subset.trans first.grows second.grows⟩

/-- What login messages of an authorized peer may still cause. -/
def Action.isLoginReply : Action → Bool
  | .send (.loginError _) | .toCm (.login _ _ _) | .startCmIpc | .addTrustedDevice _ => true
  | a => a.isLoginCheck

/-- A login message of an authorized peer is answered and changes neither the
    session nor its services. -/
structure Settled (w w' : World) : Prop where
  kind : w'.conn.kind = w.conn.kind
  socket : w'.conn.portForwardSocket = w.conn.portForwardSocket
  permissions : w'.conn.toPermissions = w.conn.toPermissions
  id : w'.conn.id = w.conn.id
  server : w'.server = w.server
  grows : w.out ⊆ w'.out
  out : ∀ a ∈ w'.out, a ∈ w.out ∨ a.isLoginReply = true
  running : w'.running = w.running

namespace Settled

variable {w w₁ w₂ : World}

theorem remains (settled : Settled w w₁) : Remains w w₁ :=
  ⟨settled.kind, fun open_ => settled.socket.symm.trans open_, settled.id, settled.grows⟩

theorem refl : Settled w w :=
  ⟨rfl, rfl, rfl, rfl, rfl, List.Subset.refl _, fun _ member => .inl member, rfl⟩

theorem trans (first : Settled w w₁) (second : Settled w₁ w₂) : Settled w w₂ where
  kind := second.kind.trans first.kind
  socket := second.socket.trans first.socket
  permissions := second.permissions.trans first.permissions
  id := second.id.trans first.id
  server := second.server.trans first.server
  grows := List.Subset.trans first.grows second.grows
  out := by
    intro a member
    rcases second.out a member with earlier | reply
    · exact first.out a earlier
    · exact .inr reply
  running := second.running.trans first.running

theorem emit {a : Action} (before : Settled w w₁) (reply : a.isLoginReply = true) :
    Settled w (w₁.emit a) := by
  refine before.trans ⟨rfl, rfl, rfl, rfl, rfl, List.subset_cons_self a w₁.out, ?_, rfl⟩
  intro b member
  rcases List.mem_cons.mp member with rfl | earlier
  · exact .inr reply
  · exact .inl earlier

theorem modify {f : Connection → Connection} (before : Settled w w₁)
    (kind : (f w₁.conn).kind = w₁.conn.kind)
    (socket : (f w₁.conn).portForwardSocket = w₁.conn.portForwardSocket)
    (permissions : (f w₁.conn).toPermissions = w₁.conn.toPermissions)
    (id : (f w₁.conn).id = w₁.conn.id) : Settled w (w₁.modify f) :=
  before.trans ⟨kind, socket, permissions, id, rfl, List.Subset.refl _,
    fun _ member => .inl member, rfl⟩

theorem modifyGlobals {f : Globals → Globals} (before : Settled w w₁) :
    Settled w (w₁.modifyGlobals f) :=
  before.trans ⟨rfl, rfl, rfl, rfl, rfl, List.Subset.refl _, fun _ member => .inl member, rfl⟩

theorem ite {c : Prop} [Decidable c] (yes : c → Settled w w₁) (no : ¬ c → Settled w w₂) :
    Settled w (if c then w₁ else w₂) := by
  split
  · exact yes ‹_›
  · exact no ‹_›

end Settled

/-- A login message of an authorized peer is no end of its session. -/
structure Answered (w : World) (res : World × Bool) : Prop where
  settled : Settled w res.1
  goesOn : res.2 = true

namespace World

variable (p : Platform) (env : Env) (w : World)

theorem logonThen_answered {after : World → World} (before : Settled w w₁)
    (authorized : w.conn.authorized = true) (keeps : ∀ w, Settled w (after w)) :
    Answered w (w₁.logonThen p env after) := by
  have authorized₁ : w₁.conn.authorized = true :=
    (congrArg Kind.authorized before.kind).trans authorized
  unfold logonThen sendLogonResponseAndKeepAlive
  rw [if_pos authorized₁]
  exact ⟨before.trans (keeps w₁), rfl⟩

theorem prove2fa_settled {w : World} (before : Settled w w₁) : Settled w (w₁.prove2fa env) := by
  have proved : Settled w ((w₁.modify fun c => { c with require2fa := false }).emit
      .validatedTotp) := .emit (.modify before rfl rfl rfl rfl) rfl
  exact .modifyGlobals (f := fun g => g.setSession2fa env _) proved

theorem announce_settled (lr : LoginRequest) :
    Settled w (w.handleLoginRequestWithoutValidation env lr) := by
  unfold handleLoginRequestWithoutValidation
  exact .ite (fun _ => .emit (.modify (.modify .refl rfl rfl rfl rfl) rfl rfl rfl rfl) rfl)
    (fun _ => .modify .refl rfl rfl rfl rfl)

theorem handleLoginRequest_answered (lr : LoginRequest) (authorized : w.conn.authorized = true) :
    Answered w (w.handleLoginRequest p env lr) := by
  have announced := announce_settled env w lr
  have authorized' : (w.handleLoginRequestWithoutValidation env lr).conn.authorized = true :=
    (congrArg Kind.authorized announced.kind).trans authorized
  unfold handleLoginRequest
  dsimp only
  rw [if_pos authorized']
  exact ⟨announced, rfl⟩

theorem tryStartCmIpc_settled : Settled w w.tryStartCmIpc :=
  .ite (fun _ => .emit (.modify .refl rfl rfl rfl rfl) rfl) (fun _ => .refl)

theorem handleAuth2fa_answered (code : String) (hwid : Bytes)
    (authorized : w.conn.authorized = true) : Answered w (w.handleAuth2fa p env code hwid) := by
  unfold handleAuth2fa checkFailure
  rcases LoginFailures.checkFailure (w.globals.loginFailures 1) w.conn.ip env.minute with
    ⟨failure, proceed | ⟨err, wait⟩⟩
  · dsimp only
    split
    · cases env.totpCheck code with
      | none => exact ⟨.refl, rfl⟩
      | some valid =>
          cases valid with
          | false => exact ⟨.emit (.modifyGlobals .refl) rfl, rfl⟩
          | true =>
              have updated : Settled w (w.updateFailure (failure, env.minute) true 1) :=
                .modifyGlobals .refl
              exact logonThen_answered p env w (prove2fa_settled env updated) authorized fun _ =>
                .ite (fun _ => .emit (.emit .refl rfl) rfl) (fun _ => .emit .refl rfl)
    · exact ⟨.refl, rfl⟩
  · exact ⟨.emit .refl rfl, rfl⟩

theorem handleSwitchSidesResponse_answered (uuid : Bytes) (lr : Option LoginRequest)
    (authorized : w.conn.authorized = true) :
    Answered w (w.handleSwitchSidesResponse p env uuid lr) := by
  cases lr with
  | none => exact ⟨.refl, rfl⟩
  | some lr =>
      have taken : Settled w ((w.handleLoginRequestWithoutValidation env lr).modifyGlobals fun g =>
          (g.retainSwitchSides env).removeSwitchSides lr.myId) :=
        .modifyGlobals (announce_settled env w lr)
      unfold handleSwitchSidesResponse
      dsimp only
      split
      · exact ⟨.refl, rfl⟩
      · split
        · refine logonThen_answered p env w (.emit (.modify taken rfl rfl rfl rfl) rfl) authorized
            fun _ => .ite (fun _ => ?_) (fun _ => .emit .refl rfl)
          exact Settled.trans (.emit .refl rfl) (tryStartCmIpc_settled _)
        · exact ⟨taken, rfl⟩

end World

/-- The login part of a message from a peer that is already authorized. -/
theorem onMessage_answered (p : Platform) (env : Env) (isLogin : msg.isLogin = true)
    (authorized : w.conn.authorized = true) : Answered w (w.onMessage p env msg) := by
  cases msg with
  | loginRequest lr => exact World.handleLoginRequest_answered p env w lr authorized
  | auth2fa code hwid => exact World.handleAuth2fa_answered p env w code hwid authorized
  | switchSidesResponse uuid lr =>
      exact World.handleSwitchSidesResponse_answered p env w uuid lr authorized
  | _ => cases isLogin

/-- No event changes the kind of an authorized connection. -/
theorem handleEvent_remains (p : Platform) (e : Event) (authorized : w.conn.authorized = true) :
    Remains w (w.handleEvent p e) := by
  by_cases login : e.isLogin = true
  · cases e with
    | peer env msg =>
        have settled := (onMessage_answered p env (w := w) login authorized).settled
        exact ⟨by simpa [World.handleEvent] using settled.kind,
          by simpa [World.handleEvent] using settled.remains.socket,
          by simpa [World.handleEvent] using settled.id,
          by simpa [World.handleEvent] using settled.grows⟩
    | cm env data =>
        cases data with
        | authorize =>
            simp only [World.handleEvent, World.onCmData, World.onAuthorize,
              World.sendLogonResponseAndKeepAlive]
            rw [if_pos (by simpa using authorized)]
            dsimp only
            split
            · exact ⟨rfl, id, rfl, List.Subset.refl _⟩
            · exact ⟨rfl, id, rfl, List.Subset.refl _⟩
        | _ => cases login
    | _ => cases login
  · by_cases switches : e.isSwitchPermission = true
    · cases e with
      | cm env data =>
          cases data with
          | switchPermission name enabled =>
              obtain ⟨permissions, effect⟩ := World.switchPermission_effect p w name enabled
              exact ⟨effect.remains.kind, effect.remains.socket, effect.remains.id,
                effect.remains.grows⟩
          | _ => cases switches
      | _ => cases switches
    · exact (handleEvent_effect p w e (by simpa using login) (by simpa using switches)).remains

/-- An authorized connection of the given kind, registered as what its flags say. -/
structure InSession (kind : AuthConnType) (c : Connection) : Prop where
  authorized : c.authorized = true
  socket : c.portForwardSocket = false
  registered : c.authedConnId = some kind
  flags : c.authConnType = kind

theorem InSession.remains (session : InSession kind w.conn) (remains : Remains w w') :
    InSession kind w'.conn := by
  have socket : w'.conn.portForwardSocket = false := by
    by_contra open_
    exact nomatch session.socket.symm.trans (remains.socket (by simpa using open_))
  refine ⟨(congrArg Kind.authorized remains.kind).trans session.authorized, socket,
    (congrArg Kind.authedConnId remains.kind).trans session.registered, ?_⟩
  have fileTransfer := congrArg Kind.fileTransfer remains.kind
  have viewCamera := congrArg Kind.viewCamera remains.kind
  have terminal := congrArg Kind.terminal remains.kind
  have flags := session.flags
  simp only [LoginState.kind] at fileTransfer viewCamera terminal
  simp only [Connection.authConnType, session.socket] at flags
  simp only [Connection.authConnType, fileTransfer, viewCamera, terminal, socket]
  exact flags

theorem inSession_event (e : Event) (session : InSession kind w.conn) :
    InSession kind (w.handleEvent p e).conn :=
  session.remains (handleEvent_remains p e session.authorized)

theorem inSession_step (e : Event) (session : InSession kind w.conn) :
    InSession kind (step p w e).conn := by
  unfold step
  split
  · exact inSession_event (w := w.awake) e session
  · exact session

theorem InSession.isAuthedViewCameraConn_iff (session : InSession kind c) :
    c.isAuthedViewCameraConn = true ↔ kind = .viewCamera := by
  simp [Connection.isAuthedViewCameraConn, session.registered]

theorem InSession.remote_not_camera (session : InSession .remote c) :
    c.isAuthedViewCameraConn = false := by
  simp [Connection.isAuthedViewCameraConn, session.registered]

/-- Switched permissions and messages of the peer. -/
def switchesOrMessages : Event → Bool
  | .cm _ (.switchPermission _ _) | .peer _ _ => true
  | _ => false

variable {env : Env}

/-- A message of a session goes to the handlers of authorized peers. -/
theorem InSession.handle (session : InSession kind w.conn) (plain : msg.isLogin = false)
    (notDelay : ∀ fromClient, msg ≠ .testDelay fromClient)
    (notClose : ∀ reason, msg ≠ .misc (.closeReason reason)) :
    w.handleEvent p (.peer env msg) = World.afterMessage (w.onAuthorizedMessage p env msg) := by
  simp only [World.handleEvent]
  unfold World.onMessage
  split
  · exact absurd rfl (notClose _)
  · cases plain
  · cases plain
  · exact absurd rfl (notDelay _)
  · cases plain
  · rw [if_pos session.authorized, if_neg (by simp [session.socket])]

/-- The messages after which the loop of a session is left. -/
def endsSession (p : Platform) (env : Env) : Message → Bool
  | .misc (.closeReason _) => true
  | .misc (.switchSidesRequest uuid) => p.flutter && uuid.length = 16
  | .misc (.selectedSid _) =>
      p.os = .windows && env.currentProcessSessionId.isSome && env.selectedSidSwitches
  | _ => false

namespace World

variable (p : Platform) (env : Env) (w : World) {msg : Message}

theorem onSelectedSid_goesOn : (w.onSelectedSid p env).2 =
    !(env.currentProcessSessionId.isSome && env.selectedSidSwitches) := by
  unfold onSelectedSid
  cases env.currentProcessSessionId with
  | none => rfl
  | some _ =>
      cases env.selectedSidSwitches with
      | true => rfl
      | false =>
          rw [if_neg Bool.false_ne_true]
          split_ifs
          · cases w.conn.delayedReadDir <;> rfl
          · rfl
          · rfl
          · rfl

theorem onMisc_goesOn {m : Misc} (notClose : ∀ reason, m ≠ .closeReason reason) :
    (w.onMisc p env m).2 = !endsSession p env (.misc m) := by
  cases m with
  | closeReason reason => exact absurd rfl (notClose reason)
  | switchSidesRequest uuid =>
      simp only [onMisc, endsSession]
      split_ifs with switches <;> simp [switches]
  | selectedSid _ =>
      simp only [onMisc, endsSession]
      split_ifs with windows
      · simp [onSelectedSid_goesOn, windows]
      · simp [windows]
  | _ => rfl

theorem onAuthorizedMessage_goesOn (notClose : ∀ reason, msg ≠ .misc (.closeReason reason)) :
    (w.onAuthorizedMessage p env msg).2 = !endsSession p env msg := by
  cases msg with
  | misc m => exact onMisc_goesOn p env w fun reason same => notClose reason (congrArg _ same)
  | _ => rfl

variable {w} in
/-- A message leaves the loop of a session exactly when it is one of `endsSession`. -/
theorem message_running {kind : AuthConnType} (session : InSession kind w.conn)
    (running : w.running = true) (msg : Message) :
    (w.handleEvent p (.peer env msg)).running = !endsSession p env msg := by
  -- the loop goes on if the handler says so, since no session forwards a port
  have said {res : World × Bool} (socket : res.1.conn.portForwardSocket = true →
      w.conn.portForwardSocket = true) (still : res.1.running = w.running) :
      (afterMessage res).running = res.2 := by
    rw [afterMessage_running, still, running, Bool.true_and]
    by_contra open_
    exact nomatch session.socket.symm.trans (socket (by simpa using open_))
  by_cases login : msg.isLogin = true
  · have answered := onMessage_answered p env (w := w) login session.authorized
    have plain : endsSession p env msg = false := by cases msg <;> first | rfl | cases login
    rw [plain]
    exact (said answered.settled.remains.socket answered.settled.running).trans answered.goesOn
  by_cases delay : ∃ fromClient, msg = .testDelay fromClient
  · obtain ⟨fromClient, rfl⟩ := delay
    refine said ?_ ?_
    · simp only [onMessage, handleTestDelay]
      split_ifs <;> exact fun open_ => open_
    · simp only [onMessage, handleTestDelay]
      split_ifs <;> rfl
  by_cases close : ∃ reason, msg = .misc (.closeReason reason)
  · obtain ⟨reason, rfl⟩ := close
    have closed : Effect (Allowed p w.conn .other) (fun _ => True) w (w.onClose p true) :=
      onClose_effect p w true
    have left : (afterMessage (w.onClose p true, false)).running = false :=
      said closed.login.socket closed.running
    exact left
  have notClose (reason : String) : msg ≠ .misc (.closeReason reason) :=
    fun same => close ⟨reason, same⟩
  have effect := onAuthorizedMessage_effect p env w msg
  rw [session.handle (by simpa using login) (fun fromClient same => delay ⟨fromClient, same⟩)
    notClose]
  exact (said effect.login.socket effect.running).trans (onAuthorizedMessage_goesOn p env w notClose)

theorem onClose_pressedModifiers (lock : Bool) :
    (w.onClose p lock).conn.pressedModifiers = w.conn.pressedModifiers := by
  unfold onClose
  dsimp only
  split_ifs <;> rfl

/-- What the end of a connection looks at is as it was before the message. -/
theorem endsSession_keeps {kind : AuthConnType} (session : InSession kind w.conn)
    (ends : endsSession p env msg = true) :
    (w.handleEvent p (.peer env msg)).conn.id = w.conn.id ∧
      (w.handleEvent p (.peer env msg)).conn.pressedModifiers = w.conn.pressedModifiers := by
  have closed (w : World) (lock : Bool) :
      (w.onClose p lock).conn.id = w.conn.id ∧
        (w.onClose p lock).conn.pressedModifiers = w.conn.pressedModifiers := by
    have effect : Effect (Allowed p w.conn .other) (fun _ => True) w (w.onClose p lock) :=
      onClose_effect p w lock
    exact ⟨effect.id, onClose_pressedModifiers p w lock⟩
  cases msg with
  | misc m =>
      cases m with
      | closeReason reason =>
          simp only [handleEvent, afterMessage_conn]
          exact closed w true
      | switchSidesRequest uuid =>
          rw [session.handle rfl (fun _ => Message.noConfusion) (fun _ => by simp),
            afterMessage_conn]
          simp only [endsSession] at ends
          simp only [onAuthorizedMessage, onMisc, ends, if_true]
          exact closed (w.emit (.runSwitchSides w.conn.lr.myId)) false
      | selectedSid sid =>
          simp only [endsSession, Bool.and_eq_true, decide_eq_true_eq] at ends
          obtain ⟨⟨windows, known⟩, switches⟩ := ends
          obtain ⟨current, known⟩ := Option.isSome_iff_exists.mp known
          rw [session.handle rfl (fun _ => Message.noConfusion) (fun _ => by simp),
            afterMessage_conn]
          simp only [onAuthorizedMessage, onMisc, if_pos windows, onSelectedSid, known, switches,
            if_true]
          trivial
      | _ => cases ends
  | _ => cases ends

section

variable {subs : ServiceName → Prop}

theorem tryPortForwardLoop_effect : Effect (fun _ => True) subs w (w.tryPortForwardLoop p) := by
  have taken : Effect (Allowed p w.conn .other) subs w
      (w.modify fun c => { c with portForwardSocket := false }) :=
    ⟨⟨.inr rfl, rfl, rfl, List.Subset.refl _, fun _ member => .inl member, fun _ subed => .inl subed⟩, rfl⟩
  have relayed : Effect (Allowed p w.conn .other) subs w (w.tryPortForwardLoop p) :=
    .ite (fun _ => taken.trans (onClose_effect p _ false)) (fun _ => .refl)
  exact relayed.mono (fun _ _ => trivial) fun _ allowed => allowed

/-- The end of a connection changes nothing of what it was and subscribes it to nothing. -/
theorem finish_effect : Effect (fun _ => True) subs w (w.finish p env) := by
  unfold finish
  extract_lets emptied left relayed removed
  have emptied_ : Effect (fun _ => True) subs w emptied :=
    .ite (fun _ => .emit .refl trivial) (fun _ => .refl)
  have left_ : Effect (fun _ => True) subs w left :=
    .ite (fun _ => .emit emptied_ trivial) (fun _ => emptied_)
  have relayed_ : Effect (fun _ => True) subs w relayed :=
    left_.trans (tryPortForwardLoop_effect p left)
  have removed_ : Effect (fun _ => True) subs w removed :=
    relayed_.serve fun name subed => .inl (relayed.server.isSubed_of_removeConnection subed)
  have onClosed : Effect (Allowed p w.conn .other) subs removed (removed.onClose p true) :=
    onClose_effect p removed true
  exact .emitAll (removed_.trans (onClosed.mono (fun _ _ => trivial) fun _ allowed => allowed))
    fun _ _ => trivial

end

variable {p env w} {c c' : Connection} {kind : AuthConnType} {q : Action → Prop}

theorem forall_mem_const {α : Type} {xs : List α} {b : Prop} : (∀ x ∈ xs, b) ↔ (xs ≠ [] → b) :=
  ⟨fun all some_ => (List.exists_mem_of_ne_nil xs some_).elim all,
    fun holds _ member => holds (List.ne_nil_of_mem member)⟩

/-- Actions that may be left out. -/
theorem forall_out_iff {w' : World} {on : Prop} [Decidable on] (acts : List Action)
    (out : w'.out = acts ++ w.out) :
    (∀ a ∈ (if on then w' else w).out, q a) ↔
      (∀ a ∈ w.out, q a) ∧ (on → ∀ a ∈ acts, q a) := by
  split
  · rename_i taken
    rw [out, List.forall_mem_append, and_comm, imp_iff_right taken]
  · rename_i left
    exact (and_iff_left fun taken => absurd taken left).symm

theorem forall_mem_ite {on : Prop} [Decidable on] {acts : List Action} :
    (∀ a ∈ if on then acts else [], q a) ↔ (on → ∀ a ∈ acts, q a) := by
  split <;> simp [*]

/-- What the drop of a connection does besides what any handler may do. -/
theorem forall_dropConnection_iff (registered : c'.authedConnId = some kind)
    (plain : ∀ a, Allowed p c .other a → q a) :
    (∀ a ∈ dropConnection p env c', q a) ↔
      (p.isDesktop = true → ∀ key ∈ c'.pressedModifiers, q (.releaseModifier key)) ∧
      (env.remoteCount = 0 →
        (p.isDesktop = true → ∀ d ∈ Resolutions.restorePass env.changedResolutions,
          q (.resetResolution d.1 d.2)) ∧
        (p.os = .windows ∧ env.privacyModeConnId.any (· ≠ 0) = true → q .turnOffPrivacy)) ∧
      (p.isDesktop = true ∧ env.blockInputMode = true → q .blockOn) := by
  have counted : q .encoderUpdate ∧ q .videoQos ∧ q (.whiteboard false) ∧ q (.virtualDisplay (-1) false) :=
    ⟨plain _ trivial, plain _ trivial, plain _ trivial, plain _ trivial⟩
  simp only [dropConnection, registered, Option.elim_some, dropAuthedConnId, restoreDisplays,
    List.forall_mem_append, forall_mem_ite, List.forall_mem_map, List.forall_mem_cons, List.not_mem_nil]
  simp [counted, and_assoc]

/-- What plugging a display in does besides what any handler may do. -/
theorem forall_toggleVirtualDisplay_iff {display : Int} {on : Bool} {b : Prop}
    (plain : ∀ a, Allowed p c .other a → q a) (resets : ∀ name size, q (.resetResolution name size) ↔ b) :
    (∀ a ∈ (if p.os = .windows then w.toggleVirtualDisplay env display on else w).out, q a) ↔
      (∀ a ∈ w.out, q a) ∧ (resetsResolutions p env on = true → b) := by
  have toggled : q (.virtualDisplay display on) := plain _ trivial
  have told : q (.send (.messageBox "Virtual display" env.virtualDisplayErr)) := plain _ trivial
  have toggled_ : (∀ a ∈ (w.emit (.virtualDisplay display on)).out, q a) ↔ ∀ a ∈ w.out, q a :=
    List.forall_mem_cons.trans (and_iff_right toggled)
  by_cases windows : p.os = .windows
  swap
  · simp [resetsResolutions, windows]
  rw [if_pos windows]
  unfold toggleVirtualDisplay
  by_cases works : env.virtualDisplayErr = ""
  · rw [if_pos works, forall_out_iff _ rfl, toggled_]
    simp only [List.mem_reverse, List.forall_mem_map, resets, resetsResolutions]
    simp [forall_mem_const, windows, works]
  · rw [if_neg works]
    simp [resetsResolutions, works, told, toggled]

theorem forall_onClose_iff (plain : ∀ a, Allowed p c .other a → q a) (lock : Bool) :
    (∀ a ∈ (w.onClose p lock).out, q a) ↔ ∀ a ∈ w.out, q a := by
  have closed : Effect (Allowed p c .other) (fun _ => True) w (w.onClose p lock) :=
    onClose_effect p w lock
  constructor
  · exact fun covered a member => covered a (closed.grows member)
  · exact fun covered a member => (closed.out a member).elim (covered a) (plain a)

/-- What the end of a session does besides what any handler may do. -/
theorem forall_finish_iff (session : InSession kind w.conn)
    (plain : ∀ a, Allowed p c .other a → q a) :
    (∀ a ∈ (w.finish p env).out, q a) ↔ (∀ a ∈ w.out, q a) ∧
      (env.privacyModeConnId = some w.conn.id → q .turnOffPrivacy) ∧
      ∀ a ∈ dropConnection p env w.conn, q a := by
  unfold finish
  extract_lets emptied left relayed removed
  have emptied_ : emptied.conn = w.conn ∧ ((∀ a ∈ emptied.out, q a) ↔ ∀ a ∈ w.out, q a) := by
    unfold emptied
    split_ifs
    · exact ⟨rfl, List.forall_mem_cons.trans (and_iff_right (plain .emptyClipboardFiles trivial))⟩
    · exact ⟨rfl, .rfl⟩
  have left_ : (∀ a ∈ left.out, q a) ↔ _ := forall_out_iff [.turnOffPrivacy] rfl
  have leftConn : left.conn = w.conn := by
    unfold left
    split_ifs <;> exact emptied_.1
  have relayed_ : relayed = left :=
    if_neg (by rw [leftConn, session.socket]; exact Bool.false_ne_true)
  have same : removed.conn = w.conn := (congrArg World.conn relayed_).trans leftConn
  have onClosed : Effect (Allowed p c .other) (fun _ => True) removed (removed.onClose p true) :=
    onClose_effect p removed true
  have registered : (removed.onClose p true).conn.authedConnId = w.conn.authedConnId := by
    rw [← same]
    exact congrArg Kind.authedConnId onClosed.remains.kind
  have drops : dropConnection p env (removed.onClose p true).conn = dropConnection p env w.conn := by
    rw [dropConnection, registered, onClose_pressedModifiers, same, dropConnection]
  have out : relayed.out = left.out := congrArg World.out relayed_
  simp only [emitAll, List.forall_mem_append, List.mem_reverse]
  rw [drops, forall_onClose_iff plain, setServer_out, out, left_, emptied_.2, emptied_.1, List.forall_mem_singleton,
    and_comm, and_assoc]

end World

theorem stepToEnd_of_stopped (e : Event) (stopped : w.running = false) : stepToEnd p w e = w.awake := by
  simp [stepToEnd, step, stopped]

/-- A message that ends the session is followed by the end of the connection. -/
theorem stepToEnd_peer (session : InSession kind w.conn) (running : w.running = true)
    (msg : Message) : stepToEnd p w (.peer env msg) =
      if endsSession p env msg then (w.awake.handleEvent p (.peer env msg)).finish p env
      else w.awake.handleEvent p (.peer env msg) := by
  have goesOn := World.message_running p env (w := w.awake) session running msg
  simp [stepToEnd, step, running, goesOn, Event.env]

theorem stepToEnd_switchPermission (running : w.running = true) (name : String)
    (enabled : Bool) : stepToEnd p w (.cm env (.switchPermission name enabled)) =
      w.awake.switchPermission p name enabled := by
  obtain ⟨_, effect⟩ := World.switchPermission_effect p w.awake name enabled
  have goesOn : (w.awake.switchPermission p name enabled).running = true := effect.running.trans running
  simp [stepToEnd, step, running, World.handleEvent, World.onCmData, goesOn]

theorem inSession_stepToEnd (e : Event) (session : InSession kind w.conn) :
    InSession kind (stepToEnd p w e).conn := by
  unfold stepToEnd
  dsimp only
  split
  · have ended : Effect (fun _ => True) noService _ ((step p w e).finish p e.env) :=
      World.finish_effect p e.env _
    exact (inSession_step e session).remains ended.remains
  · exact inSession_step e session

end RemoteControl.Host
