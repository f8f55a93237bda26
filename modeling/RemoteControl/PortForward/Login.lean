import RemoteControl.Host.EventLoop

/-! # A port-forward login, as the peer sees it

What the event loop of the host sends while it handles the events of a port-forward
login, and when it is left. Of the connection only four fields matter from outside; every
handler on the way to the login leaves them alone and answers with nothing but errors.
-/

namespace RemoteControl.Host

/-- What goes out on the stream. -/
def Action.outgoing : Action → Option Outgoing
  | .send m => some m
  | _ => none

def Action.isCmLogin : Action → Bool
  | .toCm (.login _ _ _) => true
  | _ => false

namespace World

/-- The messages of the current step, in the order in which they are sent. -/
def sent (w : World) : List Outgoing := (w.out.filterMap Action.outgoing).reverse

/-- The connection manager hears of a login in the current step. -/
def tellsCm (w : World) : Bool := w.out.any Action.isCmLogin

theorem sent_send (w : World) (m : Outgoing) : (w.emit (.send m)).sent = w.sent ++ [m] := by
  simp [sent, Action.outgoing]

variable {a : Action}

theorem sent_emit (w : World) (quiet : a.outgoing = none) : (w.emit a).sent = w.sent := by
  simp [sent, quiet]

end World

end RemoteControl.Host

namespace RemoteControl.PortForward

open Host

/-- What a port-forward login depends on and leads to. -/
structure LoginFields where
  authorized : Bool
  socket : Bool
  union : Option LoginUnion
  lastTestDelay : Bool

def fields (c : Connection) : LoginFields where
  authorized := c.authorized
  socket := c.portForwardSocket
  union := c.lr.union
  lastTestDelay := c.lastTestDelay

/-- The peer is told about errors at most. -/
structure Refused (w w' : World) : Prop where
  fields : fields w'.conn = fields w.conn
  running : w'.running = w.running
  sent : ∃ errs : List String, w'.sent = w.sent ++ errs.map .loginError

/-- The peer gets its answer, and the socket is open. -/
structure Accepted (w w' : World) : Prop where
  fields : fields w'.conn = { fields w.conn with authorized := true, socket := true }
  running : w'.running = w.running
  sent : ∃ (errs : List String) (kind : AuthConnType),
    w'.sent = w.sent ++ errs.map .loginError ++ [.loginResponse kind]

namespace Refused

variable {w w₁ w₂ : World}

theorem refl : Refused w w := ⟨rfl, rfl, [], by simp⟩

theorem trans (first : Refused w w₁) (second : Refused w₁ w₂) : Refused w w₂ where
  fields := second.fields.trans first.fields
  running := second.running.trans first.running
  sent := by
    obtain ⟨errs, sent⟩ := first.sent
    obtain ⟨errs', sent'⟩ := second.sent
    exact ⟨errs ++ errs', by simp [sent', sent]⟩

section

variable (before : Refused w w₁)

include before

theorem emit (quiet : a.outgoing = none) :
    Refused w (w₁.emit a) :=
  before.trans ⟨rfl, rfl, [], by simp [World.sent_emit w₁ quiet]⟩

theorem error {err : String} : Refused w (w₁.sendLoginError err) :=
  before.trans ⟨rfl, rfl, [err], by simp [World.sent_send]⟩

theorem modify {f : Connection → Connection}
    (same : PortForward.fields (f w₁.conn) = PortForward.fields w₁.conn) : Refused w (w₁.modify f) :=
  before.trans ⟨same, rfl, [], by simp [World.sent]⟩

theorem modifyGlobals {f : Globals → Globals} :
    Refused w (w₁.modifyGlobals f) :=
  before.trans ⟨rfl, rfl, [], by simp [World.sent]⟩

end

theorem ite {c : Prop} [Decidable c] (yes : c → Refused w w₁) (no : ¬ c → Refused w w₂) :
    Refused w (if c then w₁ else w₂) := by
  split
  · exact yes ‹_›
  · exact no ‹_›

theorem accepted (before : Refused w w₁) (later : Accepted w₁ w₂) : Accepted w w₂ where
  fields := by rw [later.fields, before.fields]
  running := later.running.trans before.running
  sent := by
    obtain ⟨errs, sent⟩ := before.sent
    obtain ⟨errs', kind, sent'⟩ := later.sent
    exact ⟨errs ++ errs', kind, by simp [sent', sent]⟩

end Refused

theorem Accepted.emit {w w₁ : World} (before : Accepted w w₁) (quiet : a.outgoing = none) :
    Accepted w (w₁.emit a) where
  fields := before.fields
  running := before.running
  sent := by
    rw [World.sent_emit w₁ quiet]
    exact before.sent

/-- A step that may end the login, one way or the other. -/
inductive Outcome (w : World) : World × Bool → Prop
  | refused {w' : World} {keep : Bool} (refused : Refused w w') : Outcome w (w', keep)
  | accepted {w' : World} (accepted : Accepted w w') : Outcome w (w', true)

theorem Refused.outcome {w w₁ : World} {res : World × Bool} (before : Refused w w₁)
    (outcome : Outcome w₁ res) : Outcome w res := by
  cases outcome with
  | refused refused => exact .refused (before.trans refused)
  | accepted accepted => exact .accepted (before.accepted accepted)

section Handlers

variable (p : Platform) (env : Env) {w : World} {pf : Host.PortForward} {lr : LoginRequest}

theorem isRecentSession_refused (tfa : Bool) : Refused w (w.isRecentSession p env tfa).1 := by
  unfold World.isRecentSession
  extract_lets retained
  have retained_ : Refused w retained := .modifyGlobals .refl
  split
  · split
    · exact .emit retained_ rfl
    · exact retained_
  · exact retained_

theorem lacks2fa_refused : Refused w (w.lacks2fa p env).1 := by
  unfold World.lacks2fa
  split
  · exact isRecentSession_refused p env true
  · exact .refl

/-- The only thing sent once the socket is open is the answer. -/
theorem finishLogon_accepted (open_ : w.conn.portForwardSocket = true) :
    Accepted w (w.finishLogon p env) := by
  have same : w.authorize.conn.portForwardSocket = true := open_
  unfold World.finishLogon
  rw [if_pos same]
  refine ⟨?_, rfl, [], w.authorize.conn.authConnType, ?_⟩
  · simp [fields, World.authorize, open_]
  · exact (World.sent_send _ _).trans (by simp [World.sent, World.authorize])

theorem validatePassword_refused : Refused w (w.validatePassword p env).1 := by
  unfold World.validatePassword
  split_ifs
  · exact .emit (.modifyGlobals .refl) rfl
  · exact .emit .refl rfl
  · exact .refl

theorem checkFailure_refused (i : Fin 2) : Refused w (w.checkFailure env i).1 := by
  unfold World.checkFailure
  split
  · exact .refl
  · exact .error .refl

/-- The fields a login is decided by stay as they were until it is. -/
theorem Refused.still {w' : World} (refused : Refused w w')
    (asked : w.conn.lr.union = some (.portForward pf)) (unauthorized : w.conn.authorized = false) :
    w'.conn.lr.union = some (.portForward pf) ∧ w'.conn.authorized = false :=
  ⟨(congrArg LoginFields.union refused.fields).trans asked,
    (congrArg LoginFields.authorized refused.fields).trans unauthorized⟩

variable (asked : w.conn.lr.union = some (.portForward pf)) (unauthorized : w.conn.authorized = false)

include asked unauthorized

theorem sendLogon_outcome : Outcome w (w.sendLogonResponseAndKeepAlive p env) := by
  unfold World.sendLogonResponseAndKeepAlive
  rw [if_neg (by simp [unauthorized])]
  have refused := lacks2fa_refused p env (w := w)
  generalize w.lacks2fa p env = res at refused ⊢
  obtain ⟨w₁, lacks⟩ := res
  have asked₁ : w₁.conn.lr.union = some (.portForward pf) :=
    (congrArg LoginFields.union refused.fields).trans asked
  cases lacks with
  | true => exact .refused refused.error
  | false =>
      apply refused.outcome
      dsimp only
      unfold World.connectPortForwardIfNeeded
      by_cases open_ : w₁.conn.portForwardSocket = true
      · rw [if_pos open_]
        exact .accepted (finishLogon_accepted p env open_)
      · rw [if_neg open_, asked₁]
        dsimp only
        by_cases connects : env.portForwardConnects = true
        · rw [if_pos connects]
          have accepted : Accepted _ (World.finishLogon p env _) := finishLogon_accepted p env
            (w := (w₁.modify fun c => { c with
              portForwardAddress := (normalizePortForwardTarget pf).1 }).modify fun c =>
                { c with portForwardSocket := true }) rfl
          exact .accepted ⟨accepted.fields, accepted.running, accepted.sent⟩
        · rw [if_neg connects]
          exact .refused (.error (.modify .refl rfl))

theorem logonThen_outcome (a : World → Action) (quiet : ∀ w, (a w).outgoing = none) :
    Outcome w (w.logonThen p env fun w => w.emit (a w)) := by
  have outcome := sendLogon_outcome p env asked unauthorized
  unfold World.logonThen
  generalize w.sendLogonResponseAndKeepAlive p env = res at outcome
  cases outcome with
  | @refused w' keep refused =>
      cases keep with
      | false => exact .refused refused
      | true => exact .refused (refused.emit (quiet w'))
  | @accepted w' accepted => exact .accepted (accepted.emit (quiet w'))

theorem acceptLogin_outcome (lr : LoginRequest) (errMsg : String) :
    Outcome w (w.acceptLogin p env lr errMsg) := by
  unfold World.acceptLogin
  split
  · exact logonThen_outcome p env asked unauthorized
      (fun w => .toCm (.login lr.myId lr.myName w.conn.authorized)) fun _ => rfl
  · exact .refused (.error .refl)

theorem handlePasswordLogin_outcome (lr : LoginRequest) (errMsg : String) :
    Outcome w (w.handlePasswordLogin p env lr errMsg) := by
  unfold World.handlePasswordLogin
  have checked := checkFailure_refused env (w := w) 0
  generalize w.checkFailure env 0 = res at checked ⊢
  obtain ⟨w₁, read⟩ := res
  cases read with
  | none => exact .refused checked
  | some read =>
      have validated := checked.trans (validatePassword_refused p env (w := w₁))
      dsimp only at validated ⊢
      generalize w₁.validatePassword p env = res at validated ⊢
      obtain ⟨w₂, valid⟩ := res
      cases valid with
      | true =>
          have updated : Refused w (w₂.updateFailure read true 0) := .modifyGlobals validated
          obtain ⟨asked₂, unauthorized₂⟩ := updated.still asked unauthorized
          exact updated.outcome (acceptLogin_outcome p env asked₂ unauthorized₂ lr errMsg)
      | false =>
          have updated : Refused w (w₂.updateFailure read false 0) := .modifyGlobals validated
          dsimp only
          split
          · exact .refused (.emit (.error updated) rfl)
          · exact .refused (.error updated)

theorem handleLoginCredentials_outcome (lr : LoginRequest) :
    Outcome w (w.handleLoginCredentials p env lr) := by
  unfold World.handleLoginCredentials
  extract_lets started errMsg
  have started_ : Refused w started :=
    .ite (fun _ => .ite (fun _ => .emit (.modify .refl rfl) rfl) (fun _ => .refl)) (fun _ => .refl)
  split
  · exact .refused (.error started_)
  split
  · exact .refused (.error started_)
  split
  · exact .refused (.ite (fun _ => .error (.emit started_ rfl)) (fun _ => .emit started_ rfl))
  · have checked := started_.trans (isRecentSession_refused p env false)
    generalize started.isRecentSession p env false = res at checked ⊢
    obtain ⟨w₁, recent⟩ := res
    obtain ⟨asked₁, unauthorized₁⟩ := checked.still asked unauthorized
    cases recent with
    | true => exact checked.outcome (acceptLogin_outcome p env asked₁ unauthorized₁ lr errMsg)
    | false =>
        dsimp only
        split
        · exact .refused (.ite (fun _ => .emit checked rfl) (fun _ => .error checked))
        · exact checked.outcome (handlePasswordLogin_outcome p env asked₁ unauthorized₁ lr errMsg)

omit asked unauthorized

theorem handleLoginKind_refused (tunnel : lr.union = some (.portForward pf)) :
    Refused w (w.handleLoginKind p env lr).1 := by
  unfold World.handleLoginKind World.requirePermission
  rw [tunnel]
  dsimp only
  split
  · exact Refused.modify (f := fun c => { c with
      portForwardAddress := (normalizePortForwardTarget pf).1 }) (.emit .refl rfl) rfl
  · exact .error .refl

/-- A login request as it is remembered, before it is looked at. -/
theorem announce_refused (lr : LoginRequest) :
    Refused (w.modify fun c => { c with lr := lr }) (w.handleLoginRequestWithoutValidation env lr) := by
  unfold World.handleLoginRequestWithoutValidation
  extract_lets remembered
  have remembered_ : Refused (w.modify fun c => { c with lr := lr }) remembered :=
    ⟨rfl, rfl, [], by simp [remembered, World.sent]⟩
  exact .ite (fun _ => .emit (.modify remembered_ rfl) rfl) (fun _ => remembered_)

theorem handleLoginRequest_outcome (tunnel : lr.union = some (.portForward pf))
    (unauthorized : w.conn.authorized = false) :
    Outcome (w.modify fun c => { c with lr := lr }) (w.handleLoginRequest p env lr) := by
  unfold World.handleLoginRequest
  extract_lets announced
  have announced_ := announce_refused env (w := w) lr
  obtain ⟨asked, unauthorized'⟩ := announced_.still tunnel unauthorized
  rw [if_neg (by simp [announced, unauthorized'])]
  have kind := announced_.trans (handleLoginKind_refused p env tunnel)
  generalize announced.handleLoginKind p env lr = res at kind ⊢
  obtain ⟨w₁, admitted⟩ := res
  cases admitted with
  | false => exact .refused kind
  | true =>
      obtain ⟨asked₁, unauthorized₁⟩ := kind.still tunnel unauthorized
      exact kind.outcome (handleLoginCredentials_outcome p env asked₁ unauthorized₁ lr)

end Handlers

/-- The permissions the connection manager can switch, by name. -/
def isPermissionName (name : String) : Bool :=
  name ∈ ["keyboard", "clipboard", "audio", "file", "restart", "recording", "block_input"]

variable (p : Platform) (env : Env) {w : World} {pf : Host.PortForward} {lr : LoginRequest}

theorem fields_afterMessage (res : World × Bool) :
    fields (World.afterMessage res).conn = fields res.1.conn ∧
      (World.afterMessage res).sent = res.1.sent ∧
      (World.afterMessage res).tellsCm = res.1.tellsCm := by
  simp [World.sent, World.tellsCm]

theorem running_afterMessage {w' : World} (running : w'.running = true) :
    (World.afterMessage (w', true)).running =
      !(w'.conn.portForwardSocket && w'.conn.authorized && !w'.conn.lastTestDelay) := by
  unfold World.afterMessage World.keepAlive
  cases w'.conn.portForwardSocket <;> cases w'.conn.authorized <;> cases w'.conn.lastTestDelay <;>
    simp [World.stop, running]

section

variable (running : w.running = true)

include running

theorem step_of_running (e : Event) :
    step p w e = w.awake.handleEvent p e := by
  simp [step, running]

/-- The login is refused, and the peer told so at most, or it is accepted; then the loop
    goes on for as long as a reply to a `TestDelay` is missing. -/
theorem step_loginRequest (tunnel : lr.union = some (.portForward pf))
    (unauthorized : w.conn.authorized = false) :
    (fields (step p w (.peer env (.loginRequest lr))).conn = { fields w.conn with union := lr.union } ∧
      ∃ errs : List String, (step p w (.peer env (.loginRequest lr))).sent = errs.map .loginError) ∨
    (fields (step p w (.peer env (.loginRequest lr))).conn =
        { fields w.conn with union := lr.union, authorized := true, socket := true } ∧
      (step p w (.peer env (.loginRequest lr))).running = w.conn.lastTestDelay ∧
      ∃ (errs : List String) (kind : AuthConnType),
        (step p w (.peer env (.loginRequest lr))).sent =
          errs.map .loginError ++ [.loginResponse kind]) := by
  rw [step_of_running p running]
  have outcome := handleLoginRequest_outcome p env (w := w.awake) tunnel unauthorized
  change _ ∨ (_ ∧ (World.afterMessage (w.awake.handleLoginRequest p env lr)).running = _ ∧ _)
  simp only [World.handleEvent, World.onMessage, fields_afterMessage]
  generalize w.awake.handleLoginRequest p env lr = res at outcome ⊢
  cases outcome with
  | refused refused =>
      obtain ⟨errs, sent⟩ := refused.sent
      exact .inl ⟨refused.fields, errs, sent⟩
  | @accepted w' accepted =>
      obtain ⟨errs, kind, sent⟩ := accepted.sent
      refine .inr ⟨accepted.fields, ?_, errs, kind, sent⟩
      have running' : w'.running = true := accepted.running.trans running
      have fields' := accepted.fields
      simp only [fields, LoginFields.mk.injEq] at fields'
      rw [running_afterMessage running', fields'.1, fields'.2.1, fields'.2.2.2]
      simp [World.awake]

theorem step_loginRequest_again (authorized : w.conn.authorized = true) :
    fields (step p w (.peer env (.loginRequest lr))).conn = { fields w.conn with union := lr.union } ∧
      (step p w (.peer env (.loginRequest lr))).running =
        !(w.conn.portForwardSocket && !w.conn.lastTestDelay) ∧
      (step p w (.peer env (.loginRequest lr))).sent = [] := by
  rw [step_of_running p running]
  have announced := announce_refused env (w := w.awake) lr
  have again : w.awake.handleLoginRequest p env lr =
      (w.awake.handleLoginRequestWithoutValidation env lr, true) := by
    have authorized' : (w.awake.handleLoginRequestWithoutValidation env lr).conn.authorized = true :=
      (congrArg LoginFields.authorized announced.fields).trans authorized
    simp only [World.handleLoginRequest, authorized', if_true]
  change _ ∧ (World.afterMessage (w.awake.handleLoginRequest p env lr)).running = _ ∧ _
  simp only [World.handleEvent, World.onMessage, fields_afterMessage, again]
  have fields' := announced.fields
  refine ⟨fields', ?_, ?_⟩
  · simp only [fields, LoginFields.mk.injEq] at fields'
    rw [running_afterMessage (announced.running.trans running), fields'.1, fields'.2.1, fields'.2.2.2]
    simp [World.awake, authorized]
  · unfold World.handleLoginRequestWithoutValidation
    simp only
    split_ifs <;> rfl

/-- A reply to a `TestDelay` is not answered; it may be what the loop has waited for. -/
theorem step_testDelay :
    fields (step p w (.peer env (.testDelay false))).conn =
        { fields w.conn with lastTestDelay := false } ∧
      (step p w (.peer env (.testDelay false))).running =
        !(w.conn.portForwardSocket && w.conn.authorized) ∧
      (step p w (.peer env (.testDelay false))).sent = [] ∧
      (step p w (.peer env (.testDelay false))).tellsCm = false := by
  rw [step_of_running p running]
  change _ ∧ (World.afterMessage (w.awake.handleTestDelay false, true)).running = _ ∧ _
  simp only [World.handleEvent, World.onMessage, fields_afterMessage]
  have handled :
      fields (w.awake.handleTestDelay false).conn = { fields w.conn with lastTestDelay := false } ∧
      (w.awake.handleTestDelay false).running = true ∧ (w.awake.handleTestDelay false).sent = [] ∧
      (w.awake.handleTestDelay false).tellsCm = false := by
    unfold World.handleTestDelay
    cases waiting : w.awake.conn.lastTestDelay with
    | true => exact ⟨rfl, running, rfl, rfl⟩
    | false =>
        refine ⟨?_, running, rfl, rfl⟩
        change fields w.conn = _
        rw [← show w.conn.lastTestDelay = false from waiting]
        rfl
  obtain ⟨same, running', sent⟩ := handled
  refine ⟨same, ?_, sent⟩
  simp only [fields, LoginFields.mk.injEq] at same
  rw [running_afterMessage running', same.1, same.2.1, same.2.2.2]
  simp

/-- No `TestDelay` goes out once the connection is authorized. -/
theorem step_testDelayTimer :
    (step p w .testDelayTimer).running = true ∧ (step p w .testDelayTimer).tellsCm = false ∧
    if !w.conn.lastTestDelay && !(w.conn.portForwardSocket && w.conn.authorized) then
      fields (step p w .testDelayTimer).conn = { fields w.conn with lastTestDelay := true } ∧
        (step p w .testDelayTimer).sent = [.testDelay]
    else
      fields (step p w .testDelayTimer).conn = fields w.conn ∧
        (step p w .testDelayTimer).sent = [] := by
  by_cases due : (!w.conn.lastTestDelay && !(w.conn.portForwardSocket && w.conn.authorized)) = true
  · have ticked : step p w .testDelayTimer =
        (w.awake.modify fun c => { c with lastTestDelay := true }).send .testDelay :=
      (step_of_running p running .testDelayTimer).trans (if_pos due)
    rw [if_pos due, ticked]
    exact ⟨running, rfl, rfl, rfl⟩
  · have ticked : step p w .testDelayTimer = w.awake :=
      (step_of_running p running .testDelayTimer).trans (if_neg due)
    rw [if_neg due, ticked]
    exact ⟨running, rfl, rfl, rfl⟩

end

/-- A permission is switched: the peer is told, and the services. -/
structure Switches (w w' : World) : Prop where
  fields : fields w'.conn = fields w.conn
  running : w'.running = w.running
  out : ∀ a ∈ w'.out, a ∈ w.out ∨ a = .emptyClipboardFiles ∨
    ∃ kind enabled, a = .send (.permissionInfo kind enabled)

namespace Switches

variable {w w₁ w₂ : World}

theorem refl : Switches w w := ⟨rfl, rfl, fun _ member => .inl member⟩

theorem told (w : World) (f : Connection → Connection) (kind : PermissionKind) (enabled : Bool)
    (same : PortForward.fields (f w.conn) = PortForward.fields w.conn) :
    Switches w ((w.modify f).sendPermission kind enabled) where
  fields := same
  running := rfl
  out := by
    intro a member
    rcases List.mem_cons.mp member with rfl | earlier
    · exact .inr (.inr ⟨kind, enabled, rfl⟩)
    · exact .inl earlier

theorem subscribe {name : ServiceName} {sub : Bool} (before : Switches w w₁) :
    Switches w (w₁.subscribe name sub) :=
  ⟨before.fields, before.running, before.out⟩

theorem tryEmptyFileClipboard (before : Switches w w₁) : Switches w w₁.tryEmptyFileClipboard where
  fields := before.fields
  running := before.running
  out := by
    intro a member
    rcases List.mem_cons.mp member with rfl | earlier
    · exact .inr (.inl rfl)
    · exact before.out a earlier

theorem ite {c : Prop} [Decidable c] (yes : Switches w w₁) (no : Switches w w₂) :
    Switches w (if c then w₁ else w₂) := by
  split
  · exact yes
  · exact no

theorem subscribeAudio (before : Switches w w₁) : Switches w w₁.subscribeAudio :=
  .ite (.ite before.subscribe before) before.subscribe

end Switches

theorem switchPermission_switches (name : String) (enabled : Bool) :
    Switches w (w.switchPermission p name enabled) := by
  have keyboard := Switches.told w (fun c => { c with keyboard := enabled }) .keyboard enabled rfl
  have clipboard := Switches.told w (fun c => { c with clipboard := enabled }) .clipboard enabled rfl
  have audio := Switches.told w (fun c => { c with audio := enabled }) .audio enabled rfl
  have file := Switches.told w (fun c => { c with file := enabled }) .file enabled rfl
  unfold World.switchPermission
  split_ifs
  · exact .subscribe (.ite (.subscribe (.subscribe keyboard)) (.subscribe keyboard))
  · exact .subscribe clipboard
  · exact .ite (.subscribeAudio audio) audio
  · exact .ite (.subscribe (.ite (.tryEmptyFileClipboard file) file)) file
  · exact .told w (fun c => { c with restart := enabled }) .restart enabled rfl
  · exact .told w (fun c => { c with recording := enabled }) .recording enabled rfl
  · exact .told w (fun c => { c with blockInput := enabled }) .blockInput enabled rfl
  · exact .refl

variable (running : w.running = true)

include running

/-- Whatever is switched, the peer is told about it, authorized or not. -/
theorem step_switchPermission (name : String) (enabled : Bool) :
    fields (step p w (.cm env (.switchPermission name enabled))).conn = fields w.conn ∧
      (step p w (.cm env (.switchPermission name enabled))).running = true ∧
      (step p w (.cm env (.switchPermission name enabled))).tellsCm = false ∧
      (isPermissionName name = false →
        (step p w (.cm env (.switchPermission name enabled))).sent = []) ∧
      ∀ m ∈ (step p w (.cm env (.switchPermission name enabled))).sent,
        ∃ kind enabled, m = .permissionInfo kind enabled := by
  rw [step_of_running p running]
  change _ ∧ _ ∧ _ ∧ (_ → (w.awake.switchPermission p name enabled).sent = []) ∧
    ∀ m ∈ (w.awake.switchPermission p name enabled).sent, _
  have switches := switchPermission_switches p (w := w.awake) name enabled
  refine ⟨switches.fields, switches.running.trans running, ?_, ?_, ?_⟩
  · simp only [World.tellsCm, List.any_eq_false]
    intro a member
    rcases switches.out a member with old | rfl | ⟨kind, enabled, rfl⟩
    · cases old
    · simp [Action.isCmLogin]
    · simp [Action.isCmLogin]
  · intro other
    simp only [isPermissionName, List.mem_cons, List.not_mem_nil, decide_eq_false_iff_not,
      not_or] at other
    simp only [World.switchPermission, other, if_false]
    rfl
  · intro m member
    simp only [World.sent, List.mem_reverse, List.mem_filterMap] at member
    obtain ⟨a, member, outgoing⟩ := member
    rcases switches.out a member with old | rfl | ⟨kind, enabled, rfl⟩
    · cases old
    · cases outgoing
    · exact ⟨kind, enabled, (Option.some.inj outgoing).symm⟩

/-- A login is accepted by the connection manager. The loop is left whether or not a reply
    is missing. -/
theorem step_authorize (asked : w.conn.lr.union = some (.portForward pf))
    (unauthorized : w.conn.authorized = false) :
    (fields (step p w (.cm env .authorize)).conn = fields w.conn ∧
      ∃ errs : List String, (step p w (.cm env .authorize)).sent = errs.map .loginError) ∨
    (fields (step p w (.cm env .authorize)).conn =
        { fields w.conn with authorized := true, socket := true } ∧
      (step p w (.cm env .authorize)).running = false ∧
      ∃ (errs : List String) (kind : AuthConnType),
        (step p w (.cm env .authorize)).sent = errs.map .loginError ++ [.loginResponse kind]) := by
  rw [step_of_running p running]
  simp only [World.handleEvent, World.onCmData, World.onAuthorize]
  have outcome := sendLogon_outcome p env (w := w.awake.modify fun c => { c with require2fa := false })
    asked unauthorized
  generalize World.sendLogonResponseAndKeepAlive p env _ = res at outcome ⊢
  cases outcome with
  | @refused w' keep refused =>
      obtain ⟨errs, sent⟩ := refused.sent
      cases keep with
      | false => exact .inl ⟨refused.fields, errs, sent⟩
      | true =>
          dsimp only
          split
          · exact .inl ⟨refused.fields, errs, sent⟩
          · exact .inl ⟨refused.fields, errs, sent⟩
  | @accepted w' accepted =>
      obtain ⟨errs, kind, sent⟩ := accepted.sent
      have open_ : w'.conn.portForwardSocket = true := congrArg LoginFields.socket accepted.fields
      dsimp only
      rw [if_pos open_]
      exact .inr ⟨accepted.fields, rfl, errs, kind, sent⟩

theorem step_authorize_again (authorized : w.conn.authorized = true) :
    fields (step p w (.cm env .authorize)).conn = fields w.conn ∧
      (step p w (.cm env .authorize)).running = !w.conn.portForwardSocket ∧
      (step p w (.cm env .authorize)).sent = [] ∧
      (step p w (.cm env .authorize)).tellsCm = false := by
  rw [step_of_running p running]
  have again : (w.awake.modify fun c => { c with require2fa := false }).sendLogonResponseAndKeepAlive
      p env = (w.awake.modify fun c => { c with require2fa := false }, true) := if_pos authorized
  simp only [World.handleEvent, World.onCmData, World.onAuthorize, again]
  have socket : (w.awake.modify fun c => { c with require2fa := false }).conn.portForwardSocket =
      w.conn.portForwardSocket := rfl
  rw [socket]
  cases w.conn.portForwardSocket with
  | true => exact ⟨rfl, rfl, rfl, rfl⟩
  | false => exact ⟨rfl, running, rfl, rfl⟩

theorem step_othersTables (g : Globals) :
    fields (step p w (.othersTables g)).conn = fields w.conn ∧
      (step p w (.othersTables g)).running = true ∧
      (step p w (.othersTables g)).sent = [] ∧ (step p w (.othersTables g)).tellsCm = false := by
  rw [step_of_running p running]
  exact ⟨rfl, running, rfl, rfl⟩

end RemoteControl.PortForward
