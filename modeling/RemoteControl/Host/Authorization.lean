import RemoteControl.Host.Session

/-! # What an authorization is worth

Two questions about every run of a connection: did a peer that was let in prove
both factors, and was the kind of its session ever permitted. Both are answered
by an invariant over the checks recorded so far.
-/

namespace RemoteControl.Host

open Runs World

variable (p : Platform)

/-- A valid code was received, or the session had proved one before. -/
def secondFactor (seen : List Action) : Prop :=
  .validatedTotp ∈ seen ∨ .recentSession true ∈ seen

instance (seen : List Action) : Decidable (passwordAccepted seen) :=
  inferInstanceAs (Decidable (_ ∨ _))

instance (seen : List Action) : Decidable (secondFactor seen) :=
  inferInstanceAs (Decidable (_ ∨ _))

/-- The peer is authorized only after a password and a second factor. -/
def NeedsBothFactors (t : Traced) : Prop :=
  t.world.conn.authorized = true → passwordAccepted t.past ∧ secondFactor t.past

/-- The steps of a peer that gets no help: the user at the host does not accept
    it, it was not asked to switch sides and its device is not trusted. -/
def Unaided (t : Traced) (e : Event) : Prop :=
  e.isAuthorize = false ∧ .switchSidesMatched ∉ (step p t.world e).out ∧
    .trustedDevice ∉ (step p t.world e).out

instance (t : Traced) (e : Event) : Decidable (Unaided p t e) :=
  inferInstanceAs (Decidable (_ ∧ _ ∧ _))

/-- The event hands in a code that is accepted. -/
def handsInCode (w : World) : Event → Bool
  | .peer env (.auth2fa code _) => w.accepts2fa env code
  | _ => false

/-- A right code is handled only after a password was accepted. -/
def CodeAfterPassword (t : Traced) (e : Event) : Prop :=
  t.world.running = true → t.world.conn.authorized = false → handsInCode t.world e = true →
    passwordAccepted t.past

instance (t : Traced) (e : Event) : Decidable (CodeAfterPassword t e) :=
  inferInstanceAs (Decidable (_ → _ → _ → _))

/-- While the peer waits, nothing but a right code takes the second factor away. -/
structure Waiting (c : Connection) (seen : List Action) : Prop where
  unauthorized : c.authorized = false
  fromSwitch : c.fromSwitch = false
  code : c.require2fa = false → .validatedTotp ∈ seen

/-- Either both factors are on record, or the login is still open. -/
def FactorsOrWaiting (c : Connection) (seen : List Action) : Prop :=
  (passwordAccepted seen ∧ secondFactor seen) ∨ Waiting c seen

variable {w : World} {past : List Action} {seen seen' : List Action} {w' : World}

theorem seen_grows {out out' : List Action} (grows : out ⊆ out') : out ++ past ⊆ out' ++ past :=
  List.append_subset.mpr ⟨List.Subset.trans grows (List.subset_append_left out' past),
    List.subset_append_right out' past⟩

variable {c c' : Connection}

theorem Waiting.mono (waiting : Waiting c seen)
    (authorized : c'.authorized = c.authorized) (fromSwitch : c'.fromSwitch = c.fromSwitch)
    (require2fa : c'.require2fa = c.require2fa) (grows : seen ⊆ seen') : Waiting c' seen'  where
  unauthorized := authorized.trans waiting.unauthorized
  fromSwitch := fromSwitch.trans waiting.fromSwitch
  code := fun cleared => grows (waiting.code (require2fa.symm.trans cleared))

theorem Waiting.held (waiting : Waiting w.conn (w.out ++ past)) (held : Held w w') :
    Waiting w'.conn (w'.out ++ past) :=
  waiting.mono held.authorized (congrArg Standing.fromSwitch held.standing)
    (congrArg Standing.require2fa held.standing) (seen_grows held.grows)

theorem Waiting.granted (waiting : Waiting w.conn (w.out ++ past)) (granted : Granted w w') :
    secondFactor (w'.out ++ past) := by
  rcases granted.factor with cleared | recent | switched
  · exact .inl (seen_grows granted.grows (waiting.code cleared))
  · exact .inr (List.mem_append_left past recent)
  · rw [waiting.fromSwitch] at switched
    cases switched

theorem passwordAccepted.mono (accepted : passwordAccepted seen) (grows : seen ⊆ seen') :
    passwordAccepted seen' :=
  accepted.imp (fun member => grows member) fun member => grows member

theorem secondFactor.mono (factor : secondFactor seen) (grows : seen ⊆ seen') :
    secondFactor seen' :=
  factor.imp (fun member => grows member) fun member => grows member

/-- Remembering a login request keeps the peer waiting, unless its device is
    trusted. -/
theorem Waiting.announced {lr : LoginRequest} (waiting : Waiting w.conn (w.out ++ past))
    (announced : Announced lr w w') (untrusted : .trustedDevice ∉ w'.out) :
    Waiting w'.conn (w'.out ++ past) := by
  have kept : w'.conn.require2fa = w.conn.require2fa :=
    announced.require2fa.resolve_right untrusted
  exact waiting.mono (congrArg Standing.authorized announced.standing)
    (congrArg Standing.fromSwitch announced.standing) kept
    (seen_grows announced.grows)

theorem factors_loginRequest (env : Env) (lr : LoginRequest)
    (waiting : Waiting w.conn (w.out ++ past))
    (untrusted : .trustedDevice ∉ (w.handleLoginRequest p env lr).1.out) :
    FactorsOrWaiting (w.handleLoginRequest p env lr).1.conn
      ((w.handleLoginRequest p env lr).1.out ++ past) := by
  obtain ⟨w₁, w₂, announced, admitted, ended | ⟨-, outcome⟩⟩ :=
    handleLoginRequest_outcome p env w lr waiting.unauthorized
  · rw [ended] at untrusted ⊢
    have waiting₁ := waiting.announced announced fun member => untrusted (admitted.grows member)
    exact .inr (waiting₁.mono (congrArg Standing.authorized admitted.standing)
      (congrArg Standing.fromSwitch admitted.standing)
      (congrArg Standing.require2fa admitted.standing)
      (seen_grows admitted.grows))
  · have grows : w₂.out ⊆ (w.handleLoginRequest p env lr).1.out := by
      rcases outcome with held | ⟨granted, -⟩
      · exact held.grows
      · exact granted.grows
    have waiting₁ := waiting.announced announced fun member =>
      untrusted (grows (admitted.grows member))
    have waiting₂ : Waiting w₂.conn (w₂.out ++ past) :=
      waiting₁.mono (congrArg Standing.authorized admitted.standing)
        (congrArg Standing.fromSwitch admitted.standing)
        (congrArg Standing.require2fa admitted.standing)
        (seen_grows admitted.grows)
    rcases outcome with held | ⟨granted, accepted⟩
    · exact .inr (waiting₂.held held)
    · exact .inl ⟨accepted.mono (List.subset_append_left _ past), waiting₂.granted granted⟩

theorem factors_auth2fa (env : Env) (code : String) (hwid : Bytes)
    (waiting : Waiting w.conn (w.out ++ past))
    (afterPassword : w.accepts2fa env code = true → passwordAccepted past) :
    FactorsOrWaiting (w.handleAuth2fa p env code hwid).1.conn
      ((w.handleAuth2fa p env code hwid).1.out ++ past) := by
  rcases handleAuth2fa_outcome p env w code hwid waiting.unauthorized with
    held | ⟨accepts, w₁, shifted, recorded, outcome⟩
  · exact .inr (waiting.held held)
  · have waiting₁ : Waiting w₁.conn (w₁.out ++ past) :=
      ⟨(congrArg Standing.authorized shifted.standing).trans waiting.unauthorized,
        (congrArg Standing.fromSwitch shifted.standing).trans waiting.fromSwitch,
        fun _ => List.mem_append_left past recorded⟩
    rcases outcome with held | granted
    · exact .inr (waiting₁.held held)
    · exact .inl ⟨(afterPassword accepts).mono (List.subset_append_right _ past),
        waiting₁.granted granted⟩

theorem factors_switchSides (env : Env) (uuid : Bytes) (lr : Option LoginRequest)
    (waiting : Waiting w.conn (w.out ++ past))
    (unmatched : .switchSidesMatched ∉ (w.handleSwitchSidesResponse p env uuid lr).1.out)
    (untrusted : .trustedDevice ∉ (w.handleSwitchSidesResponse p env uuid lr).1.out) :
    FactorsOrWaiting (w.handleSwitchSidesResponse p env uuid lr).1.conn
      ((w.handleSwitchSidesResponse p env uuid lr).1.out ++ past) := by
  cases lr with
  | none => exact .inr waiting
  | some lr =>
      by_cases flutter : p.flutter = true
      · obtain ⟨w₁, announced, held | ⟨w₂, -, matched, outcome⟩⟩ :=
          handleSwitchSidesResponse_outcome p env w uuid lr flutter waiting.unauthorized
        · exact .inr ((waiting.announced announced fun member =>
            untrusted (held.grows member)).held held)
        · refine absurd ?_ unmatched
          rcases outcome with held | granted
          · exact held.grows matched
          · exact granted.grows matched
      · rw [handleSwitchSidesResponse_of_not_flutter p env w uuid _ (by simpa using flutter)]
        exact .inr waiting

theorem factors_event (e : Event) (waiting : Waiting w.conn (w.out ++ past))
    (notAuthorize : e.isAuthorize = false)
    (unmatched : .switchSidesMatched ∉ (w.handleEvent p e).out)
    (untrusted : .trustedDevice ∉ (w.handleEvent p e).out)
    (afterPassword : handsInCode w e = true → passwordAccepted past) :
    FactorsOrWaiting (w.handleEvent p e).conn ((w.handleEvent p e).out ++ past) := by
  have other (notLogin : e.isLogin = false) :
      FactorsOrWaiting (w.handleEvent p e).conn ((w.handleEvent p e).out ++ past) := by
    obtain ⟨follows, -, grows⟩ := handleEvent_login p w notLogin
    exact .inr (waiting.mono (follows.read LoginState.authorized rfl)
      (follows.read LoginState.fromSwitch rfl) (follows.read LoginState.require2fa rfl)
      (seen_grows grows))
  cases e with
  | peer env msg =>
      cases msg with
      | loginRequest lr =>
          simp only [handleEvent, afterMessage_out, afterMessage_conn] at untrusted ⊢
          exact factors_loginRequest p env lr waiting untrusted
      | auth2fa code hwid =>
          simp only [handleEvent, afterMessage_out, afterMessage_conn]
          exact factors_auth2fa p env code hwid waiting afterPassword
      | switchSidesResponse uuid lr =>
          simp only [handleEvent, afterMessage_out, afterMessage_conn] at unmatched untrusted ⊢
          exact factors_switchSides p env uuid lr waiting unmatched untrusted
      | _ => exact other rfl
  | cm env data =>
      cases data with
      | authorize => cases notAuthorize
      | _ => exact other rfl
  | _ => exact other rfl

theorem factors_step (t : Traced) (e : Event) (inv : FactorsOrWaiting t.world.conn t.past)
    (unaided : Unaided p t e) (afterPassword : CodeAfterPassword t e) :
    FactorsOrWaiting (t.step p e).world.conn (t.step p e).past := by
  rcases inv with ⟨accepted, factor⟩ | waiting
  · exact .inl ⟨accepted.mono (List.subset_append_right _ _),
      factor.mono (List.subset_append_right _ _)⟩
  obtain ⟨notAuthorize, unmatched, untrusted⟩ := unaided
  unfold Traced.step
  by_cases running : t.world.running = true
  · rw [show Host.step p t.world e = t.world.awake.handleEvent p e from if_pos running] at *
    exact factors_event p e waiting notAuthorize unmatched untrusted
      (afterPassword running waiting.unauthorized)
  · rw [show Host.step p t.world e = t.world.awake from if_neg running]
    exact .inr waiting

/-- An unaided peer that offers its code only after an accepted password is never
    authorized without both factors. -/
theorem both_factors_of_code_after_password {w : World} (started : w.Started p)
    (required : w.conn.require2fa = true) (events : List Event)
    (unaided : Along (Traced.step p) (Unaided p) ⟨w, []⟩ events)
    (afterPassword : Along (Traced.step p) CodeAfterPassword ⟨w, []⟩ events) :
    Always (Traced.step p) NeedsBothFactors ⟨w, []⟩ events := by
  have start : FactorsOrWaiting w.conn [] := by
    obtain ⟨env, id, ip, salt, challenge, controlPermissions, require2fa, conn⟩ := started.conn
    rw [conn] at required ⊢
    exact .inr ⟨rfl, rfl, fun cleared => nomatch required.symm.trans cleared⟩
  have always : Always (Traced.step p) (fun t => FactorsOrWaiting t.world.conn t.past)
      ⟨w, []⟩ events :=
    always_of_along (fun t e inv guards => factors_step p t e inv guards.1 guards.2) start
      (along_and.mpr ⟨unaided, afterPassword⟩)
  refine always.mono fun t inv authorized => ?_
  rcases inv with factors | waiting
  · exact factors
  · exact nomatch waiting.unauthorized.symm.trans authorized

/-- A host for concrete runs: its permanent password is `[1]` and the current code
    is `"123456"`. -/
def factorEnv : Env where
  permanentPassword := [1]
  totpCheck := fun code => some (code = "123456")

def factorWorld : World := World.opening (.plain .linux) factorEnv ∅ true

/-- Password first, then the code: the peer gets in. -/
theorem both_factors_of_password_then_code :
    Always (Traced.step (.plain .linux)) NeedsBothFactors ⟨factorWorld, []⟩
      [.peer factorEnv (.loginRequest { password := [1] }),
        .peer factorEnv (.auth2fa "123456" [])] ∧
    (exec (Traced.step (.plain .linux)) ⟨factorWorld, []⟩
      [.peer factorEnv (.loginRequest { password := [1] }),
        .peer factorEnv (.auth2fa "123456" [])]).world.conn.authorized = true := by
  refine ⟨both_factors_of_code_after_password (.plain .linux)
    (World.opening_started (.plain .linux) factorEnv ∅ true) rfl _ (by decide) (by decide),
    by decide⟩

/-- The code alone is enough: nothing asks for the password any more. -/
theorem code_alone_authorizes :
    ¬ ∀ (p : Platform) (w : World), w.Started p → w.conn.require2fa = true →
      ∀ events : List Event, Along (Traced.step p) (Unaided p) ⟨w, []⟩ events →
        Always (Traced.step p) NeedsBothFactors ⟨w, []⟩ events := by
  intro claim
  have always := claim (.plain .linux) factorWorld
    (World.opening_started (.plain .linux) factorEnv ∅ true) rfl
    [.peer factorEnv (.auth2fa "123456" [])] (by decide)
  exact absurd (always.last (by decide)).1 (by decide)

/-- Whatever restricted kind the connection has, its permission is on record. -/
structure KindPermitted (c : Connection) (seen : List Action) : Prop where
  tunnel : c.portForwardSocket = true → .permitted .tunnel ∈ seen
  fileTransfer : c.fileTransfer.isSome = true → .permitted .fileTransfer ∈ seen
  camera : c.viewCamera = true → .permitted .camera ∈ seen
  terminal : c.terminal = true → .permitted .terminal ∈ seen

/-- A peer is authorized only as what it was permitted to be. -/
def PermittedKind (t : Traced) : Prop :=
  t.world.conn.authorized = true → KindPermitted t.world.conn t.past

/-- The request the next authorization will act on is permitted, too. -/
def UnionPermitted (c : Connection) (seen : List Action) : Prop :=
  ∀ pf, c.lr.union = some (.portForward pf) → .permitted .tunnel ∈ seen

def LoginUnion.isPortForward : LoginUnion → Bool
  | .portForward _ => true
  | _ => false

/-- The event replaces the login request by one for port forwarding, without
    asking for the permission. -/
def replacesByTunnel : Event → Bool
  | .peer _ (.switchSidesResponse _ (some lr)) =>
      p.flutter && lr.union.any LoginUnion.isPortForward
  | _ => false

/-- Such an event comes only once the permission for tunnels is on record. -/
def TunnelAfterPermission (t : Traced) (e : Event) : Prop :=
  t.world.running = true → t.world.conn.authorized = false → replacesByTunnel p e = true →
    .permitted .tunnel ∈ t.past

instance (t : Traced) (e : Event) : Decidable (TunnelAfterPermission p t e) :=
  inferInstanceAs (Decidable (_ → _ → _ → _))

theorem KindPermitted.mono (permitted : KindPermitted c seen)
    (socket : c'.portForwardSocket = true → c.portForwardSocket = true)
    (fileTransfer : c'.fileTransfer = c.fileTransfer) (viewCamera : c'.viewCamera = c.viewCamera)
    (terminal : c'.terminal = c.terminal) (grows : seen ⊆ seen') : KindPermitted c' seen'  where
  tunnel := fun open_ => grows (permitted.tunnel (socket open_))
  fileTransfer := fun set => grows (permitted.fileTransfer (fileTransfer ▸ set))
  camera := fun set => grows (permitted.camera (viewCamera ▸ set))
  terminal := fun set => grows (permitted.terminal (terminal ▸ set))

theorem UnionPermitted.mono (permitted : UnionPermitted c seen)
    (union : c'.lr.union = c.lr.union) (grows : seen ⊆ seen') : UnionPermitted c' seen' :=
  fun pf asked => grows (permitted pf (union.symm.trans asked))

/-- What an open or finished login has to show for its kind. A login that was
    refused its kind leaves the request behind, but also the loop. -/
structure KindsOnRecord (w : World) (past : List Action) : Prop where
  kinds : KindPermitted w.conn (w.out ++ past)
  union : w.conn.authorized = false → w.running = true → UnionPermitted w.conn (w.out ++ past)

section Outcomes

variable {w w' : World} {past : List Action}

theorem kinds_held (kinds : KindPermitted w.conn (w.out ++ past)) (held : Held w w') :
    KindPermitted w'.conn (w'.out ++ past) :=
  kinds.mono (fun open_ => (congrArg Standing.portForwardSocket held.standing).symm.trans open_)
    (congrArg Standing.fileTransfer held.standing) (congrArg Standing.viewCamera held.standing)
    (congrArg Standing.terminal held.standing) (seen_grows held.grows)

theorem union_held (union : UnionPermitted w.conn (w.out ++ past)) (held : Held w w') :
    UnionPermitted w'.conn (w'.out ++ past) :=
  union.mono (congrArg Standing.union held.standing) (seen_grows held.grows)

section

variable (kinds : KindPermitted w.conn (w.out ++ past))

include kinds

theorem kinds_granted (union : UnionPermitted w.conn (w.out ++ past)) (granted : Granted w w') :
    KindPermitted w'.conn (w'.out ++ past) where
  tunnel := by
    intro open_
    rcases granted.socket open_ with before | ⟨pf, asked⟩
    · exact seen_grows granted.grows (kinds.tunnel before)
    · exact seen_grows granted.grows (union pf asked)
  fileTransfer := fun set => seen_grows granted.grows (kinds.fileTransfer (granted.fileTransfer ▸ set))
  camera := fun set => seen_grows granted.grows (kinds.camera (granted.viewCamera ▸ set))
  terminal := fun set => seen_grows granted.grows (kinds.terminal (granted.terminal ▸ set))

/-- Both ends of a logon keep the record complete. -/
theorem record_of_outcome
    (union : UnionPermitted w.conn (w.out ++ past)) (outcome : Held w w' ∨ Granted w w') :
    KindPermitted w'.conn (w'.out ++ past) ∧
      (w'.conn.authorized = false → UnionPermitted w'.conn (w'.out ++ past)) := by
  rcases outcome with held | granted
  · exact ⟨kinds_held kinds held, fun _ => union_held union held⟩
  · refine ⟨kinds_granted kinds union granted, fun unauthorized => ?_⟩
    exact nomatch granted.authorized.symm.trans unauthorized

theorem kinds_announced {lr : LoginRequest}
    (announced : Announced lr w w') : KindPermitted w'.conn (w'.out ++ past) :=
  kinds.mono
    (fun open_ => (congrArg Standing.portForwardSocket announced.standing).symm.trans open_)
    (congrArg Standing.fileTransfer announced.standing)
    (congrArg Standing.viewCamera announced.standing)
    (congrArg Standing.terminal announced.standing) (seen_grows announced.grows)

theorem kinds_admitted (admitted : Admitted w w') :
    KindPermitted w'.conn (w'.out ++ past) where
  tunnel := fun open_ => seen_grows admitted.grows
    (kinds.tunnel ((congrArg Standing.portForwardSocket admitted.standing).symm.trans open_))
  fileTransfer := by
    intro set
    rcases admitted.fileTransfer set with before | permitted
    · exact seen_grows admitted.grows (kinds.fileTransfer before)
    · exact List.mem_append_left past permitted
  camera := by
    intro set
    rcases admitted.viewCamera set with before | permitted
    · exact seen_grows admitted.grows (kinds.camera before)
    · exact List.mem_append_left past permitted
  terminal := by
    intro set
    rcases admitted.terminal set with before | permitted
    · exact seen_grows admitted.grows (kinds.terminal before)
    · exact List.mem_append_left past permitted

theorem kinds_shifted {standing : Standing} (shifted : Shifted standing w w')
    (socket : standing.portForwardSocket = w.conn.portForwardSocket)
    (fileTransfer : standing.fileTransfer = w.conn.fileTransfer)
    (viewCamera : standing.viewCamera = w.conn.viewCamera)
    (terminal : standing.terminal = w.conn.terminal) : KindPermitted w'.conn (w'.out ++ past) :=
  kinds.mono
    (fun open_ => ((congrArg Standing.portForwardSocket shifted.standing).trans socket).symm.trans
      open_)
    ((congrArg Standing.fileTransfer shifted.standing).trans fileTransfer)
    ((congrArg Standing.viewCamera shifted.standing).trans viewCamera)
    ((congrArg Standing.terminal shifted.standing).trans terminal) (seen_grows shifted.grows)

end

/-- A login request: its kind is recorded before its credentials are looked at. -/
theorem record_loginRequest (env : Env) (lr : LoginRequest)
    (kinds : KindPermitted w.conn (w.out ++ past)) (unauthorized : w.conn.authorized = false) :
    KindsOnRecord (afterMessage (w.handleLoginRequest p env lr)) past := by
  obtain ⟨w₁, w₂, announced, admitted, ended | ⟨tunnel, outcome⟩⟩ :=
    handleLoginRequest_outcome p env w lr unauthorized
  · rw [ended]
    have kinds₂ := kinds_admitted (kinds_announced kinds announced) admitted
    exact ⟨by simpa using kinds₂, fun _ running => nomatch running⟩
  · have union : w₂.conn.lr.union = lr.union :=
      (congrArg Standing.union admitted.standing).trans
        (congrArg Standing.union announced.standing)
    have record := record_of_outcome (kinds_admitted (kinds_announced kinds announced) admitted)
      (fun pf asked => List.mem_append_left past (tunnel pf (union.symm.trans asked)))
      (outcome.imp_right And.left)
    exact ⟨by simpa using record.1,
    fun unauthorized _ => by simpa using record.2 (by simpa using unauthorized)⟩

theorem record_auth2fa (env : Env) (code : String) (hwid : Bytes)
    (kinds : KindPermitted w.conn (w.out ++ past)) (union : UnionPermitted w.conn (w.out ++ past))
    (unauthorized : w.conn.authorized = false) :
    KindsOnRecord (afterMessage (w.handleAuth2fa p env code hwid)) past := by
  have record : KindPermitted (w.handleAuth2fa p env code hwid).1.conn
        ((w.handleAuth2fa p env code hwid).1.out ++ past) ∧
      ((w.handleAuth2fa p env code hwid).1.conn.authorized = false →
        UnionPermitted (w.handleAuth2fa p env code hwid).1.conn
          ((w.handleAuth2fa p env code hwid).1.out ++ past)) := by
    rcases handleAuth2fa_outcome p env w code hwid unauthorized with
      held | ⟨-, w₁, shifted, -, outcome⟩
    · exact record_of_outcome kinds union (.inl held)
    · exact record_of_outcome (kinds_shifted kinds shifted rfl rfl rfl rfl)
        (union.mono (congrArg Standing.union shifted.standing) (seen_grows shifted.grows)) outcome
  exact ⟨by simpa using record.1,
    fun unauthorized _ => by simpa using record.2 (by simpa using unauthorized)⟩

theorem record_switchSides (env : Env) (uuid : Bytes) (lr : Option LoginRequest)
    (kinds : KindPermitted w.conn (w.out ++ past)) (union : UnionPermitted w.conn (w.out ++ past))
    (unauthorized : w.conn.authorized = false)
    (afterPermission : replacesByTunnel p (.peer env (.switchSidesResponse uuid lr)) = true →
      .permitted .tunnel ∈ past) :
    KindsOnRecord (afterMessage (w.handleSwitchSidesResponse p env uuid lr)) past := by
  have record : KindPermitted (w.handleSwitchSidesResponse p env uuid lr).1.conn
        ((w.handleSwitchSidesResponse p env uuid lr).1.out ++ past) ∧
      ((w.handleSwitchSidesResponse p env uuid lr).1.conn.authorized = false →
        UnionPermitted (w.handleSwitchSidesResponse p env uuid lr).1.conn
          ((w.handleSwitchSidesResponse p env uuid lr).1.out ++ past)) := by
    cases lr with
    | none => exact ⟨kinds, fun _ => union⟩
    | some lr =>
        by_cases flutter : p.flutter = true
        · obtain ⟨w₁, announced, outcome⟩ :=
            handleSwitchSidesResponse_outcome p env w uuid lr flutter unauthorized
          have kinds₁ := kinds_announced kinds announced
          have union₁ : UnionPermitted w₁.conn (w₁.out ++ past) := by
            intro pf asked
            have same : lr.union = some (.portForward pf) :=
              (congrArg Standing.union announced.standing).symm.trans asked
            exact List.mem_append_right _ (afterPermission (by
              simp [replacesByTunnel, flutter, same, LoginUnion.isPortForward]))
          rcases outcome with held | ⟨w₂, shifted, -, outcome⟩
          · exact record_of_outcome kinds₁ union₁ (.inl held)
          · exact record_of_outcome (kinds_shifted kinds₁ shifted rfl rfl rfl rfl)
              (union₁.mono (congrArg Standing.union shifted.standing) (seen_grows shifted.grows))
              outcome
        · rw [handleSwitchSidesResponse_of_not_flutter p env w uuid _ (by simpa using flutter)]
          exact ⟨kinds, fun _ => union⟩
  exact ⟨by simpa using record.1,
    fun unauthorized _ => by simpa using record.2 (by simpa using unauthorized)⟩

theorem record_authorize (env : Env) (kinds : KindPermitted w.conn (w.out ++ past))
    (union : UnionPermitted w.conn (w.out ++ past)) (unauthorized : w.conn.authorized = false) :
    KindsOnRecord (w.onAuthorize p env) past := by
  obtain ⟨w₁, shifted, outcome⟩ := onAuthorize_outcome p env w unauthorized
  have record := record_of_outcome (kinds_shifted kinds shifted rfl rfl rfl rfl)
    (union.mono (congrArg Standing.union shifted.standing) (seen_grows shifted.grows)) outcome
  exact ⟨record.1, fun unauthorized _ => record.2 unauthorized⟩

theorem record_event (e : Event) (record : KindsOnRecord w past) (running : w.running = true)
    (afterPermission : w.conn.authorized = false → replacesByTunnel p e = true →
      .permitted .tunnel ∈ past) : KindsOnRecord (w.handleEvent p e) past := by
  by_cases authorized : w.conn.authorized = true
  · have remains := handleEvent_remains p e authorized
    refine ⟨record.kinds.mono remains.socket (congrArg Kind.fileTransfer remains.kind)
      (congrArg Kind.viewCamera remains.kind) (congrArg Kind.terminal remains.kind)
      (seen_grows remains.grows), fun unauthorized => ?_⟩
    exact nomatch ((congrArg Kind.authorized remains.kind).trans authorized).symm.trans unauthorized
  have unauthorized : w.conn.authorized = false := by simpa using authorized
  have union := record.union unauthorized running
  have other (notLogin : e.isLogin = false) : KindsOnRecord (w.handleEvent p e) past := by
    obtain ⟨follows, -, grows⟩ := handleEvent_login p w notLogin
    exact ⟨record.kinds.mono follows.socket (follows.read LoginState.fileTransfer rfl)
      (follows.read LoginState.viewCamera rfl) (follows.read LoginState.terminal rfl)
      (seen_grows grows), fun _ _ => union.mono (follows.read (fun l => l.lr.union) rfl)
        (seen_grows grows)⟩
  cases e with
  | peer env msg =>
      cases msg with
      | loginRequest lr => exact record_loginRequest p env lr record.kinds unauthorized
      | auth2fa code hwid => exact record_auth2fa p env code hwid record.kinds union unauthorized
      | switchSidesResponse uuid lr =>
          exact record_switchSides p env uuid lr record.kinds union unauthorized
            (afterPermission unauthorized)
      | _ => exact other rfl
  | cm env data =>
      cases data with
      | authorize => exact record_authorize p env record.kinds union unauthorized
      | _ => exact other rfl
  | _ => exact other rfl

end Outcomes

/-- The record of a trace, between two steps. -/
def Traced.KindsOnRecord (t : Traced) : Prop := Host.KindsOnRecord t.world.awake t.past

theorem record_step (t : Traced) (e : Event) (record : t.KindsOnRecord)
    (afterPermission : TunnelAfterPermission p t e) : (t.step p e).KindsOnRecord := by
  unfold Traced.step Traced.KindsOnRecord
  by_cases running : t.world.running = true
  · rw [show Host.step p t.world e = t.world.awake.handleEvent p e from if_pos running]
    have next := record_event p e record running (afterPermission running)
    exact ⟨next.kinds, next.union⟩
  · rw [show Host.step p t.world e = t.world.awake from if_neg running]
    exact record

/-- If no answer to switching sides smuggles in a tunnel, a peer is authorized
    only as what it was permitted to be. -/
theorem kind_permitted_of_tunnel_after_permission {w : World} (started : w.Started p)
    (events : List Event)
    (afterPermission : Along (Traced.step p) (TunnelAfterPermission p) ⟨w, []⟩ events) :
    Always (Traced.step p) PermittedKind ⟨w, []⟩ events := by
  have start : Traced.KindsOnRecord ⟨w, []⟩ := by
    obtain ⟨env, id, ip, salt, challenge, controlPermissions, require2fa, conn⟩ := started.conn
    have plain : KindPermitted w.conn [] := by
      rw [conn]
      exact ⟨nofun, nofun, nofun, nofun⟩
    refine ⟨plain, fun _ _ pf asked => ?_⟩
    rw [show w.awake.conn = _ from conn] at asked
    cases asked
  have always := always_of_along (record_step p) start afterPermission
  exact always.mono fun t record _ => record.kinds

def tunnelRequest : LoginRequest where
  password := [1]
  union := some (.portForward ⟨"10.0.0.1", 22⟩)

/-- A tunnel that was asked for in the open and permitted. -/
theorem kind_permitted_of_tunnel_login :
    Always (Traced.step (.plain .linux)) PermittedKind
      ⟨World.opening (.plain .linux) factorEnv ∅ false, []⟩
      [.peer factorEnv (.loginRequest tunnelRequest)] ∧
    (exec (Traced.step (.plain .linux)) ⟨World.opening (.plain .linux) factorEnv ∅ false, []⟩
      [.peer factorEnv (.loginRequest tunnelRequest)]).world.conn.portForwardSocket = true :=
  ⟨kind_permitted_of_tunnel_after_permission (.plain .linux)
    (World.opening_started (.plain .linux) factorEnv ∅ false) _ (by decide), by decide⟩

/-- A host whose owner has switched tunnels off. -/
def noTunnelEnv : Env where
  configOption := fun option => if option = .tunnel then "N" else ""

/-- The peer asks for a remote session, then answers a switch of sides nobody
    offered with a request for a tunnel, and the user accepts the session. -/
theorem switch_sides_answer_opens_tunnel :
    ¬ ∀ (p : Platform) (w : World), w.Started p → ∀ events : List Event,
      Always (Traced.step p) PermittedKind ⟨w, []⟩ events := by
  intro claim
  have always := claim (.plain .linux) (World.opening (.plain .linux) noTunnelEnv ∅ false)
    (World.opening_started (.plain .linux) noTunnelEnv ∅ false)
    [.peer noTunnelEnv (.loginRequest {}),
      .peer noTunnelEnv (.switchSidesResponse [] (some tunnelRequest)),
      .cm noTunnelEnv .authorize]
  exact absurd ((always.last (by decide)).tunnel (by decide)) (by decide)

end RemoteControl.Host
