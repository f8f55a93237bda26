import RemoteControl.Runs

/-! # Signing in through the browser

One global `OidcSession` serves all sign-in attempts. A call of `account_auth` cancels the
attempt before it, waits until `running` is off, takes the session for itself in another
section and spawns the thread of its `auth_task`; the windows poll `get_result`.

`auth_task` asks for the stop flag only in front of a request. The lock is held while
a request is on its way, so a request and its answer are one section, and what an answer
leads to happens in sections of its own.
-/

namespace RemoteControl.SignIn

open Runs (exec Always Along)

structure OidcAuthUrl where
  code : String
  url : String
  deriving DecidableEq

inductive UserStatus where
  | disabled
  | normal
  | unverified
  deriving DecidableEq

/-- The fields that are stored. -/
structure UserPayload where
  name : String
  displayName : Option String := none
  avatar : Option String := none
  status : UserStatus := .normal
  deriving DecidableEq

structure AuthBody where
  accessToken : String
  type : String
  tfaType : String := ""
  secret : String := ""
  user : UserPayload
  deriving DecidableEq

inductive HbbHttpResponse (α : Type) where
  | errorFormat
  | error (err : String)
  | dataTypeFormat
  | data (value : α)

/-- What a request comes to: an answer, or an error of the client. -/
abbrev Answer (α : Type) := Except String (HbbHttpResponse α)

def requestingAccountAuth := "Requesting account auth"
def waitingAccountAuth := "Waiting account auth"
def loginAccountAuth := "Login account auth"

structure OidcSession where
  /-- `client.is_some()` -/
  client : Bool := false
  stateMsg : String := requestingAccountAuth
  failedMsg : String := ""
  codeUrl : Option OidcAuthUrl := none
  authBody : Option AuthBody := none
  keepQuerying : Bool := false
  running : Bool := false

namespace OidcSession

def ensureClient (s : OidcSession) : OidcSession := { s with client := true }

def reset (s : OidcSession) : OidcSession :=
  { s with
    stateMsg := requestingAccountAuth
    failedMsg := ""
    keepQuerying := true
    running := false
    codeUrl := none
    authBody := none }

def beforeTask (s : OidcSession) : OidcSession := { reset s with running := true }

def afterTask (s : OidcSession) : OidcSession := { s with running := false }

def setState (stateMsg failedMsg : String) (s : OidcSession) : OidcSession :=
  { s with stateMsg, failedMsg }

def authCancel (s : OidcSession) : OidcSession := { s with keepQuerying := false }

end OidcSession

structure AuthResult where
  stateMsg : String
  failedMsg : String
  url : Option String
  authBody : Option AuthBody

def OidcSession.getResult (s : OidcSession) : AuthResult where
  stateMsg := s.stateMsg
  failedMsg := s.failedMsg
  url := s.codeUrl.map (·.url)
  authBody := s.authBody

/-- `text.contains(part)` -/
def contains (text part : String) : Bool :=
  text.toList.tails.any fun rest => part.toList.isPrefixOf rest

/-- Where an attempt is: the section that comes next. -/
inductive Pc where
  /-- `wait_stop_querying` -/
  | wait
  | beforeTask
  | authEnsureClient
  /-- The request of `auth` -/
  | auth
  /-- `set_state` with an error, and the thread is done. -/
  | fail (stateMsg err : String)
  | gotUrl (codeUrl : OidcAuthUrl)
  | putUrl (codeUrl : OidcAuthUrl)
  | queryTimeout
  /-- The condition of the loop -/
  | check
  | queryEnsureClient
  /-- The request of `query` -/
  | query
  | storeToken (authBody : AuthBody)
  | storeUser (authBody : AuthBody)
  | loggedIn (authBody : AuthBody)
  | putBody (authBody : AuthBody)
  | afterLoop
  | afterTask
  | done

/-- The part from the spawn to `after_task` -/
def Pc.Live : Pc → Prop
  | .wait | .beforeTask | .done => False
  | _ => True

/-- The next section is `before_task`. -/
def Pc.begins : Pc → Bool
  | .beforeTask => true
  | _ => false

/-- The next section stores what the server has answered. -/
def Pc.stores : Pc → Bool
  | .storeToken _ | .storeUser _ => true
  | _ => false

/-- A call of `account_auth` with the thread it spawns. -/
structure Attempt where
  rememberMe : Bool
  pc : Pc := .wait
  /-- `query_timeout` has passed since `begin`. -/
  timedOut : Bool := false

/-- What `auth_task` puts into the options of `LocalConfig`. -/
inductive Stored where
  | accessToken (value : String)
  | userInfo (user : UserPayload)
  deriving DecidableEq

structure State where
  session : OidcSession := {}
  /-- The attempts in the order of their calls. -/
  attempts : List Attempt := []
  stored : List Stored := []
  /-- The attempt whose `before_task` ran last. -/
  latest : Option Nat := none
  /-- The attempts before this number were called before the last `auth_cancel`, the one at
      the start of a call apart from the call itself. -/
  cancelled : Nat := 0
  /-- Whose answers `code_url`, `auth_body` and `failed_msg` were set from last. -/
  urlOf : Option Nat := none
  bodyOf : Option Nat := none
  failureOf : Option Nat := none

/-- The sections of all threads, in the order in which they get the lock. -/
inductive Event where
  /-- `account_auth` is called and runs its `auth_cancel`. -/
  | accountAuth (rememberMe : Bool)
  | authCancel
  /-- The next section of the attempt, unless it is a request. -/
  | next (attempt : Nat)
  | auth (attempt : Nat) (answer : Answer OidcAuthUrl)
  | query (attempt : Nat) (answer : Answer AuthBody)
  | timeout (attempt : Nat)

namespace State

def goTo (n : Nat) (a : Attempt) (pc : Pc) (s : State) : State :=
  { s with attempts := s.attempts.set n { a with pc } }

/-- `set_state` by the attempt -/
def setState (n : Nat) (stateMsg failedMsg : String) (s : State) : State :=
  { s with session := s.session.setState stateMsg failedMsg, failureOf := some n }

def next (n : Nat) (a : Attempt) (s : State) : State :=
  match a.pc with
  | .wait => if s.session.running then s else goTo n a .beforeTask s
  | .beforeTask =>
      goTo n a .authEnsureClient { s with session := s.session.beforeTask, latest := some n }
  | .authEnsureClient => goTo n a .auth { s with session := s.session.ensureClient }
  | .fail stateMsg err => goTo n a .afterTask (setState n stateMsg err s)
  | .gotUrl codeUrl => goTo n a (.putUrl codeUrl) (setState n waitingAccountAuth "" s)
  | .putUrl codeUrl =>
      goTo n a .queryTimeout
        { s with session := { s.session with codeUrl := some codeUrl }, urlOf := some n }
  -- `begin` is now
  | .queryTimeout => goTo n { a with timedOut := false } .check s
  | .check =>
      if s.session.keepQuerying && !a.timedOut then goTo n a .queryEnsureClient s
      else goTo n a .afterLoop s
  | .queryEnsureClient => goTo n a .query { s with session := s.session.ensureClient }
  | .storeToken authBody =>
      goTo n a (.storeUser authBody)
        { s with stored := .accessToken authBody.accessToken :: s.stored }
  | .storeUser authBody =>
      goTo n a (.loggedIn authBody) { s with stored := .userInfo authBody.user :: s.stored }
  | .loggedIn authBody => goTo n a (.putBody authBody) (setState n loginAccountAuth "" s)
  | .putBody authBody =>
      goTo n a .afterTask
        { s with session := { s.session with authBody := some authBody }, bodyOf := some n }
  | .afterLoop =>
      if a.timedOut then goTo n a (.fail waitingAccountAuth "timeout") s else goTo n a .afterTask s
  | .afterTask => goTo n a .done { s with session := s.session.afterTask }
  | .auth | .query | .done => s

/-- What `auth_task` does with the answer of `auth` -/
def authAnswered (answer : Answer OidcAuthUrl) : Pc :=
  match answer with
  | .ok (.data codeUrl) => .gotUrl codeUrl
  | .ok (.error err) => .fail requestingAccountAuth err
  | .ok _ => .fail requestingAccountAuth "Invalid auth response"
  | .error err => .fail requestingAccountAuth err

/-- What `auth_task` does with the answer of `query` -/
def queryAnswered (rememberMe : Bool) (answer : Answer AuthBody) : Pc :=
  match answer with
  | .ok (.data authBody) =>
      if authBody.type = "access_token" && rememberMe then .storeToken authBody
      else .loggedIn authBody
  | .ok (.error err) =>
      if contains err "No authed oidc is found" then .check else .fail waitingAccountAuth err
  | .ok _ => .check
  | .error _ => .check

/-- Without a client no request is sent. -/
def answered {α : Type} (s : State) (answer : Answer α) : Answer α :=
  if s.session.client then answer else .error "http client not initialized"

def step (s : State) : Event → State
  | .accountAuth rememberMe =>
      { s with
        session := s.session.authCancel
        attempts := s.attempts ++ [{ rememberMe }]
        cancelled := s.attempts.length }
  | .authCancel => { s with session := s.session.authCancel, cancelled := s.attempts.length }
  | .next n =>
      match s.attempts[n]? with
      | some a => next n a s
      | none => s
  | .auth n answer =>
      match s.attempts[n]? with
      | some ⟨rememberMe, .auth, timedOut⟩ =>
          goTo n ⟨rememberMe, .auth, timedOut⟩ (authAnswered (answered s answer)) s
      | _ => s
  | .query n answer =>
      match s.attempts[n]? with
      | some ⟨rememberMe, .query, timedOut⟩ =>
          goTo n ⟨rememberMe, .query, timedOut⟩ (queryAnswered rememberMe (answered s answer)) s
      | _ => s
  | .timeout n => { s with attempts := s.attempts.modify n fun a => { a with timedOut := true } }

/-- What `get_result` reports comes from the latest attempt. -/
def ReportsLatest (s : State) : Prop :=
  (s.session.getResult.url.isSome → s.urlOf = s.latest) ∧
    (s.session.getResult.authBody.isSome → s.bodyOf = s.latest) ∧
    (s.session.getResult.failedMsg ≠ "" → s.failureOf = s.latest)

/-- No attempt stores anything that was called before the last `auth_cancel`. -/
def StoresUncancelled (s : State) : Event → Prop
  | .next n => ∀ a ∈ s.attempts[n]?, a.pc.stores → s.cancelled ≤ n
  | _ => True

/-- `before_task` finds `running` still off and comes before any other `auth_cancel`, and
    `keep_querying` is still on when an answer comes to be stored. -/
def Undisturbed (s : State) : Event → Prop
  | .next n => ∀ a ∈ s.attempts[n]?,
      (a.pc.begins → s.session.running = false ∧ s.cancelled ≤ n) ∧
        (a.pc.stores → s.session.keepQuerying = true)
  | _ => True

instance : DecidablePred ReportsLatest := fun _ => inferInstanceAs (Decidable (_ ∧ _))

instance (s : State) : (e : Event) → Decidable (StoresUncancelled s e)
  | .next n => inferInstanceAs (Decidable (∀ a ∈ s.attempts[n]?, a.pc.stores → s.cancelled ≤ n))
  | .accountAuth _ | .authCancel | .auth .. | .query .. | .timeout _ => inferInstanceAs (Decidable True)

instance (s : State) : (e : Event) → Decidable (Undisturbed s e)
  | .next n => inferInstanceAs (Decidable (∀ a ∈ s.attempts[n]?,
      (a.pc.begins → s.session.running = false ∧ s.cancelled ≤ n) ∧
        (a.pc.stores → s.session.keepQuerying = true)))
  | .accountAuth _ | .authCancel | .auth .. | .query .. | .timeout _ => inferInstanceAs (Decidable True)

/-! ## What each section keeps -/

variable {s s' : State} {n m : Nat} {a a' : Attempt} {pc : Pc}

structure Inv (s : State) : Prop where
  live : ∀ n a, s.attempts[n]? = some a → a.pc.Live → s.latest = some n ∧ s.session.running = true
  reports : ReportsLatest s
  uncancelled : s.session.keepQuerying = true → ∀ n ∈ s.latest, s.cancelled ≤ n

theorem inv_start : Inv {} where
  live n a member := by simp at member
  reports := by decide
  uncancelled keeps := by simp at keeps

/-- One attempt goes on, and what it changes belongs to it. -/
theorem Inv.goes (inv : Inv s) (attempts : s'.attempts = s.attempts.set n a')
    (live : a'.pc.Live → s.latest = some n ∧ s.session.running = true)
    (latest : s'.latest = s.latest) (cancelled : s'.cancelled = s.cancelled)
    (running : s'.session.running = s.session.running)
    (keepQuerying : s'.session.keepQuerying = s.session.keepQuerying)
    (reports : ReportsLatest s') : Inv s' where
  live m b member isLive := by
    rw [latest, running]
    rw [attempts, List.getElem?_set] at member
    split at member
    case isTrue same =>
      subst same
      split at member
      case isTrue =>
        obtain rfl := Option.some.inj member
        exact live isLive
      case isFalse => cases member
    case isFalse => exact inv.live m b member isLive
  reports := reports
  uncancelled := by
    rw [keepQuerying, latest, cancelled]
    exact inv.uncancelled

theorem goTo_inv (inv : Inv s) (live : pc.Live → s.latest = some n ∧ s.session.running = true) :
    Inv (goTo n a pc s) :=
  inv.goes rfl live rfl rfl rfl rfl inv.reports

theorem setState_reports {stateMsg failedMsg : String} (reports : ReportsLatest s)
    (latest : s.latest = some n) : ReportsLatest (setState n stateMsg failedMsg s) :=
  ⟨reports.1, reports.2.1, fun _ => latest.symm⟩

section

variable (inv : Inv s)

include inv

/-- With `running` off no attempt is at work. -/
theorem beforeTask_inv (idle : s.session.running = false) (uncancelled : s.cancelled ≤ n) :
    Inv (goTo n a .authEnsureClient { s with session := s.session.beforeTask, latest := some n }) where
  live m b member isLive := by
    simp only [goTo, List.getElem?_set] at member
    split at member
    case isTrue same => exact ⟨congrArg some same, rfl⟩
    case isFalse =>
      have works := (inv.live m b member isLive).2
      simp [idle] at works
  reports := by
    simp [goTo, ReportsLatest, OidcSession.getResult, OidcSession.beforeTask, OidcSession.reset]
  uncancelled _ m same := by
    obtain rfl := Option.some.inj same
    exact uncancelled

/-- The attempt that was at work is the only one. -/
theorem afterTask_inv (latest : s.latest = some n) :
    Inv (goTo n a .done { s with session := s.session.afterTask }) where
  live m b member isLive := by
    simp only [goTo, List.getElem?_set] at member
    split at member
    case isTrue same =>
      split at member
      case isTrue =>
        obtain rfl := Option.some.inj member
        exact isLive.elim
      case isFalse => cases member
    case isFalse other =>
      have works := (inv.live m b member isLive).1
      exact (other (Option.some.inj (latest.symm.trans works))).elim
  reports := inv.reports
  uncancelled := inv.uncancelled

theorem next_inv (here : s.attempts[n]? = some a) (undisturbed : Undisturbed s (.next n)) :
    Inv (next n a s) := by
  have live (isLive : a.pc.Live) := inv.live n a here isLive
  have quiet := undisturbed a here
  unfold next
  cases at_ : a.pc with
  | wait =>
      dsimp only
      split
      case isTrue => exact inv
      case isFalse => exact goTo_inv inv False.elim
  | beforeTask =>
      obtain ⟨idle, uncancelled⟩ := quiet.1 (by simp [at_, Pc.begins])
      exact beforeTask_inv inv idle uncancelled
  | authEnsureClient | queryEnsureClient =>
      rw [at_] at live
      exact inv.goes rfl live rfl rfl rfl rfl inv.reports
  | fail | gotUrl | loggedIn =>
      rw [at_] at live
      exact inv.goes rfl live rfl rfl rfl rfl (setState_reports inv.reports (live trivial).1)
  | putUrl codeUrl =>
      rw [at_] at live
      refine inv.goes rfl live rfl rfl rfl rfl ?_
      exact ⟨fun _ => (live trivial).1.symm, inv.reports.2⟩
  | putBody authBody =>
      rw [at_] at live
      refine inv.goes rfl live rfl rfl rfl rfl ?_
      exact ⟨inv.reports.1, fun _ => (live trivial).1.symm, inv.reports.2.2⟩
  | queryTimeout | storeToken | storeUser =>
      rw [at_] at live
      exact inv.goes rfl live rfl rfl rfl rfl inv.reports
  | check | afterLoop =>
      rw [at_] at live
      dsimp only
      split
      case isTrue => exact goTo_inv inv live
      case isFalse => exact goTo_inv inv live
  | afterTask =>
      rw [at_] at live
      exact afterTask_inv inv (live trivial).1
  | auth | query | done => exact inv

theorem accountAuth_inv {rememberMe : Bool} : Inv (s.step (.accountAuth rememberMe)) where
  live m b member isLive := by
    simp only [step, List.getElem?_append] at member
    split at member
    case isTrue => exact inv.live m b member isLive
    case isFalse =>
      obtain rfl := List.mem_singleton.mp (List.mem_of_getElem? member)
      exact isLive.elim
  reports := inv.reports
  uncancelled keeps := by simp [step, OidcSession.authCancel] at keeps

theorem authCancel_inv : Inv (s.step .authCancel) where
  live := inv.live
  reports := inv.reports
  uncancelled keeps := by simp [step, OidcSession.authCancel] at keeps

theorem timeout_inv : Inv (s.step (.timeout n)) where
  live m b member isLive := by
    simp only [step, List.getElem?_modify] at member
    obtain ⟨old, found, rfl⟩ := Option.map_eq_some_iff.mp member
    exact inv.live m old found (by split at isLive <;> exact isLive)
  reports := inv.reports
  uncancelled := inv.uncancelled

theorem Inv.step {e : Event} (undisturbed : Undisturbed s e) : Inv (s.step e) := by
  cases e with
  | accountAuth rememberMe => exact accountAuth_inv inv
  | authCancel => exact authCancel_inv inv
  | next n =>
      simp only [State.step]
      split
      case h_1 a here => exact next_inv inv here undisturbed
      case h_2 => exact inv
  | auth n answer =>
      simp only [State.step]
      split
      case h_1 rememberMe timedOut here => exact goTo_inv inv fun _ => inv.live n _ here trivial
      case h_2 => exact inv
  | query n answer =>
      simp only [State.step]
      split
      case h_1 rememberMe timedOut here => exact goTo_inv inv fun _ => inv.live n _ here trivial
      case h_2 => exact inv
  | timeout n => exact timeout_inv inv

/-- An attempt at work is the latest, and with `keep_querying` on it was not cancelled. -/
theorem Inv.stores {e : Event} (undisturbed : Undisturbed s e) :
    StoresUncancelled s e := by
  cases e with
  | next n =>
      intro a here stores
      have live : a.pc.Live := by
        cases at_ : a.pc <;> simp_all [Pc.stores, Pc.Live]
      have latest := (inv.live n a here live).1
      exact inv.uncancelled ((undisturbed a here).2 stores) n latest
  | accountAuth | authCancel | auth | query | timeout => trivial

end

/-- An attempt of which the server says that `url` is to be opened. -/
def opens (n : Nat) (code url : String) : List Event :=
  [.next n, .next n, .next n, .auth n (.ok (.data { code, url })), .next n, .next n, .next n]

/-- An attempt that asks once, and the browser has signed in. -/
def signsIn (n : Nat) (authBody : AuthBody) : List Event :=
  [.next n, .next n, .query n (.ok (.data authBody))]

/-- When no section comes in the way of another attempt, `get_result` reports nothing but
    the latest attempt, and no attempt stores anything after it was cancelled. -/
theorem sign_ins_do_not_mix (events : List Event) (undisturbed : Along step Undisturbed {} events) :
    Always step ReportsLatest {} events ∧ Along step StoresUncancelled {} events := by
  have keep (s : State) (e : Event) (inv : Inv s) (here : Undisturbed s e) := inv.step here
  constructor
  · exact (Runs.always_of_along keep inv_start undisturbed).mono fun _ inv => inv.reports
  · exact Runs.along_of_along
      (fun s e inv here => ⟨inv.step here, inv.stores here⟩) inv_start undisturbed

def alice : AuthBody := { accessToken := "t0", type := "access_token", user := { name := "alice" } }

theorem sign_ins_do_not_mix_two :
    let events := [.accountAuth true] ++ opens 0 "c0" "https://a" ++ [.authCancel, .next 0, .next 0,
      .accountAuth true, .next 0] ++ opens 1 "c1" "https://b" ++ signsIn 1 alice ++ [.next 1, .next 1]
    Always step ReportsLatest {} events ∧ Along step StoresUncancelled {} events :=
  sign_ins_do_not_mix _ (by decide +kernel)

/-- The user cancels while the answer to the last question is on its way, and gets signed in. -/
theorem cancelled_attempt_stores :
    ¬ ∀ events, Always step ReportsLatest {} events ∧ Along step StoresUncancelled {} events := by
  intro always
  have broken := (always ([.accountAuth true] ++ opens 0 "c0" "https://a" ++ signsIn 0 alice ++
    [.authCancel, .next 0])).2
  revert broken
  decide +kernel

end State

end RemoteControl.SignIn
