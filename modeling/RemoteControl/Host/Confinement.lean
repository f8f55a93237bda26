import RemoteControl.Host.Session

/-! # Confined sessions

A session for files, for a terminal or for a camera is to be no way to the screen
and the input of the host. One match over all messages serves every kind of
session, and only some of its branches ask for the kind. `Confined` says what a
step may do in such a session, `strays` finds the messages that do more and
`finishStrays` those behind which the end of the connection does.
-/

namespace RemoteControl.Host

open Runs World

/-- Whether an action has a place in a session of the given kind other than a remote
    one. -/
def inPlace (kind : AuthConnType) : Action → Bool
  | .inputMouse _ simulate _ => !simulate
  | .inputPointer | .inputKey _ _ | .releaseModifier _ | .mainServiceInput => false
  | .takeScreenshot _ | .changeResolution _ _ | .resetResolution _ _ => false
  | .terminalAction _ => kind = .terminal
  | _ => true

/-- Actions in their place and no further monitor. -/
structure Within (kind : AuthConnType) (w w' : World) : Prop where
  actions : ∀ a ∈ w'.out, inPlace kind a = true
  monitors : ∀ idx, w'.server.isSubed (.video .monitor idx) w.conn.id →
    w.server.isSubed (.video .monitor idx) w.conn.id

/-- A step of a confined session; a `FileAction` that is no print job changes nothing
    unless the session is one for files. -/
structure Confined (p : Platform) (kind : AuthConnType) (w : World) (e : Event) : Prop where
  within : Within kind w (stepToEnd p w e)
  files : ∀ env fa, e = .peer env (.fileAction fa) → isPrinterSend fa = false →
    kind ≠ .fileTransfer → stepToEnd p w e = w.awake

/-- The displays `capture_displays` subscribes to. -/
def capturedDisplays (add sub set : List Nat) : List Nat :=
  if add ≠ [] then add else if sub ≠ [] then [] else set

def strays (p : Platform) (kind : AuthConnType) (w : World) : Event → Bool
  | .peer _ (.mouseEvent _) | .peer _ .pointerDeviceEvent =>
      kind ≠ .viewCamera && (!p.isDesktop || w.conn.peerKeyboardEnabled)
  | .peer _ (.keyEvent _) =>
      kind ≠ .viewCamera && p.os ≠ .ios && (p.os = .android || w.conn.peerKeyboardEnabled)
  | .peer _ (.screenshotRequest _) => true
  | .peer _ .terminalAction =>
      p.isDesktop && w.conn.terminalUserToken.isSome && kind ≠ .terminal
  | .peer env (.misc (.changeResolution _)) =>
      p.isDesktop && w.conn.keyboard && w.conn.displayIdx < env.displayCount
  | .peer env (.misc (.changeDisplayResolution display _)) =>
      p.isDesktop && w.conn.keyboard && display < env.displayCount
  | .peer env (.misc (.switchDisplay s)) =>
      w.conn.displayIdx ≠ s.display &&
        (!w.conn.viewCamera &&
            (s.display ≠ p.primaryDisplayIdx || w.server.contains (.video .monitor s.display)) &&
            !w.server.isSubed (.video .monitor s.display) w.conn.id ||
          p.isDesktop && s.width ≠ 0 && s.height ≠ 0 && w.conn.keyboard &&
            s.display < env.displayCount)
  | .peer _ (.misc (.captureDisplays add sub set)) =>
      !w.conn.viewCamera && (capturedDisplays add sub set).any fun d =>
        !w.server.isSubed (.video .monitor d) w.conn.id
  | .peer env (.misc (.toggleVirtualDisplay _ on)) => resetsResolutions p env on
  | _ => false

/-- The end of a connection lets its modifiers go and, with no remote one left, brings
    resolutions back. -/
def finishStrays (p : Platform) (c : Connection) : Event → Bool
  | .peer env msg =>
      endsSession p env msg && p.isDesktop && (c.pressedModifiers ≠ [] ||
        env.remoteCount = 0 && env.changedResolutions.entries ≠ [])
  | _ => false

/-- While the loop runs, no message of `strays` or `finishStrays` is handled. -/
def KeepsToKind (p : Platform) (kind : AuthConnType) (w : World) (e : Event) : Prop :=
  w.running = true → (strays p kind w e || finishStrays p w.conn e) = false

instance (p : Platform) (kind : AuthConnType) (w : World) (e : Event) :
    Decidable (KeepsToKind p kind w e) :=
  inferInstanceAs (Decidable (_ → _))

variable {p : Platform} {env : Env} {kind : AuthConnType} {w w' : World} {c : Connection}
  {msg : Message}

/-- A handler that starts without actions and touches no service is judged by its
    actions. -/
theorem within_iff (server : w'.server = w.server) :
    Within kind w w' ↔ ∀ a ∈ w'.out, inPlace kind a = true :=
  ⟨fun within => within.actions, fun actions => ⟨actions, fun _ => by rw [server]; exact id⟩⟩

theorem Effect.within {acts : Action → Prop} {subs : ServiceName → Prop}
    (effect : Effect acts subs w w') (start : w.out = [])
    (actions : ∀ a, acts a → inPlace kind a = true)
    (monitors : ∀ idx, ¬ subs (.video .monitor idx)) : Within kind w w' := by
  constructor
  · intro a member
    rcases effect.out a member with earlier | allowed
    · rw [start] at earlier
      cases earlier
    · exact actions a allowed
  · intro idx subed
    rcases effect.server _ subed with earlier | allowed
    · exact earlier
    · exact absurd allowed (monitors idx)

theorem onMouseEvent_within_iff (session : InSession kind w.conn) (start : w.out = [])
    (me : MouseEvent) :
    Within kind w (w.onMouseEvent p env me) ↔
      strays p kind w (.peer env (.mouseEvent me)) = false := by
  have camera := session.isAuthedViewCameraConn_iff
  rw [within_iff (by simp only [onMouseEvent, updateAutoDisconnectTimer]; split_ifs <;> rfl)]
  simp only [onMouseEvent, updateAutoDisconnectTimer, strays]
  split_ifs <;> simp_all [inPlace]

theorem onPointerDeviceEvent_within_iff (session : InSession kind w.conn) (start : w.out = []) :
    Within kind w (w.onPointerDeviceEvent p env) ↔
      strays p kind w (.peer env .pointerDeviceEvent) = false := by
  have camera := session.isAuthedViewCameraConn_iff
  rw [within_iff (by simp only [onPointerDeviceEvent, updateAutoDisconnectTimer]; split_ifs <;> rfl)]
  simp only [onPointerDeviceEvent, updateAutoDisconnectTimer, strays]
  split_ifs <;> simp_all [inPlace]

theorem trackModifier_unseen (ke : KeyEvent) :
    (w.trackModifier p ke).server = w.server ∧ (w.trackModifier p ke).out = w.out := by
  unfold trackModifier
  split
  · exact ⟨rfl, rfl⟩
  · split <;> exact ⟨rfl, rfl⟩

theorem inputKeyEvent_eq (ke : KeyEvent) :
    ∃ press, w.inputKeyEvent p ke = w.emit (.inputKey ke press) := by
  unfold inputKeyEvent
  split
  · split
    · exact ⟨false, rfl⟩
    · exact ⟨false, rfl⟩
    · exact ⟨true, rfl⟩
  · exact ⟨false, rfl⟩

theorem onKeyEvent_within_iff (session : InSession kind w.conn) (start : w.out = [])
    (ke : KeyEvent) :
    Within kind w (w.onKeyEvent p env ke) ↔
      strays p kind w (.peer env (.keyEvent ke)) = false := by
  have camera := session.isAuthedViewCameraConn_iff
  obtain ⟨server, out⟩ := trackModifier_unseen (p := p) (w := w) ke
  obtain ⟨press, input⟩ := inputKeyEvent_eq (p := p) (w := w.trackModifier p ke) ke
  have unseen : (w.onKeyEvent p env ke).server = w.server := by
    simp only [onKeyEvent, updateAutoDisconnectTimer, input]
    split_ifs <;> first | rfl | exact server
  rw [within_iff unseen]
  simp only [onKeyEvent, updateAutoDisconnectTimer, strays, input]
  split_ifs <;> simp_all [inPlace]

theorem changeResolution_within_iff (start : w.out = []) (display : Option Nat) (r : Resolution) :
    Within kind w (if p.isDesktop then w.changeResolution env display r else w) ↔
      (p.isDesktop && w.conn.keyboard && display.getD w.conn.displayIdx < env.displayCount) =
        false := by
  rw [within_iff (by simp only [World.changeResolution]; split_ifs <;> rfl)]
  simp only [World.changeResolution]
  split_ifs <;> simp_all [inPlace]

theorem tryAddService_hosts (s : Server) (name : ServiceName) :
    name ∈ (s.tryAddService name).services := by
  unfold Server.tryAddService Server.addService Server.contains
  split_ifs with hosted
  · simpa using hosted
  · exact Finset.mem_insert_self ..

/-- When what is asked for is all that can be new, and is all there afterwards, nothing is new
    exactly when it was there before. -/
theorem none_new_iff {after before asked : Nat → Prop}
    (new : ∀ idx, after idx → before idx ∨ asked idx) (all : ∀ idx, asked idx → after idx) :
    (∀ idx, after idx → before idx) ↔ ∀ idx, asked idx → before idx := by
  constructor
  · intro none_ idx listed
    exact none_ idx (all idx listed)
  · intro shown idx now
    rcases new idx now with earlier | listed
    · exact earlier
    · exact shown idx listed

/-- Whether a display is subscribed after a switch to another one. -/
theorem switchDisplayTo_monitors_iff (display : Nat) :
    (∀ idx, (w.switchDisplayTo p display).server.isSubed (.video .monitor idx) w.conn.id →
        w.server.isSubed (.video .monitor idx) w.conn.id) ↔
      (!w.conn.viewCamera &&
        (display ≠ p.primaryDisplayIdx || w.server.contains (.video .monitor display)) &&
        !w.server.isSubed (.video .monitor display) w.conn.id) = false := by
  unfold switchDisplayTo
  extract_lets source added dropped switched
  have added_subed (name : ServiceName) (subed : added.isSubed name w.conn.id) :
      w.server.isSubed name w.conn.id := by
    simp only [added] at subed
    split_ifs at subed
    · exact ((Server.tryAddService_isSubed ..).mp subed).1
    · exact subed
  have dropped_subed (name : ServiceName) (subed : dropped.isSubed name w.conn.id) :
      w.server.isSubed name w.conn.id := by
    refine added_subed name ?_
    simp only [dropped] at subed
    split_ifs at subed
    · rw [Server.subscribe_isSubed] at subed
      split_ifs at subed
      exact subed
    · exact subed
  have hosted : .video source display ∈ dropped.services ↔
      display ≠ p.primaryDisplayIdx ∨ .video source display ∈ w.server.services := by
    have same : dropped.services = added.services := by
      simp only [dropped]
      split_ifs
      · exact Server.subscribe_services ..
      · rfl
    rw [same]
    simp only [added]
    by_cases primary : display = p.primaryDisplayIdx
    · simp [primary]
    · simp only [primary, ne_eq, not_false_eq_true, if_true, true_or, iff_true]
      exact tryAddService_hosts _ _
  have switched_subed (idx : Nat) :
      switched.isSubed (.video .monitor idx) w.conn.id ↔
        if .video .monitor idx = ServiceName.video source display ∧
          .video source display ∈ dropped.services then true = true
        else dropped.isSubed (.video .monitor idx) w.conn.id := Server.subscribe_isSubed ..
  rw [modify_server, setServer_server]
  have same : (∀ idx, switched.isSubed (.video .monitor idx) w.conn.id →
      w.server.isSubed (.video .monitor idx) w.conn.id) ↔
      ∀ idx, .video .monitor idx = ServiceName.video source display ∧
        .video source display ∈ dropped.services →
          w.server.isSubed (.video .monitor idx) w.conn.id := by
    apply none_new_iff
    · intro idx subed
      rw [switched_subed] at subed
      split_ifs at subed with asked
      · exact .inr asked
      · exact .inl (dropped_subed _ subed)
    · intro idx asked
      rw [switched_subed, if_pos asked]
  rw [same, hosted]
  by_cases camera : w.conn.viewCamera = true
  · have source_ : source = .camera := by simp [source, Connection.videoSource, camera]
    simp [source_, camera]
  · have source_ : source = .monitor := by simp [source, Connection.videoSource, camera]
    simp [source_, camera, Server.contains]

theorem handleSwitchDisplay_within_iff (start : w.out = []) (s : SwitchDisplay) :
    Within kind w (w.handleSwitchDisplay p env s) ↔
      strays p kind w (.peer env (.misc (.switchDisplay s))) = false := by
  by_cases other : w.conn.displayIdx ≠ s.display
  · have out : (w.switchDisplayTo p s.display).out = [] := start
    have conn : (w.switchDisplayTo p s.display).conn = { w.conn with displayIdx := s.display } := rfl
    have actions : (∀ a ∈ (w.handleSwitchDisplay p env s).out, inPlace kind a = true) ↔
        (p.isDesktop && s.width ≠ 0 && s.height ≠ 0 && w.conn.keyboard &&
          s.display < env.displayCount) = false := by
      simp only [handleSwitchDisplay, if_pos other, World.changeResolution, sendDisplayChanged]
      split_ifs <;> simp_all [inPlace]
    have server : (w.handleSwitchDisplay p env s).server =
        (w.switchDisplayTo p s.display).server := by
      simp only [handleSwitchDisplay, if_pos other, World.changeResolution, sendDisplayChanged]
      split_ifs <;> rfl
    have judged : strays p kind w (.peer env (.misc (.switchDisplay s))) = false ↔
        (!w.conn.viewCamera &&
          (s.display ≠ p.primaryDisplayIdx || w.server.contains (.video .monitor s.display)) &&
          !w.server.isSubed (.video .monitor s.display) w.conn.id) = false ∧
        (p.isDesktop && s.width ≠ 0 && s.height ≠ 0 && w.conn.keyboard &&
          s.display < env.displayCount) = false := by
      simp only [strays]
      rw [decide_eq_true other, Bool.true_and, Bool.or_eq_false_iff]
    rw [judged, ← switchDisplayTo_monitors_iff, ← actions, ← server]
    exact ⟨fun within => ⟨within.monitors, within.actions⟩, fun both => ⟨both.2, both.1⟩⟩
  · have same : w.handleSwitchDisplay p env s = w := if_neg other
    rw [same, within_iff rfl, start]
    exact iff_of_true (by simp) (by simp [strays, not_not.mp other])

theorem foldl_tryAddService_grows (source : VideoSource) (displays : List Nat) (s : Server)
    {name : ServiceName} (hosted : name ∈ s.services) :
    name ∈ (displays.foldl (fun s d => s.tryAddService (.video source d)) s).services := by
  induction displays generalizing s with
  | nil => exact hosted
  | cons d rest ih =>
      refine ih _ ?_
      dsimp only [Server.tryAddService, Server.addService]
      split_ifs
      · exact hosted
      · exact Finset.mem_insert_of_mem hosted

theorem foldl_tryAddService_hosts (source : VideoSource) (displays : List Nat) (s : Server)
    {d : Nat} (listed : d ∈ displays) : .video source d ∈
      (displays.foldl (fun s d => s.tryAddService (.video source d)) s).services := by
  induction displays generalizing s with
  | nil => cases listed
  | cons d' rest ih =>
      rcases List.mem_cons.mp listed with rfl | later
      · exact foldl_tryAddService_grows source rest _ (tryAddService_hosts s _)
      · exact ih _ later

theorem captureDisplays_isSubed_new (s : Server) (id : ConnId) (source other : VideoSource)
    (displays : List Nat) (include_ exclude : Bool) (idx : Nat)
    (subed : (s.captureDisplays id source displays include_ exclude).isSubed (.video other idx) id) :
    s.isSubed (.video other idx) id ∨ other = source ∧ idx ∈ displays ∧ include_ = true := by
  rw [Server.captureDisplays_isSubed] at subed
  split_ifs at subed with hosted listed
  · exact subed.imp_right fun included => ⟨listed.1, listed.2, included⟩
  · exact .inl subed.1
  · exact .inl subed

theorem captureDisplays_isSubed_included {s : Server} {source : VideoSource} {idx : Nat}
    {displays : List Nat} (id : ConnId) (exclude : Bool)
    (hosted : .video source idx ∈ s.services) (listed : idx ∈ displays) :
    (s.captureDisplays id source displays true exclude).isSubed (.video source idx) id := by
  rw [Server.captureDisplays_isSubed, if_pos hosted, if_pos ⟨rfl, listed⟩]
  exact .inr rfl

theorem captureDisplays_within_iff (start : w.out = []) (add sub set : List Nat) :
    Within kind w (w.captureDisplays add sub set) ↔
      strays p kind w (.peer env (.misc (.captureDisplays add sub set))) = false := by
  have monitors : Within kind w (w.captureDisplays add sub set) ↔
      ∀ idx, (w.captureDisplays add sub set).server.isSubed (.video .monitor idx) w.conn.id →
        w.server.isSubed (.video .monitor idx) w.conn.id := by
    refine ⟨fun within => within.monitors, fun monitors => ⟨fun a member => ?_, monitors⟩⟩
    have out : (w.captureDisplays add sub set).out = [] := start
    rw [out] at member
    cases member
  rw [monitors]
  unfold World.captureDisplays
  extract_lets source id addMissing added captured multiUiSession followed
  have added_subed (name : ServiceName) (subed : added.isSubed name id) :
      w.server.isSubed name id :=
    foldl_tryAddService_isSubed _ _ _ (foldl_tryAddService_isSubed _ _ _ subed)
  have followed_subed (idx : Nat) : followed.isSubed (.video .monitor idx) id ↔
      captured.isSubed (.video .monitor idx) id := by
    simp only [followed]
    split_ifs
    · rw [Server.subscribe_isSubed, if_neg (fun both => nomatch both.1)]
    · rfl
  have captured_new (idx : Nat) (subed : captured.isSubed (.video .monitor idx) id) :
      w.server.isSubed (.video .monitor idx) id ∨
        source = .monitor ∧ idx ∈ capturedDisplays add sub set := by
    have either : added.isSubed (.video .monitor idx) id ∨
        source = .monitor ∧ idx ∈ capturedDisplays add sub set := by
      simp only [captured, capturedDisplays] at subed ⊢
      split_ifs at subed ⊢
      all_goals
        rcases captureDisplays_isSubed_new _ _ _ _ _ _ _ _ subed with earlier | ⟨same, listed, on⟩
        · exact .inl earlier
        · first | cases on; done | exact .inr ⟨same.symm, listed⟩
    exact either.imp_left (added_subed _)
  have captured_all (idx : Nat) (listed : idx ∈ capturedDisplays add sub set) :
      captured.isSubed (.video source idx) id := by
    simp only [captured, capturedDisplays] at listed ⊢
    split_ifs at listed ⊢ with adds subs
    · refine captureDisplays_isSubed_included id false ?_ listed
      exact foldl_tryAddService_grows source set _ (foldl_tryAddService_hosts source add _ listed)
    · cases listed
    · exact captureDisplays_isSubed_included id true
        (foldl_tryAddService_hosts source set _ listed) listed
  rw [modify_server, setServer_server]
  simp only [strays]
  have same : (∀ idx, followed.isSubed (.video .monitor idx) id →
      w.server.isSubed (.video .monitor idx) id) ↔
      ∀ idx, source = .monitor ∧ idx ∈ capturedDisplays add sub set →
        w.server.isSubed (.video .monitor idx) id := by
    apply none_new_iff
    · intro idx subed
      exact captured_new idx ((followed_subed idx).mp subed)
    · rintro idx ⟨monitor, listed⟩
      exact (followed_subed idx).mpr (monitor ▸ captured_all idx listed)
  rw [same]
  by_cases camera : w.conn.viewCamera = true
  · have source_ : source = .camera := by simp [source, Connection.videoSource, camera]
    simp [source_, camera]
  · have source_ : source = .monitor := by simp [source, Connection.videoSource, camera]
    simp [source_, camera, id]

theorem onScreenshotRequest_not_within (display : Nat) :
    ¬ Within kind w (w.onScreenshotRequest display) := by
  intro within
  have shot := within.actions (.takeScreenshot display) (by
    simp [onScreenshotRequest, World.refreshVideoDisplay])
  cases shot

theorem handleTerminalAction_within_iff (start : w.out = []) :
    Within kind w (if p.isDesktop then w.handleTerminalAction else w) ↔
      strays p kind w (.peer env .terminalAction) = false := by
  have server : (if p.isDesktop then w.handleTerminalAction else w).server = w.server := by
    unfold handleTerminalAction
    split_ifs
    · split <;> rfl
    · rfl
  rw [within_iff server]
  simp only [handleTerminalAction, strays]
  cases token : w.conn.terminalUserToken with
  | none => simp [start]
  | some token =>
      split_ifs <;> simp_all [inPlace]

/-- The messages whose branch of the match has to be looked at. -/
def Message.needsKind : Message → Bool
  | .mouseEvent _ | .pointerDeviceEvent | .keyEvent _ | .screenshotRequest _ | .terminalAction
  | .misc (.changeResolution _) | .misc (.changeDisplayResolution _ _) | .misc (.switchDisplay _)
  | .misc (.captureDisplays _ _ _) | .misc (.toggleVirtualDisplay _ _) => true
  | _ => false

theorem strays_eq_false (free : msg.needsKind = false) :
    strays p kind w (.peer env msg) = false := by
  cases msg with
  | misc m => cases m <;> first | rfl | cases free
  | _ => first | rfl | cases free

theorem Allowed.inPlace {a : Action} (free : msg.needsKind = false) (allowed : Allowed p c msg a) :
    Host.inPlace kind a = true := by
  have noInput (input : InputAllowed p c msg) : False := by
    obtain ⟨input, -⟩ := input
    cases msg <;> first | cases input; done | cases free
  cases a with
  | inputMouse me simulate showCursor =>
      cases simulate with
      | false => rfl
      | true => exact (noInput (allowed rfl)).elim
  | inputPointer | inputKey _ _ | mainServiceInput => exact (noInput allowed).elim
  | takeScreenshot display => cases msg <;> first | cases allowed; done | cases free
  | changeResolution display r =>
      obtain ⟨-, -, asks⟩ := allowed
      cases msg with
      | misc m => cases m <;> first | cases asks; done | cases free
      | _ => cases asks
  | resetResolution name size =>
      cases msg with
      | misc m => cases m <;> first | cases allowed; done | cases free
      | _ => cases allowed
  | releaseModifier key => exact allowed.elim
  | terminalAction id =>
      obtain rfl : msg = .terminalAction := allowed
      cases free
  | _ => rfl

theorem toggleVirtualDisplay_within_iff (start : w.out = []) (display : Int) (on : Bool) :
    Within kind w (if p.os = .windows then w.toggleVirtualDisplay env display on else w) ↔
      resetsResolutions p env on = false := by
  have server : (if p.os = .windows then w.toggleVirtualDisplay env display on else w).server =
      w.server := by
    unfold toggleVirtualDisplay
    split_ifs <;> rfl
  rw [within_iff server]
  have plain (a : Action) (allowed : Allowed p w.conn .other a) : Host.inPlace kind a = true :=
    allowed.inPlace rfl
  refine (forall_toggleVirtualDisplay_iff (b := False) plain ?_).trans ?_
  · simp [Host.inPlace]
  · simp [start]

theorem inSession_not_remote (session : InSession kind c) (confined : kind ≠ .remote) :
    c.isRemote = false := by
  have flags := session.flags
  by_contra remote
  simp only [Connection.isRemote, Bool.not_eq_false, Bool.and_eq_true, Bool.not_eq_true',
    Option.isNone_iff_eq_none] at remote
  obtain ⟨⟨⟨fileTransfer, socket⟩, viewCamera⟩, terminal⟩ := remote
  simp only [Connection.authConnType, fileTransfer, socket, viewCamera, terminal] at flags
  exact confined flags.symm

theorem endsSession_keepsToKind (ends : endsSession p env msg = true) :
    strays p kind w (.peer env msg) = false := by
  cases msg with
  | misc m => cases m <;> first | rfl | cases ends
  | _ => cases ends

/-- A message that needs no kind stays within any. -/
theorem onAuthorizedMessage_within (session : InSession kind w.conn) (confined : kind ≠ .remote)
    (start : w.out = []) (free : msg.needsKind = false) :
    Within kind w (w.onAuthorizedMessage p env msg).1 := by
  refine (onAuthorizedMessage_effect p env w msg).within start
    (fun a allowed => allowed.inPlace free) fun idx subscribable => ?_
  have remote := inSession_not_remote session confined
  cases msg with
  | misc m =>
      cases m with
      | selectedSid sid => exact subscribable.elim nofun fun isRemote =>
        nomatch remote.symm.trans isRemote
      | _ => first | exact subscribable.elim | cases free
  | _ => exact subscribable.elim

theorem authorizedMessage_within_iff (session : InSession kind w.conn) (confined : kind ≠ .remote)
    (start : w.out = []) (msg : Message) :
    Within kind w (w.onAuthorizedMessage p env msg).1 ↔ strays p kind w (.peer env msg) = false := by
  by_cases free : msg.needsKind = false
  · exact iff_of_true (onAuthorizedMessage_within session confined start free) (strays_eq_false free)
  cases msg with
  | mouseEvent me => exact onMouseEvent_within_iff session start me
  | pointerDeviceEvent => exact onPointerDeviceEvent_within_iff session start
  | keyEvent ke => exact onKeyEvent_within_iff session start ke
  | screenshotRequest display =>
      exact iff_of_false (onScreenshotRequest_not_within display) (by simp [strays])
  | terminalAction => exact handleTerminalAction_within_iff start
  | misc m =>
      cases m with
      | changeResolution r => exact changeResolution_within_iff start none r
      | changeDisplayResolution display r => exact changeResolution_within_iff start (some display) r
      | switchDisplay s => exact handleSwitchDisplay_within_iff start s
      | captureDisplays add sub set => exact captureDisplays_within_iff start add sub set
      | toggleVirtualDisplay display on => exact toggleVirtualDisplay_within_iff start display on
      | _ => exact absurd rfl free
  | _ => exact absurd rfl free

theorem message_within_iff (session : InSession kind w.conn) (confined : kind ≠ .remote)
    (start : w.out = []) (msg : Message) :
    Within kind w (w.handleEvent p (.peer env msg)) ↔ strays p kind w (.peer env msg) = false := by
  have after (res : World × Bool) : Within kind w (afterMessage res) ↔ Within kind w res.1 := by
    constructor
    · exact fun within => ⟨by simpa using within.actions, by simpa using within.monitors⟩
    · exact fun within => ⟨by simpa using within.actions, by simpa using within.monitors⟩
  by_cases login : msg.isLogin = true
  · refine iff_of_true ?_ (by cases msg <;> first | rfl | cases login)
    have settled := (onMessage_answered p env (w := w) login session.authorized).settled
    rw [handleEvent, after, within_iff settled.server]
    intro a member
    rcases settled.out a member with earlier | reply
    · rw [start] at earlier
      cases earlier
    · cases a <;> first | rfl | cases reply
  have notLogin : msg.isLogin = false := by simpa using login
  by_cases delay : ∃ fromClient, msg = .testDelay fromClient
  · obtain ⟨fromClient, rfl⟩ := delay
    refine iff_of_true ?_ rfl
    have server : (w.handleTestDelay fromClient).server = w.server := by
      unfold handleTestDelay
      split_ifs <;> rfl
    rw [handleEvent, after, onMessage, within_iff server]
    unfold handleTestDelay
    split_ifs <;> simp [start, inPlace]
  by_cases close : ∃ reason, msg = .misc (.closeReason reason)
  · obtain ⟨reason, rfl⟩ := close
    have closed : Effect (Allowed p w.conn .other) noService w (w.onClose p true) :=
      onClose_effect p w true
    refine iff_of_true ?_ rfl
    rw [handleEvent, after]
    exact closed.within start (fun a allowed => allowed.inPlace rfl) fun _ => id
  · rw [session.handle notLogin (fun fromClient same => delay ⟨fromClient, same⟩)
      (fun reason same => close ⟨reason, same⟩), after]
    exact authorizedMessage_within_iff session confined start msg

theorem finish_within_iff (session : InSession kind w'.conn) (id : w'.conn.id = w.conn.id)
    (within : Within kind w w') :
    Within kind w (w'.finish p env) ↔ (p.isDesktop && (w'.conn.pressedModifiers ≠ [] ||
      env.remoteCount = 0 && env.changedResolutions.entries ≠ [])) = false := by
  have plain (a : Action) (allowed : Allowed p w.conn .other a) : inPlace kind a = true :=
    allowed.inPlace rfl
  have ended : Effect (fun _ => True) noService w' (w'.finish p env) := finish_effect p env w'
  have monitors (idx : Nat) (subed : (w'.finish p env).server.isSubed (.video .monitor idx) w.conn.id) :
      w.server.isSubed (.video .monitor idx) w.conn.id :=
    within.monitors idx (id ▸ (ended.server _ (id ▸ subed)).resolve_right False.elim)
  refine Iff.trans ⟨fun within => within.actions, fun actions => ⟨actions, monitors⟩⟩ ?_
  rw [forall_finish_iff session plain, forall_dropConnection_iff session.registered plain,
    and_iff_right within.actions]
  simp only [inPlace, forall_mem_const, Resolutions.restorePass]
  cases p.isDesktop <;> simp

theorem switchPermission_within (start : w.out = []) (name : String) (enabled : Bool) :
    Within kind w (w.switchPermission p name enabled) := by
  obtain ⟨permissions, effect⟩ := switchPermission_effect p w name enabled
  have within : Within kind _ _ := effect.within start (fun a reply => by
    cases a <;> first | rfl | exact reply.elim) nofun
  exact ⟨within.actions, within.monitors⟩

/-- Without a session for files, a `FileAction` is not even looked at. -/
theorem fileAction_ignored (session : InSession kind w.conn) (confined : kind ≠ .fileTransfer)
    {fa : Option FileAction} (notPrinter : isPrinterSend fa = false) :
    w.handleEvent p (.peer env (.fileAction fa)) = w := by
  have none_ : w.conn.fileTransfer.isSome = false := by
    by_contra some_
    refine confined (session.flags.symm.trans ?_)
    simp only [Connection.authConnType]
    rw [if_pos (Bool.not_eq_false _ ▸ some_)]
  have ignored : w.onFileAction p env fa = w := if_pos (by simp [none_, notPrinter])
  have handled : w.handleEvent p (.peer env (.fileAction fa)) =
      afterMessage (w.onFileAction p env fa, true) :=
    session.handle rfl (fun _ => by simp) fun _ => by simp
  rw [handled, ignored]
  simp [afterMessage, keepAlive, session.socket]

theorem confined_iff_keepsToKind {e : Event} (admitted : switchesOrMessages e = true)
    (confined : kind ≠ .remote) (session : InSession kind w.conn) :
    Confined p kind w e ↔ KeepsToKind p kind w e := by
  cases running : w.running with
  | false =>
      have asleep := stepToEnd_of_stopped (p := p) e running
      refine iff_of_true ⟨?_, fun _ _ _ _ _ => asleep⟩ fun on => nomatch running.symm.trans on
      rw [asleep]
      exact ⟨by simp [World.awake], fun _ => id⟩
  | true =>
  have files : ∀ env fa, e = .peer env (.fileAction fa) → isPrinterSend fa = false →
      kind ≠ .fileTransfer → stepToEnd p w e = w.awake := by
    rintro env fa rfl notPrinter noFiles
    rw [stepToEnd_peer session running]
    exact fileAction_ignored (w := w.awake) session noFiles notPrinter
  have awake (w' : World) : Within kind w w' ↔ Within kind w.awake w' :=
    ⟨fun within => ⟨within.actions, within.monitors⟩, fun within => ⟨within.actions, within.monitors⟩⟩
  have within_ : Within kind w (stepToEnd p w e) ↔
      (strays p kind w e || finishStrays p w.conn e) = false := by
    rw [awake]
    cases e with
    | peer env msg =>
        have judged : Within kind w.awake (w.awake.handleEvent p (.peer env msg)) ↔
            strays p kind w (.peer env msg) = false :=
          message_within_iff (w := w.awake) session confined rfl msg
        rw [stepToEnd_peer session running, Bool.or_eq_false_iff]
        cases ends : endsSession p env msg with
        | false => simpa [finishStrays, ends] using judged
        | true =>
            have kept : strays p kind w (.peer env msg) = false := endsSession_keepsToKind ends
            obtain ⟨id, pressed⟩ := World.endsSession_keeps p env w.awake session ends
            have still := inSession_event (p := p) (w := w.awake) (.peer env msg) session
            rw [if_pos rfl, finish_within_iff still id (judged.mpr kept), pressed, and_iff_right kept,
              finishStrays, ends, Bool.true_and]
            rfl
    | cm env data =>
        cases data with
        | switchPermission name enabled =>
            rw [stepToEnd_switchPermission running]
            exact iff_of_true (switchPermission_within (w := w.awake) rfl name enabled) rfl
        | _ => cases admitted
    | _ => cases admitted
  constructor
  · exact fun confined _ => within_.mp confined.within
  · exact fun kept => ⟨within_.mpr (kept running), files⟩

/-- A session for files, for concrete runs. -/
def World.filesOpening (p : Platform) : World :=
  ((World.opening p {} ∅ false).modify fun c => { c with fileTransfer := some ("", false) }).authorize

end RemoteControl.Host
