import RemoteControl.Host.Session

/-! # Withdrawn permissions

The user at the host may withdraw a permission at any time of a session. From then
on no message of the peer is to have the effect the permission stands for.
`respects` says which permission an action needs; `oversteps` finds the messages
whose handler takes an action without asking for it, be it behind the loop that the
message ends.
-/

namespace RemoteControl.Host

open Runs World

namespace ClipboardFile

/-- Brings content of the peer's clipboard to the host. -/
def appliesContent : ClipboardFile → Bool
  | .formatList _ | .formatDataResponse _ _ | .fileContentsResponse _ _ _ => true
  | _ => false

/-- Is answered by the clipboard of the host with its files. -/
def asksForFiles : ClipboardFile → Bool
  | .formatDataRequest _ | .fileContentsRequest _ _ _ _ _ _ => true
  | _ => false

/-- Carries a list of files or the content of one. -/
def carriesFiles : ClipboardFile → Bool
  | .formatDataResponse _ data | .fileContentsResponse _ _ data => data ≠ []
  | _ => false

end ClipboardFile

/-- The host's files may go to the peer. -/
def sharesFiles (p : Platform) (c : Connection) : Bool := c.file && !p.oneWayFileTransfer

/-- Whether the permissions of the connection cover an action. -/
def respects (p : Platform) (c : Connection) : Action → Bool
  | .inputMouse _ simulate _ => !simulate || c.keyboard
  | .inputPointer | .inputKey _ _ | .mainServiceInput | .releaseModifier _ => c.keyboard
  | .changeResolution _ _ | .resetResolution _ _ | .turnOnPrivacy _ | .turnOffPrivacy => c.keyboard
  | .blockOn | .blockOff => c.keyboard && c.blockInput
  | .reboot => c.restart
  | .updateClipboard _ | .updateClipboardFiles _ | .fuseFileContents _ => c.clipboard
  | .serverClipFile clip =>
      (!clip.appliesContent || c.clipboard) && (!clip.asksForFiles || sharesFiles p c)
  | .send (.cliprdr clip) => !clip.carriesFiles || sharesFiles p c
  | _ => true

/-- The step takes no action that the permissions before it do not cover. -/
def Respected (p : Platform) (w : World) (e : Event) : Prop :=
  ∀ a ∈ (stepToEnd p w e).out, respects p w.conn a = true

instance (p : Platform) (w : World) (e : Event) : Decidable (Respected p w e) :=
  inferInstanceAs (Decidable (∀ a ∈ (stepToEnd p w e).out, _))

/-- The file clipboard of a Linux or macOS host, which knows no permissions. -/
def serveOversteps (p : Platform) (env : Env) (c : Connection) : ClipboardFile → Bool
  | .formatDataRequest _ => env.fileListPdu ≠ [] && !sharesFiles p c
  | .fileContentsRequest _ _ _ _ _ _ =>
      env.readFileContents.any (fun res => res.any (·.carriesFiles)) && !sharesFiles p c
  | .formatDataResponse _ _ =>
      p.os = .linux && env.fuseOk && env.formatDataParses && !c.clipboard
  | .fileContentsResponse _ _ _ => p.os = .linux && env.fuseOk && !c.clipboard
  | _ => false

/-- On Windows the connection manager stops what needs the `file` permission, and
    nothing else. -/
def clipOversteps (p : Platform) (env : Env) (c : Connection) (clip : ClipboardFile) : Bool :=
  let contentOversteps := clip.appliesContent && !c.clipboard
  if p.os = .windows then
    (clip.isBeginningMessage || env.clipContextEnabled && c.file) &&
      (contentOversteps || clip.asksForFiles && p.oneWayFileTransfer)
  else if c.lr.version ≥ version1_3_8 then
    if p.os = .macos && shouldHandleMsg clip then contentOversteps else serveOversteps p env c clip
  else false

def messageOversteps (p : Platform) (env : Env) (c : Connection) : Message → Bool
  | .misc (.togglePrivacyMode _ _) => env.isPrivacyModeSupported && !c.keyboard
  | .misc (.toggleVirtualDisplay _ on) => resetsResolutions p env on && !c.keyboard
  | .cliprdr (some clip) =>
      p.hasCliprdr && (match clip with | .files _ => false | _ => clipOversteps p env c clip)
  | _ => false

/-- The end of a connection leaves its privacy mode and lets its modifiers go. That of
    the last remote one brings resolutions back and on Windows ends any privacy mode. -/
def finishOversteps (p : Platform) (env : Env) (c : Connection) : Bool :=
  !c.keyboard &&
      (env.privacyModeConnId = some c.id || c.pressedModifiers ≠ [] ||
        env.remoteCount = 0 && (env.changedResolutions.entries ≠ [] ||
          p.os = .windows && env.privacyModeConnId.any (· ≠ 0))) ||
    env.blockInputMode && !(c.keyboard && c.blockInput)

def oversteps (p : Platform) (c : Connection) : Event → Bool
  | .peer env msg =>
      messageOversteps p env c msg || endsSession p env msg && finishOversteps p env c
  | _ => false

/-- While the loop runs, no message of `oversteps` is handled. -/
def Covered (p : Platform) (w : World) (e : Event) : Prop :=
  w.running = true → oversteps p w.conn e = false

instance (p : Platform) (w : World) (e : Event) : Decidable (Covered p w e) :=
  inferInstanceAs (Decidable (_ → _))

variable {p : Platform} {env : Env} {w : World} {c : Connection} {a : Action}

/-- Outside the messages of `oversteps` the handlers ask for what they need. -/
theorem Allowed.respects {msg : Message} (desktop : p.isDesktop = true)
    (privacy : msg.togglesPrivacy = true → c.keyboard = true)
    (plugs : msg.plugsIn = true → c.keyboard = true) (notClip : msg.isCliprdr = false)
    (allowed : Allowed p c msg a) : Host.respects p c a = true := by
  cases a with
  | inputMouse me simulate showCursor =>
      cases simulate with
      | false => rfl
      | true => exact ((allowed rfl).2.2 desktop).1
  | inputPointer | inputKey _ _ | mainServiceInput => exact (allowed.2.2 desktop).1
  | changeResolution _ _ => exact allowed.1
  | resetResolution _ _ => exact plugs allowed
  | turnOnPrivacy _ | turnOffPrivacy => exact allowed.elim (fun on => on) privacy
  | releaseModifier _ => exact allowed.elim
  | blockOn | blockOff => exact Bool.and_eq_true_iff.mpr allowed
  | reboot => exact allowed
  | updateClipboard _ => exact allowed desktop
  | updateClipboardFiles _ | serverClipFile _ | fuseFileContents _ =>
      exact nomatch notClip.symm.trans allowed
  | send m =>
      cases m with
      | cliprdr clip => exact nomatch notClip.symm.trans allowed
      | _ => rfl
  | _ => rfl

theorem Allowed.respects_of_plain (desktop : p.isDesktop = true) (allowed : Allowed p c .other a) :
    Host.respects p c a = true :=
  allowed.respects desktop Bool.noConfusion Bool.noConfusion rfl

theorem respects_of_isLoginReply (reply : a.isLoginReply = true) : respects p c a = true := by
  cases a with
  | send m => cases m <;> first | rfl | cases reply
  | _ => first | rfl | cases reply

/-- The actions of a handler that starts with none. -/
theorem Effect.respected {acts : Action → Prop} {subs : ServiceName → Prop} {w w' : World}
    (effect : Effect acts subs w w') (start : w.out = [])
    (covered : ∀ a, acts a → respects p c a = true) : ∀ a ∈ w'.out, respects p c a = true := by
  intro a member
  rcases effect.out a member with earlier | allowed
  · rw [start] at earlier
    cases earlier
  · exact covered a allowed

theorem switchPermission_respected (start : w.out = []) (name : String) (enabled : Bool)
    (c : Connection) : ∀ a ∈ (w.switchPermission p name enabled).out, respects p c a = true := by
  obtain ⟨_, effect⟩ := switchPermission_effect p w name enabled
  refine effect.respected start fun a reply => ?_
  cases a with
  | send m => cases m <;> first | rfl | exact reply.elim
  | _ => first | rfl | exact reply.elim

theorem handleTestDelay_respected (start : w.out = []) (fromClient : Bool) (c : Connection) :
    ∀ a ∈ (w.handleTestDelay fromClient).out, respects p c a = true := by
  unfold handleTestDelay
  split_ifs <;> simp [start, respects]

theorem turnOnPrivacy_mem {implKey : String} (supported : env.isPrivacyModeSupported = true) :
    .turnOnPrivacy implKey ∈ (w.turnOnPrivacy env implKey).out := by
  simp only [World.turnOnPrivacy, supported, turnOffPrivacyToMsg]
  split
  · contradiction
  · split <;> split_ifs <;> simp

/-- Privacy mode is toggled for whoever asks, if the host has it at all. -/
theorem togglePrivacyMode_respected_iff (desktop : p.isDesktop = true) (start : w.out = [])
    (implKey : String) (on : Bool) :
    (∀ a ∈ (w.togglePrivacyMode env implKey on).out, respects p w.conn a = true) ↔
      (env.isPrivacyModeSupported && !w.conn.keyboard) = false := by
  by_cases keyboard : w.conn.keyboard = true
  · have effect : Effect (Allowed p w.conn (.misc (.togglePrivacyMode implKey on))) (fun _ => True)
        w (w.togglePrivacyMode env implKey on) :=
      togglePrivacyMode_effect p env w implKey on rfl
    refine iff_of_true (effect.respected start fun a allowed => ?_) (by simp [keyboard])
    exact allowed.respects desktop (fun _ => keyboard) (fun _ => keyboard) rfl
  by_cases supported : env.isPrivacyModeSupported = true
  · refine iff_of_false (fun respected => keyboard ?_) (by simp [supported, keyboard])
    cases on with
    | false => exact respected .turnOffPrivacy (by simp [togglePrivacyMode, turnOffPrivacy,
        turnOffPrivacyToMsg, supported])
    | true => exact respected (.turnOnPrivacy implKey) (turnOnPrivacy_mem supported)
  · refine iff_of_true ?_ (by simp [supported])
    cases on <;> simp [togglePrivacyMode, turnOnPrivacy, turnOffPrivacy, supported, start, respects]

theorem sendClipMessages_mem (msgs : List ClipboardFile) :
    a ∈ (w.sendClipMessages msgs).out ↔
      a ∈ w.out ∨ ∃ msg ∈ msgs, (∀ names, msg ≠ .files names) ∧ a = .send (.cliprdr msg) := by
  induction msgs generalizing w with
  | nil => simp [sendClipMessages]
  | cons msg rest ih =>
      have next : w.sendClipMessages (msg :: rest) =
          (match msg with | .files _ => w | msg => w.send (.cliprdr msg)).sendClipMessages rest :=
        rfl
      rw [next, ih]
      cases msg <;> simp [or_assoc, or_comm]

/-- The answers of the file clipboard are covered unless they carry files. -/
theorem sendClipMessages_respected_iff (start : w.out = []) (msgs : List ClipboardFile) :
    (∀ a ∈ (w.sendClipMessages msgs).out, respects p c a = true) ↔
      (msgs.any (·.carriesFiles) && !sharesFiles p c) = false := by
  simp only [sendClipMessages_mem, start, List.not_mem_nil, false_or]
  constructor
  · intro respected
    by_contra overstep
    simp only [Bool.not_eq_false, Bool.and_eq_true, List.any_eq_true, Bool.not_eq_true'] at overstep
    obtain ⟨⟨msg, member, carries⟩, withheld⟩ := overstep
    have notFiles : ∀ names, msg ≠ .files names := by
      rintro names rfl
      cases carries
    have covered := respected _ ⟨msg, member, notFiles, rfl⟩
    simp [respects, carries, withheld] at covered
  · rintro covered _ ⟨msg, member, -, rfl⟩
    simp only [respects]
    by_cases carries : msg.carriesFiles = true
    · have some_ : msgs.any (·.carriesFiles) = true := List.any_eq_true.mpr ⟨msg, member, carries⟩
      exact Bool.or_eq_true_iff.mpr (.inr (by simpa [some_] using covered))
    · simp [carries]

theorem serveClipMessages_respected_iff (start : w.out = []) (clip : ClipboardFile) :
    (∀ a ∈ ((w.serveClipMessages p env clip).1.sendClipMessages
      (w.serveClipMessages p env clip).2).out, respects p w.conn a = true) ↔
      serveOversteps p env w.conn clip = false := by
  -- a message that is only answered is judged by its answers
  have answered (msgs : List ClipboardFile) := sendClipMessages_respected_iff (p := p)
    (c := w.conn) start msgs
  cases clip with
  | formatList formats =>
      simp only [serveClipMessages, serveOversteps]
      split_ifs
      · split
        · exact (answered _).trans (iff_of_true rfl trivial)
        · exact (answered _).trans (iff_of_true rfl trivial)
      · exact (answered _).trans (iff_of_true rfl trivial)
  | formatDataRequest id =>
      simp only [serveClipMessages, serveOversteps]
      split_ifs with listed
      · rw [answered]
        simp [ClipboardFile.carriesFiles, listed]
      · rw [answered]
        simp [ClipboardFile.carriesFiles, listed]
  | formatDataResponse flags data =>
      simp only [serveClipMessages, serveOversteps]
      split_ifs with applied
      · rw [applied]
        simp [sendClipMessages, start, respects]
      · refine (answered _).trans (iff_of_true rfl ?_)
        rw [Bool.eq_false_iff.mpr applied, Bool.false_and]
  | fileContentsRequest streamId listIndex dwFlags low high requested =>
      simp only [serveClipMessages, serveOversteps]
      rw [answered, List.any_map]
      have same (res : Option ClipboardFile) :
          (res.getD (.fileContentsResponse 2 streamId [])).carriesFiles =
            res.any (·.carriesFiles) := by
        cases res <;> rfl
      simp only [Function.comp_def, same]
  | fileContentsResponse flags streamId data =>
      simp only [serveClipMessages, serveOversteps]
      split_ifs with applied
      · rw [applied]
        simp [sendClipMessages, start, respects]
      · refine (answered _).trans (iff_of_true rfl ?_)
        rw [Bool.eq_false_iff.mpr applied, Bool.false_and]
  | tryEmpty => simp [serveClipMessages, serveOversteps, sendClipMessages, start, respects]
  | monitorReady | formatListResponse _ | files _ =>
      exact (answered _).trans (iff_of_true rfl rfl)

/-- The gate of the connection manager on Windows. -/
theorem cmClipboardFile_respected_iff (windows : p.os = .windows) (start : w.out = [])
    (clip : ClipboardFile) :
    (∀ a ∈ ((w.sendToCm (.clipboardFile clip)).cmClipboardFile env clip).out,
      respects p w.conn a = true) ↔ clipOversteps p env w.conn clip = false := by
  simp only [cmClipboardFile, clipOversteps, windows, if_true]
  cases clip <;> cases env.clipContextEnabled <;> cases file : w.conn.file <;>
    simp [start, respects, sharesFiles, file, ClipboardFile.appliesContent,
      ClipboardFile.asksForFiles, ClipboardFile.isBeginningMessage]

theorem onCliprdr_respected_iff (start : w.out = []) (clip : Option ClipboardFile) :
    (∀ a ∈ (w.onCliprdr p env clip).out, respects p w.conn a = true) ↔
      messageOversteps p env w.conn (.cliprdr clip) = false := by
  have idle : (∀ a ∈ w.out, respects p w.conn a = true) := by simp [start]
  by_cases has : p.hasCliprdr = true
  swap
  · have unfolded : w.onCliprdr p env clip = w := if_pos (by simpa using has)
    rw [unfolded]
    refine iff_of_true idle ?_
    cases clip <;> simp [messageOversteps, has]
  cases clip with
  | none => exact iff_of_true (by simpa [onCliprdr] using idle) rfl
  | some clip =>
      by_cases files : ∃ names, clip = .files names
      · obtain ⟨names, rfl⟩ := files
        exact iff_of_true (by simpa [onCliprdr] using idle) (by simp [messageOversteps])
      have handled : w.onCliprdr p env (some clip) =
          if p.os = .windows then (w.sendToCm (.clipboardFile clip)).cmClipboardFile env clip
          else if w.conn.lr.version ≥ version1_3_8 then
            if p.os = .macos && shouldHandleMsg clip then w.emit (.serverClipFile clip)
            else (w.serveClipMessages p env clip).1.sendClipMessages
              (w.serveClipMessages p env clip).2
          else w := by
        unfold onCliprdr
        rw [if_neg (by simp [has])]
        cases clip <;> first | rfl | exact absurd ⟨_, rfl⟩ files
      have judged : messageOversteps p env w.conn (.cliprdr (some clip)) =
          clipOversteps p env w.conn clip := by
        simp only [messageOversteps, has, Bool.true_and]
        split
        · exact absurd ⟨_, rfl⟩ files
        · rfl
      rw [handled, judged]
      by_cases windows : p.os = .windows
      · rw [if_pos windows]
        exact cmClipboardFile_respected_iff windows start clip
      simp only [clipOversteps, if_neg windows]
      split_ifs with version macos
      · obtain ⟨-, handles⟩ := Bool.and_eq_true_iff.mp macos
        cases clip <;> first
          | simp [start, respects, ClipboardFile.appliesContent, ClipboardFile.asksForFiles]; done
          | cases handles
      · exact serveClipMessages_respected_iff start clip
      · exact iff_of_true idle rfl

theorem messageOversteps_eq_false {msg : Message} (privacy : msg.togglesPrivacy = false)
    (plugs : msg.plugsIn = false) (notClip : msg.isCliprdr = false) :
    messageOversteps p env c msg = false := by
  cases msg with
  | misc m =>
      cases m with
      | togglePrivacyMode _ _ => cases privacy
      | toggleVirtualDisplay display on =>
          obtain rfl : on = false := plugs
          simp [messageOversteps, resetsResolutions]
      | _ => rfl
  | cliprdr clip => cases notClip
  | _ => rfl

theorem message_respected_iff (desktop : p.isDesktop = true) (start : w.out = [])
    (session : InSession .remote w.conn) (msg : Message) :
    (∀ a ∈ (w.handleEvent p (.peer env msg)).out, respects p w.conn a = true) ↔
      messageOversteps p env w.conn msg = false := by
  by_cases login : msg.isLogin = true
  · refine iff_of_true ?_ (by cases msg <;> first | rfl | cases login)
    have settled := (onMessage_answered p env (w := w) login session.authorized).settled
    simp only [handleEvent, afterMessage_out]
    intro a member
    rcases settled.out a member with earlier | reply
    · rw [start] at earlier
      cases earlier
    · exact respects_of_isLoginReply reply
  have notLogin : msg.isLogin = false := by simpa using login
  by_cases delay : ∃ fromClient, msg = .testDelay fromClient
  · obtain ⟨fromClient, rfl⟩ := delay
    refine iff_of_true ?_ rfl
    simp only [handleEvent, afterMessage_out]
    exact handleTestDelay_respected start fromClient w.conn
  by_cases close : ∃ reason, msg = .misc (.closeReason reason)
  · obtain ⟨reason, rfl⟩ := close
    have closed : Effect (Allowed p w.conn .other) (fun _ => True) w (w.onClose p true) :=
      onClose_effect p w true
    refine iff_of_true ?_ rfl
    simp only [handleEvent, afterMessage_out]
    exact closed.respected start fun _ => Allowed.respects_of_plain desktop
  rw [session.handle notLogin (fun fromClient same => delay ⟨fromClient, same⟩)
    (fun reason same => close ⟨reason, same⟩), afterMessage_out]
  by_cases isClip : msg.isCliprdr = true
  · cases msg with
    | cliprdr clip => exact onCliprdr_respected_iff start clip
    | _ => cases isClip
  by_cases privacy : msg.togglesPrivacy = true
  · cases msg with
    | misc m =>
        cases m with
        | togglePrivacyMode implKey on =>
            exact togglePrivacyMode_respected_iff desktop start implKey on
        | _ => cases privacy
    | _ => cases privacy
  by_cases plugs : msg.plugsIn = true
  · cases msg with
    | misc m =>
        cases m with
        | toggleVirtualDisplay display on =>
            refine (forall_toggleVirtualDisplay_iff (b := w.conn.keyboard = true)
              (fun _ => Allowed.respects_of_plain desktop) fun _ _ => .rfl).trans ?_
            simp [start, messageOversteps]
        | _ => cases plugs
    | _ => cases plugs
  · have notClip : msg.isCliprdr = false := by simpa using isClip
    have effect := onAuthorizedMessage_effect p env w msg
    refine iff_of_true (effect.respected start fun a allowed => ?_)
      (messageOversteps_eq_false (by simpa using privacy) (by simpa using plugs) notClip)
    exact allowed.respects desktop (fun toggles => absurd toggles privacy)
      (fun plugsIn => absurd plugsIn plugs) notClip

theorem finish_respected_iff (desktop : p.isDesktop = true) {kind : AuthConnType}
    (session : InSession kind w.conn) (id : w.conn.id = c.id)
    (pressed : w.conn.pressedModifiers = c.pressedModifiers) :
    (∀ a ∈ (w.finish p env).out, respects p c a = true) ↔
      (∀ a ∈ w.out, respects p c a = true) ∧ finishOversteps p env c = false := by
  have plain (a : Action) (allowed : Allowed p c .other a) : respects p c a = true :=
    allowed.respects_of_plain desktop
  rw [forall_finish_iff session plain, forall_dropConnection_iff session.registered plain, id, pressed]
  refine and_congr_right fun _ => ?_
  simp only [respects, finishOversteps, desktop, forall_mem_const, Resolutions.restorePass]
  cases c.keyboard with
  | true => simp
  | false => simp [and_assoc]

/-- A step respects the permissions exactly when its message is not one of
    `oversteps`. -/
theorem respected_iff_covered (desktop : p.isDesktop = true) {e : Event}
    (admitted : switchesOrMessages e = true) (session : InSession .remote w.conn) :
    Respected p w e ↔ Covered p w e := by
  cases running : w.running with
  | false =>
      unfold Respected Covered
      rw [stepToEnd_of_stopped e running]
      exact iff_of_true (by simp [World.awake]) fun on => nomatch running.symm.trans on
  | true =>
  unfold Respected Covered
  rw [imp_iff_right running]
  cases e with
  | peer env msg =>
      have judged : (∀ a ∈ (w.awake.handleEvent p (.peer env msg)).out,
          respects p w.conn a = true) ↔ messageOversteps p env w.conn msg = false :=
        message_respected_iff (w := w.awake) desktop rfl session msg
      have still := inSession_event (p := p) (w := w.awake) (.peer env msg) session
      rw [stepToEnd_peer session running]
      cases ends : endsSession p env msg with
      | false => simpa [oversteps, ends] using judged
      | true =>
          obtain ⟨id, pressed⟩ := World.endsSession_keeps p env w.awake session ends
          rw [if_pos rfl, finish_respected_iff (c := w.conn) desktop still id pressed, judged]
          simp [oversteps, ends]
  | cm env data =>
      cases data with
      | switchPermission name enabled =>
          rw [stepToEnd_switchPermission running]
          exact iff_of_true (switchPermission_respected (w := w.awake) rfl name enabled w.conn) rfl
      | _ => cases admitted
  | _ => cases admitted

end RemoteControl.Host
