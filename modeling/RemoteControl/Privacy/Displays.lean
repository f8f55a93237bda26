import RemoteControl.Privacy.Quiet

/-! # The displays that are replaced

The physical displays that are on are switched off in favour of a virtual one. When that does
not succeed, their settings are written back, and the others have not been touched.
-/

namespace RemoteControl.Privacy

namespace VirtualDisplay

structure Fit (m : Impl) (p : Platform) : Prop where
  active : p.active = false
  shown : p.window ≠ some true
  pending : ∀ d, p.pending d = none
  virtuals : ∀ e ∈ m.virtualDisplays, e.1.isVirtual = true
  hooked : m.connId = 0 → p.hooked = false
  displays : m.connId = 0 → m.displays = []

variable {m : Impl} {p before : Platform} {connId : Nat} {o : Outcomes} {state : Option PrivacyModeState}

theorem Fit.quiet (fit : Fit m p) (off : m.connId = 0) : p.Quiet :=
  ⟨fit.active, fit.hooked off, fit.shown, fit.pending⟩

/-- Until the new settings are committed the physical displays are as they were, and only
    those that were on are to be changed. -/
structure Prepared (before : Platform) (s : Impl × Platform) : Prop where
  displays : s.1.displays = before.displays false
  virtuals : ∀ e ∈ s.1.virtualDisplays, e.1.isVirtual = true
  off : s.1.connId = 0
  active : s.2.active = before.active
  hooked : s.2.hooked = before.hooked
  window : s.2.window = before.window
  devices : s.2.devices.filter (!·.isVirtual) = before.devices.filter (!·.isVirtual)
  settings : ∀ i, s.2.settings (.physical i) = before.settings (.physical i)
  pending : ∀ i, .physical i ∉ (before.displays false).map (·.1) → s.2.pending (.physical i) = none

/-- The displays that were off are as they were. -/
structure Replaced (before : Platform) (s : Impl × Platform) : Prop where
  displays : s.1.displays = before.displays false
  virtuals : ∀ e ∈ s.1.virtualDisplays, e.1.isVirtual = true
  off : s.1.connId = 0
  active : s.2.active = before.active
  hooked : s.2.hooked = before.hooked
  window : s.2.window = before.window
  others : ∀ i, .physical i ∉ (before.displays false).map (·.1) →
    s.2.pending (.physical i) = none ∧ s.2.settings (.physical i) = before.settings (.physical i)

variable {s : Impl × Platform} {d : Device} {answer : Except String Unit}
  {change : DevMode → DevMode} {display : Device} {ds : List Device}

theorem Prepared.replaced (prepared : Prepared before s) : Replaced before s :=
  ⟨prepared.displays, prepared.virtuals, prepared.off, prepared.active, prepared.hooked,
    prepared.window,
    fun i off => ⟨prepared.pending i off, prepared.settings i⟩⟩

/-- A display that is listed is on. -/
theorem mem_displays {isVirtual : Bool} : d ∈ (p.displays isVirtual).map (·.1) ↔
    d ∈ p.devices ∧ d.isVirtual = isVirtual ∧ (p.settings d).isActive = true := by
  simp [Platform.displays]

/-- Only the physical displays count. -/
theorem displays_congr {p p' : Platform}
    (devices : p'.devices.filter (!·.isVirtual) = p.devices.filter (!·.isVirtual))
    (settings : ∀ i, p'.settings (.physical i) = p.settings (.physical i)) :
    p'.displays false = p.displays false := by
  have split (p : Platform) : p.displays false =
      ((p.devices.filter (!·.isVirtual)).filter fun d => (p.settings d).isActive).map fun d =>
        (d, p.settings d) := by
    unfold Platform.displays
    rw [List.filter_filter]
    congr 2
    funext d
    cases d.isVirtual <;> simp
  rw [split, split, devices]
  have same : ∀ d ∈ p.devices.filter (!·.isVirtual), p'.settings d = p.settings d := by
    intro d member
    cases d with
    | physical i => exact settings i
    | «virtual» i => simp [Device.isVirtual] at member
  rw [List.filter_congr fun d member => by rw [same d member]]
  exact List.map_congr_left fun d member => by rw [same d (List.mem_of_mem_filter member)]

theorem displays_same (prepared : Prepared before s) :
    s.2.displays false = before.displays false := displays_congr prepared.devices prepared.settings

theorem prepared_start (off : m.connId = 0) (pending : ∀ d, before.pending d = none) :
    Prepared before (setDisplays m before, before) :=
  ⟨rfl, fun _ member => (mem_displays.mp (List.mem_map_of_mem member)).2.1, off, rfl, rfl, rfl, rfl,
    fun _ => rfl,
    fun _ _ => pending _⟩

theorem plug_settings (p : Platform) (o : Outcomes) (i : Nat) :
    (p.plug o).settings (.physical i) = p.settings (.physical i) := by
  unfold Platform.plug
  dsimp only
  generalize p.settings = settings
  induction o.arrived generalizing settings with
  | nil => rfl
  | cons e rest ih =>
      have other : (.physical i : Device) ≠ .virtual e.1 := nofun
      exact (ih _).trans (Function.update_of_ne other ..)

theorem plug_devices (p : Platform) (o : Outcomes) :
    (p.plug o).devices.filter (!·.isVirtual) = p.devices.filter (!·.isVirtual) := by
  simp [Platform.plug, List.filter_append, List.filter_map, Function.comp_def, Device.isVirtual]

theorem plug_prepared (prepared : Prepared before s) :
    Prepared before (setDisplays s.1 (s.2.plug o), s.2.plug o) := by
  have plugged : Prepared before (s.1, s.2.plug o) := by
    exact { prepared with
      devices := (plug_devices ..).trans prepared.devices
      settings := fun i => (plug_settings ..).trans (prepared.settings i) }
  exact { plugged with
    displays := displays_same plugged
    virtuals := fun _ member => (mem_displays.mp (List.mem_map_of_mem member)).2.1 }

theorem unplug_prepared (prepared : Prepared before s) : Prepared before (s.1, s.2.unplug o) := by
  refine { prepared with devices := ?_ }
  rw [← prepared.devices, Platform.unplug, List.filter_filter]
  congr 1
  funext d
  cases d <;> rfl

theorem ensure_prepared (prepared : Prepared before (m, p)) :
    Prepared before (ensureVirtualDisplay m p o).1 := by
  unfold ensureVirtualDisplay
  split
  case isTrue => exact prepared
  case isFalse =>
    split
    case h_1 => exact prepared
    case h_2 indices _ =>
      have plugged := plug_prepared (o := o) prepared
      dsimp only
      split
      case isTrue =>
        split
        case h_1 => exact plugged
        case h_2 => exact unplug_prepared plugged
      case isFalse => exact { plugged with }

/-- A display that is on may be given new settings. -/
theorem change_prepared {dm : DevMode} (prepared : Prepared before s)
    (listed : ∀ i, d = .physical i → d ∈ (before.displays false).map (·.1)) :
    Prepared before (s.1, (s.2.changeDisplaySettings d dm answer).1) := by
  unfold Platform.changeDisplaySettings
  split
  case h_1 =>
    refine { prepared with pending := fun i off => ?_ }
    have other : (.physical i : Device) ≠ d := fun same => off (same ▸ listed i same.symm)
    exact (Function.update_of_ne other ..).trans (prepared.pending i off)
  case h_2 => exact prepared

theorem move_prepared (prepared : Prepared before s)
    (listed : ∀ i, d = .physical i → d ∈ (before.displays false).map (·.1)) :
    Prepared before (s.1, (s.2.moveDisplay d change o).1) := by
  unfold Platform.moveDisplay
  split
  case h_1 => exact change_prepared prepared listed
  case h_2 => exact prepared

theorem forEach_prepared {change : Platform → Device → Tried Platform}
    (keeps : ∀ p, Prepared before (m, p) → ∀ d ∈ ds, Prepared before (m, (change p d).1))
    (prepared : Prepared before (m, p)) :
    Prepared before (m, (Platform.forEach change ds p).1) := by
  induction ds generalizing p with
  | nil => exact prepared
  | cons d rest ih =>
      refine Tried.next_keeps (P := fun p => Prepared before (m, p))
        (keeps p prepared d (List.mem_cons_self ..)) ?_
      exact fun p now => ih (fun p now d member => keeps p now d (List.mem_cons_of_mem _ member)) now

/-- What is on now, was on before. -/
theorem listed_of_active (prepared : Prepared before (m, p)) {i : Nat} (here : .physical i ∈ p.devices)
    (active : (p.settings (.physical i)).isActive = true) :
    .physical i ∈ (before.displays false).map (·.1) := by
  rw [← displays_same prepared]
  exact mem_displays.mpr ⟨here, rfl, active⟩

theorem setPrimary_prepared (prepared : Prepared before (m, p))
    (isVirtual : display.isVirtual = true) :
    Prepared before (m, (p.setPrimaryDisplay display o).1) := by
  unfold Platform.setPrimaryDisplay
  refine Tried.next_keeps (P := fun p => Prepared before (m, p))
    (move_prepared prepared fun i same => ?_) fun p' now => ?_
  · simp [same, Device.isVirtual] at isVirtual
  · refine forEach_prepared (fun p now d member => move_prepared now ?_) now
    rintro i rfl
    simp only [List.mem_filter, Bool.and_eq_true] at member
    exact listed_of_active prepared member.1 member.2.1

theorem disable_prepared (prepared : Prepared before (m, p)) :
    Prepared before (m, (p.disablePhysicalDisplays m.displays o).1) := by
  unfold Platform.disablePhysicalDisplays
  refine forEach_prepared (fun p now d member => change_prepared now fun _ _ => ?_) prepared
  rwa [← prepared.displays]

theorem commit_replaced (replaced : Replaced before s) :
    Replaced before (s.1, (s.2.commitChangeDisplay answer).1) := by
  unfold Platform.commitChangeDisplay
  split
  case h_1 =>
    refine { replaced with others := fun i off => ⟨rfl, ?_⟩ }
    obtain ⟨pending, settings⟩ := replaced.others i off
    simp [Platform.commit, pending, settings]
  case h_2 => exact replaced

theorem changeResolution_replaced (replaced : Replaced before s)
    (isVirtual : display.isVirtual = true) :
    Replaced before (s.1, changeResolution s.2 display o) := by
  unfold changeResolution
  split
  case isTrue =>
    refine { replaced with others := fun i off => ⟨(replaced.others i off).1, ?_⟩ }
    have other : (.physical i : Device) ≠ display := by
      rintro rfl
      cases isVirtual
    exact (Function.update_of_ne other ..).trans (replaced.others i off).2
  case isFalse => exact replaced

theorem replaceDisplays_replaced (prepared : Prepared before s) :
    Replaced before (replaceDisplays o s).1 := by
  unfold replaceDisplays
  split
  case h_1 => exact prepared.replaced
  case h_2 display dm rest here =>
    have isVirtual : display.isVirtual = true :=
      prepared.virtuals (display, dm) (here ▸ List.mem_cons_self ..)
    refine Tried.next_leads (P := Prepared before) prepared (fun _ => (·.replaced)) fun s prepared => ?_
    refine Tried.next_leads (P := Prepared before) (setPrimary_prepared prepared isVirtual)
      (fun _ => (·.replaced))
      fun s prepared => ?_
    refine Tried.next_leads (P := Prepared before) (disable_prepared prepared) (fun _ => (·.replaced))
      fun s prepared => ?_
    refine Tried.next_keeps (commit_replaced prepared.replaced) fun s replaced => ?_
    exact changeResolution_replaced replaced isVirtual

/-- Nothing waits for being committed when it has worked. -/
theorem replaceDisplays_pending (fine : (replaceDisplays o s).2 = .ok ()) :
    ∀ d, (replaceDisplays o s).1.2.pending d = none := by
  unfold replaceDisplays at fine ⊢
  split at fine
  case h_1 => cases fine
  case h_2 =>
    have settled (s : Impl × Platform) (display : Device) :
        (Tried.next (onPlatform (·.commitChangeDisplay o.commit) s) fun s =>
            ((s.1, changeResolution s.2 display o), o.regRecovery)).2 = .ok () →
          ∀ d, (Tried.next (onPlatform (·.commitChangeDisplay o.commit) s) fun s =>
            ((s.1, changeResolution s.2 display o), o.regRecovery)).1.2.pending d = none := by
      intro fine d
      cases result : o.commit with
      | error e => simp [Tried.next, onPlatform, Platform.commitChangeDisplay, result] at fine
      | ok _ =>
          simp only [Tried.next, onPlatform, Platform.commitChangeDisplay, changeResolution]
          split <;> rfl
    refine Tried.next_ensures (Q := fun s : Impl × Platform => ∀ d,
      s.2.pending d = none) (fun s => ?_) fine
    refine Tried.next_ensures (Q := fun s : Impl × Platform => ∀ d, s.2.pending d = none) fun s => ?_
    exact Tried.next_ensures (Q := fun s : Impl × Platform => ∀ d, s.2.pending d = none) fun s =>
      settled s _

/-- Restoring gives each of the displays its settings again. -/
theorem restoreDisplays_eq {l : List (Device × DevMode)} (restores : o.Restores) (p : Platform) :
    ∃ pending, p.restoreDisplays l o = { p with pending } ∧
      (∀ d, d ∉ l.map (·.1) → pending d = p.pending d) ∧
      ∀ settings : Device → DevMode, (∀ e ∈ l, e.2 = settings e.1) → ∀ d ∈ l.map (·.1),
        pending d = some (settings d) := by
  induction l generalizing p with
  | nil => exact ⟨p.pending, rfl, fun _ _ => rfl, nofun⟩
  | cons e rest ih =>
      obtain ⟨d, dm⟩ := e
      have step : (p.changeDisplaySettings d dm (if o.restore d then .ok () else .error "")).1 =
          { p with pending := Function.update p.pending d (some dm) } := by
        rw [restores.1 d]
        rfl
      obtain ⟨pending, same, others, listed⟩ :=
        ih { p with pending := Function.update p.pending d (some dm) }
      refine ⟨pending, ?_, fun d' off => ?_, fun settings agree d' member => ?_⟩
      · unfold Platform.restoreDisplays at same ⊢
        rw [List.foldl_cons, step]
        exact same
      · simp only [List.map_cons, List.mem_cons, not_or] at off
        exact (others d' off.2).trans (Function.update_of_ne off.1 ..)
      · by_cases later : d' ∈ rest.map (·.1)
        · exact listed settings (fun e here => agree e (List.mem_cons_of_mem _ here)) d' later
        · obtain rfl : d' = d := by
            simp only [List.map_cons, List.mem_cons] at member
            exact member.resolve_right later
          have own : dm = settings d' := agree (d', dm) (List.mem_cons_self ..)
          rw [others d' later, ← own]
          exact Function.update_self ..

/-- After restoring nothing waits any more, and the physical displays that were saved have
    their settings. -/
theorem restore_eq (restores : o.Restores) (m : Impl) (p : Platform)
    (virtuals : ∀ e ∈ m.virtualDisplays, e.1.isVirtual = true) :
    (restore m p o).2.active = p.active ∧ (restore m p o).2.hooked = p.hooked ∧
      (restore m p o).2.window = p.window ∧
      (∀ d, (restore m p o).2.pending d = none) ∧
      (∀ i, .physical i ∉ m.displays.map (·.1) →
        (restore m p o).2.settings (.physical i) =
          (p.pending (.physical i)).getD (p.settings (.physical i))) ∧
      ∀ settings : Device → DevMode, (∀ e ∈ m.displays, e.2 = settings e.1) →
        ∀ i, .physical i ∈ m.displays.map (·.1) →
          (restore m p o).2.settings (.physical i) = settings (.physical i) := by
  obtain ⟨pending, same, others, listed⟩ := restoreDisplays_eq (l := m.displays) restores p
  obtain ⟨pending', same', others', -⟩ :=
    restoreDisplays_eq (l := m.virtualDisplays) restores { p with pending }
  have keeps (i : Nat) : pending' (.physical i) = pending (.physical i) := by
    refine others' _ fun member => ?_
    obtain ⟨e, here, same⟩ := List.mem_map.mp member
    have := virtuals e here
    rw [same] at this
    cases this
  have after :
      (restore m p o).2 = Platform.unplug (Platform.commit { p with pending := pending' }) o := by
    unfold restore
    dsimp only
    rw [same, same', restores.2]
    rfl
  rw [after]
  refine ⟨rfl, rfl, rfl, fun _ => rfl, fun i off => ?_, fun settings agree i member => ?_⟩
  · simp [Platform.unplug, Platform.commit, keeps, others _ off]
  · simp [Platform.unplug, Platform.commit, keeps, listed settings agree _ member]

theorem turnOff_none (m : Impl) (p : Platform) (connId : Nat) (o : Outcomes)
    (quiet : p.hooked = false ∨ o.post = .ok ())
    (fine : checkOffConnId m.connId connId = .ok ()) (state : Option PrivacyModeState) :
    ∃ told, turnOffPrivacy m p connId o state =
      ⟨{ (restore m { p with hooked := false } o).1 with connId := 0 },
        { (restore m { p with hooked := false } o).2 with told }, .ok ()⟩ := by
  have unhooked : p.unhook o = ({ p with hooked := false }, .ok ()) := by
    obtain ⟨active, hooked⟩ := p
    cases hooked with
    | false => rfl
    | true => simp [Platform.unhook, quiet.resolve_left (by simp)]
  obtain ⟨told, same⟩ :=
    tell_eq (restore m { p with hooked := false } o).2 m.connId connId state implWinVirtualDisplay
  refine ⟨told, ?_⟩
  unfold turnOffPrivacy
  rw [fine, unhooked]
  dsimp only
  rw [same]

/-- The guard puts everything back. -/
theorem guarded (replaced : Replaced before s) (quiet : before.Quiet) (restores : o.Restores)
    (e : String) :
    Attempted Fit Impl.connId before
      ⟨(turnOffPrivacy s.1 s.2 0 o none).mode, (turnOffPrivacy s.1 s.2 0 o none).platform,
        .error e⟩ := by
  have fine : checkOffConnId s.1.connId 0 = .ok () := by simp [checkOffConnId]
  obtain ⟨told, same⟩ := turnOff_none s.1 s.2 0 o (.inl (replaced.hooked.trans quiet.hooked)) fine none
  obtain ⟨active, hooked, window, pending, others, saved⟩ :=
    restore_eq restores s.1 { s.2 with hooked := false } replaced.virtuals
  rw [same]
  have settings (i : Nat) : (restore s.1 { s.2 with hooked := false } o).2.settings (.physical i) =
      before.settings (.physical i) := by
    by_cases listed : .physical i ∈ (before.displays false).map (·.1)
    · refine saved before.settings ?_ i (replaced.displays ▸ listed)
      rw [replaced.displays]
      rintro e member
      obtain ⟨d, -, rfl⟩ := List.mem_map.mp member
      rfl
    · obtain ⟨none_, same⟩ := replaced.others i listed
      refine (others i (replaced.displays ▸ listed)).trans ?_
      simp [none_, same]
  have shown : (restore s.1 { s.2 with hooked := false } o).2.window ≠ some true := fun is =>
    quiet.shown (replaced.window.symm.trans (window.symm.trans is))
  have after : Platform.Quiet { (restore s.1 { s.2 with hooked := false } o).2 with told } :=
    ⟨active.trans (replaced.active.trans quiet.active), hooked, shown, pending⟩
  exact ⟨⟨after.active, after.shown, after.pending, nofun, fun _ => after.hooked, fun _ => rfl⟩,
    fun _ => ⟨rfl, view_eq quiet after settings⟩⟩

theorem turnOn_attempted (fit : Fit m p) (off : m.connId = 0) (some_ : 0 < connId)
    (restores : o.Restores) :
    Attempted Fit Impl.connId p (turnOnPrivacy m p connId o) := by
  have quiet := fit.quiet off
  have start := prepared_start (m := m) off fit.pending
  unfold turnOnPrivacy
  split
  case isTrue => exact ⟨fit, fun _ => ⟨off, rfl⟩⟩
  case isFalse =>
    simp only [checkOn_off off some_]
    split
    case isTrue none_ =>
      exact ⟨⟨fit.active, fit.shown, fit.pending, start.virtuals, fit.hooked, fun _ => none_⟩,
        fun _ => ⟨off, rfl⟩⟩
    case isFalse =>
      have replaced :
          Replaced p
          (Tried.next (ensureVirtualDisplay (setDisplays m p) p o) (replaceDisplays o)).1 :=
        Tried.next_leads (P := Prepared p) (ensure_prepared start) (fun _ => (·.replaced))
          fun _ => replaceDisplays_replaced
      have pending :
          (Tried.next (ensureVirtualDisplay (setDisplays m p) p o) (replaceDisplays o)).2 = .ok () →
          ∀ d, (Tried.next (ensureVirtualDisplay (setDisplays m p) p o)
            (replaceDisplays o)).1.2.pending d = none :=
        Tried.next_ensures (Q := fun s : Impl × Platform => ∀ d, s.2.pending d = none) fun s =>
          replaceDisplays_pending
      generalize Tried.next (ensureVirtualDisplay (setDisplays m p) p o) (replaceDisplays o) =
        after at replaced pending ⊢
      obtain ⟨⟨m', p'⟩, result⟩ := after
      cases result with
      | error e => exact guarded replaced quiet restores e
      | ok _ =>
          have hooks : ∃ hooked, (p'.hook o).1 = { p' with hooked } := by
            unfold Platform.hook
            split
            case isTrue => exact ⟨_, rfl⟩
            case isFalse => split <;> exact ⟨_, rfl⟩
          obtain ⟨hooked, same⟩ := hooks
          dsimp only
          rw [same]
          have shown : p'.window ≠ some true := by
            have window : p'.window = p.window := replaced.window
            rw [window]
            exact quiet.shown
          exact ⟨⟨replaced.active.trans quiet.active, shown, pending rfl, replaced.virtuals,
            fun no => by simp at no; omega,
            fun no => by simp at no; omega⟩, fun no => absurd rfl no⟩

/-- What has to work, with the displays of the platform. -/
structure Works (p : Platform) (o : Outcomes) : Prop where
  supported : o.iddSupported = true
  physical : p.displays false ≠ []
  plugged : p.displays true ≠ [] ∨ (∃ indices, o.plugIn = .ok indices) ∧ (p.plug o).displays true ≠ []
  readReg : o.readReg = .ok ()
  enumDisplay : ∀ d, o.enumDisplay d = .ok ()
  setPrimary : ∀ d, o.setPrimary d = .ok ()
  disable : ∀ d, o.disable d = .ok ()
  commit : o.commit = .ok ()
  regRecovery : o.regRecovery = .ok ()

/-- Each of these makes an error. -/
def Fails (o : Outcomes) : Prop :=
  o.iddSupported = false ∨ o.readReg ≠ .ok () ∨ o.commit ≠ .ok () ∨ o.regRecovery ≠ .ok ()

theorem forEach_ok {change : Platform → Device → Tried Platform}
    (fine : ∀ p, ∀ d ∈ ds, (change p d).2 = .ok ()) :
    (Platform.forEach change ds p).2 = .ok () := by
  induction ds generalizing p with
  | nil => rfl
  | cons d rest ih =>
      exact Tried.next_eq_ok.mpr
        ⟨fine p d (List.mem_cons_self ..),
          ih fun p d member => fine p d (List.mem_cons_of_mem _ member)⟩

theorem move_ok (works : Works before o) : (p.moveDisplay d change o).2 = .ok () := by
  simp [Platform.moveDisplay, Platform.changeDisplaySettings, works.enumDisplay, works.setPrimary]

theorem replaceDisplays_ok (works : Works before o) (some_ : s.1.virtualDisplays ≠ []) :
    (replaceDisplays o s).2 = .ok () := by
  unfold replaceDisplays
  split
  case h_1 none_ => exact absurd none_ some_
  case h_2 display dm rest here =>
    refine Tried.next_eq_ok.mpr ⟨works.readReg, Tried.next_eq_ok.mpr ⟨?_, Tried.next_eq_ok.mpr ⟨?_,
      Tried.next_eq_ok.mpr ⟨?_, works.regRecovery⟩⟩⟩⟩
    · exact Tried.next_eq_ok.mpr ⟨move_ok works, forEach_ok fun _ _ _ => move_ok works⟩
    · exact forEach_ok fun p d _ => by simp [Platform.changeDisplaySettings, works.disable]
    · simp [onPlatform, Platform.commitChangeDisplay, works.commit]

theorem ensure_ok (works : Works p o) : (ensureVirtualDisplay (setDisplays m p) p o).2 = .ok () ∧
    (ensureVirtualDisplay (setDisplays m p) p o).1.1.virtualDisplays ≠ [] := by
  unfold ensureVirtualDisplay
  split
  case isTrue some_ => exact ⟨rfl, some_⟩
  case isFalse none_ =>
    obtain ⟨⟨indices, plugIn⟩, arrived⟩ := works.plugged.resolve_left fun some_ => none_ some_
    have physical : (setDisplays (setDisplays m p) (p.plug o)).displays ≠ [] := by
      have same : (p.plug o).displays false = p.displays false :=
        displays_congr (plug_devices ..) (plug_settings p o)
      exact fun none_ => works.physical (same.symm.trans none_)
    rw [plugIn]
    dsimp only
    rw [if_neg physical]
    exact ⟨rfl, arrived⟩

theorem turnOn_works (off : m.connId = 0) (some_ : 0 < connId) (works : Works p o) :
    (turnOnPrivacy m p connId o).answer = .ok true := by
  obtain ⟨ready, virtuals⟩ := ensure_ok (m := m) works
  have chain :
      (Tried.next (ensureVirtualDisplay (setDisplays m p) p o) (replaceDisplays o)).2 = .ok () :=
    Tried.next_eq_ok.mpr ⟨ready, replaceDisplays_ok works virtuals⟩
  have physical : (setDisplays m p).displays ≠ [] := works.physical
  unfold turnOnPrivacy
  simp only [works.supported, Bool.not_true, Bool.false_eq_true, if_false, checkOn_off off some_,
    physical]
  generalize Tried.next (ensureVirtualDisplay (setDisplays m p) p o) (replaceDisplays o) =
    after at chain ⊢
  obtain ⟨⟨m', p'⟩, result⟩ := after
  obtain rfl := chain
  rfl

theorem turnOn_fails (off : m.connId = 0) (some_ : 0 < connId) (fails : Fails o) :
    (turnOnPrivacy m p connId o).answer ≠ .ok true := by
  have chain (s : Impl × Platform) (fine : (replaceDisplays o s).2 = .ok ()) :
      o.readReg = .ok () ∧ o.commit = .ok () ∧ o.regRecovery = .ok () := by
    unfold replaceDisplays at fine
    split at fine
    case h_1 => cases fine
    case h_2 =>
      obtain ⟨readReg, rest⟩ := Tried.next_eq_ok.mp fine
      obtain ⟨-, rest⟩ := Tried.next_eq_ok.mp rest
      obtain ⟨-, rest⟩ := Tried.next_eq_ok.mp rest
      obtain ⟨commit, regRecovery⟩ := Tried.next_eq_ok.mp rest
      refine ⟨readReg, ?_, regRecovery⟩
      cases result : o.commit with
      | ok _ => rfl
      | error e => simp [onPlatform, Platform.commitChangeDisplay, result] at commit
  unfold turnOnPrivacy
  split
  case isTrue => simp
  case isFalse supported =>
    simp only [checkOn_off off some_]
    split
    case isTrue => simp
    case isFalse =>
      cases result : (Tried.next (ensureVirtualDisplay (setDisplays m p) p o)
        (replaceDisplays o)).2 with
      | error e =>
          generalize Tried.next (ensureVirtualDisplay (setDisplays m p) p o) (replaceDisplays o) =
            after at result ⊢
          obtain ⟨⟨m', p'⟩, result'⟩ := after
          obtain rfl : result' = .error e := result
          simp
      | ok _ =>
          obtain ⟨readReg, commit, regRecovery⟩ := chain _ (Tried.next_eq_ok.mp result).2
          rcases fails with no | no | no | no
          · simp [no] at supported
          · exact absurd readReg no
          · exact absurd commit no
          · exact absurd regRecovery no

/-- Either nothing happens, or everything is put back. -/
theorem turnOff_cases (connId : Nat) (state : Option PrivacyModeState) (fit : Fit m p)
    (restores : o.Restores) :
    ((turnOffPrivacy m p connId o state).mode = m ∧ (turnOffPrivacy m p connId o state).platform = p ∧
        ((∃ e, o.post = .error e) ∨ m.connId ≠ connId)) ∨
      (turnOffPrivacy m p connId o state).platform.Quiet ∧
        (turnOffPrivacy m p connId o state).mode.connId = 0 ∧
        Fit (turnOffPrivacy m p connId o state).mode (turnOffPrivacy m p connId o state).platform ∧
        (m.connId = 0 → ∀ i, (turnOffPrivacy m p connId o state).platform.settings (.physical i) =
          p.settings (.physical i)) := by
  rcases checkOff_cases m.connId connId with ⟨-, -, other, same⟩ | fine
  · left
    unfold turnOffPrivacy
    rw [same]
    exact ⟨rfl, rfl, .inr other⟩
  · by_cases stuck : p.hooked = true ∧ ∃ e, o.post = .error e
    · obtain ⟨hooked, e, post⟩ := stuck
      left
      unfold turnOffPrivacy
      rw [fine, Platform.unhook, if_pos hooked, post]
      exact ⟨rfl, rfl, .inl ⟨e, rfl⟩⟩
    · right
      have works : p.hooked = false ∨ o.post = .ok () := by
        cases hooked : p.hooked with
        | false => exact .inl rfl
        | true =>
            cases post : o.post with
            | ok _ => exact .inr rfl
            | error e => exact absurd ⟨hooked, e, post⟩ stuck
      obtain ⟨told, same⟩ := turnOff_none m p connId o works fine state
      obtain ⟨active, hooked, window, pending, others, -⟩ :=
        restore_eq restores m { p with hooked := false } fit.virtuals
      have shown : (restore m { p with hooked := false } o).2.window ≠ some true :=
        fun is => fit.shown (window.symm.trans is)
      have after : Platform.Quiet { (restore m { p with hooked := false } o).2 with told } :=
        ⟨active.trans fit.active, hooked, shown, pending⟩
      rw [same]
      refine ⟨after, rfl,
        ⟨after.active, after.shown, after.pending, fun e member => absurd member List.not_mem_nil, fun _ => after.hooked, fun _ => rfl⟩,
        fun off i => ?_⟩
      refine (others i (by simp [fit.displays off])).trans ?_
      simp [fit.pending]

theorem turnOff_fit (fit : Fit m p) (restores : o.Restores) :
    Fit (turnOffPrivacy m p connId o state).mode (turnOffPrivacy m p connId o state).platform := by
  rcases turnOff_cases connId state fit restores with ⟨mode, platform, -⟩ | ⟨-, -, fit', -⟩
  · rw [mode, platform]
    exact fit
  · exact fit'

theorem turnOff_implKey : (turnOffPrivacy m p connId o state).mode.implKey = m.implKey := by
  unfold turnOffPrivacy
  split
  case h_1 => rfl
  case h_2 => split <;> rfl

theorem turnOn_implKey : (turnOnPrivacy m p connId o).mode.implKey = m.implKey := by
  have ensured (m : Impl) (p : Platform) : (ensureVirtualDisplay m p o).1.1.implKey = m.implKey := by
    unfold ensureVirtualDisplay
    split
    case isTrue => rfl
    case isFalse =>
      split
      case h_1 => rfl
      case h_2 =>
        dsimp only
        split
        case isTrue => split <;> rfl
        case isFalse => rfl
  have replaced (s : Impl × Platform) : (replaceDisplays o s).1.1.implKey = s.1.implKey := by
    unfold replaceDisplays
    split
    case h_1 => rfl
    case h_2 =>
      refine Tried.next_keeps
        (P := fun s' : Impl × Platform => s'.1.implKey = s.1.implKey) rfl fun _ same => ?_
      refine Tried.next_keeps
        (P := fun s' : Impl × Platform => s'.1.implKey = s.1.implKey) same fun _ same => ?_
      refine Tried.next_keeps
        (P := fun s' : Impl × Platform => s'.1.implKey = s.1.implKey) same fun _ same => ?_
      exact Tried.next_keeps
        (P := fun s' : Impl × Platform => s'.1.implKey = s.1.implKey) same fun _ same => same
  have both :
      (Tried.next (ensureVirtualDisplay (setDisplays m p) p o) (replaceDisplays o)).1.1.implKey =
      m.implKey :=
    Tried.next_keeps (P := fun s : Impl × Platform => s.1.implKey = m.implKey) (ensured ..)
      fun s same => (replaced s).trans same
  unfold turnOnPrivacy
  split
  case isTrue => rfl
  case isFalse =>
    split
    case h_1 => rfl
    case h_2 => rfl
    case h_3 =>
      dsimp only
      split
      case isTrue => rfl
      case isFalse =>
        generalize Tried.next (ensureVirtualDisplay (setDisplays m p) p o) (replaceDisplays o) =
          after at both ⊢
        obtain ⟨⟨m', p'⟩, result⟩ := after
        cases result with
        | error e => exact turnOff_implKey.trans both
        | ok _ => exact both

end VirtualDisplay

end RemoteControl.Privacy
