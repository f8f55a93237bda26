import RemoteControl.Host.Confinement

/-! # Captured displays

A `CaptureDisplays` message adds displays to those a connection is subscribed to, takes some of
them away, or sets them. All three are one loop over the services with two flags, of which `sub`
sets the one that takes away what is not in the list.
-/

namespace RemoteControl.Host

open Runs

namespace Server

variable {s : Server} {name : ServiceName} {id : ConnId} {source : VideoSource} {idx : Nat}

/-- A service that is hosted has the connection as a subscriber. -/
def Holds (s : Server) (name : ServiceName) (id : ConnId) : Prop := name ∈ s.services ∧ s.isSubed name id

instance (s : Server) (name : ServiceName) (id : ConnId) : Decidable (s.Holds name id) :=
  inferInstanceAs (Decidable (name ∈ s.services ∧ s.isSubed name id))

/-- A service that is missing is added without subscribers. -/
theorem tryAddService_holds (other : ServiceName) :
    (s.tryAddService other).Holds name id ↔ s.Holds name id := by
  unfold Holds
  rw [tryAddService_isSubed]
  by_cases hosted : other ∈ s.services
  · simp [tryAddService, contains, hosted]
  · by_cases same : name = other
    · simp [same, hosted]
    · simp [tryAddService, contains, addService, hosted, same]

theorem foldl_tryAddService_holds (displays : List Nat) :
    (displays.foldl (fun s d => s.tryAddService (.video source d)) s).Holds name id ↔
      s.Holds name id := by
  induction displays generalizing s with
  | nil => rfl
  | cons d rest ih => exact ih.trans (tryAddService_holds _)

/-- The loop puts in what is listed, or takes out what is not. -/
theorem captureDisplays_holds (displays : List Nat) (include_ exclude : Bool) :
    (s.captureDisplays id source displays include_ exclude).Holds (.video source idx) id ↔
      if idx ∈ displays then
        .video source idx ∈ s.services ∧ (s.isSubed (.video source idx) id ∨ include_ = true)
      else s.Holds (.video source idx) id ∧ exclude = false := by
  unfold Holds
  rw [captureDisplays_services, captureDisplays_isSubed]
  by_cases hosted : ServiceName.video source idx ∈ s.services
  · by_cases listed : idx ∈ displays
    · simp [hosted, listed]
    · simp [hosted, listed]
  · simp [hosted]

/-- Other services than the one that is subscribed to stay as they are. -/
theorem subscribe_holds_of_ne {other : ServiceName} (different : name ≠ other) (sub : Bool) :
    (s.subscribe other id sub).Holds name id ↔ s.Holds name id := by
  unfold Holds
  rw [subscribe_services, subscribe_isSubed, if_neg fun both => different both.1]

end Server

structure CaptureDisplays where
  add : List Nat
  sub : List Nat
  set : List Nat

/-- What is to become of the displays. -/
def CaptureDisplays.asked (m : CaptureDisplays) (previous : Set Nat) : Set Nat :=
  if m.add ≠ [] then previous ∪ {d | d ∈ m.add}
  else if m.sub ≠ [] then previous \ {d | d ∈ m.sub}
  else {d | d ∈ m.set}

namespace World

variable {w : World} {m : CaptureDisplays} {idx : Nat} {name : ServiceName}

def handleCapture (w : World) (m : CaptureDisplays) : World := w.captureDisplays m.add m.sub m.set

/-- The video services, of either source, that the connection is subscribed to. -/
def videoServices (w : World) : Set ServiceName :=
  {name | name.isVideo ∧ w.server.Holds name w.conn.id}

/-- The displays of the connection's own source. -/
def displays (w : World) : Set Nat := {idx | .video w.conn.videoSource idx ∈ w.videoServices}

/-- A message does what it asks for, and the connection knows whether it sees several displays. -/
structure Follows (w : World) (m : CaptureDisplays) : Prop where
  displays : (w.handleCapture m).displays = m.asked w.displays
  multi : (w.handleCapture m).conn.multiUiSession = true ↔ (w.handleCapture m).videoServices.Nontrivial

/-- Nothing is taken away, or there is nothing that could be. -/
def TakesNone (w : World) (m : CaptureDisplays) : Prop := m.add ≠ [] ∨ m.sub = [] ∨ w.displays = ∅

theorem mem_displays : idx ∈ w.displays ↔ w.server.Holds (.video w.conn.videoSource idx) w.conn.id := by
  simp [displays, videoServices, ServiceName.isVideo]

/-- The server with the services that a message names. -/
def withMissing (w : World) (m : CaptureDisplays) : Server :=
  let addMissing (s : Server) (d : Nat) : Server := s.tryAddService (.video w.conn.videoSource d)
  m.set.foldl addMissing (m.add.foldl addMissing w.server)

theorem withMissing_holds {id : ConnId} :
    (w.withMissing m).Holds name id ↔ w.server.Holds name id :=
  (Server.foldl_tryAddService_holds m.set).trans (Server.foldl_tryAddService_holds m.add)

theorem withMissing_hosts (named : idx ∈ m.add ∨ idx ∈ m.set) :
    .video w.conn.videoSource idx ∈ (w.withMissing m).services := by
  cases named with
  | inl added =>
      exact foldl_tryAddService_grows w.conn.videoSource m.set _
        (foldl_tryAddService_hosts w.conn.videoSource m.add _ added)
  | inr set => exact foldl_tryAddService_hosts w.conn.videoSource m.set _ set

/-- The server behind the loop. -/
def captured (w : World) (m : CaptureDisplays) : Server :=
  if m.add ≠ [] then (w.withMissing m).captureDisplays w.conn.id w.conn.videoSource m.add true false
  else if m.sub ≠ [] then
    (w.withMissing m).captureDisplays w.conn.id w.conn.videoSource m.sub false true
  else (w.withMissing m).captureDisplays w.conn.id w.conn.videoSource m.set true true

/-- Following the window in focus is no matter of the video services. -/
theorem mem_videoServices_handleCapture :
    name ∈ (w.handleCapture m).videoServices ↔
      name.isVideo ∧ (w.captured m).Holds name w.conn.id := by
  refine and_congr_right fun video => ?_
  have other : name ≠ .windowFocus := by
    rintro rfl
    cases video
  have server : (w.handleCapture m).server =
      if w.conn.followRemoteWindow then
        (w.captured m).subscribe .windowFocus w.conn.id
          !decide ((w.captured m).getSubbedDisplaysCount w.conn.id > 1)
      else w.captured m := rfl
  have id_ : (w.handleCapture m).conn.id = w.conn.id := rfl
  rw [server, id_]
  split
  · exact Server.subscribe_holds_of_ne other _
  · rfl

theorem mem_displays_handleCapture :
    idx ∈ (w.handleCapture m).displays ↔
      (w.captured m).Holds (.video w.conn.videoSource idx) w.conn.id := by
  have same : (w.handleCapture m).conn.videoSource = w.conn.videoSource := rfl
  have kept := @mem_videoServices_handleCapture w m (.video w.conn.videoSource idx)
  simpa [displays, same, ServiceName.isVideo] using kept

theorem multiUiSession_handleCapture :
    (w.handleCapture m).conn.multiUiSession = true ↔
      (w.handleCapture m).videoServices.Nontrivial := by
  have counted : (w.handleCapture m).conn.multiUiSession =
      decide ((w.captured m).getSubbedDisplaysCount w.conn.id > 1) := rfl
  have same : (w.handleCapture m).videoServices = ((w.captured m).services.filter fun name =>
      name.isVideo ∧ (w.captured m).isSubed name w.conn.id : Set ServiceName) := by
    ext name
    rw [mem_videoServices_handleCapture, Finset.mem_coe, Finset.mem_filter]
    exact and_left_comm
  rw [counted, decide_eq_true_iff, gt_iff_lt, Server.getSubbedDisplaysCount, same]
  exact Finset.one_lt_card_iff_nontrivial

theorem displays_of_add (adds : m.add ≠ []) :
    (w.handleCapture m).displays = w.displays ∪ {d | d ∈ m.add} := by
  ext idx
  rw [mem_displays_handleCapture, captured, if_pos adds, Server.captureDisplays_holds]
  by_cases added : idx ∈ m.add
  · simp [added, @withMissing_hosts w m idx (.inl added)]
  · simp [added, withMissing_holds, mem_displays]

/-- The slip: what stays is what was to be taken away. -/
theorem displays_of_sub (adds : m.add = []) (subs : m.sub ≠ []) :
    (w.handleCapture m).displays = w.displays ∩ {d | d ∈ m.sub} := by
  ext idx
  rw [mem_displays_handleCapture, captured, if_neg (not_not.mpr adds), if_pos subs,
    Server.captureDisplays_holds]
  by_cases named : idx ∈ m.sub
  · have kept : .video w.conn.videoSource idx ∈ (w.withMissing m).services ∧
        (w.withMissing m).isSubed (.video w.conn.videoSource idx) w.conn.id ↔ idx ∈ w.displays :=
      withMissing_holds.trans mem_displays.symm
    simpa [named] using kept
  · simp [named]

theorem displays_of_set (adds : m.add = []) (subs : m.sub = []) :
    (w.handleCapture m).displays = {d | d ∈ m.set} := by
  ext idx
  rw [mem_displays_handleCapture, captured, if_neg (not_not.mpr adds), if_neg (not_not.mpr subs),
    Server.captureDisplays_holds]
  by_cases named : idx ∈ m.set
  · simp [named, @withMissing_hosts w m idx (.inr named)]
  · simp [named]

/-- What one message does is what it asks for, but for displays that are to be taken away. -/
theorem follows_iff_takesNone : w.Follows m ↔ w.TakesNone m := by
  have follows : w.Follows m ↔ (w.handleCapture m).displays = m.asked w.displays :=
    ⟨Follows.displays, fun displays => ⟨displays, multiUiSession_handleCapture⟩⟩
  rw [follows, CaptureDisplays.asked, TakesNone]
  by_cases adds : m.add = []
  · by_cases subs : m.sub = []
    · simp [displays_of_set adds subs, adds, subs]
    · have apart : w.displays ∩ {d | d ∈ m.sub} = w.displays \ {d | d ∈ m.sub} ↔ w.displays = ∅ := by
        constructor
        · intro same
          ext idx
          have here := Set.ext_iff.mp same idx
          simp only [Set.mem_inter_iff, Set.mem_sdiff, Set.mem_ofPred_eq] at here
          simp only [Set.mem_empty_iff_false, iff_false]
          tauto
        · intro none
          simp [none]
      simpa [displays_of_sub adds subs, adds, subs] using apart
  · simp [displays_of_add adds, adds]

/-- Every message of a run does what it asks for, if and only if none takes displays away from a
connection that has any. -/
theorem along_follows_iff (w : World) (messages : List CaptureDisplays) :
    Along handleCapture Follows w messages ↔ Along handleCapture TakesNone w messages := by
  have same : @Follows = @TakesNone := by
    funext w m
    exact propext follows_iff_takesNone
  rw [same]

/-- A connection with display 0 is to lose it and keeps it. -/
theorem not_along_follows :
    ¬∀ (w : World) (messages : List CaptureDisplays), Along handleCapture Follows w messages := by
  intro law
  let w := (World.opening (.plain .linux) {} ∅ false).handleCapture ⟨[], [], [0]⟩
  have along := law (World.opening (.plain .linux) {} ∅ false) [⟨[], [], [0]⟩, ⟨[], [0], []⟩]
  have kept : 0 ∈ (w.handleCapture ⟨[], [0], []⟩).displays := mem_displays.mpr (by decide)
  rw [along.2.1.displays] at kept
  exact kept.2 List.mem_cons_self

end World

end RemoteControl.Host
