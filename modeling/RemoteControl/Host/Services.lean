import Mathlib.Data.Finset.Card

/-! # The services of the host and their subscribers

`Server` owns the services (clipboard, cursor, audio, one video service per
display and per camera) and hands each connection's id to the ones it may
listen to. Services are keyed by name; the names of the source are distinct
texts, a video service's being `monitor<idx>` or `camera<idx>`.

A service keeps new subscribers apart until their first snapshot. Here the two
sets are one: `is_subed` looks into both.
-/

namespace RemoteControl.Host

abbrev ConnId := Int

inductive VideoSource where
  | monitor
  | camera
  deriving DecidableEq, Repr

inductive ServiceName where
  | audio
  | display
  /-- `clipboard_service::NAME` -/
  | clipboard
  /-- `clipboard_service::FILE_NAME` -/
  | fileClipboard
  /-- `NAME_CURSOR` -/
  | cursor
  /-- `NAME_POS` -/
  | pos
  /-- `NAME_WINDOW_FOCUS` -/
  | windowFocus
  | printer
  | video (source : VideoSource) (idx : Nat)
  deriving DecidableEq, Repr

namespace ServiceName

/-- `Server::is_video_service_name` -/
def isVideo : ServiceName → Bool
  | .video _ _ => true
  | _ => false

end ServiceName

structure Server where
  services : Finset ServiceName
  subscribers : ServiceName → Finset ConnId

namespace Server

def isSubed (s : Server) (name : ServiceName) (id : ConnId) : Prop :=
  id ∈ s.subscribers name

instance (s : Server) (name : ServiceName) (id : ConnId) : Decidable (s.isSubed name id) :=
  inferInstanceAs (Decidable (id ∈ s.subscribers name))

def contains (s : Server) (name : ServiceName) : Bool := name ∈ s.services

def onSubscribe (s : Server) (name : ServiceName) (id : ConnId) : Server :=
  { s with subscribers := Function.update s.subscribers name (insert id (s.subscribers name)) }

def onUnsubscribe (s : Server) (name : ServiceName) (id : ConnId) : Server :=
  { s with subscribers := Function.update s.subscribers name ((s.subscribers name).erase id) }

/-- `services.insert(name, service)`: a new service starts without subscribers. -/
def addService (s : Server) (name : ServiceName) : Server where
  services := insert name s.services
  subscribers := Function.update s.subscribers name ∅

def subscribe (s : Server) (name : ServiceName) (id : ConnId) (sub : Bool) : Server :=
  if s.contains name then
    if decide (s.isSubed name id) = sub then s
    else if sub then s.onSubscribe name id
    else s.onUnsubscribe name id
  else s

def tryAddService (s : Server) (name : ServiceName) : Server :=
  if s.contains name then s else s.addService name

/-- `add_connection`: every service except the other displays' video services
    and those in `noperms`. -/
def addConnection (s : Server) (primary : Nat) (id : ConnId) (noperms : List ServiceName) :
    Server where
  services := s.services
  subscribers := fun name =>
    if name ∈ s.services ∧ ¬ (name.isVideo ∧ name ≠ .video .monitor primary) ∧ name ∉ noperms then
      insert id (s.subscribers name)
    else s.subscribers name

/-- `add_camera_connection`, with `primaryCamera` the index of an existing
    primary camera. -/
def addCameraConnection (s : Server) (primaryCamera : Option Nat) (id : ConnId) : Server :=
  match primaryCamera with
  | some idx => if s.contains (.video .camera idx) then s.onSubscribe (.video .camera idx) id else s
  | none => s

def removeConnection (s : Server) (id : ConnId) : Server where
  services := s.services
  subscribers := fun name =>
    if name ∈ s.services then (s.subscribers name).erase id else s.subscribers name

def getSubbedDisplaysCount (s : Server) (id : ConnId) : Nat :=
  (s.services.filter fun name => name.isVideo ∧ s.isSubed name id).card

/-- `Server::capture_displays`. The loop treats each video service on its own,
    so it is written as what happens to one of them. -/
def captureDisplays (s : Server) (id : ConnId) (source : VideoSource) (displays : List Nat)
    (include_ exclude : Bool) : Server where
  services := s.services
  subscribers := fun name =>
    if name ∈ s.services ∧ name.isVideo then
      if name ∈ displays.map (ServiceName.video source) then
        if include_ then insert id (s.subscribers name) else s.subscribers name
      else if exclude then (s.subscribers name).erase id
      else s.subscribers name
    else s.subscribers name

variable (s : Server)

@[simp] theorem subscribe_services (name : ServiceName) (id : ConnId) (sub : Bool) :
    (s.subscribe name id sub).services = s.services := by
  unfold subscribe onSubscribe onUnsubscribe
  split_ifs <;> rfl

theorem isSubed_of_removeConnection {id id' : ConnId} {name : ServiceName}
    (subed : (s.removeConnection id').isSubed name id) : s.isSubed name id := by
  simp only [isSubed, removeConnection] at subed
  split at subed
  · exact Finset.mem_of_mem_erase subed
  · exact subed

/-- A hosted service ends up in the requested state, and nobody else's
    subscription moves. -/
theorem subscribe_isSubed (name other : ServiceName) (id : ConnId) (sub : Bool) :
    (s.subscribe name id sub).isSubed other id ↔
      if other = name ∧ name ∈ s.services then sub = true else s.isSubed other id := by
  by_cases hosted : name ∈ s.services
  · by_cases same : other = name
    · subst same
      by_cases subed : s.isSubed other id <;> cases sub <;>
        simp_all [subscribe, contains, onSubscribe, onUnsubscribe, isSubed]
    · by_cases subed : s.isSubed name id <;> cases sub <;>
        simp_all [subscribe, contains, onSubscribe, onUnsubscribe, isSubed]
  · simp [subscribe, contains, hosted]

/-- Other connections are not affected. -/
theorem subscribe_isSubed_of_ne (name other : ServiceName) (sub : Bool) {id id' : ConnId}
    (different : ¬ id = id') :
    (s.subscribe name id sub).isSubed other id' ↔ s.isSubed other id' := by
  have different' : id' ≠ id := fun same => different same.symm
  by_cases same : other = name
  · subst same
    unfold subscribe onSubscribe onUnsubscribe isSubed
    split_ifs <;> simp [different']
  · unfold subscribe onSubscribe onUnsubscribe isSubed
    split_ifs <;> simp [same]

/-- A service that is added anew has no subscriber, not even one left over from
    before it was hosted. -/
theorem tryAddService_isSubed (name other : ServiceName) (id : ConnId) :
    (s.tryAddService name).isSubed other id ↔
      s.isSubed other id ∧ (other = name → name ∈ s.services) := by
  by_cases hosted : name ∈ s.services
  · simp [tryAddService, contains, hosted]
  · by_cases same : other = name
    · simp [tryAddService, contains, hosted, addService, isSubed, same]
    · simp [tryAddService, contains, hosted, addService, isSubed, same]

theorem addCameraConnection_isSubed (primaryCamera : Option Nat) (id : ConnId)
    (name : ServiceName) :
    (s.addCameraConnection primaryCamera id).isSubed name id ↔ s.isSubed name id ∨
      ∃ idx, primaryCamera = some idx ∧ name = .video .camera idx ∧ name ∈ s.services := by
  unfold addCameraConnection
  cases primaryCamera with
  | none => simp
  | some idx =>
      by_cases hosted : ServiceName.video .camera idx ∈ s.services
      · by_cases same : name = .video .camera idx
        · simp [contains, hosted, onSubscribe, isSubed, same]
        · simp [contains, hosted, onSubscribe, isSubed, same]
      · simp only [contains, hosted, decide_false, Bool.false_eq_true, if_false,
          Option.some.injEq]
        constructor
        · exact .inl
        · rintro (subed | ⟨_, rfl, rfl, member⟩)
          · exact subed
          · exact absurd member hosted

theorem addConnection_isSubed (primary : Nat) (id : ConnId) (noperms : List ServiceName)
    (name : ServiceName) :
    (s.addConnection primary id noperms).isSubed name id ↔ s.isSubed name id ∨
      (name ∈ s.services ∧ ¬ (name.isVideo ∧ name ≠ .video .monitor primary) ∧
        name ∉ noperms) := by
  unfold addConnection isSubed
  dsimp only
  split
  · rename_i subscribed
    simp [subscribed]
  · rename_i skipped
    simp only [skipped, or_false]

@[simp] theorem captureDisplays_services (id : ConnId) (source : VideoSource) (displays : List Nat)
    (include_ exclude : Bool) :
    (s.captureDisplays id source displays include_ exclude).services = s.services := rfl

theorem captureDisplays_isSubed (id : ConnId) (source : VideoSource) (displays : List Nat)
    (include_ exclude : Bool) (other : VideoSource) (idx : Nat) :
    (s.captureDisplays id source displays include_ exclude).isSubed (.video other idx) id ↔
      if ServiceName.video other idx ∈ s.services then
        if other = source ∧ idx ∈ displays then
          s.isSubed (.video other idx) id ∨ include_ = true
        else s.isSubed (.video other idx) id ∧ exclude = false
      else s.isSubed (.video other idx) id := by
  have listed : ServiceName.video other idx ∈ displays.map (ServiceName.video source) ↔
      other = source ∧ idx ∈ displays := by
    simp only [List.mem_map, ServiceName.video.injEq]
    constructor
    · rintro ⟨_, member, rfl, rfl⟩
      exact ⟨rfl, member⟩
    · rintro ⟨rfl, member⟩
      exact ⟨idx, member, rfl, rfl⟩
  unfold captureDisplays isSubed
  simp only [listed, ServiceName.isVideo, and_true]
  split_ifs <;> simp_all

theorem captureDisplays_isSubed_of_not_video (id : ConnId) (source : VideoSource)
    (displays : List Nat) (include_ exclude : Bool) {name : ServiceName}
    (notVideo : name.isVideo = false) :
    (s.captureDisplays id source displays include_ exclude).isSubed name id ↔
      s.isSubed name id := by
  simp [captureDisplays, isSubed, notVideo]

end Server

end RemoteControl.Host
