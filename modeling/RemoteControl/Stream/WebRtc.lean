import Mathlib.Data.List.AList
import RemoteControl.Base64
import RemoteControl.Runs
import RemoteControl.RustStrings
import RemoteControl.Utf8

/-! # WebRTC sessions

`WebRTCStream::new` keeps the streams it makes in `SESSIONS`, under the fingerprint in the
offer. It looks there before it makes a peer connection, and again before it inserts the
stream: of two calls with the same offer, the one that comes second closes its connection.

When a connection goes down, its callback takes the entry with the connection's fingerprint
out of `SESSIONS`, whosever stream that is.
-/

namespace RemoteControl.Stream.WebRtc

open Runs (exec Always Along)
open RustStrings (quote backslash push)

abbrev Text := List Char

structure Attribute where
  key : Text
  value : Option Text

structure MediaDescription where
  /-- `media_name.media` -/
  media : Text
  attributes : List Attribute

structure SessionDescription where
  attributes : List Attribute := []
  mediaDescriptions : List MediaDescription := []

/-- `SessionDescription::attribute` -/
def SessionDescription.attribute (d : SessionDescription) (key : Text) : Option Text :=
  (d.attributes.find? (·.key = key)).bind (·.value)

def scheme : Text := "webrtc://".toList

def getRemoteOffer (endpoint : Text) : Except String Text :=
  if scheme <+: endpoint then
    match Base64.decode (Utf8.encode (endpoint.drop scheme.length)) with
    | some decoded =>
        match Utf8.fromUtf8 decoded with
        | some offer => .ok offer
        | none => .error "Failed to convert decoded bytes to UTF-8"
    | none => .error "Failed to decode Base64 SDP"
  else .error "Invalid WebRTC endpoint format"

def sdpToEndpoint (sdp : Text) : Text := scheme ++ Utf8.ofAscii (Base64.encode (Utf8.encode sdp))

theorem getRemoteOffer_sdpToEndpoint (sdp : Text) : getRemoteOffer (sdpToEndpoint sdp) = .ok sdp := by
  have ascii := Base64.encode_ascii (Utf8.encode sdp)
  rw [getRemoteOffer, sdpToEndpoint, if_pos (List.prefix_append ..), List.drop_left,
    Utf8.encode_ofAscii ascii, Base64.decode_encode]
  dsimp only
  rw [Utf8.fromUtf8_encode]

def fingerprint : Text := "fingerprint".toList

/-- The fingerprint in the first media description for a data channel that has one. -/
def mediaFingerprint (medias : List MediaDescription) : Option Text :=
  medias.findSome? fun media =>
    if media.media ≠ "application".toList then none
    else (media.attributes.find? (·.key = fingerprint)).bind (·.value)

def SessionDescription.key (binding : SessionDescription) : Except String Text :=
  match binding.attribute fingerprint with
  | some fingerprint => .ok fingerprint
  | none =>
      match mediaFingerprint binding.mediaDescriptions with
      | some fp => .ok fp
      | none => .error "SDP fingerprint attribute not found"

/-- What is taken from `webrtc` and `serde_json`, as far as it is documented. The local
    description is the one that was set, with the candidates gathered since: they leave
    the fingerprints alone. -/
structure Api (Sdp : Type) where
  fromJson : Text → Except String Sdp
  unmarshal : Sdp → Except String SessionDescription
  withCandidates : Sdp → Sdp
  key_withCandidates : ∀ sdp,
    (unmarshal (withCandidates sdp)).bind SessionDescription.key =
      (unmarshal sdp).bind SessionDescription.key

variable {Sdp : Type} (api : Api Sdp)

def getKeyForSdp (sdp : Sdp) : Except String Text :=
  (api.unmarshal sdp).bind SessionDescription.key

def getKeyForSdpJson (sdpJson : Text) : Except String Text :=
  if sdpJson = [] then .ok [] else (api.fromJson sdpJson).bind (getKeyForSdp api)

/-- `RTCPeerConnectionState` -/
inductive ConnectionState where
  | unspecified
  | new
  | connecting
  | connected
  | disconnected
  | failed
  | closed
  deriving DecidableEq

def ConnectionState.isDown : ConnectionState → Bool
  | .disconnected | .failed | .closed => true
  | _ => false

/-- How far the call of `new` is that has made the connection. -/
inductive Phase where
  | describing
  /-- The remote offer is set, and the answer comes next. -/
  | answering
  /-- The final section comes next, with this key. -/
  | ready (key : Text)
  | returned
  deriving DecidableEq

structure PeerConnection (Sdp : Type) where
  remoteOffer : Text := []
  localDescription : Option Sdp := none
  remoteDescription : Option Sdp := none
  msTimeout : Nat := 0
  phase : Phase := .returned
  /-- The key its stream was inserted under. -/
  insertedAs : Option Text := none
  /-- It has been disconnected, failed or closed. -/
  wasDown : Bool := false
  /-- A callback for that has run. -/
  cleaned : Bool := false

/-- `start_local_offer` -/
def PeerConnection.startLocalOffer (pc : PeerConnection Sdp) : Bool := pc.remoteOffer.isEmpty

/-- `get_key_for_peer` -/
def PeerConnection.getKeyForPeer (pc : PeerConnection Sdp) (isLocal : Bool) : Except String Text :=
  match if isLocal then pc.localDescription.map api.withCandidates else pc.remoteDescription with
  | some desc => getKeyForSdp api desc
  | none => .error "PeerConnection description is not set"

/-- A stream is known by its connection. -/
structure WebRTCStream where
  pc : Nat
  sendTimeout : Nat
  deriving DecidableEq

structure State (Sdp : Type) where
  /-- `SESSIONS` -/
  sessions : AList (fun _ : Text => WebRTCStream) := ∅
  pcs : Nat → PeerConnection Sdp := fun _ => {}
  /-- How many connections were made so far. -/
  made : Nat := 0
  /-- The connections of the callbacks that have not come to their section yet. -/
  callbacks : List Nat := []

inductive Event (Sdp : Type) where
  /-- A call of `new` looks into `SESSIONS`; if nothing is there it makes a connection and
      sets its callback, unless that fails. -/
  | call (remoteEndpoint : Text) (msTimeout : Nat) (makes : Bool)
  | setRemoteDescription (pc : Nat)
  /-- The offer or the answer that was made is set, and its candidates are gathered. -/
  | setLocalDescription (pc : Nat) (sdp : Sdp)
  /-- A step of the call before its final section fails. -/
  | fail (pc : Nat)
  /-- The final section of the call. -/
  | finish (pc : Nat)
  | stateChange (pc : Nat) (state : ConnectionState)
  /-- The section of a callback. -/
  | callback (pc : Nat)

namespace State

def update (s : State Sdp) (pc : Nat) (f : PeerConnection Sdp → PeerConnection Sdp) : State Sdp :=
  { s with pcs := Function.update s.pcs pc (f (s.pcs pc)) }

/-- The connection goes down, and its callback is started. -/
def goDown (s : State Sdp) (pc : Nat) : State Sdp :=
  { s.update pc ({ · with wasDown := true }) with callbacks := pc :: s.callbacks }

/-- The cached stream, if the key is not empty and there is one. -/
def cached (s : State Sdp) (key : Text) : Option WebRTCStream :=
  if key = [] then none else s.sessions.lookup key

def call (s : State Sdp) (remoteEndpoint : Text) (msTimeout : Nat) (makes : Bool) : State Sdp :=
  match if remoteEndpoint = [] then .ok [] else getRemoteOffer remoteEndpoint with
  | .error _ => s
  | .ok remoteOffer =>
      match getKeyForSdpJson api remoteOffer with
      | .error _ => s
      | .ok key =>
          if (s.cached key).isSome || !makes then s
          else
            { s.update s.made fun _ => { remoteOffer, msTimeout, phase := .describing } with
              made := s.made + 1 }

def setRemoteDescription (s : State Sdp) (pc : Nat) : State Sdp :=
  if (s.pcs pc).phase = .describing ∧ !(s.pcs pc).startLocalOffer then
    match api.fromJson (s.pcs pc).remoteOffer with
    | .ok sdp => s.update pc ({ · with remoteDescription := some sdp, phase := .answering })
    | .error _ => s.update pc ({ · with phase := .returned })
  else s

/-- The key of the offer, the own one or the remote one, is what the call goes on with. -/
def setLocalDescription (s : State Sdp) (pc : Nat) (sdp : Sdp) : State Sdp :=
  let phaseOf (offer : Sdp) : Phase :=
    match getKeyForSdp api offer with
    | .ok key => .ready key
    | .error _ => .returned
  if (s.pcs pc).phase = .describing ∧ (s.pcs pc).startLocalOffer then
    s.update pc ({ · with localDescription := some sdp, phase := phaseOf sdp })
  else
    match (s.pcs pc).phase, (s.pcs pc).remoteDescription with
    | .answering, some offer =>
        s.update pc ({ · with localDescription := some sdp, phase := phaseOf offer })
    | _, _ => s

def fail (s : State Sdp) (pc : Nat) : State Sdp :=
  match (s.pcs pc).phase with
  | .describing | .answering => s.update pc ({ · with phase := .returned })
  | _ => s

def finish (s : State Sdp) (pc : Nat) : State Sdp :=
  match (s.pcs pc).phase with
  | .ready key =>
      match s.sessions.lookup key with
      | some _ => (s.update pc ({ · with phase := .returned })).goDown pc
      | none =>
          { s.update pc ({ · with phase := .returned, insertedAs := some key }) with
            sessions := s.sessions.insert key ⟨pc, (s.pcs pc).msTimeout⟩ }
  | _ => s

def stateChange (s : State Sdp) (pc : Nat) (state : ConnectionState) : State Sdp :=
  if pc < s.made ∧ state.isDown then s.goDown pc else s

/-- `keys_to_remove` -/
def keysToRemove (s : State Sdp) (pc : Nat) : List Text :=
  (s.sessions.entries.filter (·.2.pc = pc)).map (·.1)

def callback (s : State Sdp) (pc : Nat) : State Sdp :=
  if pc ∈ s.callbacks then
    { s.update pc ({ · with cleaned := true }) with
      callbacks := s.callbacks.erase pc
      sessions :=
        match (s.pcs pc).getKeyForPeer api (s.pcs pc).startLocalOffer with
        | .ok k => s.sessions.erase k
        -- without a key the entry is found by the identity of the connection
        | .error _ => (s.keysToRemove pc).foldl (fun sessions k => sessions.erase k) s.sessions }
  else s

def step (s : State Sdp) : Event Sdp → State Sdp
  | .call remoteEndpoint msTimeout makes => s.call api remoteEndpoint msTimeout makes
  | .setRemoteDescription pc => s.setRemoteDescription api pc
  | .setLocalDescription pc sdp => s.setLocalDescription api pc sdp
  | .fail pc => s.fail pc
  | .finish pc => s.finish pc
  | .stateChange pc state => s.stateChange pc state
  | .callback pc => s.callback api pc

/-- A stream is in `SESSIONS` under its key until its connection goes down, and not any
    more once the callback for that has run. -/
def Followed (s : State Sdp) : Prop :=
  ∀ pc, ∀ key ∈ (s.pcs pc).insertedAs,
    ((s.pcs pc).wasDown = false → ∃ stream ∈ s.sessions.lookup key, stream.pc = pc) ∧
      ((s.pcs pc).cleaned = true → ∀ e ∈ s.sessions.entries, e.2.pc ≠ pc)

/-- A callback finds no stream under its key but its own or one whose connection is down too,
    and no stream is inserted whose callback has run already. -/
def InOrder (s : State Sdp) : Event Sdp → Prop
  | .callback pc => pc ∈ s.callbacks →
      ∀ k, (s.pcs pc).getKeyForPeer api (s.pcs pc).startLocalOffer = .ok k →
        ∀ stream ∈ s.sessions.lookup k, stream.pc = pc ∨ (s.pcs stream.pc).wasDown = true
  | .finish pc => ∀ k, (s.pcs pc).phase = .ready k → s.sessions.lookup k = none →
      (s.pcs pc).cleaned = false
  | _ => True

/-! ## Runs -/

variable {api} {s s' : State Sdp} {p : PeerConnection Sdp} {pc : Nat} {k : Text}

/-- The key that a callback of the connection removes. -/
def keyOf (api : Api Sdp) (p : PeerConnection Sdp) : Except String Text :=
  p.getKeyForPeer api p.startLocalOffer

/-- A call goes on with the key that its callback will find. -/
structure Keyed (api : Api Sdp) (p : PeerConnection Sdp) : Prop where
  answering : p.phase = .answering → p.startLocalOffer = false
  ready : ∀ k, p.phase = .ready k → keyOf api p = .ok k
  inserted : ∀ k, p.insertedAs = some k → p.phase = .returned ∧ keyOf api p = .ok k

structure Inv (api : Api Sdp) (s : State Sdp) : Prop where
  own : ∀ k, ∀ stream ∈ s.sessions.lookup k, (s.pcs stream.pc).insertedAs = some k
  keyed : ∀ pc, Keyed api (s.pcs pc)
  fresh : ∀ pc, s.made ≤ pc → (s.pcs pc).phase = .returned ∧ (s.pcs pc).insertedAs = none
  down : ∀ pc ∈ s.callbacks, pc < s.made ∧ (s.pcs pc).wasDown = true

theorem inv_start : Inv api ({} : State Sdp) where
  own := by simp
  keyed pc := ⟨nofun, nofun, nofun⟩
  fresh pc _ := ⟨rfl, rfl⟩
  down := by simp

/-- A step that changes one connection and no entry. -/
structure Sets (s s' : State Sdp) (pc : Nat) (p : PeerConnection Sdp) : Prop where
  pcs : s'.pcs = Function.update s.pcs pc p
  sessions : s'.sessions = s.sessions
  made : s.made ≤ s'.made
  inserted : p.insertedAs = (s.pcs pc).insertedAs
  fresh : s'.made ≤ pc → p.phase = .returned
  down : pc < s.made → (s.pcs pc).wasDown = true → p.wasDown = true
  callbacks : ∀ pc' ∈ s'.callbacks, pc' ∈ s.callbacks ∨ pc' = pc ∧ pc < s.made ∧ p.wasDown = true

theorem Sets.inv (sets : Sets s s' pc p) (inv : Inv api s) (keyed : Keyed api p) : Inv api s' where
  own k stream entry := by
    have old := inv.own k stream (sets.sessions ▸ entry)
    rw [sets.pcs]
    by_cases same : stream.pc = pc
    · rw [same, Function.update_self, sets.inserted, ← same]
      exact old
    · rwa [Function.update_of_ne same]
  keyed pc' := by
    rw [sets.pcs]
    by_cases same : pc' = pc
    · rw [same, Function.update_self]
      exact keyed
    · rw [Function.update_of_ne same]
      exact inv.keyed pc'
  fresh pc' later := by
    have old := inv.fresh pc' (Nat.le_trans sets.made later)
    rw [sets.pcs]
    by_cases same : pc' = pc
    · subst same
      rw [Function.update_self]
      exact ⟨sets.fresh later, sets.inserted.trans old.2⟩
    · rwa [Function.update_of_ne same]
  down pc' member := by
    rw [sets.pcs]
    rcases sets.callbacks pc' member with old | ⟨rfl, made, now⟩
    · obtain ⟨made, wasDown⟩ := inv.down pc' old
      refine ⟨Nat.lt_of_lt_of_le made sets.made, ?_⟩
      by_cases same : pc' = pc
      · subst same
        rw [Function.update_self]
        exact sets.down made wasDown
      · rwa [Function.update_of_ne same]
    · rw [Function.update_self]
      exact ⟨Nat.lt_of_lt_of_le made sets.made, now⟩

/-- A connection that is no longer said to be up, or was never inserted, asks for no more. -/
theorem Sets.followed (sets : Sets s s' pc p) (followed : Followed s)
    (less : ∀ k, p.insertedAs = some k →
      (p.wasDown = false → (s.pcs pc).wasDown = false) ∧
        (p.cleaned = true → (s.pcs pc).cleaned = true)) :
    Followed s' := by
  intro pc' k inserted
  rw [sets.pcs, sets.sessions] at *
  by_cases same : pc' = pc
  · subst same
    rw [Function.update_self] at *
    obtain ⟨up, cleaned⟩ := followed pc' k (sets.inserted ▸ inserted)
    obtain ⟨wasUp, wasCleaned⟩ := less k inserted
    exact ⟨fun now => up (wasUp now), fun now => cleaned (wasCleaned now)⟩
  · rw [Function.update_of_ne same] at *
    exact followed pc' k inserted

theorem goDown_kept (inv : Inv api s) (followed : Followed s) (made : pc < s.made) :
    Inv api (s.goDown pc) ∧ Followed (s.goDown pc) := by
  have sets : Sets s (s.goDown pc) pc { s.pcs pc with wasDown := true } := by
    refine ⟨rfl, rfl, le_rfl, rfl, fun later => (inv.fresh pc later).1, fun _ _ => rfl,
      fun pc' member => ?_⟩
    rcases List.mem_cons.mp member with rfl | old
    · exact .inr ⟨rfl, made, rfl⟩
    · exact .inl old
  have keyed := inv.keyed pc
  refine ⟨sets.inv inv ⟨keyed.answering, keyed.ready, keyed.inserted⟩, sets.followed followed ?_⟩
  intro k _
  exact ⟨nofun, id⟩

/-- A step of a call before its stream is inserted. -/
theorem describe_kept (inv : Inv api s) (followed : Followed s) (sets : Sets s s' pc p)
    (running : (s.pcs pc).phase ≠ .returned)
    (answering : p.phase = .answering → p.startLocalOffer = false)
    (ready : ∀ k, p.phase = .ready k → keyOf api p = .ok k) : Inv api s' ∧ Followed s' := by
  have none_ (k : Text) : p.insertedAs ≠ some k := by
    rw [sets.inserted]
    intro inserted
    exact running ((inv.keyed pc).inserted k inserted).1
  exact ⟨sets.inv inv ⟨answering, ready, fun k inserted => absurd inserted (none_ k)⟩,
    sets.followed followed fun k inserted => absurd inserted (none_ k)⟩

theorem update_sets (s : State Sdp) (pc : Nat) {f : PeerConnection Sdp → PeerConnection Sdp}
    (inv : Inv api s) (running : (s.pcs pc).phase ≠ .returned)
    (inserted : (f (s.pcs pc)).insertedAs = (s.pcs pc).insertedAs)
    (down : (f (s.pcs pc)).wasDown = (s.pcs pc).wasDown) :
    Sets s (s.update pc f) pc (f (s.pcs pc)) where
  pcs := rfl
  sessions := rfl
  made := le_rfl
  inserted := inserted
  fresh later := absurd (inv.fresh pc later).1 running
  down _ was := down.trans was
  callbacks _ := .inl

theorem call_kept (inv : Inv api s) (followed : Followed s) (remoteEndpoint : Text) (msTimeout : Nat)
    (makes : Bool) :
    Inv api (s.call api remoteEndpoint msTimeout makes) ∧
      Followed (s.call api remoteEndpoint msTimeout makes) := by
  unfold call
  split
  · exact ⟨inv, followed⟩
  · rename_i remoteOffer _
    split
    · exact ⟨inv, followed⟩
    · split
      · exact ⟨inv, followed⟩
      · let p : PeerConnection Sdp := { remoteOffer, msTimeout, phase := .describing }
        have sets : Sets s { s.update s.made fun _ => p with made := s.made + 1 } s.made p :=
          ⟨rfl, rfl, Nat.le_succ _, (inv.fresh s.made le_rfl).2.symm,
            fun later => absurd later (Nat.not_succ_le_self _),
            fun made => absurd made (Nat.lt_irrefl _), fun _ => .inl⟩
        exact ⟨sets.inv inv ⟨nofun, nofun, nofun⟩, sets.followed followed nofun⟩

theorem setRemoteDescription_kept (inv : Inv api s) (followed : Followed s) :
    Inv api (s.setRemoteDescription api pc) ∧ Followed (s.setRemoteDescription api pc) := by
  unfold setRemoteDescription
  split
  case isFalse => exact ⟨inv, followed⟩
  case isTrue now =>
    have running : (s.pcs pc).phase ≠ .returned := by simp [now.1]
    split
    · exact describe_kept inv followed (update_sets s pc inv running rfl rfl) running
        (fun _ => by simpa [PeerConnection.startLocalOffer] using now.2) nofun
    · exact describe_kept inv followed (update_sets s pc inv running rfl rfl) running nofun nofun

theorem getKeyForSdp_withCandidates (sdp : Sdp) :
    getKeyForSdp api (api.withCandidates sdp) = getKeyForSdp api sdp :=
  api.key_withCandidates sdp

theorem setLocalDescription_kept (inv : Inv api s) (followed : Followed s) (sdp : Sdp) :
    Inv api (s.setLocalDescription api pc sdp) ∧ Followed (s.setLocalDescription api pc sdp) := by
  have readies {offer : Sdp} {k : Text}
      (ready : (match getKeyForSdp api offer with | .ok key => Phase.ready key | .error _ => .returned) =
        .ready k) : getKeyForSdp api offer = .ok k := by
    cases key : getKeyForSdp api offer <;> simp [key] at ready ⊢
    exact ready
  have waits {offer : Sdp} :
      (match getKeyForSdp api offer with | .ok key => Phase.ready key | .error _ => .returned) ≠ .answering := by
    cases getKeyForSdp api offer <;> exact nofun
  unfold setLocalDescription
  split
  case isTrue now =>
    have running : (s.pcs pc).phase ≠ .returned := by simp [now.1]
    refine describe_kept inv followed (update_sets s pc inv running rfl rfl) running
      (absurd · waits) fun k ready => ?_
    simp only [keyOf, PeerConnection.getKeyForPeer, PeerConnection.startLocalOffer] at now ⊢
    simp [now.2, getKeyForSdp_withCandidates, readies ready]
  case isFalse =>
    split
    · rename_i offer phase offer_
      have running : (s.pcs pc).phase ≠ .returned := by simp [phase]
      refine describe_kept inv followed (update_sets s pc inv running rfl rfl) running
        (absurd · waits) fun k ready => ?_
      have remote := (inv.keyed pc).answering phase
      simp only [keyOf, PeerConnection.getKeyForPeer, PeerConnection.startLocalOffer] at remote ⊢
      simp [remote, offer_, readies ready]
    · exact ⟨inv, followed⟩

theorem fail_kept (inv : Inv api s) (followed : Followed s) :
    Inv api (s.fail pc) ∧ Followed (s.fail pc) := by
  have fails (running : (s.pcs pc).phase ≠ .returned) :=
    have sets := update_sets s pc (f := ({ · with phase := .returned })) inv running rfl rfl
    describe_kept inv followed sets running nofun nofun
  unfold fail
  split
  · rename_i phase
    exact fails (by simp [phase])
  · rename_i phase
    exact fails (by simp [phase])
  · exact ⟨inv, followed⟩

theorem stateChange_kept (inv : Inv api s) (followed : Followed s) (state : ConnectionState) :
    Inv api (s.stateChange pc state) ∧ Followed (s.stateChange pc state) := by
  unfold stateChange
  split
  case isTrue now => exact goDown_kept inv followed now.1
  case isFalse => exact ⟨inv, followed⟩

/-- A stream is inserted where no other is; only a callback that came first is in the way. -/
theorem insert_followed_iff (inv : Inv api s) (followed : Followed s)
    (ready : (s.pcs pc).phase = .ready k) (free : s.sessions.lookup k = none) :
    let s' := { s.update pc ({ · with phase := .returned, insertedAs := some k }) with
      sessions := s.sessions.insert k ⟨pc, (s.pcs pc).msTimeout⟩ }
    Inv api s' ∧ (Followed s' ↔ (s.pcs pc).cleaned = false) := by
  have running : (s.pcs pc).phase ≠ .returned := by simp [ready]
  have unlisted (k' : Text) : (s.pcs pc).insertedAs ≠ some k' := fun inserted =>
    running ((inv.keyed pc).inserted k' inserted).1
  have others {k' : Text} {stream : WebRTCStream} (entry : s.sessions.lookup k' = some stream) :
      stream.pc ≠ pc := fun same => unlisted k' (same ▸ inv.own k' stream entry)
  intro s'
  constructor
  · constructor
    · intro k' stream entry
      by_cases same : k' = k
      · subst same
        obtain rfl := Option.some.inj ((AList.lookup_insert _).symm.trans entry)
        simp [s', State.update]
      · have old := (AList.lookup_insert_ne same).symm.trans entry
        simp only [s', State.update, Function.update_of_ne (others old)]
        exact inv.own k' stream old
    · intro pc'
      by_cases same : pc' = pc
      · subst same
        have key : keyOf api (s'.pcs pc') = .ok k := by
          simp only [s', State.update, Function.update_self]
          exact (inv.keyed pc').ready k ready
        refine ⟨by simp [s', State.update], by simp [s', State.update], fun k' inserted => ?_⟩
        obtain rfl : k = k' := by simpa [s', State.update] using inserted
        exact ⟨by simp [s', State.update], key⟩
      · simpa [s', State.update, same] using inv.keyed pc'
    · intro pc' later
      have other : pc' ≠ pc := by
        rintro rfl
        exact running (inv.fresh pc' later).1
      simpa [s', State.update, other] using inv.fresh pc' later
    · intro pc' member
      obtain ⟨made, wasDown⟩ := inv.down pc' member
      refine ⟨made, ?_⟩
      by_cases same : pc' = pc
      · subst same
        simpa [s', State.update] using wasDown
      · simpa [s', State.update, same] using wasDown
  · constructor
    · intro after
      have here := (after pc k (by simp [s', State.update])).2
      rw [Bool.eq_false_iff]
      intro cleaned
      refine here (by simpa [s', State.update] using cleaned) ⟨k, pc, (s.pcs pc).msTimeout⟩ ?_ rfl
      exact AList.mem_lookup_iff.mp (AList.lookup_insert _)
    · intro uncleaned pc' k' inserted
      by_cases same : pc' = pc
      · subst same
        obtain rfl : k = k' := by simpa [s', State.update] using inserted
        refine ⟨fun _ => ⟨_, AList.lookup_insert _, rfl⟩, ?_⟩
        simp [s', State.update, uncleaned]
      · simp only [s', State.update, Function.update_of_ne same] at inserted ⊢
        obtain ⟨up, cleaned⟩ := followed pc' k' inserted
        constructor
        · intro isUp
          obtain ⟨stream, entry, own⟩ := up isUp
          have other : k' ≠ k := by
            rintro rfl
            exact absurd entry (by simp [free])
          exact ⟨stream, (AList.lookup_insert_ne other).trans entry, own⟩
        · intro isCleaned e member own
          have entry := AList.mem_lookup_iff.mpr member
          by_cases here : e.1 = k
          · rw [here, AList.lookup_insert] at entry
            exact same (own.symm.trans (congrArg WebRTCStream.pc (Option.some.inj entry)).symm)
          · rw [AList.lookup_insert_ne here] at entry
            exact cleaned isCleaned e (AList.mem_lookup_iff.mp entry) own

theorem finish_followed_iff (inv : Inv api s) (followed : Followed s) :
    Inv api (s.finish pc) ∧ (Followed (s.finish pc) ↔ InOrder api s (.finish pc)) := by
  unfold finish
  cases phase : (s.pcs pc).phase with
  | ready key =>
      cases entry : s.sessions.lookup key with
      | some stream =>
          have running : (s.pcs pc).phase ≠ .returned := by simp [phase]
          have made : pc < s.made := Nat.lt_of_not_le fun later => running (inv.fresh pc later).1
          have sets := update_sets s pc (f := ({ · with phase := .returned })) inv running rfl rfl
          obtain ⟨inv, followed⟩ := describe_kept inv followed sets running nofun nofun
          obtain ⟨inv, followed⟩ := goDown_kept inv followed made
          simp [InOrder, phase, entry, inv, followed]
      | none => simpa [InOrder, phase, entry] using insert_followed_iff inv followed phase entry
  | _ => simp [InOrder, phase, inv, followed]

theorem lookup_foldl_erase (keys : List Text) (sessions : AList fun _ : Text => WebRTCStream) :
    (keys.foldl (fun sessions k => sessions.erase k) sessions).lookup k =
      if k ∈ keys then none else sessions.lookup k := by
  induction keys generalizing sessions with
  | nil => simp
  | cons k' rest ih =>
      rw [List.foldl_cons, ih]
      by_cases same : k = k'
      · subst same
        simp
      · simp [same, AList.lookup_erase_ne]

/-- The entries that are left by a callback. -/
def Left (api : Api Sdp) (s : State Sdp) (pc : Nat) (k : Text) (stream : WebRTCStream) : Prop :=
  s.sessions.lookup k = some stream ∧
    match keyOf api (s.pcs pc) with
    | .ok k' => k ≠ k'
    | .error _ => stream.pc ≠ pc

theorem lookup_callback (waits : pc ∈ s.callbacks) {stream : WebRTCStream} :
    (s.callback api pc).sessions.lookup k = some stream ↔ Left api s pc k stream := by
  simp only [callback, if_pos waits, Left, keyOf]
  cases (s.pcs pc).getKeyForPeer api (s.pcs pc).startLocalOffer with
  | ok k' =>
      by_cases same : k = k'
      · subst same
        simp
      · simp [same, AList.lookup_erase_ne]
  | error _ =>
      have removed : k ∈ s.keysToRemove pc ↔ ∃ own, s.sessions.lookup k = some own ∧ own.pc = pc := by
        simp only [keysToRemove, List.mem_map, List.mem_filter, decide_eq_true_eq]
        constructor
        · rintro ⟨e, ⟨member, own⟩, rfl⟩
          exact ⟨e.2, AList.mem_lookup_iff.mpr member, own⟩
        · rintro ⟨own, entry, same⟩
          exact ⟨⟨k, own⟩, ⟨AList.mem_lookup_iff.mp entry, same⟩, rfl⟩
      simp only [lookup_foldl_erase, removed]
      constructor
      · intro found
        split at found
        case isTrue => cases found
        case isFalse kept => exact ⟨found, fun own => kept ⟨stream, found, own⟩⟩
      · rintro ⟨entry, other⟩
        rw [if_neg, entry]
        rintro ⟨own, entry', same⟩
        exact other (Option.some.inj (entry.symm.trans entry') ▸ same)

theorem callback_inv (inv : Inv api s) : Inv api (s.callback api pc) := by
  by_cases waits : pc ∈ s.callbacks
  case neg =>
    rwa [callback, if_neg waits]
  case pos =>
    have pcs :
        (s.callback api pc).pcs = Function.update s.pcs pc { s.pcs pc with cleaned := true } := by
      simp [callback, waits, State.update]
    have same (pc' : Nat) : ((s.callback api pc).pcs pc').phase = (s.pcs pc').phase ∧
        ((s.callback api pc).pcs pc').insertedAs = (s.pcs pc').insertedAs ∧
        ((s.callback api pc).pcs pc').wasDown = (s.pcs pc').wasDown ∧
        (Keyed api (s.pcs pc') → Keyed api ((s.callback api pc).pcs pc')) := by
      rw [pcs]
      by_cases here : pc' = pc
      · subst here
        rw [Function.update_self]
        exact ⟨rfl, rfl, rfl, fun keyed => ⟨keyed.answering, keyed.ready, keyed.inserted⟩⟩
      · rw [Function.update_of_ne here]
        exact ⟨rfl, rfl, rfl, id⟩
    have made : (s.callback api pc).made = s.made := by simp [callback, waits, State.update]
    constructor
    · intro k stream entry
      rw [(same stream.pc).2.1]
      exact inv.own k stream ((lookup_callback waits).mp entry).1
    · intro pc'
      exact (same pc').2.2.2 (inv.keyed pc')
    · intro pc' later
      rw [(same pc').1, (same pc').2.1]
      exact inv.fresh pc' (made ▸ later)
    · intro pc' member
      rw [(same pc').2.2.1, made]
      have waiting : pc' ∈ s.callbacks.erase pc := by
        simpa [callback, waits, State.update] using member
      exact inv.down pc' (List.mem_of_mem_erase waiting)

/-- A callback must not find the stream of a connection that is up. -/
theorem callback_followed_iff (inv : Inv api s) (followed : Followed s) :
    Followed (s.callback api pc) ↔ InOrder api s (.callback pc) := by
  by_cases waits : pc ∈ s.callbacks
  case neg => simp [InOrder, callback, waits, followed]
  case pos =>
    have self : (s.callback api pc).pcs pc = { s.pcs pc with cleaned := true } := by
      simp [callback, waits, State.update]
    have others {pc' : Nat} (other : pc' ≠ pc) : (s.callback api pc).pcs pc' = s.pcs pc' := by
      simp [callback, waits, State.update, other]
    have gone {k : Text} {stream : WebRTCStream} (left : Left api s pc k stream) : stream.pc ≠ pc := by
      rintro rfl
      have key := ((inv.keyed stream.pc).inserted k (inv.own k stream left.1)).2
      simp [Left, key] at left
    simp only [InOrder, waits, forall_const]
    constructor
    · intro after k' key stream entry
      by_contra up
      rw [not_or, Bool.not_eq_true] at up
      have inserted := inv.own k' stream entry
      rw [← others up.1] at inserted up
      obtain ⟨stream', entry', -⟩ := (after stream.pc k' inserted).1 up.2
      have left := (lookup_callback waits).mp entry'
      simp [Left, keyOf, key] at left
    · intro inOrder pc' k' inserted
      by_cases same : pc' = pc
      · subst same
        constructor
        · intro up
          simp [self, (inv.down pc' waits).2] at up
        · intro _ e member
          exact gone ((lookup_callback waits).mp (AList.mem_lookup_iff.mpr member))
      · rw [others same] at inserted ⊢
        obtain ⟨up, cleaned⟩ := followed pc' k' inserted
        constructor
        · intro isUp
          obtain ⟨stream, entry, own⟩ := up isUp
          refine ⟨stream, (lookup_callback waits).mpr ⟨entry, ?_⟩, own⟩
          cases key : keyOf api (s.pcs pc) with
          | error _ => exact own ▸ same
          | ok k'' =>
              rintro rfl
              rcases inOrder k' key stream entry with mine | wasDown
              · exact same (own.symm.trans mine)
              · rw [own, isUp] at wasDown
                cases wasDown
        · intro isCleaned e member
          have left := (lookup_callback waits).mp (AList.mem_lookup_iff.mpr member)
          exact cleaned isCleaned e (AList.mem_lookup_iff.mp left.1)

theorem step_followed_iff (inv : Inv api s) (followed : Followed s) (e : Event Sdp) :
    Inv api (s.step api e) ∧ (Followed (s.step api e) ↔ InOrder api s e) := by
  have keeps (kept : Inv api (s.step api e) ∧ Followed (s.step api e)) (free : InOrder api s e) :
      Inv api (s.step api e) ∧ (Followed (s.step api e) ↔ InOrder api s e) :=
    ⟨kept.1, fun _ => free, fun _ => kept.2⟩
  cases e with
  | call remoteEndpoint msTimeout makes =>
    exact keeps (call_kept inv followed remoteEndpoint msTimeout makes) trivial
  | setRemoteDescription pc => exact keeps (setRemoteDescription_kept inv followed) trivial
  | setLocalDescription pc sdp => exact keeps (setLocalDescription_kept inv followed sdp) trivial
  | fail pc => exact keeps (fail_kept inv followed) trivial
  | finish pc => exact finish_followed_iff inv followed
  | stateChange pc state => exact keeps (stateChange_kept inv followed state) trivial
  | callback pc => exact ⟨callback_inv inv, callback_followed_iff inv followed⟩

/-- The cache follows the connections in every state of a run exactly when each callback finds
    its own stream, or one that is down as well, and no stream is inserted after its callback. -/
theorem cache_followed_iff (api : Api Sdp) (events : List (Event Sdp)) :
    Always (step api) Followed {} events ↔ Along (step api) (InOrder api) {} events := by
  apply Runs.always_iff_along_of_both (q := Inv api)
  · intro s e inv followed
    exact step_followed_iff inv followed e
  · exact inv_start
  · intro pc key inserted
    cases inserted

/-! The crates, as far as a description of a data channel needs them -/

structure RTCSessionDescription where
  sdpType : Text
  sdp : Text

/-- The escapes of JSON that the description of a session needs. -/
def unescape (c : Char) : Option Char :=
  if c = 'n' then some '\n'
  else if c = 'r' then some '\r'
  else if c = quote ∨ c = backslash ∨ c = '/' then some c
  else none

/-- The rest of a string in JSON, and what stands behind it; whether an escape has begun. -/
def readString : Bool → Text → Option (Text × Text)
  | _, [] => none
  | true, c :: rest => (unescape c).bind fun d => push d (readString false rest)
  | false, c :: rest =>
      if c = quote then some ([], rest)
      else if c = backslash then readString true rest
      else if c.toNat < 32 then none
      else push c (readString false rest)

def readAfter (front : Text) (text : Text) : Option (Text × Text) :=
  if front <+: text then readString false (text.drop front.length) else none

def beforeType : Text := "\x7b\"type\":\"".toList

def beforeSdp : Text := ",\"sdp\":\"".toList

/-- A description in the form in which `serde_json` writes it. -/
def readDescription (text : Text) : Option RTCSessionDescription := do
  let (sdpType, rest) ← readAfter beforeType text
  let (sdp, rest) ← readAfter beforeSdp rest
  if rest = [Char.ofNat 125] ∧
      ["offer", "pranswer", "answer", "rollback"].any (·.toList = sdpType) then
    return ⟨sdpType, sdp⟩
  else none

/-- `key` or `key:value` -/
def attributeOf (line : Text) : Attribute where
  key := line.takeWhile (· ≠ ':')
  value := if ':' ∈ line then some (line.dropWhile (· ≠ ':')).tail else none

/-- The attributes behind a media description are its own. -/
def addLine (d : SessionDescription) (line : Text) : SessionDescription :=
  match line with
  | 'm' :: '=' :: rest =>
      let media : MediaDescription := ⟨rest.takeWhile (· ≠ ' '), []⟩
      { d with mediaDescriptions := d.mediaDescriptions ++ [media] }
  | 'a' :: '=' :: rest =>
      match d.mediaDescriptions.getLast? with
      | none => { d with attributes := d.attributes ++ [attributeOf rest] }
      | some media =>
          let media := { media with attributes := media.attributes ++ [attributeOf rest] }
          { d with mediaDescriptions := d.mediaDescriptions.dropLast ++ [media] }
  | _ => d

/-- `SessionDescription::unmarshal`, of a description whose lines are in order. -/
def unmarshalLines (sdp : Text) : Except String SessionDescription :=
  let lines := (sdp.filter (· ≠ '\r')).splitOn '\n'
  if lines.head? = some "v=0".toList then .ok (lines.foldl addLine {}) else .error "SdpInvalidSyntax"

/-- Connections that gather no candidates. -/
def sample : Api RTCSessionDescription where
  fromJson text :=
    match readDescription text with
    | some sdp => .ok sdp
    | none => .error "no session description"
  unmarshal sdp := unmarshalLines sdp.sdp
  withCandidates := id
  key_withCandidates _ := rfl

/-- The lines of a description, each with its end. -/
def linesOf (ending : Text) (setup : String) (fingerprint : Text) : Text :=
  let before := ["v=0", "o=- 7400546379179479477 208696200 IN IP4 0.0.0.0", "s=-", "t=0 0"]
  let after := ["a=group:BUNDLE 0", "a=extmap-allow-mixed",
    "m=application 9 UDP/DTLS/SCTP webrtc-datachannel", "c=IN IP4 0.0.0.0", setup, "a=mid:0",
    "a=sendrecv", "a=sctp-port:5000", "a=ice-ufrag:RMWjjpXfpXbDPdMz",
    "a=ice-pwd:BtIqlWHfwhsJdFiBROeLuEbNmYfHxRfT"]
  (before.map String.toList ++ ("a=fingerprint:".toList ++ fingerprint) :: after.map String.toList).flatMap
    (· ++ ending)

def offerKey : Text :=
  "sha-256 97:52:D6:1F:1E:87:6C:DA:B8:21:95:64:A5:85:89:FA:".toList ++
    "02:71:C7:4D:B3:FD:25:92:40:FB:6B:65:24:3C:79:88".toList

def answerKey : Text :=
  "sha-256 61:60:74:40:28:CE:0B:0C:75:4B:10:9A:EE:77:F5:44:".toList ++
    "57:84:51:DB:04:92:4A:10:1C:4E:5F:7E:F1:B3:71:22".toList

def offerJson : Text :=
  beforeType ++ "offer".toList ++ quote :: beforeSdp ++
    linesOf [backslash, 'r', backslash, 'n'] "a=setup:actpass" offerKey ++ [quote, Char.ofNat 125]

def answer : RTCSessionDescription :=
  ⟨"answer".toList, linesOf ['\r', '\n'] "a=setup:active" answerKey⟩

def offerEndpoint : Text := sdpToEndpoint offerJson

/-- Two calls with the same offer. The second one closes its connection, and the callback
    takes the stream of the first one out. -/
def sameOffer : List (Event RTCSessionDescription) :=
  [.call offerEndpoint 0 true, .call offerEndpoint 0 true,
    .setRemoteDescription 0, .setLocalDescription 0 answer, .finish 0,
    .setRemoteDescription 1, .setLocalDescription 1 answer, .finish 1, .callback 1]

theorem stream_lost : ¬ Always (step sample) Followed {} sameOffer := by
  intro always
  have followed := always.last
  have final :
      let s := exec (step sample) {} sameOffer
      (s.pcs 0).insertedAs = some offerKey ∧ (s.pcs 0).wasDown = false ∧
        s.sessions.lookup offerKey = none := by
    decide +kernel
  generalize exec (step sample) {} sameOffer = s at followed final
  obtain ⟨inserted, isUp, gone⟩ := final
  obtain ⟨stream, entry, -⟩ := (followed 0 offerKey inserted).1 isUp
  cases gone.symm.trans entry

end State

end RemoteControl.Stream.WebRtc
