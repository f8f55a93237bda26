import RemoteControl.Stream.Encrypt

/-! # Streams with a key

`FramedStream` carries messages over TCP and `WsFramedStream` over a WebSocket. Once a
stream has a key, what it receives goes through `dec`, except for the text messages of a
WebSocket, which are handed on as they are.

Both ends seal with the same key and count from the same number, so a frame also opens at
the end that has sealed it. These two are the only ways by which something else than a
message of the peer gets through.
-/

namespace RemoteControl.Stream

variable {Key : Type} (box : SecretBox Key)

structure FramedStream (Key : Type) where
  codec : BytesCodec := {}
  encrypt : Option (Encrypt Key) := none

structure WsFramedStream (Key : Type) where
  encrypt : Option (Encrypt Key) := none

/-- `tungstenite::Message` -/
inductive WsMessage where
  | text (t : List Char)
  | binary (data : Bytes)
  | ping (data : Bytes)
  | pong (data : Bytes)
  | close
  | frame (data : Bytes)

def utf8 (t : List Char) : Bytes := t.flatMap String.utf8EncodeChar

/-- What `next` returns: nothing at the end of the stream, when the time is up, or when the
    program has stopped. -/
abbrev Next := Option (Except String Bytes)

/-- `key.dec(bytes)` on a stream that may have a key. -/
def openWith (bytes : Bytes) (encrypt : Option (Encrypt Key)) : Option (Encrypt Key) × Next :=
  match encrypt with
  | none => (none, some (.ok bytes))
  | some e =>
      match e.dec box bytes with
      | none => (some e, none)
      | some (e, r) => (some e, some r)

/-- `key.enc(&msg)` on a stream that may have a key. -/
def sealWith (msg : Bytes) (encrypt : Option (Encrypt Key)) : Option (Option (Encrypt Key) × Bytes) :=
  match encrypt with
  | none => some (none, msg)
  | some e => (e.enc box msg).map fun (e, frame) => (some e, frame)

namespace FramedStream

def setRaw (s : FramedStream Key) : FramedStream Key :=
  { codec := s.codec.setRaw, encrypt := none }

def setKey (key : Key) (s : FramedStream Key) : FramedStream Key :=
  { s with encrypt := some (.new key) }

def sendRaw (msg : Bytes) (s : FramedStream Key) : Option (FramedStream Key × Bytes) :=
  (sealWith box msg s.encrypt).map fun (e, frame) => ({ s with encrypt := e }, frame)

/-- `came` is what the frames below yield. -/
def next (came : Next) (s : FramedStream Key) : FramedStream Key × Next :=
  match came with
  | some (.ok bytes) =>
      let (e, r) := openWith box bytes s.encrypt
      ({ s with encrypt := e }, r)
  | came => (s, came)

/-- The time is up while nothing has come yet. -/
def nextTimeout (expired : Bool) (came : Next) (s : FramedStream Key) : FramedStream Key × Next :=
  if expired then (s, none) else s.next box came

end FramedStream

namespace WsFramedStream

def setRaw (_ : WsFramedStream Key) : WsFramedStream Key := { encrypt := none }

def setKey (key : Key) (_ : WsFramedStream Key) : WsFramedStream Key := { encrypt := some (.new key) }

def sendRaw (msg : Bytes) (s : WsFramedStream Key) : Option (WsFramedStream Key × Bytes) :=
  (sealWith box msg s.encrypt).map fun (e, frame) => ({ encrypt := e }, frame)

/-- `came` are the messages of the socket until `next` returns. -/
def next (came : List (Except String WsMessage)) (s : WsFramedStream Key) : WsFramedStream Key × Next :=
  match came with
  | [] => (s, none)
  | .error err :: _ => (s, some (.error ("WebSocket protocol error: " ++ err)))
  | .ok (.binary data) :: _ =>
      let (e, r) := openWith box data s.encrypt
      ({ encrypt := e }, r)
  | .ok (.text t) :: _ => (s, some (.ok (utf8 t)))
  | .ok .close :: _ => (s, none)
  | .ok _ :: rest => s.next rest

def nextTimeout (expired : Bool) (came : List (Except String WsMessage)) (s : WsFramedStream Key) :
    WsFramedStream Key × Next :=
  if expired then (s, none) else s.next box came

end WsFramedStream

/-! ## A secured stream and its peer -/

/-- What the two streams have in common: `σ` is the stream and `ι` what comes to it. -/
structure Transport (Key σ ι : Type) where
  encrypt : σ → Option (Encrypt Key)
  sendRaw : Bytes → σ → Option (σ × Bytes)
  next : Bool → ι → σ → σ × Next
  /-- The frames among what has come. -/
  frames : ι → List Bytes
  /-- The texts among what has come. -/
  texts : ι → List Bytes

def tcp : Transport Key (FramedStream Key) Next where
  encrypt := FramedStream.encrypt
  sendRaw := FramedStream.sendRaw box
  next := FramedStream.nextTimeout box
  frames := fun
    | some (.ok bytes) => [bytes]
    | _ => []
  texts := fun _ => []

def ws : Transport Key (WsFramedStream Key) (List (Except String WsMessage)) where
  encrypt := WsFramedStream.encrypt
  sendRaw := WsFramedStream.sendRaw box
  next := WsFramedStream.nextTimeout box
  frames := fun came => came.filterMap fun
    | .ok (.binary data) => some data
    | _ => none
  texts := fun came => came.filterMap fun
    | .ok (.text t) => some (utf8 t)
    | _ => none

/-- A stream, the other end, what each of the two has sealed, with its nonce, and what the
    stream has returned. -/
structure Session (Key σ : Type) where
  stream : σ
  peer : Encrypt Key
  own : List (Bytes × Bytes) := []
  peers : List (Bytes × Bytes) := []
  returned : List Bytes := []

inductive SessionEvent (ι : Type) where
  | sends (msg : Bytes)
  | peerSends (msg : Bytes)
  /-- `next` or, with a time limit, `next_timeout` -/
  | next (expired : Bool) (came : ι)

namespace Session

variable {σ ι : Type} (tr : Transport Key σ ι)

/-- The call of `seal` that a message leads to. -/
def sealing (e : Encrypt Key) (msg : Bytes) : List (Bytes × Bytes) :=
  if maxCount ≤ e.sealedCount then [] else [(getNonce (e.sealedCount + 1), msg)]

def step (s : Session Key σ) : SessionEvent ι → Session Key σ
  | .sends msg =>
      match tr.sendRaw msg s.stream, tr.encrypt s.stream with
      | some (stream, _), some e => { s with stream := stream, own := s.own ++ sealing e msg }
      | some (stream, _), none => { s with stream := stream }
      | none, _ => s
  | .peerSends msg =>
      match s.peer.enc box msg with
      | none => s
      | some (peer, _) => { s with peer := peer, peers := s.peers ++ sealing s.peer msg }
  | .next expired came =>
      match tr.next expired came s.stream with
      | (stream, some (.ok data)) => { s with stream := stream, returned := s.returned ++ [data] }
      | (stream, _) => { s with stream := stream }

/-- Every longer message that was returned is one that the peer has sealed. -/
def PeersOnly (s : Session Key σ) : Prop :=
  ∀ data ∈ s.returned, 1 < data.length → ∃ nonce, (nonce, data) ∈ s.peers

/-- The box is ideal: what opens was sealed with that key and nonce. -/
def Ideal (key : Key) (s : Session Key σ) : SessionEvent ι → Prop
  | .next _ came => ∀ frame ∈ tr.frames came, ∀ n data,
      box.open_ frame (getNonce n) key = some data →
        frame = box.seal_ data (getNonce n) key ∧
          ((getNonce n, data) ∈ s.own ∨ (getNonce n, data) ∈ s.peers)
  | _ => True

/-- Nobody sends longer texts, and no frame comes back that only this end has sealed. -/
def Clean (key : Key) (s : Session Key σ) : SessionEvent ι → Prop
  | .next _ came =>
      (∀ t ∈ tr.texts came, t.length ≤ 1) ∧
        ∀ frame ∈ tr.frames came, ∀ call ∈ s.own,
          frame = box.seal_ call.2 call.1 key → call ∈ s.peers
  | _ => True

/-- A stream has `key`. -/
def Secured (key : Key) (stream : σ) : Prop :=
  ∃ e, tr.encrypt stream = some e ∧ e.key = key

/-- What is known of a transport whose stream has a key: it keeps the key, and what it
    returns was opened with it or came as a text. -/
structure Lawful : Prop where
  sendRaw : ∀ {key : Key} {stream stream' : σ} {msg frame : Bytes}, Secured tr key stream →
    tr.sendRaw msg stream = some (stream', frame) → Secured tr key stream'
  next : ∀ {key : Key} {stream : σ} (expired : Bool) (came : ι), Secured tr key stream →
    Secured tr key (tr.next expired came stream).1 ∧
      ∀ data, (tr.next expired came stream).2 = some (.ok data) → 1 < data.length →
        data ∈ tr.texts came ∨
          ∃ frame ∈ tr.frames came, ∃ n, box.open_ frame (getNonce n) key = some data

/-- What is opened with the key is a frame of its own. -/
theorem openWith_spec {encrypt : Option (Encrypt Key)} {e : Encrypt Key}
    (secured : encrypt = some e) (bytes : Bytes) :
    ∃ e', (openWith box bytes encrypt).1 = some e' ∧ e'.key = e.key ∧
      ∀ data, (openWith box bytes encrypt).2 = some (.ok data) → 1 < data.length →
        ∃ n, box.open_ bytes (getNonce n) e.key = some data := by
  subst secured
  cases result : e.dec box bytes with
  | none =>
      rw [show openWith box bytes (some e) = (some e, none) by simp only [openWith, result]]
      exact ⟨e, rfl, rfl, nofun⟩
  | some after =>
      obtain ⟨e', r⟩ := after
      rw [show openWith box bytes (some e) = (some e', some r) by simp only [openWith, result]]
      rcases Nat.lt_or_ge 1 bytes.length with long | short
      · obtain ⟨-, rfl, rfl⟩ := (Encrypt.dec_of_long long r).mp result
        refine ⟨_, rfl, rfl, ?_⟩
        intro data returned _
        cases opened : box.open_ bytes (getNonce (e.openedCount + 1)) e.key with
        | none => simp [opened] at returned
        | some data' =>
            simp only [opened, Option.some.injEq, Except.ok.injEq] at returned
            exact ⟨_, returned ▸ opened⟩
      · rw [Encrypt.dec_of_short short] at result
        obtain ⟨rfl, rfl⟩ := Prod.mk.inj (Option.some.inj result)
        refine ⟨e, rfl, rfl, ?_⟩
        intro data returned long
        obtain rfl : bytes = data := by simpa using returned
        omega

/-- The stream that a message was sent on has its key in what `sealWith` leaves. -/
theorem sealWith_spec {encrypt : Option (Encrypt Key)} {e : Encrypt Key}
    (secured : encrypt = some e) {stream : Option (Encrypt Key) → σ} {stream' : σ}
    {msg frame : Bytes}
    (sent : (sealWith box msg encrypt).map (fun (e, frame) => (stream e, frame)) =
      some (stream', frame)) :
    ∃ e', stream' = stream (some e') ∧ e'.key = e.key := by
  subst secured
  obtain ⟨_, sealed_, same⟩ := Option.map_eq_some_iff.mp sent
  obtain ⟨⟨e', frame'⟩, enciphered, rfl⟩ := Option.map_eq_some_iff.mp sealed_
  obtain ⟨-, rfl, -⟩ := Encrypt.enc_spec enciphered
  exact ⟨_, (Prod.mk.inj same).1.symm, rfl⟩

theorem tcp_lawful : Lawful box (tcp box) where
  sendRaw := by
    rintro key stream stream' msg frame ⟨e, secured, rfl⟩ sent
    obtain ⟨e', rfl, same⟩ := sealWith_spec box secured sent
    exact ⟨e', rfl, same⟩
  next := by
    rintro key stream expired came ⟨e, secured, rfl⟩
    match expired, came with
    | true, _ | false, none | false, some (.error _) => exact ⟨⟨e, secured, rfl⟩, nofun⟩
    | false, some (.ok bytes) =>
        obtain ⟨e', kept, same, opened⟩ := openWith_spec box secured bytes
        refine ⟨⟨e', kept, same⟩, fun data returned long => .inr ?_⟩
        exact ⟨bytes, List.mem_singleton_self _, opened data returned long⟩

theorem ws_lawful : Lawful box (ws box) where
  sendRaw := by
    rintro key stream stream' msg frame ⟨e, secured, rfl⟩ sent
    obtain ⟨e', rfl, same⟩ := sealWith_spec box secured sent
    exact ⟨e', rfl, same⟩
  next := by
    rintro key stream expired came ⟨e, secured, rfl⟩
    cases expired with
    | true => exact ⟨⟨e, secured, rfl⟩, nofun⟩
    | false =>
        induction came with
        | nil => exact ⟨⟨e, secured, rfl⟩, nofun⟩
        | cons item rest ih =>
            match item with
            | .error _ | .ok .close => exact ⟨⟨e, secured, rfl⟩, nofun⟩
            -- a message that is passed over adds nothing to what can be returned
            | .ok (.ping _) | .ok (.pong _) | .ok (.frame _) => exact ih
            | .ok (.text t) =>
                refine ⟨⟨e, secured, rfl⟩, fun data returned _ => .inl ?_⟩
                obtain rfl : utf8 t = data := Except.ok.inj (Option.some.inj returned)
                exact List.mem_cons_self ..
            | .ok (.binary bytes) =>
                obtain ⟨e', kept, same, opened⟩ := openWith_spec box secured bytes
                refine ⟨⟨e', kept, same⟩, fun data returned long => .inr ?_⟩
                exact ⟨bytes, List.mem_cons_self .., opened data returned long⟩

section Runs

variable {box} {tr} {key : Key} {s : Session Key σ}

theorem PeersOnly.mono {s' : Session Key σ} (only : s.PeersOnly) (returned : s'.returned = s.returned)
    (peers : ∀ call ∈ s.peers, call ∈ s'.peers) : s'.PeersOnly := by
  intro data member long
  rw [returned] at member
  obtain ⟨nonce, call⟩ := only data member long
  exact ⟨nonce, peers _ call⟩

theorem step_secured (lawful : Lawful box tr) (secured : Secured tr key s.stream)
    (event : SessionEvent ι) : Secured tr key (s.step box tr event).stream := by
  cases event with
  | sends msg =>
      simp only [step]
      split
      · rename_i sent _
        exact lawful.sendRaw secured sent
      · rename_i sent _
        exact lawful.sendRaw secured sent
      · exact secured
  | peerSends msg =>
      simp only [step]
      split <;> exact secured
  | next expired came =>
      have kept := (lawful.next expired came secured).1
      simp only [step]
      split <;> rename_i result <;> rwa [result] at kept

theorem step_peersOnly (lawful : Lawful box tr) (secured : Secured tr key s.stream)
    (only : s.PeersOnly) {event : SessionEvent ι} (ideal : s.Ideal box tr key event)
    (clean : s.Clean box tr key event) : (s.step box tr event).PeersOnly := by
  cases event with
  | sends msg =>
      simp only [step]
      split <;> exact only.mono rfl fun _ member => member
  | peerSends msg =>
      simp only [step]
      split
      · exact only
      · exact only.mono rfl fun _ member => List.mem_append_left _ member
  | next expired came =>
      have returned := (lawful.next expired came secured).2
      simp only [step]
      split
      · rename_i stream data result
        rw [result] at returned
        intro data' member long
        rcases List.mem_append.mp member with before | new
        · exact only data' before long
        · obtain rfl := List.mem_singleton.mp new
          rcases returned data' rfl long with text | ⟨frame, arrived, n, opened⟩
          · exact absurd (clean.1 data' text) (Nat.not_le.mpr long)
          · obtain ⟨frame_eq, mine | theirs⟩ := ideal frame arrived n data' opened
            · exact ⟨_, clean.2 frame arrived _ mine frame_eq⟩
            · exact ⟨_, theirs⟩
      · exact only.mono rfl fun _ member => member

/-- As long as no longer text and no frame of its own comes back, a stream with a key only
    returns what its peer has sealed. -/
theorem always_peersOnly (lawful : Lawful box tr) (secured : Secured tr key s.stream)
    (only : s.PeersOnly) {events : List (SessionEvent ι)} (along : Runs.Along (step box tr)
      (fun s event => s.Ideal box tr key event ∧ s.Clean box tr key event) s events) :
    Runs.Always (step box tr) PeersOnly s events := by
  have inv : Runs.Always (step box tr)
      (fun s : Session Key σ => Secured tr key s.stream ∧ s.PeersOnly) s events := by
    refine Runs.always_of_along ?_ ⟨secured, only⟩ along
    rintro s event ⟨secured, only⟩ ⟨ideal, clean⟩
    exact ⟨step_secured lawful secured event, step_peersOnly lawful secured only ideal clean⟩
  exact inv.mono fun _ => And.right

end Runs

end Session

open Session in
/-- With an ideal box, in every run without longer texts and without frames that come back
    to the end that has sealed them, both kinds of streams return only what the peer has
    sealed. -/
theorem secured_streams_return_peers_messages (key : Key) (s : FramedStream Key)
    (w : WsFramedStream Key) (events : List (SessionEvent Next))
    (events' : List (SessionEvent (List (Except String WsMessage)))) :
    (Runs.Along (step box (tcp box))
        (fun s event => s.Ideal box (tcp box) key event ∧ s.Clean box (tcp box) key event)
        ⟨s.setKey key, .new key, [], [], []⟩ events →
      Runs.Always (step box (tcp box)) PeersOnly ⟨s.setKey key, .new key, [], [], []⟩ events) ∧
    (Runs.Along (step box (ws box))
        (fun s event => s.Ideal box (ws box) key event ∧ s.Clean box (ws box) key event)
        ⟨w.setKey key, .new key, [], [], []⟩ events' →
      Runs.Always (step box (ws box)) PeersOnly ⟨w.setKey key, .new key, [], [], []⟩ events') :=
  ⟨always_peersOnly (tcp_lawful box) ⟨.new key, rfl, rfl⟩ (by rintro data ⟨⟩),
    always_peersOnly (ws_lawful box) ⟨.new key, rfl, rfl⟩ (by rintro data ⟨⟩)⟩

open Session

/-- The frame of `[1, 2]` as the first message. -/
def firstFrame : Bytes := toLe 8 1 ++ List.replicate 8 0 ++ [1, 2]

theorem open_firstFrame {n : Nat} {data : Bytes}
    (opened : SecretBox.plain.open_ firstFrame (getNonce n) () = some data) :
    getNonce n = getNonce 1 ∧ data = [1, 2] := by
  obtain ⟨count, rfl⟩ := Encrypt.plain_open opened
  exact ⟨by simp only [getNonce, ← count]; rfl, rfl⟩

/-- The peer sends one message, which arrives after a ping. -/
theorem first_message_returned :
    Runs.Always (step .plain (tcp .plain)) PeersOnly
        ⟨({} : FramedStream Unit).setKey (), .new (), [], [], []⟩
        [.peerSends [1, 2], .next false (some (.ok firstFrame))] ∧
      Runs.Always (step .plain (ws .plain)) PeersOnly
        ⟨({} : WsFramedStream Unit).setKey (), .new (), [], [], []⟩
        [.peerSends [1, 2], .next false [.ok (.ping []), .ok (.binary firstFrame)]] ∧
      (Runs.exec (step .plain (ws .plain)) ⟨({} : WsFramedStream Unit).setKey (), .new (), [], [], []⟩
        [.peerSends [1, 2], .next false [.ok (.ping []), .ok (.binary firstFrame)]]).returned =
          [[1, 2]] := by
  have ideal (frames : List Bytes) (only : frames = [firstFrame]) (own : List (Bytes × Bytes)) :
      ∀ frame ∈ frames, ∀ n data, SecretBox.plain.open_ frame (getNonce n) () = some data →
        frame = SecretBox.plain.seal_ data (getNonce n) () ∧
          ((getNonce n, data) ∈ own ∨ (getNonce n, data) ∈ [(getNonce 1, ([1, 2] : Bytes))]) := by
    intro frame member n data opened
    obtain rfl := List.mem_singleton.mp (only ▸ member)
    obtain ⟨nonce, rfl⟩ := open_firstFrame opened
    rw [nonce]
    exact ⟨rfl, .inr (List.mem_singleton_self _)⟩
  have delivered := secured_streams_return_peers_messages .plain () {} {}
    [.peerSends [1, 2], .next false (some (.ok firstFrame))]
    [.peerSends [1, 2], .next false [.ok (.ping []), .ok (.binary firstFrame)]]
  refine ⟨delivered.1 ⟨⟨trivial, trivial⟩, ⟨ideal _ rfl _, ?_⟩, trivial⟩,
    delivered.2 ⟨⟨trivial, trivial⟩, ⟨ideal _ rfl _, ?_⟩, trivial⟩, by decide⟩
  · exact ⟨nofun, fun _ _ _ => nofun⟩
  · exact ⟨nofun, fun _ _ _ => nofun⟩

/-- A text gets through without a key, and a frame that comes back is taken for a message
    of the peer. -/
theorem text_and_own_frame_returned :
    (Runs.Along (step .plain (ws .plain)) (Ideal .plain (ws .plain) ())
        ⟨({} : WsFramedStream Unit).setKey (), .new (), [], [], []⟩
        [.next false [.ok (.text ['h', 'i'])]] ∧
      ¬ Runs.Always (step .plain (ws .plain)) PeersOnly
        ⟨({} : WsFramedStream Unit).setKey (), .new (), [], [], []⟩
        [.next false [.ok (.text ['h', 'i'])]]) ∧
    Runs.Along (step .plain (tcp .plain)) (Ideal .plain (tcp .plain) ())
        ⟨({} : FramedStream Unit).setKey (), .new (), [], [], []⟩
        [.sends [1, 2], .next false (some (.ok firstFrame))] ∧
      ¬ Runs.Always (step .plain (tcp .plain)) PeersOnly
        ⟨({} : FramedStream Unit).setKey (), .new (), [], [], []⟩
        [.sends [1, 2], .next false (some (.ok firstFrame))] := by
  refine ⟨⟨⟨?_, trivial⟩, ?_⟩, ⟨trivial, ?_, trivial⟩, ?_⟩
  · rintro frame ⟨⟩
  · intro always
    obtain ⟨nonce, none⟩ := always.last [104, 105] (by decide) (by decide)
    cases none
  · intro frame member n data opened
    obtain rfl := List.mem_singleton.mp member
    obtain ⟨nonce, rfl⟩ := open_firstFrame opened
    rw [nonce]
    exact ⟨rfl, .inl (List.mem_singleton_self _)⟩
  · intro always
    obtain ⟨nonce, none⟩ := always.last [1, 2] (by decide) (by decide)
    cases none

end RemoteControl.Stream
