import RemoteControl.Base64
import RemoteControl.Stream.Secured

/-! # Agreeing on a key

At the start of a connection the host sends a box public key, signed with the key that the
rendezvous server has certified for its id. The client seals a fresh symmetric key for it,
sends that back and encrypts from then on. Where something does not fit, both go on
without encryption, and each has to notice from the other's message.

A frame is handed on as it is while a stream has no key, and each end sets its key after
its last message of the handshake.
-/

namespace RemoteControl.Stream.Handshake

open Runs

/-- `[u8; n]` -/
abbrev Fixed (n : Nat) := { bytes : Bytes // bytes.length = n }

def Fixed.ofBytes? (n : Nat) (bytes : Bytes) : Option (Fixed n) :=
  if h : bytes.length = n then some ⟨bytes, h⟩ else none

theorem Fixed.ofBytes?_eq {n : Nat} {bytes : Bytes} {fixed : Fixed n} :
    Fixed.ofBytes? n bytes = some fixed ↔ bytes = fixed.1 := by
  obtain ⟨other, length⟩ := fixed
  unfold Fixed.ofBytes?
  split
  · simp
  · simp only [reduceCtorEq, false_iff]
    intro same
    simp_all

abbrev SecretKey := Fixed 64

abbrev Key := Fixed 32

structure PublicKey where
  asymmetricValue : Bytes := []
  symmetricValue : Bytes := []
  deriving DecidableEq

/-- `message::Union`; a connection has many more messages. -/
inductive Union where
  | signedId (id : Bytes)
  | publicKey (pk : PublicKey)
  | other (data : Bytes)
  deriving DecidableEq

structure Message where
  union : Option Union := none
  deriving DecidableEq

structure IdPk where
  id : Bytes
  pk : Bytes
  deriving DecidableEq

/-- What the handshake takes from `sodiumoxide` and `protobuf`, as far as it is documented. A
    signed message has the message in it, what is sealed for a public key is opened with
    its secret key, and what was written is parsed again. -/
structure Primitives where
  sign : Bytes → SecretKey → Bytes
  verify : Bytes → Key → Option Bytes
  verify_sign : ∀ m sk pk m', verify (sign m sk) pk = some m' → m' = m
  /-- The public key of a key pair for boxes. -/
  boxPublicKey : Key → Key
  boxSeal : Bytes → Bytes → Key → Key → Bytes
  boxOpen : Bytes → Bytes → Key → Key → Option Bytes
  boxOpen_boxSeal : ∀ m nonce a b,
    boxOpen (boxSeal m nonce (boxPublicKey a) b) nonce (boxPublicKey b) a = some m
  writeMessage : Message → Bytes
  parseMessage : Bytes → Except String Message
  parse_writeMessage : ∀ msg, parseMessage (writeMessage msg) = .ok msg
  writeIdPk : IdPk → Bytes
  parseIdPk : Bytes → Except String IdPk
  parse_writeIdPk : ∀ idPk, parseIdPk (writeIdPk idPk) = .ok idPk

variable (p : Primitives)

def getPk (pk : Bytes) : Option Key := Fixed.ofBytes? 32 pk

def getRsPk (strBase64 : Bytes) : Option Key :=
  match Base64.decode strBase64 with
  | some pk => getPk pk
  | none => none

def decodeIdPk (signed : Bytes) (key : Key) : Except String (Bytes × Key) :=
  match p.verify signed key with
  | none => .error "Signature mismatch"
  | some bytes =>
      match p.parseIdPk bytes with
      | .error e => .error e
      | .ok res =>
          match getPk res.pk with
          | some pk => .ok (res.id, pk)
          | none => .error "Wrong their public length"

/-- `box_::NONCEBYTES` -/
def zeroNonce : Bytes := List.replicate 24 0

/-- The secret key and the symmetric key are fresh. -/
def createSymmetricKeyMsg (theirPkB ourSkB key : Key) : Bytes × Bytes × Key :=
  ((p.boxPublicKey ourSkB).1, p.boxSeal key.1 zeroNonce theirPkB ourSkB, key)

/-- `Encrypt::decode` of `tcp.rs` -/
def decode (symmetricData theirPkB : Bytes) (ourSkB : Key) : Except String Key :=
  match Fixed.ofBytes? 32 theirPkB with
  | none => .error s!"Handshake failed: pk length {theirPkB.length}"
  | some theirPkB =>
      match p.boxOpen symmetricData zeroNonce theirPkB ourSkB with
      | none => .error "Handshake failed: box decryption failure"
      | some symmetricKey =>
          match Fixed.ofBytes? 32 symmetricKey with
          | some key => .ok key
          | none => .error "Handshake failed: invalid secret key length from peer"

/-- `config::RS_PUB_KEY` -/
def rsPubKey : Bytes := "OeVuKk5nlHiXp+APNn0Y3pC1Iwpwn44JGqrQCsWqmBw=".toUTF8.toList

/-- The arguments of `secure_connection`, and the keys that it makes. Texts are given by
    their bytes. -/
structure Client where
  peerId : Bytes
  signedIdPk : Bytes
  key : Bytes := []
  ourSkB : Key
  symmetricKey : Key

namespace Client

def rsPk (c : Client) : Option Key := getRsPk (if c.key = [] then rsPubKey else c.key)

def signPk (c : Client) : Option Key :=
  if c.signedIdPk = [] then none
  else
    match c.rsPk with
    | none => none
    | some rsPk =>
        match decodeIdPk p c.signedIdPk rsPk with
        | .error _ => none
        | .ok (id, pk) => if id = c.peerId then some pk else none

/-- What is sent back for the first message, and the key to set then. -/
def answer (c : Client) (signPk : Key) (bytes : Bytes) : Message × Option Key :=
  match p.parseMessage bytes with
  | .error _ => ({}, none)
  | .ok msgIn =>
      match msgIn.union with
      | some (.signedId si) =>
          match decodeIdPk p si signPk with
          | .ok (id, theirPkB) =>
              if id = c.peerId then
                let (asymmetricValue, symmetricValue, key) :=
                  createSymmetricKeyMsg p theirPkB c.ourSkB c.symmetricKey
                (⟨some (.publicKey { asymmetricValue, symmetricValue })⟩, some key)
              else ({}, none)
          | .error _ => (⟨some (.publicKey {})⟩, none)
      | _ => ({}, none)

end Client

/-- What `create_tcp_connection` goes by, and the key that it makes. -/
structure Host where
  secure : Bool
  /-- `Config::get_key_pair()` -/
  sk : Bytes
  pk : Bytes
  /-- `Config::get_id()` -/
  id : Bytes
  ourSkB : Key

/-- How the handshake ends if it ends well. -/
inductive Greeted where
  | secured (key : Key)
  /-- `Config::set_key_confirmed(false)` -/
  | forceToUpdatePk
  | invalidMessageType
  deriving DecidableEq

def Greeted.key? : Greeted → Option Key
  | .secured key => some key
  | .forceToUpdatePk | .invalidMessageType => none

namespace Host

/-- The secret key for the handshake, if there is to be one. -/
def signingKey (h : Host) : Option SecretKey :=
  if h.secure ∧ h.pk.length = 32 then Fixed.ofBytes? 64 h.sk else none

def hello (h : Host) (sk : SecretKey) : Message :=
  ⟨some (.signedId (p.sign (p.writeIdPk { id := h.id, pk := (p.boxPublicKey h.ourSkB).1 }) sk))⟩

def receive (h : Host) (bytes : Bytes) : Except String Greeted :=
  match p.parseMessage bytes with
  | .error _ => .error "Handshake failed: invalid message format"
  | .ok msgIn =>
      match msgIn.union with
      | some (.publicKey pk) =>
          if pk.asymmetricValue.length = 32 then
            match decode p pk.symmetricValue pk.asymmetricValue h.ourSkB with
            | .ok key => .ok (.secured key)
            | .error e => .error e
          else if pk.asymmetricValue = [] then .ok .forceToUpdatePk
          else .error "Handshake failed: invalid public sign key length from peer"
      | _ => .ok .invalidMessageType

end Host

inductive ClientPc where
  | start
  | waiting (signPk : Key)
  | answering (msg : Message) (key : Option Key)
  /-- `secure_connection` has returned with this. -/
  | ok (optionPk : Option Bytes)
  | failed
  deriving DecidableEq

inductive HostPc where
  | start
  | waiting
  /-- `Connection::start` is called. -/
  | started
  | failed
  deriving DecidableEq

structure State where
  client : ClientPc := .start
  host : HostPc := .start
  clientStream : Option (Encrypt Key) := none
  hostStream : Option (Encrypt Key) := none
  /-- The frames on their way. -/
  toClient : List Bytes := []
  toHost : List Bytes := []
  keyConfirmed : Bool := true
  /-- The message that the client has sent in the handshake. -/
  answered : Option Message := none

/-- How an operation on a stream goes. -/
inductive Io where
  | ok
  /-- It takes too long or the stream is broken. What was sent may still arrive. -/
  | fails (delivered : Bool)
  deriving DecidableEq

/-- A message that a connection sends later; only the handshake sends a `SignedId`. -/
abbrev Later := { msg : Message // ∀ id, msg.union ≠ some (.signedId id) }

inductive Event where
  | client (io : Io)
  | host (io : Io)
  | clientSends (msg : Later)
  | hostSends (msg : Later)
  /-- Somebody on the way replaces the frames by others. -/
  | tamper (toClient toHost : List Bytes)
  deriving DecidableEq

def Event.Honest : Event → Prop
  | .tamper .. => False
  | _ => True

instance : DecidablePred Event.Honest
  | .tamper .. => inferInstanceAs (Decidable False)
  | .client _ | .host _ | .clientSends _ | .hostSends _ => inferInstanceAs (Decidable True)

namespace State

/-- `set_key`, where there is a key to set. -/
def setKey (stream : Option (Encrypt Key)) : Option Key → Option (Encrypt Key)
  | some key => some (.new key)
  | none => stream

/-- A frame of the client, if it gets out. -/
def fromClient (s : State) (msg : Message) : State :=
  { s with toHost := s.toHost ++ [p.writeMessage msg], answered := some msg }

def fromHost (s : State) (msg : Message) : State :=
  { s with toClient := s.toClient ++ [p.writeMessage msg] }

/-- The rest of `secure_connection`, with the message and the key it has come to. -/
def clientAnswer (c : Client) (s : State) (msg : Message) (key : Option Key) : Io → State
  | .ok =>
      { s.fromClient p msg with
        client := .ok ((c.signPk p).map Subtype.val), clientStream := setKey s.clientStream key }
  | .fails delivered => { if delivered then s.fromClient p msg else s with client := .failed }

def clientStep (c : Client) (s : State) (io : Io) : State :=
  match s.client with
  | .start =>
      match c.signPk p with
      | none => { s with client := .answering {} none }
      | some signPk => { s with client := .waiting signPk }
  | .waiting signPk =>
      match io, s.toClient with
      | .fails _, _ => { s with client := .failed }
      | .ok, [] => s
      | .ok, bytes :: toClient =>
          let (msg, key) := c.answer p signPk bytes
          { s with toClient, client := .answering msg key }
  | .answering msg key => s.clientAnswer p c msg key io
  | .ok _ => s
  | .failed => s

/-- The host's handshake is over. -/
def greeted (s : State) : Except String Greeted → State
  | .ok (.secured key) => { s with host := .started, hostStream := some (.new key) }
  | .ok .forceToUpdatePk => { s with host := .started, keyConfirmed := false }
  | .ok .invalidMessageType => { s with host := .started }
  | .error _ => { s with host := .failed }

def hostStep (h : Host) (s : State) (io : Io) : State :=
  match s.host with
  | .start =>
      match h.signingKey with
      | none => { s with host := .started }
      | some sk =>
          match io with
          | .ok => { s.fromHost p (h.hello p sk) with host := .waiting }
          | .fails delivered =>
              { if delivered then s.fromHost p (h.hello p sk) else s with host := .failed }
  | .waiting =>
      match io, s.toHost with
      | .fails _, _ => { s with host := .failed }
      | .ok, [] => s
      | .ok, bytes :: toHost => { s with toHost }.greeted (h.receive p bytes)
  | .started => s
  | .failed => s

variable (box : SecretBox Key)

def step (c : Client) (h : Host) (s : State) : Event → State
  | .client io => s.clientStep p c io
  | .host io => s.hostStep p h io
  | .clientSends msg =>
      match s.client, sealWith box (p.writeMessage msg.1) s.clientStream with
      | .ok _, some (clientStream, frame) => { s with clientStream, toHost := s.toHost ++ [frame] }
      | _, _ => s
  | .hostSends msg =>
      match s.host, sealWith box (p.writeMessage msg.1) s.hostStream with
      | .started, some (hostStream, frame) => { s with hostStream, toClient := s.toClient ++ [frame] }
      | _, _ => s
  | .tamper toClient toHost => { s with toClient, toHost }

def clientKey (s : State) : Option Key := s.clientStream.map Encrypt.key

def hostKey (s : State) : Option Key := s.hostStream.map Encrypt.key

/-- When both have come through, they hold the same key or none. -/
def Agreed (s : State) : Prop :=
  (∃ pk, s.client = .ok pk) → s.host = .started → s.clientKey = s.hostKey

end State

/-! ## Each branch of one end is met by a branch of the other -/

section

variable {p} {c : Client} {h : Host} {sk : SecretKey} {signPk : Key} {msg : Message} {key : Key}

/-- Whatever the host makes of the message, it ends with this key. -/
def Meets (p : Primitives) (h : Host) (msg : Message) (key : Option Key) : Prop :=
  ∀ greeted, h.receive p (p.writeMessage msg) = .ok greeted → greeted.key? = key

theorem meets_empty : Meets p h {} none := by
  intro greeted received
  simp only [Host.receive, p.parse_writeMessage] at received
  cases received
  rfl

theorem meets_empty_publicKey : Meets p h ⟨some (.publicKey {})⟩ none := by
  intro greeted received
  simp [Host.receive, p.parse_writeMessage] at received
  cases received
  rfl

/-- A key that was sealed for the host. -/
theorem meets_symmetricKey {ourSkB : Key} :
    Meets p h
      ⟨some (.publicKey {
        asymmetricValue := (p.boxPublicKey ourSkB).1
        symmetricValue := p.boxSeal key.1 zeroNonce (p.boxPublicKey h.ourSkB) ourSkB })⟩
      (some key) := by
  intro greeted received
  have known (k : Key) : Fixed.ofBytes? 32 k.1 = some k := Fixed.ofBytes?_eq.mpr rfl
  simp only [Host.receive, p.parse_writeMessage, decode, known, p.boxOpen_boxSeal,
    (p.boxPublicKey ourSkB).2, if_true] at received
  cases received
  rfl

theorem decodeIdPk_some {signed id : Bytes} {pk : Key}
    (decoded : decodeIdPk p signed key = .ok (id, pk)) :
    ∃ bytes, p.verify signed key = some bytes ∧ p.parseIdPk bytes = .ok ⟨id, pk.1⟩ := by
  unfold decodeIdPk at decoded
  split at decoded
  · nomatch decoded
  · rename_i bytes verified
    split at decoded
    · nomatch decoded
    · rename_i res parsed
      split at decoded
      · rename_i found known
        cases decoded
        refine ⟨bytes, verified, ?_⟩
        rw [parsed, ← Fixed.ofBytes?_eq.mp known]
      · nomatch decoded

/-- If the host's certificate is accepted, it is for the host's own box. -/
theorem decodeIdPk_hello {id : Bytes} {pk : Key}
    (decoded : decodeIdPk p (p.sign (p.writeIdPk ⟨h.id, (p.boxPublicKey h.ourSkB).1⟩) sk) signPk =
      .ok (id, pk)) : pk = p.boxPublicKey h.ourSkB := by
  obtain ⟨bytes, verified, parsed⟩ := decodeIdPk_some decoded
  rw [p.verify_sign _ _ _ _ verified, p.parse_writeIdPk] at parsed
  have same := congrArg IdPk.pk (Except.ok.inj parsed)
  exact Subtype.ext same.symm

theorem answer_hello_meets :
    Meets p h (c.answer p signPk (p.writeMessage (h.hello p sk))).1
      (c.answer p signPk (p.writeMessage (h.hello p sk))).2 := by
  simp only [Client.answer, p.parse_writeMessage, Host.hello]
  split
  · rename_i id theirPkB decoded
    split
    · obtain rfl := decodeIdPk_hello decoded
      exact meets_symmetricKey
    · exact meets_empty
  · exact meets_empty_publicKey

/-- Only a `SignedId` makes the client set a key, and only with a certificate for its peer. -/
theorem answer_some {bytes : Bytes} (answered : c.answer p signPk bytes = (msg, some key)) :
    ∃ si boxPk, p.parseMessage bytes = .ok ⟨some (.signedId si)⟩ ∧
      decodeIdPk p si signPk = .ok (c.peerId, boxPk) ∧
      key = c.symmetricKey ∧
      msg = ⟨some (.publicKey {
        asymmetricValue := (p.boxPublicKey c.ourSkB).1
        symmetricValue := p.boxSeal key.1 zeroNonce boxPk c.ourSkB })⟩ := by
  unfold Client.answer at answered
  split at answered
  · cases answered
  · rename_i msgIn parsed
    split at answered
    · rename_i si signed
      split at answered
      · rename_i id theirPkB decoded
        split at answered
        · rename_i peer
          cases answered
          exact ⟨si, theirPkB, by rw [parsed, ← signed], by rw [decoded, peer], rfl, rfl⟩
        · cases answered
      · cases answered
    · cases answered

theorem answer_later (later : ∀ id, msg.union ≠ some (.signedId id)) :
    (c.answer p signPk (p.writeMessage msg)).2 = none := by
  cases key : (c.answer p signPk (p.writeMessage msg)).2 with
  | none => rfl
  | some key' =>
      obtain ⟨si, _, parsed, -⟩ := answer_some (Prod.ext rfl key)
      rw [p.parse_writeMessage] at parsed
      have same := congrArg Message.union (Except.ok.inj parsed)
      exact absurd same (later si)

end

section

variable {p} {box : SecretBox Key} {c : Client} {h : Host} {s : State}

theorem key_of_sealWith {msg frame : Bytes} {stream stream' : Option (Encrypt Key)}
    (sealed_ : sealWith box msg stream = some (stream', frame)) :
    stream'.map Encrypt.key = stream.map Encrypt.key := by
  cases stream with
  | none =>
      cases sealed_
      rfl
  | some e =>
      simp only [sealWith, Option.map_eq_some_iff] at sealed_
      obtain ⟨⟨e', _⟩, encrypted, same⟩ := sealed_
      cases same
      simp [(Encrypt.enc_spec encrypted).2.1]

/-- The client has not looked at its first message. -/
def ClientPc.Unread : ClientPc → Prop
  | .start | .waiting _ => True
  | _ => False

def ClientPc.Unanswered : ClientPc → Prop
  | .start | .waiting _ | .answering .. => True
  | _ => False

def HostPc.Unread : HostPc → Prop
  | .start | .waiting => True
  | _ => False

/-- What a step of the client can do. -/
inductive ClientSteps (p : Primitives) (c : Client) (s : State) : State → Prop where
  | stay : ClientSteps p c s s
  | uncertified (at_ : s.client = .start) :
      ClientSteps p c s { s with client := .answering {} none }
  | certified (signPk : Key) (at_ : s.client = .start) (known : c.signPk p = some signPk) :
      ClientSteps p c s { s with client := .waiting signPk }
  | read (signPk : Key) (bytes : Bytes) (rest : List Bytes) (at_ : s.client = .waiting signPk)
      (next : s.toClient = bytes :: rest) :
      ClientSteps p c s { s with
        toClient := rest
        client := .answering (c.answer p signPk bytes).1 (c.answer p signPk bytes).2 }
  | answer (msg : Message) (key : Option Key) (pk : Option Bytes)
    (at_ : s.client = .answering msg key) :
      ClientSteps p c s { s.fromClient p msg with
        client := .ok pk, clientStream := State.setKey s.clientStream key }
  | lose (msg : Message) (key : Option Key) (at_ : s.client = .answering msg key) :
      ClientSteps p c s { s.fromClient p msg with client := .failed }
  | fail : ClientSteps p c s { s with client := .failed }

theorem clientStep_cases (s : State) (io : Io) : ClientSteps p c s (s.clientStep p c io) := by
  unfold State.clientStep
  split
  · rename_i at_
    split
    · exact .uncertified at_
    · rename_i signPk known
      exact .certified signPk at_ known
  · rename_i signPk at_
    split
    · exact .fail
    · exact .stay
    · rename_i bytes rest next
      exact .read signPk bytes rest at_ next
  · rename_i msg key at_
    cases io with
    | ok => exact .answer msg key _ at_
    | fails delivered =>
        cases delivered with
        | true => exact .lose msg key at_
        | false => exact .fail
  · exact .stay
  · exact .stay

/-- What a step of the host can do. -/
inductive HostSteps (p : Primitives) (h : Host) (s : State) : State → Prop where
  | stay : HostSteps p h s s
  | unsigned (at_ : s.host = .start) (none_ : h.signingKey = none) :
      HostSteps p h s { s with host := .started }
  | greet (sk : SecretKey) (host : HostPc) (at_ : s.host = .start) (some_ : h.signingKey = some sk)
      (next : host = .waiting ∨ host = .failed) :
      HostSteps p h s { s.fromHost p (h.hello p sk) with host }
  | read (bytes : Bytes) (rest : List Bytes) (at_ : s.host = .waiting)
    (next : s.toHost = bytes :: rest) :
      HostSteps p h s ({ s with toHost := rest }.greeted (h.receive p bytes))
  | fail : HostSteps p h s { s with host := .failed }

theorem hostStep_cases (s : State) (io : Io) : HostSteps p h s (s.hostStep p h io) := by
  unfold State.hostStep
  split
  · rename_i at_
    split
    · rename_i none_
      exact .unsigned at_ none_
    · rename_i sk some_
      split
      · exact .greet sk .waiting at_ some_ (.inl rfl)
      · rename_i delivered
        cases delivered with
        | true => exact .greet sk .failed at_ some_ (.inr rfl)
        | false => exact .fail
  · rename_i at_
    split
    · exact .fail
    · exact .stay
    · rename_i bytes rest next
      exact .read bytes rest at_ next
  · exact .stay
  · exact .stay

/-- What a step can do. -/
inductive Steps (p : Primitives) (box : SecretBox Key) (c : Client) (h : Host) (s : State) :
    Event → State → Prop where
  | stay (e : Event) : Steps p box c h s e s
  | client (io : Io) {s' : State} (does : ClientSteps p c s s') : Steps p box c h s (.client io) s'
  | host (io : Io) {s' : State} (does : HostSteps p h s s') : Steps p box c h s (.host io) s'
  | clientSends (msg : Later) (pk : Option Bytes) (stream : Option (Encrypt Key)) (frame : Bytes)
      (at_ : s.client = .ok pk)
      (sealed_ : sealWith box (p.writeMessage msg.1) s.clientStream = some (stream, frame)) :
      Steps p box c h s (.clientSends msg) { s with
        clientStream := stream, toHost := s.toHost ++ [frame] }
  | hostSends (msg : Later) (stream : Option (Encrypt Key)) (frame : Bytes)
      (at_ : s.host = .started)
      (sealed_ : sealWith box (p.writeMessage msg.1) s.hostStream = some (stream, frame)) :
      Steps p box c h s (.hostSends msg) { s with
        hostStream := stream, toClient := s.toClient ++ [frame] }
  | tamper (toClient toHost : List Bytes) :
      Steps p box c h s (.tamper toClient toHost) { s with toClient, toHost }

theorem step_cases (p : Primitives) (box : SecretBox Key) (c : Client) (h : Host) (s : State)
    (e : Event) :
    Steps p box c h s e (s.step p box c h e) := by
  cases e with
  | client io => exact .client io (clientStep_cases s io)
  | host io => exact .host io (hostStep_cases s io)
  | clientSends msg =>
      simp only [State.step]
      split
      · rename_i pk stream frame at_ sealed_
        exact .clientSends msg pk stream frame at_ sealed_
      · exact .stay _
  | hostSends msg =>
      simp only [State.step]
      split
      · rename_i stream frame at_ sealed_
        exact .hostSends msg stream frame at_ sealed_
      · exact .stay _
  | tamper toClient toHost => exact .tamper toClient toHost

/-- A host that does no handshake leaves the client nothing to take for one. -/
structure Plain (p : Primitives) (s : State) : Prop where
  host : s.host ≠ .waiting
  hostStream : s.hostStream = none
  frames : ∀ frame ∈ s.toClient, ∃ msg : Later, frame = p.writeMessage msg.1
  clientStream : s.clientStream = none
  answering : ∀ msg key, s.client = .answering msg key → key = none

variable {sk : SecretKey} {s' : State} {e : Event} {msg : Message}

/-- Nothing that the client gets has a key in it. -/
theorem Plain.client_step (plain : Plain p s) (does : ClientSteps p c s s') : Plain p s' := by
  cases does with
  | stay => exact plain
  | uncertified =>
      exact { plain with
        answering := by
          intro msg key at_
          cases at_
          rfl }
  | certified | fail => exact { plain with answering := nofun }
  | read signPk bytes rest at_ next =>
      have frames := plain.frames
      rw [next] at frames
      exact { plain with
        frames := fun frame member => frames frame (List.mem_cons_of_mem _ member)
        answering := by
          intro msg key at_
          obtain ⟨later, rfl⟩ := frames bytes (List.mem_cons_self ..)
          cases at_
          exact answer_later later.2 }
  | answer msg key pk at_ =>
      exact { plain with
        clientStream := by simp [plain.answering msg key at_, State.setKey, plain.clientStream]
        answering := nofun }
  | lose => exact { plain with answering := nofun }

theorem Plain.step (plain : Plain p s) (unsigned : h.signingKey = none) (honest : e.Honest) :
    Plain p (s.step p box c h e) := by
  have steps := step_cases p box c h s e
  generalize s.step p box c h e = s' at steps
  cases steps with
  | stay => exact plain
  | client _ does => exact plain.client_step does
  | host _ does =>
      cases does with
      | stay => exact plain
      | unsigned => exact { plain with host := nofun }
      | greet sk host at_ some_ => simp [unsigned] at some_
      | read bytes rest at_ => exact absurd at_ plain.host
      | fail => exact { plain with host := nofun }
  | clientSends msg pk stream frame at_ sealed_ =>
      have key := key_of_sealWith sealed_
      exact { plain with clientStream := by simpa [plain.clientStream] using key }
  | hostSends msg stream frame at_ sealed_ =>
      rw [plain.hostStream] at sealed_
      cases sealed_
      exact { plain with
        hostStream := rfl
        frames := by
          intro frame member
          rcases List.mem_append.mp member with before | last
          · exact plain.frames frame before
          · exact ⟨msg, by simpa using last⟩ }
  | tamper => exact honest.elim

/-- The first frame that each end gets is the one that the other's part of the handshake
    has sent. -/
structure Signed (p : Primitives) (h : Host) (sk : SecretKey) (s : State) : Prop where
  greeting : s.client.Unread →
    s.toClient.head? = some (p.writeMessage (h.hello p sk)) ∨
      s.toClient = [] ∧ (s.host = .start ∨ s.host = .failed)
  unanswered : s.client.Unanswered → s.answered = none ∧ s.clientStream = none ∧ s.toHost = []
  answer : s.host.Unread → s.toHost.head? = s.answered.map p.writeMessage
  answering : ∀ msg key, s.client = .answering msg key → Meets p h msg key
  client : ∀ pk, s.client = .ok pk → ∃ msg, s.answered = some msg ∧ Meets p h msg s.clientKey
  unkeyed : s.host.Unread → s.hostStream = none
  host : s.host = .started → ∃ msg greeted, s.answered = some msg ∧
    h.receive p (p.writeMessage msg) = .ok greeted ∧ greeted.key? = s.hostKey

section

variable (signed : Signed p h sk s)

include signed

/-- The client's message is the first frame for the host, which has not gone on before. -/
theorem Signed.fromClient {key : Option Key}
    (at_ : s.client = .answering msg key) (client : ClientPc) (stream : Option (Encrypt Key))
    (over_ : client = .failed ∨ ∃ pk, client = .ok pk)
    (set : ∀ pk, client = .ok pk → stream.map Encrypt.key = key) :
    Signed p h sk { s.fromClient p msg with client, clientStream := stream } := by
  have unanswered := signed.unanswered (by simp [at_, ClientPc.Unanswered])
  exact {
    greeting := by
      intro unread
      rcases over_ with rfl | ⟨pk, rfl⟩ <;> exact unread.elim
    unanswered := by
      intro unread
      rcases over_ with rfl | ⟨pk, rfl⟩ <;> exact unread.elim
    answer := fun _ => by simp [State.fromClient, unanswered.2.2]
    unkeyed := signed.unkeyed
    answering := by
      rintro _ _ rfl
      simp at over_
    client := by
      intro pk ok
      refine ⟨msg, rfl, ?_⟩
      rw [State.clientKey, set pk ok]
      exact signed.answering msg key at_
    host := by
      intro started
      obtain ⟨_, _, answered, -⟩ := signed.host started
      simp [unanswered.1] at answered }

/-- Steps of the host leave what the client has come to. -/
theorem Signed.of_host {host : HostPc}
    {hostStream : Option (Encrypt Key)} {toClient toHost : List Bytes} {keyConfirmed : Bool}
    (fewer : s.toHost = [] → toHost = []) (greeting : s.client.Unread →
      toClient.head? = some (p.writeMessage (h.hello p sk)) ∨
        toClient = [] ∧ (host = .start ∨ host = .failed))
    (answer : host.Unread → toHost.head? = s.answered.map p.writeMessage)
    (unkeyed : host.Unread → hostStream = none)
    (started : host = .started → ∃ msg greeted, s.answered = some msg ∧
      h.receive p (p.writeMessage msg) = .ok greeted ∧
        greeted.key? = hostStream.map Encrypt.key) :
    Signed p h sk { s with host, hostStream, toClient, toHost, keyConfirmed }  where
  greeting := greeting
  unanswered unanswered := (signed.unanswered unanswered).imp_right (And.imp_right fewer)
  answer := answer
  unkeyed := unkeyed
  answering := signed.answering
  client := signed.client
  host := started

theorem Signed.greeted {rest : List Bytes} (at_ : s.host = .waiting)
    (next : s.toHost = p.writeMessage msg :: rest) (sent : s.answered = some msg) :
    Signed p h sk ({ s with toHost := rest }.greeted (h.receive p (p.writeMessage msg))) := by
  have fewer : s.toHost = [] → rest = [] := by simp [next]
  have unkeyed : s.hostStream = none := signed.unkeyed (by simp [at_, HostPc.Unread])
  have first (unread : s.client.Unread) :
      s.toClient.head? = some (p.writeMessage (h.hello p sk)) := by
    simpa [at_] using signed.greeting unread
  cases received : h.receive p (p.writeMessage msg) with
  | error e =>
      have failed : Signed p h sk { s with toHost := rest, host := .failed } :=
        signed.of_host fewer (fun unread => .inl (first unread)) nofun nofun nofun
      exact failed
  | ok greeted =>
      have started (stream : Option (Encrypt Key)) (set : greeted.key? = stream.map Encrypt.key) :
          ∃ msg greeted, s.answered = some msg ∧
            h.receive p (p.writeMessage msg) = .ok greeted ∧ greeted.key? = stream.map Encrypt.key :=
        ⟨msg, greeted, sent, received, set⟩
      cases greeted with
      | secured key =>
          exact signed.of_host fewer (fun unread => .inl (first unread)) nofun nofun fun _ =>
            started _ rfl
      | forceToUpdatePk =>
          exact signed.of_host fewer (fun unread => .inl (first unread)) nofun nofun fun _ =>
            started _ (by simp [unkeyed, Greeted.key?])
      | invalidMessageType =>
          exact signed.of_host fewer (fun unread => .inl (first unread)) nofun nofun fun _ =>
            started _ (by simp [unkeyed, Greeted.key?])

theorem Signed.client_step (does : ClientSteps p c s s') :
    Signed p h sk s' := by
  cases does with
  | stay => exact signed
  | uncertified at_ =>
      exact { signed with
        greeting := nofun
        unanswered := fun _ => signed.unanswered (by simp [at_, ClientPc.Unanswered])
        answering := by
          intro msg key at_
          cases at_
          exact meets_empty
        client := nofun }
  | certified signPk at_ =>
      exact { signed with
        greeting := fun _ => signed.greeting (by simp [at_, ClientPc.Unread])
        unanswered := fun _ => signed.unanswered (by simp [at_, ClientPc.Unanswered])
        answering := nofun
        client := nofun }
  | read signPk bytes rest at_ next =>
      have greeting : bytes = p.writeMessage (h.hello p sk) := by
        simpa [next] using signed.greeting (by simp [at_, ClientPc.Unread])
      exact { signed with
        greeting := nofun
        unanswered := fun _ => signed.unanswered (by simp [at_, ClientPc.Unanswered])
        answering := by
          intro msg key at_
          cases at_
          rw [greeting]
          exact answer_hello_meets
        client := nofun }
  | answer msg key pk at_ =>
      apply signed.fromClient at_ _ _ (.inr ⟨pk, rfl⟩)
      have unanswered := signed.unanswered (by simp [at_, ClientPc.Unanswered])
      rw [unanswered.2.1]
      intro _ _
      cases key <;> rfl
  | lose msg key at_ => exact signed.fromClient at_ .failed s.clientStream (.inl rfl) nofun
  | fail => exact { signed with
      greeting := nofun
      unanswered := nofun
      answering := nofun
      client := nofun }

theorem Signed.host_step (signing : h.signingKey = some sk)
    (does : HostSteps p h s s') : Signed p h sk s' := by
  cases does with
  | stay => exact signed
  | unsigned _ none_ => simp [signing] at none_
  | greet sk' host at_ some_ next =>
      obtain rfl : sk = sk' := Option.some.inj (signing.symm.trans some_)
      apply signed.of_host id
      · intro unread
        left
        rcases signed.greeting unread with first | ⟨none_, -⟩
        · simp [State.fromHost, first]
        · simp [State.fromHost, none_]
      · exact fun _ => signed.answer (by simp [at_, HostPc.Unread])
      · exact fun _ => signed.unkeyed (by simp [at_, HostPc.Unread])
      · rintro rfl
        simp at next
  | read bytes rest at_ next =>
      have answered := signed.answer (by simp [at_, HostPc.Unread])
      rw [next] at answered
      obtain ⟨msg, sent, rfl⟩ := Option.map_eq_some_iff.mp answered.symm
      exact signed.greeted at_ next sent
  | fail =>
      apply signed.of_host id
      · exact fun unread => (signed.greeting unread).imp_right fun none_ => ⟨none_.1, .inr rfl⟩
      · nofun
      · nofun
      · nofun

theorem Signed.step (signing : h.signingKey = some sk)
    (honest : e.Honest) : Signed p h sk (s.step p box c h e) := by
  have steps := step_cases p box c h s e
  generalize s.step p box c h e = s' at steps
  cases steps with
  | stay => exact signed
  | client _ does => exact signed.client_step does
  | host _ does => exact signed.host_step signing does
  | clientSends msg pk stream frame at_ sealed_ =>
      obtain ⟨answer, answered, meets⟩ := signed.client pk at_
      exact { signed with
        unanswered := fun unanswered => by simp [at_, ClientPc.Unanswered] at unanswered
        answer := by
          intro unread
          have first := signed.answer unread
          rw [answered] at first ⊢
          simp [List.head?_append, first]
        client := by
          intro _ _
          refine ⟨answer, answered, ?_⟩
          simpa only [State.clientKey, key_of_sealWith sealed_] using meets }
  | hostSends msg stream frame at_ sealed_ =>
      apply signed.of_host id
      · intro unread
        left
        rcases signed.greeting unread with first | ⟨none_, idle⟩
        · simp [first]
        · simp [at_] at idle
      · exact signed.answer
      · simp [at_, HostPc.Unread]
      · simpa only [State.hostKey, key_of_sealWith sealed_] using signed.host
  | tamper => exact honest.elim

theorem Signed.agreed : s.Agreed := by
  rintro ⟨pk, ok⟩ started
  obtain ⟨msg, answered, meets⟩ := signed.client pk ok
  obtain ⟨msg', greeted, answered', received, key⟩ := signed.host started
  obtain rfl : msg' = msg := Option.some.inj (answered'.symm.trans answered)
  exact (meets greeted received).symm.trans key

end

theorem agreed {events : List Event} (honest : ∀ e ∈ events, e.Honest) :
    Always (State.step p box c h) State.Agreed {} events := by
  cases signing : h.signingKey with
  | none =>
      have plain : Plain p {} := ⟨nofun, rfl, nofun, rfl, nofun⟩
      have keep (s : State) (e : Event) (honest : e.Honest) (plain : Plain p s) :
          Plain p (s.step p box c h e) := plain.step signing honest
      have always := always_of_events keep honest plain
      apply always.mono
      intro s plain _ _
      rw [State.clientKey, State.hostKey, plain.clientStream, plain.hostStream]
  | some sk =>
      have signed : Signed p h sk {} :=
        ⟨fun _ => .inr ⟨rfl, .inl rfl⟩, fun _ => ⟨rfl, rfl, rfl⟩, fun _ => rfl, nofun, nofun,
          fun _ => rfl, nofun⟩
      have keep (s : State) (e : Event) (honest : e.Honest) (signed : Signed p h sk s) :
          Signed p h sk (s.step p box c h e) := signed.step signing honest
      have always := always_of_events keep honest signed
      exact always.mono fun _ => Signed.agreed

end

section

variable {p} {box : SecretBox Key} {c : Client} {h : Host} {s : State}

/-- The holder of the secret key for `signer` has signed `pk` together with `id`. -/
def Certified (p : Primitives) (signedBy : Key → Bytes → Prop) (signer : Key) (id : Bytes)
    (pk : Key) : Prop :=
  ∃ bytes, signedBy signer bytes ∧ p.parseIdPk bytes = .ok ⟨id, pk.1⟩

/-- The rendezvous key has certified this key for the peer. -/
def Client.Trusts (p : Primitives) (signedBy : Key → Bytes → Prop) (c : Client) (signPk : Key) : Prop :=
  ∃ rsPk, c.rsPk = some rsPk ∧ Certified p signedBy rsPk c.peerId signPk

/-- The message seals the key for a box that the peer has certified. -/
def Client.SealsForPeer (p : Primitives) (signedBy : Key → Bytes → Prop) (c : Client) (msg : Message)
    (key : Key) : Prop :=
  ∃ signPk boxPk, c.Trusts p signedBy signPk ∧ Certified p signedBy signPk c.peerId boxPk ∧
    msg = ⟨some (.publicKey {
      asymmetricValue := (p.boxPublicKey c.ourSkB).1
      symmetricValue := p.boxSeal key.1 zeroNonce boxPk c.ourSkB })⟩

def State.Authentic (p : Primitives) (signedBy : Key → Bytes → Prop) (c : Client) (s : State) : Prop :=
  ∀ key, s.clientKey = some key → ∃ msg, s.answered = some msg ∧ c.SealsForPeer p signedBy msg key

variable {signedBy : Key → Bytes → Prop}

theorem certified_of_decodeIdPk (ideal : ∀ signed pk m, p.verify signed pk = some m → signedBy pk m)
    {signed id : Bytes} {signer pk : Key} (decoded : decodeIdPk p signed signer = .ok (id, pk)) :
    Certified p signedBy signer id pk := by
  obtain ⟨bytes, verified, parsed⟩ := decodeIdPk_some decoded
  exact ⟨bytes, ideal signed signer bytes verified, parsed⟩

theorem trusts_signPk (ideal : ∀ signed pk m, p.verify signed pk = some m → signedBy pk m)
    {signPk : Key} (known : c.signPk p = some signPk) : c.Trusts p signedBy signPk := by
  unfold Client.signPk at known
  split at known
  · nomatch known
  · split at known
    · nomatch known
    · rename_i rsPk configured
      split at known
      · nomatch known
      · rename_i id pk decoded
        split at known
        · rename_i peer
          cases known
          exact ⟨rsPk, configured, peer ▸ certified_of_decodeIdPk ideal decoded⟩
        · nomatch known

/-- Every key on the way into the client's stream comes with its two certificates. -/
structure Chained (p : Primitives) (signedBy : Key → Bytes → Prop) (c : Client) (s : State) : Prop where
  waiting : ∀ signPk, s.client = .waiting signPk → c.Trusts p signedBy signPk
  answering : ∀ msg key, s.client = .answering msg (some key) → c.SealsForPeer p signedBy msg key
  unanswered : s.client.Unanswered → s.clientStream = none
  keyed : s.Authentic p signedBy c

theorem Chained.client_step (ideal : ∀ signed pk m, p.verify signed pk = some m → signedBy pk m)
    {s' : State} (chained : Chained p signedBy c s) (does : ClientSteps p c s s') :
    Chained p signedBy c s' := by
  cases does with
  | stay => exact chained
  | uncertified at_ =>
      exact { chained with
        waiting := nofun
        answering := nofun
        unanswered := fun _ => chained.unanswered (by simp [at_, ClientPc.Unanswered]) }
  | certified signPk at_ known =>
      exact { chained with
        waiting := by
          intro signPk' at_
          cases at_
          exact trusts_signPk ideal known
        answering := nofun
        unanswered := fun _ => chained.unanswered (by simp [at_, ClientPc.Unanswered]) }
  | read signPk bytes rest at_ =>
      exact { chained with
        waiting := nofun
        answering := by
          intro msg key answered
          have answer : c.answer p signPk bytes = (msg, some key) := by
            injection answered with msg_ key_
            exact Prod.ext msg_ key_
          obtain ⟨si, boxPk, -, decoded, -, sealed_⟩ := answer_some answer
          exact ⟨signPk, boxPk, chained.waiting signPk at_, certified_of_decodeIdPk ideal decoded,
            sealed_⟩
        unanswered := fun _ => chained.unanswered (by simp [at_, ClientPc.Unanswered]) }
  | answer msg key pk at_ =>
      have unkeyed := chained.unanswered (by simp [at_, ClientPc.Unanswered])
      exact {
        waiting := nofun
        answering := nofun
        unanswered := nofun
        keyed := by
          intro key' set
          cases key with
          | none => simp [State.clientKey, State.setKey, unkeyed] at set
          | some key =>
              obtain rfl : key = key' := by
                simpa [State.clientKey, State.setKey, Encrypt.new] using set
              exact ⟨msg, rfl, chained.answering msg key at_⟩ }
  | lose msg key at_ =>
      have unkeyed := chained.unanswered (by simp [at_, ClientPc.Unanswered])
      exact {
        waiting := nofun
        answering := nofun
        unanswered := nofun
        keyed := by
          intro key' set
          simp [State.clientKey, State.fromClient, unkeyed] at set }
  | fail =>
      exact { chained with
        waiting := nofun
        answering := nofun
        unanswered := nofun }

theorem Chained.step (ideal : ∀ signed pk m, p.verify signed pk = some m → signedBy pk m)
    (e : Event) (chained : Chained p signedBy c s) : Chained p signedBy c (s.step p box c h e) := by
  have steps := step_cases p box c h s e
  generalize s.step p box c h e = s' at steps
  cases steps with
  | stay => exact chained
  | client _ does => exact chained.client_step ideal does
  | host _ does =>
      cases does with
      | stay | unsigned | greet | fail => exact { chained with }
      | read bytes rest =>
          unfold State.greeted
          split <;> exact { chained with }
  | clientSends msg pk stream frame at_ sealed_ =>
      exact { chained with
        unanswered := fun unanswered => by simp [at_, ClientPc.Unanswered] at unanswered
        keyed := by
          simpa only [State.Authentic, State.clientKey, key_of_sealWith sealed_] using
            chained.keyed }
  | hostSends | tamper => exact { chained with }

/-- Over an unmodified stream the two ends agree on a key or on none. Whatever is delivered
    instead, the client sets no key but one that it has sealed for its peer. -/
theorem handshake (ideal : ∀ signed pk m, p.verify signed pk = some m → signedBy pk m)
    (box : SecretBox Key) (c : Client) (h : Host) (events : List Event) :
    ((∀ e ∈ events, e.Honest) → Always (State.step p box c h) State.Agreed {} events) ∧
      Always (State.step p box c h) (State.Authentic p signedBy c) {} events := by
  constructor
  · exact agreed
  · have chained : Chained p signedBy c {} := ⟨nofun, nofun, fun _ => rfl, nofun⟩
    have always : Always (State.step p box c h) (Chained p signedBy c) {} events :=
      always_of_events (fun _ e (_ : True) chained => Chained.step ideal e chained)
        (fun _ _ => trivial) chained
    exact always.mono fun _ => Chained.keyed

end

/-- The length of the first text in ones, and both. -/
def pair (a b : Bytes) : Bytes := List.replicate a.length 1 ++ 0 :: a ++ b

def unpair (bytes : Bytes) : Bytes × Bytes :=
  let length := (bytes.takeWhile (· = 1)).length
  ((bytes.drop (length + 1)).take length, (bytes.drop (length + 1)).drop length)

theorem unpair_pair (a b : Bytes) : unpair (pair a b) = (a, b) := by
  have ones : (pair a b).takeWhile (· = 1) = List.replicate a.length 1 := by
    simp [pair]
  have rest : (pair a b).drop (a.length + 1) = a ++ b := by
    simp [pair, List.drop_append]
  simp [unpair, ones, rest]

/-- Primitives without any secrecy. -/
def Primitives.plain : Primitives where
  sign m sk := sk.1 ++ m
  verify signed pk := if (signed.take 64).drop 32 = pk.1 then some (signed.drop 64) else none
  verify_sign m sk pk m' verified := by
    have length := sk.2
    split at verified
    · simp [← Option.some.inj verified, length]
    · nomatch verified
  boxPublicKey sk := sk
  boxSeal m _ pk _ := pk.1 ++ m
  boxOpen m _ _ sk := if m.take 32 = sk.1 then some (m.drop 32) else none
  boxOpen_boxSeal m _ a _ := by
    have length := a.2
    simp [length]
  writeMessage
    | ⟨none⟩ => []
    | ⟨some (.signedId id)⟩ => 1 :: id
    | ⟨some (.publicKey pk)⟩ => 2 :: pair pk.asymmetricValue pk.symmetricValue
    | ⟨some (.other data)⟩ => 3 :: data
  parseMessage
    | [] => .ok ⟨none⟩
    | 1 :: id => .ok ⟨some (.signedId id)⟩
    | 2 :: pk => .ok ⟨some (.publicKey ⟨(unpair pk).1, (unpair pk).2⟩)⟩
    | _ :: data => .ok ⟨some (.other data)⟩
  parse_writeMessage msg := by
    obtain ⟨union⟩ := msg
    cases union with
    | none => rfl
    | some union => cases union <;> simp [unpair_pair]
  writeIdPk idPk := pair idPk.id idPk.pk
  parseIdPk bytes := .ok ⟨(unpair bytes).1, (unpair bytes).2⟩
  parse_writeIdPk idPk := by simp [unpair_pair]

def plainBox : SecretBox Key where
  seal_ data nonce _ := SecretBox.plain.seal_ data nonce ()
  open_ bytes nonce _ := SecretBox.plain.open_ bytes nonce ()
  opens data nonce _ := SecretBox.plain.opens data nonce ()
  longer data nonce _ := SecretBox.plain.longer data nonce ()

/-- A key of one byte repeated. -/
def keyOf (n : Nat) (byte : UInt8) : Fixed n := ⟨List.replicate n byte, List.length_replicate⟩

def peer : Host where
  secure := true
  sk := (keyOf 64 2).1
  pk := (keyOf 32 2).1
  id := [9]
  ourSkB := keyOf 32 3

def caller : Client where
  peerId := [9]
  signedIdPk := (keyOf 64 1).1 ++ pair [9] (keyOf 32 2).1
  key := Base64.encode (keyOf 32 1).1
  ourSkB := keyOf 32 4
  symmetricKey := keyOf 32 5

def greeting : List Event :=
  [.host .ok, .client .ok, .client .ok, .client .ok, .host .ok, .hostSends ⟨{}, nofun⟩]

theorem handshake_greeting :
    (Runs.exec (State.step .plain plainBox caller peer) {} greeting).hostKey = some (keyOf 32 5) ∧
      Always (State.step .plain plainBox caller peer) State.Agreed {} greeting ∧
      Always (State.step .plain plainBox caller peer)
        (State.Authentic .plain (fun pk m => ∃ signed, Primitives.plain.verify signed pk = some m)
          caller) {} greeting := by
  have ideal (signed : Bytes) (pk : Key) (m : Bytes)
      (verified : Primitives.plain.verify signed pk = some m) :
      ∃ signed, Primitives.plain.verify signed pk = some m := ⟨signed, verified⟩
  have both := handshake ideal plainBox caller peer greeting
  exact ⟨by decide +kernel, both.1 (by decide), both.2⟩

end RemoteControl.Stream.Handshake
