import RemoteControl.PortForward.Tunnel

/-! # What comes out of a tunnel

A tunnel is transparent if each side is handed a beginning of what the other has written,
and nothing is lost while both ends forward.

The client answers every `TestDelay` it finds before the `LoginResponse`, and the event loop
counts on that when it waits for the reply. `Standing` keeps the count: a `TestDelay` that
is not answered is under way to the client, or its reply to the host. What goes wrong is
what the wait does not cover, and `Clean` lists it.
-/

namespace RemoteControl.PortForward

open Host hiding Bytes Event step
open RemoteControl.Stream (Bytes SecretBox Encrypt Endpoint Link Fits)
open Runs

def asSeen : Outgoing → HostMessage
  | .loginError _ => .loginError
  | .loginResponse _ => .peerInfo
  | .testDelay => .testDelay false
  | _ => .other

/-- The messages a host sends until a port-forward login is over. -/
def isOfLogin : Outgoing → Bool
  | .loginError _ | .loginResponse _ | .testDelay | .permissionInfo _ _ => true
  | _ => false

/-- Messages are read as they were written, and those of a login fit into a frame. -/
structure Wire.Lawful (wire : Wire) : Prop where
  readHost : ∀ m, wire.readHost (wire.ofHost m) = some (asSeen m)
  fitsHost : ∀ m, isOfLogin m = true → Fits (wire.ofHost m)
  readReply : wire.readClient (wire.ofClient (.testDelay false)) = some (.testDelay false)
  fitsReply : Fits (wire.ofClient (.testDelay false))

/-- A login request of the client is read as it was written, and fits. -/
def Setting.Carries {Key : Type} (set : Setting Key) (lr : LoginRequest) : Prop :=
  set.wire.readClient (set.wire.ofClient (set.createLoginMsg lr)) = some (set.createLoginMsg lr) ∧
    Fits (set.wire.ofClient (set.createLoginMsg lr))

def Event.Carried {Key : Type} (set : Setting Key) : Event → Prop
  | .uiLogin lr => set.Carries lr
  | .clientNext ui => set.Carries ui.login
  | _ => True

/-- What the host says before its event loop: the `Hash`, and what is not permitted. -/
def Setting.Greets {Key : Type} (set : Setting Key) (msg : Bytes) : Prop :=
  (set.wire.readHost msg = some .hash ∨ set.wire.readHost msg = some .other) ∧ Fits msg

namespace Tunnel

variable {Key : Type}

/-- All that was written has been handed over, is the end of what is under way, or is held
    back. -/
def Kept (wrote given flight held : Bytes) : Prop :=
  ∃ data ∈ flight.tails, wrote = given ++ data ++ held

instance (wrote given flight held : Bytes) : Decidable (Kept wrote given flight held) :=
  inferInstanceAs (Decidable (∃ data ∈ flight.tails, _))

/-- Each side has been given a beginning of what the other wrote. While both ends are up
    nothing is lost, and once both forward there is nothing else under way. -/
def Transparent (s : Tunnel Key) : Prop :=
  s.host.toTarget <+: s.appWrote ∧ s.client.toApp <+: s.targetWrote ∧
    (s.client.phase ≠ .ended → s.host.phase ≠ .ended →
      Kept s.appWrote s.host.toTarget (s.host.stream.buffer ++ s.toHost)
        (s.client.buffer ++ s.client.fromApp) ∧
      Kept s.targetWrote s.client.toApp (s.client.stream.buffer ++ s.toClient) s.host.fromTarget) ∧
    (s.client.phase = .forward → s.host.phase = .forward →
      s.appWrote = s.host.toTarget ++ s.host.stream.buffer ++ s.toHost ++ s.client.fromApp ∧
      s.targetWrote = s.client.toApp ++ s.client.stream.buffer ++ s.toClient ++ s.host.fromTarget)

instance (s : Tunnel Key) : Decidable s.Transparent :=
  inferInstanceAs (Decidable (_ ∧ _ ∧ (_ → _ → _ ∧ _) ∧ (_ → _ → _ ∧ _)))

/-- The step takes the host from its event loop to the raw bytes. -/
def hostGoesRaw (set : Setting Key) (s : Tunnel Key) (e : Event) : Bool :=
  s.host.phase = .loop ∧ (s.step set e).host.phase = .forward

/-- The step makes the client send a login request. -/
def clientLogsIn (set : Setting Key) (s : Tunnel Key) : Event → Bool
  | .uiLogin _ => s.client.phase = .login
  | .clientNext _ =>
      match s.client.phase, (s.client.stream.poll set.box).2 with
      | .login, .item bytes => set.wire.readHost bytes = some .hash
      | _, _ => false
  | _ => false

/-- The step takes a message of the client off the stream. -/
def takesFrame : Event → Nat
  | .hostNext _ => 1
  | _ => 0

/-- The step accepts a login over the head of the client. -/
def isAuthorize : Event → Bool
  | .authorize _ => true
  | _ => false

/-- The step tells the client about a permission. -/
def tellsPermission : Event → Bool
  | .switchPermission _ name _ => isPermissionName name
  | _ => false

/-- No message in either direction is left for an end that has gone raw:
    * the host leaves its event loop with every message of the client read, and by
      `Authorize` only with no `TestDelay` unanswered;
    * the client does not log in once the host has left;
    * no permission is switched between the login and that moment. -/
def Clean (set : Setting Key) (s : Tunnel Key) (e : Event) : Prop :=
  (s.hostGoesRaw set e = true → s.host.framesRead + takesFrame e = s.client.framesSent ∧
    (isAuthorize e = true → s.host.world.conn.lastTestDelay = false)) ∧
  (s.clientLogsIn set e = true → s.host.phase ≠ .forward) ∧
  (tellsPermission e = true → s.host.phase = .loop → s.host.world.conn.authorized = false)

instance (set : Setting Key) (s : Tunnel Key) (e : Event) : Decidable (s.Clean set e) :=
  inferInstanceAs (Decidable ((_ → _ ∧ (_ → _)) ∧ (_ → _) ∧ (_ → _ → _)))

/-! ## The invariant -/

section Counts

variable (set : Setting Key)

/-- How many of these messages a client replies to. -/
def delays (ns : List Bytes) : Nat :=
  ns.countP fun n => set.wire.readHost n = some (.testDelay false)

/-- How many of these messages are such replies. -/
def replies (ms : List Bytes) : Nat :=
  ms.countP fun m => set.wire.readClient m = some (.testDelay false)

/-- The answer to the login is not among these messages. -/
def Unanswered (ns : List Bytes) : Prop := ∀ n ∈ ns, set.wire.readHost n ≠ some .peerInfo

/-- The answer is the last of these messages. -/
def Answered (ns : List Bytes) : Prop :=
  ∃ before last, ns = before ++ [last] ∧ Unanswered set before ∧
    set.wire.readHost last = some .peerInfo

/-- What a client of this tunnel sends. -/
def Requests (msg : Bytes) : Prop :=
  set.wire.readClient msg = some (.testDelay false) ∨
    ∃ lr, set.wire.readClient msg = some (.loginRequest lr) ∧
      lr.union = some (.portForward set.portForward)

end Counts

section Answers

variable {set : Setting Key} {n : Bytes} {ns sent : List Bytes}

theorem Answered.tail (answered : Answered set (n :: ns))
    (other : set.wire.readHost n ≠ some .peerInfo) :
    Answered set ns := by
  obtain ⟨before, last, all, none_, answer⟩ := answered
  cases before with
  | nil =>
      obtain ⟨rfl, rfl⟩ := List.cons.inj all
      exact absurd answer other
  | cons first before =>
      obtain ⟨rfl, rfl⟩ := List.cons.inj all
      exact ⟨before, last, rfl, fun m member => none_ m (List.mem_cons_of_mem n member), answer⟩

theorem Answered.last_ (answered : Answered set (n :: ns))
    (answer : set.wire.readHost n = some .peerInfo) :
    ns = [] := by
  obtain ⟨before, last, all, none_, -⟩ := answered
  cases before with
  | nil => exact (List.cons.inj all).2
  | cons first before =>
      obtain ⟨rfl, -⟩ := List.cons.inj all
      exact absurd answer (none_ n (List.mem_cons_self ..))

/-- Before all of an answer is sent, nothing of it is. -/
theorem Answered.of_prefix {part : List Bytes} (answered : Answered set ns) (isPart : part <+: ns) :
    Unanswered set part ∨ Answered set part := by
  obtain ⟨before, last, rfl, none_, answer⟩ := answered
  rcases List.prefix_concat_iff.mp isPart with rfl | earlier
  · exact .inr ⟨before, last, rfl, none_, answer⟩
  · exact .inl fun m member => none_ m (earlier.subset member)

end Answers

/-- The event loop runs. Once the login is accepted it waits for a reply and nothing else. -/
structure Looping (w : World) (cmAsked : Bool) : Prop where
  running : w.running = true
  waits : w.conn.authorized = true → w.conn.portForwardSocket = true ∧ w.conn.lastTestDelay = true
  closed : w.conn.authorized = false → w.conn.portForwardSocket = false
  asked : cmAsked = true → ∃ pf, w.conn.lr.union = some (.portForward pf)

/-- What holds of a tunnel with these messages and raw bytes under way. `owed` is the number
    of replies that an end has in its hands. -/
structure Standing (set : Setting Key) (s : Tunnel Key) (ms : List Bytes) (d : Bytes)
    (ns : List Bytes) (t : Bytes) (owed : Nat) : Prop where
  link : Link set.box s.client.stream s.host.stream s.toHost s.toClient ms d ns t
  clientRaw : s.client.stream.isRaw = true ↔ s.client.phase = .forward
  hostRaw : s.host.stream.isRaw = true ↔ s.host.phase = .forward
  requests : ∀ m ∈ ms, Requests set m
  app : s.appWrote = s.host.toTarget ++ d ++ s.client.buffer ++ s.client.fromApp
  target : s.targetWrote = s.client.toApp ++ t ++ s.host.fromTarget
  forwards : s.client.phase = .forward →
    s.client.buffer = [] ∧ ns = [] ∧ (s.host.phase = .loop → s.host.world.conn.authorized = true)
  /-- Before it forwards, a client has yet to find its answer, sent or not. -/
  answer : s.client.phase ≠ .forward →
    (Unanswered set ns ∧ s.host.phase ≠ .forward ∧
      (s.host.phase = .loop → s.host.world.conn.authorized = false)) ∨
    (Answered set ns ∧ (s.host.phase = .loop → s.host.world.conn.authorized = true))
  loop : s.host.phase = .loop → Looping s.host.world s.host.cmAsked
  frames : s.host.phase = .loop → s.host.framesRead + ms.length = s.client.framesSent
  counted : s.host.phase = .loop → s.client.phase ≠ .ended →
    delays set ns + replies set ms + owed = s.host.world.conn.lastTestDelay.toNat
  quiet : s.host.phase = .forward → s.client.phase = .login → delays set ns = 0

namespace Standing

variable {set : Setting Key} {s : Tunnel Key} {ms ns : List Bytes} {d t : Bytes} {owed : Nat}

section

variable (standing : Standing set s ms d ns t owed)

include standing

theorem transparent : s.Transparent := by
  refine ⟨?_, ?_, fun _ _ => ⟨⟨d, ?_, ?_⟩, t, ?_, standing.target⟩, fun client host => ?_⟩
  · rw [standing.app]
    simp
  · rw [standing.target]
    simp
  · rw [List.mem_tails]
    exact standing.link.away.suffix
  · rw [standing.app]
    simp
  · rw [List.mem_tails]
    exact standing.link.towards.suffix
  · obtain ⟨-, -, here⟩ := standing.link.towards.raw (standing.clientRaw.mpr client)
    obtain ⟨-, -, there⟩ := standing.link.away.raw (standing.hostRaw.mpr host)
    rw [standing.app, standing.target, ← here, ← there, (standing.forwards client).1]
    simp

theorem client_framed (login : s.client.phase ≠ .forward) :
    s.client.stream.isRaw = false := by
  rw [Bool.eq_false_iff]
  exact mt standing.clientRaw.mp login

theorem host_framed (loop : s.host.phase ≠ .forward) :
    s.host.stream.isRaw = false := by
  rw [Bool.eq_false_iff]
  exact mt standing.hostRaw.mp loop

/-- A client that has ended owes nothing. -/
theorem clientEnds (login : s.client.phase ≠ .forward)
    (owed' : Nat) : Standing set s.clientEnds ms d ns t owed' :=
  { standing with
    clientRaw := by
      have framed := standing.client_framed login
      simp [Tunnel.clientEnds, setClient, framed]
    forwards := nofun
    answer := fun _ => standing.answer login
    counted := fun _ up => absurd rfl up
    quiet := nofun }

end

theorem clientSends {msg : Message} (standing : Standing set s ms d ns t (owed +
      replies set [set.wire.ofClient msg])) (login : s.client.phase = .login)
    (loop : s.host.phase ≠ .forward) (fits : Fits (set.wire.ofClient msg))
    (request : Requests set (set.wire.ofClient msg)) :
    ∃ ms', Standing set (s.clientSends set msg) ms' d ns t owed := by
  have login' : s.client.phase ≠ .forward := by simp [login]
  unfold Tunnel.clientSends
  cases sent : s.client.stream.send set.box (set.wire.ofClient msg) with
  | none => exact ⟨ms, standing.clientEnds login' owed⟩
  | some sent' =>
      obtain ⟨stream, bytes⟩ := sent'
      have framed := standing.client_framed login'
      have link := standing.link.send framed (standing.host_framed loop) sent fits
      have raw : stream.isRaw = s.client.stream.isRaw :=
        congrArg Stream.BytesCodec.raw (Stream.send_spec sent).1
      refine ⟨ms ++ [set.wire.ofClient msg], link, ?_, standing.hostRaw, ?_, standing.app,
        standing.target, standing.forwards, standing.answer, standing.loop, ?_, ?_, standing.quiet⟩
      · exact raw ▸ standing.clientRaw
      · rw [List.forall_mem_append, List.forall_mem_singleton]
        exact ⟨standing.requests, request⟩
      · intro looping
        have frames := standing.frames looping
        simp only [List.length_append, List.length_cons, List.length_nil]
        omega
      · intro looping up
        have count := standing.counted looping up
        simp only [replies, List.countP_append] at count ⊢
        change _ = s.host.world.conn.lastTestDelay.toNat
        omega

/-- The client asks to log in. -/
theorem clientAsks {lr : LoginRequest} (standing : Standing set s ms d ns t 0)
    (login : s.client.phase = .login) (loop : s.host.phase ≠ .forward) (carried : set.Carries lr) :
    ∃ ms', Standing set (s.clientSends set (set.createLoginMsg lr)) ms' d ns t 0 := by
  obtain ⟨read, fits⟩ := carried
  have differs : set.createLoginMsg lr ≠ .testDelay false := nofun
  have plain : replies set [set.wire.ofClient (set.createLoginMsg lr)] = 0 := by
    simp [replies, read, differs]
  have asks :
      Standing set s ms d ns t (0 + replies set [set.wire.ofClient (set.createLoginMsg lr)]) := by
    rw [plain]
    exact standing
  exact asks.clientSends login loop fits (.inr ⟨_, read, rfl⟩)

/-- The client has polled and found nothing whole. -/
theorem client_waits {stream : Endpoint Key} (standing : Standing set s ms d ns t owed)
    (link : Link set.box stream s.host.stream s.toHost s.toClient ms d ns t)
    (raw : stream.isRaw = s.client.stream.isRaw) :
    Standing set (s.setClient fun c => { c with stream := stream }) ms d ns t owed :=
  { standing with link := link, clientRaw := raw ▸ standing.clientRaw }

section Taken

variable {stream : Endpoint Key} {n : Bytes}

/-- A message that is not the answer leaves the client with at most a reply to give. -/
theorem client_takes (standing : Standing set s ms d (n :: ns) t 0) (login : s.client.phase = .login)
    (link : Link set.box stream s.host.stream s.toHost s.toClient ms d ns t)
    (framed : stream.isRaw = false) (other : set.wire.readHost n ≠ some .peerInfo) :
    Standing set (s.setClient fun c => { c with stream := stream }) ms d ns t
      (Tunnel.delays set [n]) :=
  { standing with
    link := link
    clientRaw := by simp [setClient, framed, login]
    forwards := fun forward => by simp [setClient, login] at forward
    answer := by
      intro _
      rcases standing.answer (by simp [login]) with ⟨none_, free⟩ | ⟨answered, accepted⟩
      · exact .inl ⟨fun m member => none_ m (List.mem_cons_of_mem n member), free⟩
      · exact .inr ⟨answered.tail other, accepted⟩
    counted := by
      intro loop up
      have count := standing.counted loop up
      simp only [Tunnel.delays, List.countP_cons, List.countP_nil] at count ⊢
      change _ = s.host.world.conn.lastTestDelay.toNat
      omega
    quiet := by
      intro forward _
      have none_ := standing.quiet forward login
      simp only [Tunnel.delays, List.countP_cons] at none_ ⊢
      omega }

/-- With its answer the client goes raw, and nothing is left for it to misread. -/
theorem client_forwards (standing : Standing set s ms d (n :: ns) t 0) (login : s.client.phase = .login)
    (link : Link set.box stream s.host.stream s.toHost s.toClient ms d ns t)
    (answer : set.wire.readHost n = some .peerInfo) :
    Standing set (s.setClient fun c => { c with stream := stream }).clientForwards ms
      (d ++ s.client.buffer) [] t 0 := by
  obtain ⟨rfl, accepted⟩ : ns = [] ∧ (s.host.phase = .loop → s.host.world.conn.authorized = true) := by
    rcases standing.answer (by simp [login]) with ⟨none_, -⟩ | ⟨answered, accepted⟩
    · exact absurd answer (none_ n (List.mem_cons_self ..))
    · exact ⟨answered.last_ answer, accepted⟩
  have sent : (if s.client.buffer ≠ [] then stream.setRaw.sendBytes s.client.buffer else []) =
      s.client.buffer := by
    split_ifs with held
    · exact Endpoint.sendBytes_of_raw rfl _
    · exact (not_ne_iff.mp held).symm
  have raw := (link.setRaw).write rfl s.client.buffer
  refine ⟨?_, iff_of_true rfl rfl, standing.hostRaw, standing.requests, ?_, standing.target,
    fun _ => ⟨rfl, rfl, accepted⟩, fun forward => absurd rfl forward, standing.loop, standing.frames,
    ?_, nofun⟩
  · change Link set.box stream.setRaw _ (s.toHost ++ if s.client.buffer ≠ [] then
      stream.setRaw.sendBytes s.client.buffer else []) _ _ _ _ _
    rw [sent]
    exact raw
  · change s.appWrote = s.host.toTarget ++ (d ++ s.client.buffer) ++ [] ++ s.client.fromApp
    rw [standing.app]
    simp
  · intro loop _
    have count := standing.counted loop (by simp [login])
    have plain : Tunnel.delays set [n] = 0 := by simp [Tunnel.delays, answer]
    rw [plain] at count
    exact count

end Taken

theorem clientHandles {msg : HostMessage} {ui : Ui} (lawful : set.wire.Lawful)
    (standing : Standing set s ms d ns t (if msg = .testDelay false then 1 else 0))
    (login : s.client.phase = .login) (other : msg ≠ .peerInfo) (carried : set.Carries ui.login)
    (clean : msg = .hash → s.host.phase ≠ .forward)
    (replied : msg = .testDelay false → s.host.phase ≠ .forward) :
    ∃ ms', Standing set (s.clientHandles set ui msg) ms' d ns t 0 := by
  have login' : s.client.phase ≠ .forward := by simp [login]
  cases msg with
  | hash => exact standing.clientAsks login (clean rfl) carried
  | loginError =>
      refine ⟨ms, ?_⟩
      unfold Tunnel.clientHandles
      split_ifs
      · exact standing
      · exact standing.clientEnds login' 0
  | peerInfo => exact absurd rfl other
  | testDelay fromClient =>
      cases fromClient with
      | true => exact ⟨ms, standing⟩
      | false =>
          have reply : replies set [set.wire.ofClient (.testDelay false)] = 1 := by
            simp [replies, lawful.readReply]
          exact Standing.clientSends (by rw [reply]; exact standing) login (replied rfl)
            lawful.fitsReply (.inl lawful.readReply)
  | other => exact ⟨ms, standing⟩

/-- What arrives at a client that forwards goes to the application. -/
theorem client_receives {rest : Bytes} (standing : Standing set s ms d ns t owed)
    (all : t = s.client.stream.buffer ++ rest)
    (link : Link set.box { s.client.stream with buffer := [] } s.host.stream s.toHost s.toClient
      ms d ns rest) :
    Standing set
      ((s.setClient fun c => { c with stream := { s.client.stream with buffer := [] } }).setClient
      fun c => { c with toApp := c.toApp ++ s.client.stream.buffer }) ms d ns rest owed :=
  { standing with
    link := link
    target := by
      change s.targetWrote = s.client.toApp ++ s.client.stream.buffer ++ rest ++ s.host.fromTarget
      rw [standing.target, all]
      simp }

theorem clientNext {ui : Ui} (lawful : set.wire.Lawful) (standing : Standing set s ms d ns t 0)
    (carried : set.Carries ui.login)
    (clean : s.clientLogsIn set (.clientNext ui) = true → s.host.phase ≠ .forward) :
    ∃ ms' d' ns' t', Standing set (s.clientNext set ui) ms' d' ns' t' 0 := by
  unfold Tunnel.clientNext
  cases phase : s.client.phase with
  | ended => exact ⟨ms, d, ns, t, standing⟩
  | forward =>
      have raw := standing.clientRaw.mpr phase
      rcases standing.link.poll_raw raw with nothing | ⟨rest, all, polled, link⟩
      · rw [nothing]
        exact ⟨ms, d, ns, t, standing.client_waits standing.link rfl⟩
      · rw [polled]
        exact ⟨ms, d, ns, rest, standing.client_receives all link⟩
  | login =>
      have framed := standing.client_framed (by simp [phase])
      cases ns with
      | nil =>
          -- nothing is raw either: the host forwards only behind its answer
          have unanswered : s.host.phase ≠ .forward := by
            rcases standing.answer (by simp [phase]) with ⟨-, loop, -⟩ | ⟨⟨before, last, all, -⟩, -⟩
            · exact loop
            · simp at all
          obtain ⟨rfl, -⟩ := standing.link.towards.sending (standing.host_framed unanswered)
          rw [standing.link.towards.poll_of_nothing framed]
          exact ⟨ms, d, [], [], standing.client_waits standing.link rfl⟩
      | cons n ns =>
          obtain ⟨stream, framed', ⟨polled, link⟩ | ⟨polled, link⟩⟩ := standing.link.poll framed
          · rw [polled]
            exact ⟨ms, d, n :: ns, t, standing.client_waits link (framed'.trans framed.symm)⟩
          · rw [polled]
            dsimp only
            cases read : set.wire.readHost n with
            | none =>
                have taken := standing.client_takes phase link framed' (by simp [read])
                exact ⟨ms, d, ns, t, taken.clientEnds (by simp [setClient, phase]) 0⟩
            | some msg =>
                by_cases answer : msg = .peerInfo
                · subst answer
                  exact ⟨ms, _, [], t, standing.client_forwards phase link read⟩
                · have taken := standing.client_takes phase link framed' (by simpa [read] using answer)
                  have owed : Tunnel.delays set [n] = if msg = .testDelay false then 1 else 0 := by
                    simp [Tunnel.delays, read, List.countP_cons]
                  rw [owed] at taken
                  obtain ⟨ms', handled⟩ := taken.clientHandles lawful phase answer carried
                    (fun hash => clean (by simp [clientLogsIn, phase, polled, read, hash]))
                    (fun delay forward => by
                      have none_ := standing.quiet forward phase
                      simp [Tunnel.delays, read, delay] at none_)
                  exact ⟨ms', d, ns, t, handled⟩

theorem hostSends_of_ended (ended : s.host.phase = .ended) (msg : Bytes) : s.hostSends set msg = s := by
  unfold Tunnel.hostSends
  rw [ended]

theorem foldl_hostSends_of_ended (ended : s.host.phase = .ended) (msgs : List Bytes) :
    msgs.foldl (fun s msg => s.hostSends set msg) s = s := by
  induction msgs with
  | nil => rfl
  | cons msg msgs ih =>
      rw [List.foldl_cons, hostSends_of_ended ended]
      exact ih

/-- What the host sends is under way, all of it unless the host had to stop. -/
theorem foldl_hostSends {msgs : List Bytes}
    (link : Link set.box s.client.stream s.host.stream s.toHost s.toClient ms d ns t)
    (loop : s.host.phase = .loop) (framed : s.host.stream.isRaw = false)
    (fits : ∀ msg ∈ msgs, s.client.stream.isRaw = false ∧ Fits msg) :
    ∃ sent stream flight phase, sent <+: msgs ∧ stream.isRaw = false ∧
      Link set.box s.client.stream stream s.toHost flight ms d (ns ++ sent) t ∧
      msgs.foldl (fun s msg => s.hostSends set msg) s =
        { s with host := { s.host with stream := stream, phase := phase }, toClient := flight } ∧
      (phase = .loop ∧ sent = msgs ∨ phase = .ended) := by
  induction msgs generalizing s ns with
  | nil =>
      refine ⟨[], s.host.stream, s.toClient, .loop, List.nil_prefix, framed, ?_, ?_, .inl ⟨rfl, rfl⟩⟩
      · rw [List.append_nil]
        exact link
      · rw [← loop]
        rfl
  | cons msg msgs ih =>
      obtain ⟨framed', fit⟩ := fits msg (List.mem_cons_self ..)
      rw [List.foldl_cons]
      cases sent : s.host.stream.send set.box msg with
      | none =>
          have stopped : s.hostSends set msg = s.hostEnds := by
            simp only [Tunnel.hostSends, loop, sent]
          refine ⟨[], s.host.stream, s.toClient, .ended, List.nil_prefix, framed, ?_, ?_, .inr rfl⟩
          · rw [List.append_nil]
            exact link
          · rw [stopped, foldl_hostSends_of_ended rfl]
            rfl
      | some sent' =>
          obtain ⟨stream, bytes⟩ := sent'
          have raw : stream.isRaw = s.host.stream.isRaw :=
            congrArg Stream.BytesCodec.raw (Stream.send_spec sent).1
          have goes : s.hostSends set msg =
              { s with host := { s.host with stream := stream }, toClient := s.toClient ++ bytes } := by
            simp only [Tunnel.hostSends, loop, sent]
          obtain ⟨sent₁, stream₁, flight₁, phase₁, part, framed₁, link₁, result, reached⟩ :=
            ih (s := { s with host := { s.host with stream := stream }, toClient := s.toClient ++ bytes })
              (link.symm.send framed framed' sent fit).symm loop (raw.trans framed)
              fun msg' member => fits msg' (List.mem_cons_of_mem msg member)
          refine ⟨msg :: sent₁, stream₁, flight₁, phase₁, ?_, framed₁, ?_, ?_, ?_⟩
          · exact List.cons_prefix_cons.mpr ⟨rfl, part⟩
          · rw [List.append_cons]
            exact link₁
          · rw [goes, result]
          · exact reached.imp_left fun ⟨loop, all⟩ => ⟨loop, by rw [all]⟩

/-- What the event loop does with an event, seen from the client. -/
structure Reaction (set : Setting Key) (s : Tunnel Key) (ns : List Bytes) (owed : Nat) (w : World) :
    Prop where
  ofLogin : ∀ m ∈ w.sent, isOfLogin m = true
  silent : s.client.phase = .forward → w.sent = [] ∧ w.conn.authorized = true
  answer : s.client.phase ≠ .forward →
    (w.conn.authorized = false ∧ Unanswered set (ns ++ w.sent.map set.wire.ofHost)) ∨
    (w.conn.authorized = true ∧ Answered set (ns ++ w.sent.map set.wire.ofHost))
  balance : s.client.phase ≠ .ended → w.conn.lastTestDelay.toNat + owed =
    s.host.world.conn.lastTestDelay.toNat + Tunnel.delays set (w.sent.map set.wire.ofHost)
  waits : w.running = true → w.conn.authorized = true →
    w.conn.portForwardSocket = true ∧ w.conn.lastTestDelay = true
  closed : w.conn.authorized = false → w.conn.portForwardSocket = false
  asked : (s.host.cmAsked || w.tellsCm) = true → ∃ pf, w.conn.lr.union = some (.portForward pf)

section Handled

variable {w : World} {stream : Endpoint Key} {flight : Bytes} {sent : List Bytes}

/-- The host has handled an event, with this world, this stream and these bytes sent. -/
def handled (s : Tunnel Key) (w : World) (stream : Endpoint Key) (flight : Bytes) (phase : HostPhase) :
    Tunnel Key :=
  { s with
    host := { s.host with
      stream := stream, phase := phase, world := w, cmAsked := s.host.cmAsked || w.tellsCm }
    toClient := flight }

section

variable (standing : Standing set s ms d ns t owed)

include standing

/-- A client that forwards is told nothing. -/
theorem told_nothing (reaction : Reaction set s ns owed w)
    (forward : s.client.phase = .forward) (part : sent <+: w.sent.map set.wire.ofHost) :
    s.client.buffer = [] ∧ ns ++ sent = [] := by
  obtain ⟨buffer, rfl, -⟩ := standing.forwards forward
  rw [(reaction.silent forward).1] at part
  exact ⟨buffer, List.prefix_nil.mp part⟩

/-- The host had to stop, before or after the last of its messages. -/
theorem handled_ends (reaction : Reaction set s ns owed w)
    (link : Link set.box s.client.stream stream s.toHost flight ms d (ns ++ sent) t)
    (framed : stream.isRaw = false) (part : sent <+: w.sent.map set.wire.ofHost) :
    Standing set (handled s w stream flight .ended) ms d (ns ++ sent) t 0 :=
  { standing with
    link := link
    hostRaw := iff_of_false (by simp [handled, framed]) nofun
    forwards := by
      intro forward
      obtain ⟨buffer, nothing⟩ := standing.told_nothing reaction forward part
      exact ⟨buffer, nothing, nofun⟩
    answer := by
      intro login
      have part' := (List.prefix_append_right_inj ns).mpr part
      rcases reaction.answer login with ⟨-, none_⟩ | ⟨-, all⟩
      · exact .inl ⟨fun m member => none_ m (part'.subset member), nofun, nofun⟩
      · exact (all.of_prefix part').imp (fun none_ => ⟨none_, nofun, nofun⟩) fun all => ⟨all, nofun⟩
    loop := nofun
    frames := nofun
    counted := nofun
    quiet := nofun }

/-- The event loop goes on. -/
theorem handled_stays (loop : s.host.phase = .loop)
    (reaction : Reaction set s ns owed w) (running : w.running = true) (framed : stream.isRaw = false)
    (link : Link set.box s.client.stream stream s.toHost flight ms d
      (ns ++ w.sent.map set.wire.ofHost) t) :
    Standing set (handled s w stream flight .loop) ms d (ns ++ w.sent.map set.wire.ofHost) t 0 :=
  { standing with
    link := link
    hostRaw := iff_of_false (by simp [handled, framed]) nofun
    forwards := by
      intro forward
      obtain ⟨buffer, nothing⟩ := standing.told_nothing reaction forward List.prefix_rfl
      exact ⟨buffer, nothing, fun _ => (reaction.silent forward).2⟩
    answer := fun login => (reaction.answer login).imp
      (fun ⟨refused, none_⟩ => ⟨none_, nofun, fun _ => refused⟩)
      fun ⟨accepted, all⟩ => ⟨all, fun _ => accepted⟩
    loop := fun _ => ⟨running, reaction.waits running, reaction.closed, reaction.asked⟩
    frames := fun _ => standing.frames loop
    counted := by
      intro _ up
      have before := standing.counted loop up
      have balance := reaction.balance up
      simp only [Tunnel.delays, List.countP_append] at before balance ⊢
      change _ = w.conn.lastTestDelay.toNat
      omega
    quiet := nofun }

end

/-- The host goes raw. Its client has nothing left to reply to. -/
theorem handled_leaves (standing : Standing set s [] d ns t owed) (loop : s.host.phase = .loop)
    (reaction : Reaction set s ns owed w) (open_ : w.conn.portForwardSocket = true)
    (answered : w.conn.lastTestDelay = false)
    (link : Link set.box s.client.stream stream s.toHost flight [] d
      (ns ++ w.sent.map set.wire.ofHost) t) :
    Standing set ((handled s w stream flight .loop).setHost fun h => { h with
      stream := h.stream.setRaw
      phase := .forward
      world := h.world.modify fun c => { c with portForwardSocket := false } })
      [] d (ns ++ w.sent.map set.wire.ofHost) t 0 :=
  { standing with
    link := link.symm.setRaw.symm
    hostRaw := iff_of_true rfl rfl
    forwards := by
      intro forward
      obtain ⟨buffer, nothing⟩ := standing.told_nothing reaction forward List.prefix_rfl
      exact ⟨buffer, nothing, nofun⟩
    answer := by
      intro login
      rcases reaction.answer login with ⟨refused, -⟩ | ⟨-, all⟩
      · rw [reaction.closed refused] at open_
        cases open_
      · exact .inr ⟨all, nofun⟩
    loop := nofun
    frames := nofun
    counted := nofun
    quiet := by
      intro _ login
      have up : s.client.phase ≠ .ended := by
        change s.client.phase = .login at login
        simp [login]
      have before := standing.counted loop up
      have balance := reaction.balance up
      rw [answered] at balance
      simp only [Tunnel.delays, List.countP_append, Bool.toNat_false] at before balance ⊢
      omega }

end Handled

theorem hostHandles {e : Host.Event} (lawful : set.wire.Lawful)
    (standing : Standing set s ms d ns t owed)
    (loop : s.host.phase = .loop) (reaction : Reaction set s ns owed (Host.step set.p s.host.world e))
    (clean : (Host.step set.p s.host.world e).running = false →
      (Host.step set.p s.host.world e).conn.portForwardSocket = true →
      (s.hostHandles set e).host.phase = .forward →
        ms = [] ∧ (Host.step set.p s.host.world e).conn.lastTestDelay = false) :
    ∃ ns', Standing set (s.hostHandles set e) ms d ns' t 0 := by
  unfold Tunnel.hostHandles at clean ⊢
  generalize Host.step set.p s.host.world e = w at reaction clean ⊢
  have framed := standing.host_framed (by simp [loop])
  have fits : ∀ msg ∈ w.sent.map set.wire.ofHost, s.client.stream.isRaw = false ∧ Fits msg := by
    intro msg member
    obtain ⟨m, sent, rfl⟩ := List.mem_map.mp member
    refine ⟨standing.client_framed fun forward => ?_, lawful.fitsHost m (reaction.ofLogin m sent)⟩
    rw [(reaction.silent forward).1] at sent
    cases sent
  obtain ⟨sent, stream, flight, phase, part, framed', link, result, reached⟩ :=
    foldl_hostSends (s := s.setHost fun h => { h with
      world := w, cmAsked := h.cmAsked || w.tellsCm }) standing.link loop framed fits
  have ends := standing.handled_ends reaction link framed' part
  dsimp only at clean ⊢
  rw [result] at clean ⊢
  rcases reached with ⟨rfl, rfl⟩ | rfl
  · by_cases running : w.running = true
    · rw [if_pos running]
      exact ⟨_, standing.handled_stays loop reaction running framed' link⟩
    · rw [if_neg running] at clean ⊢
      unfold Tunnel.hostLeaves at clean ⊢
      by_cases open_ : w.conn.portForwardSocket = true
      · simp only [setHost, open_, if_true] at clean ⊢
        obtain ⟨rfl, answered⟩ := clean (by simpa using running) trivial trivial
        exact ⟨_, standing.handled_leaves loop reaction open_ answered link⟩
      · simp only [setHost, open_, if_false, Bool.false_eq_true] at clean ⊢
        exact ⟨_, ends⟩
  · refine ⟨ns ++ sent, ?_⟩
    split_ifs
    · exact ends
    · exact ends

section Reactions

variable {w : World}

theorem unanswered_append {sent : List Outgoing} (lawful : set.wire.Lawful) (none_ : Unanswered set ns)
    (plain : ∀ m ∈ sent, asSeen m ≠ .peerInfo) : Unanswered set (ns ++ sent.map set.wire.ofHost) := by
  intro n member
  rcases List.mem_append.mp member with old | new
  · exact none_ n old
  · obtain ⟨m, sent, rfl⟩ := List.mem_map.mp new
    rw [lawful.readHost]
    simpa using plain m sent

theorem delays_map (lawful : set.wire.Lawful) (sent : List Outgoing) :
    Tunnel.delays set (sent.map set.wire.ofHost) = sent.countP fun m =>
      asSeen m = .testDelay false := by
  simp only [Tunnel.delays, List.countP_map, Function.comp_def, lawful.readHost, Option.some.injEq]

theorem delays_of_errors (lawful : set.wire.Lawful) (errs : List String) (more : List Outgoing) :
    Tunnel.delays set ((errs.map Outgoing.loginError ++ more).map set.wire.ofHost) =
      Tunnel.delays set (more.map set.wire.ofHost) := by
  rw [delays_map lawful, delays_map lawful, List.countP_append, List.countP_map]
  simp [Function.comp_def, asSeen]

/-- Nothing is sent, and the login is as far as it was. -/
theorem reaction_of_silent (standing : Standing set s ms d ns t owed) (loop : s.host.phase = .loop)
    (authorized : w.conn.authorized = s.host.world.conn.authorized)
    (socket : w.conn.portForwardSocket = s.host.world.conn.portForwardSocket) (silent : w.sent = [])
    (balance : s.client.phase ≠ .ended →
      w.conn.lastTestDelay.toNat + owed = s.host.world.conn.lastTestDelay.toNat)
    (waits : w.running = true → w.conn.authorized = true → w.conn.lastTestDelay = true)
    (asked : (s.host.cmAsked || w.tellsCm) = true → ∃ pf, w.conn.lr.union = some (.portForward pf)) :
    Reaction set s ns owed w where
  ofLogin := by simp [silent]
  silent := fun forward => ⟨silent, authorized.trans ((standing.forwards forward).2.2 loop)⟩
  answer := by
    intro login
    rw [silent, List.map_nil, List.append_nil, authorized]
    exact (standing.answer login).imp (fun ⟨none_, _, refused⟩ => ⟨refused loop, none_⟩)
      fun ⟨all, accepted⟩ => ⟨accepted loop, all⟩
  balance := by
    intro up
    rw [silent, balance up]
    rfl
  waits := fun running accepted =>
    ⟨socket.trans ((standing.loop loop).waits (authorized ▸ accepted)).1, waits running accepted⟩
  closed := fun refused => socket.trans ((standing.loop loop).closed (authorized ▸ refused))
  asked := asked

/-- Nothing that matters to the login happens. -/
theorem reaction_of_same (standing : Standing set s ms d ns t 0) (loop : s.host.phase = .loop)
    (same : fields w.conn = fields s.host.world.conn) (silent : w.sent = [])
    (quiet : w.tellsCm = false) :
    Reaction set s ns 0 w := by
  simp only [fields, LoginFields.mk.injEq] at same
  obtain ⟨authorized, socket, union, delay⟩ := same
  obtain ⟨-, waits, -, asked⟩ := standing.loop loop
  refine reaction_of_silent standing loop authorized socket silent
    (fun _ => by rw [delay, Nat.add_zero]) ?_ ?_
  · intro _ accepted
    exact delay.trans (waits (authorized ▸ accepted)).2
  · rw [quiet, Bool.or_false, union]
    exact asked

/-- The client is told something, but not that it is accepted. -/
theorem reaction_of_refused (lawful : set.wire.Lawful) (standing : Standing set s ms d ns t owed)
    (loop : s.host.phase = .loop) (unauthorized : s.host.world.conn.authorized = false)
    (refused : w.conn.authorized = false) (closed : w.conn.portForwardSocket = false)
    (plain : ∀ m ∈ w.sent, isOfLogin m = true ∧ asSeen m ≠ .peerInfo)
    (balance : w.conn.lastTestDelay.toNat + owed = s.host.world.conn.lastTestDelay.toNat +
      Tunnel.delays set (w.sent.map set.wire.ofHost))
    (asked : (s.host.cmAsked || w.tellsCm) = true → ∃ pf, w.conn.lr.union = some (.portForward pf)) :
    Reaction set s ns owed w where
  ofLogin := fun m member => (plain m member).1
  silent := by
    intro forward
    rw [(standing.forwards forward).2.2 loop] at unauthorized
    cases unauthorized
  answer := by
    intro login
    rcases standing.answer login with ⟨none_, -⟩ | ⟨-, accepted⟩
    · exact .inl ⟨refused, unanswered_append lawful none_ fun m member => (plain m member).2⟩
    · rw [accepted loop] at unauthorized
      cases unauthorized
  balance := fun _ => balance
  waits := fun _ accepted => by simp [refused] at accepted
  closed := fun _ => closed
  asked := asked

/-- The client is told that it is accepted. -/
theorem reaction_of_accepted {errs : List String} {kind : AuthConnType} (lawful : set.wire.Lawful)
    (standing : Standing set s ms d ns t 0) (loop : s.host.phase = .loop)
    (unauthorized : s.host.world.conn.authorized = false) (accepted : w.conn.authorized = true)
    (socket : w.conn.portForwardSocket = true)
    (same : w.conn.lastTestDelay = s.host.world.conn.lastTestDelay)
    (sent : w.sent = errs.map .loginError ++ [.loginResponse kind])
    (waits : w.running = true → w.conn.lastTestDelay = true)
    (asked : (s.host.cmAsked || w.tellsCm) = true → ∃ pf, w.conn.lr.union = some (.portForward pf)) :
    Reaction set s ns 0 w where
  ofLogin := by
    intro m member
    rw [sent] at member
    rcases List.mem_append.mp member with error | answer
    · obtain ⟨err, -, rfl⟩ := List.mem_map.mp error
      rfl
    · obtain rfl := List.mem_singleton.mp answer
      rfl
  silent := by
    intro forward
    rw [(standing.forwards forward).2.2 loop] at unauthorized
    cases unauthorized
  answer := by
    intro login
    rcases standing.answer login with ⟨none_, -⟩ | ⟨-, accepted⟩
    · refine .inr ⟨accepted, ns ++ (errs.map Outgoing.loginError).map set.wire.ofHost,
        set.wire.ofHost (.loginResponse kind), by simp [sent], ?_, lawful.readHost _⟩
      exact unanswered_append lawful none_ (by simp [asSeen])
    · rw [accepted loop] at unauthorized
      cases unauthorized
  balance := by
    intro _
    rw [sent, delays_of_errors lawful, delays_map lawful, same]
    rfl
  waits := fun running _ => ⟨socket, waits running⟩
  closed := fun refused => by simp [accepted] at refused
  asked := asked

end Reactions

section Steps

theorem hostWakes {e : Host.Event} (standing : Standing set s ms d ns t 0)
    (handles : s.host.phase = .loop → ∃ ns', Standing set (s.hostHandles set e) ms d ns' t 0) :
    ∃ ns', Standing set (s.hostWakes set e) ms d ns' t 0 := by
  unfold Tunnel.hostWakes
  cases phase : s.host.phase with
  | loop => exact handles phase
  | forward => exact ⟨ns, standing⟩
  | ended => exact ⟨ns, standing⟩

theorem testDelayTimer (lawful : set.wire.Lawful) (standing : Standing set s ms d ns t 0)
    (loop : s.host.phase = .loop) :
    ∃ ns', Standing set (s.hostHandles set .testDelayTimer) ms d ns' t 0 := by
  obtain ⟨running, waits, closed, asked⟩ := standing.loop loop
  obtain ⟨running', quiet, ticked⟩ := step_testDelayTimer set.p running
  refine standing.hostHandles lawful loop ?_ (fun stopped => by simp [running'] at stopped)
  split_ifs at ticked with due
  · obtain ⟨fields', sent⟩ := ticked
    simp only [fields, LoginFields.mk.injEq] at fields'
    have unauthorized : s.host.world.conn.authorized = false := by
      by_contra authorized
      obtain ⟨open_, waiting⟩ := waits (by simpa using authorized)
      simp [waiting] at due
    simp only [Bool.and_eq_true, Bool.not_eq_true'] at due
    refine reaction_of_refused lawful standing loop unauthorized (fields'.1.trans unauthorized)
      (fields'.2.1.trans (closed unauthorized)) ?_ ?_ ?_
    · rw [sent]
      simp [isOfLogin, asSeen]
    · rw [sent, delays_map lawful, fields'.2.2.2, due.1]
      rfl
    · rw [quiet, Bool.or_false, fields'.2.2.1]
      exact asked
  · exact reaction_of_same standing loop ticked.1 ticked.2 quiet

theorem othersTables (lawful : set.wire.Lawful) (standing : Standing set s ms d ns t 0)
    (loop : s.host.phase = .loop) (g : Globals) :
    ∃ ns', Standing set (s.hostHandles set (.othersTables g)) ms d ns' t 0 := by
  obtain ⟨same, running, sent, quiet⟩ := step_othersTables set.p (standing.loop loop).running g
  exact standing.hostHandles lawful loop (reaction_of_same standing loop same sent quiet)
    fun stopped => by simp [running] at stopped

variable {stream : Endpoint Key} {m : Bytes} {env : Env}

section

variable (lawful : set.wire.Lawful)

include lawful

theorem switchPermission {name : String} {enabled : Bool}
    (standing : Standing set s ms d ns t 0) (loop : s.host.phase = .loop)
    (clean : isPermissionName name = true → s.host.world.conn.authorized = false) :
    ∃ ns', Standing set
      (s.hostHandles set (.cm env (.switchPermission name enabled))) ms d ns' t 0 := by
  obtain ⟨running, waits, closed, asked⟩ := standing.loop loop
  obtain ⟨fields', running', quiet, silent, told⟩ :=
    step_switchPermission set.p env running name enabled
  refine standing.hostHandles lawful loop ?_ (fun stopped => by simp [running'] at stopped)
  cases authorized : s.host.world.conn.authorized with
  | true =>
      have other : isPermissionName name = false := by
        by_contra known
        rw [clean (by simpa using known)] at authorized
        cases authorized
      exact reaction_of_same standing loop fields' (silent other) quiet
  | false =>
      simp only [fields, LoginFields.mk.injEq] at fields'
      refine reaction_of_refused lawful standing loop authorized (fields'.1.trans authorized)
        (fields'.2.1.trans (closed authorized)) ?_ ?_ ?_
      · intro m member
        obtain ⟨kind, enabled, rfl⟩ := told m member
        exact ⟨rfl, by simp [asSeen]⟩
      · have none_ :
            (Host.step set.p s.host.world (.cm env (.switchPermission name enabled))).sent.countP
            (fun m => asSeen m = .testDelay false) = 0 := by
          rw [List.countP_eq_zero]
          intro m member
          obtain ⟨kind, enabled, rfl⟩ := told m member
          simp [asSeen]
        rw [delays_map lawful, none_, fields'.2.2.2]
      · rw [quiet, Bool.or_false, fields'.2.2.1]
        exact asked

theorem authorize (standing : Standing set s ms d ns t 0)
    (loop : s.host.phase = .loop) (known : s.host.cmAsked = true)
    (clean : (s.hostHandles set (.cm env .authorize)).host.phase = .forward →
      s.host.world.conn.lastTestDelay = false ∧ s.host.framesRead = s.client.framesSent) :
    ∃ ns', Standing set (s.hostHandles set (.cm env .authorize)) ms d ns' t 0 := by
  obtain ⟨running, waits, closed, asked⟩ := standing.loop loop
  obtain ⟨pf, union⟩ := asked known
  have nothing (forward : (s.hostHandles set (.cm env .authorize)).host.phase = .forward) :
      ms = [] := by
    have read := (clean forward).2
    have frames := standing.frames loop
    exact List.length_eq_zero_iff.mp (by omega)
  cases authorized : s.host.world.conn.authorized with
  | true =>
      obtain ⟨same, -, sent, quiet⟩ := step_authorize_again set.p env running authorized
      refine standing.hostHandles lawful loop (reaction_of_same standing loop same sent quiet) ?_
      intro _ _ forward
      exact ⟨nothing forward, (congrArg LoginFields.lastTestDelay same).trans (clean forward).1⟩
  | false =>
      rcases step_authorize set.p env running union authorized with
        ⟨fields', errs, sent⟩ | ⟨fields', stopped, errs, kind, sent⟩
      · simp only [fields, LoginFields.mk.injEq] at fields'
        refine standing.hostHandles lawful loop (reaction_of_refused lawful standing loop authorized
          (fields'.1.trans authorized) (fields'.2.1.trans (closed authorized)) ?_ ?_ ?_) ?_
        · rw [sent]
          simp [isOfLogin, asSeen]
        · have none_ := delays_of_errors lawful errs []
          rw [List.append_nil] at none_
          rw [sent, none_, fields'.2.2.2]
          rfl
        · intro _
          exact ⟨pf, fields'.2.2.1.trans union⟩
        · exact fun _ _ forward => ⟨nothing forward, fields'.2.2.2.trans (clean forward).1⟩
      · simp only [fields, LoginFields.mk.injEq] at fields'
        refine standing.hostHandles lawful loop (reaction_of_accepted lawful standing loop authorized
          fields'.1 fields'.2.1 fields'.2.2.2 sent ?_ ?_) ?_
        · exact fun running' => by simp [stopped] at running'
        · intro _
          exact ⟨pf, fields'.2.2.1.trans union⟩
        · exact fun _ _ forward => ⟨nothing forward, fields'.2.2.2.trans (clean forward).1⟩

/-- The reply to a `TestDelay` ends the event loop that waits for it. -/
theorem reply (standing : Standing set s ms d ns t owed) (loop : s.host.phase = .loop) (one : owed = 1)
    (clean : (s.hostHandles set (.peer env (.testDelay false))).host.phase = .forward → ms = []) :
    ∃ ns', Standing set (s.hostHandles set (.peer env (.testDelay false))) ms d ns' t 0 := by
  subst one
  obtain ⟨running, waits, closed, asked⟩ := standing.loop loop
  obtain ⟨fields', running', sent, quiet⟩ := step_testDelay set.p env running
  simp only [fields, LoginFields.mk.injEq] at fields'
  refine standing.hostHandles lawful loop (reaction_of_silent standing loop fields'.1 fields'.2.1 sent
    ?_ ?_ ?_) fun _ _ forward => ⟨clean forward, fields'.2.2.2⟩
  · intro up
    have count := standing.counted loop up
    have outstanding : s.host.world.conn.lastTestDelay = true := by
      rw [← Bool.toNat_eq_one]
      have le := Bool.toNat_le s.host.world.conn.lastTestDelay
      omega
    rw [fields'.2.2.2, outstanding]
    rfl
  · intro running authorized
    have accepted := fields'.1 ▸ authorized
    simp [running', accepted, (waits accepted).1] at running
  · rw [quiet, Bool.or_false, fields'.2.2.1]
    exact asked

theorem loginRequest {lr : LoginRequest}
    (standing : Standing set s ms d ns t 0) (loop : s.host.phase = .loop)
    (union : lr.union = some (.portForward set.portForward))
    (clean : (s.hostHandles set (.peer env (.loginRequest lr))).host.phase = .forward → ms = []) :
    ∃ ns', Standing set (s.hostHandles set (.peer env (.loginRequest lr))) ms d ns' t 0 := by
  obtain ⟨running, waits, closed, asked⟩ := standing.loop loop
  cases authorized : s.host.world.conn.authorized with
  | true =>
      obtain ⟨fields', running', sent⟩ := @step_loginRequest_again set.p env _ lr running authorized
      simp only [fields, LoginFields.mk.injEq] at fields'
      obtain ⟨open_, waiting⟩ := waits authorized
      refine standing.hostHandles lawful loop
        (reaction_of_silent standing loop fields'.1 fields'.2.1 sent
        (fun _ => by rw [fields'.2.2.2]; rfl) (fun _ _ => fields'.2.2.2.trans waiting)
        fun _ => ⟨_, fields'.2.2.1.trans union⟩) ?_
      exact fun stopped => by simp [running', open_, waiting] at stopped
  | false =>
      rcases step_loginRequest set.p env running union authorized with
        ⟨fields', errs, sent⟩ | ⟨fields', running', errs, kind, sent⟩
      · simp only [fields, LoginFields.mk.injEq] at fields'
        have shut := fields'.2.1.trans (closed authorized)
        refine standing.hostHandles lawful loop (reaction_of_refused lawful standing loop authorized
          (fields'.1.trans authorized) shut ?_ ?_ fun _ => ⟨_, fields'.2.2.1.trans union⟩) ?_
        · rw [sent]
          simp [isOfLogin, asSeen]
        · have none_ := delays_of_errors lawful errs []
          rw [List.append_nil] at none_
          rw [sent, none_, fields'.2.2.2]
          rfl
        · exact fun _ open_ => by simp [shut] at open_
      · simp only [fields, LoginFields.mk.injEq] at fields'
        refine standing.hostHandles lawful loop (reaction_of_accepted lawful standing loop authorized
          fields'.1 fields'.2.1 fields'.2.2.2 sent ?_ fun _ => ⟨_, fields'.2.2.1.trans union⟩) ?_
        · intro running
          rw [fields'.2.2.2, ← running']
          exact running
        · intro stopped _ forward
          rw [fields'.2.2.2, ← running']
          exact ⟨clean forward, stopped⟩

end

/-- The host has polled and found nothing whole. -/
theorem host_waits (standing : Standing set s ms d ns t owed)
    (link : Link set.box s.client.stream stream s.toHost s.toClient ms d ns t)
    (raw : stream.isRaw = s.host.stream.isRaw) :
    Standing set (s.setHost fun h => { h with stream := stream }) ms d ns t owed :=
  { standing with
    link := link
    hostRaw := raw ▸ standing.hostRaw }

/-- What arrives at a host that forwards goes to the target. -/
theorem host_receives {rest : Bytes} (standing : Standing set s ms d ns t owed)
    (all : d = s.host.stream.buffer ++ rest)
    (link : Link set.box s.client.stream { s.host.stream with buffer := [] } s.toHost s.toClient
      ms rest ns t) :
    Standing set ((s.setHost fun h => { h with stream := { s.host.stream with buffer := [] } }).setHost
      fun h => { h with toTarget := h.toTarget ++ s.host.stream.buffer }) ms rest ns t owed :=
  { standing with
    link := link
    app := by
      change s.appWrote = s.host.toTarget ++ s.host.stream.buffer ++ rest ++ s.client.buffer ++
        s.client.fromApp
      rw [standing.app, all]
      simp }

/-- The host has a message in its hands. -/
theorem host_takes (standing : Standing set s (m :: ms) d ns t 0) (loop : s.host.phase = .loop)
    (framed : stream.isRaw = false)
    (link : Link set.box s.client.stream stream s.toHost s.toClient ms d ns t) :
    Standing set ((s.setHost fun h => { h with stream := stream }).setHost
      fun h => { h with framesRead := h.framesRead + 1 }) ms d ns t (replies set [m]) :=
  { standing with
    link := link
    hostRaw := by simp [setHost, framed, loop]
    requests := fun msg member => standing.requests msg (List.mem_cons_of_mem m member)
    frames := by
      intro loop
      have frames := standing.frames loop
      rw [List.length_cons] at frames
      change s.host.framesRead + 1 + ms.length = s.client.framesSent
      omega
    counted := by
      intro loop up
      have count := standing.counted loop up
      simp only [replies, List.countP_cons, List.countP_nil] at count ⊢
      change _ = s.host.world.conn.lastTestDelay.toNat
      omega }

/-- A request of the client is looked at. -/
theorem hostHandles_request (lawful : set.wire.Lawful)
    (standing : Standing set s ms d ns t (replies set [m])) (loop : s.host.phase = .loop)
    (request : Requests set m) (clean : ∀ msg, set.wire.readClient m = some msg →
      (s.hostHandles set (.peer env msg)).host.phase = .forward → ms = []) :
    ∃ msg ns', set.wire.readClient m = some msg ∧
      Standing set (s.hostHandles set (.peer env msg)) ms d ns' t 0 := by
  rcases request with read | ⟨lr, read, union⟩
  · obtain ⟨ns', handled⟩ := standing.reply lawful loop (by simp [replies, read]) (clean _ read)
    exact ⟨_, ns', read, handled⟩
  · have plain : replies set [m] = 0 := by simp [replies, read]
    rw [plain] at standing
    obtain ⟨ns', handled⟩ := standing.loginRequest lawful loop union (clean _ read)
    exact ⟨_, ns', read, handled⟩

theorem hostNext (lawful : set.wire.Lawful) (standing : Standing set s ms d ns t 0)
    (clean : s.host.phase = .loop → (s.hostNext set env).host.phase = .forward →
      s.host.framesRead + 1 = s.client.framesSent) :
    ∃ ms' d' ns' t', Standing set (s.hostNext set env) ms' d' ns' t' 0 := by
  unfold Tunnel.hostNext at clean ⊢
  cases phase : s.host.phase with
  | ended => exact ⟨ms, d, ns, t, standing⟩
  | forward =>
      have raw := standing.hostRaw.mpr phase
      rcases standing.link.symm.poll_raw raw with nothing | ⟨rest, all, polled, link⟩
      · rw [nothing]
        exact ⟨ms, d, ns, t, standing.host_waits standing.link rfl⟩
      · rw [polled]
        exact ⟨ms, rest, ns, t, standing.host_receives all link.symm⟩
  | loop =>
      have framed := standing.host_framed (by simp [phase])
      have waits := (standing.loop phase).waits
      cases ms with
      | nil =>
          -- a client that forwards has left a reply, so this one does not forward
          have login : s.client.phase ≠ .forward := by
            intro forward
            obtain ⟨-, rfl, accepted⟩ := standing.forwards forward
            have count := standing.counted phase (by simp [forward])
            rw [(waits (accepted phase)).2] at count
            cases count
          obtain ⟨rfl, -⟩ := standing.link.away.sending (standing.client_framed login)
          rw [standing.link.away.poll_of_nothing framed]
          exact ⟨[], [], ns, t, standing.host_waits standing.link rfl⟩
      | cons m ms =>
          obtain ⟨stream, framed', ⟨polled, link⟩ | ⟨polled, link⟩⟩ := standing.link.symm.poll framed
          · rw [polled]
            exact ⟨m :: ms, d, ns, t, standing.host_waits link.symm (framed'.trans framed.symm)⟩
          · rw [phase, polled] at clean
            rw [polled]
            dsimp only at clean ⊢
            have taken := standing.host_takes phase framed' link.symm
            obtain ⟨msg, ns', read, handled⟩ := taken.hostHandles_request lawful phase
              (standing.requests m (List.mem_cons_self ..)) fun msg read forward => by
                rw [read] at clean
                have last := clean rfl forward
                have frames := standing.frames phase
                rw [List.length_cons] at frames
                exact List.length_eq_zero_iff.mp (by omega)
            rw [read]
            exact ⟨ms, d, ns', t, handled⟩

section

variable (standing : Standing set s ms d ns t owed)

include standing

theorem appWrites (data : Bytes) :
    Standing set (s.step set (.appWrites data)) ms d ns t owed :=
  { standing with
    app := by
      change s.appWrote ++ data =
        s.host.toTarget ++ d ++ s.client.buffer ++ (s.client.fromApp ++ data)
      rw [standing.app, List.append_assoc] }

theorem clientReads (n : Nat) :
    ∃ d', Standing set (s.clientReads n) ms d' ns t owed := by
  have all := s.client.fromApp.take_append_drop n
  unfold Tunnel.clientReads
  cases phase : s.client.phase with
  | ended => exact ⟨d, standing⟩
  | login =>
      refine ⟨d, { standing with app := ?_, forwards := ?_ }⟩
      · change s.appWrote = s.host.toTarget ++ d ++ (s.client.buffer ++ s.client.fromApp.take n) ++
          s.client.fromApp.drop n
        rw [standing.app, ← all]
        simp
      · intro forward
        cases phase.symm.trans forward
  | forward =>
      have raw := standing.clientRaw.mpr phase
      refine ⟨d ++ s.client.fromApp.take n, { standing with link := ?_, app := ?_ }⟩
      · change Link set.box s.client.stream s.host.stream
          (s.toHost ++ s.client.stream.sendBytes (s.client.fromApp.take n)) s.toClient ms _ ns t
        rw [Endpoint.sendBytes_of_raw raw]
        exact standing.link.write raw _
      · change s.appWrote = s.host.toTarget ++ (d ++ s.client.fromApp.take n) ++ s.client.buffer ++
          s.client.fromApp.drop n
        rw [standing.app, (standing.forwards phase).1, ← all]
        simp

theorem targetWrites (data : Bytes) :
    Standing set (s.targetWrites data) ms d ns t owed := by
  unfold Tunnel.targetWrites
  split_ifs
  · exact { standing with
      target := by
        change s.targetWrote ++ data = s.client.toApp ++ t ++ (s.host.fromTarget ++ data)
        rw [standing.target, List.append_assoc] }
  · exact standing

theorem hostReads (n : Nat) :
    ∃ t', Standing set (s.hostReads n) ms d ns t' owed := by
  have all := s.host.fromTarget.take_append_drop n
  unfold Tunnel.hostReads
  cases phase : s.host.phase with
  | loop => exact ⟨t, standing⟩
  | ended => exact ⟨t, standing⟩
  | forward =>
      have raw := standing.hostRaw.mpr phase
      refine ⟨t ++ s.host.fromTarget.take n, { standing with link := ?_, target := ?_ }⟩
      · change Link set.box s.client.stream s.host.stream s.toHost
          (s.toClient ++ s.host.stream.sendBytes (s.host.fromTarget.take n)) ms d ns _
        rw [Endpoint.sendBytes_of_raw raw]
        exact (standing.link.symm.write raw _).symm
      · change s.targetWrote = s.client.toApp ++ (t ++ s.host.fromTarget.take n) ++
          s.host.fromTarget.drop n
        rw [standing.target, ← all]
        simp

theorem clientArrives (n : Nat) :
    Standing set (s.step set (.clientArrives n)) ms d ns t owed :=
  { standing with
    link := by
      have link := standing.link
      rw [← s.toClient.take_append_drop n] at link
      exact link.arrive }

theorem hostArrives (n : Nat) :
    Standing set (s.step set (.hostArrives n)) ms d ns t owed :=
  { standing with
    link := by
      have link := standing.link
      rw [← s.toHost.take_append_drop n] at link
      exact link.symm.arrive.symm }

end

theorem step {e : Event} (lawful : set.wire.Lawful) (standing : Standing set s ms d ns t 0)
    (carried : e.Carried set) (clean : s.Clean set e) :
    ∃ ms' d' ns' t', Standing set (s.step set e) ms' d' ns' t' 0 := by
  obtain ⟨goesRaw, logsIn, switches⟩ := clean
  cases e with
  | appWrites data => exact ⟨ms, d, ns, t, standing.appWrites data⟩
  | clientReads n =>
      obtain ⟨d', read⟩ := standing.clientReads n
      exact ⟨ms, d', ns, t, read⟩
  | uiLogin lr =>
      unfold Tunnel.step
      cases phase : s.client.phase with
      | login =>
          obtain ⟨ms', sent⟩ :=
            standing.clientAsks phase (logsIn (by simp [clientLogsIn, phase])) carried
          exact ⟨ms', d, ns, t, sent⟩
      | forward => exact ⟨ms, d, ns, t, standing⟩
      | ended => exact ⟨ms, d, ns, t, standing⟩
  | clientNext ui => exact standing.clientNext lawful carried logsIn
  | clientArrives n => exact ⟨ms, d, ns, t, standing.clientArrives n⟩
  | targetWrites data => exact ⟨ms, d, ns, t, standing.targetWrites data⟩
  | hostReads n =>
      obtain ⟨t', read⟩ := standing.hostReads n
      exact ⟨ms, d, ns, t', read⟩
  | hostNext env =>
      exact standing.hostNext lawful fun loop forward => (goesRaw (decide_eq_true ⟨loop, forward⟩)).1
  | hostArrives n => exact ⟨ms, d, ns, t, standing.hostArrives n⟩
  | authorize env =>
      by_cases known : s.host.cmAsked = true
      · have wakes : s.step set (.authorize env) = s.hostWakes set (.cm env .authorize) := if_pos known
        have covered (loop : s.host.phase = .loop)
            (forward : (s.hostHandles set (.cm env .authorize)).host.phase = .forward) :
            s.host.world.conn.lastTestDelay = false ∧ s.host.framesRead = s.client.framesSent := by
          obtain ⟨read, answered⟩ := goesRaw (by
            rw [hostGoesRaw, wakes, Tunnel.hostWakes, loop]
            exact decide_eq_true ⟨rfl, forward⟩)
          exact ⟨answered rfl, read⟩
        rw [wakes]
        obtain ⟨ns', handled⟩ := standing.hostWakes fun loop =>
          standing.authorize lawful loop known (covered loop)
        exact ⟨ms, d, ns', t, handled⟩
      · have same : s.step set (.authorize env) = s := if_neg known
        rw [same]
        exact ⟨ms, d, ns, t, standing⟩
  | switchPermission env name enabled =>
      obtain ⟨ns', handled⟩ := standing.hostWakes fun loop =>
        standing.switchPermission lawful loop fun known => switches known loop
      exact ⟨ms, d, ns', t, handled⟩
  | testDelayTimer =>
      obtain ⟨ns', handled⟩ := standing.hostWakes fun loop => standing.testDelayTimer lawful loop
      exact ⟨ms, d, ns', t, handled⟩
  | othersTables g =>
      obtain ⟨ns', handled⟩ := standing.hostWakes fun loop => standing.othersTables lawful loop g
      exact ⟨ms, d, ns', t, handled⟩

end Steps

/-- A tunnel begins with nothing under way but the greeting. -/
theorem opening {world : World} {key : Option Key} {greeting : List Bytes}
    (started : world.Started set.p) (greets : ∀ msg ∈ greeting, set.Greets msg) :
    ∃ ns, Standing set (Tunnel.opening set world key greeting) [] [] ns [] 0 := by
  have unauthorized : world.conn.authorized = false ∧ world.conn.portForwardSocket = false ∧
      world.conn.lastTestDelay = false := by
    obtain ⟨_, _, _, _, _, _, _, start⟩ := started.conn
    rw [start]
    exact ⟨rfl, rfl, rfl⟩
  have link : Link set.box (idle world key).client.stream (idle world key).host.stream
      (idle world key).toHost (idle world key).toClient [] [] [] [] := ⟨.fresh key, .fresh key⟩
  have fits : ∀ msg ∈ greeting, (idle world key).client.stream.isRaw = false ∧ Fits msg :=
    fun msg member => ⟨rfl, (greets msg member).2⟩
  obtain ⟨sent, stream, flight, phase, part, framed, link, result, reached⟩ :=
    foldl_hostSends link rfl rfl fits
  have plain : ∀ n ∈ sent, set.wire.readHost n ≠ some .peerInfo ∧
      set.wire.readHost n ≠ some (.testDelay false) := by
    intro n member
    rcases (greets n (part.subset member)).1 with hash | other
    · simp [hash]
    · simp [other]
  have none_ : Tunnel.delays set sent = 0 := by
    rw [Tunnel.delays, List.countP_eq_zero]
    exact fun n member => by simpa using (plain n member).2
  have stays : phase ≠ .forward := by
    rcases reached with ⟨rfl, -⟩ | rfl
    · nofun
    · nofun
  rw [Tunnel.opening, result]
  refine ⟨sent, link, iff_of_false nofun nofun, iff_of_false (by simp [framed]) stays, nofun, rfl,
    rfl, nofun, fun _ => .inl ⟨?_, stays, fun _ => unauthorized.1⟩,
    fun _ => ?_, fun _ => rfl, fun _ _ => ?_, fun _ _ => none_⟩
  · exact fun n member => (plain n member).1
  · refine ⟨started.running, fun accepted => ?_, fun _ => unauthorized.2.1, nofun⟩
    simp [idle, unauthorized.1] at accepted
  · change Tunnel.delays set sent + 0 = world.conn.lastTestDelay.toNat
    rw [none_, unauthorized.2.2]
    rfl

end Standing

/-- A run none of whose steps leaves a message for an end that has gone raw is transparent
    in every state it passes through. -/
theorem transparent_of_clean (set : Setting Key) (world : World) (key : Option Key)
    (greeting : List Bytes) (events : List Event) (lawful : set.wire.Lawful)
    (started : world.Started set.p) (greets : ∀ msg ∈ greeting, set.Greets msg)
    (carried : ∀ e ∈ events, e.Carried set)
    (clean : Along (step set) (Clean set) (Tunnel.opening set world key greeting) events) :
    Always (step set) Transparent (Tunnel.opening set world key greeting) events := by
  have keep (s : Tunnel Key) (e : Event) (stands : ∃ ms d ns t, Standing set s ms d ns t 0)
      (guard : s.Clean set e ∧ e.Carried set) : ∃ ms d ns t,
        Standing set (s.step set e) ms d ns t 0 := by
    obtain ⟨ms, d, ns, t, standing⟩ := stands
    exact standing.step lawful guard.2 guard.1
  obtain ⟨ns, standing⟩ : ∃ ns, Standing set (Tunnel.opening set world key greeting) [] [] ns [] 0 :=
    Standing.opening started greets
  have always := always_of_along keep ⟨[], [], ns, [], standing⟩
    (along_and.mpr ⟨clean, along_of_events carried⟩)
  exact always.mono fun s ⟨_, _, _, _, standing⟩ => standing.transparent

def rdp : Host.PortForward := ⟨"RDP", 0⟩

/-- A login request is its password behind a tag, any other message is a tag. -/
def tagged : Wire where
  ofHost
    | .loginError _ => [0]
    | .loginResponse _ => [1]
    | .testDelay => [2]
    | _ => [3]
  ofClient
    | .loginRequest lr => 5 :: lr.password
    | _ => [4]
  readHost
    | [0] => some .loginError
    | [1] => some .peerInfo
    | [2] => some (.testDelay false)
    | [6] => some .hash
    | _ => some .other
  readClient
    | 5 :: password => some (.loginRequest { password := password, union := some (.portForward rdp) })
    | _ => some (.testDelay false)

def plain : Setting Unit where
  p := .plain .windows
  box := .plain
  wire := tagged
  portForward := rdp

def withPassword (password : Bytes) : LoginRequest :=
  { password := password, union := some (.portForward rdp) }

theorem tagged_lawful : tagged.Lawful where
  readHost := by
    intro m
    cases m <;> rfl
  fitsHost := by
    intro m ofLogin
    have short : (tagged.ofHost m).length = 1 := by cases m <;> rfl
    rw [Fits, short]
    decide
  readReply := rfl
  fitsReply := by decide

theorem plain_carries {password : Bytes} (short : password.length ≤ 100) :
    plain.Carries (withPassword password) := by
  refine ⟨rfl, ?_⟩
  have length : (plain.wire.ofClient (plain.createLoginMsg (withPassword password))).length =
      password.length + 1 := rfl
  rw [Fits, length]
  omega

theorem plain_greets : ∀ msg ∈ [[6]], plain.Greets msg := by
  intro msg member
  obtain rfl := List.mem_singleton.mp member
  exact ⟨.inl rfl, by decide⟩

/-- A host that has greeted with a `Hash`. -/
def greeted (key : Option Unit) : Tunnel Unit :=
  Tunnel.opening plain (.opening (.plain .windows) {} ∅ false) key [[6]]

/-- The login is accepted by its password, while a `TestDelay` is unanswered. -/
def byPassword : List Event :=
  let ui : Ui := { login := withPassword [7] }
  let env : Env := { temporaryPassword := [7] }
  [.appWrites [1, 2], .clientReads 2, .clientArrives 99, .clientNext ui, .hostArrives 99,
    .testDelayTimer, .hostNext env, .targetWrites [9], .clientArrives 99, .clientNext ui,
    .clientNext ui, .appWrites [3], .clientReads 1, .hostArrives 99, .hostNext env, .hostNext env,
    .hostReads 1, .clientArrives 99, .clientNext ui]

theorem byPassword_transparent :
    Always (step plain) Transparent (greeted (some ())) byPassword ∧
      (exec (step plain) (greeted (some ())) byPassword).host.toTarget = [1, 2, 3] ∧
      (exec (step plain) (greeted (some ())) byPassword).client.toApp = [9] := by
  refine ⟨transparent_of_clean plain (.opening (.plain .windows) {} ∅ false) (some ()) [[6]] byPassword
    tagged_lawful (World.opening_started ..) plain_greets ?_ ?_, ?_⟩
  · have carries : plain.Carries (withPassword [7]) := plain_carries (by decide)
    simp [byPassword, Event.Carried, carries]
  · decide
  · decide

/-- The login is accepted by `Authorize`, while a `TestDelay` is unanswered. -/
def byAuthorize : List Event :=
  let ui : Ui := { login := withPassword [] }
  [.clientArrives 99, .clientNext ui, .hostArrives 99, .hostNext {}, .testDelayTimer, .authorize {},
    .clientArrives 99, .clientNext ui, .clientNext ui, .hostArrives 99, .hostNext {}]

/-- The reply of the client ends up at the target, in its frame. -/
theorem byAuthorize_not_transparent :
    ¬ ∀ (set : Setting Unit) (world : World) (key : Option Unit) (greeting : List Bytes)
      (events : List Event), set.wire.Lawful → world.Started set.p →
      (∀ msg ∈ greeting, set.Greets msg) → (∀ e ∈ events, e.Carried set) →
      Always (step set) Transparent (Tunnel.opening set world key greeting) events := by
  intro transparent
  have carried : ∀ e ∈ byAuthorize, e.Carried plain := by
    have carries : plain.Carries (withPassword []) := plain_carries (by decide)
    simp [byAuthorize, Event.Carried, carries]
  have always := transparent plain (.opening (.plain .windows) {} ∅ false) none [[6]] byAuthorize
    tagged_lawful (World.opening_started ..) plain_greets carried
  have toTarget : (exec (step plain) (greeted none) byAuthorize).host.toTarget = [4, 4] := by decide
  have appWrote : (exec (step plain) (greeted none) byAuthorize).appWrote = [] := by decide
  have isPrefix := always.last.1
  change (exec (step plain) (greeted none) byAuthorize).host.toTarget <+:
    (exec (step plain) (greeted none) byAuthorize).appWrote at isPrefix
  rw [toTarget, appWrote] at isPrefix
  simp at isPrefix

/-- A permission that is switched before the reply is there ends up at the application. -/
example :
    let env : Env := { temporaryPassword := [7] }
    (exec (step plain) (greeted none) [.clientArrives 99, .clientNext { login := withPassword [7] },
      .hostArrives 99, .testDelayTimer, .hostNext env, .switchPermission env "keyboard" false,
      .clientArrives 99, .clientNext {}, .clientNext {}, .clientNext {}]).client.toApp = [4, 3] := by
  decide

end Tunnel

end RemoteControl.PortForward
