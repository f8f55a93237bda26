import RemoteControl.PortForward.Login
import RemoteControl.Stream.Line

/-! # A port-forwarding tunnel

`connect_and_login` and `run_forward` of `port_forward.rs` at one end, the event loop and
`try_port_forward_loop` of `server/connection.rs` at the other. Both ends begin with framed
messages and leave them for raw bytes, each at its own moment.

Between the ends is a network that loses nothing and keeps the order; it hands over as many
bytes at a time as it likes. What the application and the target write is remembered next to
what has been forwarded to them.
-/

namespace RemoteControl.PortForward

open Host hiding Bytes Event step
open RemoteControl.Stream (Bytes SecretBox Encrypt Endpoint)

/-- What a client looks at in a message of the host. -/
inductive HostMessage where
  | hash
  | loginError
  | peerInfo
  | testDelay (fromClient : Bool)
  | other
  deriving DecidableEq

/-- `write_to_bytes` and `parse_from_bytes` at both ends. -/
structure Wire where
  ofHost : Outgoing → Bytes
  ofClient : Message → Bytes
  readHost : Bytes → Option HostMessage
  readClient : Bytes → Option Message

structure Setting (Key : Type) where
  p : Platform
  box : SecretBox Key
  wire : Wire
  /-- `lc.port_forward` of the client -/
  portForward : Host.PortForward

/-- `create_login_msg` of a port-forwarding client -/
def Setting.createLoginMsg {Key : Type} (set : Setting Key) (lr : LoginRequest) : Message :=
  .loginRequest { lr with union := some (.portForward set.portForward) }

inductive ClientPhase where
  /-- in `connect_and_login` -/
  | login
  /-- in `run_forward` -/
  | forward
  | ended
  deriving DecidableEq

structure ClientSide (Key : Type) where
  stream : Endpoint Key
  phase : ClientPhase := .login
  /-- What the application has written before the login. -/
  buffer : Bytes := []
  /-- What the application has written and the client has not read. -/
  fromApp : Bytes := []
  toApp : Bytes := []
  framesSent : Nat := 0

inductive HostPhase where
  /-- in the event loop -/
  | loop
  /-- in `try_port_forward_loop` -/
  | forward
  | ended
  deriving DecidableEq

structure HostSide (Key : Type) where
  stream : Endpoint Key
  phase : HostPhase := .loop
  world : World
  /-- The connection manager has heard of the login, so its user can accept it. -/
  cmAsked : Bool := false
  /-- What the target has written and the host has not read. -/
  fromTarget : Bytes := []
  toTarget : Bytes := []
  framesRead : Nat := 0

structure Tunnel (Key : Type) where
  client : ClientSide Key
  host : HostSide Key
  /-- The bytes of the network, in either direction. -/
  toHost : Bytes := []
  toClient : Bytes := []
  appWrote : Bytes := []
  targetWrote : Bytes := []

/-- What the user decides when the interface asks. -/
structure Ui where
  /-- `handle_hash`: the credentials there are. -/
  login : LoginRequest := {}
  /-- `handle_login_error`: whether to go on. -/
  retry : Bool := true

inductive Event where
  | appWrites (data : Bytes)
  /-- `forward.next()` of the client -/
  | clientReads (n : Nat)
  /-- `Data::Login` -/
  | uiLogin (lr : LoginRequest)
  /-- `stream.next()` of the client -/
  | clientNext (ui : Ui)
  | clientArrives (n : Nat)
  | targetWrites (data : Bytes)
  /-- `forward.next()` of the host -/
  | hostReads (n : Nat)
  /-- `stream.next()` of the host -/
  | hostNext (env : Env)
  | hostArrives (n : Nat)
  | authorize (env : Env)
  | switchPermission (env : Env) (name : String) (enabled : Bool)
  | testDelayTimer
  /-- Other tasks of the host rewrite the tables they share. -/
  | othersTables (g : Globals)

namespace Tunnel

variable {Key : Type}

def setClient (f : ClientSide Key → ClientSide Key) (s : Tunnel Key) : Tunnel Key :=
  { s with client := f s.client }

def clientEnds (s : Tunnel Key) : Tunnel Key := s.setClient fun c => { c with phase := .ended }

def clientSends (set : Setting Key) (msg : Message) (s : Tunnel Key) : Tunnel Key :=
  match s.client.stream.send set.box (set.wire.ofClient msg) with
  | none => s.clientEnds
  | some (stream, bytes) =>
      { s with
        client := { s.client with stream := stream, framesSent := s.client.framesSent + 1 }
        toHost := s.toHost ++ bytes }

/-- The login is over: what follows is raw, what was held back first. -/
def clientForwards (s : Tunnel Key) : Tunnel Key :=
  let stream := s.client.stream.setRaw
  let sent := if s.client.buffer ≠ [] then stream.sendBytes s.client.buffer else []
  { s with
    client := { s.client with stream := stream, phase := .forward, buffer := [] }
    toHost := s.toHost ++ sent }

/-- The match over `msg_in.union`. -/
def clientHandles (set : Setting Key) (ui : Ui) (msg : HostMessage) (s : Tunnel Key) : Tunnel Key :=
  match msg with
  | .hash => s.clientSends set (set.createLoginMsg ui.login)
  | .loginError => if ui.retry then s else s.clientEnds
  | .peerInfo => s.clientForwards
  | .testDelay fromClient => if !fromClient then s.clientSends set (.testDelay fromClient) else s
  | .other => s

def clientNext (set : Setting Key) (ui : Ui) (s : Tunnel Key) : Tunnel Key :=
  let (stream, polled) := s.client.stream.poll set.box
  let polledClient := s.setClient fun c => { c with stream := stream }
  match s.client.phase, polled with
  | .ended, _ => s
  | _, .pending => polledClient
  | .login, .item bytes =>
      match set.wire.readHost bytes with
      | none => polledClient.clientEnds
      | some msg => polledClient.clientHandles set ui msg
  | .forward, .item bytes => polledClient.setClient fun c => { c with toApp := c.toApp ++ bytes }
  | _, _ => polledClient.clientEnds

def clientReads (n : Nat) (s : Tunnel Key) : Tunnel Key :=
  let bytes := s.client.fromApp.take n
  let read := s.setClient fun c => { c with fromApp := c.fromApp.drop n }
  match s.client.phase with
  | .login => read.setClient fun c => { c with buffer := c.buffer ++ bytes }
  | .forward => { read with toHost := s.toHost ++ s.client.stream.sendBytes bytes }
  | .ended => s

def setHost (f : HostSide Key → HostSide Key) (s : Tunnel Key) : Tunnel Key :=
  { s with host := f s.host }

def hostEnds (s : Tunnel Key) : Tunnel Key := s.setHost fun h => { h with phase := .ended }

def hostSends (set : Setting Key) (msg : Bytes) (s : Tunnel Key) : Tunnel Key :=
  match s.host.phase, s.host.stream.send set.box msg with
  | .ended, _ => s
  | _, none => s.hostEnds
  | _, some (stream, bytes) =>
      { s with
        host := { s.host with stream := stream }
        toClient := s.toClient ++ bytes }

/-- Behind the event loop: `try_port_forward_loop` takes the socket, if there is one. -/
def hostLeaves (s : Tunnel Key) : Tunnel Key :=
  match s.host.phase with
  | .loop =>
      if s.host.world.conn.portForwardSocket then
        s.setHost fun h => { h with
          stream := h.stream.setRaw
          phase := .forward
          world := h.world.modify fun c => { c with portForwardSocket := false } }
      else s.hostEnds
  | _ => s

/-- One wake-up of the event loop. -/
def hostHandles (set : Setting Key) (e : Host.Event) (s : Tunnel Key) : Tunnel Key :=
  let world := Host.step set.p s.host.world e
  let handled := s.setHost fun h => { h with world := world, cmAsked := h.cmAsked || world.tellsCm }
  let answered := (world.sent.map set.wire.ofHost).foldl (fun s msg => s.hostSends set msg) handled
  if world.running then answered else answered.hostLeaves

def hostNext (set : Setting Key) (env : Env) (s : Tunnel Key) : Tunnel Key :=
  let (stream, polled) := s.host.stream.poll set.box
  let polledHost := s.setHost fun h => { h with stream := stream }
  match s.host.phase, polled with
  | .ended, _ => s
  | _, .pending => polledHost
  | .loop, .item bytes =>
      let taken := polledHost.setHost fun h => { h with framesRead := h.framesRead + 1 }
      match set.wire.readClient bytes with
      | none => taken
      | some msg => taken.hostHandles set (.peer env msg)
  | .loop, .failed _ => polledHost.hostHandles set (.disconnect {} true)
  | .forward, .item bytes => polledHost.setHost fun h => { h with toTarget := h.toTarget ++ bytes }
  | _, _ => polledHost.hostEnds

/-- A wake-up of the event loop, while it runs. -/
def hostWakes (set : Setting Key) (e : Host.Event) (s : Tunnel Key) : Tunnel Key :=
  match s.host.phase with
  | .loop => s.hostHandles set e
  | _ => s

/-- There is a socket to the target, in the connection or in `try_port_forward_loop`. -/
def connected (s : Tunnel Key) : Bool :=
  match s.host.phase with
  | .loop => s.host.world.conn.portForwardSocket
  | .forward => true
  | .ended => false

def targetWrites (data : Bytes) (s : Tunnel Key) : Tunnel Key :=
  if s.connected then
    { s with
      host := { s.host with fromTarget := s.host.fromTarget ++ data }
      targetWrote := s.targetWrote ++ data }
  else s

def hostReads (n : Nat) (s : Tunnel Key) : Tunnel Key :=
  match s.host.phase with
  | .forward =>
      { s.setHost fun h => { h with fromTarget := h.fromTarget.drop n } with
        toClient := s.toClient ++ s.host.stream.sendBytes (s.host.fromTarget.take n) }
  | _ => s

def step (set : Setting Key) (s : Tunnel Key) : Event → Tunnel Key
  | .appWrites data =>
      { s with
        client := { s.client with fromApp := s.client.fromApp ++ data }
        appWrote := s.appWrote ++ data }
  | .clientReads n => s.clientReads n
  | .uiLogin lr =>
      match s.client.phase with
      | .login => s.clientSends set (set.createLoginMsg lr)
      | _ => s
  | .clientNext ui => s.clientNext set ui
  | .clientArrives n =>
      { s with
        client := { s.client with stream := s.client.stream.arrive (s.toClient.take n) }
        toClient := s.toClient.drop n }
  | .targetWrites data => s.targetWrites data
  | .hostReads n => s.hostReads n
  | .hostNext env => s.hostNext set env
  | .hostArrives n =>
      { s with
        host := { s.host with stream := s.host.stream.arrive (s.toHost.take n) }
        toHost := s.toHost.drop n }
  | .authorize env => if s.host.cmAsked then s.hostWakes set (.cm env .authorize) else s
  | .switchPermission env name enabled => s.hostWakes set (.cm env (.switchPermission name enabled))
  | .testDelayTimer => s.hostWakes set .testDelayTimer
  | .othersTables g => s.hostWakes set (.othersTables g)

/-- Two ends that have agreed on a key, or on none. -/
def idle (world : World) (key : Option Key) : Tunnel Key where
  client := { stream := { stream := { encrypt := key.map .new } } }
  host := { stream := { stream := { encrypt := key.map .new } }, world := world }

/-- At the top of the event loop: the host has greeted the client. -/
def opening (set : Setting Key) (world : World) (key : Option Key) (greeting : List Bytes) :
    Tunnel Key :=
  greeting.foldl (fun s msg => s.hostSends set msg) (idle world key)

end Tunnel

end RemoteControl.PortForward
