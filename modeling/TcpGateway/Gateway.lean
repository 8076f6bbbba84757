import TcpGateway.Gateway.Error
import TcpGateway.Gateway.Registry
import TcpGateway.Segment.Decoding
import TcpGateway.Session

/-!
# The gateway

The gateway takes the packets of all clients.  A segment of a known flow goes to the mailbox of
its session.  For an unknown flow a SYN opens a connection, and any other segment is answered as
by a closed connection.  Sessions run on their own; each leaves the registry when it ends.

A packet is handled at once (`call`), up to the reply that the gateway itself may have to send:
that may have to wait for the tunnel, and other packets and the sessions go on meanwhile.
-/

namespace TcpGateway

/-- A packet that was taken from the tunnel, as far as it still has to wait. -/
structure Call where
  /-- The segment that is to be sent to the client. -/
  reply : Option Segment := none
  /-- The answer once the reply is sent. -/
  result : Except GatewayError Unit := .ok ()

structure Gateway where
  settings : Settings
  registry : Registry
  /-- The sessions that have not ended, in the order of their beginning. -/
  sessions : List Session := []
  /-- What the gateway itself and the ended sessions have counted. -/
  counters : Counters := {}
  tunnel : Tunnel := {}

namespace Gateway

def ofSettings (settings : Settings) : Gateway :=
  { settings, registry := { capacity := settings.maxConnections } }

/-- What the gateway and all its sessions have counted. -/
def totals (g : Gateway) : Counters :=
  g.sessions.foldl (fun total s => total + s.connection.counters) g.counters

def session? (g : Gateway) (id : Nat) : Option Session := g.sessions.find? (·.id == id)

/-- Replaces the session with the identifier of `s`. -/
def putSession (g : Gateway) (s : Session) : Gateway :=
  { g with sessions := g.sessions.map fun x => if x.id = s.id then s else x }

/-! ## Inbound packets -/

/-- Answers a segment as by a closed connection, and then gives `result`. -/
def sendReset (g : Gateway) (s : Segment) (result : Except GatewayError Unit) : Gateway × Call :=
  match s.resetReply with
  | none => (g, { result })
  | some reset =>
    ({ g with counters.resetsSent := g.counters.resetsSent + 1 }, { reply := some reset, result })

/-- Opens a connection for a SYN, unless there are too many. -/
def accept (g : Gateway) (syn : Segment) (now : Nat) : Gateway × Call :=
  if g.registry.isFull then
    { g with counters.rejected := g.counters.rejected + 1 }.sendReset syn
      (.error (.full g.registry.capacity))
  else
    match g.registry.insert? syn.flow with
    | none => (g, {})
    | some (id, registry) =>
      let session : Session := {
        id
        connection := .ofSyn syn.flow syn g.settings.connectionOptions now
        mailbox := { capacity := g.settings.eventCapacity } }
      ({ g with
          registry
          sessions := g.sessions ++ [session]
          counters.opened := g.counters.opened + 1 },
        {})

/-- Hands a segment to the session `id`; a full mailbox drops it. -/
def deliver (g : Gateway) (id : Nat) (s : Segment) : Gateway :=
  { g with
    sessions := g.sessions.map fun x =>
      if x.id = id then { x with mailbox := x.mailbox.put (.segment s) } else x }

/-- Handles a segment by what its flow is and asks for. -/
def route (g : Gateway) (s : Segment) (now : Nat) : Gateway × Call :=
  match g.registry.find? s.flow with
  | some id => (g.deliver id s, {})
  | none =>
    if s.isRst then (g, {})
    else if s.isAck then g.sendReset s (.ok ())
    else if s.isSyn then g.accept s now
    else (g, {})

/-- Counts a packet by what has become of it. -/
def countPacket (c : Counters) (result : Except PacketError Segment) : Counters :=
  let c := { c with messages := c.messages + 1 }
  match result with
  | .ok _ => { c with ipv4 := c.ipv4 + 1, tcp := c.tcp + 1 }
  | .error e =>
    if e.isUnsupported then { c with ipv4 := c.ipv4 + 1, nonTcp := c.nonTcp + 1 }
    else { c with malformed := c.malformed + 1 }

/-- Takes one packet from the tunnel and does with it all that needs no waiting. -/
def call (g : Gateway) (packet : Bytes) (now : Nat) : Gateway × Call :=
  let result := Segment.decode packet
  let g := { g with counters := countPacket g.counters result }
  match result with
  | .error e => (g, { result := .error (.packet e) })
  | .ok s => g.route s now

/-- Ends a call: its reply is sent if there is one, and fails if the tunnel is closed. -/
def complete (g : Gateway) (c : Call) : Gateway × Except GatewayError Unit :=
  match c.reply with
  | none => (g, c.result)
  | some reply =>
    if g.tunnel.isOpen then ({ g with tunnel.sent := g.tunnel.sent ++ [reply] }, c.result)
    else (g, .error .tunnelClosed)

/-- Takes one packet from the tunnel, while the tunnel keeps nobody waiting. -/
def receive (g : Gateway) (packet : Bytes) (now : Nat) : Gateway × Except GatewayError Unit :=
  let (g, c) := g.call packet now
  g.complete c

/-! ## Sessions -/

/-- A session begins. -/
def beginSession (g : Gateway) (now : Nat) (s : Session) : Option Gateway :=
  if s.connecting = .notBegun then some (g.putSession (s.begin g.settings now)) else none

/-- A session goes on with `cause`. -/
def wakeSession (g : Gateway) (now wall : Nat) (s : Session) (cause : Session.Cause) :
    Option Gateway :=
  (s.wake g.settings now cause).map fun (s, e) => g.putSession (s.hand e now wall)

/-- The forwarder of a session takes a step on `link`. -/
def forward (g : Gateway) (now : Nat) (s : Session) (link : Link) : Option (Gateway × Link) := do
  let f ← s.forwarder
  let (f, parts) ← f.step g.settings.forwarderOptions now (s.surroundings link)
  some (g.putSession { s.withSurroundings parts with forwarder := some f }, parts.link)

/-- Ends the session `id`: it leaves the registry, if its entry is still there, and what it has
counted is kept. -/
def endSession (g : Gateway) (id : Nat) : Gateway :=
  match g.session? id with
  | none => g
  | some s =>
    let counters := g.counters + s.connection.counters
    { g with
      sessions := g.sessions.filter (·.id != id)
      registry := g.registry.erase s.flow id
      counters := { counters with closed := counters.closed + 1 } }

/-- A session carries on with what is left to do, and ends if it is over. -/
def carryOn (g : Gateway) (s : Session) : Gateway :=
  let step := s.carryOn g.tunnel
  let g := { g with tunnel := step.tunnel }.putSession step.session
  if step.ended then g.endSession s.id else g

/-- Tells all sessions of the registry to end and forgets them. -/
def shutdown (g : Gateway) : Gateway :=
  { g with
    sessions := g.sessions.map fun s =>
      if g.registry.find? s.flow = some s.id then { s with aborted := true } else s
    registry := g.registry.clear }

/-! ## Serving a queue of packets -/

/-- Takes packets one after the other, past all errors but a closed tunnel, which ends the
gateway.  Answers whether it goes on. -/
def serve (g : Gateway) (now : Nat) : List Bytes → Gateway × Bool
  | [] => (g, true)
  | packet :: rest =>
    match g.receive packet now with
    | (g, .ok ()) => g.serve now rest
    | (g, .error e) => if e.isRecoverable then g.serve now rest else (g.shutdown, false)

end Gateway

end TcpGateway
