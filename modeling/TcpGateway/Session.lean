import TcpGateway.Connection.Process
import TcpGateway.Forwarder
import TcpGateway.Settings

/-!
# Sessions

A session drives one connection: it connects to the relay, hands the connection its events and
the ticks of its timer, sends the segments that result, and carries out the commands for the
relay's side.  It lasts until its connection is closed, the tunnel is gone, or it is aborted.

A session does one thing at a time.  It waits until there is something to go on with (`wake`), has
the connection process the event that this brings (`hand`), and carries on with what came of it
(`carryOn`), one segment after the other, because each of them may have to wait for the tunnel.
-/

namespace TcpGateway

/-- The way to the clients: the segments written to it, oldest first. -/
structure Tunnel where
  isOpen : Bool := true
  sent : List Segment := []
deriving Inhabited

/-- What the forwarder of a session needs to know: a chunk is at most as large as the window. -/
def Settings.forwarderOptions (s : Settings) : ForwarderOptions where
  pollInterval := s.pollInterval
  maxFrameLength := s.maxFrameLength
  maxChunk := s.windowSize.toNat
  drainTimeout := s.drainTimeout

/-- How far the connecting to the relay has come. -/
inductive Connecting where
  | notBegun
  /-- Under way, and given up at the deadline. -/
  | until (deadline : Nat)
  | over
deriving DecidableEq, Repr

/-- What is still to be done of an event that the connection has processed: the segments are sent
first. -/
structure Duty where
  segments : List Segment
  commands : List Command
deriving DecidableEq, Repr

structure Session where
  id : Nat
  connection : Connection
  mailbox : Mailbox
  connecting : Connecting := .notBegun
  /-- The time of the next tick. -/
  nextTick : Nat := 0
  forwarder : Option Forwarder := none
  /-- What is left to do of the last event. -/
  duty : Option Duty := none
  /-- Whether the session was told to end. -/
  aborted : Bool := false

namespace Session

/-- The flow of the client's segments. -/
def flow (s : Session) : Flow := s.connection.flow

/-- The first step: the connecting begins, and the first tick is due at once. -/
def begin (settings : Settings) (now : Nat) (s : Session) : Session :=
  { s with connecting := .until (now + settings.connectTimeout), nextTick := now }

/-- Stops forwarding and closes both buffers. -/
def abortRelay (s : Session) : Session :=
  { s with
    forwarder := none
    connection := { s.connection with
      uplink := s.connection.uplink.close
      downlink.buffer := s.connection.downlink.buffer.close } }

/-- Carries out a command of the connection. -/
def obey (s : Session) : Command → Session
  | .finishUplink => { s with connection.uplink := s.connection.uplink.close }
  | .abortRelay => s.abortRelay

/-- What a session can go on with. -/
inductive Cause where
  /-- The relay was reached, and forwarding begins. -/
  | connected
  /-- The relay was not reached, or not in time. -/
  | unreachable
  /-- An event waits in the mailbox. -/
  | mail
  | tick
deriving DecidableEq, Repr

/-- Whether the session has begun and has done all that the last event asked for. -/
def isIdle (s : Session) : Bool := s.connecting != .notBegun && s.duty.isNone

/-- Goes on with `cause` if the session is idle and `cause` is there; this gives the event for the
connection. -/
def wake (settings : Settings) (now : Nat) (s : Session) (cause : Cause) :
    Option (Session × Event) :=
  if !s.isIdle then none
  else
    match cause, s.connecting with
    | .connected, .until _ =>
      some ({ s with connecting := .over, forwarder := some (.start now) }, .relayConnected)
    | .unreachable, .until _ => some ({ s with connecting := .over }, .relayUnreachable)
    | .mail, _ => s.mailbox.take?.map fun (e, mailbox) => ({ s with mailbox }, e)
    | .tick, _ =>
      if s.nextTick ≤ now then some ({ s with nextTick := now + settings.resendInterval }, .tick)
      else none
    | _, _ => none

/-- Has the connection process an event. -/
def hand (s : Session) (e : Event) (now wall : Nat) : Session :=
  let o := s.connection.process e now wall
  { s with connection := o.connection, duty := some ⟨o.segments, o.commands⟩ }

/-- What a step of a session leaves behind. -/
structure Step where
  session : Session
  tunnel : Tunnel
  /-- Whether the session is over. -/
  ended : Bool

/-- Sends the next segment, or behind the last one carries out the commands.  Nothing can be sent
through a closed tunnel, and a session that tries is over. -/
def carryOn (s : Session) (t : Tunnel) : Step :=
  match s.duty with
  | none => ⟨s, t, false⟩
  | some ⟨p :: rest, commands⟩ =>
    if t.isOpen then
      ⟨{ s with duty := some ⟨rest, commands⟩ }, { t with sent := t.sent ++ [p] }, false⟩
    else ⟨s, t, true⟩
  | some ⟨[], commands⟩ =>
    ⟨commands.foldl obey { s with duty := none }, t, s.connection.phase == .closed⟩

/-- What the session shares with its forwarder. -/
def surroundings (s : Session) (link : Link) : Surroundings :=
  ⟨s.connection.uplink.buffer, s.connection.downlink.buffer, s.mailbox, link⟩

/-- The session after its forwarder has acted on what they share. -/
def withSurroundings (s : Session) (x : Surroundings) : Session :=
  { s with
    mailbox := x.mailbox
    connection := { s.connection with
      uplink.buffer := x.uplink
      downlink.buffer := x.downlink } }

end Session

end TcpGateway
