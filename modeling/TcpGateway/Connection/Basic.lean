import TcpGateway.Connection.Phase
import TcpGateway.Counters
import TcpGateway.Downlink
import TcpGateway.Resend
import TcpGateway.Segment.Reset
import TcpGateway.Uplink

/-!
# Connections

The gateway's end of one client connection, as a value: its phase, both byte streams, what was
sent and not acknowledged, and what it has counted.  A connection does nothing by itself.  It is
given events one at a time, and each is answered by an `Outcome`: the connection afterwards, the
segments to send to the client in this order, and the commands for the relay's side.

Times are microseconds of a monotonic clock.
-/

namespace TcpGateway

/-- Settings of a connection. -/
structure ConnectionOptions where
  /-- The largest payload of a segment sent. -/
  maxPayload : Nat
  /-- The capacity of each buffer and the largest window advertised. -/
  windowSize : UInt16
  resendInterval : Nat
  idleTimeout : Nat
deriving DecidableEq, Repr, Inhabited

/-- What can happen to a connection. -/
inductive Event where
  /-- The client's segment. -/
  | segment (s : Segment)
  | relayConnected
  | relayUnreachable
  /-- The relay's bytes have been put into the downlink. -/
  | relayData
  /-- The relay has finished sending. -/
  | relayClosed
  | relayFailed (reason : String)
  /-- The periodic timer. -/
  | tick
deriving DecidableEq, Repr

/-- What a connection asks of the relay's side. -/
inductive Command where
  /-- Forward what is held, then close. -/
  | finishUplink
  /-- Stop at once. -/
  | abortRelay
deriving DecidableEq, Repr

structure Connection where
  /-- The flow of the client's segments. -/
  flow : Flow
  phase : Phase
  options : ConnectionOptions
  downlink : Downlink
  uplink : Uplink
  resends : ResendQueue
  /-- The number of the SYN last sent. -/
  iss : SeqNum := .zero
  /-- The window the client advertised last. -/
  peerWindow : UInt16 := 0
  /-- The window advertised when a segment was last sent. -/
  advertised : Nat
  /-- The number of the FIN, once sent. -/
  finSeq : Option SeqNum := none
  relayDone : Bool := false
  /-- The SYN that waits for the relay to be reached. -/
  heldSyn : Option Segment := none
  synAckSentAt : Option Nat := none
  lastUsed : Nat
  counters : Counters := {}
deriving Inhabited

/-- The result of one event. -/
structure Outcome where
  connection : Connection
  /-- Segments for the client, in the order of sending. -/
  segments : List Segment := []
  commands : List Command := []

namespace Connection

/-- A connection in phase `phase` with empty buffers. -/
def start (flow : Flow) (phase : Phase) (options : ConnectionOptions) (now : Nat) : Connection :=
  let buffer := Buffer.bounded options.windowSize.toNat
  { flow, phase, options
    downlink := .ofBuffer buffer .zero
    uplink := .ofBuffer buffer .zero
    resends := { interval := options.resendInterval }
    advertised := options.windowSize.toNat
    lastUsed := now }

/-- A connection that holds the client's SYN until the relay is reached. -/
def ofSyn (flow : Flow) (syn : Segment) (options : ConnectionOptions) (now : Nat) : Connection :=
  { start flow .held options now with heldSyn := some syn }

/-- A connection whose relay is there already, waiting for a SYN. -/
def listening (flow : Flow) (options : ConnectionOptions) (now : Nat) : Connection :=
  start flow .listen options now

def isOpen (c : Connection) : Bool := c.phase != .closed

/-- The next number to send (SND.NXT). -/
def sndNxt (c : Connection) : SeqNum := c.downlink.nxt

/-- The oldest number not acknowledged (SND.UNA). -/
def sndUna (c : Connection) : SeqNum := c.downlink.una

/-- The next number expected (RCV.NXT). -/
def rcvNxt (c : Connection) : SeqNum := c.uplink.nxt

/-- The receive window (RCV.WND). -/
def rcvWnd (c : Connection) : Nat := c.uplink.window

/-! ## Outcomes -/

/-- Nothing to send and nothing to do. -/
def stay (c : Connection) : Outcome := { connection := c }

/-- Moves on to phase `p`. -/
def enter (c : Connection) (p : Phase) : Outcome := { connection := { c with phase := p } }

/-- Counts a reset. -/
def countReset (c : Connection) : Connection :=
  { c with counters.resetsSent := c.counters.resetsSent + 1 }

/-! ## Segments to send -/

/-- A segment at `seq` that acknowledges and advertises what holds now. -/
def segmentAt (c : Connection) (seq : SeqNum) (flags : Flags) (payload : Bytes) : Segment :=
  .reply c.flow seq c.rcvNxt flags (UInt16.ofNat c.rcvWnd) payload

def ackSegment (c : Connection) : Segment := c.segmentAt c.sndNxt .ack []

def synAckSegment (c : Connection) : Segment := c.segmentAt c.iss (.syn ||| .ack) []

def finSegment (c : Connection) (seq : SeqNum) : Segment := c.segmentAt seq (.fin ||| .ack) []

def dataSegment (c : Connection) (seq : SeqNum) (data : Bytes) : Segment :=
  c.segmentAt seq (.ack ||| .psh) data

/-- A reset at the next number to send. -/
def resetSegment (c : Connection) : Segment := .reply c.flow c.sndNxt .zero .rst 0 []

end Connection

namespace Outcome

def send (o : Outcome) (s : Segment) : Outcome := { o with segments := o.segments ++ [s] }

def command (o : Outcome) (c : Command) : Outcome := { o with commands := o.commands ++ [c] }

/-- Sends a bare acknowledgment. -/
def sendAck (o : Outcome) : Outcome := o.send o.connection.ackSegment

/-- Sends a reset of the connection, and counts it. -/
def sendReset (o : Outcome) : Outcome :=
  { o with connection := o.connection.countReset }.send o.connection.resetSegment

/-- Answers `s` as a segment without a connection, and counts the reset if there is one. -/
def sendResetFor (o : Outcome) (s : Segment) : Outcome :=
  match s.resetReply with
  | none => o
  | some reset => { o with connection := o.connection.countReset }.send reset

end Outcome

end TcpGateway
