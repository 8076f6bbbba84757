import TcpGateway.Connection.Receive

/-!
# Processing events

`process` is the whole behaviour of a connection: it dispatches one event and settles what every
event leaves in order, the record of the advertised window and the end of resending once closed.
-/

namespace TcpGateway

namespace Connection

/-! ## The relay's side -/

/-- The relay was reached: the held SYN is answered as in phase Listen. -/
def onRelayConnected (c : Connection) (now wall : Nat) : Outcome :=
  if c.phase ≠ .held then c.stay
  else
    let c := { c with phase := .listen }
    match c.heldSyn with
    | none => c.stay
    | some syn => { c with heldSyn := none }.onListen syn now wall

/-- Closes; a SYN that is still held is refused. -/
def refuseHeld (c : Connection) : Outcome :=
  match c.heldSyn with
  | none => c.enter .closed
  | some syn => ({ c with heldSyn := none }.enter .closed).sendResetFor syn

def onRelayData (c : Connection) (now : Nat) : Outcome :=
  if c.phase.canSend then c.sendPending now else c.stay

def onRelayClosed (c : Connection) (now : Nat) : Outcome :=
  { c with relayDone := true }.onRelayData now

/-- The relay failed: the client is told by a reset, unless the handshake has not begun. -/
def onRelayFailed (c : Connection) : Outcome :=
  match c.phase with
  | .held => c.refuseHeld.command .abortRelay
  | .listen | .closed => (c.enter .closed).command .abortRelay
  | _ => (c.enter .closed).sendReset.command .abortRelay

/-! ## The timer -/

/-- The timer resets a connection that was idle for too long.  Otherwise it repeats what is due,
or tells the client that the window is open again if there was nothing to send. -/
def onTick (c : Connection) (now : Nat) : Outcome :=
  match c.phase with
  | .held | .closed => c.stay
  | phase =>
    if c.options.idleTimeout ≤ now - c.lastUsed then
      let o := c.enter .closed
      (if phase = .listen then o else o.sendReset).command .abortRelay
    else if phase = .listen then c.stay
    else if phase = .synReceived then c.resendSynAck now
    else if phase = .closing && c.isFinAcknowledged then c.enter .closed
    else
      let o := c.resend now
      if o.segments.isEmpty && o.connection.isWindowReopened then o.sendAck else o

/-! ## One event -/

def dispatch (c : Connection) (event : Event) (now wall : Nat) : Outcome :=
  match event with
  | .segment s =>
    { c with counters := c.counters.record c.phase, lastUsed := now }.onSegment s now wall
  | .relayConnected => c.onRelayConnected now wall
  | .relayUnreachable => c.refuseHeld
  | .relayData => { c with lastUsed := now }.onRelayData now
  | .relayClosed => c.onRelayClosed now
  | .relayFailed _ => c.onRelayFailed
  | .tick => c.onTick now

/-- Notes the window that the segments advertise, and cancels all resending once closed. -/
def settle (o : Outcome) : Outcome :=
  let c := o.connection
  let c := if o.segments.isEmpty then c else { c with advertised := c.rcvWnd }
  let c := if c.phase = .closed then { c with resends := c.resends.clear } else c
  { o with connection := c }

/-- Processes one event at time `now`, with the wall clock at `wall`. -/
def process (c : Connection) (event : Event) (now wall : Nat) : Outcome :=
  settle (c.dispatch event now wall)

end Connection

end TcpGateway
