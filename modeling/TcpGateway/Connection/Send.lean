import TcpGateway.Connection.Basic

/-!
# Sending to the client

New data goes out one segment at a time, as far as the client's window allows; the FIN follows
once the relay is done and every byte has been sent.  The timer sends the oldest segment again
that was not acknowledged for an interval.
-/

namespace TcpGateway

namespace Connection

/-- Sends the next unsent piece of the downlink, if there is one and the window has room. -/
def sendData (c : Connection) (now : Nat) : Option (Connection × Segment) :=
  match c.downlink.nextRange c.options.maxPayload c.peerWindow with
  | none => none
  | some range =>
    match c.downlink.read range, c.downlink.markSent range with
    | .ok data, .ok downlink =>
      let c := { c with
        downlink
        resends := c.resends.add (.ofData data range now)
        counters.bytesToClients := c.counters.bytesToClients + UInt64.ofNat data.length }
      some (c, c.dataSegment range.lower data)
    | _, _ => none

/-- Whether the FIN was sent and all is acknowledged. -/
def isFinAcknowledged (c : Connection) : Bool := c.finSeq.isSome && c.downlink.isFullyAcknowledged

/-- Whether it is time for the FIN: the relay is done and every byte was sent. -/
def isReadyToClose (c : Connection) : Bool :=
  c.relayDone && c.finSeq.isNone && c.downlink.isFullySent

/-- Spends the next number on a FIN. -/
def sendFin (c : Connection) (now : Nat) : Connection × Segment :=
  let seq := c.sndNxt
  let c := { c with
    finSeq := some seq
    downlink := c.downlink.spendControl
    resends := c.resends.add (.ofFin seq now) }
  (c, c.finSegment seq)

end Connection

namespace Outcome

/-- Sends new data behind what `o` sends already. -/
def sendData (o : Outcome) (now : Nat) : Outcome :=
  match o.connection.sendData now with
  | none => o
  | some (c, s) => { o with connection := c }.send s

/-- Sends the FIN if it is time for it, and moves on accordingly. -/
def sendFinIfReady (o : Outcome) (now : Nat) : Outcome :=
  if o.connection.isReadyToClose then
    let (c, fin) := o.connection.sendFin now
    let o := { o with connection := c }.send fin
    match c.phase with
    | .established => { o with connection.phase := .finWait1 }
    | .closeWait => { o with connection.phase := .lastAck }.command .finishUplink
    | _ => o
  else o

end Outcome

namespace Connection

/-- Sends what can be sent now: data, and the FIN behind the last of it. -/
def sendPending (c : Connection) (now : Nat) : Outcome := (c.stay.sendData now).sendFinIfReady now

/-- Sends the oldest unacknowledged segment again if it is due, and new data otherwise. -/
def resend (c : Connection) (now : Nat) : Outcome :=
  match c.resends.due now with
  | .ok s =>
    let segment := if s.isFin then c.finSegment s.seq else c.dataSegment s.seq s.data
    let resends :=
      match c.resends.markResent s.seq now with
      | .ok resends => resends
      | .error _ => c.resends
    { c with resends, counters.resends := c.counters.resends + 1 }.stay.send segment
  | .error _ => if c.phase.canSend then c.sendPending now else c.stay

/-- Sends the SYN-ACK again if an interval has passed since it was last sent. -/
def resendSynAck (c : Connection) (now : Nat) : Outcome :=
  let due := c.synAckSentAt.all fun sentAt => c.options.resendInterval ≤ now - sentAt
  if due then
    { c with synAckSentAt := some now, counters.resends := c.counters.resends + 1 }.stay.send
      c.synAckSegment
  else c.stay

/-- Whether the client was last told a zero window and there is room again. -/
def isWindowReopened (c : Connection) : Bool :=
  c.phase.canReceive && c.advertised == 0 && 0 < c.rcvWnd

end Connection

end TcpGateway
