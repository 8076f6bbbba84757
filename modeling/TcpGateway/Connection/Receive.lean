import TcpGateway.Connection.Send

/-!
# The client's segments

What a segment does in each phase.  In the synchronized phases a segment is first screened
(`screen`): a reset, a segment outside the window, a SYN or the lack of an acknowledgment settle
the matter.  What passes has its acknowledgment applied, then its payload accepted, then its FIN.
-/

namespace TcpGateway

namespace Connection

/-! ## Steps that several phases share -/

/-- Handles what no synchronized phase looks into; `none` lets the segment pass. -/
def screen (c : Connection) (s : Segment) : Option Outcome :=
  if s.isRst then
    if c.uplink.receiveRange.contains s.seq then some ((c.enter .closed).command .abortRelay)
    else some c.stay.sendAck
  else if !c.uplink.inWindow s.seq s.payload.length then some c.stay.sendAck
  else if s.isSyn then some ((c.enter .closed).sendReset.command .abortRelay)
  else if !s.isAck then some c.stay
  else none

/-- Applies the acknowledgment and the window of `s`; `none` if it acknowledges what was never
sent. -/
def applyAck (c : Connection) (s : Segment) : Option Connection :=
  if c.sndNxt.precedes s.ack then none
  else if c.sndUna.precedes s.ack then
    match c.downlink.acknowledge s.ack with
    | .error _ => none
    | .ok (downlink, _) =>
      some { c with downlink, resends := c.resends.acknowledge s.ack, peerWindow := s.window }
  else some { c with peerWindow := s.window }

/-- Puts the payload into the uplink; `none` if it is refused. -/
def acceptPayload (c : Connection) (s : Segment) : Option Connection :=
  if s.payload.isEmpty then some c
  else
    match c.uplink.write s.seq s.payload with
    | .error _ => none
    | .ok uplink =>
      some { c with
        uplink
        counters.bytesFromClients :=
          c.counters.bytesFromClients + UInt64.ofNat s.payload.length }

/-- Spends a number on the client's FIN. -/
def acceptFin (c : Connection) : Connection := { c with uplink := c.uplink.spendControl }

/-! ## Handshake -/

/-- Answers a SYN: both streams are numbered anew, ours from the initial number that the wall
clock shows, and bytes that wait in the buffers stay there. -/
def acceptSyn (c : Connection) (syn : Segment) (now wall : Nat) : Outcome :=
  let iss := SeqNum.ofClock wall
  let c := { c with
    iss
    uplink := .ofBuffer c.uplink.buffer syn.seq.next
    downlink := .ofBuffer c.downlink.buffer iss.next
    peerWindow := syn.window
    synAckSentAt := some now }
  (c.enter .synReceived).send c.synAckSegment

def onListen (c : Connection) (s : Segment) (now wall : Nat) : Outcome :=
  if s.isRst then (c.enter .closed).command .abortRelay
  else if !s.isBareSyn then ((c.enter .closed).command .abortRelay).sendResetFor s
  else c.acceptSyn s now wall

/-! ## Synchronized phases -/

/-- In phase Established: the client's FIN ends the uplink; anything else is answered by new
data, or by an acknowledgment if it brought data. -/
def onEstablished (c : Connection) (s : Segment) (now : Nat) : Outcome :=
  match c.screen s with
  | some o => o
  | none =>
    match c.applyAck s with
    | none => c.stay.sendAck
    | some c =>
      match c.acceptPayload s with
      | none => c.stay.sendAck
      | some c =>
        if s.isFin then (c.acceptFin.enter .closeWait).sendAck.command .finishUplink
        else
          match c.sendData now with
          | some (c, data) => (c.stay.send data).sendFinIfReady now
          | none => (if s.payload.isEmpty then c.stay else c.stay.sendAck).sendFinIfReady now

/-- In phase CloseWait the client has nothing more to send, and payload is only acknowledged. -/
def onCloseWait (c : Connection) (s : Segment) (now : Nat) : Outcome :=
  match c.screen s with
  | some o => o
  | none =>
    match c.applyAck s with
    | none => c.stay.sendAck
    | some c => if s.payload.isEmpty then c.sendPending now else c.stay.sendAck

/-- In phases FinWait1 and FinWait2 the payload is taken if it can be; the phase after the
client's FIN is `afterFin`, and `next` gives the one after any other segment. -/
def onFinWait (c : Connection) (s : Segment) (afterFin : Phase) (next : Connection → Phase) :
    Outcome :=
  match c.screen s with
  | some o => o
  | none =>
    match c.applyAck s with
    | none => c.stay.sendAck
    | some c =>
      let c := (c.acceptPayload s).getD c
      if s.isFin then (c.acceptFin.enter afterFin).sendAck
      else
        let o := c.enter (next c)
        if s.payload.isEmpty then o else o.sendAck

def onFinWait1 (c : Connection) (s : Segment) : Outcome :=
  c.onFinWait s .closing fun c => if c.isFinAcknowledged then .finWait2 else c.phase

def onFinWait2 (c : Connection) (s : Segment) : Outcome := c.onFinWait s .closed phase

def onClosing (c : Connection) (s : Segment) : Outcome :=
  match c.screen s with
  | some o => o
  | none =>
    match c.applyAck s with
    | none => c.stay.sendAck
    | some c => if c.isFinAcknowledged then c.enter .closed else c.stay

/-- In phase LastAck all but the acknowledgment of the FIN is answered by the FIN. -/
def onLastAck (c : Connection) (s : Segment) : Outcome :=
  match c.screen s, c.finSeq with
  | some o, _ => o
  | none, none => c.stay
  | none, some fin =>
    match c.applyAck s with
    | none => c.stay.send (c.finSegment fin)
    | some c => if s.ack = fin.next then c.enter .closed else c.stay.send (c.finSegment fin)

/-! ## All phases -/

/-- In phase SynReceived: a SYN starts the handshake over, and an acknowledgment of the SYN-ACK
completes it and is then handled as in phase Established. -/
def onSynReceived (c : Connection) (s : Segment) (now wall : Nat) : Outcome :=
  if s.isRst then
    if c.uplink.receiveRange.contains s.seq then (c.enter .closed).command .abortRelay
    else c.stay
  else if s.isBareSyn then c.acceptSyn s now wall
  else if !c.uplink.inWindow s.seq s.payload.length then c.stay.sendAck
  else if !s.isAck then { c with synAckSentAt := some now }.stay.send c.synAckSegment
  else if !(SeqRange.mk c.iss c.sndNxt).contains s.ack then c.stay.sendResetFor s
  else { c with synAckSentAt := none, phase := .established }.onEstablished s now

def onSegment (c : Connection) (s : Segment) (now wall : Nat) : Outcome :=
  match c.phase with
  | .held => c.stay
  | .listen => c.onListen s now wall
  | .synReceived => c.onSynReceived s now wall
  | .established => c.onEstablished s now
  | .finWait1 => c.onFinWait1 s
  | .finWait2 => c.onFinWait2 s
  | .closeWait => c.onCloseWait s now
  | .closing => c.onClosing s
  | .lastAck => c.onLastAck s
  | .closed => c.stay

end Connection

end TcpGateway
