import TcpGateway.Downlink

/-!
# Runs of a downlink

The calls that reach a downlink, in the order in which they come: the relay's side writes into the
buffer and closes it, and the connection sends what is next, spends a number on its FIN and applies
the acknowledgments of the client.
-/

namespace TcpGateway

namespace Downlink

/-- One thing done to a downlink. -/
inductive Call where
  | write (data : Bytes)
  /-- One step of a piecewise write. -/
  | writeSome (data : Bytes)
  | close
  /-- Takes the next range, if there is one, and marks it as sent. -/
  | send (maxSize : Nat) (window : UInt16)
  | spendControl
  | acknowledge (ack : SeqNum)
deriving DecidableEq, Repr

/-- Whether the call spends a number on no byte. -/
def Call.isControl : Call → Bool
  | .spendControl => true
  | _ => false

/-- The downlink after a call; one that is refused leaves it as it was. -/
def serve (d : Downlink) (call : Call) : Downlink :=
  match call with
  | .write data =>
    match d.buffer.write data with
    | .ok b => { d with buffer := b }
    | .error _ => d
  | .writeSome data =>
    match d.buffer.writeSome data with
    | .ok (b, _) => { d with buffer := b }
    | .error _ => d
  | .close => { d with buffer := d.buffer.close }
  | .send maxSize window =>
    match d.nextRange maxSize window with
    | none => d
    | some r =>
      match d.markSent r with
      | .ok d' => d'
      | .error _ => d
  | .spendControl => d.spendControl
  | .acknowledge ack =>
    match d.acknowledge ack with
    | .ok (d', _) => d'
    | .error _ => d

/-- The downlink after a run. -/
def run (d : Downlink) (calls : List Call) : Downlink := calls.foldl serve d

/-- The bytes that a call writes, by what it is told. -/
def writes (d : Downlink) (call : Call) : Bytes :=
  match call with
  | .write data =>
    match d.buffer.write data with
    | .ok _ => data
    | .error _ => []
  | .writeSome data =>
    match d.buffer.writeSome data with
    | .ok (_, rest) => data.take (data.length - rest.length)
    | .error _ => []
  | _ => []

/-- How far a call moves the oldest number that is not acknowledged. -/
def acknowledges (d : Downlink) (call : Call) : Nat := (d.serve call).una.distance d.una

/-- How far a call moves the next number to send. -/
def sends (d : Downlink) (call : Call) : Nat := (d.serve call).nxt.distance d.nxt

/-- All bytes written during a run. -/
def written (d : Downlink) : List Call → Bytes
  | [] => []
  | call :: calls => d.writes call ++ (d.serve call).written calls

/-- How many numbers were acknowledged during a run. -/
def acknowledged (d : Downlink) : List Call → Nat
  | [] => 0
  | call :: calls => d.acknowledges call + (d.serve call).acknowledged calls

/-- How many numbers were sent during a run, each counted once. -/
def sent (d : Downlink) : List Call → Nat
  | [] => 0
  | call :: calls => d.sends call + (d.serve call).sent calls

end Downlink

end TcpGateway
