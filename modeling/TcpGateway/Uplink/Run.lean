import TcpGateway.Uplink

/-!
# Runs of an uplink

The calls of the two sides that share an uplink, in the order in which they reach it: the
connection writes payload, spends numbers on the client's SYN and FIN and closes the buffer, and
the relay's side removes bytes in front.
-/

namespace TcpGateway

namespace Uplink

/-- One thing done to an uplink. -/
inductive Call where
  | write (seq : SeqNum) (payload : Bytes)
  | spendControl
  | close
  /-- The first `count` bytes are removed. -/
  | discard (count : Nat)
deriving DecidableEq, Repr

/-- The uplink after a call, and what the caller is told. -/
def serve (u : Uplink) (call : Call) : Uplink × Except StreamError Unit :=
  match call with
  | .write seq payload =>
    match u.write seq payload with
    | .ok u' => (u', .ok ())
    | .error e => (u, .error e)
  | .spendControl => (u.spendControl, .ok ())
  | .close => (u.close, .ok ())
  | .discard count =>
    match u.buffer.discard count with
    | .ok b => ({ u with buffer := b }, .ok ())
    | .error e => (u, .error e)

/-- The uplink after a run. -/
def run (u : Uplink) (calls : List Call) : Uplink :=
  calls.foldl (fun u call => (u.serve call).1) u

/-- The bytes that a call appends, if it is not refused. -/
def appends (u : Uplink) (call : Call) : Bytes :=
  match call, (u.serve call).2 with
  | .write _ payload, .ok _ => payload
  | _, _ => []

/-- The bytes that a call removes, if it is not refused. -/
def removes (u : Uplink) (call : Call) : Bytes :=
  match call, (u.serve call).2 with
  | .discard count, .ok _ => u.buffer.bytes.take count
  | _, _ => []

/-- All bytes appended during a run. -/
def appended (u : Uplink) : List Call → Bytes
  | [] => []
  | call :: calls => u.appends call ++ (u.serve call).1.appended calls

/-- All bytes removed during a run. -/
def removed (u : Uplink) : List Call → Bytes
  | [] => []
  | call :: calls => u.removes call ++ (u.serve call).1.removed calls

end Uplink

end TcpGateway
