import TcpGateway.Connection.Process

/-!
# Runs of a connection

All that can happen to a connection from outside: events, writes to the downlink by the relay's
side, removals from the uplink, and the closing of either buffer.  A run is a list of such moves.
-/

namespace TcpGateway

/-- One thing done to a connection. -/
inductive Move where
  /-- An event at time `now`, with the wall clock at `wall`. -/
  | event (e : Event) (now wall : Nat)
  /-- Bytes offered to the downlink, taken whole or not at all. -/
  | writeDownlink (data : Bytes)
  /-- Bytes offered to the downlink, of which it takes what it has room for. -/
  | writeSomeDownlink (data : Bytes)
  | closeDownlink
  /-- The first `count` bytes of the uplink are taken out. -/
  | discardUplink (count : Nat)
  | closeUplink
deriving Repr

namespace Connection

/-- The outcome of a move; a move that its buffer refuses changes nothing. -/
def apply (c : Connection) (m : Move) : Outcome :=
  match m with
  | .event e now wall => c.process e now wall
  | .writeDownlink data =>
    match c.downlink.buffer.write data with
    | .ok b => { c with downlink.buffer := b }.stay
    | .error _ => c.stay
  | .writeSomeDownlink data =>
    match c.downlink.buffer.writeSome data with
    | .ok (b, _) => { c with downlink.buffer := b }.stay
    | .error _ => c.stay
  | .closeDownlink => { c with downlink.buffer := c.downlink.buffer.close }.stay
  | .discardUplink count =>
    match c.uplink.buffer.discard count with
    | .ok b => { c with uplink.buffer := b }.stay
    | .error _ => c.stay
  | .closeUplink => { c with uplink := c.uplink.close }.stay

/-- The outcomes of the moves of a run, one after the other. -/
def outcomes (c : Connection) : List Move → List Outcome
  | [] => []
  | m :: moves =>
    let o := c.apply m
    o :: o.connection.outcomes moves

/-- The segments sent during a run. -/
def sent (c : Connection) (moves : List Move) : List Segment :=
  (c.outcomes moves).flatMap (·.segments)

/-- The connection after a run. -/
def run (c : Connection) (moves : List Move) : Connection :=
  moves.foldl (fun c m => (c.apply m).connection) c

end Connection

end TcpGateway
