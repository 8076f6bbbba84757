import TcpGateway.Forwarder

/-!
# Runs of a forwarder

A forwarder takes its steps while others act on what it shares with them: the connection fills the
uplink and empties the downlink and the mailbox, and the relay uses its end of the stream.  A run is
any sequence of both, each step at a time of its own.  The history of a run has a turn for each step
of the forwarder, and what the step did is read off the surroundings before and after it.
-/

namespace TcpGateway

namespace Surroundings

/-- What others do to what they share with a forwarder. -/
inductive Move where
  /-- Bytes of the client, taken whole or not at all. -/
  | writeUplink (data : Bytes)
  | closeUplink
  /-- The first `count` bytes of the downlink are no longer needed. -/
  | discardDownlink (count : Nat)
  | closeDownlink
  /-- An event of another party. -/
  | offer (e : Event)
  | takeEvent
  /-- Nobody listens to events any more. -/
  | closeMailbox
  /-- The relay sends bytes. -/
  | deliver (data : Bytes)
  /-- The relay takes the first `count` bytes off the stream. -/
  | collect (count : Nat)
  | failReading (fault : IoFault)
  /-- Writing fails after `room` more bytes. -/
  | failWriting (room : Nat) (fault : IoFault)
deriving DecidableEq, Repr

/-- The surroundings after a move; one that is refused changes nothing. -/
def apply (s : Surroundings) (m : Move) : Surroundings :=
  match m with
  | .writeUplink data =>
    match s.uplink.write data with
    | .ok uplink => { s with uplink }
    | .error _ => s
  | .closeUplink => { s with uplink := s.uplink.close }
  | .discardDownlink count =>
    match s.downlink.discard count with
    | .ok downlink => { s with downlink }
    | .error _ => s
  | .closeDownlink => { s with downlink := s.downlink.close }
  | .offer e =>
    match s.mailbox.offer e with
    | .delivered mailbox => { s with mailbox }
    | _ => s
  | .takeEvent =>
    match s.mailbox.take? with
    | some (_, mailbox) => { s with mailbox }
    | none => s
  | .closeMailbox => { s with mailbox := { s.mailbox with isOpen := false, events := [] } }
  | .deliver data => { s with link.incoming := s.link.incoming ++ data }
  | .collect count => { s with link.outgoing := s.link.outgoing.drop count }
  | .failReading fault => { s with link.readFault := some fault }
  | .failWriting room fault => { s with link.writeFault := some (room, fault) }

end Surroundings

namespace Forwarder

/-- One thing that happens in a run. -/
inductive Move where
  /-- The forwarder goes on at time `now`, if it can. -/
  | step (now : Nat)
  | others (m : Surroundings.Move)
deriving DecidableEq, Repr

/-- One step of a forwarder, with the forwarder before and after it, and the surroundings that it
found and left. -/
structure Turn where
  now : Nat
  before : Forwarder
  after : Forwarder
  found : Surroundings
  left : Surroundings

/-- What happened in a run, oldest step first. -/
abbrev Turns := List Turn

/-- The turn of a move, if the move is a step that is possible. -/
def turn? (o : ForwarderOptions) (f : Forwarder) (s : Surroundings) (m : Move) : Option Turn :=
  match m with
  | .step now => (f.step o now s).map fun x => ⟨now, f, x.1, s, x.2⟩
  | .others _ => none

/-- The forwarder and its surroundings after a move. -/
def act (o : ForwarderOptions) (x : Forwarder × Surroundings) (m : Move) :
    Forwarder × Surroundings :=
  match m with
  | .step now => (x.1.step o now x.2).getD x
  | .others m => (x.1, x.2.apply m)

/-- The turns of a run. -/
def turns (o : ForwarderOptions) (x : Forwarder × Surroundings) : List Move → Turns
  | [] => []
  | m :: moves => (x.1.turn? o x.2 m).toList ++ turns o (act o x m) moves

/-- The forwarder and its surroundings after a run. -/
def run (o : ForwarderOptions) (x : Forwarder × Surroundings) (moves : List Move) :
    Forwarder × Surroundings :=
  moves.foldl (act o) x

/-- What goes through a forwarder in one step. -/
structure Entry where
  /-- Taken out of the uplink. -/
  taken : Bytes := []
  /-- Put on the stream to the relay. -/
  sent : Bytes := []
  /-- Taken off the stream from the relay. -/
  received : Bytes := []
  /-- Put into the downlink. -/
  stored : Bytes := []
  /-- Put into the mailbox. -/
  posted : List Event := []
deriving DecidableEq, Repr

/-- The difference that a step has made: what is missing in front, and what was added behind. -/
def Turn.entry (t : Turn) : Entry where
  taken := t.found.uplink.bytes.take (t.found.uplink.length - t.left.uplink.length)
  sent := t.left.link.outgoing.drop t.found.link.outgoing.length
  received :=
    t.found.link.incoming.take (t.found.link.incoming.length - t.left.link.incoming.length)
  stored := t.left.downlink.bytes.drop t.found.downlink.length
  posted := t.left.mailbox.events.drop t.found.mailbox.events.length

namespace Turns

variable (h : Turns)

/-- All bytes taken out of the uplink. -/
def taken : Bytes := h.flatMap (·.entry.taken)

/-- All bytes put on the stream to the relay. -/
def sent : Bytes := h.flatMap (·.entry.sent)

/-- All bytes taken off the stream from the relay. -/
def received : Bytes := h.flatMap (·.entry.received)

/-- All bytes put into the downlink. -/
def stored : Bytes := h.flatMap (·.entry.stored)

/-- All events put into the mailbox. -/
def posted : List Event := h.flatMap (·.entry.posted)

/-- The requests that a relay reads off the stream. -/
def requests : List Request := (Request.readAll Frame.maxLength h.sent).1

/-- The answers that were read completely, with frames of at most `limit` bytes. -/
def answers (limit : Nat) : List Bytes := (Frame.readAll limit h.received).1

end Turns

end Forwarder

end TcpGateway
