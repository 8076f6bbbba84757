import TcpGateway.Buffer.Waiting
import TcpGateway.Downlink

/-!
# Runs of a shared buffer

The calls that its two parties make on a buffer, in the order in which they reach it, and a history
of what came of each.  A call that waits comes up again each time it is polled, until it is answered
or dropped, so every interleaving of the parties at the points where they wait is a list of calls.
-/

namespace TcpGateway

namespace WaitingBuffer

/-- One thing that a party does to the buffer. -/
inductive Call where
  | write (data : Bytes)
  /-- Starts a piecewise write. -/
  | writeAll (data : Bytes)
  | pollWrite
  | dropWrite
  | read (want : Buffer.Want)
  | pollRead
  | dropRead
  | peek (offset count : Nat)
  | discard (count : Nat)
  | close
deriving DecidableEq, Repr

/-- What a call is told. -/
inductive Reply where
  | unit (answer : Answer Unit)
  | bytes (answer : Answer Bytes)
deriving Repr

/-- The buffer after a call, and the reply. -/
def serve (w : WaitingBuffer) (call : Call) : WaitingBuffer × Reply :=
  match call with
  | .write data => (w.write data).map id fun result => .unit (.done result)
  | .writeAll data => (w.writeAll data).map id .unit
  | .pollWrite => w.pollWrite.map id .unit
  | .dropWrite => (w.dropWrite, .unit (.done (.ok ())))
  | .read want => (w.read want).map id .bytes
  | .pollRead => w.pollRead.map id .bytes
  | .dropRead => (w.dropRead, .unit (.done (.ok ())))
  | .peek offset count => (w, .bytes (.done (w.buffer.peek offset count)))
  | .discard count => (w.discard count).map id fun result => .unit (.done result)
  | .close => (w.close, .unit (.done (.ok ())))

/-- One call of a run, with the buffer before and after it. -/
structure Turn where
  before : WaitingBuffer
  call : Call
  after : WaitingBuffer
  reply : Reply

/-- What happened in a run, oldest call first. -/
abbrev Turns := List Turn

/-- The turn of a call on the buffer `w`. -/
def turn (w : WaitingBuffer) (call : Call) : Turn :=
  ⟨w, call, (w.serve call).1, (w.serve call).2⟩

/-- The turns of a run. -/
def turns (w : WaitingBuffer) : List Call → Turns
  | [] => []
  | call :: calls => w.turn call :: (w.serve call).1.turns calls

/-- The buffer after a run. -/
def run (w : WaitingBuffer) (calls : List Call) : WaitingBuffer :=
  calls.foldl (fun w call => (w.serve call).1) w

namespace Turn

/-- The bytes that the buffer took: those behind what it held before. -/
def accepted (t : Turn) : Bytes := t.after.buffer.bytes.drop t.before.buffer.length

/-- The bytes that a read answered or a discard dropped. -/
def removed (t : Turn) : Bytes :=
  match t.call, t.reply with
  | .read _, .bytes (.done (.ok data)) => data
  | .pollRead, .bytes (.done (.ok data)) => data
  | .discard count, .unit (.done (.ok _)) => t.before.buffer.bytes.take count
  | _, _ => []

end Turn

/-- A piecewise write: all its data, and what it has put in so far. -/
structure Piecewise where
  data : Bytes
  put : Bytes
deriving DecidableEq, Repr

namespace Turn

variable (t : Turn)

/-- The piecewise write that the turn gets on with, if it does; `underWay` is the one before it. -/
def writes (underWay : Option Piecewise) : Option Piecewise :=
  match t.call with
  | .writeAll data => some ⟨data, []⟩
  | .pollWrite => underWay
  | _ => none

/-- The piecewise write that is under way after the turn. -/
def writeLeft (underWay : Option Piecewise) : Option Piecewise :=
  match t.call, t.reply with
  | .writeAll _, .unit .pending | .pollWrite, .unit .pending =>
    (t.writes underWay).map fun x => { x with put := x.put ++ t.accepted }
  | .writeAll _, _ | .pollWrite, _ | .dropWrite, _ => none
  | _, _ => underWay

/-- What the read wants that the turn gets on with, if it does. -/
def reads (underWay : Option Buffer.Want) : Option Buffer.Want :=
  match t.call with
  | .read want => some want
  | .pollRead => underWay
  | _ => none

/-- What the read wants that is under way after the turn. -/
def readLeft (underWay : Option Buffer.Want) : Option Buffer.Want :=
  match t.call, t.reply with
  | .read _, .bytes .pending | .pollRead, .bytes .pending => t.reads underWay
  | .read _, _ | .pollRead, _ | .dropRead, _ => none
  | _, _ => underWay

end Turn

namespace Turns

variable (h : Turns)

/-- All bytes ever taken by the buffer. -/
def accepted : Bytes := h.flatMap Turn.accepted

/-- All bytes ever removed from it. -/
def removed : Bytes := h.flatMap Turn.removed

/-- Whether the buffer was closed. -/
def Closes : Prop := ∃ t ∈ h, t.call = .close

/-- The piecewise write under way. -/
def writing : Option Piecewise := h.foldl (fun underWay t => t.writeLeft underWay) none

/-- What the read under way wants. -/
def reading : Option Buffer.Want := h.foldl (fun underWay t => t.readLeft underWay) none

end Turns

/-! ## A buffer that a downlink sends from -/

/-- The buffer after an acknowledgment has reached the downlink that sends from it and has `una`
and `nxt` as its numbers: what the downlink releases is discarded. -/
def acknowledge (w : WaitingBuffer) (una nxt ack : SeqNum) : WaitingBuffer :=
  match (Downlink.mk w.buffer una nxt).acknowledge ack with
  | .ok (_, released) => (w.discard released).1
  | .error _ => w

/-- One thing that happens to such a buffer. -/
inductive Deed where
  | call (call : Call)
  | acknowledge (una nxt ack : SeqNum)
deriving DecidableEq, Repr

/-- The buffer after a deed. -/
def perform (w : WaitingBuffer) (deed : Deed) : WaitingBuffer :=
  match deed with
  | .call call => (w.serve call).1
  | .acknowledge una nxt ack => w.acknowledge una nxt ack

/-- The buffer after a run of deeds. -/
def performAll (w : WaitingBuffer) (deeds : List Deed) : WaitingBuffer :=
  deeds.foldl perform w

end WaitingBuffer

end TcpGateway
