import TcpGateway.Buffer

/-!
# The uplink: bytes from the client to the relay

Segments are accepted strictly in order: a segment has to start at the next expected number,
and gaps are left for the client to fill.  The receive window is the room in the buffer, which
empties as the relay takes the bytes.
-/

namespace TcpGateway

structure Uplink where
  buffer : Buffer
  /-- The next sequence number expected (RCV.NXT). -/
  nxt : SeqNum
deriving DecidableEq, Repr, Inhabited

namespace Uplink

def ofBuffer (buffer : Buffer) (start : SeqNum) : Uplink := ⟨buffer, start⟩

/-- The largest window: the capacity of the buffer, as far as a window field can express it. -/
def maxWindow (u : Uplink) : Nat :=
  match u.buffer.capacity with
  | none => 65535
  | some capacity => min capacity 65535

/-- The receive window (RCV.WND). -/
def window (u : Uplink) : Nat := u.maxWindow - u.buffer.length

/-- The range of the accepted bytes that the relay has not taken yet. -/
def heldRange (u : Uplink) : SeqRange :=
  ⟨u.nxt.rewind (min u.buffer.length 4294967295), u.nxt⟩

/-- The range the client may send. -/
def receiveRange (u : Uplink) : SeqRange := .ofSize u.nxt u.window

/-- Whether a segment of `length` bytes that starts at `seq` can be written now. -/
def inWindow (u : Uplink) (seq : SeqNum) (length : Nat) : Bool :=
  seq == u.nxt && (length == 0 || length ≤ u.window)

/-- Accepts `payload`, which starts at `seq`.  The first of these that holds is the error: the
segment is out of order, larger than the window, or the buffer is closed. -/
def write (u : Uplink) (seq : SeqNum) (payload : Bytes) : Except StreamError Uplink :=
  if seq ≠ u.nxt then .error (.misordered u.nxt seq)
  else if payload.isEmpty then .ok u
  else if u.window < payload.length then
    .error (.badWindow s!"{payload.length} byte payload exceeds receive window {u.window}")
  else
    match u.buffer.write payload with
    | .ok b => .ok { buffer := b, nxt := u.nxt.add payload.length }
    | .error e => .error e

/-- Spends one sequence number on the client's SYN or FIN. -/
def spendControl (u : Uplink) : Uplink := { u with nxt := u.nxt.next }

/-- Accepts no more payload; what is held stays for the relay. -/
def close (u : Uplink) : Uplink := { u with buffer := u.buffer.close }

end Uplink

end TcpGateway
