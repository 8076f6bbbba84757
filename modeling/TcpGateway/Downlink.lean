import TcpGateway.Buffer

/-!
# The downlink: bytes from the relay to the client

The relay's bytes wait in a buffer until the client has acknowledged them, so that any of them
can be sent again.  Sequence numbers address the buffer: `una` numbers its first byte, and
`nxt` the first byte not sent yet.

    una            nxt                end of the buffer
     |  in flight   |     unsent       |
-/

namespace TcpGateway

structure Downlink where
  buffer : Buffer
  /-- The oldest sequence number not acknowledged (SND.UNA). -/
  una : SeqNum
  /-- The next sequence number to send (SND.NXT). -/
  nxt : SeqNum
deriving DecidableEq, Repr, Inhabited

namespace Downlink

/-- Numbers the first byte of `buffer` with `start`; nothing is sent yet. -/
def ofBuffer (buffer : Buffer) (start : SeqNum) : Downlink := ⟨buffer, start, start⟩

/-- Bytes not acknowledged yet, counted as far as 32 bits reach. -/
def buffered (d : Downlink) : Nat := min d.buffer.length 4294967295

/-- The range of the bytes held. -/
def range (d : Downlink) : SeqRange := .ofSize d.una d.buffered

/-- How many more bytes the buffer takes. -/
def room (d : Downlink) : Nat := d.buffer.available

/-- The range a client that advertises `window` accepts. -/
def clientRange (d : Downlink) (window : UInt16) : SeqRange := .ofSize d.una window.toNat

/-- Sequence numbers sent and not acknowledged. -/
def inFlight (d : Downlink) : Nat := d.nxt.distance d.una

/-- Bytes never sent so far. -/
def unsent (d : Downlink) : Nat := d.range.size - d.inFlight

def isFullySent (d : Downlink) : Bool := d.unsent == 0

/-- Whether all that was sent, a FIN included, is acknowledged. -/
def isFullyAcknowledged (d : Downlink) : Bool := d.una == d.nxt

/-- The next range to send: unsent bytes, at most `maxSize` of them and no more than the
client's window has room for; `none` if that leaves nothing. -/
def nextRange (d : Downlink) (maxSize : Nat) (window : UInt16) : Option SeqRange :=
  let usable := (d.clientRange window).size - d.inFlight
  let size := min (min d.unsent usable) maxSize
  if size = 0 then none else some (.ofSize d.nxt size)

/-- The bytes in `r`, sent or not, as long as they are held. -/
def read (d : Downlink) (r : SeqRange) : Except StreamError Bytes :=
  let offset := r.lower.distance d.una
  if d.range.size < offset + r.size then .error (.mismatch r d.range)
  else
    match d.buffer.peek offset r.size with
    | .ok data => .ok data
    | .error _ => .error (.mismatch r d.range)

/-- Records that `r` has been sent; it has to start at the next number to send. -/
def markSent (d : Downlink) (r : SeqRange) : Except StreamError Downlink :=
  if r.lower = d.nxt then .ok { d with nxt := r.upper } else .error (.mismatch r d.range)

/-- Spends one sequence number on a SYN or FIN. -/
def spendControl (d : Downlink) : Downlink := { d with nxt := d.nxt.next }

/-- Applies an acknowledgment: bytes before `ack` are dropped, and their number is answered.
Only a number ahead of `una` has an effect, and one beyond `nxt` is an error. -/
def acknowledge (d : Downlink) (ack : SeqNum) : Except StreamError (Downlink × Nat) :=
  if d.una.precedes ack then
    let covered := ack.distance d.una
    if d.inFlight < covered then
      .error (.badWindow s!"ack {ack.text} beyond SND.NXT {d.nxt.text}")
    else
      let released := min covered d.buffer.length
      match d.buffer.discard released with
      | .ok b => .ok ({ d with buffer := b, una := ack }, released)
      | .error e => .error e
  else .ok (d, 0)

end Downlink

end TcpGateway
