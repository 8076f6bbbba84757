import TcpGateway.Bytes
import TcpGateway.SeqRange

/-!
# Segments waiting for their acknowledgment

What was sent and is not acknowledged is queued in the order of sending.  The oldest segment is
due again one interval after it was last sent.
-/

namespace TcpGateway

/-- A segment that was sent: its bytes, the range they occupy and the time it was last sent.  A
FIN has no bytes and occupies one number. -/
structure SentSegment where
  data : Bytes
  range : SeqRange
  sentAt : Nat
  isFin : Bool
deriving DecidableEq, Repr, Inhabited

namespace SentSegment

def ofData (data : Bytes) (range : SeqRange) (now : Nat) : SentSegment := ⟨data, range, now, false⟩

def ofFin (seq : SeqNum) (now : Nat) : SentSegment := ⟨[], .ofSize seq 1, now, true⟩

/-- The number of the first byte or of the FIN. -/
def seq (s : SentSegment) : SeqNum := s.range.lower

/-- The acknowledgment number that covers the whole segment. -/
def stop (s : SentSegment) : SeqNum := s.range.upper

/-- Time since the last sending, zero if the clock has gone back. -/
def age (s : SentSegment) (now : Nat) : Nat := now - s.sentAt

/-- Whether `ack` acknowledges the whole segment. -/
def isCoveredBy (s : SentSegment) (ack : SeqNum) : Bool := s.stop == ack || s.stop.precedes ack

end SentSegment

/-- Sent segments, oldest first, and the least time between two sendings of one. -/
structure ResendQueue where
  interval : Nat
  segments : List SentSegment := []
deriving DecidableEq, Repr, Inhabited

/-- Why the queue offers no segment, or does not know one. -/
inductive ResendError where
  | empty
  | tooSoon (seq : SeqNum)
  | unknown (seq : SeqNum)
deriving DecidableEq, Repr

namespace ResendError

def message : ResendError → String
  | empty => "retransmission queue empty"
  | tooSoon seq => s!"too soon to retransmit segment {seq.text}"
  | unknown seq => s!"no queued segment starts at {seq.text}"

/-- Whether this is an expected answer of the queue to a timer, and no fault. -/
def isControlSignal : ResendError → Bool
  | empty | tooSoon _ => true
  | unknown _ => false

end ResendError

namespace ResendQueue

def add (q : ResendQueue) (s : SentSegment) : ResendQueue :=
  { q with segments := q.segments ++ [s] }

/-- Drops the segments that `ack` covers. -/
def acknowledge (q : ResendQueue) (ack : SeqNum) : ResendQueue :=
  { q with segments := q.segments.filter fun s => !s.isCoveredBy ack }

/-- The oldest segment, if it is due at `now`. -/
def due (q : ResendQueue) (now : Nat) : Except ResendError SentSegment :=
  match q.segments with
  | [] => .error .empty
  | oldest :: _ => if q.interval ≤ oldest.age now then .ok oldest else .error (.tooSoon oldest.seq)

/-- Records that the first segment that starts at `seq` was sent again. -/
def markResent (q : ResendQueue) (seq : SeqNum) (now : Nat) : Except ResendError ResendQueue :=
  (refresh q.segments).map fun segments => { q with segments }
where
  refresh : List SentSegment → Except ResendError (List SentSegment)
    | [] => .error (.unknown seq)
    | s :: rest =>
      if s.seq = seq then .ok ({ s with sentAt := now } :: rest) else (refresh rest).map (s :: ·)

def clear (q : ResendQueue) : ResendQueue := { q with segments := [] }

def length (q : ResendQueue) : Nat := q.segments.length

end ResendQueue

end TcpGateway
