import TcpGateway.SeqRange

/-!
# Errors of buffers and byte streams

All but `closed` are refusals of one call that leave the stream as it was.
-/

namespace TcpGateway

inductive StreamError where
  /-- A bounded buffer has no room for the whole write. -/
  | full (requested available : Nat)
  /-- A read wants more than a bounded buffer can ever hold. -/
  | exceedsCapacity (requested capacity : Nat)
  /-- Fewer bytes are buffered than wanted. -/
  | notEnough (requested available : Nat)
  | closed
  /-- A segment does not start at the next expected number. -/
  | misordered (expected actual : SeqNum)
  /-- A range is not part of what is buffered. -/
  | mismatch (requested buffered : SeqRange)
  /-- An acknowledgment or a payload does not fit the window. -/
  | badWindow (reason : String)
  | sequence (fault : SeqRange.BoundError)
deriving DecidableEq, Repr

namespace StreamError

def message : StreamError → String
  | full requested available =>
    s!"buffer full: {requested} bytes requested, {available} available"
  | exceedsCapacity requested capacity =>
    s!"read of {requested} bytes exceeds straw capacity {capacity}"
  | notEnough requested available =>
    s!"not enough data: {requested} bytes requested, {available} buffered"
  | closed => "straw closed"
  | misordered expected actual =>
    s!"misordered segment: expected {expected.text}, got {actual.text}"
  | mismatch requested buffered =>
    s!"segment mismatch: {requested.text} is outside buffered window {buffered.text}"
  | badWindow reason => s!"bad segment window: {reason}"
  | sequence fault => s!"sequence error: {fault.message}"

/-- Whether dropping the offending packet is enough to go on. -/
def isRecoverable : StreamError → Bool
  | closed => false
  | _ => true

/-- Whether the rules on the order and the window of segments were broken. -/
def isContractViolation : StreamError → Bool
  | misordered .. | mismatch .. | badWindow _ => true
  | _ => false

end StreamError

end TcpGateway
