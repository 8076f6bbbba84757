import TcpGateway.Segment

/-!
# Resets for segments without a connection

A segment that belongs to no connection is answered as if the connection were closed.
-/

namespace TcpGateway

namespace Segment

/-- The reset that answers `s`: none to a reset, at the acknowledged number if there is one,
and otherwise at zero, acknowledging all that `s` occupies. -/
def resetReply (s : Segment) : Option Segment :=
  if s.isRst then none
  else if s.isAck then
    some (reply s.flow s.ack .zero .rst 0 [])
  else
    some (reply s.flow .zero (s.seq.add s.length) (.rst ||| .ack) 0 [])

end Segment

end TcpGateway
