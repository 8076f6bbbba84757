import TcpGateway.Connection.Phase

/-!
# Counters

What a gateway and its connections have done so far.  Counters are 64-bit words and wrap.
Every part counts for itself; the whole is the sum (`add`).
-/

namespace TcpGateway

structure Counters where
  /-- Packets offered. -/
  messages : UInt64 := 0
  ipv4 : UInt64 := 0
  tcp : UInt64 := 0
  /-- IPv4 packets of another protocol. -/
  nonTcp : UInt64 := 0
  malformed : UInt64 := 0
  resetsSent : UInt64 := 0
  opened : UInt64 := 0
  closed : UInt64 := 0
  /-- SYNs refused because there were too many connections. -/
  rejected : UInt64 := 0
  /-- Packets sent again by a timer. -/
  resends : UInt64 := 0
  /-- Payload bytes accepted from clients. -/
  bytesFromClients : UInt64 := 0
  /-- Payload bytes sent to clients, each counted once. -/
  bytesToClients : UInt64 := 0
  /-- Segments handled in each phase. -/
  inPhase : Phase → UInt64 := fun _ => 0

namespace Counters

instance : Inhabited Counters := ⟨{}⟩

/-- Counts one segment handled in phase `p`. -/
def record (c : Counters) (p : Phase) : Counters :=
  { c with inPhase := fun q => if q = p then c.inPhase q + 1 else c.inPhase q }

/-- The counts of two parts taken together. -/
def add (a b : Counters) : Counters where
  messages := a.messages + b.messages
  ipv4 := a.ipv4 + b.ipv4
  tcp := a.tcp + b.tcp
  nonTcp := a.nonTcp + b.nonTcp
  malformed := a.malformed + b.malformed
  resetsSent := a.resetsSent + b.resetsSent
  opened := a.opened + b.opened
  closed := a.closed + b.closed
  rejected := a.rejected + b.rejected
  resends := a.resends + b.resends
  bytesFromClients := a.bytesFromClients + b.bytesFromClients
  bytesToClients := a.bytesToClients + b.bytesToClients
  inPhase := fun p => a.inPhase p + b.inPhase p

instance : Add Counters := ⟨add⟩

end Counters

end TcpGateway
