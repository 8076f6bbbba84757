import TcpGateway.Packet.Error

/-!
# Errors on inbound packets

Why the gateway did not do what a packet asked for.  Only a closed tunnel keeps it from going on
with the next packet.
-/

namespace TcpGateway

inductive GatewayError where
  /-- The packet could not be read and was dropped. -/
  | packet (fault : PacketError)
  /-- A SYN was refused because there are too many connections. -/
  | full (capacity : Nat)
  | tunnelClosed
deriving DecidableEq, Repr

namespace GatewayError

def message : GatewayError → String
  | packet fault => s!"dropped packet: {fault.message}"
  | full capacity => s!"connection table full ({capacity} connections)"
  | tunnelClosed => "tunnel closed"

def isRecoverable : GatewayError → Bool
  | packet _ | full _ => true
  | tunnelClosed => false

end GatewayError

end TcpGateway
