import TcpGateway.Gateway.Error
import TcpGateway.Relay.Error
import TcpGateway.Resend
import TcpGateway.Settings
import TcpGateway.Stream.Error

/-!
# All errors

The errors of every part under one type, each named by its part.
-/

namespace TcpGateway

inductive Error where
  | settings (e : SettingsError)
  | stream (e : StreamError)
  | packet (e : PacketError)
  | relay (e : RelayError)
  | sequence (e : SeqRange.BoundError)
  | resend (e : ResendError)
  | gateway (e : GatewayError)
  | io (e : IoFault)

namespace Error

def message : Error → String
  | settings e => s!"Configuration error: {e.message}"
  | stream e => s!"Straw error: {e.message}"
  | packet e => s!"Packet error: {e.message}"
  | relay e => s!"Upstream error: {e.message}"
  | sequence e => s!"Sequence error: {e.message}"
  | resend e => s!"Retransmission error: {e.message}"
  | gateway e => s!"Proxy error: {e.message}"
  | io e => s!"I/O error: {e.text}"

/-- Whether the gateway can keep running. -/
def isRecoverable : Error → Bool
  | settings e => e.isRecoverable
  | stream e => e.isRecoverable
  | packet _ | sequence _ | resend _ => true
  | relay e => e.isRecoverable
  | gateway e => e.isRecoverable
  | io e =>
    match e.kind with
    | .timedOut | .interrupted | .wouldBlock | .connectionReset => true
    | _ => false

end Error

end TcpGateway
