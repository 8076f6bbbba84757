import TcpGateway.Address

/-!
# Errors on the relay's side

Any of these ends the connection it belongs to.
-/

namespace TcpGateway

/-- The kinds of I/O failure that are told apart. -/
inductive IoKind where
  | timedOut
  | interrupted
  | wouldBlock
  | connectionRefused
  | connectionReset
  | brokenPipe
  | unexpectedEof
  | other
deriving DecidableEq, Repr

/-- A failure of an I/O operation. -/
structure IoFault where
  kind : IoKind
  text : String
deriving DecidableEq, Repr

/-- The end of a stream where more bytes were needed. -/
def IoFault.eof : IoFault := ⟨.unexpectedEof, "unexpected end of file"⟩

/-- A write to a stream that the other side has left. -/
def IoFault.pipe : IoFault := ⟨.brokenPipe, "broken pipe"⟩

inductive RelayError where
  | unreachable (address : SocketAddress) (reason : String)
  | timeout (seconds : Nat)
  /-- The rules of framing were broken. -/
  | protocol (reason : String)
  | frameTooLarge (length limit : Nat)
  | closed
  | io (fault : IoFault)
deriving DecidableEq

namespace RelayError

def message : RelayError → String
  | unreachable address reason => s!"failed to connect to relay {address.text}: {reason}"
  | timeout seconds => s!"connect timed out after {seconds}s"
  | protocol reason => s!"upstream protocol error: {reason}"
  | frameTooLarge length limit => s!"upstream frame of {length} bytes exceeds limit {limit}"
  | closed => "upstream closed"
  | io fault => s!"upstream I/O error: {fault.text}"

/-- Whether a new connection to the relay may succeed. -/
def isRecoverable : RelayError → Bool
  | unreachable .. | timeout _ => true
  | protocol _ | frameTooLarge .. | closed => false
  | io fault =>
    match fault.kind with
    | .timedOut | .connectionRefused | .connectionReset => true
    | _ => false

/-- Whether the relay has just gone away, as opposed to misbehaved. -/
def isDisconnect : RelayError → Bool
  | closed => true
  | io fault =>
    match fault.kind with
    | .unexpectedEof | .connectionReset | .brokenPipe => true
    | _ => false
  | _ => false

end RelayError

end TcpGateway
