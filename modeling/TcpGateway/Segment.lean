import TcpGateway.Flow
import TcpGateway.SeqNum
import TcpGateway.Packet.Flags

/-!
# TCP segments

A segment as the protocol sees it, in either direction: the flow it travels on, its header
fields and its payload.
-/

namespace TcpGateway

structure Segment where
  flow : Flow
  seq : SeqNum
  ack : SeqNum
  flags : Flags
  window : UInt16
  payload : Bytes
deriving DecidableEq, Repr, Inhabited

namespace Segment

def isSyn (s : Segment) : Bool := s.flags.has .syn
def isAck (s : Segment) : Bool := s.flags.has .ack
def isFin (s : Segment) : Bool := s.flags.has .fin
def isRst (s : Segment) : Bool := s.flags.has .rst

/-- The segment with these fields that goes back to the source of `f`. -/
def reply (f : Flow) (seq ack : SeqNum) (flags : Flags) (window : UInt16) (payload : Bytes) :
    Segment :=
  { flow := f.reverse, seq, ack, flags, window, payload }

/-- A SYN without ACK, FIN or RST: the only segment that asks for a connection. -/
def isBareSyn (s : Segment) : Bool := s.isSyn && !s.isAck && !s.isFin && !s.isRst

/-- The sequence numbers a segment occupies: one for each payload byte, SYN and FIN. -/
def length (s : Segment) : Nat := s.payload.length + s.isSyn.toNat + s.isFin.toNat

def text (s : Segment) : String :=
  s!"{s.flow.text} [{s.flags.text}] seq={s.seq.text} ack={s.ack.text} win={s.window} " ++
    s!"len={s.payload.length}"

end Segment

end TcpGateway
