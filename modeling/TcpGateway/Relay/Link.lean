import TcpGateway.Bytes
import TcpGateway.Relay.Error

/-!
# The stream to the relay

The gateway's end of the byte stream to a relay.  Bytes written stay in `outgoing` until the
relay takes them, and bytes from the relay stay in `incoming` until they are read.  Either
direction may fail: reading once what was delivered before has been read, and writing after some
more bytes were accepted.
-/

namespace TcpGateway

structure Link where
  outgoing : Bytes := []
  incoming : Bytes := []
  /-- How reading fails behind `incoming`; `none` while more may come. -/
  readFault : Option IoFault := none
  /-- How writing fails, and the number of bytes accepted before it does. -/
  writeFault : Option (Nat × IoFault) := none
  /-- Whether the gateway has left its end. -/
  hungUp : Bool := false
deriving DecidableEq, Repr, Inhabited

namespace Link

/-- Writes `data`; of a write that fails, the part accepted is on the stream nevertheless. -/
def write (l : Link) (data : Bytes) : Link × Except IoFault Unit :=
  match l.writeFault with
  | none => ({ l with outgoing := l.outgoing ++ data }, .ok ())
  | some (room, fault) =>
    let written := { l with
      outgoing := l.outgoing ++ data.take room
      writeFault := some (room - data.length, fault) }
    if data.length ≤ room then (written, .ok ()) else (written, .error fault)

/-- The gateway leaves its end. -/
def hangUp (l : Link) : Link := { l with hungUp := true }

/-- The relay leaves its end. -/
def abandon (l : Link) : Link :=
  { l with readFault := some .eof, writeFault := some (0, .pipe) }

end Link

end TcpGateway
