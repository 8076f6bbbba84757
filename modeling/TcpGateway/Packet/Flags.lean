/-!
# TCP flags

The control bits of a segment as they stand in one byte of the TCP header.
-/

namespace TcpGateway

/-- The flag byte of a TCP header. -/
structure Flags where
  bits : UInt8
deriving DecidableEq, Repr, Inhabited

namespace Flags

def fin : Flags := ⟨0x01⟩
def syn : Flags := ⟨0x02⟩
def rst : Flags := ⟨0x04⟩
def psh : Flags := ⟨0x08⟩
def ack : Flags := ⟨0x10⟩

/-- Both sets of flags together. -/
def union (a b : Flags) : Flags := ⟨a.bits ||| b.bits⟩

instance : OrOp Flags := ⟨union⟩

/-- Whether a flag of `b` is set in `a`. -/
def has (a b : Flags) : Bool := a.bits &&& b.bits != 0

/-- The five flags this gateway knows; a reader drops the other bits. -/
def known (a : Flags) : Flags := ⟨a.bits &&& 0x1F⟩

/-- The names of the flags that are set, joined by commas, or `none`. -/
def text (a : Flags) : String :=
  let names :=
    [(syn, "SYN"), (ack, "ACK"), (fin, "FIN"), (rst, "RST"), (psh, "PSH")].filterMap
      fun (flag, name) => if a.has flag then some name else none
  if names.isEmpty then "none" else ",".intercalate names

end Flags

end TcpGateway
