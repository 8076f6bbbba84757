import TcpGateway.Flow

/-!
# Internet checksums

The checksum of a header is the complement of the one's-complement sum of its 16-bit words.
Two sides are kept apart here.  A writer sums in 32-bit arithmetic, leaving out the word where
the checksum will stand (`sum`, `stored`).  A reader sums all words, checksum included, in
exact arithmetic and expects all ones (`verifies`).
-/

namespace TcpGateway

namespace Checksum

/-! ## Writing -/

/-- Adds to `total` the big-endian words of `data`, which starts at byte offset `offset` of the
whole; the word at offset `skip` is left out, and an odd last byte is the high byte of a word. -/
def accumulate (total : UInt32) (offset skip : Nat) : Bytes → UInt32
  | [] => total
  | [last] =>
    if offset = skip then total else total + UInt32.ofNat (Bytes.wordOf last 0)
  | high :: low :: rest =>
    accumulate (if offset = skip then total else total + UInt32.ofNat (Bytes.wordOf high low))
      (offset + 2) skip rest

/-- Adds the carries above 16 bits back in until none are left. -/
def foldCarries (total : Nat) : Nat :=
  if total < 65536 then total else foldCarries (total % 65536 + total / 65536)
termination_by total
decreasing_by omega

/-- The one's-complement sum of `start` and the words of `data` without the word at `skip`. -/
def sum (start : UInt32) (data : Bytes) (skip : Nat) : Nat :=
  foldCarries (accumulate start 0 skip data).toNat

/-- The checksum to store in the word that `sum` left out. -/
def stored (total : Nat) : UInt16 := ~~~(UInt16.ofNat total)

/-! ## Reading -/

/-- The plain sum of the big-endian words of `data`, a last odd byte being a high byte. -/
def wordSum (data : Bytes) : Nat := go 0 data
where
  go (total : Nat) : Bytes → Nat
    | [] => total
    | [last] => total + Bytes.wordOf last 0
    | high :: low :: rest => go (total + Bytes.wordOf high low) rest

/-- Whether `start` and all words of `data` sum to sixteen ones. -/
def verifies (start : Nat) (data : Bytes) : Bool :=
  foldCarries (start + wordSum data) == 65535

/-! ## The TCP pseudo-header -/

/-- The protocol number of TCP. -/
def tcpProtocol : UInt8 := 6

/-- The words that a TCP checksum covers besides the segment: both addresses, the protocol and
the length of the segment. -/
def pseudoHeader (f : Flow) (length : Nat) : Nat :=
  wordSum f.source.address.toBytes + wordSum f.destination.address.toBytes +
    tcpProtocol.toNat + length

end Checksum

end TcpGateway
