/-!
# Sequence numbers

TCP numbers the bytes of a stream on a circle of 2^32 numbers.  Steps along the circle wrap,
and of two numbers the earlier one is the one from which the shorter way forward leads to the
other.  That comparison (`order?`) is no order on the whole circle: two numbers exactly half
the circle apart are not comparable.
-/

namespace TcpGateway

/-- A sequence number, a point on the circle of 2^32 numbers. -/
structure SeqNum where
  val : UInt32
deriving DecidableEq, Repr, Inhabited

namespace SeqNum

def ofNat (n : Nat) : SeqNum := ⟨UInt32.ofNat n⟩

def toNat (s : SeqNum) : Nat := s.val.toNat

def zero : SeqNum := ⟨0⟩

/-- The number `n` steps ahead. -/
def add (s : SeqNum) (n : Nat) : SeqNum := ⟨s.val + UInt32.ofNat n⟩

/-- The number `n` steps back. -/
def rewind (s : SeqNum) (n : Nat) : SeqNum := ⟨s.val - UInt32.ofNat n⟩

def next (s : SeqNum) : SeqNum := s.add 1

/-- How many steps forward lead from `origin` to `s`. -/
def distance (s origin : SeqNum) : Nat := (s.val - origin.val).toNat

/-- Compares the ways forward from each number to the other: the shorter one starts at the
earlier number.  There is no answer for two numbers half the circle apart. -/
def order? (a b : SeqNum) : Option Ordering :=
  if a = b then some .eq
  else if b.distance a < a.distance b then some .lt
  else if a.distance b < b.distance a then some .gt
  else none

/-- Whether `a` comes strictly before `b`. -/
def precedes (a b : SeqNum) : Bool := a.order? b == some .lt

/-- Whether `a` is `b` or comes before it. -/
def atMost (a b : SeqNum) : Bool := a.order? b == some .lt || a.order? b == some .eq

/-- The initial sequence number shown by a clock of `micros` microseconds: a 32-bit counter
that advances every four microseconds. -/
def ofClock (micros : Nat) : SeqNum := ofNat (micros / 4)

def text (s : SeqNum) : String := toString s.toNat

end SeqNum

end TcpGateway
