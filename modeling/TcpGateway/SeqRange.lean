import TcpGateway.SeqNum

/-!
# Ranges of sequence numbers

A range runs forward on the circle from its lower to its upper bound, both included.  Bounds
move forward only, by at most what a 16-bit window field can express in one call, and the lower
bound never passes the upper one.
-/

namespace TcpGateway

/-- The sequence numbers met on the way forward from `lower` to `upper`. -/
structure SeqRange where
  lower : SeqNum
  upper : SeqNum
deriving DecidableEq, Repr, Inhabited

namespace SeqRange

/-- A bound was asked to move further than this call allows. -/
structure BoundError where
  requested : Nat
  limit : Nat
deriving DecidableEq, Repr

def BoundError.message (e : BoundError) : String :=
  s!"sequence range increase out of bounds: {e.requested} exceeds limit {e.limit}"

/-- The largest move of a bound in one call, the largest value of a 16-bit window field. -/
def maxMove : Nat := 65535

/-- The range of `size` steps that starts at `lower`. -/
def ofSize (lower : SeqNum) (size : Nat) : SeqRange := ⟨lower, lower.add size⟩

def empty (s : SeqNum) : SeqRange := ofSize s 0

/-- Steps from the lower to the upper bound. -/
def size (r : SeqRange) : Nat := r.upper.distance r.lower

def isEmpty (r : SeqRange) : Bool := r.size == 0

/-- Whether the range crosses the point where the numbers start again at zero. -/
def wraps (r : SeqRange) : Bool := r.upper.toNat < r.lower.toNat

/-- Membership, both bounds included.  A range that wraps holds all but the numbers strictly
between its upper and its lower bound. -/
def contains (r : SeqRange) (s : SeqNum) : Bool :=
  if r.wraps then !(r.upper.toNat < s.toNat && s.toNat < r.lower.toNat)
  else r.lower.toNat ≤ s.toNat && s.toNat ≤ r.upper.toNat

/-- The range with its lower bound `n` steps further on. -/
def raiseLower (r : SeqRange) (n : Nat) : Except BoundError SeqRange :=
  let limit := min maxMove r.size
  if limit < n then .error ⟨n, limit⟩ else .ok { r with lower := r.lower.add n }

/-- The range with its upper bound `n` steps further on. -/
def raiseUpper (r : SeqRange) (n : Nat) : Except BoundError SeqRange :=
  if maxMove < n then .error ⟨n, maxMove⟩ else .ok { r with upper := r.upper.add n }

def text (r : SeqRange) : String := s!"[{r.lower.text}, {r.upper.text}]"

end SeqRange

end TcpGateway
