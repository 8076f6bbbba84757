import TcpGateway.Flow

/-!
# The registry of connections

Which flows have a connection, each with the identifier of that connection.  Identifiers are
handed out in increasing order and never again, so that a connection that ends can be told from
a newer one of the same flow.
-/

namespace TcpGateway

structure Registry where
  /-- The most connections that may be opened. -/
  capacity : Nat
  entries : List (Flow × Nat) := []
  /-- The identifier of the next connection. -/
  nextId : Nat := 1
deriving DecidableEq, Repr, Inhabited

namespace Registry

def length (r : Registry) : Nat := r.entries.length

def isFull (r : Registry) : Bool := r.capacity ≤ r.length

/-- The identifier of the connection of `f`. -/
def find? (r : Registry) (f : Flow) : Option Nat := r.entries.lookup f

def contains (r : Registry) (f : Flow) : Bool := (r.find? f).isSome

/-- The flows in the order in which they are listed. -/
def flows (r : Registry) : List Flow := (r.entries.map (·.1)).mergeSort Flow.isListedBefore

/-- Enters `f` with a new identifier, unless it has a connection.  The capacity is not looked
at. -/
def insert? (r : Registry) (f : Flow) : Option (Nat × Registry) :=
  if r.contains f then none
  else
    some (r.nextId, { r with entries := r.entries ++ [(f, r.nextId)], nextId := r.nextId + 1 })

/-- Removes the entry of `f` if it belongs to connection `id`. -/
def erase (r : Registry) (f : Flow) (id : Nat) : Registry :=
  { r with entries := r.entries.filter (· ≠ (f, id)) }

/-- Removes all entries. -/
def clear (r : Registry) : Registry := { r with entries := [] }

end Registry

end TcpGateway
