import TcpGateway.Connection.Basic

/-!
# Mailboxes

The events that wait for a connection, in the order of their arrival.  A mailbox holds a limited
number of events, and takes none once the connection has stopped listening.
-/

namespace TcpGateway

structure Mailbox where
  capacity : Nat
  events : List Event := []
  isOpen : Bool := true
deriving DecidableEq, Repr

namespace Mailbox

/-- What came of an offered event. -/
inductive Delivery where
  | delivered (m : Mailbox)
  | full
  | closed

/-- Puts an event behind the others. -/
def offer (m : Mailbox) (e : Event) : Delivery :=
  if !m.isOpen then .closed
  else if m.capacity ≤ m.events.length then .full
  else .delivered { m with events := m.events ++ [e] }

/-- Puts an event behind the others, or drops it. -/
def put (m : Mailbox) (e : Event) : Mailbox :=
  match m.offer e with
  | .delivered m => m
  | _ => m

/-- The oldest event, and the mailbox without it. -/
def take? (m : Mailbox) : Option (Event × Mailbox) :=
  match m.events with
  | [] => none
  | e :: rest => some (e, { m with events := rest })

end Mailbox

end TcpGateway
