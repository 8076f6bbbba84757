import TcpGateway.Forwarder
import TcpGateway.Simulation.Clock
import TcpGateway.Simulation.Relay

/-!
# A forwarder on a bench

One forwarder between two buffers and a scripted relay, under simulated time.  Whoever uses the
bench is the connection: they fill the uplink, empty the downlink and take the events.
-/

namespace TcpGateway

structure Bench where
  options : ForwarderOptions
  now : Nat := 0
  parts : Surroundings
  relay : Relay
  forwarder : Option Forwarder := none

namespace Bench

/-- A step of the forwarder or, if it has to wait, of the relay. -/
def step (now : Nat) (b : Bench) : Option Bench :=
  match b.forwarder.bind fun f => f.step b.options now b.parts with
  | some (f, parts) => some { b with forwarder := some f, parts }
  | none =>
    (b.relay.step now b.parts.link).map fun (relay, link) => { b with relay, parts.link := link }

def alarms (b : Bench) : List Nat := (b.forwarder.bind (·.wakeTime)).toList ++ b.relay.alarm?.toList

/-- Every byte on the bench takes part in a handful of steps, and so does every request. -/
def work (b : Bench) : Nat :=
  16 * (b.parts.uplink.length + b.parts.link.outgoing.length + b.parts.link.incoming.length +
    b.relay.kept.length + b.relay.scripted + 16)

def timed : Timed Bench := ⟨step, alarms, work⟩

/-- Lets everything happen that is due. -/
def settle (b : Bench) : Bench := timed.settle b.now b

/-! ## What the user does -/

/-- Starts the forwarder, which is done once. -/
def start (b : Bench) : Bench :=
  { b with forwarder := b.forwarder.or (some (.start b.now)) }

/-- Lets time pass, in microseconds. -/
def advance (b : Bench) (time : Nat) : Bench :=
  { timed.advance b.now (b.now + time) b with now := b.now + time }

def writeUplink (b : Bench) (data : Bytes) : Except StreamError Bench :=
  (b.parts.uplink.write data).map fun uplink => { b with parts.uplink := uplink }

def closeUplink (b : Bench) : Bench := { b with parts.uplink := b.parts.uplink.close }

def closeDownlink (b : Bench) : Bench := { b with parts.downlink := b.parts.downlink.close }

def discardDownlink (b : Bench) (count : Nat) : Except StreamError Bench :=
  (b.parts.downlink.discard count).map fun downlink => { b with parts.downlink := downlink }

/-- Stops listening: events that wait are lost and no others are taken. -/
def dropMailbox (b : Bench) : Bench :=
  { b with parts.mailbox := { b.parts.mailbox with isOpen := false, events := [] } }

/-- What the forwarder and the relay have done since the last look. -/
structure Sighting where
  requests : List Request
  events : List Event

/-- Lets everything happen that is due and takes the events; what waited for room in the mailbox
goes on after that. -/
def look (b : Bench) : Bench × Sighting :=
  let b := b.settle
  let events := b.parts.mailbox.events
  let b := { b with parts.mailbox := { b.parts.mailbox with events := [] } }.settle
  ({ b with relay.requests := [] }, ⟨b.relay.requests.reverse, events⟩)

/-- Whether the forwarder is at work; `none` before it was started. -/
def isRunning? (b : Bench) : Option Bool := b.forwarder.map (·.stage != .done)

end Bench

end TcpGateway
