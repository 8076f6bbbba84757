import TcpGateway.Gateway
import TcpGateway.Simulation.Clock
import TcpGateway.Simulation.Relay

/-!
# A gateway among scripted relays

A gateway with all its sessions, and a relay for every connect attempt, under simulated time.
The relays on offer are used in the order of the attempts; behind the last one there are silent
relays that are reached at once.

A part that is at work goes on until it has to wait.  Of the parts that can go on then,
forwarders come before sessions and sessions before relays.  A session takes the first possible
of these steps: to end, to begin, to learn how connecting went, to handle an event, to tick.
-/

namespace TcpGateway

/-- A relay that waits for a connect attempt. -/
structure Deployment.Offer where
  relay : Relay := {}
  /-- How long connecting takes. -/
  delay : Nat := 0
  /-- Whether connecting fails in the end. -/
  refuses : Bool := false
deriving DecidableEq, Repr

/-- A connect attempt, and the relay if it is reached. -/
structure Deployment.Contact where
  /-- The session that made the attempt. -/
  session : Nat
  /-- The place of the relay among those that were on offer. -/
  number : Option Nat
  relay : Relay
  link : Link := {}
  readyAt : Nat
  refuses : Bool
deriving DecidableEq, Repr

/-- What acts on its own, named by the session it belongs to. -/
inductive Deployment.Part where
  | forwarder (session : Nat)
  | session (session : Nat)
  | relay (session : Nat)
deriving DecidableEq, Repr

structure Deployment where
  gateway : Gateway
  now : Nat := 0
  /-- The wall clock, which stands still unless it is set. -/
  wall : Nat
  offers : List Deployment.Offer := []
  contacts : List Deployment.Contact := []
  /-- The flows of the connect attempts since the last look. -/
  asked : List Flow := []
  /-- The requests that relays have received since the last look, newest first. -/
  requests : List (Option Nat × Request) := []
  /-- Whether the gateway still serves its queue of packets, if it was given one. -/
  serving : Option Bool := none
  /-- The part at work. -/
  active : Option Deployment.Part := none

namespace Deployment

/-- How an attempt given up at `deadline` has gone: whether the relay was reached, or `none`
while that is open. -/
def Contact.result? (c : Contact) (now deadline : Nat) : Option Bool :=
  if c.readyAt ≤ now ∧ c.readyAt ≤ deadline then some !c.refuses
  else if deadline ≤ now then some false
  else none

def contact? (d : Deployment) (session : Nat) : Option Contact :=
  d.contacts.find? (·.session == session)

/-- Replaces the contact of the same session. -/
def putContact (d : Deployment) (c : Contact) : Deployment :=
  { d with contacts := d.contacts.map fun x => if x.session = c.session then c else x }

/-- The gateway leaves the link of a session. -/
def hangUp (d : Deployment) (session : Nat) : Deployment :=
  { d with
    contacts := d.contacts.map fun c =>
      if c.session = session then { c with link := c.link.hangUp } else c }

/-! ## Steps -/

/-- Takes back the gateway after a step of the session `id`; a session that is over or no longer
forwards leaves its link. -/
def afterStep (d : Deployment) (gateway : Gateway) (id : Nat) : Deployment :=
  let d := { d with gateway }
  match gateway.session? id with
  | none => d.hangUp id
  | some s => if s.connecting = .over ∧ s.forwarder.isNone then d.hangUp id else d

/-- A session begins, with the next relay on offer. -/
def beginSession (now : Nat) (d : Deployment) (s : Session) : Option Deployment :=
  (d.gateway.beginSession now s).map fun gateway =>
    let offer := d.offers.headD {}
    { d with
      gateway
      offers := d.offers.tail
      asked := d.asked ++ [s.flow]
      contacts := d.contacts ++ [{
        session := s.id
        number := if d.offers.isEmpty then none else some d.contacts.length
        relay := offer.relay
        readyAt := now + offer.delay
        refuses := offer.refuses }] }

def stepForwarder (now : Nat) (d : Deployment) (s : Session) : Option Deployment := do
  let c ← d.contact? s.id
  let (gateway, link) ← d.gateway.forward now s c.link
  some ({ d with gateway }.putContact { c with link })

/-- What a session can go on with, in the order in which it looks for it. -/
def causes (now : Nat) (d : Deployment) (s : Session) : List Session.Cause :=
  match s.connecting with
  | .until deadline =>
    match (d.contact? s.id).bind (·.result? now deadline) with
    | some reached => [if reached then .connected else .unreachable]
    | none => [.mail, .tick]
  | _ => [.mail, .tick]

def stepSession (now : Nat) (d : Deployment) (s : Session) : Option Deployment :=
  let g := d.gateway
  if s.aborted then some (d.afterStep (g.endSession s.id) s.id)
  else if s.duty.isSome then some (d.afterStep (g.carryOn s) s.id)
  else if s.connecting = .notBegun then d.beginSession now s
  else
    (d.causes now s).findSome? fun cause =>
      (g.wakeSession now d.wall s cause).map (d.afterStep · s.id)

def stepRelay (now : Nat) (d : Deployment) (c : Contact) : Option Deployment :=
  (c.relay.step now c.link).map fun (relay, link) =>
    { d.putContact { c with relay := { relay with requests := [] }, link } with
      requests := relay.requests.map (fun r => (c.number, r)) ++ d.requests }

/-- All parts, in the order in which they are asked to go on. -/
def parts (d : Deployment) : List Part :=
  let ids := d.gateway.sessions.map (·.id)
  d.active.toList ++ ids.map .forwarder ++ ids.map .session ++
    d.contacts.map fun c => .relay c.session

/-- A step of one part. -/
def stepPart (now : Nat) (d : Deployment) : Part → Option Deployment
  | .forwarder id => (d.gateway.session? id).bind (d.stepForwarder now)
  | .session id => (d.gateway.session? id).bind (d.stepSession now)
  | .relay id => (d.contact? id).bind (d.stepRelay now)

def step (now : Nat) (d : Deployment) : Option Deployment :=
  d.parts.findSome? fun p => (d.stepPart now p).map fun d => { d with active := some p }

def sessionAlarms (d : Deployment) (s : Session) : List Nat :=
  let connecting :=
    match s.connecting with
    | .until deadline => deadline :: ((d.contact? s.id).map (·.readyAt)).toList
    | _ => []
  s.nextTick :: connecting ++ (s.forwarder.bind (·.wakeTime)).toList

def alarms (d : Deployment) : List Nat :=
  d.gateway.sessions.flatMap d.sessionAlarms ++ d.contacts.filterMap (·.relay.alarm?)

/-- Every byte under way takes part in a handful of steps, and so does every event, every
session and every relay. -/
def work (d : Deployment) : Nat :=
  let event : Event → Nat
    | .segment s => s.payload.length + 1
    | _ => 1
  let session (s : Session) :=
    s.mailbox.events.foldl (· + event ·) 0 + s.connection.uplink.buffer.length
  let contact (c : Contact) :=
    c.link.outgoing.length + c.link.incoming.length + c.relay.kept.length + c.relay.scripted
  16 * (d.gateway.sessions.foldl (· + session ·) 0 + d.contacts.foldl (· + contact ·) 0 +
    d.offers.foldl (· + ·.relay.scripted) 0 + 16 * d.gateway.sessions.length +
    d.contacts.length + 16)

def timed : Timed Deployment := ⟨step, alarms, work⟩

/-- Lets everything happen that is due. -/
def settle (d : Deployment) : Deployment := timed.settle d.now d

/-! ## What comes from outside -/

/-- Lets time pass, in microseconds. -/
def advance (d : Deployment) (time : Nat) : Deployment :=
  { timed.advance d.now (d.now + time) d with now := d.now + time }

def setWall (d : Deployment) (wall : Nat) : Deployment := { d with wall }

/-- Hands packets to the gateway, one after the other, before any session goes on. -/
def receive (d : Deployment) (packets : List Bytes) :
    Deployment × List (Except GatewayError Unit) :=
  packets.foldl
    (fun (d, results) packet =>
      let (gateway, result) := d.gateway.receive packet d.now
      ({ d with gateway }, results ++ [result]))
    (d, [])

/-- Puts packets into the queue that the gateway serves.  Answers whether it takes them. -/
def enqueue (d : Deployment) (packets : List Bytes) : Deployment × Bool :=
  if d.serving = some true then
    let (gateway, goesOn) := d.gateway.serve d.now packets
    ({ d with gateway, serving := some goesOn }, true)
  else (d, false)

/-- The serving ends, by a signal or with the queue.  Answers whether there was any. -/
def stopServing (d : Deployment) : Deployment × Bool :=
  if d.serving = some true then
    ({ d with gateway := d.gateway.shutdown, serving := some false }, true)
  else (d, false)

def shutdown (d : Deployment) : Deployment := { d with gateway := d.gateway.shutdown }

/-- Nothing more can be sent to the clients. -/
def closeTunnel (d : Deployment) : Deployment := { d with gateway.tunnel.isOpen := false }

/-- Whether a relay is reported before another or is the same: in the order of the offers, and
relays that were not on offer last. -/
def isReportedBefore : Option Nat → Option Nat → Bool
  | some i, some j => i ≤ j
  | none, some _ => false
  | _, none => true

/-- What has happened since the last look. -/
structure Sighting where
  /-- The segments sent, grouped by client. -/
  sent : List Segment
  /-- The requests other than reads, grouped by relay. -/
  requests : List (Option Nat × Request)
  asked : List Flow

/-- Lets everything happen that is due, and reports what has happened. -/
def look (d : Deployment) : Deployment × Sighting :=
  let d := d.settle
  ({ d with gateway.tunnel.sent := [], requests := [], asked := [] },
    { sent := d.gateway.tunnel.sent.mergeSort fun a b =>
        a.flow.destination.key ≤ b.flow.destination.key
      requests := (d.requests.reverse.filter (·.2 ≠ .read)).mergeSort fun a b =>
        isReportedBefore a.1 b.1
      asked := d.asked })

end Deployment

end TcpGateway
