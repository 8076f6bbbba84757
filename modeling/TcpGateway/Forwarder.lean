import TcpGateway.Mailbox
import TcpGateway.Relay.Frame
import TcpGateway.Relay.Link

/-!
# Forwarding between a connection and its relay

A forwarder carries the bytes of one connection: it takes them from the uplink, sends them to
the relay in exchanges, and puts the relay's answers into the downlink, each announced to the
connection by an event.  With no bytes to send it asks the relay by bare reads, pausing for the
poll interval after an empty answer.  Once the uplink is closed and empty the client has
finished; the forwarder goes on reading until the relay has been silent for the drain timeout,
then sends the close request.  The last event tells how it ended.

The forwarder is a machine.  `step` is its next step in the surroundings it finds, if it can
take one; what the surroundings do in between is up to them.
-/

namespace TcpGateway

/-- Settings of a forwarder, times in microseconds. -/
structure ForwarderOptions where
  /-- The pause after an empty answer. -/
  pollInterval : Nat
  /-- The largest frame accepted. -/
  maxFrameLength : Nat
  /-- The most bytes sent in one exchange. -/
  maxChunk : Nat
  /-- The silence tolerated after the client has finished. -/
  drainTimeout : Nat
deriving DecidableEq, Repr, Inhabited

/-- What a forwarder shares with others. -/
structure Surroundings where
  uplink : Buffer
  downlink : Buffer
  mailbox : Mailbox
  link : Link

namespace Forwarder

inductive Stage where
  /-- Waiting for bytes to send, or for the time of the next read. -/
  | choosing (wake : Nat)
  /-- A request was sent; its answer has not been read completely. -/
  | awaiting
  /-- The rest of an answer waits for room in the downlink. -/
  | storing (rest : Bytes)
  /-- An answer was stored and has to be announced. -/
  | announcing
  /-- Only the last event has still to be delivered. -/
  | ending (last : Event)
  | done
deriving DecidableEq, Repr

end Forwarder

structure Forwarder where
  stage : Forwarder.Stage
  /-- The pause before the next read. -/
  delay : Nat := 0
  /-- Since when the relay has been silent, once the client has finished. -/
  quietSince : Option Nat := none
deriving DecidableEq, Repr

namespace Forwarder

/-- A forwarder that starts at time `now`. -/
def start (now : Nat) : Forwarder := { stage := .choosing now }

/-- The event that reports how a forwarder ended. -/
def lastEvent : Except RelayError Unit → Event
  | .ok () => .relayClosed
  | .error e => if e.isDisconnect then .relayClosed else .relayFailed e.message

/-- Ends with the given result. -/
def finish (f : Forwarder) (result : Except RelayError Unit) : Forwarder :=
  { f with stage := .ending (lastEvent result) }

/-- Looks for the next request to send, at time `now`. -/
def choose (f : Forwarder) (now : Nat) : Forwarder := { f with stage := .choosing (now + f.delay) }

/-- Sends a request and goes on to `next`. -/
def send (f : Forwarder) (s : Surroundings) (r : Request) (next : Forwarder) :
    Forwarder × Surroundings :=
  match r.encode with
  | .error e => (f.finish (.error e), s)
  | .ok data =>
    match s.link.write data with
    | (link, .ok ()) => (next, { s with link })
    | (link, .error fault) => (f.finish (.error (.io fault)), { s with link })

/-- Handles an empty answer: closes if the relay has been silent for long enough. -/
def onSilence (o : ForwarderOptions) (now : Nat) (f : Forwarder) (s : Surroundings) :
    Forwarder × Surroundings :=
  if f.quietSince.any fun since => o.drainTimeout ≤ now - since then
    f.send s .close (f.finish (.ok ()))
  else ({ f with delay := o.pollInterval }.choose now, s)

/-- Handles an answer. -/
def onAnswer (o : ForwarderOptions) (now : Nat) (f : Forwarder) (s : Surroundings)
    (answer : Bytes) : Forwarder × Surroundings :=
  if answer.isEmpty then f.onSilence o now s
  else
    ({ stage := .storing answer, delay := 0, quietSince := f.quietSince.map fun _ => now }, s)

/-- Decides on the next request.  Bytes from the client come before a read that is due. -/
def onChoosing (o : ForwarderOptions) (now wake : Nat) (f : Forwarder) (s : Surroundings) :
    Option (Forwarder × Surroundings) :=
  let read : Option (Forwarder × Surroundings) :=
    if wake ≤ now then some (f.send s .read { f with stage := .awaiting }) else none
  match f.quietSince with
  | some _ => read
  | none =>
    match s.uplink.read (.upTo o.maxChunk) with
    | .ok (some (data, uplink)) =>
      some (f.send { s with uplink } (.exchange data) { f with stage := .awaiting })
    | .ok none => read
    -- the client has finished
    | .error _ => some ({ f with quietSince := some now }.choose now, s)

/-- The next step at time `now`, if the surroundings allow one. -/
def step (o : ForwarderOptions) (now : Nat) (f : Forwarder) (s : Surroundings) :
    Option (Forwarder × Surroundings) :=
  match f.stage with
  | .choosing wake => f.onChoosing o now wake s
  | .awaiting =>
    match Frame.read o.maxFrameLength s.link.incoming with
    | .whole answer rest => some (f.onAnswer o now { s with link.incoming := rest } answer)
    | .bad fault rest => some (f.finish (.error fault), { s with link.incoming := rest })
    | .cut => s.link.readFault.map fun fault => (f.finish (.error (.io fault)), s)
  | .storing rest =>
    if rest.isEmpty then some ({ f with stage := .announcing }, s)
    else
      match s.downlink.writeSome rest with
      | .error _ => some (f.finish (.error .closed), s)
      | .ok (downlink, left) =>
        if left.length < rest.length then
          some ({ f with stage := .storing left }, { s with downlink })
        else none
  | .announcing =>
    match s.mailbox.offer .relayData with
    | .delivered mailbox => some (f.choose now, { s with mailbox })
    | .full => none
    | .closed => some (f.finish (.ok ()), s)
  | .ending last =>
    match s.mailbox.offer last with
    | .delivered mailbox =>
      some ({ f with stage := .done }, { s with mailbox, link := s.link.hangUp })
    | .full => none
    | .closed => some ({ f with stage := .done }, { s with link := s.link.hangUp })
  | .done => none

/-- The time at which a forwarder that cannot step now may be able to by itself. -/
def wakeTime (f : Forwarder) : Option Nat :=
  match f.stage with
  | .choosing wake => some wake
  | _ => none

end Forwarder

end TcpGateway
