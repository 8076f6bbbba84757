import TcpGateway.Gateway

/-!
# Runs of a gateway

The calls that take packets, the sessions and their forwarders go on side by side, each up to the
next place where it may have to wait.  A run is any sequence of such moves, so that everything can
come in between where one of them waits: other packets while a reply waits for the tunnel, the end
of a session while it sends.  Relays appear only in what a forwarder finds on its link.

What the theorems on whole runs speak about is read off the turns of a run: the sessions that were
there only before or only after a turn, the segments that came in, and those that a session handed
to its connection.
-/

namespace TcpGateway

/-- The client's segment that an event brings. -/
def Event.segment? : Event → Option Segment
  | .segment s => some s
  | _ => none

/-- The segments that wait, oldest first. -/
def Mailbox.segments (m : Mailbox) : List Segment := m.events.filterMap Event.segment?

/-- A gateway at work, and the calls that wait for the tunnel. -/
structure Service where
  gateway : Gateway
  waiting : List Call := []

namespace Service

/-- One thing that happens in a run. -/
inductive Move where
  /-- A call takes a packet, and goes on until it has to wait or ends. -/
  | call (packet : Bytes) (now : Nat)
  /-- The call at `place` among those that wait need wait no longer. -/
  | complete (place : Nat)
  | begin (id now : Nat)
  | wake (id : Nat) (cause : Session.Cause) (now wall : Nat)
  | carryOn (id : Nat)
  /-- The forwarder of a session takes a step on `link`, as the relay has left it. -/
  | forward (id : Nat) (link : Link) (now : Nat)
  /-- A session ends where it stands, for whatever reason. -/
  | drop (id : Nat)
  | shutdown
  | closeTunnel

/-- The session `id`, if it was not told to end. -/
def running? (w : Service) (id : Nat) : Option Session :=
  (w.gateway.session? id).filter (!·.aborted)

/-- The service with another gateway, if there is one. -/
def withGateway (w : Service) (gateway? : Option Gateway) : Service :=
  { w with gateway := gateway?.getD w.gateway }

/-- The service after a move; one that is not possible changes nothing. -/
def act (w : Service) (m : Move) : Service :=
  let g := w.gateway
  match m with
  | .call packet now =>
    let (gateway, c) := g.call packet now
    { gateway, waiting := if c.reply.isSome then w.waiting ++ [c] else w.waiting }
  | .complete place =>
    match w.waiting[place]? with
    | none => w
    | some c => { gateway := (g.complete c).1, waiting := w.waiting.eraseIdx place }
  | .begin id now => w.withGateway ((w.running? id).bind (g.beginSession now))
  | .wake id cause now wall =>
    w.withGateway ((w.running? id).bind (g.wakeSession now wall · cause))
  | .carryOn id => w.withGateway ((w.running? id).map g.carryOn)
  | .forward id link now =>
    w.withGateway ((g.session? id).bind fun s => (g.forward now s link).map (·.1))
  | .drop id => { w with gateway := g.endSession id }
  | .shutdown => { w with gateway := g.shutdown }
  | .closeTunnel => { w with gateway.tunnel.isOpen := false }

/-- The service after a run. -/
def run (w : Service) (moves : List Move) : Service := moves.foldl act w

/-- The segments that wait for the session `id`. -/
def queued (w : Service) (id : Nat) : List Segment :=
  ((w.gateway.session? id).map (·.mailbox.segments)).getD []

/-- One move of a run, with the service before it. -/
structure Turn where
  before : Service
  move : Move

namespace Turn

variable (t : Turn)

def after : Service := t.before.act t.move

/-- The sessions that are there only afterwards. -/
def started : List Session :=
  t.after.gateway.sessions.filter fun s => (t.before.gateway.session? s.id).isNone

/-- The sessions that were there only before. -/
def ended : List Session :=
  t.before.gateway.sessions.filter fun s => (t.after.gateway.session? s.id).isNone

/-- The segment that came in, if it was one. -/
def arrived : Option Segment :=
  match t.move with
  | .call packet _ => (Segment.decode packet).toOption
  | _ => none

/-- The segment that came in while the connection of its flow was that of session `id`. -/
def arrivedFor (id : Nat) : Option Segment :=
  t.arrived.filter fun s => t.before.gateway.registry.find? s.flow = some id

/-- What the session `id` hands to its connection. -/
def handed (id : Nat) : Option Event :=
  match t.move with
  | .wake id' cause now _ =>
    if id' = id then
      ((t.before.running? id).bind (·.wake t.before.gateway.settings now cause)).map (·.2)
    else none
  | _ => none

/-- The calls that begin to wait. -/
def begun : List Call :=
  match t.move with
  | .call packet now => [(t.before.gateway.call packet now).2].filter (·.reply.isSome)
  | _ => []

/-- The calls that need wait no longer. -/
def completed : List Call :=
  match t.move with
  | .complete place => t.before.waiting[place]?.toList
  | _ => []

end Turn

/-- What happened in a run, oldest turn first. -/
abbrev History := List Turn

/-- The turns of a run. -/
def history (w : Service) : List Move → History
  | [] => []
  | m :: moves => ⟨w, m⟩ :: (w.act m).history moves

namespace History

variable (h : History)

def started : List Session := h.flatMap Turn.started

def ended : List Session := h.flatMap Turn.ended

/-- The segments that came in while the connection of their flow was that of session `id`. -/
def arrivedFor (id : Nat) : List Segment := h.filterMap (·.arrivedFor id)

/-- The segments that session `id` handed to its connection. -/
def handled (id : Nat) : List Segment := h.filterMap fun t => (t.handed id).bind Event.segment?

def begun : List Call := h.flatMap Turn.begun

def completed : List Call := h.flatMap Turn.completed

end History

end Service

end TcpGateway
