import TcpGateway.Relay.Frame
import TcpGateway.Relay.Link

/-!
# Scripted relays

A relay that reads requests from a link and answers those that expect an answer, first by a
script and then in its own manner.  It leaves after the close request, at the end of the stream,
and on a request it cannot read.
-/

namespace TcpGateway

/-- How a relay answers without a script. -/
inductive Relay.Manner where
  /-- Always with nothing. -/
  | silent
  /-- With all the bytes it was given and has not yet sent back. -/
  | echo
  /-- Like `echo`, but with nothing to a request that itself carries bytes. -/
  | delayed
deriving DecidableEq, Repr

/-- An answer of a script. -/
inductive Relay.Answer where
  | payload (data : Bytes)
  | late (wait : Nat) (data : Bytes)
  /-- Bytes that need not be a frame. -/
  | raw (data : Bytes)
  | hangUp
deriving DecidableEq, Repr

inductive Relay.Stage where
  | reading
  /-- An answer is held back until a time. -/
  | holding (time : Nat) (data : Bytes)
  | gone
deriving DecidableEq, Repr

structure Relay where
  manner : Relay.Manner := .silent
  /-- The answers still to be given. -/
  script : List Relay.Answer := []
  /-- The bytes it was given and has not sent back. -/
  kept : Bytes := []
  stage : Relay.Stage := .reading
  /-- The requests read since the last look, newest first. -/
  requests : List Request := []
deriving DecidableEq, Repr

namespace Relay

/-- The relay leaves its end of the link. -/
def leave (r : Relay) (l : Link) : Relay × Link := ({ r with stage := .gone }, l.abandon)

/-- Sends bytes; if the gateway has hung up the relay leaves. -/
def emit (r : Relay) (l : Link) (data : Bytes) : Relay × Link :=
  if l.hungUp then r.leave l
  else ({ r with stage := .reading }, { l with incoming := l.incoming ++ data })

/-- Sends a frame. -/
def sendFrame (r : Relay) (l : Link) (payload : Bytes) : Relay × Link :=
  match Frame.encode payload with
  | .ok data => r.emit l data
  | .error _ => r.leave l

/-- Sends back everything kept. -/
def sendKept (r : Relay) (l : Link) : Relay × Link := { r with kept := [] }.sendFrame l r.kept

/-- Answers a request at time `now`. -/
def answer (now : Nat) (request : Request) (r : Relay) (l : Link) : Relay × Link :=
  match r.script with
  | a :: script =>
    let r := { r with script }
    match a with
    | .payload data => r.sendFrame l data
    | .late wait data => ({ r with stage := .holding (now + wait) data }, l)
    | .raw data => r.emit l data
    | .hangUp => r.leave l
  | [] =>
    match r.manner with
    | .silent => r.sendFrame l []
    | .echo => r.sendKept l
    | .delayed => if request.payload?.isSome then r.sendFrame l [] else r.sendKept l

/-- Takes note of a request and answers it if it expects that. -/
def receive (now : Nat) (request : Request) (r : Relay) (l : Link) : Relay × Link :=
  let r := { r with
    requests := request :: r.requests
    kept := r.kept ++ request.payload?.getD [] }
  if request = .close then r.leave l
  else if request.expectsAnswer then r.answer now request l
  else (r, l)

/-- The next step at time `now`, if one is possible. -/
def step (now : Nat) (r : Relay) (l : Link) : Option (Relay × Link) :=
  match r.stage with
  | .gone => none
  | .holding time data => if time ≤ now then some (r.sendFrame l data) else none
  | .reading =>
    match Request.read? Frame.maxLength l.outgoing with
    | .whole request rest => some (r.receive now request { l with outgoing := rest })
    | .cut => if l.hungUp then some (r.leave l) else none
    | .bad _ rest => some (r.leave { l with outgoing := rest })

/-- The time a relay waits for. -/
def alarm? (r : Relay) : Option Nat :=
  match r.stage with
  | .holding time _ => some time
  | _ => none

/-- The bytes a script may still send. -/
def scripted (r : Relay) : Nat :=
  let answer : Answer → Nat
    | .payload data | .late _ data | .raw data => data.length + 1
    | .hangUp => 1
  r.script.foldl (· + answer ·) 0

end Relay

end TcpGateway
