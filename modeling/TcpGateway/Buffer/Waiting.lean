import TcpGateway.Buffer

/-!
# Suspended reads and writes

A buffer shared by two parties that may have to wait for each other.  Each side has a `Signal`:
a wake-up reaches the call that waits there, and else is kept for the next wait as a single
permit.  A call that was woken tries again only when it is polled; one that is dropped before
that passes its wake-up on.  At most one read and one write are under way at a time.
-/

namespace TcpGateway

/-- Where a call stands with respect to a signal. -/
inductive Wait where
  | none
  | suspended
  | woken
deriving DecidableEq, Repr, Inhabited

/-- One side's wake-up: the state of the call that waits there and a stored permit. -/
structure Signal where
  wait : Wait := .none
  permit : Bool := false
deriving DecidableEq, Repr, Inhabited

namespace Signal

/-- Wakes the suspended call, or stores the permit if no call is suspended. -/
def notify (s : Signal) : Signal :=
  match s.wait with
  | .suspended => { s with wait := .woken }
  | _ => { s with permit := true }

/-- Ends the wait of a call that is given up; a wake-up it has not used is passed on. -/
def abandon (s : Signal) : Signal :=
  match s.wait with
  | .woken => { wait := .none, permit := true }
  | _ => { s with wait := .none }

end Signal

/-- A buffer with at most one read and one piecewise write under way. -/
structure WaitingBuffer where
  buffer : Buffer
  /-- Wakes the read. -/
  readable : Signal := {}
  /-- Wakes the write. -/
  writable : Signal := {}
  /-- What the read under way wants. -/
  reading : Option Buffer.Want := none
  /-- The bytes the write under way has still to put in. -/
  writing : Option Bytes := none
deriving DecidableEq, Repr, Inhabited

namespace WaitingBuffer

/-- The answer of a call, or of an attempt to get on with one. -/
inductive Answer (α : Type) where
  | done (value : Except StreamError α)
  | pending
  /-- No such call is under way. -/
  | idle
deriving Repr

def ofBuffer (b : Buffer) : WaitingBuffer := { buffer := b }

/-! ## Calls that never wait -/

/-- Appends all of `data` or nothing, and wakes the reader if a byte came in. -/
def write (w : WaitingBuffer) (data : Bytes) : WaitingBuffer × Except StreamError Unit :=
  match w.buffer.write data with
  | .error e => (w, .error e)
  | .ok b =>
    ({ w with buffer := b, readable := if data.isEmpty then w.readable else w.readable.notify },
      .ok ())

/-- Drops the first `count` bytes, and wakes the writer if a byte went out. -/
def discard (w : WaitingBuffer) (count : Nat) : WaitingBuffer × Except StreamError Unit :=
  match w.buffer.discard count with
  | .error e => (w, .error e)
  | .ok b =>
    ({ w with buffer := b, writable := if count = 0 then w.writable else w.writable.notify },
      .ok ())

/-- Closes the buffer and wakes both sides. -/
def close (w : WaitingBuffer) : WaitingBuffer :=
  { w with
    buffer := w.buffer.close
    readable := w.readable.notify
    writable := w.writable.notify }

/-! ## Reads -/

/-- Tries the read under way.  While it cannot be served it uses up a stored permit and tries
once more, and then suspends. -/
def tryRead (w : WaitingBuffer) (want : Buffer.Want) : WaitingBuffer × Answer Bytes :=
  match w.buffer.take want with
  | .error e => ({ w with reading := none }, .done (.error e))
  | .ok (some (data, b)) =>
    ({ w with buffer := b, reading := none, writable := w.writable.notify }, .done (.ok data))
  | .ok none =>
    ({ w with reading := some want, readable := { wait := .suspended, permit := false } },
      .pending)

/-- Gives the read under way up. -/
def dropRead (w : WaitingBuffer) : WaitingBuffer :=
  match w.reading with
  | none => w
  | some _ => { w with reading := none, readable := w.readable.abandon }

/-- Starts a read in place of the one under way, if any. -/
def read (w : WaitingBuffer) (want : Buffer.Want) : WaitingBuffer × Answer Bytes :=
  match want.trivial? w.buffer.capacity with
  | some answer => (w.dropRead, .done answer)
  | none => w.dropRead.tryRead want

/-- Lets the read under way try again, if it was woken. -/
def pollRead (w : WaitingBuffer) : WaitingBuffer × Answer Bytes :=
  match w.reading with
  | none => (w, .idle)
  | some want =>
    match w.readable.wait with
    | .woken => { w with readable := { w.readable with wait := .none } }.tryRead want
    | _ => (w, .pending)

/-! ## Piecewise writes -/

/-- Puts in what fits.  With bytes left it uses up a stored permit and, there still being no
room, suspends. -/
def tryWrite (w : WaitingBuffer) (data : Bytes) : WaitingBuffer × Answer Unit :=
  if data.isEmpty then ({ w with writing := none }, .done (.ok ()))
  else
    match w.buffer.writeSome data with
    | .error e => ({ w with writing := none }, .done (.error e))
    | .ok (b, rest) =>
      let readable := if rest.length < data.length then w.readable.notify else w.readable
      if rest.isEmpty then ({ w with buffer := b, writing := none, readable }, .done (.ok ()))
      else
        ({ w with
            buffer := b
            writing := some rest
            readable
            writable := { wait := .suspended, permit := false } },
          .pending)

/-- Gives the write under way up; the bytes it has put in stay. -/
def dropWrite (w : WaitingBuffer) : WaitingBuffer :=
  match w.writing with
  | none => w
  | some _ => { w with writing := none, writable := w.writable.abandon }

/-- Starts a write that goes in as room appears, in place of the one under way, if any. -/
def writeAll (w : WaitingBuffer) (data : Bytes) : WaitingBuffer × Answer Unit :=
  w.dropWrite.tryWrite data

/-- Lets the write under way try again, if it was woken. -/
def pollWrite (w : WaitingBuffer) : WaitingBuffer × Answer Unit :=
  match w.writing with
  | none => (w, .idle)
  | some data =>
    match w.writable.wait with
    | .woken => { w with writable := { w.writable with wait := .none } }.tryWrite data
    | _ => (w, .pending)

end WaitingBuffer

end TcpGateway
