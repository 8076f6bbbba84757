import TcpGateway.Bytes
import TcpGateway.Stream.Error

/-!
# Byte buffers

A first-in first-out buffer of bytes between one writer and one reader, bounded or not.  Once
closed it accepts nothing more, and what it holds stays readable.  No operation waits here: one
that has to wait for the other side says so by `none`, and `Buffer.Waiting` suspends it.
-/

namespace TcpGateway

structure Buffer where
  /-- The most bytes held at a time; `none` means no bound. -/
  capacity : Option Nat
  bytes : Bytes := []
  closed : Bool := false
deriving DecidableEq, Repr, Inhabited

namespace Buffer

def bounded (capacity : Nat) : Buffer := { capacity := some capacity }

def unbounded : Buffer := { capacity := none }

/-- The largest byte count, standing for "no limit". -/
def maxCount : Nat := 18446744073709551615

def length (b : Buffer) : Nat := b.bytes.length

def isEmpty (b : Buffer) : Bool := b.bytes.isEmpty

/-- The room left. -/
def available (b : Buffer) : Nat :=
  match b.capacity with
  | none => maxCount
  | some capacity => capacity - b.length

/-- Whether `n` more bytes fit. -/
def fits (b : Buffer) (n : Nat) : Bool :=
  match b.capacity with
  | none => true
  | some _ => n ≤ b.available

/-- Appends all of `data` or nothing. -/
def write (b : Buffer) (data : Bytes) : Except StreamError Buffer :=
  if b.closed then .error .closed
  else if b.fits data.length then .ok { b with bytes := b.bytes ++ data }
  else .error (.full data.length b.available)

/-- Appends as much of `data` as there is room for; answers the rest. -/
def writeSome (b : Buffer) (data : Bytes) : Except StreamError (Buffer × Bytes) :=
  if b.closed then .error .closed
  else if b.fits data.length then .ok ({ b with bytes := b.bytes ++ data }, [])
  else
    .ok ({ b with bytes := b.bytes ++ data.take b.available }, data.drop b.available)

/-- What a read wants from the buffer. -/
inductive Want where
  /-- As many bytes as there are, but not more than `limit`. -/
  | upTo (limit : Nat)
  | exactly (count : Nat)
deriving DecidableEq, Repr

/-- The number of bytes that serves the read, or `none` while it has to wait. -/
def Want.served (w : Want) (length : Nat) : Option Nat :=
  match w with
  | .upTo limit => if 0 < length then some (min length limit) else none
  | .exactly count => if count ≤ length then some count else none

/-- Removes what the read wants: `none` if it has to wait, an error if it would wait for ever. -/
def take (b : Buffer) (w : Want) : Except StreamError (Option (Bytes × Buffer)) :=
  match w.served b.length with
  | some count => .ok (some (b.bytes.take count, { b with bytes := b.bytes.drop count }))
  | none => if b.closed then .error .closed else .ok none

/-- The answer of a read that looks at no byte: nothing is wanted, or more than can ever be
there. -/
def Want.trivial? (w : Want) (capacity : Option Nat) : Option (Except StreamError Bytes) :=
  match w with
  | .upTo limit => if limit = 0 then some (.ok []) else none
  | .exactly count =>
    match capacity with
    | some bound =>
      if bound < count then some (.error (.exceedsCapacity count bound))
      else if count = 0 then some (.ok []) else none
    | none => if count = 0 then some (.ok []) else none

/-- A read as a whole: answered without looking at the buffer if it can be. -/
def read (b : Buffer) (w : Want) : Except StreamError (Option (Bytes × Buffer)) :=
  match w.trivial? b.capacity with
  | some (.ok data) => .ok (some (data, b))
  | some (.error e) => .error e
  | none => b.take w

/-- A copy of `count` bytes from `offset` on. -/
def peek (b : Buffer) (offset count : Nat) : Except StreamError Bytes :=
  let stop := min (offset + count) maxCount
  if b.length < stop then .error (.notEnough stop b.length)
  else .ok ((b.bytes.drop offset).take (stop - offset))

/-- Drops the first `count` bytes. -/
def discard (b : Buffer) (count : Nat) : Except StreamError Buffer :=
  if b.length < count then .error (.notEnough count b.length)
  else .ok { b with bytes := b.bytes.drop count }

def close (b : Buffer) : Buffer := { b with closed := true }

end Buffer

end TcpGateway
