import TcpGateway.Bytes

/-!
# Flows

A flow names one direction of a TCP connection by its two endpoints.  The connection a client
opens is known by the flow of the client's packets, so the source is the client and the
destination is the host it wants to reach; replies travel on the reverse flow.  A flow has a
twelve-byte form: source address and port, then destination address and port.
-/

namespace TcpGateway

/-- An IPv4 address, written `a.b.c.d`. -/
structure Ipv4 where
  a : UInt8
  b : UInt8
  c : UInt8
  d : UInt8
deriving DecidableEq, Repr, Inhabited

namespace Ipv4

def toBytes (x : Ipv4) : Bytes := [x.a, x.b, x.c, x.d]

/-- The address in the four bytes at offset `i`. -/
def readAt (data : Bytes) (i : Nat) : Ipv4 :=
  ⟨data.byteAt i, data.byteAt (i + 1), data.byteAt (i + 2), data.byteAt (i + 3)⟩

def text (x : Ipv4) : String := s!"{x.a}.{x.b}.{x.c}.{x.d}"

end Ipv4

/-- An address and a port. -/
structure Endpoint where
  address : Ipv4
  port : UInt16
deriving DecidableEq, Repr, Inhabited

namespace Endpoint

def toBytes (e : Endpoint) : Bytes := e.address.toBytes ++ Bytes.ofU16 e.port

def readAt (data : Bytes) (i : Nat) : Endpoint := ⟨Ipv4.readAt data i, data.u16At (i + 4)⟩

def text (e : Endpoint) : String := s!"{e.address.text}:{e.port}"

/-- The byte form read as a number: endpoints are listed by address, then by port. -/
def key (e : Endpoint) : Nat := e.toBytes.foldl (fun n b => n * 256 + b.toNat) 0

end Endpoint

/-- The endpoints of one direction of a connection. -/
structure Flow where
  source : Endpoint
  destination : Endpoint
deriving DecidableEq, Repr, Inhabited

namespace Flow

/-- The direction in which replies travel. -/
def reverse (f : Flow) : Flow := ⟨f.destination, f.source⟩

/-- The length of a flow's byte form. -/
def encodedLength : Nat := 12

def toBytes (f : Flow) : Bytes := f.source.toBytes ++ f.destination.toBytes

/-- Reads the byte form back; nothing but twelve bytes is one. -/
def ofBytes? (data : Bytes) : Option Flow :=
  if data.length = encodedLength then some ⟨Endpoint.readAt data 0, Endpoint.readAt data 6⟩
  else none

def text (f : Flow) : String := s!"{f.source.text} -> {f.destination.text}"

/-- Whether `f` is listed before `g` or equals it: by source, then by destination. -/
def isListedBefore (f g : Flow) : Bool :=
  f.source.key < g.source.key ||
    (f.source.key = g.source.key && f.destination.key ≤ g.destination.key)

@[simp] theorem reverse_reverse (f : Flow) : f.reverse.reverse = f := rfl

/-- The byte form determines the flow. -/
theorem ofBytes?_toBytes (f : Flow) : ofBytes? f.toBytes = some f := by
  obtain ⟨⟨⟨a, b, c, d⟩, p⟩, ⟨⟨a', b', c', d'⟩, p'⟩⟩ := f
  have hp := Bytes.toU16_ofU16 p
  have hp' := Bytes.toU16_ofU16 p'
  simp [ofBytes?, encodedLength, toBytes, Endpoint.toBytes, Ipv4.toBytes, Endpoint.readAt,
    Ipv4.readAt, Bytes.ofU16, Bytes.byteAt, Bytes.u16At, hp, hp']

end Flow

end TcpGateway
