import TcpGateway.Flow

/-!
# Internet addresses as text

IPv4 and IPv6 addresses, read from and written to their usual text.  A reader of text works on
characters and answers what it has read together with the rest; text is an address only if
nothing is left.

An IPv4 address is four numbers up to 255, without leading zeros.  An IPv6 address is eight
groups of up to four hexadecimal digits, of which `::` replaces a run of zeros and an IPv4
address the last two.  It is written in lower case with the longest run of two or more zero
groups, the first of several, replaced.
-/

namespace TcpGateway

/-- An IPv6 address as eight 16-bit groups. -/
structure Ipv6 where
  groups : List UInt16
  length_eq : groups.length = 8
deriving DecidableEq

/-- An address of either kind. -/
inductive IpAddress where
  | v4 (a : Ipv4)
  | v6 (a : Ipv6)
deriving DecidableEq

/-- An address of either kind and a port. -/
structure SocketAddress where
  address : IpAddress
  port : UInt16
deriving DecidableEq

namespace AddressText

/-! ## Reading -/

/-- The value of a digit in bases up to sixteen. -/
def digit? (base : Nat) (c : Char) : Option Nat :=
  let value :=
    if '0' ≤ c ∧ c ≤ '9' then some (c.toNat - 48)
    else if 'a' ≤ c ∧ c ≤ 'f' then some (c.toNat - 87)
    else if 'A' ≤ c ∧ c ≤ 'F' then some (c.toNat - 55)
    else none
  value.filter (· < base)

def digitsValue (base : Nat) (digits : List Char) : Nat :=
  digits.foldl (fun value c => value * base + (digit? base c).getD 0) 0

/-- Takes all digits at the front; there has to be one and at most `maxDigits`, and the value is
at most `limit`. -/
def number? (base maxDigits limit : Nat) (cs : List Char) : Option (Nat × List Char) :=
  let digits := cs.takeWhile fun c => (digit? base c).isSome
  let value := digitsValue base digits
  if digits.isEmpty ∨ maxDigits < digits.length ∨ limit < value then none
  else some (value, cs.drop digits.length)

/-- A number up to 255 without leading zeros. -/
def octet? (cs : List Char) : Option (UInt8 × List Char) :=
  match number? 10 3 255 cs with
  | none => none
  | some (value, rest) =>
    if cs.head? = some '0' ∧ rest.length + 1 < cs.length then none
    else some (UInt8.ofNat value, rest)

/-- The character `c`. -/
def char? (c : Char) : List Char → Option (List Char)
  | [] => none
  | x :: rest => if x = c then some rest else none

def ipv4? (cs : List Char) : Option (Ipv4 × List Char) := do
  let (a, cs) ← octet? cs
  let (b, cs) ← (char? '.' cs).bind octet?
  let (c, cs) ← (char? '.' cs).bind octet?
  let (d, cs) ← (char? '.' cs).bind octet?
  pure (⟨a, b, c, d⟩, cs)

/-- A group of up to four hexadecimal digits. -/
def group? (cs : List Char) : Option (UInt16 × List Char) :=
  (number? 16 4 65535 cs).map fun (value, rest) => (UInt16.ofNat value, rest)

/-- Groups read in a row. -/
structure Groups where
  groups : List UInt16
  /-- Whether an IPv4 address was read, which ends the row. -/
  endsInIpv4 : Bool
  rest : List Char

/-- Reads up to `limit` groups separated by colons, as many as there are; `inner` says that a
colon comes first.  An IPv4 address stands for two groups, if two are still allowed. -/
def groups (limit : Nat) (inner : Bool) (cs : List Char) : Groups :=
  match limit with
  | 0 => ⟨[], false, cs⟩
  | limit + 1 =>
    let item := if inner then char? ':' cs else some cs
    match if limit = 0 then none else item.bind ipv4? with
    | some (a, rest) => ⟨[Bytes.toU16 a.a a.b, Bytes.toU16 a.c a.d], true, rest⟩
    | none =>
      match item.bind group? with
      | none => ⟨[], false, cs⟩
      | some (g, rest) =>
        let more := groups limit true rest
        { more with groups := g :: more.groups }

/-- The address of eight groups. -/
def ofGroups (gs : List UInt16) : Option Ipv6 :=
  if h : gs.length = 8 then some ⟨gs, h⟩ else none

def ipv6? (cs : List Char) : Option (Ipv6 × List Char) := do
  let front := groups 8 false cs
  if front.groups.length = 8 then
    pure (← ofGroups front.groups, front.rest)
  else if front.endsInIpv4 then none
  else
    let rest ← (char? ':' front.rest).bind (char? ':')
    -- `::` stands for one group at least
    let back := groups (7 - front.groups.length) false rest
    let zeros := List.replicate (8 - front.groups.length - back.groups.length) 0
    pure (← ofGroups (front.groups ++ zeros ++ back.groups), back.rest)

/-- Accepts what a reader reads if it reads the whole text. -/
def whole {α : Type} (read : List Char → Option (α × List Char)) (cs : List Char) : Option α :=
  match read cs with
  | some (a, []) => some a
  | _ => none

/-! ## Writing -/

def hexGroup (g : UInt16) : String := String.ofList (Nat.toDigits 16 g.toNat)

/-- The longest run of zeros, the first of several, as its start and its length. -/
def longestZeros (gs : List UInt16) : Nat × Nat :=
  let (best, _) := gs.zipIdx.foldl
    (fun ((best, current) : (Nat × Nat) × (Nat × Nat)) (g, i) =>
      if g = 0 then
        let current := if current.2 = 0 then (i, 1) else (current.1, current.2 + 1)
        (if best.2 < current.2 then current else best, current)
      else (best, (0, 0)))
    ((0, 0), (0, 0))
  best

def joinGroups (gs : List UInt16) : String := ":".intercalate (gs.map hexGroup)

end AddressText

namespace Ipv6

/-- The IPv4 address that a mapped address `::ffff:a.b.c.d` stands for. -/
def mapped? (x : Ipv6) : Option Ipv4 :=
  match x.groups with
  | [0, 0, 0, 0, 0, 65535, high, low] => some (Ipv4.readAt (Bytes.ofU16 high ++ Bytes.ofU16 low) 0)
  | _ => none

def text (x : Ipv6) : String :=
  match x.mapped? with
  | some a => s!"::ffff:{a.text}"
  | none =>
    let (start, length) := AddressText.longestZeros x.groups
    if 1 < length then
      AddressText.joinGroups (x.groups.take start) ++ "::" ++
        AddressText.joinGroups (x.groups.drop (start + length))
    else AddressText.joinGroups x.groups

end Ipv6

namespace IpAddress

/-- The address a text denotes: IPv4 if it can be, and IPv6 otherwise. -/
def ofText? (s : String) : Option IpAddress :=
  match AddressText.whole AddressText.ipv4? s.toList with
  | some a => some (.v4 a)
  | none => (AddressText.whole AddressText.ipv6? s.toList).map .v6

end IpAddress

namespace SocketAddress

/-- An IPv6 address is bracketed, to keep its colons apart from the port's. -/
def text (s : SocketAddress) : String :=
  match s.address with
  | .v4 a => s!"{a.text}:{s.port}"
  | .v6 a => s!"[{a.text}]:{s.port}"

end SocketAddress

end TcpGateway
