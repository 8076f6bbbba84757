/-!
# Faults of inbound packets

Each fault means that one packet is dropped; none ends a connection.
-/

namespace TcpGateway

/-- Which of the two checksums of a packet failed. -/
inductive Checked where
  | ipv4
  | tcp
  | other (name : String)
deriving DecidableEq, Repr

def Checked.text : Checked → String
  | .ipv4 => "IPv4"
  | .tcp => "TCP"
  | .other name => name

/-- Why bytes were refused as a packet or as the byte form of a flow. -/
inductive PacketError where
  /-- Not a complete, unfragmented IPv4 packet. -/
  | badIpv4 (reason : String)
  /-- An IPv4 packet of another protocol. -/
  | notTcp (protocol : UInt8)
  /-- The TCP header is cut short or contradicts itself. -/
  | badTcp (reason : String)
  | badChecksum (part : Checked)
  /-- The byte form of a flow has the wrong length. -/
  | badFlow (length : Nat)
deriving DecidableEq, Repr

namespace PacketError

def message : PacketError → String
  | badIpv4 reason => s!"bad IPv4 packet: {reason}"
  | notTcp protocol => s!"not a TCP packet: protocol {protocol}"
  | badTcp reason => s!"bad TCP segment: {reason}"
  | badChecksum part => s!"bad {part.text} checksum"
  | badFlow length => s!"bad identity: expected 12 bytes, got {length}"

/-- Whether the packet was of another protocol, as opposed to a corrupt TCP packet. -/
def isUnsupported : PacketError → Bool
  | notTcp _ => true
  | _ => false

/-- The reason given for length fields that contradict the bytes at hand. -/
def badLengths : String := "wire::Error"

end PacketError

end TcpGateway
