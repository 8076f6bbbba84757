import TcpGateway.Segment
import TcpGateway.Packet.Checksum

/-!
# Segments as IPv4 packets

The packet written for a segment: a 20-byte IPv4 header without options, a TCP header, which on
a SYN carries a maximum segment size, and the payload.  The IPv4 identification is the sender's
choice and is given by the caller.
-/

namespace TcpGateway

namespace Segment

/-- The time to live of outbound packets. -/
def timeToLive : UInt8 := 64

/-- The maximum segment size announced on a SYN. -/
def maxSegmentSize : UInt16 := 1400

def ipv4HeaderLength : Nat := 20

/-- The length of the TCP header: a SYN has a four-byte option behind the fixed part. -/
def tcpHeaderLength (flags : Flags) : Nat := if flags.has .syn then 24 else 20

/-- The IPv4 header with the given header checksum; packets are never to be fragmented. -/
def ipv4Header (f : Flow) (identification totalLength checksum : UInt16) : Bytes :=
  [0x45, 0x00] ++ Bytes.ofU16 totalLength ++ Bytes.ofU16 identification ++
    [0x40, 0x00, timeToLive, Checksum.tcpProtocol] ++ Bytes.ofU16 checksum ++
    f.source.address.toBytes ++ f.destination.address.toBytes

/-- The TCP header and payload with the given checksum. -/
def tcpBytes (s : Segment) (checksum : UInt16) : Bytes :=
  Bytes.ofU16 s.flow.source.port ++ Bytes.ofU16 s.flow.destination.port ++
    Bytes.ofU32 s.seq.val ++ Bytes.ofU32 s.ack.val ++
    [UInt8.ofNat (tcpHeaderLength s.flags / 4 * 16), s.flags.bits] ++
    Bytes.ofU16 s.window ++ Bytes.ofU16 checksum ++ [0, 0] ++
    (if s.flags.has .syn then [2, 4] ++ Bytes.ofU16 maxSegmentSize else []) ++ s.payload

/-- The checksum of an IPv4 header, whose checksum field stands at offset 10. -/
def ipv4Checksum (header : Bytes) : UInt16 := Checksum.stored (Checksum.sum 0 header 10)

/-- The checksum of a TCP segment, whose checksum field stands at offset 16. -/
def tcpChecksum (f : Flow) (data : Bytes) : UInt16 :=
  Checksum.stored
    (Checksum.sum (UInt32.ofNat (Checksum.pseudoHeader f data.length)) data 16)

/-- The packet that carries `s`.  The length field holds the low 16 bits of the length. -/
def encode (s : Segment) (identification : UInt16) : Bytes :=
  let blank := s.tcpBytes 0
  let total := UInt16.ofNat (ipv4HeaderLength + blank.length)
  let header := ipv4Header s.flow identification total
  header (ipv4Checksum (header 0)) ++ s.tcpBytes (tcpChecksum s.flow blank)

end Segment

end TcpGateway
