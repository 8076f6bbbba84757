import TcpGateway.Segment
import TcpGateway.Packet.Checksum
import TcpGateway.Packet.Error

/-!
# Reading IPv4 packets

The checks a packet passes before its segment is believed, in this order: IPv4 at all, length
fields, header checksum, not a fragment, TCP, TCP header length, TCP checksum.  Of two faults
the earlier check's is reported.
-/

namespace TcpGateway

namespace Segment

/-- The IPv4 part of a packet: its addresses, its protocol and the bytes it carries. -/
structure Datagram where
  source : Ipv4
  destination : Ipv4
  protocol : UInt8
  content : Bytes
deriving DecidableEq, Repr

/-- Checks the IPv4 header and takes the carried bytes from behind it. -/
def datagram (packet : Bytes) : Except PacketError Datagram :=
  if (packet.head?.map fun first => first.toNat / 16) ≠ some 4 then
    .error (.badIpv4 "not IPv4")
  else
    let headerLength := (packet.byteAt 0).toNat % 16 * 4
    let totalLength := (packet.u16At 2).toNat
    if packet.length < 20 ∨ packet.length < headerLength ∨ totalLength < headerLength ∨
        packet.length < totalLength then
      .error (.badIpv4 PacketError.badLengths)
    else if !Checksum.verifies 0 (packet.take headerLength) then
      .error (.badChecksum .ipv4)
    -- the bit for more fragments and the offset of this one
    else if (packet.u16At 6).toNat % 16384 ≠ 0 then
      .error (.badIpv4 "fragmented packet")
    else
      .ok ⟨Ipv4.readAt packet 12, Ipv4.readAt packet 16, packet.byteAt 9,
        (packet.take totalLength).drop headerLength⟩

/-- The segment in a packet, with the flags that are known. -/
def decode (packet : Bytes) : Except PacketError Segment :=
  match datagram packet with
  | .error fault => .error fault
  | .ok d =>
    if d.protocol ≠ Checksum.tcpProtocol then .error (.notTcp d.protocol)
    else
      let data := d.content
      let headerLength := (data.byteAt 12).toNat / 16 * 4
      let flow : Flow := ⟨⟨d.source, data.u16At 0⟩, ⟨d.destination, data.u16At 2⟩⟩
      if data.length < 20 ∨ data.length < headerLength ∨ headerLength < 20 then
        .error (.badTcp PacketError.badLengths)
      else if !Checksum.verifies (Checksum.pseudoHeader flow data.length) data then
        .error (.badChecksum .tcp)
      else
        .ok {
          flow
          seq := ⟨data.u32At 4⟩
          ack := ⟨data.u32At 8⟩
          flags := Flags.known ⟨data.byteAt 13⟩
          window := data.u16At 14
          payload := data.drop headerLength }

end Segment

end TcpGateway
