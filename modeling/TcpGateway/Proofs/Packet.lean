import TcpGateway.Proofs.Checksum
import TcpGateway.Segment.Decoding
import TcpGateway.Segment.Encoding

/-!
# What is written as a packet is read as the same segment

Both headers have their checksum behind a front of whole words, so that `Checksum.verifies_stored`
applies to each.  The fields are read at fixed offsets of a header whose bytes are known one by one;
only the payload, and the option of a SYN in front of it, are of variable length.
-/

namespace TcpGateway

namespace Segment

/-! ## The IPv4 header -/

section Ipv4Header

variable (f : Flow) (identification total checksum : UInt16)

/-- The IPv4 header in front of its checksum. -/
def ipv4Front : Bytes :=
  [0x45, 0x00] ++ Bytes.ofU16 total ++ Bytes.ofU16 identification ++
    [0x40, 0x00, timeToLive, Checksum.tcpProtocol]

theorem ipv4Header_eq :
    ipv4Header f identification total checksum =
      ipv4Front identification total ++ Bytes.ofU16 checksum ++
        (f.source.address.toBytes ++ f.destination.address.toBytes) := by
  simp only [ipv4Header, ipv4Front, List.append_assoc]

theorem length_ipv4Header : (ipv4Header f identification total checksum).length = 20 := rfl

theorem verifies_ipv4Header :
    Checksum.verifies 0 (ipv4Header f identification total
      (ipv4Checksum (ipv4Header f identification total 0))) := by
  have hfront : (ipv4Front identification total).length = 10 := rfl
  have hrest : (f.source.address.toBytes ++ f.destination.address.toBytes).length = 8 := rfl
  rw [ipv4Header_eq, ipv4Checksum, ipv4Header_eq, ← hfront]
  exact Checksum.verifies_stored (by omega) (by omega)

/-- A packet with its header in order is accepted, whatever it carries. -/
theorem datagram_ipv4Header {content : Bytes} (h : 20 + content.length ≤ 65535)
    (htotal : total = UInt16.ofNat (20 + content.length)) :
    datagram (ipv4Header f identification total
      (ipv4Checksum (ipv4Header f identification total 0)) ++ content) =
        .ok ⟨f.source.address, f.destination.address, Checksum.tcpProtocol, content⟩ := by
  have hverifies := verifies_ipv4Header f identification total
  generalize ipv4Checksum (ipv4Header f identification total 0) = checksum at hverifies
  have hlen := length_ipv4Header f identification total checksum
  have htotalLength : total.toNat = 20 + content.length := by
    rw [htotal, UInt16.toNat_ofNat']
    omega
  have hbound : (ipv4Header f identification total checksum ++ content).length =
      20 + content.length := by
    rw [List.length_append, hlen]
  have hfirst : Bytes.byteAt (ipv4Header f identification total checksum ++ content) 0 = 0x45 :=
    rfl
  have hheader : (0x45 : UInt8).toNat % 16 * 4 = 20 := by decide
  have hread : Bytes.u16At (ipv4Header f identification total checksum ++ content) 2 = total :=
    Bytes.toU16_ofU16 total
  have hfragment : Bytes.u16At (ipv4Header f identification total checksum ++ content) 6 =
      Bytes.toU16 0x40 0x00 := rfl
  have hwhole : (Bytes.toU16 0x40 0x00).toNat % 16384 = 0 := by decide
  unfold datagram
  rw [if_neg (by simp [ipv4Header, Bytes.ofU16])]
  simp only [hfirst, hheader, hread, htotalLength, hbound, hfragment, hwhole,
    List.take_left' hlen, hverifies]
  rw [if_neg (by omega), ← hbound, List.take_length, List.drop_left' hlen]
  rfl

end Ipv4Header

/-! ## The TCP header -/

section TcpHeader

variable (s : Segment) (checksum : UInt16)

/-- The TCP header in front of its checksum. -/
def tcpFront : Bytes :=
  Bytes.ofU16 s.flow.source.port ++ Bytes.ofU16 s.flow.destination.port ++
    Bytes.ofU32 s.seq.val ++ Bytes.ofU32 s.ack.val ++
    [UInt8.ofNat (tcpHeaderLength s.flags / 4 * 16), s.flags.bits] ++ Bytes.ofU16 s.window

/-- What follows the checksum: the urgent pointer, the option of a SYN and the payload. -/
def tcpRest : Bytes :=
  [0, 0] ++ (if s.flags.has .syn then [2, 4] ++ Bytes.ofU16 maxSegmentSize else []) ++ s.payload

theorem tcpBytes_eq : s.tcpBytes checksum = s.tcpFront ++ Bytes.ofU16 checksum ++ s.tcpRest := by
  simp only [tcpBytes, tcpFront, tcpRest, List.append_assoc]

theorem length_tcpFront : s.tcpFront.length = 16 := rfl

theorem length_tcpBytes :
    (s.tcpBytes checksum).length = tcpHeaderLength s.flags + s.payload.length := by
  rw [tcpBytes_eq, tcpRest, tcpHeaderLength]
  simp only [List.length_append, length_tcpFront, Bytes.ofU16]
  split <;> simp only [List.length_append, List.length_cons, List.length_nil] <;> omega

/-- The sum of the pseudo-header is far from 32 bits. -/
theorem pseudoHeader_le (f : Flow) (length : Nat) :
    Checksum.pseudoHeader f length ≤ 262146 + length := by
  have hsource := Checksum.wordSum_le f.source.address.toBytes
  have hdestination := Checksum.wordSum_le f.destination.address.toBytes
  have hfour : ∀ a : Ipv4, a.toBytes.length = 4 := fun _ => rfl
  have hprotocol : Checksum.tcpProtocol.toNat = 6 := rfl
  rw [hfour] at hsource hdestination
  rw [Checksum.pseudoHeader, hprotocol]
  omega

theorem verifies_tcpBytes (h : tcpHeaderLength s.flags + s.payload.length ≤ 65535) :
    Checksum.verifies (Checksum.pseudoHeader s.flow (tcpHeaderLength s.flags + s.payload.length))
      (s.tcpBytes (tcpChecksum s.flow (s.tcpBytes 0))) := by
  have hfront := s.length_tcpFront
  have hlen := s.length_tcpBytes 0
  have hpseudo := pseudoHeader_le s.flow (tcpHeaderLength s.flags + s.payload.length)
  have hsum : s.tcpFront.length + 2 + s.tcpRest.length = (s.tcpBytes 0).length := by
    rw [tcpBytes_eq, List.length_append, List.length_append]
    rfl
  rw [tcpChecksum, hlen, tcpBytes_eq, tcpBytes_eq, ← hfront]
  exact Checksum.verifies_stored (by omega) (by omega)

/-- The data offset is that of the payload. -/
theorem drop_tcpBytes : (s.tcpBytes checksum).drop (tcpHeaderLength s.flags) = s.payload := by
  rw [tcpBytes_eq, tcpRest, tcpHeaderLength]
  split <;> rfl

theorem dataOffset_tcpBytes :
    ((s.tcpBytes checksum).byteAt 12).toNat / 16 * 4 = tcpHeaderLength s.flags := by
  have hbyte : (s.tcpBytes checksum).byteAt 12 =
    UInt8.ofNat (tcpHeaderLength s.flags / 4 * 16) := rfl
  rw [hbyte, tcpHeaderLength]
  split <;> decide

end TcpHeader

/-! ## Whole packets -/

theorem length_encode (s : Segment) (identification : UInt16) :
    (s.encode identification).length = 20 + tcpHeaderLength s.flags + s.payload.length := by
  simp only [encode, List.length_append, length_ipv4Header, length_tcpBytes, Nat.add_assoc]

/-- A packet is read as the segment that was written, with the flags that are known. -/
theorem decode_encode (s : Segment) (identification : UInt16)
    (h : 20 + tcpHeaderLength s.flags + s.payload.length ≤ 65535) :
    decode (s.encode identification) = .ok { s with flags := s.flags.known } := by
  obtain ⟨checksum, hchecksum⟩ :
    ∃ checksum, checksum = tcpChecksum s.flow (s.tcpBytes 0) := ⟨_, rfl⟩
  have hlen := s.length_tcpBytes checksum
  have hblank := (s.length_tcpBytes 0).trans hlen.symm
  have hheader : 20 ≤ tcpHeaderLength s.flags := by
    rw [tcpHeaderLength]
    split <;> decide
  have hverifies := s.verifies_tcpBytes (by omega)
  rw [← hchecksum, ← hlen] at hverifies
  have hsource : (s.tcpBytes checksum).u16At 0 = s.flow.source.port := Bytes.toU16_ofU16 _
  have hdestination : (s.tcpBytes checksum).u16At 2 = s.flow.destination.port :=
    Bytes.toU16_ofU16 _
  have hseq : (s.tcpBytes checksum).u32At 4 = s.seq.val := Bytes.toU32_ofU32 _
  have hack : (s.tcpBytes checksum).u32At 8 = s.ack.val := Bytes.toU32_ofU32 _
  have hflags : (s.tcpBytes checksum).byteAt 13 = s.flags.bits := rfl
  have hwindow : (s.tcpBytes checksum).u16At 14 = s.window := Bytes.toU16_ofU16 _
  unfold decode encode
  simp only
  rw [← hchecksum, datagram_ipv4Header _ _ _ (by omega) (by rw [hblank]; rfl)]
  simp only [dataOffset_tcpBytes, hsource, hdestination, hseq, hack, hflags, hwindow,
    drop_tcpBytes, hverifies]
  rw [if_neg (by decide), if_neg (by omega), if_neg (by decide)]

/-- Whatever fields a packet is written from, for a flow or for the replies on it, they are read
back, of the flags those that are known. -/
theorem fields_readBack (f : Flow) (seq ack : SeqNum) (flags : Flags) (window : UInt16)
    (payload : Bytes) (identification : UInt16)
    (h : (if flags.has .syn then 44 else 40) + payload.length ≤ 65535) :
    let known : Flags := ⟨flags.bits &&& (Flags.fin ||| .syn ||| .rst ||| .psh ||| .ack).bits⟩
    decode (encode ⟨f, seq, ack, flags, window, payload⟩ identification) =
        .ok ⟨f, seq, ack, known, window, payload⟩ ∧
      decode (encode (reply f seq ack flags window payload) identification) =
        .ok ⟨⟨f.destination, f.source⟩, seq, ack, known, window, payload⟩ := by
  have hbound : 20 + tcpHeaderLength flags + payload.length ≤ 65535 := by
    rw [tcpHeaderLength]
    by_cases hsyn : flags.has .syn
    · rw [if_pos hsyn] at h ⊢
      omega
    · rw [if_neg hsyn] at h ⊢
      omega
  constructor
  · exact decode_encode ⟨f, seq, ack, flags, window, payload⟩ identification hbound
  · exact decode_encode (reply f seq ack flags window payload) identification hbound

/-- A segment with all eight bits of its flags set, an odd number of bytes, and an option. -/
theorem fields_readBack_allFlags :
    let f : Flow := ⟨⟨⟨10, 0, 0, 2⟩, 40000⟩, ⟨⟨1, 1, 1, 1⟩, 443⟩⟩
    decode (encode ⟨f, ⟨4294967295⟩, ⟨7⟩, ⟨255⟩, 65535, [1, 2, 3]⟩ 9) =
        .ok ⟨f, ⟨4294967295⟩, ⟨7⟩, ⟨31⟩, 65535, [1, 2, 3]⟩ ∧
      decode (encode (reply f ⟨4294967295⟩ ⟨7⟩ ⟨255⟩ 65535 [1, 2, 3]) 9) =
        .ok ⟨⟨f.destination, f.source⟩, ⟨4294967295⟩, ⟨7⟩, ⟨31⟩, 65535, [1, 2, 3]⟩ :=
  fields_readBack ⟨⟨⟨10, 0, 0, 2⟩, 40000⟩, ⟨⟨1, 1, 1, 1⟩, 443⟩⟩ ⟨4294967295⟩ ⟨7⟩ ⟨255⟩ 65535
    [1, 2, 3] 9 (by decide)

end Segment

end TcpGateway
