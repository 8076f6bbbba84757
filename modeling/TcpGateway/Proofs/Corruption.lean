import TcpGateway.Proofs.Packet

/-!
# One changed byte is always noticed

A sum of words is a sum of bytes, each with the weight of its place in the word, and one byte alone
cannot shift it by a multiple of sixteen ones.  A checksum therefore notices every change of one
byte that it covers (`Checksum.verifies_set`).

That is not enough for the first byte of a packet.  It announces how long the IPv4 header is, and so
where the part covered by one checksum ends and the part covered by the other begins.  What an
accepted packet has in any case is that all its words and the words of the pseudo-header sum to a
multiple of sixteen ones (`Segment.Accepted.sum_mod`), where each word that the header gains makes
the length in the pseudo-header four bytes less.  The two do not make up for each other.
-/

namespace TcpGateway

namespace Bytes

theorem byteAt_set_ne {data : Bytes} {i j : Nat} (b : UInt8) (h : i ≠ j) :
    byteAt (data.set i b) j = data.byteAt j := by
  simp only [byteAt, List.getD_eq_getElem?_getD, List.getElem?_set_ne h]

theorem byteAt_set_self {data : Bytes} {i : Nat} (b : UInt8) (h : i < data.length) :
    byteAt (data.set i b) i = b := by
  simp [byteAt, h]

theorem u16At_set_of_lt {data : Bytes} {i j : Nat} (b : UInt8) (h : j + 1 < i) :
    u16At (data.set i b) j = data.u16At j := by
  rw [u16At, u16At, byteAt_set_ne b (by omega), byteAt_set_ne b (by omega)]

end Bytes

theorem Ipv4.readAt_set_ne {data : Bytes} {i j : Nat} (b : UInt8) (h : i < j ∨ j + 3 < i) :
    Ipv4.readAt (data.set i b) j = Ipv4.readAt data j := by
  simp only [Ipv4.readAt]
  rw [Bytes.byteAt_set_ne b (by omega), Bytes.byteAt_set_ne b (by omega),
    Bytes.byteAt_set_ne b (by omega), Bytes.byteAt_set_ne b (by omega)]

namespace Checksum

/-! ## Sums with one byte changed -/

/-- What a byte counts for at offset `i` of a string. -/
def weight (i : Nat) : Nat := if i % 2 = 0 then 256 else 1

theorem weight_zero : weight 0 = 256 := rfl

theorem weight_one : weight 1 = 1 := rfl

theorem weight_add_two (i : Nat) : weight (i + 2) = weight i := by
  rw [weight, Nat.add_mod_right]
  rfl

/-- The old byte leaves a sum and the new one enters it, both with the weight of their place. -/
theorem wordSum_set (b : UInt8) : ∀ (data : Bytes) (i : Nat) (hi : i < data.length),
    wordSum (data.set i b) + weight i * data[i].toNat = wordSum data + weight i * b.toNat
  | [last], 0, _ => by
    simp only [List.set_cons_zero, List.getElem_cons_zero, wordSum, wordSum.go, Bytes.wordOf,
      weight_zero]
    omega
  | high :: low :: rest, 0, _ => by
    simp only [List.set_cons_zero, List.getElem_cons_zero, wordSum_cons_cons, Bytes.wordOf,
      weight_zero]
    omega
  | high :: low :: rest, 1, _ => by
    simp only [List.set_cons_succ, List.set_cons_zero, List.getElem_cons_succ,
      List.getElem_cons_zero, wordSum_cons_cons, Bytes.wordOf, weight_one]
    omega
  | high :: low :: rest, i + 2, hi => by
    have hi' : i < rest.length := by
      simp only [List.length_cons] at hi
      omega
    have ih := wordSum_set b rest i hi'
    simp only [List.set_cons_succ, List.getElem_cons_succ, wordSum_cons_cons, weight_add_two]
    omega

theorem verifies_iff {start : Nat} {data : Bytes} :
    verifies start data ↔ 0 < start + wordSum data ∧ (start + wordSum data) % 65535 = 0 := by
  rw [verifies, beq_iff_eq, foldCarries_eq_iff]

/-- A checksum notices every change of one byte. -/
theorem verifies_set {start : Nat} {data : Bytes} (h : verifies start data) {i : Nat}
    (hi : i < data.length) {b : UInt8} (hb : b ≠ data[i]) : ¬ verifies start (data.set i b) := by
  intro h'
  have hsum := wordSum_set b data i hi
  have hold := data[i].toNat_lt
  have hnew := b.toNat_lt
  have hne : b.toNat ≠ data[i].toNat := fun heq => hb (UInt8.toNat_inj.mp heq)
  rw [verifies_iff] at h h'
  rw [weight] at hsum
  split at hsum <;> omega

end Checksum

namespace Segment

/-! ## Accepted packets -/

/-- What the checks of a packet have found that is read as the segment `s`; its IPv4 header has
`words` words of four bytes. -/
structure Accepted (packet : Bytes) (s : Segment) (words : Nat) : Prop where
  first_byte : (packet.byteAt 0).toNat = 64 + words
  words_lt : words < 16
  header_le : 4 * words ≤ (packet.u16At 2).toNat
  total_le : (packet.u16At 2).toNat ≤ packet.length
  header : Checksum.verifies 0 (packet.take (4 * words))
  source : s.flow.source.address = Ipv4.readAt packet 12
  destination : s.flow.destination.address = Ipv4.readAt packet 16
  content : Checksum.verifies
    (Checksum.pseudoHeader s.flow ((packet.u16At 2).toNat - 4 * words))
    ((packet.take (packet.u16At 2).toNat).drop (4 * words))

/-- A datagram is cut out of a packet whose header is in order. -/
theorem datagram_eq_ok {packet : Bytes} {d : Datagram} (h : datagram packet = .ok d) :
    ∃ words, (packet.byteAt 0).toNat = 64 + words ∧ words < 16 ∧
      4 * words ≤ (packet.u16At 2).toNat ∧ (packet.u16At 2).toNat ≤ packet.length ∧
      Checksum.verifies 0 (packet.take (4 * words)) ∧
      d = ⟨Ipv4.readAt packet 12, Ipv4.readAt packet 16, packet.byteAt 9,
        (packet.take (packet.u16At 2).toNat).drop (4 * words)⟩ := by
  unfold datagram at h
  split at h
  · cases h
  · rename_i hversion
    simp only at h
    split at h
    · cases h
    · rename_i hlengths
      split at h
      · cases h
      · rename_i hverifies
        split at h
        · cases h
        · have hfirst : (packet.byteAt 0).toNat / 16 = 4 := by
            cases packet with
            | nil => simp at hversion
            | cons first rest => simpa [Bytes.byteAt] using hversion
          refine ⟨(packet.byteAt 0).toNat % 16, by omega, by omega, by omega, by omega, ?_, ?_⟩
          · rw [Nat.mul_comm]
            simpa using hverifies
          · rw [Nat.mul_comm 4]
            exact (Except.ok.inj h).symm

theorem decode_eq_ok {packet : Bytes} {s : Segment} (h : decode packet = .ok s) :
    ∃ words, Accepted packet s words := by
  unfold decode at h
  split at h
  · cases h
  · rename_i d hd
    obtain ⟨words, hfirst, hlt, hheader, htotal, hverifies, rfl⟩ := datagram_eq_ok hd
    split at h
    · cases h
    · simp only at h
      split at h
      · cases h
      · split at h
        · cases h
        · rename_i hcontent
          cases h
          have hlength : ((packet.take (packet.u16At 2).toNat).drop (4 * words)).length =
              (packet.u16At 2).toNat - 4 * words := by
            rw [List.length_drop, List.length_take, Nat.min_eq_left htotal]
          rw [hlength] at hcontent
          exact ⟨words, hfirst, hlt, hheader, htotal, hverifies, rfl, rfl, by simpa using hcontent⟩

namespace Accepted

variable {packet : Bytes} {s s' : Segment} {words words' : Nat}

/-- The words of an accepted packet and of its pseudo-header make up a multiple of sixteen ones,
wherever the one checksum ends and the other begins. -/
theorem sum_mod (h : Accepted packet s words) :
    (Checksum.pseudoHeader s.flow ((packet.u16At 2).toNat - 4 * words) +
      Checksum.wordSum (packet.take (packet.u16At 2).toNat)) % 65535 = 0 := by
  have hheader := (Checksum.verifies_iff.mp h.header).2
  have hcontent := (Checksum.verifies_iff.mp h.content).2
  have hle := h.header_le
  have htotal := h.total_le
  have hsplit : packet.take (packet.u16At 2).toNat =
      packet.take (4 * words) ++ (packet.take (packet.u16At 2).toNat).drop (4 * words) := by
    have hparts := List.take_append_drop (4 * words) (packet.take (packet.u16At 2).toNat)
    rw [List.take_take, Nat.min_eq_left hle] at hparts
    exact hparts.symm
  have heven : (packet.take (4 * words)).length % 2 = 0 := by
    rw [List.length_take]
    omega
  rw [hsplit, Checksum.wordSum_append _ heven]
  omega

/-- Away from the addresses a change of one byte leaves the pseudo-header alone. -/
theorem pseudoHeader_set {i : Nat} {b : UInt8} (h : Accepted packet s words)
    (h' : Accepted (packet.set i b) s' words') (hi : i < 12 ∨ 20 ≤ i) (length : Nat) :
    Checksum.pseudoHeader s'.flow length = Checksum.pseudoHeader s.flow length := by
  have hsource : s'.flow.source.address = s.flow.source.address := by
    rw [h'.source, h.source, Ipv4.readAt_set_ne b (by omega)]
  have hdestination : s'.flow.destination.address = s.flow.destination.address := by
    rw [h'.destination, h.destination, Ipv4.readAt_set_ne b (by omega)]
  rw [Checksum.pseudoHeader, Checksum.pseudoHeader, hsource, hdestination]

/-- Another first byte: both sums together run over the same bytes but for this one. -/
theorem not_set_first (h : Accepted packet s words)
    (hwhole : (packet.u16At 2).toNat = packet.length) (hi : 0 < packet.length) {b : UInt8}
    (hb : b ≠ packet[0]) : ¬ Accepted (packet.set 0 b) s' words' := by
  intro h'
  have hsum := Checksum.wordSum_set b packet 0 hi
  rw [Checksum.weight_zero] at hsum
  have hold : packet[0].toNat = 64 + words := by
    rw [← h.first_byte]
    simp [Bytes.byteAt, hi]
  have hnew : b.toNat = 64 + words' := by
    rw [← h'.first_byte, Bytes.byteAt_set_self b hi]
  have hne : words' ≠ words := fun heq => hb (UInt8.toNat_inj.mp (by omega))
  have hlength : (packet.set 0 b).length = packet.length := List.length_set
  have hread : (Bytes.u16At (packet.set 0 b) 2).toNat = packet.length := by
    rw [← hwhole, Bytes.u16At, Bytes.byteAt_set_ne b (by omega), Bytes.byteAt_set_ne b (by omega),
      Bytes.u16At]
  have hmod := h.sum_mod
  have hmod' := h'.sum_mod
  rw [hwhole, List.take_length, Checksum.pseudoHeader] at hmod
  rw [h.pseudoHeader_set h' (by omega), hread, ← hlength, List.take_length, hlength,
    Checksum.pseudoHeader] at hmod'
  have hheader := h.header_le
  have hheader' := h'.header_le
  have hlt := h.words_lt
  have hlt' := h'.words_lt
  omega

/-- Another byte of the IPv4 header, which the header's checksum covers. -/
theorem not_set_header (h : Accepted packet s words) {i : Nat}
    (hin : i < 4 * words) (hi : i < packet.length) {b : UInt8} (hb : b ≠ packet[i]) :
    ¬ Accepted (packet.set i b) s' words := by
  intro h'
  have hheader' := h'.header
  rw [List.take_set] at hheader'
  have hi' : i < (packet.take (4 * words)).length := by
    rw [List.length_take]
    omega
  exact Checksum.verifies_set h.header hi' (by rwa [List.getElem_take]) hheader'

/-- Another byte behind the IPv4 header, which the checksum of the segment covers. -/
theorem not_set_content (h : Accepted packet s words) (hwords : 5 ≤ words)
    (hwhole : (packet.u16At 2).toNat = packet.length) {i : Nat} (hin : 4 * words ≤ i)
    (hi : i < packet.length) {b : UInt8} (hb : b ≠ packet[i]) :
    ¬ Accepted (packet.set i b) s' words := by
  intro h'
  have hcontent := h.content
  have hcontent' := h'.content
  have hlength : (packet.set i b).length = packet.length := List.length_set
  rw [hwhole, List.take_length] at hcontent
  rw [Bytes.u16At_set_of_lt b (by omega), hwhole, h.pseudoHeader_set h' (by omega), ← hlength,
    List.take_length, hlength, List.drop_set, if_neg (by omega)] at hcontent'
  have hi' : i - 4 * words < (packet.drop (4 * words)).length := by
    rw [List.length_drop]
    omega
  refine Checksum.verifies_set hcontent hi' ?_ hcontent'
  rw [List.getElem_drop]
  simpa [Nat.add_sub_cancel' hin] using hb

/-- A packet without bytes behind its end is refused whichever of its bytes is changed. -/
theorem not_set (h : Accepted packet s words) (hwords : 5 ≤ words)
    (hwhole : (packet.u16At 2).toNat = packet.length) {i : Nat} (hi : i < packet.length) {b : UInt8}
    (hb : b ≠ packet[i]) : ¬ Accepted (packet.set i b) s' words' := by
  rcases Nat.eq_zero_or_pos i with rfl | hpos
  · exact h.not_set_first hwhole hi hb
  · intro h'
    have hsame : words' = words := by
      have hfirst := h'.first_byte
      rw [Bytes.byteAt_set_ne b (by omega), h.first_byte] at hfirst
      omega
    subst hsame
    by_cases hin : i < 4 * words'
    · exact h.not_set_header hin hi hb h'
    · exact h.not_set_content hwords hwhole (Nat.le_of_not_lt hin) hi hb h'

end Accepted

/-! ## Written packets -/

theorem encode_accepted (s : Segment) (identification : UInt16)
    (h : (s.encode identification).length ≤ 65535) :
    (s.encode identification).byteAt 0 = 0x45 ∧
      ((s.encode identification).u16At 2).toNat = (s.encode identification).length := by
  have hread : (s.encode identification).u16At 2 =
      UInt16.ofNat (ipv4HeaderLength + (s.tcpBytes 0).length) := Bytes.toU16_ofU16 _
  have hlength := s.length_encode identification
  refine ⟨rfl, ?_⟩
  rw [hread, UInt16.toNat_ofNat', length_tcpBytes, ipv4HeaderLength]
  omega

/-- A packet that was written is accepted, and refused once any one of its bytes is replaced by
another. -/
theorem changedByte_refused (s : Segment) (identification : UInt16)
    (h : (s.encode identification).length ≤ 65535) :
    decode (s.encode identification) = .ok { s with flags := s.flags.known } ∧
      ∀ (i : Nat) (hi : i < (s.encode identification).length) (b : UInt8),
        b ≠ (s.encode identification)[i] →
          ∃ fault, decode ((s.encode identification).set i b) = .error fault := by
  have hread : decode (s.encode identification) = .ok { s with flags := s.flags.known } := by
    refine decode_encode s identification ?_
    rwa [s.length_encode identification] at h
  refine ⟨hread, fun i hi b hb => ?_⟩
  obtain ⟨words, haccepted⟩ := decode_eq_ok hread
  obtain ⟨hfirst, hwhole⟩ := encode_accepted s identification h
  have hwords : words = 5 := by
    have hbyte := haccepted.first_byte
    rw [hfirst] at hbyte
    have hvalue : (0x45 : UInt8).toNat = 69 := by decide
    omega
  cases hdecode : decode ((s.encode identification).set i b) with
  | error fault => exact ⟨fault, rfl⟩
  | ok s' =>
    obtain ⟨words', haccepted'⟩ := decode_eq_ok hdecode
    exact absurd haccepted' (haccepted.not_set (by omega) hwhole hi hb)

/-- A packet of 48895 bytes, changed to announce a header of one word.  That word alone passes for a
header, and the packet is refused nevertheless. -/
theorem changedByte_refused_shortHeader :
    let s : Segment := ⟨default, ⟨1⟩, ⟨2⟩, .ack, 3, List.replicate 48855 0⟩
    (s.encode 9).length ≤ 65535 ∧
      Checksum.verifies 0 (((s.encode 9).set 0 0x41).take 4) ∧
      ∃ fault, decode ((s.encode 9).set 0 0x41) = .error fault := by
  intro s
  have hheader : tcpHeaderLength s.flags = 20 := by decide
  have hpayload : s.payload.length = 48855 := List.length_replicate
  have hlength : (s.encode 9).length = 48895 := by
    rw [length_encode, hheader, hpayload]
  have hword : ((s.encode 9).set 0 0x41).take 4 =
      [0x41, 0x00] ++ Bytes.ofU16 (UInt16.ofNat (20 + (s.tcpBytes 0).length)) := rfl
  have hfits : (s.encode 9).length ≤ 65535 := by omega
  refine ⟨hfits, ?_, (changedByte_refused s 9 hfits).2 0 (by omega) 0x41 ?_⟩
  · rw [hword, length_tcpBytes, hheader, hpayload, Checksum.verifies_iff]
    decide
  · show (0x41 : UInt8) ≠ 0x45
    decide

end Segment

end TcpGateway
