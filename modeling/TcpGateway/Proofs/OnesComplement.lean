import Mathlib.Algebra.BigOperators.Intervals
import TcpGateway.Proofs.Packet

/-!
# One's-complement sums are exact

A sum of 16-bit words is taken in 32 bits and its carries are added back in afterwards.  What the
words are is said here by their places (`words`), for a string of any length and with any one of
them left out.  No string that fits a packet is long enough for the 32 bits to overflow, so the
total is the plain sum of the words.  The carries are then gone after two rounds
(`foldCarries_eq_two_rounds`), and what is left has the residue of the plain sum modulo 65535, with
zero for nothing but zero.

From that the checksum follows: its complement, stored in the place left out, makes all words add up
to sixteen ones, in a string of any contents (`verifies_storeU16`) and so in both headers of a
packet.
-/

namespace TcpGateway

/-- `data` with `word` in place of the two bytes at `offset`. -/
def Bytes.storeU16 (data : Bytes) (offset : Nat) (word : UInt16) : Bytes :=
  data.take offset ++ ofU16 word ++ data.drop (offset + 2)

namespace Checksum

/-! ## Words by their places -/

/-- The plain sum of the big-endian words of `data`, a last odd byte being a high byte, and the word
at byte offset `skip` counting as zero. -/
def words (skip : Nat) (data : Bytes) : Nat :=
  ∑ k ∈ Finset.range ((data.length + 1) / 2),
    if 2 * k = skip then 0 else (data.u16At (2 * k)).toNat

theorem toNat_toU16 (high low : UInt8) : (Bytes.toU16 high low).toNat = Bytes.wordOf high low := by
  have := wordOf_le high low
  rw [Bytes.toU16, UInt16.toNat_ofNat']
  omega

theorem skipSum_eq_sum (offset skip : Nat) (data : Bytes) :
    skipSum offset skip data =
      ∑ k ∈ Finset.range ((data.length + 1) / 2),
        if offset + 2 * k = skip then 0 else (data.u16At (2 * k)).toNat := by
  fun_induction skipSum offset skip data with
  | case1 offset => rfl
  | case2 last => simp
  | case3 offset last hne =>
    have hword : Bytes.u16At [last] 0 = Bytes.toU16 last 0 := rfl
    simp [hne, hword, toNat_toU16]
  | case4 offset high low rest ih =>
    have hlength : ((high :: low :: rest).length + 1) / 2 = (rest.length + 1) / 2 + 1 := by
      simp only [List.length_cons]
      omega
    have hfirst : Bytes.u16At (high :: low :: rest) (2 * 0) = Bytes.toU16 high low := rfl
    -- the words behind the first stand two bytes further on
    have hrest : ∀ k, Bytes.u16At (high :: low :: rest) (2 * (k + 1)) = Bytes.u16At rest (2 * k) :=
      fun _ => rfl
    have hoffset : ∀ k, offset + 2 * (k + 1) = offset + 2 + 2 * k := fun _ => by omega
    simp only [hlength, Finset.sum_range_succ', hrest, hoffset, hfirst, toNat_toU16, ← ih]
    exact Nat.add_comm _ _

theorem skipSum_eq_words (skip : Nat) (data : Bytes) : skipSum 0 skip data = words skip data := by
  simp only [skipSum_eq_sum, words, Nat.zero_add]

theorem words_eq_zero_iff {skip : Nat} {data : Bytes} :
    words skip data = 0 ↔
      ∀ k < (data.length + 1) / 2, 2 * k ≠ skip → data.u16At (2 * k) = 0 := by
  have hzero : ∀ word : UInt16, word.toNat = 0 ↔ word = 0 := fun word => by
    rw [← UInt16.toNat_inj]
    rfl
  simp only [words, Finset.sum_eq_zero_iff, Finset.mem_range, ite_eq_left_iff, hzero, ne_eq]

/-! ## Rounds of carries -/

/-- One round: what stands above 16 bits is added to what stands below. -/
def foldRound (total : Nat) : Nat := total % 65536 + total / 65536

theorem foldCarries_of_lt {n : Nat} (hlt : n < 65536) : foldCarries n = n := by
  rw [foldCarries, if_pos hlt]

theorem foldCarries_foldRound (n : Nat) : foldCarries (foldRound n) = foldCarries n := by
  rcases Nat.lt_or_ge n 65536 with hlt | hge
  · rw [foldRound, Nat.mod_eq_of_lt hlt, Nat.div_eq_of_lt hlt, Nat.add_zero]
  · rw [foldCarries.eq_def n, if_neg (Nat.not_lt.mpr hge), foldRound]

/-- The first round leaves at most one carry, and adding that one in makes no other. -/
theorem foldCarries_eq_two_rounds {n : Nat} (hlt : n < 2 ^ 32) :
    foldCarries n = foldRound (foldRound n) := by
  have hdone : foldRound (foldRound n) < 65536 := by
    simp only [foldRound]
    omega
  rw [← foldCarries_foldRound n, ← foldCarries_foldRound (foldRound n), foldCarries_of_lt hdone]

/-! ## Exact sums -/

/-- A string is its front, the two bytes at `skip`, and the rest. -/
theorem exists_word {data : Bytes} {skip : Nat} (hin : skip + 2 ≤ data.length) :
    ∃ high low, data = data.take skip ++ [high, low] ++ data.drop (skip + 2) := by
  refine ⟨data[skip], data[skip + 1], ?_⟩
  have hdrop : data.drop skip = data[skip] :: data[skip + 1] :: data.drop (skip + 2) := by
    rw [List.drop_eq_getElem_cons (by omega), List.drop_eq_getElem_cons (by omega)]
  rw [List.append_assoc, List.cons_append, List.cons_append, List.nil_append, ← hdrop,
    List.take_append_drop]

theorem verifies_storeU16 {start : Nat} {data : Bytes} {skip : Nat} (heven : skip % 2 = 0)
    (hin : skip + 2 ≤ data.length) (hfits : start + 65535 * ((data.length + 1) / 2) < 2 ^ 32) :
    verifies start (data.storeU16 skip (stored (sum (UInt32.ofNat start) data skip))) := by
  obtain ⟨high, low, hdata⟩ := exists_word hin
  have hfront : (data.take skip).length = skip := by
    rw [List.length_take]
    omega
  have hstored : verifies start (data.take skip ++ Bytes.ofU16 (stored (sum (UInt32.ofNat start)
      (data.take skip ++ [high, low] ++ data.drop (skip + 2)) (data.take skip).length)) ++
        data.drop (skip + 2)) := by
    refine verifies_stored (by omega) ?_
    rw [hfront, List.length_drop]
    omega
  rwa [hfront, ← hdata] at hstored

/-- The sum of `start` and the words of `data` without the one at `skip` is taken without a loss. -/
structure Exact (start skip : Nat) (data : Bytes) : Prop where
  start_fits : (UInt32.ofNat start).toNat = start
  /-- The total in 32 bits is the sum in numbers: no carry is lost on the way. -/
  total : (accumulate (UInt32.ofNat start) 0 skip data).toNat = start + words skip data
  /-- The carries are added in once and once again, and then none is left. -/
  rounds : sum (UInt32.ofNat start) data skip = foldRound (foldRound (start + words skip data))
  folded : sum (UInt32.ofNat start) data skip < 65536
  residue : sum (UInt32.ofNat start) data skip % 65535 = (start + words skip data) % 65535
  /-- Of the two ways to write zero, this one is used for nothing but zero. -/
  zero : sum (UInt32.ofNat start) data skip = 0 ↔
    start = 0 ∧ ∀ k < (data.length + 1) / 2, 2 * k ≠ skip → data.u16At (2 * k) = 0
  /-- With the complement of the sum in the place left out, all words add up to sixteen ones. -/
  checked : skip + 2 ≤ data.length →
    foldCarries (start + wordSum (data.storeU16 skip
      (stored (sum (UInt32.ofNat start) data skip)))) = 65535

theorem exact_of_fits {start skip : Nat} {data : Bytes} (heven : skip % 2 = 0)
    (hfits : start + 65535 * ((data.length + 1) / 2) < 2 ^ 32) : Exact start skip data := by
  have hstart : (UInt32.ofNat start).toNat = start := by
    rw [UInt32.toNat_ofNat']
    omega
  have htotal : (accumulate (UInt32.ofNat start) 0 skip data).toNat = start + words skip data := by
    rw [accumulate_toNat (by omega), hstart, skipSum_eq_words]
  have hlt := (accumulate (UInt32.ofNat start) 0 skip data).toNat_lt
  have hsum : sum (UInt32.ofNat start) data skip = foldCarries (start + words skip data) := by
    rw [sum, htotal]
  constructor
  case start_fits => exact hstart
  case total => exact htotal
  case rounds => rw [hsum, foldCarries_eq_two_rounds (by omega)]
  case folded => exact foldCarries_lt _
  case residue => rw [hsum, foldCarries_mod]
  case zero => rw [hsum, foldCarries_eq_zero_iff, Nat.add_eq_zero_iff, words_eq_zero_iff]
  case checked =>
    intro hin
    exact beq_iff_eq.mp (verifies_storeU16 heven hin hfits)

end Checksum

open Checksum

/-- Over any string that fits a packet, from nothing or from any pseudo-header, the sum is exact
whichever word is left out; and the checksums stored in an IPv4 header and in a TCP segment make
their words, for TCP with those of the pseudo-header, add up to sixteen ones. -/
theorem Checksum.sums_exact :
    (∀ (data : Bytes) (skip : Nat), data.length ≤ 65535 → skip % 2 = 0 →
      Exact 0 skip data ∧
        ∀ (f : Flow) (length : Nat), length ≤ 65535 → Exact (pseudoHeader f length) skip data) ∧
      (∀ (f : Flow) (identification totalLength : UInt16),
        let checksum := Segment.ipv4Checksum (Segment.ipv4Header f identification totalLength 0)
        foldCarries (wordSum (Segment.ipv4Header f identification totalLength checksum)) = 65535) ∧
      ∀ s : Segment, (s.tcpBytes 0).length ≤ 65535 →
        let checksum := Segment.tcpChecksum s.flow (s.tcpBytes 0)
        foldCarries (pseudoHeader s.flow (s.tcpBytes checksum).length +
          wordSum (s.tcpBytes checksum)) = 65535 := by
  refine ⟨fun data skip hdata heven => ⟨?_, fun f length hlength => ?_⟩,
    fun f identification totalLength => ?_, fun s hlength => ?_⟩
  · exact exact_of_fits heven (by omega)
  · have hpseudo := Segment.pseudoHeader_le f length
    exact exact_of_fits heven (by omega)
  · have hverifies := Segment.verifies_ipv4Header f identification totalLength
    rwa [verifies, beq_iff_eq, Nat.zero_add] at hverifies
  · rw [s.length_tcpBytes] at hlength
    have hverifies := s.verifies_tcpBytes hlength
    rwa [verifies, beq_iff_eq, ← s.length_tcpBytes (Segment.tcpChecksum s.flow (s.tcpBytes 0))]
      at hverifies

/-- Five bytes, the last of them half a word, with a carry out of 16 bits. -/
theorem Checksum.sums_exact_oddLength :
    let data : Bytes := [0xff, 0xff, 0x12, 0x34, 0x80]
    let start := pseudoHeader default data.length
    data.length ≤ 65535 ∧ 2 % 2 = 0 ∧
      sum (UInt32.ofNat start) data 2 % 65535 = (start + (0xffff + 0x8000)) % 65535 ∧
      foldCarries (start + wordSum (data.storeU16 2 (stored (sum (UInt32.ofNat start) data 2)))) =
        65535 := by
  intro data start
  have hlength : data.length ≤ 65535 := by decide
  have hexact := (sums_exact.1 data 2 hlength (by decide)).2 default data.length hlength
  have hwords : words 2 data = 0xffff + 0x8000 := by decide
  exact ⟨hlength, by decide, hwords ▸ hexact.residue, hexact.checked (by decide)⟩

end TcpGateway
