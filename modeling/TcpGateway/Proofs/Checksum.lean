import Mathlib.Algebra.Group.Nat.Defs
import TcpGateway.Packet.Checksum

/-!
# What is stored as a checksum verifies

The writer leaves out one word and sums in 32 bits, the reader sums every word and loses nothing.
`skipSum` stands between them: the writer's sum is congruent to it modulo sixteen ones, and with
the complement stored in the place left out the reader's is congruent to zero (`verifies_stored`).
Folding the carries keeps the residue (`foldCarries_mod`) and yields zero for nothing but zero, so
that of the two representations of zero the reader always meets the one it expects.
-/

namespace TcpGateway

namespace Checksum

/-! ## Sums of words -/

theorem wordOf_le (high low : UInt8) : Bytes.wordOf high low ≤ 65535 := by
  have := high.toNat_lt
  have := low.toNat_lt
  simp only [Bytes.wordOf]
  omega

theorem wordOf_ofU16 (word : UInt16) :
    Bytes.wordOf (UInt8.ofNat (word.toNat / 256)) word.toUInt8 = word.toNat := by
  have := word.toNat_lt
  simp only [Bytes.wordOf, UInt8.toNat_ofNat', UInt16.toNat_toUInt8]
  omega

theorem wordSum_go_add (total n : Nat) (data : Bytes) :
    wordSum.go (total + n) data = total + wordSum.go n data := by
  fun_induction wordSum.go n data with
  | case1 n => rfl
  | case2 n last => exact Nat.add_assoc _ _ _
  | case3 n high low rest ih => rw [wordSum.go, Nat.add_assoc, ih]

theorem wordSum_cons_cons (high low : UInt8) (rest : Bytes) :
    wordSum (high :: low :: rest) = Bytes.wordOf high low + wordSum rest := by
  have hgo := wordSum_go_add (Bytes.wordOf high low) 0 rest
  rw [Nat.add_zero] at hgo
  simp only [wordSum, wordSum.go, Nat.zero_add, hgo]

theorem wordSum_go_append {front : Bytes} (n : Nat) (rest : Bytes)
    (heven : front.length % 2 = 0) :
    wordSum.go n (front ++ rest) = wordSum.go (wordSum.go n front) rest := by
  fun_induction wordSum.go n front with
  | case1 n => rfl
  | case2 n last => simp at heven
  | case3 n high low front ih =>
    simp only [List.length_cons] at heven
    exact ih (by omega)

/-- The words of two strings are those of the first and then those of the second, if the first
ends with a whole word. -/
theorem wordSum_append {front : Bytes} (rest : Bytes) (heven : front.length % 2 = 0) :
    wordSum (front ++ rest) = wordSum front + wordSum rest := by
  have hgo := wordSum_go_add (wordSum front) 0 rest
  rw [Nat.add_zero] at hgo
  rw [wordSum, wordSum_go_append 0 rest heven]
  exact hgo

theorem wordSum_le (data : Bytes) : wordSum data ≤ 65535 * ((data.length + 1) / 2) := by
  have hgo : ∀ n, wordSum.go n data ≤ n + 65535 * ((data.length + 1) / 2) := by
    intro n
    fun_induction wordSum.go n data with
    | case1 n => simp
    | case2 n last =>
      have := wordOf_le last 0
      simp
      omega
    | case3 n high low rest ih =>
      have := wordOf_le high low
      simp only [List.length_cons]
      omega
  have hzero := hgo 0
  rwa [Nat.zero_add] at hzero

/-! ## The writer's sum -/

/-- The sum of the words of `data`, which starts at byte offset `offset` of the whole, without the
word at offset `skip`. -/
def skipSum (offset skip : Nat) : Bytes → Nat
  | [] => 0
  | [last] => if offset = skip then 0 else Bytes.wordOf last 0
  | high :: low :: rest =>
    (if offset = skip then 0 else Bytes.wordOf high low) + skipSum (offset + 2) skip rest

/-- As long as the words fit into 32 bits, no carry is lost. -/
theorem accumulate_toNat {total : UInt32} {offset skip : Nat} {data : Bytes}
    (hfits : total.toNat + 65535 * ((data.length + 1) / 2) < 2 ^ 32) :
    (accumulate total offset skip data).toNat = total.toNat + skipSum offset skip data := by
  fun_induction accumulate total offset skip data with
  | case1 total offset => rfl
  | case2 total last => simp [skipSum]
  | case3 total offset last hne =>
    have := wordOf_le last 0
    simp only [List.length_cons, List.length_nil] at hfits
    rw [skipSum, if_neg hne, UInt32.toNat_add, UInt32.toNat_ofNat']
    omega
  | case4 total offset high low rest ih =>
    have := wordOf_le high low
    simp only [List.length_cons] at hfits
    have hword : (if offset = skip then total else
        total + UInt32.ofNat (Bytes.wordOf high low)).toNat =
        total.toNat + if offset = skip then 0 else Bytes.wordOf high low := by
      split
      · rfl
      · rw [UInt32.toNat_add, UInt32.toNat_ofNat']
        omega
    rw [hword] at ih
    rw [ih (by split <;> omega), skipSum]
    omega

/-- A word that is skipped before the data begin is not missed. -/
theorem skipSum_of_lt {offset skip : Nat} (data : Bytes) (hlt : skip < offset) :
    skipSum offset skip data = wordSum data := by
  fun_induction skipSum offset skip data with
  | case1 offset => rfl
  | case2 offset => omega
  | case3 offset last hne => simp [wordSum, wordSum.go]
  | case4 offset high low rest ih =>
    rw [wordSum_cons_cons, ih (by omega), if_neg (by omega)]

/-- Before the word that is skipped nothing is missed. -/
theorem skipSum_append {front : Bytes} {offset skip : Nat} (rest : Bytes)
    (heven : front.length % 2 = 0) (hle : offset + front.length ≤ skip) :
    skipSum offset skip (front ++ rest) =
      wordSum front + skipSum (offset + front.length) skip rest := by
  fun_induction skipSum offset skip front with
  | case1 offset => simp [wordSum, wordSum.go]
  | case2 offset => simp at heven
  | case3 offset last => simp at heven
  | case4 offset high low front ih =>
    simp only [List.length_cons] at heven hle
    have hrest := ih (by omega) (by omega)
    have hoffset : offset + 2 + front.length = offset + (high :: low :: front).length := by
      simp only [List.length_cons]
      omega
    rw [List.cons_append, List.cons_append, skipSum, if_neg (by omega), hrest, hoffset,
      wordSum_cons_cons, Nat.add_assoc]

/-- A string without the word behind `front`. -/
theorem skipSum_word {front : Bytes} (high low : UInt8) (rest : Bytes)
    (heven : front.length % 2 = 0) :
    skipSum 0 front.length (front ++ high :: low :: rest) = wordSum front + wordSum rest := by
  rw [skipSum_append _ heven (by omega), skipSum, if_pos (Nat.zero_add _),
    skipSum_of_lt rest (by omega), Nat.zero_add]

/-! ## Folding the carries -/

theorem foldCarries_lt (n : Nat) : foldCarries n < 65536 := by
  fun_induction foldCarries n with
  | case1 n hlt => exact hlt
  | case2 n _ ih => exact ih

theorem foldCarries_mod (n : Nat) : foldCarries n % 65535 = n % 65535 := by
  fun_induction foldCarries n with
  | case1 n _ => rfl
  | case2 n _ ih =>
    rw [ih]
    omega

/-- Of the two ways to write zero, folding gives sixteen ones unless there was nothing to add. -/
theorem foldCarries_eq_zero_iff {n : Nat} : foldCarries n = 0 ↔ n = 0 := by
  fun_induction foldCarries n with
  | case1 n _ => rfl
  | case2 n _ ih =>
    rw [ih]
    omega

/-- A sum shows sixteen ones exactly if it is a multiple of them and not zero. -/
theorem foldCarries_eq_iff {n : Nat} : foldCarries n = 65535 ↔ 0 < n ∧ n % 65535 = 0 := by
  have hmod := foldCarries_mod n
  have hlt := foldCarries_lt n
  have hzero := foldCarries_eq_zero_iff (n := n)
  omega

/-! ## Stored checksums -/

theorem stored_toNat {n : Nat} (hlt : n < 65536) : (stored n).toNat = 65535 - n := by
  have hsize : UInt16.size = 65536 := rfl
  rw [stored, UInt16.toNat_not, UInt16.toNat_ofNat']
  omega

theorem sum_eq {start : UInt32} {data : Bytes} (skip : Nat)
    (hfits : start.toNat + 65535 * ((data.length + 1) / 2) < 2 ^ 32) :
    sum start data skip = foldCarries (start.toNat + skipSum 0 skip data) := by
  rw [sum, accumulate_toNat hfits]

/-- A string passes the check once the checksum is stored that was summed without the word in its
place. -/
theorem verifies_stored {start : Nat} {front rest : Bytes} {high low : UInt8}
    (heven : front.length % 2 = 0)
    (hfits : start + 65535 * ((front.length + rest.length + 3) / 2) < 2 ^ 32) :
    verifies start (front ++ Bytes.ofU16 (stored (sum (UInt32.ofNat start)
      (front ++ [high, low] ++ rest) front.length)) ++ rest) := by
  have hstart : (UInt32.ofNat start).toNat = start := by
    rw [UInt32.toNat_ofNat']
    omega
  have hsum : sum (UInt32.ofNat start) (front ++ [high, low] ++ rest) front.length =
      foldCarries (start + (wordSum front + wordSum rest)) := by
    have hword : front ++ [high, low] ++ rest = front ++ high :: low :: rest :=
      List.append_assoc _ _ _
    rw [hword, sum_eq _ (by simp [hstart]; omega), skipSum_word _ _ _ heven, hstart]
  obtain ⟨n, hn⟩ : ∃ n, n = foldCarries (start + (wordSum front + wordSum rest)) := ⟨_, rfl⟩
  have hlt : n < 65536 := hn ▸ foldCarries_lt _
  have hmod : n % 65535 = (start + (wordSum front + wordSum rest)) % 65535 :=
    hn ▸ foldCarries_mod _
  have hzero : n = 0 ↔ start + (wordSum front + wordSum rest) = 0 :=
    hn ▸ foldCarries_eq_zero_iff
  have hwords : wordSum (front ++ Bytes.ofU16 (stored n) ++ rest) =
      wordSum front + ((65535 - n) + wordSum rest) := by
    rw [List.append_assoc, wordSum_append _ heven, Bytes.ofU16, List.cons_append, List.cons_append,
      List.nil_append, wordSum_cons_cons, wordOf_ofU16, stored_toNat hlt]
  rw [hsum, ← hn, verifies, beq_iff_eq, hwords, foldCarries_eq_iff]
  omega

end Checksum

end TcpGateway
