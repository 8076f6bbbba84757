import Mathlib.Algebra.Group.Nat.Defs
import TcpGateway.SeqRange

/-!
# Arithmetic on the circle of sequence numbers

A sequence number is written as a base and an offset, `s.add i`.  Offsets add up, `distance`
gives them back as long as they are below 2^32, and inside a half-circle the comparison of two
numbers is the comparison of their offsets (`precedes_add_add`).  Everything later says about
windows, acknowledgments and queues goes through these three facts, at every position of the
wrap.
-/

namespace TcpGateway

namespace SeqNum

theorem ext_toNat {a b : SeqNum} (h : a.val.toNat = b.val.toNat) : a = b := by
  obtain ⟨a⟩ := a
  obtain ⟨b⟩ := b
  exact congrArg SeqNum.mk (UInt32.toNat_inj.mp h)

theorem add_val_toNat (s : SeqNum) (n : Nat) :
    (s.add n).val.toNat = (s.val.toNat + n) % 2 ^ 32 := by
  simp only [add, UInt32.toNat_add, UInt32.toNat_ofNat']
  omega

theorem distance_eq (s o : SeqNum) :
    s.distance o = (2 ^ 32 - o.val.toNat + s.val.toNat) % 2 ^ 32 := by
  simp only [distance, UInt32.toNat_sub]

theorem distance_lt (s o : SeqNum) : s.distance o < 2 ^ 32 := by
  rw [distance_eq]
  exact Nat.mod_lt _ (by decide)

/-! ## Offsets -/

@[simp] theorem add_zero (s : SeqNum) : s.add 0 = s := by
  apply ext_toNat
  have := s.val.toNat_lt
  rw [add_val_toNat]
  omega

theorem add_add (s : SeqNum) (m n : Nat) : (s.add m).add n = s.add (m + n) := by
  apply ext_toNat
  simp only [add_val_toNat]
  omega

theorem next_eq (s : SeqNum) : s.next = s.add 1 := rfl

theorem add_next (s : SeqNum) (n : Nat) : (s.add n).next = s.add (n + 1) := add_add s n 1

theorem distance_add (s : SeqNum) (n : Nat) : (s.add n).distance s = n % 2 ^ 32 := by
  have := s.val.toNat_lt
  rw [distance_eq, add_val_toNat]
  omega

theorem distance_add_of_lt (s : SeqNum) {n : Nat} (h : n < 2 ^ 32) :
    (s.add n).distance s = n := by
  rw [distance_add, Nat.mod_eq_of_lt h]

@[simp] theorem distance_self (s : SeqNum) : s.distance s = 0 := by
  simpa using distance_add s 0

@[simp] theorem add_distance (s o : SeqNum) : o.add (s.distance o) = s := by
  apply ext_toNat
  have := s.val.toNat_lt
  have := o.val.toNat_lt
  rw [add_val_toNat, distance_eq]
  omega

theorem distance_eq_zero_iff {s o : SeqNum} : s.distance o = 0 ↔ s = o := by
  constructor
  · intro h
    have hs := add_distance s o
    rwa [h, add_zero, eq_comm] at hs
  · rintro rfl
    exact distance_self s

/-- Of two numbers on the way forward from `s`, the distance is the difference of the offsets. -/
theorem distance_add_add (s : SeqNum) {i j : Nat} (hij : i ≤ j) (hj : j - i < 2 ^ 32) :
    (s.add j).distance (s.add i) = j - i := by
  have h : s.add j = (s.add i).add (j - i) := by rw [add_add, Nat.add_sub_cancel' hij]
  rw [h, distance_add_of_lt _ hj]

/-- Back to an earlier number the way leads round the rest of the circle. -/
theorem distance_add_add_of_lt (s : SeqNum) {i j : Nat} (hij : i < j) (hj : j - i < 2 ^ 32) :
    (s.add i).distance (s.add j) = 2 ^ 32 - (j - i) := by
  have h : s.add i = (s.add j).add (2 ^ 32 - (j - i)) := by
    apply ext_toNat
    simp only [add_val_toNat]
    omega
  rw [h, distance_add_of_lt _ (by omega)]

/-- Offsets below 2^32 name a number in one way only. -/
theorem add_inj (s : SeqNum) {i j : Nat} (hi : i < 2 ^ 32) (hj : j < 2 ^ 32) :
    s.add i = s.add j ↔ i = j := by
  constructor
  · intro h
    have hd := distance_add_of_lt s hi
    rwa [h, distance_add_of_lt s hj, eq_comm] at hd
  · rintro rfl
    rfl

/-! ## Order -/

/-- One number comes before another if the way forward to it is not empty and shorter than
half the circle. -/
theorem precedes_iff {a b : SeqNum} :
    a.precedes b ↔ 0 < b.distance a ∧ b.distance a < 2 ^ 31 := by
  have hab : a = b ↔ a.val.toNat = b.val.toNat :=
    ⟨fun h => h ▸ rfl, ext_toNat⟩
  have ha := a.val.toNat_lt
  have hb := b.val.toNat_lt
  simp only [precedes, order?, hab, distance_eq]
  split
  · simp only [beq_iff_eq, Option.some.injEq, reduceCtorEq, false_iff]
    omega
  · split
    · simp only [beq_self_eq_true, true_iff]
      omega
    · split
      · simp only [beq_iff_eq, Option.some.injEq, reduceCtorEq, false_iff]
        omega
      · simp only [beq_iff_eq, reduceCtorEq, false_iff]
        omega

theorem atMost_iff {a b : SeqNum} : a.atMost b ↔ a = b ∨ a.precedes b := by
  have heq : a.order? b = some .eq ↔ a = b := by
    unfold order?
    split
    · simp_all
    · split
      · simp_all
      · split <;> simp_all
  simp only [atMost, precedes, Bool.or_eq_true, beq_iff_eq, heq]
  exact or_comm

/-- Inside a half-circle the order of two numbers is the order of their offsets. -/
theorem precedes_add_add (s : SeqNum) {i j : Nat} (hi : i < 2 ^ 31) (hj : j < 2 ^ 31) :
    (s.add i).precedes (s.add j) ↔ i < j := by
  rw [precedes_iff]
  rcases Nat.lt_or_ge i j with h | h
  · rw [distance_add_add s (Nat.le_of_lt h) (by omega)]
    omega
  · rcases Nat.eq_or_lt_of_le h with rfl | hlt
    · rw [distance_self]
      omega
    · rw [distance_add_add_of_lt s hlt (by omega)]
      omega

theorem atMost_add_add (s : SeqNum) {i j : Nat} (hi : i < 2 ^ 31) (hj : j < 2 ^ 31) :
    (s.add i).atMost (s.add j) ↔ i ≤ j := by
  rw [atMost_iff, precedes_add_add s hi hj, add_inj s (by omega) (by omega)]
  omega

end SeqNum

namespace SeqRange

theorem size_ofSize (s : SeqNum) {n : Nat} (h : n < 2 ^ 32) : (ofSize s n).size = n :=
  SeqNum.distance_add_of_lt s h

theorem lower_add_size (r : SeqRange) : r.lower.add r.size = r.upper :=
  SeqNum.add_distance _ _

/-- A range holds the numbers on the way forward from its lower to its upper bound. -/
theorem contains_iff (r : SeqRange) (s : SeqNum) :
    r.contains s ↔ s.distance r.lower ≤ r.size := by
  have hs : s.toNat < 2 ^ 32 := s.val.toNat_lt
  have hl : r.lower.toNat < 2 ^ 32 := r.lower.val.toNat_lt
  have hu : r.upper.toNat < 2 ^ 32 := r.upper.val.toNat_lt
  have hway : s.distance r.lower ≤ r.size ↔
      (2 ^ 32 - r.lower.toNat + s.toNat) % 2 ^ 32 ≤
        (2 ^ 32 - r.lower.toNat + r.upper.toNat) % 2 ^ 32 := by
    rw [size, SeqNum.distance_eq, SeqNum.distance_eq]
    rfl
  rw [hway]
  by_cases hwraps : r.upper.toNat < r.lower.toNat
  · have hcontains : r.contains s ↔ s.toNat ≤ r.upper.toNat ∨ r.lower.toNat ≤ s.toNat := by
      simp [contains, wraps, hwraps]
    rw [hcontains]
    omega
  · have hcontains : r.contains s ↔ r.lower.toNat ≤ s.toNat ∧ s.toNat ≤ r.upper.toNat := by
      simp [contains, wraps, hwraps]
    rw [hcontains]
    omega

theorem contains_next_iff (s n : SeqNum) :
    (SeqRange.mk s s.next).contains n ↔ n = s ∨ n = s.next := by
  have hsize : (SeqRange.mk s s.next).size = 1 := size_ofSize s (by omega)
  rw [contains_iff, hsize, Nat.le_one_iff_eq_zero_or_eq_one, SeqNum.distance_eq_zero_iff]
  refine or_congr_right ⟨fun h => ?_, ?_⟩
  · have hn := SeqNum.add_distance n s
    rw [show n.distance s = 1 from h] at hn
    exact hn.symm
  · rintro rfl
    exact hsize

end SeqRange

end TcpGateway
