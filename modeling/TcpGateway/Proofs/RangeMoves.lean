import TcpGateway.Proofs.Circle
import TcpGateway.SeqRange.Run

/-!
# Ranges whose bounds move stay intervals

Seen from its lower bound a range is the interval of offsets up to its size, wherever on the circle
it lies (`contains_add_iff`), and a move takes numbers away in front or adds them behind
(`contains_lower`, `contains_upper`).  The lower bound is held back by the size, so it never passes
the upper one; the upper bound is not held back by anything but the limit of one move, and a range
that is nearly the whole circle loses its members when the upper bound runs into the lower.

Over a run both bounds are the old ones moved by what was granted (`Moved`).  As long as the size
leaves room for one more move, the members are the offsets between the two (`contains_run`).
-/

namespace TcpGateway

namespace SeqRange

/-! ## Members by offset -/

theorem contains_add_iff (r : SeqRange) {i : Nat} (hi : i < 2 ^ 32) :
    r.contains (r.lower.add i) ↔ i ≤ r.size := by
  rw [contains_iff, SeqNum.distance_add_of_lt _ hi]

theorem size_lt (r : SeqRange) : r.size < 2 ^ 32 := SeqNum.distance_lt _ _

/-- Every number has an offset from the lower bound. -/
theorem exists_offset (r : SeqRange) (x : SeqNum) : ∃ i, i < 2 ^ 32 ∧ x = r.lower.add i :=
  ⟨x.distance r.lower, SeqNum.distance_lt _ _, (SeqNum.add_distance _ _).symm⟩

/-- The range with its lower bound `n` steps further on. -/
def dropFront (r : SeqRange) (n : Nat) : SeqRange := { r with lower := r.lower.add n }

/-- The range with its upper bound `n` steps further on. -/
def growBack (r : SeqRange) (n : Nat) : SeqRange := { r with upper := r.upper.add n }

theorem size_dropFront (r : SeqRange) {n : Nat} (hn : n ≤ r.size) :
    (r.dropFront n).size = r.size - n := by
  have hlt := r.size_lt
  have hupper : (r.dropFront n).upper = r.lower.add r.size := r.lower_add_size.symm
  rw [size, hupper]
  exact SeqNum.distance_add_add _ hn (by omega)

theorem upper_growBack (r : SeqRange) (n : Nat) :
    (r.growBack n).upper = r.lower.add (r.size + n) := by
  rw [← SeqNum.add_add, lower_add_size]
  rfl

theorem size_growBack (r : SeqRange) {n : Nat} (hn : r.size + n < 2 ^ 32) :
    (r.growBack n).size = r.size + n := by
  rw [size, upper_growBack]
  exact SeqNum.distance_add_of_lt _ hn

/-- The numbers that stay are those that the new lower bound has not passed. -/
theorem contains_dropFront (r : SeqRange) {n : Nat} (hn : n ≤ r.size) (x : SeqNum) :
    (r.dropFront n).contains x ↔ r.contains x ∧ n ≤ x.distance r.lower := by
  have hsize := r.size_lt
  obtain ⟨i, hi, rfl⟩ := r.exists_offset x
  have hlower : (r.dropFront n).lower = r.lower.add n := rfl
  rw [contains_add_iff r hi, SeqNum.distance_add_of_lt _ hi, contains_iff, r.size_dropFront hn,
    hlower]
  rcases Nat.lt_or_ge i n with hpassed | hahead
  · -- a number just passed is nearly a whole turn ahead
    rw [SeqNum.distance_add_add_of_lt _ hpassed (by omega)]
    omega
  · rw [SeqNum.distance_add_add _ hahead (by omega)]
    omega

/-- The numbers that come in are the `n` behind the old upper bound. -/
theorem contains_growBack (r : SeqRange) {n : Nat} (hn : r.size + n < 2 ^ 32) (x : SeqNum) :
    (r.growBack n).contains x ↔
      r.contains x ∨ ∃ j, 0 < j ∧ j ≤ n ∧ x = r.upper.add j := by
  have hbehind : ∀ j, r.upper.add j = r.lower.add (r.size + j) := r.upper_growBack
  obtain ⟨i, hi, rfl⟩ := r.exists_offset x
  have hnew : (r.growBack n).contains (r.lower.add i) ↔ i ≤ (r.growBack n).size :=
    (r.growBack n).contains_add_iff hi
  rw [hnew, r.size_growBack hn, r.contains_add_iff hi]
  constructor
  · intro hin
    rcases Nat.lt_or_ge r.size i with hlate | hold
    · refine .inr ⟨i - r.size, by omega, by omega, ?_⟩
      rw [hbehind, Nat.add_sub_cancel' (by omega)]
    · exact .inl hold
  · rintro (hold | ⟨j, -, hj, hx⟩)
    · omega
    · rw [hbehind, SeqNum.add_inj _ hi (by omega)] at hx
      omega

theorem not_contains_behind (r : SeqRange) {j : Nat} (hpos : 0 < j) (hj : r.size + j < 2 ^ 32) :
    ¬ r.contains (r.upper.add j) := by
  have hbehind : r.upper.add j = r.lower.add (r.size + j) := r.upper_growBack j
  rw [hbehind, r.contains_add_iff hj]
  omega

/-! ## One move -/

theorem serve_lower (r : SeqRange) (n : Nat) :
    r.serve (.lower n) =
      if min maxMove r.size < n then (r, .error ⟨n, min maxMove r.size⟩)
      else (r.dropFront n, .ok ()) := by
  simp only [serve, raiseLower]
  by_cases h : min maxMove r.size < n
  · rw [if_pos h, if_pos h]
  · rw [if_neg h, if_neg h]
    rfl

theorem serve_upper (r : SeqRange) (n : Nat) :
    r.serve (.upper n) =
      if maxMove < n then (r, .error ⟨n, maxMove⟩) else (r.growBack n, .ok ()) := by
  simp only [serve, raiseUpper]
  by_cases h : maxMove < n
  · rw [if_pos h, if_pos h]
  · rw [if_neg h, if_neg h]
    rfl

theorem serve_of_error {r : SeqRange} {move : Move} {e : BoundError}
    (h : (r.serve move).2 = .error e) : (r.serve move).1 = r := by
  cases move <;> simp only [serve_lower, serve_upper] at h ⊢ <;> grind

theorem serve_lower_of_ok {r : SeqRange} {n : Nat} (h : (r.serve (.lower n)).2 = .ok ()) :
    (r.serve (.lower n)).1 = r.dropFront n ∧ n ≤ maxMove ∧ n ≤ r.size := by
  rw [serve_lower] at h ⊢
  grind

theorem serve_upper_of_ok {r : SeqRange} {n : Nat} (h : (r.serve (.upper n)).2 = .ok ()) :
    (r.serve (.upper n)).1 = r.growBack n ∧ n ≤ maxMove := by
  rw [serve_upper] at h ⊢
  grind

/-- The range is an interval on the circle, and a move changes it as an interval or not at all. -/
structure Circular (r : SeqRange) : Prop where
  members : ∀ x, r.contains x ↔ x.distance r.lower ≤ r.upper.distance r.lower
  /-- A move that is refused leaves both bounds as they were. -/
  refused : ∀ move e, (r.serve move).2 = .error e → (r.serve move).1 = r
  lower_refused : ∀ n e, (r.serve (.lower n)).2 = .error e ↔
    (65535 < n ∨ r.size < n) ∧ e = ⟨n, min 65535 r.size⟩
  upper_refused : ∀ n e, (r.serve (.upper n)).2 = .error e ↔ 65535 < n ∧ e = ⟨n, 65535⟩
  /-- The lower bound comes nearer to the upper one and does not pass it. -/
  lower_moved : ∀ n, (r.serve (.lower n)).2 = .ok () →
    (r.serve (.lower n)).1 = ⟨r.lower.add n, r.upper⟩ ∧ (r.serve (.lower n)).1.size + n = r.size
  lower_members : ∀ n, (r.serve (.lower n)).2 = .ok () → ∀ x,
    (r.serve (.lower n)).1.contains x ↔ r.contains x ∧ n ≤ x.distance r.lower
  upper_moved : ∀ n, (r.serve (.upper n)).2 = .ok () →
    (r.serve (.upper n)).1 = ⟨r.lower, r.upper.add n⟩
  /-- With room for any one move, the numbers that come in were not there before, and none goes. -/
  upper_members : r.size < 2 ^ 32 - 65535 → ∀ n, (r.serve (.upper n)).2 = .ok () →
    (∀ x, (r.serve (.upper n)).1.contains x ↔
      r.contains x ∨ ∃ j, 0 < j ∧ j ≤ n ∧ x = r.upper.add j) ∧
    ∀ j, 0 < j → j ≤ n → ¬ r.contains (r.upper.add j)

theorem circular (r : SeqRange) : Circular r where
  members := r.contains_iff
  refused _ _ := serve_of_error
  lower_refused n e := by
    rw [serve_lower, maxMove]
    grind
  upper_refused n e := by
    rw [serve_upper, maxMove]
    grind
  lower_moved n h := by
    obtain ⟨hmoved, -, hsize⟩ := serve_lower_of_ok h
    rw [hmoved, r.size_dropFront hsize]
    exact ⟨rfl, by omega⟩
  lower_members n h := by
    obtain ⟨hmoved, -, hsize⟩ := serve_lower_of_ok h
    rw [hmoved]
    exact r.contains_dropFront hsize
  upper_moved n h := (serve_upper_of_ok h).1
  upper_members hroom n h := by
    obtain ⟨hmoved, hn⟩ := serve_upper_of_ok h
    rw [maxMove] at hn
    rw [hmoved]
    exact ⟨r.contains_growBack (by omega),
      fun j hpos hj => r.not_contains_behind hpos (by omega)⟩

/-! ## A run of moves -/

/-- From `r` to `r'` the lower bound has moved by `low` steps and the upper one by `up`, and the
lower has not passed the upper. -/
structure Moved (r r' : SeqRange) (low up : Nat) : Prop where
  lower : r'.lower = r.lower.add low
  upper : r'.upper = r.upper.add up
  low_le : low ≤ r.size + up

theorem Moved.refl (r : SeqRange) : Moved r r 0 0 where
  lower := (SeqNum.add_zero _).symm
  upper := (SeqNum.add_zero _).symm
  low_le := Nat.zero_le _

/-- The size is what the two bounds leave between them, whole turns taken off. -/
theorem Moved.size_eq {r r' : SeqRange} {low up : Nat} (h : Moved r r' low up) :
    r'.size = (r.size + up - low) % 2 ^ 32 := by
  have hupper : r'.upper = (r.lower.add low).add (r.size + up - low) := by
    rw [SeqNum.add_add, Nat.add_sub_cancel' h.low_le, ← SeqNum.add_add, lower_add_size]
    exact h.upper
  rw [size, hupper, h.lower, SeqNum.distance_add]

theorem Moved.trans {r r' r'' : SeqRange} {low up low' up' : Nat} (h : Moved r r' low up)
    (h' : Moved r' r'' low' up') : Moved r r'' (low + low') (up + up') where
  lower := by rw [h'.lower, h.lower, SeqNum.add_add]
  upper := by rw [h'.upper, h.upper, SeqNum.add_add]
  low_le := by
    have hsize := h.size_eq
    have hle := h.low_le
    have hle' := h'.low_le
    have hmod := Nat.mod_le (r.size + up - low) (2 ^ 32)
    omega

theorem serve_moved (r : SeqRange) (move : Move) :
    Moved r (r.serve move).1 (r.lowerBy move) (r.upperBy move) := by
  cases hreply : (r.serve move).2 with
  | error e =>
    have hlow : r.lowerBy move = 0 := by cases move <;> simp only [lowerBy, hreply]
    have hup : r.upperBy move = 0 := by cases move <;> simp only [upperBy, hreply]
    rw [serve_of_error hreply, hlow, hup]
    exact .refl r
  | ok _ =>
    cases move with
    | lower n =>
      obtain ⟨hmoved, -, hsize⟩ := serve_lower_of_ok hreply
      simp only [lowerBy, upperBy, hreply, hmoved]
      exact ⟨rfl, (SeqNum.add_zero _).symm, hsize⟩
    | upper n =>
      obtain ⟨hmoved, -⟩ := serve_upper_of_ok hreply
      simp only [lowerBy, upperBy, hreply, hmoved]
      exact ⟨(SeqNum.add_zero _).symm, rfl, Nat.zero_le _⟩

theorem run_moved (r : SeqRange) (moves : List Move) :
    Moved r (r.run moves) (r.loweredBy moves) (r.upperedBy moves) := by
  induction moves generalizing r with
  | nil => exact .refl r
  | cons move moves ih => exact (r.serve_moved move).trans (ih (r.serve move).1)

/-- Before each move of the run the circle has room for the largest one. -/
def StaysRoomy (r : SeqRange) : List Move → Prop
  | [] => True
  | move :: moves => r.size < 2 ^ 32 - 65535 ∧ (r.serve move).1.StaysRoomy moves

instance decidableStaysRoomy (r : SeqRange) :
    (moves : List Move) → Decidable (r.StaysRoomy moves)
  | [] => inferInstanceAs (Decidable True)
  | move :: moves =>
    have := decidableStaysRoomy (r.serve move).1 moves
    inferInstanceAs (Decidable (_ ∧ _))

theorem size_serve {r : SeqRange} (hroom : r.size < 2 ^ 32 - 65535) (move : Move) :
    (r.serve move).1.size = r.size + r.upperBy move - r.lowerBy move := by
  have hup : r.upperBy move ≤ 65535 := by
    unfold upperBy
    split
    · rename_i n _ hreply
      exact (serve_upper_of_ok hreply).2
    · exact Nat.zero_le _
  rw [(r.serve_moved move).size_eq, Nat.mod_eq_of_lt (by omega)]

theorem size_run {r : SeqRange} {moves : List Move} (hroomy : r.StaysRoomy moves) :
    (r.run moves).size = r.size + r.upperedBy moves - r.loweredBy moves := by
  induction moves generalizing r with
  | nil => rfl
  | cons move moves ih =>
    have hrun := ih hroomy.2
    have hserve := size_serve hroomy.1 move
    have hle := (r.serve_moved move).low_le
    have hcons : r.run (move :: moves) = (r.serve move).1.run moves := rfl
    rw [hcons, hrun, upperedBy, loweredBy]
    omega

/-- As long as there was room, the members after a run are the offsets between the two bounds. -/
theorem contains_run {r : SeqRange} {moves : List Move} (hroomy : r.StaysRoomy moves) (x : SeqNum) :
    (r.run moves).contains x ↔
      ∃ i, r.loweredBy moves ≤ i ∧ i ≤ r.size + r.upperedBy moves ∧ x = r.lower.add i := by
  have hmoved := r.run_moved moves
  have hsize := size_run hroomy
  have hlt := (r.run moves).size_lt
  have hlow := hmoved.low_le
  have hlower : ∀ i, (r.run moves).lower.add i = r.lower.add (r.loweredBy moves + i) := fun i => by
    rw [hmoved.lower, SeqNum.add_add]
  constructor
  · intro hin
    rw [contains_iff] at hin
    refine ⟨r.loweredBy moves + x.distance (r.run moves).lower, by omega, by omega, ?_⟩
    rw [← hlower, SeqNum.add_distance]
  · rintro ⟨i, hfrom, hto, rfl⟩
    have hx := hlower (i - r.loweredBy moves)
    rw [Nat.add_sub_cancel' hfrom] at hx
    rw [← hx, contains_add_iff _ (by omega)]
    omega

/-- Wherever a run of moves has brought a range, it is an interval on the circle and its next move
changes it as one; its bounds stand where the moves granted have taken them, the lower one not past
the upper; and while there was room for every move its members are all offsets between. -/
theorem circular_run (r : SeqRange) (moves : List Move) :
    Circular (r.run moves) ∧
      Moved r (r.run moves) (r.loweredBy moves) (r.upperedBy moves) ∧
      (r.StaysRoomy moves →
        (r.run moves).size = r.size + r.upperedBy moves - r.loweredBy moves ∧
        ∀ x, (r.run moves).contains x ↔
          ∃ i, r.loweredBy moves ≤ i ∧ i ≤ r.size + r.upperedBy moves ∧ x = r.lower.add i) :=
  ⟨circular _, r.run_moved moves, fun hroomy => ⟨size_run hroomy, contains_run hroomy⟩⟩

/-- A range that comes to wrap and then wraps no more, with two of four moves refused. -/
theorem circular_run_wrapping :
    let r : SeqRange := ⟨⟨4294967290⟩, ⟨4294967294⟩⟩
    let moves : List Move := [.upper 10, .lower 20, .lower 9, .upper 70000]
    r.StaysRoomy moves ∧ r.run moves = ⟨⟨3⟩, ⟨8⟩⟩ ∧
      ∀ x, (r.run moves).contains x ↔ ∃ i, 9 ≤ i ∧ i ≤ 14 ∧ x = SeqNum.add ⟨4294967290⟩ i := by
  intro r moves
  have hroomy : r.StaysRoomy moves := by decide
  have hlow : r.loweredBy moves = 9 := by decide
  have hup : r.size + r.upperedBy moves = 14 := by decide
  have hmembers := ((circular_run r moves).2.2 hroomy).2
  rw [hlow, hup] at hmembers
  exact ⟨hroomy, by decide, hmembers⟩

end SeqRange

end TcpGateway
