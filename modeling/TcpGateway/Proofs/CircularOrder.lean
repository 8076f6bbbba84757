import TcpGateway.Proofs.Queue

/-!
# Where the comparison of sequence numbers is an order

Of two numbers the comparison takes the shorter way round the circle, so it is read off one
distance alone (`order?_eq`).  On a half-circle that is the order of the offsets, total and
transitive, from whichever number the offsets are counted (`OrderedFrom`).  Two numbers that no
half-circle holds are compared against their offsets, or not at all: the comparison agrees with the
offsets nowhere else (`order?_eq_compare_iff`).

A resend queue whose segments end on one half-circle with the acknowledgment therefore drops the
segments that end no further on than it (`ResendQueue.acknowledge_segments`), in whatever order they
are queued.
-/

namespace TcpGateway

namespace SeqNum

/-! ## One distance decides -/

/-- The way back is the rest of the circle. -/
theorem distance_comm (a b : SeqNum) : b.distance a = (2 ^ 32 - a.distance b) % 2 ^ 32 := by
  have ha := a.val.toNat_lt
  have hb := b.val.toNat_lt
  rw [distance_eq, distance_eq]
  omega

theorem order?_eq (a b : SeqNum) :
    a.order? b =
      if b.distance a = 0 then some .eq
      else if b.distance a < 2 ^ 31 then some .lt
      else if b.distance a = 2 ^ 31 then none
      else some .gt := by
  have hback := distance_comm b a
  have hlt := distance_lt b a
  have heq : a = b ↔ b.distance a = 0 := by rw [distance_eq_zero_iff, eq_comm]
  unfold order?
  by_cases hzero : b.distance a = 0
  · rw [if_pos (heq.mpr hzero), if_pos hzero]
  · rw [if_neg (mt heq.mp hzero), if_neg hzero]
    by_cases hless : b.distance a < 2 ^ 31
    · rw [if_pos hless, if_pos (by omega)]
    · rw [if_neg hless, if_neg (by omega)]
      by_cases hhalf : b.distance a = 2 ^ 31
      · rw [if_pos hhalf, if_neg (by omega)]
      · rw [if_neg hhalf, if_pos (by omega)]

theorem order?_swap (a b : SeqNum) : b.order? a = (a.order? b).map Ordering.swap := by
  have hback := distance_comm a b
  have hlt := distance_lt a b
  rw [order?_eq a b, order?_eq b a]
  grind [Ordering.swap]

theorem order?_eq_none_iff {a b : SeqNum} : a.order? b = none ↔ b.distance a = 2 ^ 31 := by
  rw [order?_eq]
  grind

/-! ## Half-circles -/

/-- `a` lies on the half-circle that starts at `s`. -/
def InHalf (s a : SeqNum) : Prop := a.distance s < 2 ^ 31

instance (s a : SeqNum) : Decidable (InHalf s a) := inferInstanceAs (Decidable (_ < _))

theorem inHalf_add (s : SeqNum) {i : Nat} (hi : i < 2 ^ 31) : InHalf s (s.add i) := by
  rw [InHalf, distance_add_of_lt s (by omega)]
  exact hi

/-- The comparison at any two offsets, on either side of the point where the numbers wrap. -/
theorem order?_eq_compare_iff (s : SeqNum) {i j : Nat} (hi : i < 2 ^ 32) (hj : j < 2 ^ 32) :
    (s.add i).order? (s.add j) = some (compare i j) ↔ i < j + 2 ^ 31 ∧ j < i + 2 ^ 31 := by
  rw [order?_eq]
  rcases Nat.lt_trichotomy i j with hlt | rfl | hgt
  · rw [distance_add_add s (by omega) (by omega), Nat.compare_eq_lt.mpr hlt]
    grind
  · rw [distance_self, Nat.compare_eq_eq.mpr rfl]
    grind
  · rw [distance_add_add_of_lt s hgt (by omega), Nat.compare_eq_gt.mpr hgt]
    grind

theorem order?_add_add (s : SeqNum) {i j : Nat} (hi : i < 2 ^ 31) (hj : j < 2 ^ 31) :
    (s.add i).order? (s.add j) = some (compare i j) :=
  (order?_eq_compare_iff s (by omega) (by omega)).mpr (by omega)

theorem order?_of_inHalf {s a b : SeqNum} (ha : InHalf s a) (hb : InHalf s b) :
    a.order? b = some (compare (a.distance s) (b.distance s)) := by
  have horder := order?_add_add s ha hb
  rwa [add_distance, add_distance] at horder

theorem precedes_of_inHalf {s a b : SeqNum} (ha : InHalf s a) (hb : InHalf s b) :
    a.precedes b ↔ a.distance s < b.distance s := by
  have hprecedes := precedes_add_add s ha hb
  rwa [add_distance, add_distance] at hprecedes

/-- The comparison orders the half-circle that starts at `s`, and numbers further apart it does not
order by their offsets. -/
structure OrderedFrom (s : SeqNum) : Prop where
  offsets : ∀ i j, i < 2 ^ 31 → j < 2 ^ 31 → (s.add i).order? (s.add j) = some (compare i j)
  onlyThere : ∀ i j, i < 2 ^ 32 → j < 2 ^ 32 →
    ((s.add i).order? (s.add j) = some (compare i j) ↔ i < j + 2 ^ 31 ∧ j < i + 2 ^ 31)
  total : ∀ a b, InHalf s a → InHalf s b → a.precedes b ∨ a = b ∨ b.precedes a
  trans : ∀ a b c, InHalf s a → InHalf s b → InHalf s c →
    a.precedes b → b.precedes c → a.precedes c
  /-- Counted from another start the offsets stand in the same order. -/
  rebased : ∀ t a b, InHalf s a → InHalf s b → InHalf t a → InHalf t b →
    compare (a.distance t) (b.distance t) = compare (a.distance s) (b.distance s)

theorem orderedFrom (s : SeqNum) : OrderedFrom s where
  offsets _ _ hi hj := order?_add_add s hi hj
  onlyThere _ _ hi hj := order?_eq_compare_iff s hi hj
  total a b ha hb := by
    rw [precedes_of_inHalf ha hb, precedes_of_inHalf hb ha]
    rcases Nat.lt_trichotomy (a.distance s) (b.distance s) with hlt | heq | hgt
    · exact .inl hlt
    · have hsame := add_distance a s
      rw [heq, add_distance] at hsame
      exact .inr (.inl hsame.symm)
    · exact .inr (.inr hgt)
  trans a b c ha hb hc := by
    rw [precedes_of_inHalf ha hb, precedes_of_inHalf hb hc, precedes_of_inHalf ha hc]
    exact Nat.lt_trans
  rebased t a b ha hb ha' hb' :=
    Option.some_inj.mp ((order?_of_inHalf ha' hb').symm.trans (order?_of_inHalf ha hb))

/-- Round the whole circle it is no order: each of three numbers precedes the next, and the last
precedes the first. -/
example : precedes ⟨0⟩ ⟨1431655765⟩ ∧ precedes ⟨1431655765⟩ ⟨2863311530⟩ ∧
    precedes ⟨2863311530⟩ ⟨0⟩ := by
  decide

end SeqNum

open SeqNum

theorem SentSegment.isCoveredBy_of_inHalf {x : SentSegment} {s ack : SeqNum}
    (hstop : InHalf s x.stop) (hack : InHalf s ack) :
    x.isCoveredBy ack ↔ x.stop.distance s ≤ ack.distance s := by
  have hcovered := isCoveredBy_iff (add_distance x.stop s).symm hstop hack
  rwa [add_distance] at hcovered

theorem ResendQueue.acknowledge_segments (q : ResendQueue) {s ack : SeqNum} (hack : InHalf s ack)
    (hstops : ∀ x ∈ q.segments, InHalf s x.stop) :
    (q.acknowledge ack).segments =
      q.segments.filter fun x => ack.distance s < x.stop.distance s := by
  refine List.filter_congr fun x hx => ?_
  have hcovered := SentSegment.isCoveredBy_of_inHalf (hstops x hx) hack
  rw [Bool.eq_iff_iff, Bool.not_eq_true', decide_eq_true_eq, ← Nat.not_le, ← hcovered,
    Bool.not_eq_true]

/-- The comparison is the order of the offsets on every half-circle and only there.  Two numbers
swapped are compared the other way round, and two half the circle apart are the only ones not
compared.  A queue whose segments end on one half-circle with an acknowledgment drops those that end
no further on. -/
theorem SeqNum.ordered_byOffset :
    (∀ s, OrderedFrom s) ∧
      (∀ a b : SeqNum, a.order? b = (b.order? a).map Ordering.swap) ∧
      (∀ a b : SeqNum, a.order? b = none ↔ b.distance a = 2 ^ 31) ∧
      (∀ a b : SeqNum, a.order? b = some .lt ↔ 0 < b.distance a ∧ b.distance a < 2 ^ 31) ∧
      ∀ (q : ResendQueue) (s ack : SeqNum), InHalf s ack → (∀ x ∈ q.segments, InHalf s x.stop) →
        (q.acknowledge ack).segments =
          q.segments.filter fun x => ack.distance s < x.stop.distance s := by
  refine ⟨orderedFrom, fun a b => order?_swap b a, fun _ _ => order?_eq_none_iff, fun a b => ?_,
    fun q _ _ hack hstops => q.acknowledge_segments hack hstops⟩
  rw [← precedes_iff, precedes, beq_iff_eq]

/-- Three segments around the end of the number space, the last of them queued first. -/
theorem SeqNum.ordered_byOffset_wrapped :
    let segment (lower upper : UInt32) : SentSegment := .ofData [] ⟨⟨lower⟩, ⟨upper⟩⟩ 0
    let q : ResendQueue := ⟨100, [segment 1 2147483600, segment 4294967290 4294967295,
      segment 4294967295 1]⟩
    InHalf ⟨4294967290⟩ ⟨1⟩ ∧ (∀ x ∈ q.segments, InHalf ⟨4294967290⟩ x.stop) ∧
      (q.acknowledge ⟨1⟩).segments = [segment 1 2147483600] := by
  intro segment q
  have hack : InHalf ⟨4294967290⟩ ⟨1⟩ := by decide
  have hstops : ∀ x ∈ q.segments, InHalf ⟨4294967290⟩ x.stop := by decide
  refine ⟨hack, hstops, ?_⟩
  rw [ordered_byOffset.2.2.2.2 q _ _ hack hstops]
  decide

end TcpGateway
