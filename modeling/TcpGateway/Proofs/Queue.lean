import Mathlib.Data.List.Chain
import TcpGateway.Proofs.Circle
import TcpGateway.Resend

/-!
# The resend queue covers what is in flight

A `Chain` is a list of segments without a gap: each ends where the next begins, and none is
empty.  `Covers q una nxt` says that the queue `q` is such a chain up to `nxt` whose first segment
holds `una`; the segment may reach back behind `una`, since a partly acknowledged segment stays
whole.

The queue is filtered by a comparison on the circle.  `Chain.filter` shows that the filter drops
exactly a front of the chain, and this is where the bound on what is in flight is needed: all ends
and the acknowledgment have offsets in one half-circle.
-/

namespace TcpGateway

namespace SentSegment

/-- Whether `n` is one of the numbers that the segment occupies. -/
def holds (x : SentSegment) (n : SeqNum) : Bool := n.distance x.seq < x.range.size

theorem stop_eq (x : SentSegment) : x.stop = x.seq.add x.range.size :=
  (x.range.lower_add_size).symm

theorem isCoveredBy_iff {x : SentSegment} {o : SeqNum} {i j : Nat} (hstop : x.stop = o.add i)
    (hi : i < 2 ^ 31) (hj : j < 2 ^ 31) : x.isCoveredBy (o.add j) ↔ i ≤ j := by
  rw [isCoveredBy, Bool.or_eq_true, beq_iff_eq, hstop, SeqNum.precedes_add_add o hi hj,
    SeqNum.add_inj o (by omega) (by omega)]
  omega

theorem holds_iff {x : SentSegment} {o : SeqNum} {i k : Nat} (hseq : x.seq = o.add k)
    (hk : k + x.range.size < 2 ^ 32) (hi : i < 2 ^ 32) :
    x.holds (o.add i) ↔ k ≤ i ∧ i < k + x.range.size := by
  rw [holds, decide_eq_true_eq, hseq]
  rcases Nat.lt_or_ge i k with h | h
  · rw [SeqNum.distance_add_add_of_lt o h (by omega)]
    omega
  · rw [SeqNum.distance_add_add o h (by omega)]
    omega

end SentSegment

namespace ResendQueue

/-- How many numbers the segments occupy together. -/
def span : List SentSegment → Nat
  | [] => 0
  | x :: q => x.range.size + span q

@[simp] theorem span_nil : span [] = 0 := rfl

@[simp] theorem span_cons (x : SentSegment) (q : List SentSegment) :
    span (x :: q) = x.range.size + span q := rfl

@[simp] theorem span_append (q r : List SentSegment) : span (q ++ r) = span q + span r := by
  induction q with
  | nil => simp
  | cons x q ih => rw [List.cons_append, span_cons, ih, span_cons, Nat.add_assoc]

/-- Segments that are not empty and follow each other without a gap, from `s` up to `t`. -/
inductive Chain : SeqNum → List SentSegment → SeqNum → Prop
  | nil (s : SeqNum) : Chain s [] s
  | cons {x : SentSegment} {q : List SentSegment} {t : SeqNum} (pos : 0 < x.range.size)
      (rest : Chain x.stop q t) : Chain x.seq (x :: q) t

namespace Chain

variable {s t : SeqNum} {q : List SentSegment}

theorem cons_iff {x : SentSegment} :
    Chain s (x :: q) t ↔ x.seq = s ∧ 0 < x.range.size ∧ Chain x.stop q t := by
  constructor
  · intro h
    cases h with
    | cons pos rest => exact ⟨rfl, pos, rest⟩
  · rintro ⟨rfl, pos, rest⟩
    exact .cons pos rest

theorem stop_eq (h : Chain s q t) : t = s.add (span q) := by
  induction h with
  | nil s => simp
  | @cons x q t pos rest ih =>
    rw [ih, x.stop_eq, SeqNum.add_add, span_cons]

theorem pos (h : Chain s q t) : ∀ x ∈ q, 0 < x.range.size := by
  induction h with
  | nil s => simp
  | cons pos rest ih => exact List.forall_mem_cons.mpr ⟨pos, ih⟩

theorem span_pos (h : Chain s q t) (hne : q ≠ []) : 0 < span q := by
  cases h with
  | nil => contradiction
  | cons pos rest =>
    rw [span_cons]
    omega

theorem concat (h : Chain s q t) {x : SentSegment} (hseq : x.seq = t) (pos : 0 < x.range.size) :
    Chain s (q ++ [x]) x.stop := by
  induction h with
  | nil s => exact hseq ▸ .cons pos (.nil _)
  | cons pos' rest ih => exact .cons pos' (ih hseq)

/-- The chain behind the front `q` starts where the front ends. -/
theorem of_append {r : List SentSegment} (h : Chain s (q ++ r) t) : Chain (s.add (span q)) r t := by
  induction q generalizing s with
  | nil => simpa using h
  | cons x q ih =>
    obtain ⟨rfl, -, rest⟩ := cons_iff.mp h
    have hr := ih rest
    rwa [x.stop_eq, SeqNum.add_add, ← span_cons] at hr

theorem isChain (h : Chain s q t) : q.IsChain fun a b => a.stop = b.seq := by
  induction h with
  | nil s => exact .nil
  | @cons x q t pos rest ih =>
    cases q with
    | nil => exact .singleton x
    | cons y q => exact .cons_cons (cons_iff.mp rest).1.symm ih

theorem getLast_stop (h : Chain s q t) : ∀ x ∈ q.getLast?, x.stop = t := by
  induction h with
  | nil s => simp
  | @cons x q t pos rest ih =>
    cases q with
    | nil => simpa using rest.stop_eq.symm
    | cons y q => simpa using ih

/-- Only the last segment ends where the chain ends. -/
theorem eq_nil_of_stop {x : SentSegment} {r : List SentSegment}
    (h : Chain s (q ++ x :: r) t) (hspan : span (q ++ x :: r) < 2 ^ 32) (hstop : x.stop = t) :
    r = [] := by
  by_contra hne
  obtain ⟨-, -, rest⟩ := cons_iff.mp h.of_append
  have hpos := rest.span_pos hne
  have hend := rest.stop_eq
  simp only [span_append, span_cons] at hspan
  rw [hstop] at hend
  have hzero : (t.add (span r)).distance t = 0 := by rw [← hend, SeqNum.distance_self]
  rw [SeqNum.distance_add_of_lt t (by omega)] at hzero
  omega

/-- No segment of a chain starts where the chain ends. -/
theorem seq_ne (h : Chain s q t) (hspan : span q < 2 ^ 32) {x : SentSegment} (hx : x ∈ q) :
    x.seq ≠ t := by
  obtain ⟨front, rest, rfl⟩ := List.append_of_mem hx
  obtain ⟨hseq, hpos, -⟩ := cons_iff.mp h.of_append
  have hend := h.stop_eq
  simp only [span_append, span_cons] at hspan hend
  rw [hseq, hend, Ne, SeqNum.add_inj s (by omega) hspan]
  omega

/-- Of the numbers in one half-circle, each one of the chain's is held once and no other is. -/
theorem countP_holds {o : SeqNum} {k : Nat} (h : Chain (o.add k) q t)
    (hk : k + span q < 2 ^ 32) {i : Nat} (hi : i < 2 ^ 32) :
    q.countP (·.holds (o.add i)) = if k ≤ i ∧ i < k + span q then 1 else 0 := by
  induction q generalizing k with
  | nil =>
    rw [List.countP_nil, if_neg]
    simp only [span_nil]
    omega
  | cons x q ih =>
    obtain ⟨hseq, pos, rest⟩ := cons_iff.mp h
    rw [span_cons] at hk ⊢
    rw [x.stop_eq, hseq, SeqNum.add_add] at rest
    have hx := SentSegment.holds_iff (i := i) hseq (by omega) hi
    rw [List.countP_cons, ih rest (by omega)]
    by_cases hin : k ≤ i ∧ i < k + x.range.size
    · rw [if_neg (by omega), if_pos (hx.mpr hin), if_pos (by omega)]
    · rw [if_neg (fun hc => hin (hx.mp hc))]
      by_cases hlater : k + x.range.size ≤ i ∧ i < k + x.range.size + span q
      · rw [if_pos hlater, if_pos (by omega)]
      · rw [if_neg hlater, if_neg (by omega)]

/-- No other segment of a chain starts where the first one does. -/
theorem seq_ne_head {x : SentSegment} (h : Chain s (x :: q) t) (hspan : span (x :: q) < 2 ^ 32) :
    ∀ y ∈ q, y.seq ≠ x.seq := by
  have hpos := h.pos
  obtain ⟨rfl, hx, -⟩ := cons_iff.mp h
  rw [← SeqNum.add_zero x.seq] at h
  have hone := h.countP_holds (by omega) (i := 0) (by decide)
  have hself : x.holds (x.seq.add 0) := by
    rw [SeqNum.add_zero, SentSegment.holds, SeqNum.distance_self]
    simpa using hx
  rw [span_cons, if_pos (by omega), List.countP_cons, if_pos hself] at hone
  have hnone : q.countP (·.holds (x.seq.add 0)) = 0 := by omega
  intro y hy hseq
  refine List.countP_eq_zero.mp hnone y hy ?_
  rw [SeqNum.add_zero, ← hseq, SentSegment.holds, SeqNum.distance_self]
  simpa using hpos y (List.mem_cons_of_mem _ hy)

/-- An acknowledgment before the chain covers none of it. -/
theorem not_covered {o : SeqNum} {k y : Nat} (h : Chain (o.add k) q t)
    (hk : k + span q < 2 ^ 31) (hy : y ≤ k) : ∀ x ∈ q, ¬ x.isCoveredBy (o.add y) := by
  induction q generalizing k with
  | nil => simp
  | cons x q ih =>
    obtain ⟨hseq, pos, rest⟩ := cons_iff.mp h
    rw [span_cons] at hk
    have hstop : x.stop = o.add (k + x.range.size) := by rw [x.stop_eq, hseq, SeqNum.add_add]
    rw [hstop] at rest
    refine List.forall_mem_cons.mpr ⟨?_, ih rest (by omega) (by omega)⟩
    rw [SentSegment.isCoveredBy_iff hstop (by omega) (by omega)]
    omega

end Chain

/-! ## Covering what is in flight -/

/-- The queue is a chain up to `nxt`, and its first segment holds `una` unless nothing is in
flight.  `lead` counts the acknowledged numbers of that segment. -/
def Covers (q : List SentSegment) (una nxt : SeqNum) : Prop :=
  ∃ start lead, Chain start q nxt ∧ una = start.add lead ∧ span q = lead + nxt.distance una ∧
    ∀ x ∈ q.head?, lead < x.range.size

namespace Covers

variable {q : List SentSegment} {una nxt : SeqNum}

theorem nil (s : SeqNum) : Covers [] s s := ⟨s, 0, .nil s, by simp⟩

/-- The queue is empty exactly when nothing is in flight. -/
theorem eq_nil_iff (h : Covers q una nxt) : q = [] ↔ una = nxt := by
  obtain ⟨start, lead, hchain, -, hspan, hhead⟩ := h
  constructor
  · rintro rfl
    rw [span_nil] at hspan
    exact (SeqNum.distance_eq_zero_iff.mp (by omega)).symm
  · rintro rfl
    rw [SeqNum.distance_self] at hspan
    cases q with
    | nil => rfl
    | cons x q =>
      have := hhead x rfl
      rw [span_cons] at hspan
      omega

/-- The first segment may reach back behind `una`, but all others lie ahead. -/
theorem span_lt (h : Covers q una nxt) {m : Nat} (hm : ∀ x ∈ q, x.range.size ≤ m) :
    span q ≤ m + nxt.distance una := by
  obtain ⟨start, lead, -, -, hspan, hhead⟩ := h
  cases q with
  | nil => simp
  | cons x q =>
    have := hhead x rfl
    have := hm x List.mem_cons_self
    omega

theorem add (h : Covers q una nxt) {x : SentSegment} (hseq : x.seq = nxt)
    (hpos : 0 < x.range.size) (hlt : nxt.distance una + x.range.size < 2 ^ 32) :
    Covers (q ++ [x]) una x.stop := by
  obtain ⟨start, lead, hchain, huna, hspan, hhead⟩ := h
  refine ⟨start, lead, hchain.concat hseq hpos, huna, ?_, ?_⟩
  · have hdist : x.stop.distance una = nxt.distance una + x.range.size := by
      have hnxt : nxt = una.add (nxt.distance una) := (SeqNum.add_distance nxt una).symm
      rw [x.stop_eq, hseq]
      conv_lhs => rw [hnxt, SeqNum.add_add, SeqNum.distance_add_of_lt una hlt]
    rw [hdist, span_append, span_cons, span_nil]
    omega
  · cases q with
    | nil =>
      rw [span_nil] at hspan
      intro y hy
      obtain rfl : y = x := by simpa using hy.symm
      omega
    | cons z q => simpa using hhead

/-- Sending the oldest segment again changes no number. -/
theorem resent {x : SentSegment} (now : Nat) (h : Covers (x :: q) una nxt) :
    Covers ({ x with sentAt := now } :: q) una nxt := by
  obtain ⟨start, lead, hchain, huna, hspan, hhead⟩ := h
  cases hchain with
  | cons pos rest =>
    exact ⟨_, lead, .cons (x := { x with sentAt := now }) pos rest, huna, hspan, by
      simpa using hhead⟩

end Covers

/-- An acknowledgment `y` numbers into a chain drops the segments it covers whole, and what is
left covers all from there on. -/
theorem Chain.filter {s t : SeqNum} {q : List SentSegment} (h : Chain s q t)
    (hspan : span q < 2 ^ 31) {y : Nat} (hy : y ≤ span q) :
    Covers (q.filter fun x => !x.isCoveredBy (s.add y)) (s.add y) t := by
  induction h generalizing y with
  | nil s =>
    rw [span_nil] at hy
    obtain rfl : y = 0 := by omega
    simpa using Covers.nil s
  | @cons x q t pos rest ih =>
    rw [span_cons] at hspan hy
    have hcov : x.isCoveredBy (x.seq.add y) ↔ x.range.size ≤ y :=
      SentSegment.isCoveredBy_iff x.stop_eq (by omega) (by omega)
    by_cases hle : x.range.size ≤ y
    · rw [List.filter_cons_of_neg (by simp [hcov.mpr hle])]
      have hrest := ih (by omega) (y := y - x.range.size) (by omega)
      rwa [x.stop_eq, SeqNum.add_add, Nat.add_sub_cancel' hle] at hrest
    · have hnot : x.isCoveredBy (x.seq.add y) = false := Bool.eq_false_iff.mpr (mt hcov.mp hle)
      have hkeep : q.filter (fun z => !z.isCoveredBy (x.seq.add y)) = q := by
        rw [x.stop_eq] at rest
        rw [List.filter_eq_self]
        intro z hz
        simpa using rest.not_covered (by omega) (by omega) z hz
      rw [List.filter_cons_of_pos (by simp [hnot]), hkeep]
      have ht : t = x.seq.add (x.range.size + span q) := by
        rw [rest.stop_eq, x.stop_eq, SeqNum.add_add]
      refine ⟨x.seq, y, .cons pos rest, rfl, ?_, ?_⟩
      · rw [ht, SeqNum.distance_add_add _ hy (by omega), span_cons]
        omega
      · simpa using Nat.lt_of_not_le hle

namespace Covers

variable {q : List SentSegment} {una nxt : SeqNum}

/-- After an acknowledgment of numbers in flight the queue covers what is still in flight. -/
theorem acknowledge (h : Covers q una nxt) (hspan : span q < 2 ^ 31) {ack : SeqNum}
    (hack : ack.distance una ≤ nxt.distance una) :
    Covers (q.filter fun x => !x.isCoveredBy ack) ack nxt := by
  obtain ⟨start, lead, hchain, huna, hsum, -⟩ := h
  have hat : ack = start.add (lead + ack.distance una) := by
    rw [← SeqNum.add_add, ← huna, SeqNum.add_distance]
  have hfiltered := hchain.filter hspan (y := lead + ack.distance una) (by omega)
  rwa [← hat] at hfiltered

/-- Every segment of the queue ends ahead of `una`. -/
theorem precedes_stop (h : Covers q una nxt) (hspan : span q < 2 ^ 31) :
    ∀ x ∈ q, una.precedes x.stop := by
  obtain ⟨start, lead, hchain, huna, hsum, hhead⟩ := h
  intro x hx
  obtain ⟨front, rest, rfl⟩ := List.append_of_mem hx
  obtain ⟨hseq, hpos, -⟩ := Chain.cons_iff.mp hchain.of_append
  have hlead : lead < span front + x.range.size := by
    cases front with
    | nil => simpa using hhead x rfl
    | cons y front =>
      have hy := hhead y rfl
      rw [span_cons]
      omega
  simp only [span_append, span_cons] at hspan
  rw [x.stop_eq, hseq, SeqNum.add_add, huna]
  exact (SeqNum.precedes_add_add start (by omega) (by omega)).mpr hlead

/-- The first segment holds `una`. -/
theorem head (h : Covers q una nxt) (hspan : span q < 2 ^ 31) :
    ∀ x ∈ q.head?, x.seq.atMost una ∧ una.precedes x.stop := by
  intro x hx
  refine ⟨?_, h.precedes_stop hspan x (List.mem_of_mem_head? hx)⟩
  obtain ⟨start, lead, hchain, huna, hsum, hhead⟩ := h
  have hlead := hhead x hx
  cases hchain with
  | nil => cases hx
  | @cons y q _ pos rest =>
    obtain rfl : y = x := by simpa using hx
    rw [span_cons] at hspan
    have h0 := SeqNum.atMost_add_add y.seq (i := 0) (j := lead) (by omega) (by omega)
    rw [SeqNum.add_zero] at h0
    rw [huna]
    exact h0.mpr (Nat.zero_le _)

/-- Each number in flight is held by one segment of the queue. -/
theorem countP_holds (h : Covers q una nxt) (hspan : span q < 2 ^ 31) {n : SeqNum}
    (hn : n.distance una < nxt.distance una) : q.countP (·.holds n) = 1 := by
  obtain ⟨start, lead, hchain, huna, hsum, -⟩ := h
  have hat : n = start.add (lead + n.distance una) := by
    rw [← SeqNum.add_add, ← huna, SeqNum.add_distance]
  have hstart : start = start.add 0 := (SeqNum.add_zero start).symm
  rw [hstart] at hchain
  rw [hat, hchain.countP_holds (by omega) (by omega), if_pos (by omega)]

theorem seq_ne (h : Covers q una nxt) (hspan : span q < 2 ^ 31) {x : SentSegment} (hx : x ∈ q) :
    x.seq ≠ nxt := by
  obtain ⟨start, lead, hchain, -, -, -⟩ := h
  exact hchain.seq_ne (by omega) hx

/-- No segment of the queue is acknowledged as a whole. -/
theorem not_covered (h : Covers q una nxt) (hspan : span q < 2 ^ 31) :
    ∀ x ∈ q, ¬ x.isCoveredBy una := by
  obtain ⟨start, lead, hchain, huna, hsum, hhead⟩ := h
  cases hchain with
  | nil => simp
  | @cons x q _ pos rest =>
    have hlead := hhead x rfl
    rw [span_cons] at hspan
    rw [x.stop_eq] at rest
    rw [huna]
    refine List.forall_mem_cons.mpr ⟨?_, rest.not_covered (by omega) (by omega)⟩
    rw [SentSegment.isCoveredBy_iff x.stop_eq (by omega) (by omega)]
    omega

end Covers

/-- The queue offers the oldest segment, and marks it when it is sent again. -/
theorem due_eq_ok {q : ResendQueue} {now : Nat} {x : SentSegment} (h : q.due now = .ok x) :
    ∃ rest, q.segments = x :: rest ∧
      q.markResent x.seq now = .ok { q with segments := { x with sentAt := now } :: rest } := by
  unfold due at h
  split at h
  · cases h
  · rename_i oldest rest hq
    split at h
    · cases h
      refine ⟨rest, hq, ?_⟩
      rw [markResent, hq, markResent.refresh, if_pos rfl]
      rfl
    · cases h

end ResendQueue

end TcpGateway
