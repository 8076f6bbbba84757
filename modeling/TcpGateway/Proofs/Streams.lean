import TcpGateway.Downlink
import TcpGateway.Proofs.Circle
import TcpGateway.Uplink

/-!
# What the buffer and the two streams do

One equation or inversion lemma for each operation, so that nothing later unfolds it.  The
downlink is described by two numbers, the length of its buffer and `inFlight`, and by the bytes
that wait behind those in flight (`Downlink.waiting`).  The next range to send always lies inside
the buffer, so reading and marking it cannot fail (`read_next`, `markSent_next`).
-/

namespace TcpGateway

namespace Buffer

/-- The buffer holds no more than its capacity `n`. -/
structure Bounded (b : Buffer) (n : Nat) : Prop where
  capacity : b.capacity = some n
  length_le : b.length ≤ n

theorem write_eq_ok {b b' : Buffer} {data : Bytes} (h : b.write data = .ok b') :
    b' = { b with bytes := b.bytes ++ data } ∧ b.fits data.length := by
  unfold write at h
  split at h
  · cases h
  · split at h
    · cases h
      exact ⟨rfl, by assumption⟩
    · cases h

/-- A piecewise write puts in the bytes in front of the rest that it answers. -/
theorem writeSome_eq_ok {b b' : Buffer} {data rest : Bytes}
    (h : b.writeSome data = .ok (b', rest)) :
    ∃ piece, data = piece ++ rest ∧ b' = { b with bytes := b.bytes ++ piece } ∧
      b.fits piece.length := by
  unfold writeSome at h
  split at h
  · cases h
  · split at h
    · rename_i hfits
      cases h
      exact ⟨data, by simp, rfl, hfits⟩
    · cases h
      refine ⟨data.take b.available, by simp, rfl, ?_⟩
      unfold fits
      split
      · rfl
      · rw [List.length_take, decide_eq_true_eq]
        exact Nat.min_le_left _ _

/-- Only a closed buffer refuses a piecewise write. -/
theorem closed_of_writeSome {b : Buffer} {data : Bytes} {e : StreamError}
    (h : b.writeSome data = .error e) : b.closed := by
  unfold writeSome at h
  by_cases hclosed : b.closed
  · exact hclosed
  · rw [if_neg hclosed] at h
    split at h <;> cases h

theorem open_of_writeSome {b b' : Buffer} {data rest : Bytes}
    (h : b.writeSome data = .ok (b', rest)) : b.closed = false := by
  by_cases hclosed : b.closed
  · rw [writeSome, if_pos hclosed] at h
    cases h
  · exact Bool.eq_false_iff.mpr hclosed

/-- What is left of a piecewise write found no room. -/
theorem writeSome_full {b b' : Buffer} {data rest : Bytes}
    (h : b.writeSome data = .ok (b', rest)) (hrest : rest ≠ []) : b'.available = 0 := by
  unfold writeSome at h
  split at h
  · cases h
  · split at h
    · cases h
      exact absurd rfl hrest
    · rename_i hfits
      cases h
      cases hc : b.capacity with
      | none => simp [fits, hc] at hfits
      | some capacity =>
        simp only [fits, available, length, hc, decide_eq_true_eq] at hfits
        simp only [available, length, hc, List.length_append, List.length_take]
        omega

/-- The buffer is bounded and has no room left. -/
def IsFull (b : Buffer) : Prop := ∃ capacity, b.capacity = some capacity ∧ b.available = 0

/-- A piecewise write that has bytes left has found a bounded buffer and filled it. -/
theorem isFull_of_writeSome {b b' : Buffer} {data rest : Bytes}
    (h : b.writeSome data = .ok (b', rest)) (hrest : rest ≠ []) :
    b'.IsFull ∧ b'.closed = false := by
  have hroom := writeSome_full h hrest
  have hopen := open_of_writeSome h
  obtain ⟨piece, -, rfl, -⟩ := writeSome_eq_ok h
  refine ⟨?_, hopen⟩
  unfold IsFull
  cases hc : b.capacity with
  | none => simp [available, hc, maxCount] at hroom
  | some capacity => exact ⟨capacity, rfl, hc ▸ hroom⟩

theorem discard_eq_ok {b b' : Buffer} {n : Nat} (h : b.discard n = .ok b') :
    b' = { b with bytes := b.bytes.drop n } ∧ n ≤ b.length := by
  unfold discard at h
  split at h
  · cases h
  · cases h
    exact ⟨rfl, by omega⟩

/-- A peek answers the bytes that it addresses if they are all there. -/
theorem peek_eq {b : Buffer} {offset count : Nat}
    (hbound : offset + count ≤ maxCount ∨ b.length < maxCount) :
    b.peek offset count =
      if offset + count ≤ b.length then .ok ((b.bytes.drop offset).take count)
      else .error (.notEnough (min (offset + count) maxCount) b.length) := by
  simp only [peek]
  by_cases hheld : offset + count ≤ b.length
  · have hstop : min (offset + count) maxCount = offset + count := by omega
    rw [if_pos hheld, hstop, if_neg (by omega), Nat.add_sub_cancel_left]
  · rw [if_neg hheld, if_pos (by omega)]

theorem Bounded.append {b : Buffer} {n : Nat} {data : Bytes} (h : b.Bounded n)
    (hfits : b.fits data.length) : ({ b with bytes := b.bytes ++ data } : Buffer).Bounded n := by
  refine ⟨h.capacity, ?_⟩
  have hle := h.length_le
  simp only [fits, available, h.capacity, decide_eq_true_eq] at hfits
  simp only [length, List.length_append] at hfits hle ⊢
  omega

theorem Bounded.drop {b : Buffer} {n : Nat} (k : Nat) (h : b.Bounded n) :
    ({ b with bytes := b.bytes.drop k } : Buffer).Bounded n := by
  refine ⟨h.capacity, ?_⟩
  have hle := h.length_le
  simp only [length, List.length_drop] at hle ⊢
  omega

theorem bounded_empty (n : Nat) : (Buffer.bounded n).Bounded n :=
  ⟨rfl, Nat.zero_le n⟩

end Buffer

namespace Downlink

variable (d : Downlink)

theorem inFlight_lt : d.inFlight < 2 ^ 32 := SeqNum.distance_lt _ _

theorem buffered_le : d.buffered ≤ d.buffer.length := Nat.min_le_left _ _

theorem size_range : d.range.size = d.buffered := by
  apply SeqRange.size_ofSize
  simp only [buffered]
  omega

theorem size_clientRange (window : UInt16) : (d.clientRange window).size = window.toNat := by
  have := window.toNat_lt
  exact SeqRange.size_ofSize _ (by omega)

theorem unsent_eq : d.unsent = d.buffered - d.inFlight := by
  rw [unsent, size_range]

theorem buffered_of_short (h : d.buffer.length < 2 ^ 32) : d.buffered = d.buffer.length := by
  simp only [buffered]
  omega

theorem buffered_eq_length {n : Nat} (h : d.buffer.Bounded n) (hn : n < 2 ^ 32) :
    d.buffered = d.buffer.length :=
  d.buffered_of_short (Nat.lt_of_le_of_lt h.length_le hn)

/-- The size of the next range to send; zero if there is none. -/
def nextSize (maxSize : Nat) (window : UInt16) : Nat :=
  min (min d.unsent (window.toNat - d.inFlight)) maxSize

/-- The next `n` bytes that were never sent. -/
def waiting (n : Nat) : Bytes := (d.buffer.bytes.drop d.inFlight).take n

theorem nextRange_eq (maxSize : Nat) (window : UInt16) :
    d.nextRange maxSize window =
      if d.nextSize maxSize window = 0 then none
      else some (.ofSize d.nxt (d.nextSize maxSize window)) := by
  simp only [nextRange, size_clientRange]
  rfl

theorem nextSize_le (maxSize : Nat) (window : UInt16) :
    d.nextSize maxSize window ≤ d.buffered - d.inFlight := by
  rw [← unsent_eq]
  simp only [nextSize]
  omega

theorem length_waiting {n : Nat} (h : n ≤ d.buffered - d.inFlight) :
    (d.waiting n).length = n := by
  have hb := d.buffered_le
  simp only [Buffer.length] at hb
  simp only [waiting, List.length_take, List.length_drop]
  omega

/-- The next range lies inside the buffer, so its bytes are there. -/
theorem read_next {n : Nat} (hpos : 0 < n) (h : n ≤ d.buffered - d.inFlight) :
    d.read (.ofSize d.nxt n) = .ok (d.waiting n) := by
  have hb := d.buffered_le
  have hlt : d.buffered ≤ 4294967295 := Nat.min_le_right _ _
  have hsize : (SeqRange.ofSize d.nxt n).size = n := SeqRange.size_ofSize _ (by omega)
  have hstop : min (d.inFlight + n) Buffer.maxCount = d.inFlight + n := by
    simp only [Buffer.maxCount]
    omega
  have hin : (SeqRange.ofSize d.nxt n).lower.distance d.una = d.inFlight := rfl
  simp only [read, hin, hsize, size_range, Buffer.peek, hstop]
  rw [if_neg (by omega), if_neg (by omega), Nat.add_sub_cancel_left]
  rfl

/-- The downlink after the next `n` numbers were sent. -/
def advance (n : Nat) : Downlink := { d with nxt := d.nxt.add n }

/-- The downlink after the bytes before `ack` were acknowledged. -/
def release (ack : SeqNum) : Downlink :=
  { d with
    buffer := { d.buffer with bytes := d.buffer.bytes.drop (ack.distance d.una) }
    una := ack }

theorem nxt_eq : d.nxt = d.una.add d.inFlight := (SeqNum.add_distance d.nxt d.una).symm

theorem inFlight_advance {n : Nat} (h : d.inFlight + n < 2 ^ 32) :
    (d.advance n).inFlight = d.inFlight + n := by
  have hnxt : (d.advance n).nxt = d.una.add (d.inFlight + n) := by
    rw [← SeqNum.add_add, ← d.nxt_eq]
    rfl
  rw [inFlight, hnxt]
  exact SeqNum.distance_add_of_lt d.una h

/-- What is acknowledged and what is still in flight add up to what was in flight. -/
theorem inFlight_release {ack : SeqNum} (h : ack.distance d.una ≤ d.inFlight) :
    (d.release ack).inFlight = d.inFlight - ack.distance d.una := by
  have hlt := d.inFlight_lt
  have hnxt : (d.release ack).nxt = d.una.add d.inFlight := d.nxt_eq
  have hack : (d.release ack).una = d.una.add (ack.distance d.una) :=
    (SeqNum.add_distance ack d.una).symm
  rw [inFlight, hnxt, hack, SeqNum.distance_add_add _ h (by omega)]

theorem length_release (ack : SeqNum) :
    (d.release ack).buffer.length = d.buffer.length - ack.distance d.una :=
  List.length_drop

theorem markSent_next (n : Nat) : d.markSent (.ofSize d.nxt n) = .ok (d.advance n) :=
  if_pos rfl

theorem isFullySent_iff : d.isFullySent ↔ d.buffered ≤ d.inFlight := by
  rw [isFullySent, beq_iff_eq, unsent_eq]
  omega

theorem isFullyAcknowledged_iff : d.isFullyAcknowledged ↔ d.una = d.nxt := by
  rw [isFullyAcknowledged, beq_iff_eq]

/-- An acknowledgment ahead of `una` that is applied covers at least one number, and none that
is not in flight. -/
theorem acknowledge_eq_ok {d d' : Downlink} {ack : SeqNum} {released : Nat}
    (hprec : d.una.precedes ack) (h : d.acknowledge ack = .ok (d', released)) :
    0 < ack.distance d.una ∧ ack.distance d.una ≤ d.inFlight ∧ d' = d.release ack := by
  simp only [acknowledge, if_pos hprec] at h
  split at h
  · cases h
  · rename_i hle
    split at h
    · rename_i b hb
      obtain ⟨rfl, -⟩ := Buffer.discard_eq_ok hb
      cases h
      refine ⟨(SeqNum.precedes_iff.mp hprec).1, by omega, ?_⟩
      simp only [release, Downlink.mk.injEq, Buffer.mk.injEq, and_self, true_and, and_true]
      -- the buffer may end before the number of a FIN
      rcases Nat.le_total (ack.distance d.una) d.buffer.length with hlen | hlen
      · rw [Nat.min_eq_left hlen]
      · rw [Nat.min_eq_right hlen, List.drop_of_length_le hlen]
        exact List.drop_of_length_le (Nat.le_refl _)
    · cases h

end Downlink

namespace Uplink

variable (u : Uplink)

theorem window_le : u.window ≤ 65535 := by
  simp only [window, maxWindow]
  split <;> omega

/-- The window and the bytes held make up a capacity that a window field can express. -/
theorem window_add_length {n : Nat} (h : u.buffer.Bounded n) (hn : n ≤ 65535) :
    u.window + u.buffer.length = n := by
  have hle := h.length_le
  simp only [window, maxWindow, h.capacity]
  omega

/-- What is no longer than the window has room in the buffer. -/
theorem fits_of_le_window {n : Nat} (h : n ≤ u.window) : u.buffer.fits n := by
  unfold Buffer.fits
  cases hc : u.buffer.capacity with
  | none => rfl
  | some capacity =>
    simp only [window, maxWindow, hc] at h
    simp only [Buffer.available, hc, decide_eq_true_eq]
    omega

/-- The uplink after `payload` was taken. -/
def extend (payload : Bytes) : Uplink :=
  { buffer := { u.buffer with bytes := u.buffer.bytes ++ payload }
    nxt := u.nxt.add payload.length }

/-- What is accepted starts at the next number expected and fits the window. -/
theorem write_eq_ok {u u' : Uplink} {seq : SeqNum} {payload : Bytes}
    (h : u.write seq payload = .ok u') (hne : payload ≠ []) :
    seq = u.nxt ∧ payload.length ≤ u.window ∧ u' = u.extend payload := by
  unfold write at h
  split at h
  · cases h
  · rename_i hseq
    split at h
    · simp_all
    · split at h
      · cases h
      · rename_i hwin
        split at h
        · rename_i b hb
          obtain ⟨rfl, -⟩ := Buffer.write_eq_ok hb
          cases h
          exact ⟨Decidable.not_not.mp hseq, by omega, rfl⟩
        · cases h

end Uplink

end TcpGateway
