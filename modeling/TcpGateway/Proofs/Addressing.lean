import TcpGateway.Downlink.Run
import TcpGateway.Proofs.Streams

/-!
# A downlink holds the stream that was written to it

The downlink knows two sequence numbers and the bytes that it holds.  What they stand for is the
stream of all bytes ever written and two offsets in it, which count on when the numbers wrap
(`Placed`).  A run keeps this as long as fewer bytes are held than half the circle has numbers, and
as long as its users spend a number on a FIN only behind the last byte (`Orderly`).  The offset of
the next number to send then stands one past the end of the stream, and so may that of the oldest
number not acknowledged.

From the picture follows what every acknowledgment, every read and every sending is answered, for
all numbers on the circle (`Addressed`).
-/

namespace TcpGateway

namespace Downlink

/-! ## One call -/

section Calls

variable (d : Downlink)

/-- What becomes of an acknowledgment, and the order in which its conditions are looked at. -/
theorem acknowledge_eq (ack : SeqNum) :
    d.acknowledge ack =
      if 0 < ack.distance d.una ∧ ack.distance d.una < 2 ^ 31 then
        if d.inFlight < ack.distance d.una then
          .error (.badWindow s!"ack {ack.text} beyond SND.NXT {d.nxt.text}")
        else
          let released := min (ack.distance d.una) d.buffer.length
          .ok (⟨{ d.buffer with bytes := d.buffer.bytes.drop released }, ack, d.nxt⟩, released)
      else .ok (d, 0) := by
  by_cases hprec : d.una.precedes ack
  · rw [if_pos (SeqNum.precedes_iff.mp hprec)]
    by_cases hahead : d.inFlight < ack.distance d.una
    · simp only [acknowledge, if_pos hprec, if_pos hahead]
    · have hreleased : ¬ d.buffer.length < min (ack.distance d.una) d.buffer.length := by omega
      simp only [acknowledge, if_pos hprec, if_neg hahead, Buffer.discard, if_neg hreleased]
  · rw [if_neg (mt SeqNum.precedes_iff.mpr hprec), acknowledge, if_neg hprec]

/-- A read is answered if its range lies inside the bytes held, counted from the oldest number. -/
theorem read_eq (hshort : d.buffer.length < 2 ^ 31) (r : SeqRange) :
    d.read r =
      if r.lower.distance d.una + r.size ≤ d.buffer.length then
        .ok ((d.buffer.bytes.drop (r.lower.distance d.una)).take r.size)
      else .error (.mismatch r d.range) := by
  have hbuffered := d.buffered_of_short (by omega)
  have hcount : d.buffer.length < Buffer.maxCount := by
    simp only [Buffer.maxCount]
    omega
  simp only [read, size_range, hbuffered, Buffer.peek_eq (.inr hcount)]
  by_cases hheld : r.lower.distance d.una + r.size ≤ d.buffer.length
  · rw [if_neg (by omega), if_pos hheld, if_pos hheld]
  · rw [if_pos (by omega), if_neg hheld]

/-- The downlink with `data` behind the bytes held. -/
def append (data : Bytes) : Downlink :=
  { d with buffer := { d.buffer with bytes := d.buffer.bytes ++ data } }

theorem append_nil : d.append [] = d := by
  simp only [append, List.append_nil]

theorem advance_zero : d.advance 0 = d := by
  rw [advance, SeqNum.add_zero]

theorem serve_write (data : Bytes) :
    d.serve (.write data) = d.append (d.writes (.write data)) := by
  cases h : d.buffer.write data with
  | ok b =>
    obtain ⟨rfl, -⟩ := Buffer.write_eq_ok h
    simp only [serve, writes, h, append]
  | error e => simp only [serve, writes, h, append_nil]

theorem serve_writeSome (data : Bytes) :
    d.serve (.writeSome data) = d.append (d.writes (.writeSome data)) := by
  cases h : d.buffer.writeSome data with
  | ok r =>
    obtain ⟨b, rest⟩ := r
    obtain ⟨piece, hdata, rfl, -⟩ := Buffer.writeSome_eq_ok h
    have hpiece : data.take (data.length - rest.length) = piece := by
      rw [hdata, List.length_append, Nat.add_sub_cancel, List.take_left]
    simp only [serve, writes, h, append, hpiece]
  | error e => simp only [serve, writes, h, append_nil]

theorem serve_send (maxSize : Nat) (window : UInt16) :
    d.serve (.send maxSize window) = d.advance (d.nextSize maxSize window) := by
  simp only [serve, nextRange_eq]
  by_cases hnone : d.nextSize maxSize window = 0
  · rw [if_pos hnone, hnone, advance_zero]
  · rw [if_neg hnone]
    simp only [markSent_next]

/-- An acknowledgment that is applied covers a part of what is in flight. -/
theorem serve_acknowledge (ack : SeqNum) :
    d.serve (.acknowledge ack) = d ∨
      ack.distance d.una ≤ d.inFlight ∧ d.serve (.acknowledge ack) = d.release ack := by
  by_cases hprec : d.una.precedes ack
  · cases h : d.acknowledge ack with
    | ok r =>
      obtain ⟨d', released⟩ := r
      obtain ⟨-, hle, hd'⟩ := acknowledge_eq_ok hprec h
      exact .inr ⟨hle, by simp only [serve, h, hd']⟩
    | error e => exact .inl (by simp only [serve, h])
  · exact .inl (by simp only [serve, acknowledge, if_neg hprec])

end Calls

/-! ## The stream and its two offsets -/

/-- The downlink holds `stream` from offset `acked` on, where the bytes are numbered from `start`
and the next number to send has the offset `sent`; `ended` says whether the control number behind
the last byte is spent. -/
structure Placed (start : SeqNum) (stream : Bytes) (acked sent : Nat) (ended : Bool)
    (d : Downlink) : Prop where
  una : d.una = start.add acked
  nxt : d.nxt = start.add sent
  acked_le : acked ≤ sent
  sent_le : sent ≤ stream.length + ended.toNat
  /-- The control number is the last one that is sent. -/
  all_sent : ended → stream.length < sent
  held : d.buffer.bytes = stream.drop acked

namespace Placed

variable {start : SeqNum} {stream : Bytes} {acked sent : Nat} {ended : Bool} {d : Downlink}

theorem ofBuffer (buffer : Buffer) (start : SeqNum) :
    Placed start buffer.bytes 0 0 false (ofBuffer buffer start) where
  una := (SeqNum.add_zero start).symm
  nxt := (SeqNum.add_zero start).symm
  acked_le := Nat.le_refl _
  sent_le := Nat.zero_le _
  all_sent h := by cases h
  held := rfl

theorem length_eq (h : Placed start stream acked sent ended d) :
    d.buffer.length = stream.length - acked := by
  rw [Buffer.length, h.held, List.length_drop]

/-- Less than the circle is in flight, so the distance of the two numbers is that of the offsets. -/
theorem inFlight_eq (h : Placed start stream acked sent ended d)
    (hshort : d.buffer.length < 2 ^ 31) : d.inFlight = sent - acked := by
  have hlength := h.length_eq
  have hle := h.sent_le
  have hcontrol := ended.toNat_le
  rw [inFlight, h.una, h.nxt]
  exact SeqNum.distance_add_add start h.acked_le (by omega)

theorem append {data : Bytes} (h : Placed start stream acked sent ended d)
    (hdata : ended = true → data = []) :
    Placed start (stream ++ data) acked sent ended (d.append data) := by
  cases ended with
  | true =>
    rw [hdata rfl, append_nil, List.append_nil]
    exact h
  | false =>
    have hle : sent ≤ stream.length := h.sent_le
    have hacked := h.acked_le
    constructor
    case una => exact h.una
    case nxt => exact h.nxt
    case acked_le => exact hacked
    case sent_le =>
      rw [List.length_append, Bool.toNat_false]
      omega
    case all_sent => rintro ⟨⟩
    case held =>
      rw [List.drop_append_of_le_length (by omega), ← h.held]
      rfl

theorem advance {n : Nat} (h : Placed start stream acked sent ended d)
    (hshort : d.buffer.length < 2 ^ 31) (hn : n ≤ d.buffered - d.inFlight) :
    Placed start stream acked (sent + n) ended (d.advance n) where
  una := h.una
  nxt := by
    rw [← SeqNum.add_add, ← h.nxt]
    rfl
  acked_le := Nat.le_add_right_of_le h.acked_le
  sent_le := by
    have hle := h.sent_le
    have hacked := h.acked_le
    have hlength := h.length_eq
    have hbuffered := d.buffered_le
    have hinFlight := h.inFlight_eq hshort
    omega
  all_sent hended := Nat.lt_add_right n (h.all_sent hended)
  held := h.held

theorem spendControl (h : Placed start stream acked sent false d)
    (hshort : d.buffer.length < 2 ^ 31) (hsent : d.isFullySent = true) :
    Placed start stream acked (sent + 1) true d.spendControl where
  una := h.una
  nxt := by
    rw [← SeqNum.add_next, ← h.nxt]
    rfl
  acked_le := Nat.le_add_right_of_le h.acked_le
  sent_le := Nat.succ_le_succ h.sent_le
  all_sent _ := by
    have hacked := h.acked_le
    have hlength := h.length_eq
    have hinFlight := h.inFlight_eq hshort
    have hbuffered := d.buffered_of_short (by omega)
    rw [isFullySent_iff] at hsent
    omega
  held := h.held

theorem release {ack : SeqNum} (h : Placed start stream acked sent ended d)
    (hshort : d.buffer.length < 2 ^ 31) (hle : ack.distance d.una ≤ d.inFlight) :
    Placed start stream (acked + ack.distance d.una) sent ended (d.release ack) where
  una := by
    rw [← SeqNum.add_add, ← h.una, SeqNum.add_distance]
    rfl
  nxt := h.nxt
  acked_le := by
    have hacked := h.acked_le
    have hinFlight := h.inFlight_eq hshort
    omega
  sent_le := h.sent_le
  all_sent := h.all_sent
  held := by
    rw [← List.drop_drop, ← h.held]
    rfl

end Placed

/-! ## A run of calls -/

/-- The call keeps to the rules for the control number: it is spent once, when everything is sent,
and nothing is written after it. -/
def Admits (d : Downlink) (ended : Bool) (call : Call) : Prop :=
  (call.isControl = true → ended = false ∧ d.isFullySent = true) ∧
    (ended = true → d.writes call = [])

/-- Every call of the run keeps to the rules for the control number, and at any time fewer bytes are
held than half the circle has numbers. -/
def Orderly (d : Downlink) (ended : Bool) : List Call → Prop
  | [] => d.buffer.length < 2 ^ 31
  | call :: calls =>
    d.buffer.length < 2 ^ 31 ∧ d.Admits ended call ∧
      (d.serve call).Orderly (ended || call.isControl) calls

instance (d : Downlink) (ended : Bool) (call : Call) : Decidable (d.Admits ended call) :=
  inferInstanceAs (Decidable (_ ∧ _))

instance decidableOrderly (d : Downlink) (ended : Bool) :
    (calls : List Call) → Decidable (d.Orderly ended calls)
  | [] => inferInstanceAs (Decidable (_ < _))
  | call :: calls =>
    have := decidableOrderly (d.serve call) (ended || call.isControl) calls
    inferInstanceAs (Decidable (_ ∧ _ ∧ _))

section Runs

variable {start : SeqNum} {stream : Bytes} {acked sent : Nat} {ended : Bool} {d : Downlink}

theorem Orderly.short {calls : List Call} (h : d.Orderly ended calls) :
    d.buffer.length < 2 ^ 31 := by
  cases calls with
  | nil => exact h
  | cons call calls => exact h.1

/-- A call that leaves `d'` behind and has moved the two numbers by `a` and `n`. -/
theorem Placed.of_serve {call : Call} {d' : Downlink} {stream' : Bytes} {a n : Nat}
    {ended' : Bool} (hserve : d.serve call = d') (hstream : stream ++ d.writes call = stream')
    (hacked : d'.una.distance d.una = a) (hsent : d'.nxt.distance d.nxt = n)
    (hended : (ended || call.isControl) = ended')
    (h : Placed start stream' (acked + a) (sent + n) ended' d') :
    Placed start (stream ++ d.writes call) (acked + d.acknowledges call) (sent + d.sends call)
      (ended || call.isControl) (d.serve call) := by
  subst hserve hstream hacked hsent hended
  exact h

/-- What one call does to the picture. -/
theorem Placed.serve {call : Call} (h : Placed start stream acked sent ended d)
    (hshort : d.buffer.length < 2 ^ 31) (hadmits : d.Admits ended call) :
    Placed start (stream ++ d.writes call) (acked + d.acknowledges call) (sent + d.sends call)
      (ended || call.isControl) (d.serve call) := by
  cases call with
  | write data =>
    exact .of_serve (d.serve_write data) rfl (SeqNum.distance_self _) (SeqNum.distance_self _)
      (Bool.or_false _) (h.append hadmits.2)
  | writeSome data =>
    exact .of_serve (d.serve_writeSome data) rfl (SeqNum.distance_self _)
      (SeqNum.distance_self _) (Bool.or_false _) (h.append hadmits.2)
  | close =>
    exact .of_serve rfl (List.append_nil _) (SeqNum.distance_self _) (SeqNum.distance_self _)
      (Bool.or_false _) ⟨h.una, h.nxt, h.acked_le, h.sent_le, h.all_sent, h.held⟩
  | send maxSize window =>
    have hle := d.nextSize_le maxSize window
    have hbuffered := d.buffered_le
    have hsent : (d.advance (d.nextSize maxSize window)).nxt.distance d.nxt =
        d.nextSize maxSize window := SeqNum.distance_add_of_lt _ (by omega)
    exact .of_serve (d.serve_send maxSize window) (List.append_nil _) (SeqNum.distance_self _)
      hsent (Bool.or_false _) (h.advance hshort hle)
  | spendControl =>
    obtain ⟨rfl, hfully⟩ := hadmits.1 rfl
    have hsent : d.spendControl.nxt.distance d.nxt = 1 := SeqNum.distance_add_of_lt _ (by omega)
    exact .of_serve rfl (List.append_nil _) (SeqNum.distance_self _) hsent rfl
      (h.spendControl hshort hfully)
  | acknowledge ack =>
    rcases d.serve_acknowledge ack with hsame | ⟨hle, hrelease⟩
    · exact .of_serve hsame (List.append_nil _) (SeqNum.distance_self _)
        (SeqNum.distance_self _) (Bool.or_false _) h
    · exact .of_serve hrelease (List.append_nil _) rfl (SeqNum.distance_self _)
        (Bool.or_false _) (h.release hshort hle)

theorem Placed.run {calls : List Call} (h : Placed start stream acked sent ended d)
    (horderly : d.Orderly ended calls) :
    Placed start (stream ++ d.written calls) (acked + d.acknowledged calls) (sent + d.sent calls)
        (ended || calls.any Call.isControl) (d.run calls) ∧
      (d.run calls).buffer.length < 2 ^ 31 := by
  induction calls generalizing stream acked sent ended d with
  | nil =>
    rw [written, List.append_nil, List.any_nil, Bool.or_false]
    exact ⟨h, horderly⟩
  | cons call calls ih =>
    have hrest := ih (h.serve horderly.short horderly.2.1) horderly.2.2
    rwa [List.append_assoc, Nat.add_assoc, Nat.add_assoc, Bool.or_assoc] at hrest

end Runs

/-! ## What the calls are answered -/

/-- The downlink answers acknowledgments, reads and sendings as the stream with its two offsets
does. -/
structure Addressed (start : SeqNum) (stream : Bytes) (acked sent : Nat) (d : Downlink) : Prop where
  /-- The payload in the range acknowledged is dropped and counted; a FIN in it is no payload. -/
  covered : ∀ k, 0 < k.distance d.una → k.distance d.una < 2 ^ 31 →
    k.distance d.una ≤ sent - acked →
    let released := min (k.distance d.una) (stream.length - acked)
    d.acknowledge k =
      .ok (⟨{ d.buffer with bytes := d.buffer.bytes.drop released }, k, d.nxt⟩, released)
  ahead : ∀ k, 0 < k.distance d.una → k.distance d.una < 2 ^ 31 →
    sent - acked < k.distance d.una →
    d.acknowledge k = .error (.badWindow s!"ack {k.text} beyond SND.NXT {d.nxt.text}") ∧
      d.serve (.acknowledge k) = d
  behind : ∀ k, k.distance d.una = 0 ∨ 2 ^ 31 ≤ k.distance d.una → d.acknowledge k = .ok (d, 0)
  /-- A range whose numbers have offsets inside the part that is held. -/
  inside : ∀ r i, r.lower = start.add i → acked ≤ i → i + r.size ≤ acked + d.buffer.length →
    d.read r = .ok ((stream.drop i).take r.size)
  outside : ∀ r : SeqRange,
    (∀ i, r.lower = start.add i → acked ≤ i → acked + d.buffer.length < i + r.size) →
    d.read r = .error (.mismatch r ⟨d.una, start.add (acked + d.buffer.length)⟩)
  /-- What is sent is the next part of the stream, as far as both limits allow. -/
  next : ∀ maxSize (window : UInt16),
    let size := min (min (stream.length - sent) (window.toNat - (sent - acked))) maxSize
    if size = 0 then d.nextRange maxSize window = none
    else
      d.nextRange maxSize window = some (.ofSize d.nxt size) ∧
        d.read (.ofSize d.nxt size) = .ok ((stream.drop sent).take size) ∧
        d.markSent (.ofSize d.nxt size) = .ok { d with nxt := start.add (sent + size) }

theorem Placed.addressed {start : SeqNum} {stream : Bytes} {acked sent : Nat} {ended : Bool}
    {d : Downlink} (h : Placed start stream acked sent ended d)
    (hshort : d.buffer.length < 2 ^ 31) : Addressed start stream acked sent d := by
  have hinFlight := h.inFlight_eq hshort
  have hlength := h.length_eq
  have hacked := h.acked_le
  have hbuffered := d.buffered_of_short (by omega)
  constructor
  case covered =>
    intro k hpos hhalf hle
    rw [acknowledge_eq, if_pos ⟨hpos, hhalf⟩, if_neg (by omega), hlength]
  case ahead =>
    intro k hpos hhalf hlt
    have herror : d.acknowledge k =
        .error (.badWindow s!"ack {k.text} beyond SND.NXT {d.nxt.text}") := by
      rw [acknowledge_eq, if_pos ⟨hpos, hhalf⟩, if_pos (by omega)]
    exact ⟨herror, by simp only [Downlink.serve, herror]⟩
  case behind =>
    intro k hbehind
    rw [acknowledge_eq, if_neg (by omega)]
  case inside =>
    intro r i hlower hfrom hto
    have hoffset : r.lower.distance d.una = i - acked := by
      rw [hlower, h.una]
      exact SeqNum.distance_add_add start hfrom (by omega)
    rw [read_eq d hshort, hoffset, if_pos (by omega), h.held, List.drop_drop,
      Nat.add_sub_cancel' hfrom]
  case outside =>
    intro r hout
    have hlower : r.lower = start.add (acked + r.lower.distance d.una) := by
      rw [← SeqNum.add_add, ← h.una, SeqNum.add_distance]
    have hrange : d.range = ⟨d.una, start.add (acked + d.buffer.length)⟩ := by
      rw [range, hbuffered, SeqRange.ofSize, ← SeqNum.add_add, ← h.una]
    have hbeyond := hout _ hlower (Nat.le_add_right _ _)
    rw [read_eq d hshort, if_neg (by omega), hrange]
  case next =>
    intro maxSize window size
    have hsize : d.nextSize maxSize window = size := by
      rw [nextSize, unsent_eq]
      omega
    rw [nextRange_eq, hsize]
    split
    · rfl
    · rename_i hpos
      have hle := d.nextSize_le maxSize window
      rw [hsize] at hle
      have hwaiting : d.waiting size = (stream.drop sent).take size := by
        rw [waiting, h.held, List.drop_drop, hinFlight, Nat.add_sub_cancel' hacked]
      refine ⟨rfl, ?_, ?_⟩
      · rw [d.read_next (by omega) hle, hwaiting]
      · rw [markSent_next, Downlink.advance, h.nxt, SeqNum.add_add]

/-- Wherever an orderly run has brought a downlink, it holds the stream written to it from the
offset of the oldest number not acknowledged on, and answers every call as that stream does. -/
theorem addressed_run (buffer : Buffer) (start : SeqNum) (calls : List Call)
    (h : (ofBuffer buffer start).Orderly false calls) :
    let d := ofBuffer buffer start
    let stream := buffer.bytes ++ d.written calls
    Placed start stream (d.acknowledged calls) (d.sent calls) (calls.any Call.isControl)
        (d.run calls) ∧
      Addressed start stream (d.acknowledged calls) (d.sent calls) (d.run calls) := by
  intro d stream
  obtain ⟨hplaced, hshort⟩ := (Placed.ofBuffer buffer start).run h
  rw [Nat.zero_add, Nat.zero_add, Bool.false_or] at hplaced
  exact ⟨hplaced, hplaced.addressed hshort⟩

/-- Five bytes around the end of the number space and a FIN: of the numbers that the client has yet
to acknowledge, the last is no payload and cannot be read. -/
theorem addressed_run_wrapping :
    let d := ofBuffer { capacity := none, bytes := [1, 2] } ⟨4294967294⟩
    let calls : List Call := [.send 1 65535, .write [3, 4, 5], .send 9 4,
      .acknowledge ⟨4294967295⟩, .acknowledge ⟨4⟩, .send 9 9, .spendControl,
      .acknowledge ⟨4294967290⟩]
    d.Orderly false calls ∧
      (d.run calls).read ⟨⟨0⟩, ⟨3⟩⟩ = .ok [3, 4, 5] ∧
      (d.run calls).acknowledge ⟨4⟩ = .ok (⟨{ capacity := none }, ⟨4⟩, ⟨4⟩⟩, 4) := by
  intro d calls
  have horderly : d.Orderly false calls := by decide
  have hlaws := (addressed_run _ _ calls horderly).2
  exact ⟨horderly, hlaws.inside ⟨⟨0⟩, ⟨3⟩⟩ 2 (by decide) (by decide) (by decide),
    hlaws.covered ⟨4⟩ (by decide) (by decide) (by decide)⟩

end Downlink

end TcpGateway
