import TcpGateway.Proofs.Effect
import TcpGateway.Proofs.Flight

/-!
# What is sent and not acknowledged is queued

`Coverage` says of the resend queue all that a later sending relies on: the segments follow each
other without a gap up to SND.NXT, the first one holds SND.UNA, and every number in flight lies in
exactly one of them.  It follows from `Flight` in every state that is not closed; a closed
connection has nothing queued, and what a connection sends, for the first time or again, is never
acknowledged already.
-/

namespace TcpGateway

namespace Connection

/-- The resend queue is exactly what is in flight, in pieces. -/
structure Coverage (c : Connection) : Prop where
  not_empty : ∀ x ∈ c.resends.segments, 0 < x.range.size
  contiguous : c.resends.segments.IsChain fun x y => x.stop = y.seq
  last_stop : ∀ x ∈ c.resends.segments.getLast?, x.stop = c.sndNxt
  /-- The first segment holds SND.UNA in the order of the window. -/
  first_holds : c.sndUna ≠ c.sndNxt →
    ∃ x ∈ c.resends.segments.head?, x.seq.atMost c.sndUna ∧ c.sndUna.precedes x.stop
  eq_nil_iff : c.resends.segments = [] ↔ c.sndUna = c.sndNxt
  data_length : ∀ x ∈ c.resends.segments, x.isFin = false → x.data.length = x.range.size
  /-- A FIN is the last segment, at the number that the connection remembers. -/
  fin_last : ∀ front x rest, c.resends.segments = front ++ x :: rest → x.isFin →
    rest = [] ∧ c.finSeq = some x.seq
  /-- Each number in flight is one of those that exactly one segment occupies. -/
  holds_once : ∀ n : SeqNum, n.distance c.sndUna < c.downlink.inFlight →
    c.resends.segments.countP (·.holds n) = 1
  not_acknowledged : ∀ x ∈ c.resends.segments, x.isCoveredBy c.sndUna = false

theorem Flight.coverage {c : Connection} (h : Flight c) (hp : c.phase ≠ .closed) : Coverage c := by
  have hcovers := h.covers hp
  have hspan := h.span_lt hp
  obtain ⟨start, lead, hchain, -, -, -⟩ := h.covers hp
  exact {
    not_empty := hchain.pos
    contiguous := hchain.isChain
    last_stop := hchain.getLast_stop
    first_holds := by
      intro hne
      cases hq : c.resends.segments with
      | nil => exact absurd (hcovers.eq_nil_iff.mp hq) hne
      | cons x rest => exact ⟨x, rfl, hcovers.head hspan x (by rw [hq]; rfl)⟩
    eq_nil_iff := hcovers.eq_nil_iff
    data_length := fun x hx => (h.sound x hx).data_length
    fin_last := by
      intro front x rest hq hfin
      obtain ⟨-, hsize, hseq⟩ := (h.sound x (by simp [hq])).fin_seq hfin
      have hstop : x.stop = c.sndNxt := by
        rw [x.stop_eq, hsize, h.fin_next x.seq hseq]
        rfl
      rw [hq] at hchain hspan
      exact ⟨hchain.eq_nil_of_stop (by omega) hstop, hseq⟩
    holds_once := fun n hn => hcovers.countP_holds hspan hn
    not_acknowledged := fun x hx => Bool.eq_false_iff.mpr (hcovers.not_covered hspan x hx) }

/-! ## What is sent is not acknowledged -/

theorem Flight.precedes_add {c : Connection} (h : Flight c) {n : Nat}
    (hpos : 0 < c.downlink.inFlight + n) (hn : n ≤ 65535) :
    c.sndUna.precedes (c.sndNxt.add n) := by
  have hle := h.inFlight_lt
  have hnxt : c.sndNxt.add n = c.sndUna.add (c.downlink.inFlight + n) := by
    rw [← SeqNum.add_add]
    exact congrArg (SeqNum.add · n) c.downlink.nxt_eq
  have hprec := SeqNum.precedes_add_add c.sndUna (i := 0) (j := c.downlink.inFlight + n)
    (by omega) (by omega)
  rw [SeqNum.add_zero] at hprec
  rw [hnxt]
  exact hprec.mpr hpos

theorem length_repeated {c c' : Connection} {x : SentSegment} (h : Flight c)
    (hx : x ∈ c.resends.segments) : (c'.repeated x).length = x.range.size := by
  have hsound := h.sound x hx
  unfold repeated
  split
  · rename_i hfin
    rw [length_finSegment, (hsound.fin_seq hfin).2.1]
  · rename_i hdata
    rw [length_dataSegment, hsound.data_length (Bool.eq_false_iff.mpr hdata)]

/-- What repeats an earlier segment, with payload or FIN, ends ahead of SND.UNA. -/
theorem Repeats.precedes_stop {c c' : Connection} {p : Segment} (h : Repeats c c' p)
    (hflight : Flight c) (hp : p.payload ≠ [] ∨ p.isFin) :
    c.sndUna.precedes (p.seq.add p.length) := by
  cases h with
  | bare is_empty =>
    obtain ⟨hpay, -, hfin⟩ := length_eq_zero_iff.mp is_empty
    simp [hpay, hfin] at hp
  | synAck _ _ is_eq =>
    rw [is_eq, isFin_synAckSegment] at hp
    exact absurd rfl (hp.resolve_right Bool.false_ne_true)
  | @oldest x rest is_synchronized is_oldest is_eq =>
    have hclosed := Phase.ne_closed_of_isSynchronized is_synchronized
    have hx : x ∈ c.resends.segments := is_oldest ▸ List.mem_cons_self
    have hhead := (hflight.covers hclosed).head (hflight.span_lt hclosed) x (by rw [is_oldest]; rfl)
    rw [is_eq, length_repeated hflight hx, seq_repeated, ← x.stop_eq]
    exact hhead.2
  | @lastFin fin is_lastAck is_fin is_eq =>
    have hne := hflight.lastAck is_lastAck
    have hpos : 0 < c.downlink.inFlight :=
      Nat.pos_of_ne_zero fun hz => hne (SeqNum.distance_eq_zero_iff.mp hz).symm
    have hprec := hflight.precedes_add (n := 0) hpos (Nat.zero_le _)
    rw [SeqNum.add_zero, hflight.fin_next fin is_fin] at hprec
    rw [is_eq, length_finSegment]
    exact hprec

/-- What a step sends with payload or FIN ends ahead of SND.UNA, as does what was sent before
in the same event. -/
theorem Effect.precedes_stop {now : Nat} {o o' : Outcome} (h : Effect now o o')
    (hflight : Flight o.connection)
    (hsent : ∀ p ∈ o.segments, p.payload ≠ [] ∨ p.isFin →
      o.connection.sndUna.precedes (p.seq.add p.length)) :
    ∀ p ∈ o'.segments, p.payload ≠ [] ∨ p.isFin →
      o'.connection.sndUna.precedes (p.seq.add p.length) := by
  intro p hmem hp
  cases h with
  | kept keeps sends_nothing _ =>
    rw [sends_nothing] at hmem
    rw [sndUna, keeps.downlink]
    exact hsent p hmem hp
  | repeated keeps _ repeats =>
    rw [sndUna, keeps.downlink]
    exact (repeats p hmem).precedes_stop hflight hp
  | numbered _ _ _ _ _ _ sends =>
    rw [sends] at hmem
    obtain rfl := List.mem_singleton.mp hmem
    rw [isFin_synAckSegment] at hp
    exact absurd rfl (hp.resolve_right Bool.false_ne_true)
  | acknowledged _ _ _ _ _ sends_nothing =>
    rw [sends_nothing] at hmem
    cases hmem
  | data can_send _ not_empty is_after =>
    have hle := hflight.nextSize_le
    have hlen := hflight.bounded.length_le
    have hwin := o.connection.options.windowSize.toNat_lt
    subst is_after
    obtain rfl := List.mem_singleton.mp hmem
    rw [length_dataSegment, hflight.length_waiting]
    exact hflight.precedes_add (by omega) (by omega)
  | fin _ _ is_after sends =>
    have huna : o'.connection.sndUna = o.connection.sndUna := by
      rw [is_after]
      rfl
    rw [sends] at hmem
    rw [huna]
    rcases List.mem_append.mp hmem with hold | hnew
    · exact hsent p hold hp
    · obtain rfl := List.mem_singleton.mp hnew
      rw [length_finSegment]
      exact hflight.precedes_add (by omega) (by omega)

theorem process_precedes_stop {c : Connection} (h : Flight c) (e : Event) (now wall : Nat) :
    ∀ p ∈ (c.process e now wall).segments, p.payload ≠ [] ∨ p.isFin →
      (c.process e now wall).connection.sndUna.precedes (p.seq.add p.length) := by
  refine (event_induction (P := fun o => Flight o.connection ∧ ∀ p ∈ o.segments,
    p.payload ≠ [] ∨ p.isFin → o.connection.sndUna.precedes (p.seq.add p.length))
    ⟨h, by simp [stay]⟩ ?_).2
  rintro o o' ⟨hflight, hsent⟩ hstep
  exact ⟨hflight.step hstep, hstep.effect.precedes_stop hflight hsent⟩

/-! ## Closed connections -/

/-- A closed connection has nothing queued: settling has emptied the queue. -/
theorem apply_closed {c : Connection} (m : Move)
    (h : c.phase = .closed → c.resends.segments = []) :
    (c.apply m).connection.phase = .closed → (c.apply m).connection.resends.segments = [] := by
  rcases c.event_or_bufferMove m with ⟨e, now, wall, rfl⟩ | hmove
  · obtain ⟨advertised, hc⟩ := settle_connection (c.dispatch e now wall)
    intro hp
    change (settle (c.dispatch e now wall)).connection.phase = _ at hp
    show (settle (c.dispatch e now wall)).connection.resends.segments = _
    rw [hc] at hp ⊢
    simp only [if_pos hp]
    rfl
  · obtain ⟨down, up, hc⟩ := hmove.connection_eq
    rw [hc]
    exact h

/-- After every run the queue covers exactly what is in flight, nothing is queued once the
connection is closed, and no event sends again what is acknowledged as a whole. -/
theorem coverage_run (flow : Flow) (held : Option Segment) (options : ConnectionOptions)
    (t₀ : Nat) (moves : List Move) :
    let c := (begin flow held options t₀).run moves
    (c.phase ≠ .closed → Coverage c) ∧ (c.phase = .closed → c.resends.segments = []) ∧
      ∀ e now wall, ∀ p ∈ (c.process e now wall).segments, p.payload ≠ [] ∨ p.isFin →
        (c.process e now wall).connection.sndUna.precedes (p.seq.add p.length) := by
  intro c
  have hflight : Flight c := flight_run flow held options t₀ moves
  refine ⟨hflight.coverage, ?_, process_precedes_stop hflight⟩
  refine run_induction (P := fun _ c => c.phase = .closed → c.resends.segments = []) ?_
    (fun _ _ m h => apply_closed m h) moves
  cases held <;> exact fun _ => rfl

end Connection

end TcpGateway
