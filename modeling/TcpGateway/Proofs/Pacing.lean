import TcpGateway.Proofs.Outgoing
import TcpGateway.Proofs.Resending

/-!
# The timer repeats the oldest segment, whole and not too often

`Recorded` says of every segment of the queue that it was sent for the first time at some stage of
the history, has ended ahead of SND.UNA ever since, and remembers the time of the last sending that
was the first one or the timer's.  Each event either leaves a segment of the queue alone, has the
timer send it again, or sends it for the first time (`Requeued`), and each of these keeps the record
right.

In phase LastAck the FIN is also repeated for segments of the client.  The queue takes no note of
these sendings, and the timer does not wait for them.
-/

namespace TcpGateway

namespace History

variable {h : History} {st : Stage} {u : Piece} {n : SeqNum} {now : Nat}

theorem sentAt?_concat (h : History) (st : Stage) (n : SeqNum) :
    sentAt? (h ++ [st]) n = (st.sentAt? n).or (h.sentAt? n) := by
  cases hst : st.sentAt? n <;> simp [sentAt?, hst]

theorem time?_of_sentAt? {t : Nat} (h : st.sentAt? n = some t) : st.time? = some t := by
  rw [Stage.sentAt?] at h
  split at h
  · exact h
  · cases h

/-- A stage that follows in order is not earlier than any sending. -/
theorem InOrder.sentAt?_le (horder : InOrder (h ++ [st])) (hnow : st.time? = some now) {t : Nat}
    (ht : h.sentAt? n = some t) : t ≤ now := by
  obtain ⟨st', hst', hsent⟩ := List.mem_filterMap.mp (List.mem_of_getLast? ht)
  rw [InOrder, List.filterMap_append, List.pairwise_append] at horder
  exact horder.2.2 t (List.mem_filterMap.mpr ⟨st', hst', time?_of_sentAt? hsent⟩) now
    (by simp [hnow])

/-- No sending is later than the last one. -/
theorem InOrder.le_sentAt? (horder : InOrder h) {t : Nat} (ht : h.sentAt? n = some t) {st' : Stage}
    (hst' : st' ∈ h) {t' : Nat} (ht' : st'.sentAt? n = some t') : t' ≤ t := by
  have hsorted : (h.filterMap (·.sentAt? n)).Pairwise (· ≤ ·) := by
    rw [InOrder, List.pairwise_filterMap] at horder
    rw [List.pairwise_filterMap]
    refine horder.imp fun hle t₁ h₁ t₂ h₂ => ?_
    exact hle t₁ (time?_of_sentAt? h₁) t₂ (time?_of_sentAt? h₂)
  have hmem : t' ∈ h.filterMap (·.sentAt? n) := List.mem_filterMap.mpr ⟨st', hst', ht'⟩
  obtain ⟨front, hfront⟩ := List.getLast?_eq_some_iff.mp ht
  rw [hfront] at hsorted hmem
  rcases List.mem_append.mp hmem with hbefore | hlast
  · exact (List.pairwise_append.mp hsorted).2.2 t' hbefore t List.mem_cons_self
  · exact Nat.le_of_eq (List.mem_singleton.mp hlast)

theorem Outstanding.concat (hu : h.Outstanding u) (hnone : ∀ v ∈ st.launched, v.seq ≠ u.seq)
    (hahead : st.after.sndUna.precedes u.stop) : Outstanding (h ++ [st]) u := by
  obtain ⟨front, st', back, rfl, hlaunched, hlast, hfree⟩ := hu
  refine ⟨front, st', back ++ [st], by simp, hlaunched, ?_, ?_⟩
  · intro st'' hmem
    rcases List.mem_append.mp hmem with hold | hnew
    · exact hlast st'' hold
    · exact List.mem_singleton.mp hnew ▸ hnone
  · intro st'' hmem
    rw [← List.cons_append] at hmem
    rcases List.mem_append.mp hmem with hold | hnew
    · exact hfree st'' hold
    · exact List.mem_singleton.mp hnew ▸ hahead

theorem Outstanding.of_launched (hu : u ∈ st.launched) (hahead : st.after.sndUna.precedes u.stop) :
    Outstanding (h ++ [st]) u :=
  ⟨h, st, [], rfl, hu, by rintro _ ⟨⟩, fun st' hmem => List.mem_singleton.mp hmem ▸ hahead⟩

end History

namespace Connection

/-! ## One move -/

/-- How the segment `x` comes to be in the queue at the end of a stage. -/
inductive Requeued (st : Stage) (x : SentSegment) : Prop
  /-- It is left alone. -/
  | kept (was_queued : x ∈ st.before.resends.segments) (not_sent : st.sentAt? x.seq = none)
      (not_launched : ∀ u ∈ st.launched, u.seq ≠ x.seq)
  /-- The timer has sent it again. -/
  | resent {y : SentSegment} (was_queued : y ∈ st.before.resends.segments)
      (same_piece : y.piece = x.piece) (is_sent : st.sentAt? x.seq = some x.sentAt)
      (not_launched : ∀ u ∈ st.launched, u.seq ≠ x.seq)
  | launched (is_launched : x.piece ∈ st.launched) (is_sent : st.sentAt? x.seq = some x.sentAt)

section Moves

variable {interval : Nat} {c : Connection} {now wall : Nat} {o : Outcome} {x : SentSegment}

theorem mem_pieces {st : Stage} {u : Piece} :
    u ∈ st.pieces ↔ (∃ p ∈ st.outcome.segments, p.piece = u) ∧ u.isEmpty = false := by
  simp [Stage.pieces]

theorem mem_launched {st : Stage} {u : Piece} :
    u ∈ st.launched ↔ ∃ p ∈ st.outcome.segments, p.piece = u ∧ st.before.isNew u := by
  rw [Stage.launched, List.mem_filter, mem_pieces]
  constructor
  · rintro ⟨⟨⟨p, hp, hu⟩, -⟩, hnew⟩
    exact ⟨p, hp, hu, hnew⟩
  · rintro ⟨p, hp, hu, hnew⟩
    exact ⟨⟨⟨p, hp, hu⟩, isEmpty_of_isNew hnew⟩, hnew⟩

theorem mem_repeated {st : Stage} {u : Piece} :
    u ∈ st.repeated ↔
      (∃ p ∈ st.outcome.segments, p.piece = u) ∧ u.isEmpty = false ∧ st.before.isNew u = false := by
  rw [Stage.repeated, List.mem_filter, mem_pieces, and_assoc, Bool.not_eq_true']

theorem launched_subset_timed (st : Stage) : ∀ u ∈ st.launched, u ∈ st.timed := by
  intro u hu
  rw [Stage.timed]
  split
  · exact (List.mem_filter.mp hu).1
  · exact hu

theorem timed_subset_pieces (st : Stage) : ∀ u ∈ st.timed, u ∈ st.pieces := by
  intro u hu
  rw [Stage.timed] at hu
  split at hu
  · exact hu
  · exact (List.mem_filter.mp hu).1

theorem sentAt?_of_mem {st : Stage} {u : Piece} (hu : u ∈ st.timed) :
    st.sentAt? u.seq = st.time? :=
  if_pos (List.any_eq_true.mpr ⟨u, hu, by simp⟩)

theorem sentAt?_eq_none {st : Stage} {n : SeqNum} (h : ∀ u ∈ st.timed, u.seq ≠ n) :
    st.sentAt? n = none := by
  refine if_neg fun hany => ?_
  obtain ⟨u, hu, hseq⟩ := List.any_eq_true.mp hany
  exact h u hu (beq_iff_eq.mp hseq)

/-- What no sending of the stage concerns is left alone. -/
theorem Requeued.of_not_sent {st : Stage} (was_queued : x ∈ st.before.resends.segments)
    (h : ∀ u ∈ st.timed, u.seq ≠ x.seq) : Requeued st x :=
  .kept was_queued (sentAt?_eq_none h) fun u hu => h u (launched_subset_timed st u hu)

/-- A stage that sends nothing of the stream leaves the queue alone. -/
theorem Requeued.of_bare {st : Stage} (was_queued : x ∈ st.before.resends.segments)
    (hbare : ∀ p ∈ st.outcome.segments, p.piece.isEmpty) : Requeued st x := by
  refine .of_not_sent was_queued fun u hu => ?_
  obtain ⟨⟨p, hp, rfl⟩, hsome⟩ := mem_pieces.mp (timed_subset_pieces st u hu)
  cases (hbare p hp).symm.trans hsome

/-- A stage whose sendings all count for the timer only if they are first ones. -/
theorem Queueing.requeued {st : Stage} (hq : Queueing interval st.before now o)
    (hsegments : st.outcome.segments = o.segments) (htime : st.time? = some now)
    (htimed : ∀ u ∈ st.timed, u ∈ st.launched) (hx : x ∈ o.connection.resends.segments) :
    Requeued st x := by
  rcases hq.queued x hx with ⟨hwas, hnone⟩ | ⟨hnow, p, hp, hnew, hpiece⟩
  · refine .of_not_sent hwas fun u hu => ?_
    obtain ⟨p, hp, rfl, hnew⟩ := mem_launched.mp (htimed u hu)
    exact hnone p (hsegments ▸ hp) hnew
  · have hlaunched : x.piece ∈ st.launched :=
      mem_launched.mpr ⟨p, hsegments ▸ hp, hpiece, hpiece ▸ hnew⟩
    refine .launched hlaunched ?_
    rw [hnow, ← htime]
    exact sentAt?_of_mem (launched_subset_timed st _ hlaunched)

/-- All that is sent without being due is new. -/
theorem isNew_of_mem_sendPending (hflight : Flight c) (hsend : c.phase.canSend) {p : Segment}
    (hp : p ∈ (c.sendPending now).segments) : c.isNew p.piece := by
  have hflags : (Flags.ack ||| Flags.psh).has .fin = false ∧
      (Flags.fin ||| Flags.ack).has .fin = true := by decide
  rcases mem_sendPending hsend hp with ⟨hdata, hseq, hpay, hsize⟩ | ⟨hfin, -, hnone⟩
  · have hisFin : p.isFin = false := by rw [Segment.isFin, hdata, hflags.1]
    have hne : p.payload ≠ [] := hpay ▸ hflight.waiting_ne_nil hsize
    simp [isNew, Segment.piece, hisFin, hne, hseq]
  · have hisFin : p.isFin = true := by rw [Segment.isFin, hfin, hflags.2]
    simp [isNew, Segment.piece, hisFin, hnone]

/-- What a tick of a synchronized connection in use sends of the stream: the oldest segment of the
queue and nothing else if that is due, and only what is new if it is not. -/
theorem Served.pieces (h : Served c now o) (hflight : Flight c) :
    (∃ y rest, c.resends.segments = y :: rest ∧ c.resends.interval ≤ y.age now ∧
        o.segments = [c.repeated y] ∧ (c.repeated y).piece = y.piece) ∨
      (∀ y ∈ c.resends.segments.head?, y.age now < c.resends.interval) ∧
        ∀ p ∈ o.segments, p.piece.isEmpty = false → c.isNew p.piece := by
  cases h with
  | @resent y rest is_oldest is_due =>
    have hsound := hflight.sound y (is_oldest ▸ List.mem_cons_self)
    exact .inl ⟨y, rest, is_oldest, is_due, rfl, c.piece_repeated hsound⟩
  | sent none_due can_send _ =>
    exact .inr ⟨none_due, fun p hp _ => isNew_of_mem_sendPending hflight can_send hp⟩
  | reopened none_due _ =>
    refine .inr ⟨none_due, fun p hp hsome => ?_⟩
    obtain rfl := List.mem_singleton.mp hp
    cases (isEmpty_of_length c.length_ackSegment).symm.trans hsome
  | quiet none_due _ => exact .inr ⟨none_due, by rintro _ ⟨⟩⟩

/-- No other segment of the queue starts where the oldest does. -/
theorem Flight.seq_ne_oldest (hflight : Flight c) (hopen : c.phase ≠ .closed)
    {rest : List SentSegment} (hqueue : c.resends.segments = x :: rest) :
    ∀ y ∈ rest, y.seq ≠ x.seq := by
  obtain ⟨start, lead, hchain, -⟩ := hflight.covers hopen
  have hspan := hflight.span_lt hopen
  rw [hqueue] at hchain hspan
  exact hchain.seq_ne_head (by omega)

/-- A tick of a synchronized connection in use. -/
theorem Served.requeued {st : Stage} (h : Served st.before now o) (hflight : Flight st.before)
    (hq : Requeues interval st.before) (hopen : st.before.phase ≠ .closed)
    (hsegments : st.outcome.segments = o.segments) (htick : st.isTick) (htime : st.time? = some now)
    (hx : x ∈ o.connection.resends.segments) : Requeued st x := by
  have htimed : st.timed = st.pieces := if_pos htick
  cases h with
  | @resent y rest is_oldest is_due =>
    have hy : y ∈ st.before.resends.segments := is_oldest ▸ List.mem_cons_self
    have hold : st.before.isNew y.piece = false := hflight.isNew_eq_false hopen hy
    have hpieces : st.pieces = [y.piece] := by
      have hsome := hflight.isEmpty_eq_false hopen hy
      rw [Stage.pieces, hsegments]
      simp [Outcome.send, stay, piece_repeated _ (hflight.sound y hy), hsome]
    have hlaunched : st.launched = [] := by simp [Stage.launched, hpieces, hold]
    rcases List.mem_cons.mp hx with rfl | hrest
    · refine .resent hy rfl ?_ (by simp [hlaunched])
      have hmem : y.piece ∈ st.timed := by simp [htimed, hpieces]
      exact (sentAt?_of_mem hmem).trans htime
    · refine .of_not_sent (is_oldest ▸ List.mem_cons_of_mem _ hrest) fun u hu => ?_
      rw [htimed, hpieces, List.mem_singleton] at hu
      rw [hu]
      exact (hflight.seq_ne_oldest hopen is_oldest x hrest).symm
  | sent none_due can_send _ =>
    -- The elementary steps of sending what is pending are those of an event of the relay's side.
    have hqueueing : Queueing interval st.before now (st.before.sendPending now) :=
      .path (e := .relayData) hflight hq (by simp) (@sendPending_path _ _ 0 _ can_send)
    refine hqueueing.requeued hsegments htime (fun u hu => ?_) hx
    obtain ⟨⟨p, hp, rfl⟩, -⟩ := mem_pieces.mp (timed_subset_pieces st u hu)
    exact mem_launched.mpr
      ⟨p, hp, rfl, isNew_of_mem_sendPending hflight can_send (hsegments ▸ hp)⟩
  | reopened _ _ =>
    refine .of_bare hx fun p hp => ?_
    rw [hsegments] at hp
    obtain rfl := List.mem_singleton.mp hp
    exact isEmpty_of_length st.before.length_ackSegment
  | quiet _ _ =>
    refine .of_bare hx fun p hp => ?_
    rw [hsegments] at hp
    cases hp

/-- A tick sends nothing of the stream to any other connection. -/
theorem Unserved.isEmpty (h : Unserved c now o) : ∀ p ∈ o.segments, p.piece.isEmpty := by
  intro p hp
  cases h with
  | quiet => cases hp
  | closed closes => exact isEmpty_of_length (closes.segments_length p hp)
  | synAck is_opening =>
    obtain rfl := List.mem_singleton.mp hp
    exact isEmpty_piece rfl (isFin_synAckSegment _)

theorem Unserved.requeued {st : Stage} (h : Unserved st.before now o)
    (hsegments : st.outcome.segments = o.segments)
    (hx : x ∈ (settle o).connection.resends.segments) : Requeued st x := by
  refine .of_bare ?_ (hsegments ▸ h.isEmpty)
  cases h with
  | quiet => exact mem_of_mem_settle hx
  | closed closes =>
    obtain ⟨held, counters, hc⟩ := closes.connection_eq
    obtain ⟨advertised, hsettled⟩ := settle_connection o
    rw [hsettled, hc] at hx
    simp [ResendQueue.clear] at hx
  | synAck is_opening => exact mem_of_mem_settle hx

/-- Every move leaves a segment of the queue alone, or has just sent it. -/
theorem requeued_stage (hflight : Flight c) (hq : Requeues interval c) (m : Move)
    (hx : x ∈ (c.apply m).connection.resends.segments) : Requeued (c.stage m) x := by
  rcases c.event_or_bufferMove m with ⟨e, now, wall, rfl⟩ | hmove
  · by_cases htick : e = .tick
    · subst htick
      have hsegments : (c.stage (.event .tick now wall)).outcome.segments =
          (c.onTick now).segments := rfl
      by_cases hserved : c.IsServed now
      · have hopen : c.phase ≠ .closed := Phase.ne_closed_of_isSynchronized hserved.is_synchronized
        exact Served.requeued (onTick_served hserved) hflight hq hopen hsegments rfl rfl
          (mem_of_mem_settle hx)
      · exact Unserved.requeued (onTick_unserved hserved) hsegments hx
    · have hqueueing : Queueing interval c now (c.process e now wall) :=
        .path hflight hq htick process_path
      refine hqueueing.requeued rfl rfl (fun u hu => ?_) hx
      cases e <;> first | exact hu | exact absurd rfl htick
  · obtain ⟨down, up, hc⟩ := hmove.connection_eq
    rw [hc] at hx
    refine .of_bare hx fun p hp => ?_
    change p ∈ (c.apply m).segments at hp
    rw [hmove.segments_eq_nil] at hp
    cases hp

end Moves

/-! ## Every run -/

/-- The queue of `c`, behind the history `h`, holds what was sent and is not acknowledged, with the
times at which it was last sent. -/
def Recorded (h : History) (c : Connection) : Prop :=
  ∀ x ∈ c.resends.segments, h.Outstanding x.piece ∧ h.sentAt? x.seq = some x.sentAt

/-- What holds of the queue behind the history `h`. -/
structure Queued (options : ConnectionOptions) (h : History) (c : Connection) : Prop where
  flight : Flight c
  requeues : Requeues options.resendInterval c
  closed : c.phase = .closed → c.resends.segments = []
  recorded : Recorded h c

namespace Queued

variable {options : ConnectionOptions} {h : History} {c : Connection}

theorem apply (m : Move) (hq : Queued options h c) :
    Queued options (h ++ [c.stage m]) (c.apply m).connection := by
  have hflight := hq.flight.apply m
  have hclosed := apply_closed m hq.closed
  refine ⟨hflight, hq.requeues.apply hq.flight m, hclosed, fun x hx => ?_⟩
  have hopen : (c.apply m).connection.phase ≠ .closed := by
    intro hend
    rw [hclosed hend] at hx
    cases hx
  have hahead : (c.stage m).after.sndUna.precedes x.piece.stop := by
    rw [(hflight.sound x hx).stop_piece]
    exact (hflight.covers hopen).precedes_stop (hflight.span_lt hopen) x hx
  rw [h.sentAt?_concat]
  cases requeued_stage hq.flight hq.requeues m hx with
  | kept was_queued not_sent not_launched =>
    obtain ⟨houtstanding, hsent⟩ := hq.recorded x was_queued
    rw [not_sent, Option.none_or]
    exact ⟨houtstanding.concat not_launched hahead, hsent⟩
  | resent was_queued same_piece is_sent not_launched =>
    obtain ⟨houtstanding, -⟩ := hq.recorded _ was_queued
    rw [same_piece] at houtstanding
    rw [is_sent, Option.some_or]
    exact ⟨houtstanding.concat not_launched hahead, rfl⟩
  | launched is_launched is_sent =>
    rw [is_sent, Option.some_or]
    exact ⟨.of_launched is_launched hahead, rfl⟩

end Queued

theorem queued_run (flow : Flow) (held : Option Segment) (options : ConnectionOptions)
    (t₀ : Nat) (moves : List Move) :
    let c₀ := begin flow held options t₀
    Queued options (c₀.history moves) (c₀.run moves) := by
  refine run_induction (P := Queued options) ?_ (fun _ _ m hq => hq.apply m) moves
  exact ⟨.begin flow held options t₀, .begin flow held options t₀, by cases held <;> exact fun _ => rfl,
    by cases held <;> rintro _ ⟨⟩⟩

section Repeats

variable {options : ConnectionOptions} {h : History} {c : Connection} {u : Piece} {now wall : Nat}

/-- What a tick sends again is the oldest segment of the queue, which is due. -/
theorem Queued.of_mem_repeated_tick (hq : Queued options h c)
    (hu : u ∈ (c.stage (.event .tick now wall)).repeated) :
    ∃ y rest, c.resends.segments = y :: rest ∧ options.resendInterval ≤ y.age now ∧
      (c.stage (.event .tick now wall)).outcome.segments = [c.repeated y] ∧ u = y.piece := by
  obtain ⟨⟨p, hp, rfl⟩, hsome, hold⟩ := mem_repeated.mp hu
  by_cases hserved : c.IsServed now
  · rcases (onTick_served hserved).pieces hq.flight with
      ⟨y, rest, hqueue, hdue, hsegments, hpiece⟩ | ⟨-, hnew⟩
    · rw [hq.requeues.interval_eq] at hdue
      refine ⟨y, rest, hqueue, hdue, hsegments, ?_⟩
      change p ∈ (c.onTick now).segments at hp
      rw [hsegments, List.mem_singleton] at hp
      rw [hp, hpiece]
    · cases hold.symm.trans (hnew p hp hsome)
  · cases hsome.symm.trans ((onTick_unserved hserved).isEmpty p hp)

/-- What is due is sent again. -/
theorem Queued.mem_repeated_tick (hq : Queued options h c) (hserved : c.IsServed now)
    {x : SentSegment} {rest : List SentSegment} (hqueue : c.resends.segments = x :: rest)
    (hdue : options.resendInterval ≤ x.age now) :
    x.piece ∈ (c.stage (.event .tick now wall)).repeated := by
  have hopen := Phase.ne_closed_of_isSynchronized hserved.is_synchronized
  have hmem : x ∈ c.resends.segments := hqueue ▸ List.mem_cons_self
  rcases (onTick_served hserved).pieces hq.flight with
    ⟨y, rest', hqueue', -, hsegments, hpiece⟩ | ⟨hnone, -⟩
  · cases hqueue.symm.trans hqueue'
    have hsends : c.repeated x ∈ (c.onTick now).segments := by simp [hsegments]
    exact mem_repeated.mpr ⟨⟨c.repeated x, hsends, hpiece⟩,
      hq.flight.isEmpty_eq_false hopen hmem, hq.flight.isNew_eq_false hopen hmem⟩
  · have hearly := hnone x (by rw [hqueue]; rfl)
    rw [hq.requeues.interval_eq] at hearly
    omega

/-- What a move sends again is queued. -/
theorem Queued.of_mem_repeated (hq : Queued options h c) (m : Move)
    (hu : u ∈ (c.stage m).repeated) : ∃ x ∈ c.resends.segments, x.piece = u := by
  obtain ⟨⟨p, hp, rfl⟩, hsome, hold⟩ := mem_repeated.mp hu
  obtain ⟨e, now, wall, rfl⟩ := event_of_mem_segments hp
  by_cases htick : e = .tick
  · subst htick
    obtain ⟨y, rest, hqueue, -, -, hpiece⟩ := hq.of_mem_repeated_tick hu
    exact ⟨y, hqueue ▸ List.mem_cons_self, hpiece.symm⟩
  · have hqueueing : Queueing options.resendInterval c now (c.process e now wall) :=
      .path hq.flight hq.requeues htick process_path
    exact hqueueing.repeats p hp hsome hold

/-- What is in flight starts in the oldest segment of the queue, and in no other. -/
theorem Flight.oldest_holds (hflight : Flight c) (hopen : c.phase ≠ .closed)
    (hne : c.sndUna ≠ c.sndNxt) :
    ∃ x rest, c.resends.segments = x :: rest ∧ x.holds c.sndUna ∧
      ∀ y ∈ rest, y.holds c.sndUna = false := by
  have hcovers := hflight.covers hopen
  have hspan := hflight.span_lt hopen
  have hpos : c.sndUna.distance c.sndUna < c.sndNxt.distance c.sndUna := by
    rw [SeqNum.distance_self]
    exact Nat.pos_of_ne_zero fun hzero => hne (SeqNum.distance_eq_zero_iff.mp hzero).symm
  have hone := hcovers.countP_holds hspan hpos
  obtain ⟨start, lead, hchain, huna, -, hhead⟩ := hcovers
  cases hqueue : c.resends.segments with
  | nil => exact absurd ((hflight.covers hopen).eq_nil_iff.mp hqueue) hne
  | cons x rest =>
    rw [hqueue] at hchain hone hspan hhead
    obtain ⟨rfl, -, -⟩ := ResendQueue.Chain.cons_iff.mp hchain
    have hlead : lead < x.range.size := hhead x rfl
    rw [ResendQueue.span_cons] at hspan
    have hx : x.holds c.sndUna := by
      rw [SentSegment.holds, huna, SeqNum.distance_add_of_lt _ (by omega), decide_eq_true_eq]
      exact hlead
    rw [List.countP_cons, if_pos hx] at hone
    have hnone : rest.countP (·.holds c.sndUna) = 0 := by omega
    exact ⟨x, rest, rfl, hx, fun y hy =>
      Bool.eq_false_iff.mpr (List.countP_eq_zero.mp hnone y hy)⟩

end Repeats

/-- How the move `m` repeats what is queued in `c`, behind the history `h`. -/
structure Paced (options : ConnectionOptions) (h : History) (c : Connection) (m : Move) : Prop where
  /-- What is queued was sent for the first time and is not acknowledged as a whole. -/
  queued : ∀ x ∈ c.resends.segments, h.Outstanding x.piece
  /-- A tick repeats the segment that holds SND.UNA exactly if its last sending, which was the first
  one or the timer's, is an interval ago.  It then sends the whole segment and nothing else. -/
  due : ∀ now wall, m = .event .tick now wall → c.IsServed now → c.sndUna ≠ c.sndNxt →
    ∃ x rest t, c.resends.segments = x :: rest ∧ x.holds c.sndUna ∧
      (∀ y ∈ rest, y.holds c.sndUna = false) ∧ h.sentAt? x.seq = some t ∧
      ((c.stage m).repeated ≠ [] ↔ t + options.resendInterval ≤ now) ∧
      ((c.stage m).repeated ≠ [] →
        ∃ p, (c.stage m).outcome.segments = [p] ∧ p.piece = x.piece ∧ (c.stage m).launched = [])
  /-- All sendings before the timer's, the first one and those of the timer, are an interval ago. -/
  apart : ∀ now wall, m = .event .tick now wall → ∀ u ∈ (c.stage m).repeated,
    (h.sentAt? u.seq).isSome ∧
      ∀ st ∈ h, ∀ t, st.sentAt? u.seq = some t → t + options.resendInterval ≤ now
  /-- Nothing is repeated once it was acknowledged as a whole. -/
  unacknowledged : ∀ u ∈ (c.stage m).repeated, h.Outstanding u

/-- Repeating is oldest first, whole and rate limited, for every move of every run whose clock does
not go back. -/
theorem paced_run (flow : Flow) (held : Option Segment) (options : ConnectionOptions) (t₀ : Nat)
    (moves : List Move) (m : Move)
    (hclock : History.InOrder ((begin flow held options t₀).history (moves ++ [m]))) :
    Paced options ((begin flow held options t₀).history moves)
      ((begin flow held options t₀).run moves) m := by
  have hq : Queued options ((begin flow held options t₀).history moves)
    ((begin flow held options t₀).run moves) := queued_run flow held options t₀ moves
  rw [history_append] at hclock
  generalize (begin flow held options t₀).history moves = h at hq hclock ⊢
  generalize (begin flow held options t₀).run moves = c at hq hclock ⊢
  have horder : h.InOrder := by
    rw [History.InOrder, List.filterMap_append] at hclock
    exact (List.pairwise_append.mp hclock).1
  have hdue : ∀ {now wall x}, m = .event .tick now wall → x ∈ c.resends.segments →
      (options.resendInterval ≤ x.age now ↔ x.sentAt + options.resendInterval ≤ now) := by
    rintro now wall x rfl hx
    have hle : x.sentAt ≤ now := hclock.sentAt?_le rfl (hq.recorded x hx).2
    rw [SentSegment.age]
    omega
  refine ⟨fun x hx => (hq.recorded x hx).1, ?_, ?_, ?_⟩
  · rintro now wall rfl hserved hne
    have hopen := Phase.ne_closed_of_isSynchronized hserved.is_synchronized
    obtain ⟨x, rest, hqueue, hx, hrest⟩ := hq.flight.oldest_holds hopen hne
    have hmem : x ∈ c.resends.segments := hqueue ▸ List.mem_cons_self
    have hpiece : (c.repeated x).piece = x.piece := c.piece_repeated (hq.flight.sound x hmem)
    have hold : c.isNew x.piece = false := hq.flight.isNew_eq_false hopen hmem
    have honly : (c.stage (.event .tick now wall)).repeated ≠ [] →
        options.resendInterval ≤ x.age now ∧
          (c.stage (.event .tick now wall)).outcome.segments = [c.repeated x] := by
      intro hsome
      obtain ⟨u, hu⟩ := List.exists_mem_of_ne_nil _ hsome
      obtain ⟨y, rest', hqueue', hage, hsegments, -⟩ := hq.of_mem_repeated_tick hu
      cases hqueue.symm.trans hqueue'
      exact ⟨hage, hsegments⟩
    refine ⟨x, rest, x.sentAt, hqueue, hx, hrest, (hq.recorded x hmem).2, ?_, fun hsome => ?_⟩
    · rw [← hdue rfl hmem]
      refine ⟨fun hsome => (honly hsome).1, fun hage => ?_⟩
      exact List.ne_nil_of_mem (hq.mem_repeated_tick hserved hqueue hage)
    · obtain ⟨-, hsegments⟩ := honly hsome
      refine ⟨c.repeated x, hsegments, hpiece, List.eq_nil_iff_forall_not_mem.mpr fun u hu => ?_⟩
      obtain ⟨p, hp, rfl, hnew⟩ := mem_launched.mp hu
      rw [hsegments, List.mem_singleton] at hp
      rw [hp, hpiece] at hnew
      cases hold.symm.trans hnew
  · rintro now wall rfl u hu
    obtain ⟨y, rest, hqueue, hage, -, rfl⟩ := hq.of_mem_repeated_tick hu
    have hmem : y ∈ c.resends.segments := hqueue ▸ List.mem_cons_self
    have hlast : h.sentAt? y.seq = some y.sentAt := (hq.recorded y hmem).2
    refine ⟨Option.isSome_of_eq_some hlast, fun st hst t ht => ?_⟩
    have hbefore : t ≤ y.sentAt := horder.le_sentAt? hlast hst ht
    have hago := (hdue rfl hmem).mp hage
    omega
  · intro u hu
    obtain ⟨x, hx, rfl⟩ := hq.of_mem_repeated m hu
    exact (hq.recorded x hx).1

/-- A segment of three bytes, the first of which is acknowledged meanwhile, is sent again as a whole
an interval after it was sent. -/
theorem paced_partlyAcknowledged :
    let client (seq ack : UInt32) (flags : Flags) (window : UInt16) : Event :=
      .segment { flow := default, seq := ⟨seq⟩, ack := ⟨ack⟩, flags, window, payload := [] }
    let options := { maxPayload := 3, windowSize := 100, resendInterval := 10, idleTimeout := 1000 }
    let moves := [.event (client 5 0 .syn 3) 0 0, .event (client 6 1 .ack 3) 1 0,
      .writeDownlink [1, 2, 3, 4], .event .relayData 2 0, .event .tick 11 0,
      .event (client 6 2 .ack 1) 11 0]
    let tick := .event .tick 12 0
    let c₀ := begin default none options 0
    History.InOrder (c₀.history (moves ++ [tick])) ∧
      ((c₀.run moves).apply tick).segments.map (fun p => (p.seq, p.payload)) =
        [(⟨1⟩, [1, 2, 3])] ∧ Paced options (c₀.history moves) (c₀.run moves) tick := by
  intro client options moves tick c₀
  have hclock : History.InOrder (c₀.history (moves ++ [tick])) := by
    unfold History.InOrder
    decide +kernel
  exact ⟨hclock, by decide +kernel, paced_run default none options 0 moves tick hclock⟩

end Connection

end TcpGateway
