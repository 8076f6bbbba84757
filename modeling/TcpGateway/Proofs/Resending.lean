import TcpGateway.Proofs.Coverage
import TcpGateway.Proofs.Delivery
import TcpGateway.Proofs.Timer

/-!
# First sendings and repetitions

What a segment carries of the stream is a `Piece`: a number, bytes and perhaps the FIN.  A piece is
sent for the first time when its number is the next one to send, and any other sending of a piece
repeats it.

Every event but the timer's leaves the segments of the queue as they are or drops them, and adds
what it sends for the first time (`Queueing`).  It repeats something in one case only: in phase
LastAck the FIN, which is in the queue until it is acknowledged (`Requeues`).
-/

namespace TcpGateway

/-- What of a segment stays the same whenever it is sent. -/
structure Piece where
  seq : SeqNum
  data : Bytes
  isFin : Bool
deriving DecidableEq

namespace Piece

/-- Whether it carries nothing of the stream. -/
def isEmpty (u : Piece) : Bool := u.data.isEmpty && !u.isFin

/-- The number behind it. -/
def stop (u : Piece) : SeqNum := u.seq.add (u.data.length + u.isFin.toNat)

end Piece

def Segment.piece (p : Segment) : Piece := ⟨p.seq, p.payload, p.isFin⟩

def SentSegment.piece (x : SentSegment) : Piece := ⟨x.seq, x.data, x.isFin⟩

/-- Whether `u` is sent by `c` for the first time: it is data at the next number, or the FIN. -/
def Connection.isNew (c : Connection) (u : Piece) : Bool :=
  if u.isFin then c.finSeq.isNone else !u.data.isEmpty && u.seq == c.sndNxt

namespace Stage

/-- The pieces of the stream that the stage sends. -/
def pieces (st : Stage) : List Piece :=
  (st.outcome.segments.map (·.piece)).filter (!·.isEmpty)

/-- The pieces sent for the first time. -/
def launched (st : Stage) : List Piece := st.pieces.filter st.before.isNew

/-- The pieces sent again. -/
def repeated (st : Stage) : List Piece := st.pieces.filter (!st.before.isNew ·)

def isTick (st : Stage) : Bool :=
  match st.move with
  | .event .tick _ _ => true
  | _ => false

/-- The time of an event. -/
def time? (st : Stage) : Option Nat :=
  match st.move with
  | .event _ now _ => some now
  | _ => none

/-- The pieces sent for the first time or by the timer. -/
def timed (st : Stage) : List Piece := if st.isTick then st.pieces else st.launched

/-- The time of the stage, if it sends a piece at `n` for the first time or by the timer. -/
def sentAt? (st : Stage) (n : SeqNum) : Option Nat :=
  if st.timed.any (·.seq == n) then st.time? else none

end Stage

namespace History

/-- Whether no event comes before an earlier one. -/
def InOrder (h : History) : Prop := (h.filterMap Stage.time?).Pairwise (· ≤ ·)

/-- When a piece at `n` was last sent, for the first time or by the timer. -/
def sentAt? (h : History) (n : SeqNum) : Option Nat := (h.filterMap (·.sentAt? n)).getLast?

/-- Whether `u` was sent for the first time in `h`, nothing else was since at its number, and its
end has been ahead of SND.UNA ever since. -/
def Outstanding (h : History) (u : Piece) : Prop :=
  ∃ front st back, h = front ++ st :: back ∧ u ∈ st.launched ∧
    (∀ st' ∈ back, ∀ v ∈ st'.launched, v.seq ≠ u.seq) ∧
    ∀ st' ∈ st :: back, st'.after.sndUna.precedes u.stop

end History

/-! ## Pieces -/

theorem SentSegment.Sound.stop_piece {fin : Option SeqNum} {x : SentSegment} (h : x.Sound fin) :
    x.piece.stop = x.stop := by
  rw [x.stop_eq]
  show x.seq.add (x.data.length + x.isFin.toNat) = _
  cases hx : x.isFin with
  | false => rw [h.data_length hx, Bool.toNat_false, Nat.add_zero]
  | true =>
    obtain ⟨hdata, hsize, -⟩ := h.fin_seq hx
    rw [hdata, hsize]
    rfl

namespace Connection

theorem isEmpty_of_isNew {c : Connection} {u : Piece} (h : c.isNew u) : u.isEmpty = false := by
  rw [isNew] at h
  rw [Piece.isEmpty]
  cases hfin : u.isFin <;> simp_all

theorem piece_dataSegment (c : Connection) (seq : SeqNum) (data : Bytes) :
    (c.dataSegment seq data).piece = ⟨seq, data, false⟩ := by
  rw [Segment.piece, isFin_dataSegment]
  rfl

theorem piece_finSegment (c : Connection) (seq : SeqNum) :
    (c.finSegment seq).piece = ⟨seq, [], true⟩ := by
  rw [Segment.piece, isFin_finSegment]
  rfl

theorem piece_repeated (c : Connection) {fin : Option SeqNum} {x : SentSegment}
    (h : x.Sound fin) : (c.repeated x).piece = x.piece := by
  rw [repeated, SentSegment.piece]
  cases hx : x.isFin with
  | false => exact c.piece_dataSegment x.seq x.data
  | true =>
    rw [(h.fin_seq hx).1]
    exact c.piece_finSegment x.seq

/-- What carries neither payload nor FIN is no piece of the stream. -/
theorem isEmpty_piece {p : Segment} (hpay : p.payload = []) (hfin : p.isFin = false) :
    p.piece.isEmpty := by
  simp [Piece.isEmpty, Segment.piece, hpay, hfin]

theorem isEmpty_of_length {p : Segment} (h : p.length = 0) : p.piece.isEmpty :=
  isEmpty_piece (length_eq_zero_iff.mp h).1 (length_eq_zero_iff.mp h).2.2

/-- What is queued is not new. -/
theorem Flight.isNew_eq_false {c : Connection} (h : Flight c) (hp : c.phase ≠ .closed)
    {x : SentSegment} (hx : x ∈ c.resends.segments) : c.isNew x.piece = false := by
  have hsound := h.sound x hx
  have hseq : x.seq ≠ c.sndNxt := (h.covers hp).seq_ne (h.span_lt hp) hx
  rw [isNew]
  cases hfin : x.isFin with
  | false => simp [SentSegment.piece, hfin, hseq]
  | true =>
    obtain ⟨-, -, hsome⟩ := hsound.fin_seq hfin
    simp [SentSegment.piece, hfin, hsome]

theorem Flight.isEmpty_eq_false {c : Connection} (h : Flight c) (hp : c.phase ≠ .closed)
    {x : SentSegment} (hx : x ∈ c.resends.segments) : x.piece.isEmpty = false := by
  obtain ⟨start, lead, hchain, -⟩ := h.covers hp
  have hpos := hchain.pos x hx
  rw [Piece.isEmpty]
  cases hfin : x.isFin with
  | false =>
    have hlen := (h.sound x hx).data_length hfin
    have hne : x.data ≠ [] := by
      rintro hnil
      rw [hnil, List.length_nil] at hlen
      omega
    simp [SentSegment.piece, hne]
  | true => simp [SentSegment.piece, hfin]

theorem Flight.waiting_ne_nil {c : Connection} (h : Flight c) (hne : c.nextSize ≠ 0) :
    c.downlink.waiting c.nextSize ≠ [] := by
  intro hnil
  have hlen := h.length_waiting
  rw [hnil] at hlen
  exact hne hlen.symm

/-- Settling queues nothing. -/
theorem mem_of_mem_settle {o : Outcome} {x : SentSegment}
    (hx : x ∈ (settle o).connection.resends.segments) : x ∈ o.connection.resends.segments := by
  obtain ⟨advertised, hc⟩ := settle_connection o
  rw [hc] at hx
  by_cases hp : o.connection.phase = .closed
  · simp [hp, ResendQueue.clear] at hx
  · simpa [hp] using hx

/-! ## What every run keeps of the queue -/

/-- The queue has kept its interval, and holds the FIN until it is acknowledged. -/
structure Requeues (interval : Nat) (c : Connection) : Prop where
  interval_eq : c.resends.interval = interval
  fin_queued : c.phase.isBehindFin → c.sndUna ≠ c.sndNxt → ∃ x ∈ c.resends.segments, x.isFin

namespace Requeues

variable {interval : Nat} {c c' : Connection} {e : Event} {now wall : Nat} {o o' : Outcome}

theorem congr (h : Requeues interval c) (hqueue : c'.resends = c.resends)
    (huna : c'.sndUna = c.sndUna) (hnxt : c'.sndNxt = c.sndNxt)
    (hphase : c'.phase.isBehindFin → c.phase.isBehindFin) : Requeues interval c' where
  interval_eq := hqueue ▸ h.interval_eq
  fin_queued := by
    rw [hqueue, huna, hnxt]
    exact fun hp => h.fin_queued (hphase hp)

/-- Before our FIN was sent there is none to queue. -/
theorem of_early (h : Requeues interval c) (hinterval : c'.resends.interval = c.resends.interval)
    (hphase : c'.phase.isBehindFin = false) : Requeues interval c' where
  interval_eq := hinterval.trans h.interval_eq
  fin_queued := fun hp => by cases hphase.symm.trans hp

/-- An acknowledgment that covers the FIN leaves nothing in flight. -/
theorem afterAck {s : Segment} {p : Phase} (h : Requeues interval c) (hflight : Flight c)
    (hle : s.ack.distance c.sndUna ≤ c.downlink.inFlight)
    (hphase : p.isBehindFin → c.phase.isBehindFin) :
    Requeues interval { c.afterAck s with phase := p } where
  interval_eq := h.interval_eq
  fin_queued := by
    intro hp hne
    change s.ack ≠ c.sndNxt at hne
    have hlt := hflight.inFlight_lt
    have hack : s.ack = c.sndUna.add (s.ack.distance c.sndUna) := (SeqNum.add_distance _ _).symm
    have hnxt : c.sndNxt = c.sndUna.add c.downlink.inFlight := c.downlink.nxt_eq
    have hbehind : c.sndUna ≠ c.sndNxt := by
      intro hsame
      have hzero := Flight.inFlight_eq_zero hsame
      rw [hzero, SeqNum.add_zero] at hnxt
      have hself : s.ack.distance c.sndUna = 0 := by omega
      exact hne ((SeqNum.distance_eq_zero_iff.mp hself).trans hsame)
    obtain ⟨x, hx, hfin⟩ := h.fin_queued (hphase hp) hbehind
    obtain ⟨-, hsize, hseq⟩ := (hflight.sound x hx).fin_seq hfin
    have hstop : x.stop = c.sndNxt := by
      rw [x.stop_eq, hsize, hflight.fin_next x.seq hseq]
      rfl
    have hnot : x.isCoveredBy s.ack = false := by
      have hprec : ¬ c.sndNxt.precedes s.ack := by
        rw [hack, hnxt, SeqNum.precedes_add_add _ (by omega) (by omega)]
        omega
      rw [SentSegment.isCoveredBy, hstop, Bool.or_eq_false_iff, beq_eq_false_iff_ne]
      exact ⟨hne.symm, Bool.eq_false_iff.mpr hprec⟩
    exact ⟨x, List.mem_filter.mpr ⟨hx, by simp [hnot]⟩, hfin⟩

theorem acknowledged {s : Segment} {p : Phase} (h : Requeues interval c) (hflight : Flight c)
    (happ : c.applyAck s = some c') (hphase : p.isBehindFin → c.phase.isBehindFin) :
    Requeues interval { c' with phase := p } := by
  obtain ⟨-, rfl⟩ | ⟨-, hle, rfl⟩ := applyAck_eq_some happ
  · exact h.congr rfl rfl rfl hphase
  · exact h.afterAck hflight hle hphase

theorem step (h : Requeues interval o.connection) (hflight : Flight o.connection)
    (hstep : Step e now wall o o') : Requeues interval o'.connection := by
  cases hstep with
  | recorded _ => exact h.congr rfl rfl rfl id
  | touched _ => exact h.congr rfl rfl rfl id
  | relayDone _ => exact h.congr rfl rfl rfl id
  | listened _ _ _ => exact h.of_early rfl rfl
  | heldSynAccepted _ _ _ _ => exact h.of_early rfl rfl
  | synAccepted _ _ _ => exact h.of_early rfl rfl
  | synAckRepeated _ _ _ => exact h.congr rfl rfl rfl id
  | synAckResent _ _ => exact h.congr rfl rfl rfl id
  | @ackRefused c s _ _ =>
    obtain ⟨counters, hc⟩ := sendResetFor_connection c.stay s
    rw [hc]
    exact h.congr rfl rfl rfl id
  | established _ _ _ _ _ => exact h.of_early rfl rfl
  | @acknowledged c c' s _ _ _ _ applied =>
    have hacked := h.acknowledged (p := c.phase) hflight applied id
    rwa [← applyAck_phase applied] at hacked
  | lastAcknowledged _ _ _ _ applied => exact h.acknowledged hflight applied (by rintro ⟨⟩)
  | received _ _ not_empty accepted =>
    obtain ⟨-, -, rfl⟩ := acceptPayload_eq_some accepted not_empty
    exact h.congr rfl rfl rfl id
  | finReceived _ _ _ => exact h.of_early rfl rfl
  | @lastFinReceived c s p _ _ ends =>
    refine h.congr rfl rfl rfl fun hp => ?_
    rcases ends with ⟨hq, -⟩ | ⟨hq, -⟩ <;> exact hq ▸ rfl
  | @finAcknowledged c s _ _ is_waiting _ =>
    have hbehind : c.phase.isBehindFin := is_waiting ▸ rfl
    exact h.congr rfl rfl rfl fun _ => hbehind
  | answered _ => exact h.congr rfl rfl rfl id
  | dataSent can_send _ => exact h.of_early rfl (Phase.of_canSend can_send).2.1
  | @resent c x rest _ _ is_oldest _ =>
    refine ⟨h.interval_eq, fun hp hne => ?_⟩
    obtain ⟨y, hy, hfin⟩ := h.fin_queued hp hne
    change y ∈ c.resends.segments at hy
    rw [is_oldest] at hy
    rcases List.mem_cons.mp hy with rfl | hrest
    · exact ⟨{ y with sentAt := now }, List.mem_cons_self, hfin⟩
    · exact ⟨y, List.mem_cons_of_mem _ hrest, hfin⟩
  | finRepeated _ _ => exact h.congr rfl rfl rfl id
  | finSent _ can_send is_ready =>
    rw [sendFinIfReady_eq now can_send is_ready]
    exact ⟨h.interval_eq, fun _ _ =>
      ⟨.ofFin o.connection.sndNxt now, List.mem_append_right _ List.mem_cons_self, rfl⟩⟩
  | closed closes =>
    obtain ⟨held, counters, hc⟩ := closes.connection_eq
    rw [hc]
    exact h.of_early rfl rfl
  | settled =>
    obtain ⟨advertised, hc⟩ := settle_connection o
    rw [hc]
    by_cases hp : o.connection.phase = .closed
    · exact h.of_early (by simp [hp, ResendQueue.clear]) (by simp [hp, Phase.isBehindFin])
    · exact h.congr (by simp [hp]) rfl rfl id

theorem apply (h : Requeues interval c) (hflight : Flight c) (m : Move) :
    Requeues interval (c.apply m).connection := by
  rcases c.event_or_bufferMove m with ⟨e, now, wall, rfl⟩ | hmove
  · exact (event_induction (P := fun o => Flight o.connection ∧ Requeues interval o.connection)
      ⟨hflight, h⟩ fun _ _ hboth hstep =>
        ⟨hboth.1.step hstep, hboth.2.step hboth.1 hstep⟩).2
  · obtain ⟨down, up, hc⟩ := hmove.connection_eq
    rw [hc]
    exact h.congr rfl rfl rfl id

theorem begin (flow : Flow) (held : Option Segment) (options : ConnectionOptions) (t₀ : Nat) :
    Requeues options.resendInterval (begin flow held options t₀) := by
  cases held <;> exact ⟨rfl, by rintro ⟨⟩⟩

end Requeues

/-! ## One event -/

/-- What an event that found the connection `c₀`, and is not the timer's, has done to the queue so
far. -/
structure Queueing (interval : Nat) (c₀ : Connection) (now : Nat) (o : Outcome) : Prop where
  flight : Flight o.connection
  requeues : Requeues interval o.connection
  fin_mono : o.connection.finSeq = none → c₀.finSeq = none
  quiet : o.segments = [] →
    (∀ x ∈ o.connection.resends.segments, x ∈ c₀.resends.segments) ∧
      o.connection.finSeq = c₀.finSeq ∧ o.connection.sndNxt = c₀.sndNxt
  /-- What is queued was queued before, or is sent for the first time. -/
  queued : ∀ x ∈ o.connection.resends.segments,
    (x ∈ c₀.resends.segments ∧ ∀ p ∈ o.segments, c₀.isNew p.piece → p.seq ≠ x.seq) ∨
      x.sentAt = now ∧ ∃ p ∈ o.segments, c₀.isNew p.piece ∧ p.piece = x.piece
  /-- What is sent again was queued before. -/
  repeats : ∀ p ∈ o.segments, p.piece.isEmpty = false → c₀.isNew p.piece = false →
    ∃ x ∈ c₀.resends.segments, x.piece = p.piece

namespace Queueing

variable {interval : Nat} {c₀ c c' : Connection} {e : Event} {now wall : Nat} {o o' : Outcome}

theorem start (hflight : Flight c₀) (hq : Requeues interval c₀) :
    Queueing interval c₀ now c₀.stay where
  flight := hflight
  requeues := hq
  fin_mono := id
  quiet := fun _ => ⟨fun _ => id, rfl, rfl⟩
  queued := fun x hx => .inl ⟨hx, by rintro _ ⟨⟩⟩
  repeats := by rintro _ ⟨⟩

/-- A step that sends nothing new, and of the stream nothing at all. -/
theorem bare (h : Queueing interval c₀ now o) (hnil : o.segments = [])
    (hflight : Flight o'.connection) (hrequeues : Requeues interval o'.connection)
    (hsub : ∀ x ∈ o'.connection.resends.segments, x ∈ o.connection.resends.segments)
    (hfin : o'.connection.finSeq = o.connection.finSeq)
    (hnext : o'.segments = [] → o'.connection.sndNxt = o.connection.sndNxt)
    (hbare : ∀ p ∈ o'.segments, p.piece.isEmpty) : Queueing interval c₀ now o' where
  flight := hflight
  requeues := hrequeues
  fin_mono := by
    rw [hfin]
    exact h.fin_mono
  quiet := by
    intro hnil'
    obtain ⟨hqueue, hsame, hnxt⟩ := h.quiet hnil
    exact ⟨fun x hx => hqueue x (hsub x hx), hfin.trans hsame, (hnext hnil').trans hnxt⟩
  queued := by
    intro x hx
    refine .inl ⟨(h.quiet hnil).1 x (hsub x hx), fun p hp hnew => ?_⟩
    cases (hbare p hp).symm.trans (isEmpty_of_isNew hnew)
  repeats := by
    intro p hp hsome
    cases (hbare p hp).symm.trans hsome

theorem silent (h : Queueing interval c₀ now c.stay) (hflight : Flight c')
    (hrequeues : Requeues interval c')
    (hsub : ∀ x ∈ c'.resends.segments, x ∈ c.resends.segments) (hfin : c'.finSeq = c.finSeq)
    (hnext : c'.sndNxt = c.sndNxt) : Queueing interval c₀ now c'.stay :=
  h.bare rfl hflight hrequeues hsub hfin (fun _ => hnext) (by rintro _ ⟨⟩)

theorem data (h : Queueing interval c₀ now c.stay) (can_send : c.phase.canSend)
    (not_empty : c.nextSize ≠ 0) (hflight : Flight (c.sendNext now c.nextSize).connection)
    (hrequeues : Requeues interval (c.sendNext now c.nextSize).connection) :
    Queueing interval c₀ now (c.sendNext now c.nextSize) := by
  obtain ⟨hqueue, -, hnxt⟩ := h.quiet rfl
  change c.sndNxt = c₀.sndNxt at hnxt
  have hclosed : c.phase ≠ .closed := (Phase.of_canSend can_send).1
  have hwaiting : c.downlink.waiting c.nextSize ≠ [] := h.flight.waiting_ne_nil not_empty
  obtain ⟨p, hp⟩ : ∃ p, p = (c.afterData now c.nextSize).dataSegment c.sndNxt
    (c.downlink.waiting c.nextSize) := ⟨_, rfl⟩
  have hsends : (c.sendNext now c.nextSize).segments = [p] := by rw [hp]; rfl
  have hpiece : p.piece = ⟨c.sndNxt, c.downlink.waiting c.nextSize, false⟩ :=
    hp ▸ piece_dataSegment _ _ _
  have hnew : c₀.isNew p.piece := by
    simp [hpiece, isNew, hwaiting, hnxt]
  exact {
    flight := hflight
    requeues := hrequeues
    fin_mono := h.fin_mono
    quiet := fun hnil => by simp [hsends] at hnil
    queued := by
      intro x hx
      rw [hsends]
      rcases List.mem_append.mp hx with hold | hadded
      · refine .inl ⟨hqueue x hold, fun q hq _ => ?_⟩
        rw [List.mem_singleton.mp hq, hp]
        exact ((h.flight.covers hclosed).seq_ne (h.flight.span_lt hclosed) hold).symm
      · rw [List.mem_singleton.mp hadded]
        exact .inr ⟨rfl, p, List.mem_cons_self, hnew, hpiece⟩
    repeats := by
      intro q hq _ hold
      rw [hsends, List.mem_singleton] at hq
      rw [hq, hnew] at hold
      cases hold }

theorem fin (h : Queueing interval c₀ now o) (can_send : o.connection.phase.canSend)
    (is_ready : o.connection.isReadyToClose)
    (hflight : Flight (o.sendFinIfReady now).connection)
    (hrequeues : Requeues interval (o.sendFinIfReady now).connection) :
    Queueing interval c₀ now (o.sendFinIfReady now) := by
  rw [sendFinIfReady_eq now can_send is_ready] at hflight hrequeues ⊢
  have hclosed : o.connection.phase ≠ .closed := (Phase.of_canSend can_send).1
  obtain ⟨p, hp⟩ : ∃ p, p = (o.connection.afterFin now).finSegment o.connection.sndNxt := ⟨_, rfl⟩
  have hpiece : p.piece = ⟨o.connection.sndNxt, [], true⟩ := hp ▸ piece_finSegment _ _
  have hnew : c₀.isNew p.piece := by
    rw [hpiece, isNew, if_pos rfl, h.fin_mono (h.flight.of_isReadyToClose is_ready).2.1]
    rfl
  rw [← hp]
  exact {
    flight := hflight
    requeues := hrequeues
    fin_mono := by rintro ⟨⟩
    quiet := fun hnil => by simp at hnil
    queued := by
      intro x hx
      rcases List.mem_append.mp hx with hold | hadded
      · rcases h.queued x hold with ⟨hwas, hnone⟩ | ⟨hnow, q, hq, hboth⟩
        · refine .inl ⟨hwas, fun q hq hqnew => ?_⟩
          rcases List.mem_append.mp hq with hbefore | hlast
          · exact hnone q hbefore hqnew
          · rw [List.mem_singleton.mp hlast, hp]
            exact ((h.flight.covers hclosed).seq_ne (h.flight.span_lt hclosed) hold).symm
        · exact .inr ⟨hnow, q, List.mem_append_left _ hq, hboth⟩
      · rw [List.mem_singleton.mp hadded]
        exact .inr ⟨rfl, p, List.mem_append_right _ List.mem_cons_self, hnew, hpiece⟩
    repeats := by
      intro q hq hsome hold
      rcases List.mem_append.mp hq with hbefore | hlast
      · exact h.repeats q hbefore hsome hold
      · rw [List.mem_singleton.mp hlast, hnew] at hold
        cases hold }

/-- In phase LastAck the FIN is sent again. -/
theorem lastFin {fin : SeqNum} (h : Queueing interval c₀ now c.stay) (is_lastAck : c.phase = .lastAck)
    (is_fin : c.finSeq = some fin) :
    Queueing interval c₀ now (c.stay.send (c.finSegment fin)) := by
  obtain ⟨hqueue, hfin, -⟩ := h.quiet rfl
  obtain ⟨x, hx, hxfin⟩ := h.requeues.fin_queued (by rw [stay, is_lastAck]; rfl)
    (h.flight.lastAck is_lastAck)
  obtain ⟨hdata, -, hseq⟩ := (h.flight.sound x hx).fin_seq hxfin
  cases is_fin.symm.trans hseq
  have hpiece : (c.finSegment x.seq).piece = x.piece := by
    rw [piece_finSegment, SentSegment.piece, hxfin, hdata]
  have hnot : c₀.isNew x.piece = false := by
    have hsome : c₀.finSeq = some x.seq := hfin.symm.trans hseq
    simp [isNew, SentSegment.piece, hxfin, hsome]
  exact {
    flight := h.flight
    requeues := h.requeues
    fin_mono := h.fin_mono
    quiet := by rintro ⟨⟩
    queued := by
      intro y hy
      refine .inl ⟨hqueue y hy, fun q hq hnew => ?_⟩
      rw [List.mem_singleton.mp hq, hpiece, hnot] at hnew
      cases hnew
    repeats := by
      intro q hq _ _
      rw [List.mem_singleton.mp hq]
      exact ⟨x, hqueue x hx, hpiece.symm⟩ }

theorem step (h : Queueing interval c₀ now o) (hnot : e ≠ .tick) (hstep : Step e now wall o o') :
    Queueing interval c₀ now o' := by
  have hflight := h.flight.step hstep
  have hrequeues := h.requeues.step h.flight hstep
  have hsynAck : ∀ c : Connection, ∀ p ∈ [c.synAckSegment], p.piece.isEmpty := by
    intro c p hp
    rw [List.mem_singleton.mp hp]
    exact isEmpty_piece rfl c.isFin_synAckSegment
  have hack : ∀ c : Connection, ∀ p ∈ [c.ackSegment], p.piece.isEmpty := by
    intro c p hp
    rw [List.mem_singleton.mp hp]
    exact isEmpty_of_length c.length_ackSegment
  cases hstep with
  | recorded _ => exact h.silent hflight hrequeues (fun _ => id) rfl rfl
  | touched _ => exact h.silent hflight hrequeues (fun _ => id) rfl rfl
  | relayDone _ => exact h.silent hflight hrequeues (fun _ => id) rfl rfl
  | listened _ _ _ => exact h.silent hflight hrequeues (fun _ => id) rfl rfl
  | heldSynAccepted _ _ _ _ =>
    exact h.bare rfl hflight hrequeues (fun _ => id) rfl (by rintro ⟨⟩) (hsynAck _)
  | synAccepted _ _ _ =>
    exact h.bare rfl hflight hrequeues (fun _ => id) rfl (by rintro ⟨⟩) (hsynAck _)
  | synAckRepeated _ _ _ =>
    exact h.bare rfl hflight hrequeues (fun _ => id) rfl (fun _ => rfl) (hsynAck _)
  | synAckResent _ _ =>
    exact h.bare rfl hflight hrequeues (fun _ => id) rfl (fun _ => rfl) (hsynAck _)
  | @ackRefused c s _ _ =>
    obtain ⟨counters, hc⟩ := sendResetFor_connection c.stay s
    obtain ⟨resets, hsegments, hlength⟩ := sendResetFor_segments c.stay s
    refine h.bare rfl hflight hrequeues ?_ (by rw [hc]) (fun _ => by rw [hc]; rfl) ?_
    · rw [hc]
      exact fun _ => id
    · rw [hsegments]
      exact fun p hp => isEmpty_of_length (hlength p hp)
  | established _ _ _ _ _ => exact h.silent hflight hrequeues (fun _ => id) rfl rfl
  | acknowledged _ _ _ _ applied =>
    obtain ⟨-, rfl⟩ | ⟨-, -, rfl⟩ := applyAck_eq_some applied
    · exact h.silent hflight hrequeues (fun _ => id) rfl rfl
    · exact h.silent hflight hrequeues (fun _ => List.mem_of_mem_filter) rfl rfl
  | lastAcknowledged _ _ _ _ applied =>
    obtain ⟨-, rfl⟩ | ⟨-, -, rfl⟩ := applyAck_eq_some applied
    · exact h.silent hflight hrequeues (fun _ => id) rfl rfl
    · exact h.silent hflight hrequeues (fun _ => List.mem_of_mem_filter) rfl rfl
  | received _ _ not_empty accepted =>
    obtain ⟨-, -, rfl⟩ := acceptPayload_eq_some accepted not_empty
    exact h.silent hflight hrequeues (fun _ => id) rfl rfl
  | finReceived _ _ _ => exact h.bare rfl hflight hrequeues (fun _ => id) rfl (fun _ => rfl) (hack _)
  | lastFinReceived _ _ _ =>
    exact h.bare rfl hflight hrequeues (fun _ => id) rfl (fun _ => rfl) (hack _)
  | finAcknowledged _ _ _ _ =>
    exact h.silent hflight hrequeues (fun _ => id) rfl rfl
  | answered _ => exact h.bare rfl hflight hrequeues (fun _ => id) rfl (fun _ => rfl) (hack _)
  | dataSent can_send not_empty => exact h.data can_send not_empty hflight hrequeues
  | resent is_tick _ _ _ => exact absurd is_tick hnot
  | finRepeated is_lastAck is_fin => exact h.lastFin is_lastAck is_fin
  | finSent _ can_send is_ready => exact h.fin can_send is_ready hflight hrequeues
  | closed closes =>
    obtain ⟨held, counters, hc⟩ := closes.connection_eq
    refine h.bare rfl hflight hrequeues ?_ (by rw [hc]; rfl) (fun _ => by rw [hc]; rfl)
      fun p hp => isEmpty_of_length (closes.segments_length p hp)
    rw [hc]
    exact fun _ => id
  | @settled o =>
    obtain ⟨advertised, hc⟩ := settle_connection o
    have hkept : (settle o).connection.finSeq = o.connection.finSeq ∧
        (settle o).connection.sndNxt = o.connection.sndNxt := by
      rw [hc]
      exact ⟨rfl, rfl⟩
    exact {
      flight := hflight
      requeues := hrequeues
      fin_mono := by
        rw [hkept.1]
        exact h.fin_mono
      quiet := by
        rw [hkept.1, hkept.2]
        intro hnil
        obtain ⟨hqueue, hboth⟩ := h.quiet hnil
        exact ⟨fun x hx => hqueue x (mem_of_mem_settle hx), hboth⟩
      queued := fun x hx => h.queued x (mem_of_mem_settle hx)
      repeats := h.repeats }

theorem path (hflight : Flight c₀) (hq : Requeues interval c₀) (hnot : e ≠ .tick)
    (hpath : Path e now wall c₀.stay o) : Queueing interval c₀ now o := by
  induction hpath with
  | refl => exact start hflight hq
  | tail _ hstep ih => exact ih.step hnot hstep

end Queueing

end Connection

end TcpGateway
