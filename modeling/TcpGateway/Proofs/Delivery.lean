import TcpGateway.Proofs.Effect
import TcpGateway.Proofs.Flight

/-!
# The client is sent the relay's bytes

`Delivered` relates a connection to all that was written into its downlink and to all data that it
sent for the first time: the data are a front of what was written, they are numbered one behind
the other from the initial number on, the buffer holds what was written from the first byte in
flight on, and what is queued is data sent before.  Every step keeps it (`Sending.step`), so it
holds after every run, whatever the length of the stream.
-/

namespace TcpGateway

/-! ## Consecutive segments -/

theorem payloads_append (l l' : List Segment) : payloads (l ++ l') = payloads l ++ payloads l' :=
  List.flatMap_append

theorem payloads_singleton (p : Segment) : payloads [p] = p.payload := List.append_nil _

/-- Segments that number their payloads from `n` on without a gap. -/
def Consecutive : SeqNum → List Segment → Prop
  | _, [] => True
  | n, s :: rest => s.seq = n ∧ Consecutive (n.add s.payload.length) rest

theorem consecutive_append {n : SeqNum} {l l' : List Segment} :
    Consecutive n (l ++ l') ↔ Consecutive n l ∧ Consecutive (n.add (payloads l).length) l' := by
  induction l generalizing n with
  | nil => simp [Consecutive, payloads]
  | cons s l ih =>
    have hlen : (payloads (s :: l)).length = s.payload.length + (payloads l).length :=
      List.length_append
    rw [List.cons_append, Consecutive, ih, Consecutive, hlen, SeqNum.add_add, and_assoc]

/-- Segments that all start at the number seen last do not change it. -/
theorem lastSeq_append {l l' : List Segment} {n : SeqNum} (hl : lastSeq l = some n)
    (h : ∀ p ∈ l', p.seq = n) : lastSeq (l ++ l') = some n := by
  cases hlast : l'.getLast? with
  | none =>
    rw [List.getLast?_eq_none_iff.mp hlast, List.append_nil]
    exact hl
  | some p =>
    rw [lastSeq, List.getLast?_append, hlast]
    exact congrArg some (h p (List.mem_of_getLast? hlast))

theorem lastSeq_concat (l : List Segment) (p : Segment) : lastSeq (l ++ [p]) = some p.seq := by
  simp [lastSeq]

namespace Connection

/-! ## The invariant -/

/-- The data `first`, sent for the first time under the initial number `iss?`, are a front of
`written`, and the connection goes on from there. -/
structure Delivered (iss? : Option SeqNum) (written : Bytes) (first : List Segment)
    (c : Connection) : Prop where
  greeted : c.phase.isGreeted → iss?.isSome
  answered : first ≠ [] → iss?.isSome
  opening : c.phase.isOpening → first = []
  numbered : ∀ iss, iss? = some iss → c.iss = iss ∧ Consecutive iss.next first ∧
    c.sndNxt = iss.next.add ((payloads first).length + c.finSeq.isSome.toNat)
  sent : payloads first <+: written
  /-- The buffer starts with the first byte in flight. -/
  held : c.finSeq = none → c.downlink.inFlight ≤ (payloads first).length ∧
    c.downlink.buffer.bytes = written.drop ((payloads first).length - c.downlink.inFlight)
  queued : ∀ x ∈ c.resends.segments, x.isFin = false →
    ∃ p ∈ first, p.seq = x.seq ∧ p.payload = x.data

namespace Delivered

variable {iss? : Option SeqNum} {written : Bytes} {first : List Segment} {c c' : Connection}

theorem kept (h : Delivered iss? written first c) (hkept : Kept c c') :
    Delivered iss? written first c' where
  greeted := fun hp => h.greeted (hkept.greeted hp)
  answered := h.answered
  opening := fun hp => h.opening (hkept.opening hp)
  numbered := by
    rw [hkept.iss, hkept.finSeq, sndNxt, hkept.downlink]
    exact h.numbered
  sent := h.sent
  held := by
    rw [hkept.finSeq, hkept.downlink]
    exact h.held
  queued := by
    intro x' hx' hfin
    obtain ⟨x, hx, hseq, hdata, hkind⟩ := hkept.queue x' hx'
    rw [hseq, hdata]
    exact h.queued x hx (hkind ▸ hfin)

/-- In phase SynReceived a SYN-ACK was sent, at the number that the connection remembers. -/
theorem iss_eq (h : Delivered iss? written first c) (hp : c.phase = .synReceived) :
    iss? = some c.iss := by
  obtain ⟨iss, hiss⟩ := Option.isSome_iff_exists.mp (h.greeted (hp ▸ rfl))
  rw [hiss, (h.numbered iss hiss).1]

/-- The stream is numbered anew while nothing of it was sent. -/
theorem renumbered (h : Delivered iss? written first c) (hflight : Flight c)
    (hp : c.phase.isOpening) (hdown : c'.downlink = .ofBuffer c.downlink.buffer c'.iss.next)
    (hfin : c'.finSeq = c.finSeq) (hqueue : c'.resends = c.resends) :
    Delivered (some c'.iss) written first c' := by
  have hnone : c.finSeq = none := hflight.finSeq_of_isOpening hp
  have hfirst := h.opening hp
  have hheld := h.held hnone
  have hzero := Flight.inFlight_eq_zero (hflight.opening hp)
  have hzero' : c'.downlink.inFlight = 0 := by
    rw [hdown]
    exact SeqNum.distance_self _
  subst hfirst
  exact {
    greeted := fun _ => rfl
    answered := fun hne => absurd rfl hne
    opening := fun _ => rfl
    numbered := by
      intro iss hiss
      cases hiss
      refine ⟨rfl, trivial, ?_⟩
      rw [hfin, hnone, sndNxt, hdown]
      exact (SeqNum.add_zero _).symm
    sent := h.sent
    held := by
      intro _
      rw [hzero']
      rw [hzero] at hheld
      rw [hdown]
      exact hheld
    queued := by
      rw [hqueue]
      exact h.queued }

theorem acknowledged {s : Segment} {p : Phase} (h : Delivered iss? written first c)
    (hle : s.ack.distance c.sndUna ≤ c.downlink.inFlight) (hp : p = c.phase ∨ p = .closed) :
    Delivered iss? written first { c.afterAck s with phase := p } where
  greeted := by
    intro hg
    rcases hp with rfl | rfl
    · exact h.greeted hg
    · cases hg
  answered := h.answered
  opening := by
    intro ho
    rcases hp with rfl | rfl
    · exact h.opening ho
    · cases ho
  numbered := h.numbered
  sent := h.sent
  held := by
    intro hfin
    obtain ⟨hflight, hbuf⟩ := h.held hfin
    have hreleased : (c.afterAck s).downlink.inFlight =
        c.downlink.inFlight - s.ack.distance c.sndUna := c.downlink.inFlight_release hle
    show (c.afterAck s).downlink.inFlight ≤ _ ∧ c.downlink.buffer.bytes.drop _ =
      written.drop (_ - (c.afterAck s).downlink.inFlight)
    rw [hreleased, hbuf, List.drop_drop]
    refine ⟨by omega, congrArg (fun n => written.drop n) ?_⟩
    show _ + s.ack.distance c.sndUna = _
    omega
  queued := fun x hx => h.queued x (List.mem_of_mem_filter hx)

/-- What waits behind the data sent is the next piece of what was written. -/
theorem waiting_eq (h : Delivered iss? written first c) (hfin : c.finSeq = none) (n : Nat) :
    c.downlink.waiting n = (written.drop (payloads first).length).take n := by
  obtain ⟨hle, hbuf⟩ := h.held hfin
  rw [Downlink.waiting, hbuf, List.drop_drop, Nat.sub_add_cancel hle]

theorem data {now : Nat} (h : Delivered iss? written first c) (hflight : Flight c)
    (hsend : c.phase.canSend) {p : Segment} (hp : p = (c.afterData now c.nextSize).dataSegment
      c.sndNxt (c.downlink.waiting c.nextSize)) :
    Delivered iss? written (first ++ [p]) (c.afterData now c.nextSize) := by
  obtain ⟨-, -, hopening, hgreeted⟩ := Phase.of_canSend hsend
  have hfin : c.finSeq = none := hflight.finSeq_of_canSend hsend
  have hsize := hflight.nextSize_le
  have hflying := hflight.sent_le hfin
  have hbound := hflight.bounded.length_le
  have hwin := c.options.windowSize.toNat_lt
  obtain ⟨hle, hbuf⟩ := h.held hfin
  have hpay : p.payload = (written.drop (payloads first).length).take c.nextSize := by
    rw [hp, ← h.waiting_eq hfin]
    rfl
  have hlen : p.payload.length = c.nextSize := by
    rw [hp]
    exact hflight.length_waiting
  have hsum : (payloads (first ++ [p])).length = (payloads first).length + c.nextSize := by
    rw [payloads_append, payloads_singleton, List.length_append, hlen]
  have hadvance : (c.afterData now c.nextSize).downlink.inFlight =
      c.downlink.inFlight + c.nextSize := c.downlink.inFlight_advance (by omega)
  exact {
    greeted := h.greeted
    answered := fun _ => h.greeted hgreeted
    opening := fun ho => by cases hopening.symm.trans ho
    numbered := by
      intro iss hiss
      obtain ⟨hi, hcons, hnxt⟩ := h.numbered iss hiss
      rw [hfin] at hnxt
      refine ⟨hi, consecutive_append.mpr ⟨hcons, ?_, trivial⟩, ?_⟩
      · rw [hp]
        exact hnxt
      · change c.sndNxt.add c.nextSize = iss.next.add (_ + c.finSeq.isSome.toNat)
        rw [hnxt, hfin, SeqNum.add_add, hsum]
        rfl
    sent := by
      obtain ⟨rest, rfl⟩ := h.sent
      rw [payloads_append, payloads_singleton, hpay, List.drop_left, List.prefix_append_right_inj]
      exact List.take_prefix _ _
    held := by
      intro _
      rw [hadvance, hsum, Nat.add_sub_add_right]
      exact ⟨by omega, hbuf⟩
    queued := by
      intro x hx hx'
      rcases List.mem_append.mp hx with hold | hnew
      · obtain ⟨q, hq, hsame⟩ := h.queued x hold hx'
        exact ⟨q, List.mem_append_left _ hq, hsame⟩
      · obtain rfl := List.mem_singleton.mp hnew
        refine ⟨p, List.mem_append_right _ List.mem_cons_self, ?_⟩
        rw [hp]
        exact ⟨rfl, rfl⟩ }

theorem fin {now : Nat} (h : Delivered iss? written first c) (hsend : c.phase.canSend)
    (hready : c.isReadyToClose) : Delivered iss? written first (c.afterFin now) := by
  have hfin : c.finSeq = none := by
    simp only [isReadyToClose, Bool.and_eq_true, Option.isNone_iff_eq_none] at hready
    exact hready.1.2
  obtain ⟨-, -, -, hgreeted⟩ := Phase.of_canSend hsend
  exact {
    greeted := fun _ => h.greeted hgreeted
    answered := h.answered
    opening := by
      intro ho
      rcases Phase.afterOurFin_of_canSend hsend with hp | hp
      · rw [show (c.afterFin now).phase = .finWait1 from hp] at ho
        cases ho
      · rw [show (c.afterFin now).phase = .lastAck from hp] at ho
        cases ho
    numbered := by
      intro iss hiss
      obtain ⟨hi, hcons, hnxt⟩ := h.numbered iss hiss
      rw [hfin] at hnxt
      refine ⟨hi, hcons, ?_⟩
      show c.sndNxt.add 1 = _
      rw [hnxt, SeqNum.add_add]
      rfl
    sent := h.sent
    held := by rintro ⟨⟩
    queued := by
      intro x hx hx'
      rcases List.mem_append.mp hx with hold | hnew
      · exact h.queued x hold hx'
      · obtain rfl := List.mem_singleton.mp hnew
        cases hx' }

/-- More bytes in the downlink are more to send. -/
theorem write {data : Bytes} {b : Buffer} (h : Delivered iss? written first c)
    (hb : b.bytes = c.downlink.buffer.bytes ++ data) :
    Delivered iss? (written ++ data) first { c with downlink.buffer := b } where
  greeted := h.greeted
  answered := h.answered
  opening := h.opening
  numbered := h.numbered
  sent := h.sent.trans (List.prefix_append _ _)
  held := by
    intro hfin
    obtain ⟨hle, hbuf⟩ := h.held hfin
    refine ⟨hle, ?_⟩
    have hlen := h.sent.length_le
    show b.bytes = (written ++ data).drop ((payloads first).length - c.downlink.inFlight)
    rw [hb, hbuf, List.drop_append_of_le_length (by omega)]
  queued := h.queued

end Delivered

/-! ## In the middle of an event -/

theorem isFirst_eq_false {c : Connection} {p : Segment} (h : p.payload = []) :
    c.isFirst p = false := by
  simp [isFirst, h]

theorem payload_ne_nil_of_isFirst {c : Connection} {p : Segment} (h : c.isFirst p) :
    p.payload ≠ [] := by
  intro hnil
  rw [isFirst_eq_false hnil] at h
  cases h

/-- The invariant in the middle of an event that came after the history `h` and found the
connection `c₀`. -/
structure Sending (h : History) (c₀ : Connection) (o : Outcome) : Prop where
  flight : Flight o.connection
  delivered : Delivered (lastSeq (h.synAcks ++ o.segments.filter (·.isSyn))) h.written
    (h.firstSent ++ o.segments.filter c₀.isFirst) o.connection
  same_next : o.segments = [] → o.connection.sndNxt = c₀.sndNxt
  /-- Payload is sent for the first time, or is a copy of what was. -/
  copies : ∀ p ∈ o.segments, p.payload ≠ [] →
    c₀.isFirst p ∨ ∃ p' ∈ h.firstSent, p'.seq = p.seq ∧ p'.payload = p.payload
  syn_opening : ∀ p ∈ o.segments, p.isSyn → o.connection.phase.isOpening

namespace Sending

variable {h : History} {c₀ : Connection} {o o' : Outcome} {now : Nat}

theorem start (hflight : Flight c₀) (hd : Delivered h.iss? h.written h.firstSent c₀) :
    Sending h c₀ c₀.stay where
  flight := hflight
  delivered := by simpa [stay, History.iss?] using hd
  same_next := fun _ => rfl
  copies := by simp [stay]
  syn_opening := by simp [stay]

/-- While nothing was sent the connection continues the history. -/
theorem delivered_of_nil (hs : Sending h c₀ o) (hnil : o.segments = []) :
    Delivered h.iss? h.written h.firstSent o.connection := by
  have hd := hs.delivered
  rw [hnil, List.filter_nil, List.filter_nil, List.append_nil, List.append_nil] at hd
  exact hd

theorem kept (hs : Sending h c₀ o) (keeps : Kept o.connection o'.connection)
    (sends_nothing : o'.segments = o.segments)
    (late : o.segments = [] ∨ o'.connection.phase = o.connection.phase)
    (hflight : Flight o'.connection) : Sending h c₀ o' where
  flight := hflight
  delivered := by
    rw [sends_nothing]
    exact hs.delivered.kept keeps
  same_next := by
    intro hnil
    rw [sndNxt, keeps.downlink]
    exact hs.same_next (sends_nothing ▸ hnil)
  copies := by
    rw [sends_nothing]
    exact hs.copies
  syn_opening := by
    rw [sends_nothing]
    intro p hp hsyn
    rcases late with hnil | hphase
    · rw [hnil] at hp
      cases hp
    · rw [hphase]
      exact hs.syn_opening p hp hsyn

/-- Data that is repeated starts before SND.NXT. -/
theorem isFirst_of_repeats (hs : Sending h c₀ o) (nothing_sent : o.segments = []) {p : Segment}
    (hp : Repeats o.connection o'.connection p) : c₀.isFirst p = false := by
  by_contra hfirst
  rw [Bool.not_eq_false, isFirst, Bool.and_eq_true, beq_iff_eq, Bool.not_eq_true',
    List.isEmpty_eq_false_iff] at hfirst
  obtain ⟨x, hx, hsync, -, hseq, -⟩ := hp.of_payload hfirst.1
  have hclosed := Phase.ne_closed_of_isSynchronized hsync
  refine (hs.flight.covers hclosed).seq_ne (hs.flight.span_lt hclosed) hx ?_
  rw [← hseq, hfirst.2, hs.same_next nothing_sent]

/-- What is repeated is no first sending, and a SYN-ACK is repeated at its number. -/
theorem repeated (hs : Sending h c₀ o) (keeps : Kept o.connection o'.connection)
    (nothing_sent : o.segments = [])
    (repeats : ∀ p ∈ o'.segments, Repeats o.connection o'.connection p)
    (hflight : Flight o'.connection) : Sending h c₀ o' := by
  have hd := hs.delivered_of_nil nothing_sent
  have hfirst : o'.segments.filter c₀.isFirst = [] := by
    refine List.filter_eq_nil_iff.mpr fun p hp hfirst => ?_
    rw [hs.isFirst_of_repeats nothing_sent (repeats p hp)] at hfirst
    cases hfirst
  have hiss : lastSeq (h.synAcks ++ o'.segments.filter (·.isSyn)) = h.iss? := by
    by_cases hnone : o'.segments.filter (·.isSyn) = []
    · rw [hnone, List.append_nil, History.iss?]
    · obtain ⟨p, hp⟩ := List.exists_mem_of_ne_nil _ hnone
      obtain ⟨hp, hsyn⟩ := List.mem_filter.mp hp
      have hlast := hd.iss_eq ((repeats p hp).of_isSyn hsyn).1
      rw [hlast]
      refine lastSeq_append hlast fun q hq => ?_
      obtain ⟨hq, hsyn'⟩ := List.mem_filter.mp hq
      rw [((repeats q hq).of_isSyn hsyn').2.2, keeps.iss]
  exact {
    flight := hflight
    delivered := by
      rw [hfirst, hiss, List.append_nil]
      exact hd.kept keeps
    same_next := by
      intro _
      rw [sndNxt, keeps.downlink]
      exact hs.same_next nothing_sent
    copies := by
      intro p hp hpay
      obtain ⟨x, hx, -, hdata, hseq, hpayload⟩ := (repeats p hp).of_payload hpay
      rw [hseq, hpayload]
      exact .inr (hd.queued x hx hdata)
    syn_opening := by
      intro p hp hsyn
      rw [((repeats p hp).of_isSyn hsyn).2.1]
      rfl }

theorem effect (hs : Sending h c₀ o) (heffect : Effect now o o') (hflight : Flight o'.connection) :
    Sending h c₀ o' := by
  cases heffect with
  | kept keeps sends_nothing late => exact hs.kept keeps sends_nothing late hflight
  | repeated keeps nothing_sent repeats => exact hs.repeated keeps nothing_sent repeats hflight
  | numbered was_opening nothing_sent enters downlink finSeq queue sends =>
    have hd := hs.delivered_of_nil nothing_sent
    have hfirst : o'.segments.filter c₀.isFirst = [] := by
      rw [sends, List.filter_cons_of_neg, List.filter_nil]
      rw [isFirst_eq_false rfl]
      exact Bool.false_ne_true
    have hsyn : o'.segments.filter (·.isSyn) = [o'.connection.synAckSegment] := by
      rw [sends, List.filter_cons_of_pos (isSyn_synAckSegment _), List.filter_nil]
    exact {
      flight := hflight
      delivered := by
        rw [hfirst, hsyn, lastSeq_concat, List.append_nil]
        exact hd.renumbered hs.flight was_opening downlink finSeq queue
      same_next := fun hnil => by simp [sends] at hnil
      copies := by
        intro p hp hpay
        rw [sends, List.mem_singleton] at hp
        exact absurd (hp ▸ rfl) hpay
      syn_opening := by
        intro _ _ _
        rw [enters]
        rfl }
  | acknowledged nothing_sent _ in_flight phase is_after sends_nothing =>
    have hd := hs.delivered_of_nil nothing_sent
    exact {
      flight := hflight
      delivered := by
        rw [sends_nothing, is_after]
        simpa [History.iss?] using hd.acknowledged in_flight phase
      same_next := by
        intro _
        rw [is_after]
        exact hs.same_next nothing_sent
      copies := by simp [sends_nothing]
      syn_opening := by simp [sends_nothing] }
  | data can_send nothing_sent not_empty is_after =>
    have hd := hs.delivered_of_nil nothing_sent
    obtain ⟨p, hp⟩ : ∃ p, p = (o.connection.afterData now o.connection.nextSize).dataSegment
      o.connection.sndNxt (o.connection.downlink.waiting o.connection.nextSize) := ⟨_, rfl⟩
    have hsends : o'.segments = [p] := by rw [is_after, hp]; rfl
    have hsyn : p.isSyn = false := hp ▸ isSyn_dataSegment _ _ _
    have hlen : p.payload.length = o.connection.nextSize := by
      rw [hp]
      exact hs.flight.length_waiting
    have hfirst : c₀.isFirst p := by
      have hne : p.payload ≠ [] := by
        rintro hnil
        rw [hnil] at hlen
        exact not_empty hlen.symm
      have hseq : p.seq = c₀.sndNxt := by
        rw [← hs.same_next nothing_sent, hp]
        rfl
      simp [isFirst, hne, hseq]
    exact {
      flight := hflight
      delivered := by
        rw [hsends, List.filter_cons_of_pos hfirst, List.filter_nil,
          List.filter_cons_of_neg (by simp [hsyn]), List.filter_nil, List.append_nil, is_after]
        exact hd.data hs.flight can_send hp
      same_next := fun hnil => by simp [hsends] at hnil
      copies := by
        intro q hq _
        rw [hsends, List.mem_singleton] at hq
        exact .inl (hq ▸ hfirst)
      syn_opening := by
        intro q hq hq'
        rw [hsends, List.mem_singleton] at hq
        rw [hq, hsyn] at hq'
        cases hq' }
  | fin can_send is_ready is_after sends =>
    obtain ⟨p, hp⟩ : ∃ p, p = o'.connection.finSegment o.connection.sndNxt := ⟨_, rfl⟩
    rw [← hp] at sends
    have hsyn : p.isSyn = false := hp ▸ isSyn_finSegment _ _
    have hpay : p.payload = [] := hp ▸ rfl
    exact {
      flight := hflight
      delivered := by
        rw [sends, List.filter_append, List.filter_append, List.filter_cons_of_neg (by simp [hsyn]),
          List.filter_cons_of_neg (by simp [isFirst_eq_false hpay]), List.filter_nil,
          List.filter_nil, List.append_nil, List.append_nil, is_after]
        exact hs.delivered.fin can_send is_ready
      same_next := fun hnil => by simp [sends] at hnil
      copies := by
        intro q hq hne
        rw [sends] at hq
        rcases List.mem_append.mp hq with hold | hnew
        · exact hs.copies q hold hne
        · obtain rfl := List.mem_singleton.mp hnew
          exact absurd hpay hne
      syn_opening := by
        intro q hq hq'
        rw [sends] at hq
        rcases List.mem_append.mp hq with hold | hnew
        · obtain ⟨-, -, hopening, -⟩ := Phase.of_canSend can_send
          cases hopening.symm.trans (hs.syn_opening q hold hq')
        · obtain rfl := List.mem_singleton.mp hnew
          rw [hsyn] at hq'
          cases hq' }

theorem process (hflight : Flight c₀) (hd : Delivered h.iss? h.written h.firstSent c₀) (e : Event)
    (now wall : Nat) : Sending h c₀ (c₀.process e now wall) :=
  event_induction (start hflight hd) fun _ _ hs hstep =>
    hs.effect hstep.effect (hs.flight.step hstep)

end Sending

/-! ## Whole runs -/

theorem Delivered.begin (flow : Flow) (held : Option Segment) (options : ConnectionOptions)
    (t₀ : Nat) : Delivered none [] [] (begin flow held options t₀) := by
  have hstart : ∀ p : Phase, p = .held ∨ p = .listen →
      Delivered none [] [] (start flow p options t₀) := by
    intro p hp
    have hzero : (start flow p options t₀).downlink.inFlight = 0 := SeqNum.distance_self _
    exact {
      greeted := fun hg => by rcases hp with rfl | rfl <;> cases hg
      answered := fun hne => absurd rfl hne
      opening := fun _ => rfl
      numbered := by rintro _ ⟨⟩
      sent := List.nil_prefix
      held := fun _ => ⟨by omega, List.drop_nil.symm⟩
      queued := by rintro _ ⟨⟩ }
  cases held with
  | none => exact hstart .listen (.inr rfl)
  | some s => exact { hstart .held (.inl rfl) with }

theorem Delivered.apply {h : History} {c : Connection} (m : Move) (hflight : Flight c)
    (hd : Delivered h.iss? h.written h.firstSent c) :
    let h' : History := h ++ [c.stage m]
    Delivered h'.iss? h'.written h'.firstSent (c.apply m).connection := by
  intro h'
  have hiss : h'.iss? = lastSeq (h.synAcks ++ (c.stage m).synAcks) :=
    congrArg lastSeq (h.synAcks_concat _)
  rw [hiss, h.written_concat, h.firstSent_concat]
  rcases c.event_or_bufferMove m with ⟨e, now, wall, rfl⟩ | hmove
  · have hs := Sending.process hflight hd e now wall
    rw [show Stage.written ⟨c, .event e now wall, _⟩ = [] from rfl, List.append_nil]
    exact hs.delivered
  · have hsends : (c.stage m).synAcks = [] ∧ (c.stage m).firstSent = [] := by
      simp [Stage.synAcks, Stage.firstSent, hmove.segments_eq_nil]
    rw [hsends.1, hsends.2, List.append_nil, List.append_nil]
    cases hmove with
    | downlink _ applied appended _ =>
      rw [applied]
      exact hd.write appended
    | uplink _ applied _ _ not_written =>
      rw [not_written, List.append_nil, applied]
      exact { hd with }

/-- What was sent for the first time is a front of what was written, after every run. -/
theorem delivered_run (flow : Flow) (held : Option Segment) (options : ConnectionOptions)
    (t₀ : Nat) (moves : List Move) :
    let c₀ := begin flow held options t₀
    Flight (c₀.run moves) ∧
      Delivered (c₀.history moves).iss? (c₀.history moves).written (c₀.history moves).firstSent
        (c₀.run moves) :=
  run_induction (P := fun h c => Flight c ∧ Delivered h.iss? h.written h.firstSent c)
    ⟨.begin flow held options t₀, .begin flow held options t₀⟩
    (fun _ _ m hc => ⟨hc.1.apply m, hc.2.apply m hc.1⟩) moves


/-- The handshake is over once it is over. -/
theorem isOpening_of_apply {c : Connection} {m : Move}
    (h : (c.apply m).connection.phase.isOpening) :
    c.phase.isOpening := by
  rcases c.event_or_bufferMove m with ⟨e, now, wall, rfl⟩ | hmove
  · exact event_induction
      (P := fun o => o.connection.phase.isOpening → c.phase.isOpening) id
      (fun _ _ hp hstep hp' => hp (hstep.effect.isOpening hp')) h
  · obtain ⟨down, up, hc⟩ := hmove.connection_eq
    rw [hc] at h
    exact h

theorem isOpening_run (c₀ : Connection) (moves : List Move) :
    (c₀.run moves).phase.isOpening →
      ∀ st ∈ c₀.history moves, st.after.phase.isSynchronized = false := by
  refine run_induction (P := fun h c => c.phase.isOpening →
    ∀ st ∈ h, st.after.phase.isSynchronized = false) (fun _ => by simp) ?_ moves
  intro h c m hc hopen st hst
  rcases List.mem_append.mp hst with hold | hnew
  · exact hc (isOpening_of_apply hopen) st hold
  · obtain rfl := List.mem_singleton.mp hnew
    show (c.apply m).connection.phase.isSynchronized = false
    cases hp : (c.apply m).connection.phase <;>
      simp_all [Phase.isOpening, Phase.isSynchronized]

/-- What a stage sends with payload is data sent for the first time, or a copy of data that an
earlier stage sent. -/
theorem copies_run (flow : Flow) (held : Option Segment) (options : ConnectionOptions) (t₀ : Nat)
    {moves : List Move} {h₁ h₂ : History} {st : Stage}
    (h : (begin flow held options t₀).history moves = h₁ ++ st :: h₂) :
    ∀ p ∈ st.outcome.segments, p.payload ≠ [] → p ∈ st.firstSent ∨
      ∃ p' ∈ h₁.firstSent, p'.seq = p.seq ∧ p'.payload = p.payload := by
  intro p hp hpay
  obtain ⟨moves₁, m, rfl, rfl⟩ := history_split h
  obtain ⟨hflight, hd⟩ := delivered_run flow held options t₀ moves₁
  obtain ⟨e, now, wall, rfl⟩ := event_of_mem_segments hp
  have hs := Sending.process hflight hd e now wall
  exact (hs.copies p hp hpay).imp_left fun hfirst => List.mem_filter.mpr ⟨hp, hfirst⟩

/-- No SYN-ACK is sent once the connection was synchronized. -/
theorem synAcks_run (flow : Flow) (held : Option Segment) (options : ConnectionOptions) (t₀ : Nat)
    {moves : List Move} {h₁ h₂ : History} {st : Stage}
    (h : (begin flow held options t₀).history moves = h₁ ++ st :: h₂)
    (hsync : ∃ st' ∈ h₁ ++ [st], st'.after.phase.isSynchronized) : st.synAcks = [] := by
  refine List.filter_eq_nil_iff.mpr fun p hp hsyn => ?_
  obtain ⟨moves₁, m, rfl, rfl⟩ := history_split h
  obtain ⟨st', hst', hsync⟩ := hsync
  obtain ⟨hflight, hd⟩ := delivered_run flow held options t₀ moves₁
  obtain ⟨e, now, wall, rfl⟩ := event_of_mem_segments hp
  have hopen := (Sending.process hflight hd e now wall).syn_opening p hp hsyn
  have hnot := isOpening_run (begin flow held options t₀) (moves₁ ++ [.event e now wall])
  rw [run_append, history_append] at hnot
  have hfalse := hnot hopen st' hst'
  rw [hsync] at hfalse
  cases hfalse

/-- Downstream integrity.  After every run the data sent for the first time are consecutive pieces
of what was written into the downlink, each numbered by its offset from the number behind the SYN;
whatever else was sent with payload is a copy of data sent before; and the SYN whose number counts
is the last one sent before the connection was synchronized, as none is sent afterwards. -/
theorem delivery_run (flow : Flow) (held : Option Segment) (options : ConnectionOptions)
    (t₀ : Nat) (moves : List Move) :
    let h := (begin flow held options t₀).history moves
    (∀ front s rest, h.firstSent = front ++ s :: rest →
      ∃ iss, h.iss? = some iss ∧ s.seq = iss.next.add (payloads front).length ∧
        s.payload = (h.written.drop (payloads front).length).take s.payload.length) ∧
    ∀ h₁ st h₂, h = h₁ ++ st :: h₂ →
      (∀ p ∈ st.outcome.segments, p.payload ≠ [] → p ∈ st.firstSent ∨
        ∃ p' ∈ History.firstSent h₁, p'.seq = p.seq ∧ p'.payload = p.payload) ∧
      ((∃ st' ∈ h₁ ++ [st], st'.after.phase.isSynchronized) → st.synAcks = []) := by
  intro h
  obtain ⟨-, hd⟩ := delivered_run flow held options t₀ moves
  refine ⟨fun front s rest hsplit => ?_, fun h₁ st h₂ hsplit =>
    ⟨copies_run flow held options t₀ hsplit, synAcks_run flow held options t₀ hsplit⟩⟩
  obtain ⟨iss, hiss⟩ := Option.isSome_iff_exists.mp (hd.answered (by simp [h, hsplit]))
  obtain ⟨-, hconsecutive, -⟩ := hd.numbered iss hiss
  rw [hsplit, consecutive_append] at hconsecutive
  refine ⟨iss, hiss, hconsecutive.2.1, ?_⟩
  obtain ⟨behind, hwritten⟩ := hd.sent
  have hpieces : h.written = payloads front ++ (s.payload ++ (payloads rest ++ behind)) := by
    rw [← hwritten, hsplit, payloads_append]
    simp [payloads]
  rw [hpieces, List.drop_left, List.take_left]

end Connection

end TcpGateway
