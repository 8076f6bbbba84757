import TcpGateway.Proofs.History

/-!
# What is in flight

`Flight` ties together the three records that a connection keeps of what it has sent: SND.UNA and
SND.NXT, the buffer of the downlink, and the resend queue.  They are updated by different parts of
the connection, and the circular comparison that filters the queue is an order only because no more
than a window and a FIN is ever in flight, so the bound is part of the invariant.

The invariant is kept by every elementary step (`Flight.step`) and by every move that is no event,
and therefore holds after every run (`flight_run`).
-/

namespace TcpGateway

namespace Phase

/-- Whether our FIN was sent. -/
def isBehindFin : Phase → Bool
  | .finWait1 | .finWait2 | .closing | .lastAck => true
  | _ => false

theorem ne_closed_of_isSynchronized {p : Phase} (h : p.isSynchronized) : p ≠ .closed := by
  rintro rfl
  cases h

theorem ne_closed_of_isOpening {p : Phase} (h : p.isOpening) : p ≠ .closed := by
  rintro rfl
  cases h

theorem isBehindFin_of_isOpening {p : Phase} (h : p.isOpening) : p.isBehindFin = false := by
  cases p <;> simp_all [isOpening, isBehindFin]

/-- New data is sent between the handshake and our FIN. -/
theorem of_canSend {p : Phase} (h : p.canSend) :
    p ≠ .closed ∧ p.isBehindFin = false ∧ p.isOpening = false ∧ p.isGreeted := by
  cases p <;> simp_all [canSend, isBehindFin, isOpening, isGreeted]

theorem afterOurFin_of_canSend {p : Phase} (h : p.canSend) :
    p.afterOurFin = .finWait1 ∨ p.afterOurFin = .lastAck := by
  cases p <;> simp_all [canSend, afterOurFin]

end Phase

/-- What is queued is data that fills its range, or the FIN at its number. -/
structure SentSegment.Sound (fin : Option SeqNum) (x : SentSegment) : Prop where
  size_le : x.range.size ≤ 65535
  data_length : x.isFin = false → x.data.length = x.range.size
  fin_seq : x.isFin = true → x.data = [] ∧ x.range.size = 1 ∧ fin = some x.seq

namespace Connection

/-- The two sequence numbers, the buffer and the queue agree on what is in flight. -/
structure Flight (c : Connection) : Prop where
  bounded : c.downlink.buffer.Bounded c.options.windowSize.toNat
  covers : c.phase ≠ .closed → ResendQueue.Covers c.resends.segments c.sndUna c.sndNxt
  sound : ∀ x ∈ c.resends.segments, x.Sound c.finSeq
  sent_le : c.finSeq = none → c.downlink.inFlight ≤ c.downlink.buffer.length
  inFlight_le : c.downlink.inFlight ≤ c.options.windowSize.toNat + 1
  fin_next : ∀ fin, c.finSeq = some fin → c.sndNxt = fin.next
  fin_phase : c.phase ≠ .closed → c.finSeq.isSome = c.phase.isBehindFin
  relay_done : c.finSeq.isSome → c.relayDone
  opening : c.phase.isOpening → c.sndUna = c.sndNxt
  greeted : c.phase = .synReceived → c.sndNxt = c.iss.next
  finWait2 : c.phase = .finWait2 → c.sndUna = c.sndNxt
  lastAck : c.phase = .lastAck → c.sndUna ≠ c.sndNxt

namespace Flight

variable {c c' : Connection}

theorem finSeq_eq_none (h : Flight c) (hp : c.phase ≠ .closed)
    (hfin : c.phase.isBehindFin = false) :
    c.finSeq = none := by
  have hiff := h.fin_phase hp
  rw [hfin] at hiff
  simpa using hiff

theorem finSeq_of_isOpening (h : Flight c) (hp : c.phase.isOpening) : c.finSeq = none :=
  h.finSeq_eq_none (Phase.ne_closed_of_isOpening hp) (Phase.isBehindFin_of_isOpening hp)

theorem finSeq_of_canSend (h : Flight c) (hp : c.phase.canSend) : c.finSeq = none :=
  h.finSeq_eq_none (Phase.of_canSend hp).1 (Phase.of_canSend hp).2.1

theorem inFlight_lt (h : Flight c) : c.downlink.inFlight ≤ 65536 := by
  have := h.inFlight_le
  have := c.options.windowSize.toNat_lt
  omega

theorem span_lt (h : Flight c) (hp : c.phase ≠ .closed) :
    ResendQueue.span c.resends.segments < 2 ^ 31 := by
  have hspan := (h.covers hp).span_lt fun x hx => (h.sound x hx).size_le
  have := h.inFlight_lt
  have hdist : c.sndNxt.distance c.sndUna = c.downlink.inFlight := rfl
  omega

theorem inFlight_eq_zero (h : c.sndUna = c.sndNxt) : c.downlink.inFlight = 0 :=
  SeqNum.distance_eq_zero_iff.mpr h.symm

theorem queue_eq_nil (h : Flight c) (hp : c.phase.isOpening) : c.resends.segments = [] :=
  (h.covers (Phase.ne_closed_of_isOpening hp)).eq_nil_iff.mpr (h.opening hp)

theorem buffered_eq (h : Flight c) : c.downlink.buffered = c.downlink.buffer.length := by
  have := c.options.windowSize.toNat_lt
  exact c.downlink.buffered_eq_length h.bounded (by omega)

/-- The FIN is due only when every byte of the buffer is in flight. -/
theorem of_isReadyToClose (h : Flight c) (hready : c.isReadyToClose) :
    c.relayDone ∧ c.finSeq = none ∧ c.downlink.inFlight = c.downlink.buffer.length := by
  simp only [isReadyToClose, Bool.and_eq_true, Option.isNone_iff_eq_none,
    Downlink.isFullySent_iff] at hready
  obtain ⟨⟨hdone, hfin⟩, hsent⟩ := hready
  have := h.sent_le hfin
  have := h.buffered_eq
  exact ⟨hdone, hfin, by omega⟩

theorem nextSize_le (h : Flight c) :
    c.nextSize ≤ c.downlink.buffer.length - c.downlink.inFlight := by
  rw [← h.buffered_eq]
  exact c.downlink.nextSize_le _ _

theorem length_waiting (h : Flight c) : (c.downlink.waiting c.nextSize).length = c.nextSize := by
  apply c.downlink.length_waiting
  rw [h.buffered_eq]
  exact h.nextSize_le

/-! ## The steps that change what is in flight -/

/-- An acknowledgment of numbers in flight; in phase LastAck it does not acknowledge the FIN. -/
theorem afterAck {s : Segment} (h : Flight c) (hpos : 0 < s.ack.distance c.sndUna)
    (hle : s.ack.distance c.sndUna ≤ c.downlink.inFlight)
    (hlast : c.phase = .lastAck → s.ack ≠ c.sndNxt) : Flight (c.afterAck s) := by
  have hflight : (c.afterAck s).downlink.inFlight = c.downlink.inFlight - s.ack.distance c.sndUna :=
    c.downlink.inFlight_release hle
  exact {
    bounded := h.bounded.drop _
    covers := fun hp => (h.covers hp).acknowledge (h.span_lt hp) hle
    sound := fun x hx => h.sound x (List.mem_of_mem_filter hx)
    sent_le := by
      intro hfin
      have hsent := h.sent_le hfin
      have hlen : (c.afterAck s).downlink.buffer.length =
          c.downlink.buffer.length - s.ack.distance c.sndUna := c.downlink.length_release s.ack
      omega
    inFlight_le := by
      have hbound := h.inFlight_le
      have hopt : (c.afterAck s).options = c.options := rfl
      rw [hopt]
      omega
    fin_next := h.fin_next
    fin_phase := h.fin_phase
    relay_done := h.relay_done
    opening := by
      intro hp
      have hzero := inFlight_eq_zero (h.opening hp)
      omega
    greeted := h.greeted
    finWait2 := by
      intro hp
      have hzero := inFlight_eq_zero (h.finWait2 hp)
      omega
    lastAck := hlast }

theorem acknowledged {s : Segment} (h : Flight c) (happ : c.applyAck s = some c')
    (hlast : ∀ fin, c.phase = .lastAck → c.finSeq = some fin → s.ack ≠ fin.next) : Flight c' := by
  obtain ⟨-, rfl⟩ | ⟨hpos, hle, rfl⟩ := applyAck_eq_some happ
  · exact { h with }
  · refine h.afterAck hpos hle fun hp => ?_
    have hsome := h.fin_phase (by simp [hp])
    rw [hp] at hsome
    obtain ⟨fin, hfin⟩ := Option.isSome_iff_exists.mp hsome
    rw [h.fin_next fin hfin]
    exact hlast fin hp hfin

theorem afterData {n : Nat} (now : Nat) (h : Flight c) (hsend : c.phase.canSend)
    (hn : n = c.nextSize) (hpos : n ≠ 0) : Flight (c.afterData now n) := by
  obtain ⟨-, -, hopening, -⟩ := Phase.of_canSend hsend
  have hfin : c.finSeq = none := h.finSeq_of_canSend hsend
  have hle := h.nextSize_le
  have hwait := h.length_waiting
  rw [← hn] at hle hwait
  have hsent := h.sent_le hfin
  have hlen := h.bounded.length_le
  have hwin := c.options.windowSize.toNat_lt
  have hsize : (SeqRange.ofSize c.sndNxt n).size = n := SeqRange.size_ofSize _ (by omega)
  have hflight : (c.afterData now n).downlink.inFlight = c.downlink.inFlight + n :=
    c.downlink.inFlight_advance (by omega)
  exact {
    bounded := h.bounded
    covers := by
      intro hp
      have hdist : c.sndNxt.distance c.sndUna = c.downlink.inFlight := rfl
      refine (h.covers hp).add (x := .ofData (c.downlink.waiting n) (.ofSize c.sndNxt n) now)
        rfl ?_ ?_
      · simp only [SentSegment.ofData, hsize]
        omega
      · simp only [SentSegment.ofData, hsize]
        omega
    sound := by
      intro x hx
      rcases List.mem_append.mp hx with hx | hx
      · exact h.sound x hx
      · obtain rfl := List.mem_singleton.mp hx
        refine ⟨?_, fun _ => ?_, (by rintro ⟨⟩)⟩
        · simp only [SentSegment.ofData, hsize]
          omega
        · simp only [SentSegment.ofData, hsize, hwait]
    sent_le := by
      intro _
      have hbuf : (c.afterData now n).downlink.buffer = c.downlink.buffer := rfl
      rw [hbuf]
      omega
    inFlight_le := by
      have hopt : (c.afterData now n).options = c.options := rfl
      rw [hopt]
      omega
    fin_next := by
      intro fin hs
      cases hfin.symm.trans hs
    fin_phase := h.fin_phase
    relay_done := h.relay_done
    opening := by
      intro hp
      cases hopening.symm.trans hp
    greeted := by
      intro hp
      rw [show c.phase = .synReceived from hp] at hsend
      cases hsend
    finWait2 := by
      intro hp
      rw [show c.phase = .finWait2 from hp] at hsend
      cases hsend
    lastAck := by
      intro hp
      rw [show c.phase = .lastAck from hp] at hsend
      cases hsend }

theorem inFlight_afterFin (now : Nat) (h : Flight c) :
    (c.afterFin now).downlink.inFlight = c.downlink.inFlight + 1 := by
  have hlt := h.inFlight_lt
  exact c.downlink.inFlight_advance (by omega)

/-- Our FIN is in flight when it was sent. -/
theorem sndUna_ne_afterFin (now : Nat) (h : Flight c) :
    (c.afterFin now).sndUna ≠ (c.afterFin now).sndNxt := by
  intro heq
  have hzero := inFlight_eq_zero heq
  rw [h.inFlight_afterFin] at hzero
  omega

theorem afterFin (now : Nat) (h : Flight c) (hsend : c.phase.canSend) (hready : c.isReadyToClose) :
    Flight (c.afterFin now) := by
  obtain ⟨hdone, hfin, hsent⟩ := h.of_isReadyToClose hready
  have hlen := h.bounded.length_le
  have hwin := c.options.windowSize.toNat_lt
  have hclosed : c.phase ≠ .closed := (Phase.of_canSend hsend).1
  have hafter : (c.afterFin now).phase = .finWait1 ∨ (c.afterFin now).phase = .lastAck :=
    Phase.afterOurFin_of_canSend hsend
  have hsize : (SeqRange.ofSize c.sndNxt 1).size = 1 := SeqRange.size_ofSize _ (by omega)
  have hflight := h.inFlight_afterFin now
  exact {
    bounded := h.bounded
    covers := by
      intro _
      have hdist : c.sndNxt.distance c.sndUna = c.downlink.inFlight := rfl
      refine (h.covers hclosed).add (x := .ofFin c.sndNxt now) rfl ?_ ?_
      · simp only [SentSegment.ofFin, hsize]
        omega
      · simp only [SentSegment.ofFin, hsize]
        omega
    sound := by
      intro x hx
      rcases List.mem_append.mp hx with hx | hx
      · have hx' := h.sound x hx
        rw [hfin] at hx'
        exact ⟨hx'.size_le, hx'.data_length, fun hf => by cases (hx'.fin_seq hf).2.2⟩
      · obtain rfl := List.mem_singleton.mp hx
        exact {
          size_le := by
            simp only [SentSegment.ofFin, hsize]
            omega
          data_length := by rintro ⟨⟩
          fin_seq := fun _ => ⟨rfl, hsize, rfl⟩ }
    sent_le := by rintro ⟨⟩
    inFlight_le := by
      have hopt : (c.afterFin now).options = c.options := rfl
      rw [hopt]
      omega
    fin_next := by
      intro fin hs
      cases hs
      rfl
    fin_phase := by
      intro _
      rcases hafter with hp | hp <;> rw [hp] <;> rfl
    relay_done := fun _ => hdone
    opening := by
      intro hp
      rcases hafter with hq | hq <;> rw [hq] at hp <;> cases hp
    greeted := by
      intro hp
      rcases hafter with hq | hq <;> rw [hq] at hp <;> cases hp
    finWait2 := by
      intro hp
      rcases hafter with hq | hq <;> rw [hq] at hp <;> cases hp
    lastAck := fun _ => h.sndUna_ne_afterFin now }

/-- A SYN is answered by a downlink that numbers its buffer anew. -/
theorem acceptSyn {s : Segment} (now wall : Nat) (h : Flight c) (hp : c.phase.isOpening) :
    Flight (c.acceptSyn s now wall).connection := by
  have hfin : c.finSeq = none := h.finSeq_of_isOpening hp
  have hzero : (c.acceptSyn s now wall).connection.downlink.inFlight = 0 := SeqNum.distance_self _
  have hqueue := h.queue_eq_nil hp
  exact {
    bounded := h.bounded
    covers := by
      intro _
      show ResendQueue.Covers c.resends.segments _ _
      rw [hqueue]
      exact .nil _
    sound := h.sound
    sent_le := fun _ => by omega
    inFlight_le := by omega
    fin_next := fun fin hs => by cases hfin.symm.trans hs
    fin_phase := by
      intro _
      show c.finSeq.isSome = _
      rw [hfin]
      rfl
    relay_done := h.relay_done
    opening := fun _ => rfl
    greeted := fun _ => rfl
    finWait2 := by rintro ⟨⟩
    lastAck := by rintro ⟨⟩ }

/-- The oldest segment is marked as sent again. -/
theorem resent {x : SentSegment} {rest : List SentSegment} (now : Nat) (h : Flight c)
    (hq : c.resends.segments = x :: rest) :
    Flight { c with resends.segments := { x with sentAt := now } :: rest } where
  bounded := h.bounded
  covers := by
    intro hp
    have hcovers := h.covers hp
    rw [hq] at hcovers
    exact hcovers.resent now
  sound := by
    have hsound := h.sound
    rw [hq] at hsound
    refine List.forall_mem_cons.mpr ⟨?_, fun y hy => hsound y (List.mem_cons_of_mem x hy)⟩
    have hx := hsound x List.mem_cons_self
    exact ⟨hx.size_le, hx.data_length, hx.fin_seq⟩
  sent_le := h.sent_le
  inFlight_le := h.inFlight_le
  fin_next := h.fin_next
  fin_phase := h.fin_phase
  relay_done := h.relay_done
  opening := h.opening
  greeted := h.greeted
  finWait2 := h.finWait2
  lastAck := h.lastAck

/-- A change of phase that keeps to the same side of the handshake and of our FIN. -/
theorem enter {p : Phase} (h : Flight c)
    (hopen : p ≠ .closed → c.phase ≠ .closed ∧ c.phase.isBehindFin = p.isBehindFin)
    (hopening : p.isOpening → c.phase.isOpening) (hplain : p ≠ .synReceived ∧ p ≠ .lastAck)
    (hwait : p = .finWait2 → c.sndUna = c.sndNxt) : Flight { c with phase := p } where
  bounded := h.bounded
  covers := fun hp => h.covers (hopen hp).1
  sound := h.sound
  sent_le := h.sent_le
  inFlight_le := h.inFlight_le
  fin_next := h.fin_next
  fin_phase := fun hp => (h.fin_phase (hopen hp).1).trans (hopen hp).2
  relay_done := h.relay_done
  opening := fun hp => h.opening (hopening hp)
  greeted := fun hp => absurd hp hplain.1
  finWait2 := hwait
  lastAck := fun hp => absurd hp hplain.2

theorem close (h : Flight c) : Flight { c with phase := .closed } :=
  h.enter (fun hp => absurd rfl hp) (by simp [Phase.isOpening]) (by decide) (by simp)

theorem closing {e : Event} {o : Outcome} (h : Flight c) (hclose : Closing e c o) :
    Flight o.connection := by
  obtain ⟨held, counters, hc⟩ := hclose.connection_eq
  rw [hc]
  exact { h.close with }

theorem settle {o : Outcome} (h : Flight o.connection) :
    Flight (settle o).connection := by
  obtain ⟨advertised, hc⟩ := settle_connection o
  rw [hc]
  by_cases hp : o.connection.phase = .closed
  · exact { h with
      covers := fun hne => absurd hp hne
      sound := by simp [hp, ResendQueue.clear] }
  · simp only [hp, if_false]
    exact { h with }

/-! ## Every step and every move -/

theorem step {e : Event} {now wall : Nat} {o o' : Outcome} (h : Flight o.connection)
    (hstep : Step e now wall o o') : Flight o'.connection := by
  cases hstep with
  | recorded _ => exact { h with }
  | touched _ => exact { h with }
  | relayDone _ => exact { h with relay_done := fun _ => rfl }
  | @listened c _ is_held _ =>
    have h : Flight c := h
    have hp : Flight { c with phase := .listen } :=
      h.enter (by simp [is_held, Phase.isBehindFin]) (by simp [is_held, Phase.isOpening])
        (by decide) (by simp)
    exact { hp with }
  | @heldSynAccepted c s _ is_held _ _ =>
    have h : Flight c := h
    have hp : Flight { c with phase := .listen } :=
      h.enter (by simp [is_held, Phase.isBehindFin]) (by simp [is_held, Phase.isOpening])
        (by decide) (by simp)
    have hl : Flight { c with phase := .listen, heldSyn := none } := { hp with }
    exact hl.acceptSyn now wall rfl
  | @synAccepted c s _ is_opening _ =>
    exact h.acceptSyn now wall (by rcases is_opening with hp | hp <;> exact hp ▸ rfl)
  | synAckRepeated _ _ _ => exact { h with }
  | synAckResent _ _ => exact { h with }
  | @ackRefused c s _ _ =>
    obtain ⟨counters, hc⟩ := sendResetFor_connection c.stay s
    rw [hc]
    exact { h with }
  | @established c s _ is_opening _ _ _ =>
    have h : Flight c := h
    have hp : Flight { c with phase := .established } :=
      h.enter (by simp [is_opening, Phase.isBehindFin]) (by simp [Phase.isOpening]) (by decide)
        (by simp)
    exact { hp with }
  | acknowledged _ _ _ not_last applied => exact h.acknowledged applied not_last
  | @lastAcknowledged c c' s fin _ _ _ _ applied =>
    have hclosed : Flight { c with phase := .closed } := Flight.close h
    obtain ⟨-, rfl⟩ | ⟨hpos, hle, rfl⟩ := applyAck_eq_some applied
    · exact { hclosed with }
    · exact hclosed.afterAck hpos hle (by rintro ⟨⟩)
  | received _ _ not_empty accepted =>
    obtain ⟨-, -, rfl⟩ := acceptPayload_eq_some accepted not_empty
    exact { h with }
  | @finReceived c s _ _ is_established =>
    have h : Flight c := h
    have hp : Flight { c with phase := .closeWait } :=
      h.enter (by simp [is_established, Phase.isBehindFin]) (by simp [Phase.isOpening]) (by decide)
        (by simp)
    exact { hp with }
  | @lastFinReceived c s p _ _ ends =>
    have h : Flight c := h
    have hp : Flight { c with phase := p } := by
      rcases ends with ⟨hc, rfl⟩ | ⟨-, rfl⟩
      · exact h.enter (by simp [hc, Phase.isBehindFin]) (by simp [Phase.isOpening]) (by decide)
          (by simp)
      · exact h.close
    exact { hp with }
  | @finAcknowledged c s _ _ is_waiting is_acknowledged =>
    have h : Flight c := h
    rw [isFinAcknowledged, Bool.and_eq_true, Downlink.isFullyAcknowledged_iff] at is_acknowledged
    exact h.enter (by simp [is_waiting, Phase.isBehindFin]) (by simp [Phase.isOpening]) (by decide)
      fun _ => is_acknowledged.2
  | answered _ => exact { h with }
  | @dataSent c can_send not_empty =>
    have h : Flight c := h
    exact h.afterData now can_send rfl not_empty
  | @resent c x rest _ _ is_oldest _ =>
    have hr := Flight.resent (c := c) now h is_oldest
    exact { hr with }
  | finRepeated _ _ => exact { h with }
  | finSent _ can_send is_ready =>
    rw [sendFinIfReady_eq now can_send is_ready]
    exact h.afterFin now can_send is_ready
  | closed closes => exact closing (c := _) h closes
  | settled => exact h.settle

theorem process {e : Event} {now wall : Nat} (h : Flight c) :
    Flight (c.process e now wall).connection :=
  event_induction (P := fun o => Flight o.connection) h fun _ _ => step

theorem apply (m : Move) (h : Flight c) : Flight (c.apply m).connection := by
  rcases c.event_or_bufferMove m with ⟨e, now, wall, rfl⟩ | hmove
  · exact h.process
  · cases hmove with
    | @downlink b _ applied appended bounded =>
      rw [applied]
      exact { h with
        bounded := bounded _ h.bounded
        sent_le := by
          intro hfin
          have hsent := h.sent_le hfin
          show c.downlink.inFlight ≤ b.length
          simp only [Buffer.length, appended, List.length_append] at hsent ⊢
          omega }
    | uplink _ applied _ _ _ =>
      rw [applied]
      exact { h with }

end Flight

theorem Flight.begin (flow : Flow) (held : Option Segment) (options : ConnectionOptions)
    (now : Nat) : Flight (begin flow held options now) := by
  have hstart : ∀ p : Phase, p = .held ∨ p = .listen → Flight (start flow p options now) := by
    intro p hp
    have hne : p ≠ .synReceived ∧ p ≠ .finWait2 ∧ p ≠ .lastAck ∧ p.isBehindFin = false := by
      rcases hp with rfl | rfl <;> decide
    have hzero : (start flow p options now).downlink.inFlight = 0 := SeqNum.distance_self _
    exact {
      bounded := Buffer.bounded_empty _
      covers := fun _ => .nil _
      sound := by rintro _ ⟨⟩
      sent_le := fun _ => by omega
      inFlight_le := by omega
      fin_next := by rintro _ ⟨⟩
      fin_phase := fun _ => hne.2.2.2.symm
      relay_done := by rintro ⟨⟩
      opening := fun _ => rfl
      greeted := fun hs => absurd hs hne.1
      finWait2 := fun hs => absurd hs hne.2.1
      lastAck := fun hs => absurd hs hne.2.2.1 }
  cases held with
  | none => exact hstart .listen (.inr rfl)
  | some s =>
    have h := hstart .held (.inl rfl)
    exact { h with }

/-- What is in flight is coherent after every run. -/
theorem flight_run (flow : Flow) (held : Option Segment) (options : ConnectionOptions)
    (now : Nat) (moves : List Move) : Flight ((begin flow held options now).run moves) :=
  run_induction (P := fun _ c => Flight c) (Flight.begin flow held options now)
    (fun _ _ m h => h.apply m) moves

end Connection

end TcpGateway
