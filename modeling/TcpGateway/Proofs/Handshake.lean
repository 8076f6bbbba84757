import TcpGateway.Proofs.Delivery
import TcpGateway.Proofs.Window

/-!
# How a connection becomes synchronized

Only one event leads out of the handshake into a synchronized phase: in phase SynReceived, a segment
that is no reset and no SYN, starts behind the client's SYN and acknowledges the last SYN-ACK or the
number before it.  Repeated SYNs number both streams anew, but while the handshake lasts nothing of
either stream has moved, so the connection that enters phase Established is a fresh one whatever
came before (`Fresh`).  Acknowledgments of earlier SYN-ACKs are refused.
-/

namespace TcpGateway

/-- The reset that sits at the number that `s` acknowledges. -/
def Segment.resetAtAck (s : Segment) : Segment :=
  { flow := s.flow.reverse, seq := s.ack, ack := .zero, flags := .rst, window := 0, payload := [] }

theorem Segment.resetReply_of_isAck {s : Segment} (hack : s.isAck) (hrst : s.isRst = false) :
    s.resetReply = some s.resetAtAck := by
  simp [resetReply, hrst, hack, resetAtAck, reply]

namespace Connection

/-- The connection that has counted a segment and not looked into it. -/
def recorded (c : Connection) (now : Nat) : Connection :=
  { c with counters := c.counters.record c.phase, lastUsed := now }

/-- The connection as it enters phase Established in answer to a segment. -/
def entering (c : Connection) (now : Nat) : Connection :=
  { c.recorded now with synAckSentAt := none, phase := .established }

/-! ## One event -/

section Events

variable {c : Connection} {s : Segment} {e : Event} {now wall : Nat}

/-- In phase Established a SYN is answered by a reset. -/
theorem onEstablished_isSyn (hrst : s.isRst = false)
    (hwin : c.uplink.inWindow s.seq s.payload.length) (hsyn : s.isSyn) :
    (c.onEstablished s now).connection.phase = .closed := by
  have hscreen : c.screen s = some ((c.enter .closed).sendReset.command .abortRelay) := by
    simp [screen, hrst, hwin, hsyn]
  rw [onEstablished, hscreen]
  rfl

/-- In phase SynReceived a segment that leads to a synchronized phase passes all checks of the
handshake and is handled as in phase Established. -/
theorem onSynReceived_isSynchronized (hp : c.phase = .synReceived)
    (h : (c.onSynReceived s now wall).connection.phase.isSynchronized) :
    s.isRst = false ∧ s.isSyn = false ∧ s.isAck ∧ c.uplink.inWindow s.seq s.payload.length ∧
      (SeqRange.mk c.iss c.sndNxt).contains s.ack ∧
      c.onSynReceived s now wall =
        { c with synAckSentAt := none, phase := .established }.onEstablished s now := by
  have hnot : ∀ {o : Outcome}, o.connection.phase = .synReceived ∨ o.connection.phase = .closed →
      ¬ o.connection.phase.isSynchronized := by
    rintro o (hq | hq) <;> simp [hq, Phase.isSynchronized]
  unfold onSynReceived at h ⊢
  split at h
  · split at h
    · exact absurd h (hnot (.inr rfl))
    · exact absurd h (hnot (.inl hp))
  · rename_i hrst
    split at h
    · exact absurd h (hnot (.inl rfl))
    · rename_i hbare
      split at h
      · exact absurd h (hnot (.inl hp))
      · rename_i hwin
        split at h
        · exact absurd h (hnot (.inl hp))
        · rename_i hack
          split at h
          · obtain ⟨counters, hc⟩ := sendResetFor_connection c.stay s
            exact absurd h (hnot (.inl (by rw [hc]; exact hp)))
          · rename_i hrange
            rw [if_neg hrst, if_neg hbare, if_neg hwin, if_neg hack, if_neg hrange]
            simp only [Bool.not_eq_true', Bool.not_eq_false] at hrst hwin hack hrange
            rw [Bool.not_eq_true] at hrst
            refine ⟨hrst, ?_, hack, hwin, hrange, rfl⟩
            by_contra hsyn
            rw [Bool.not_eq_false] at hsyn
            exact hnot (.inr (onEstablished_isSyn (by exact hrst) (by exact hwin) hsyn)) h

/-- What passes the screen in phase Established leaves the connection synchronized. -/
theorem onEstablished_isSynchronized (hp : c.phase = .established) (hscreen : c.screen s = none) :
    (c.onEstablished s now).connection.phase.isSynchronized := by
  have hfin : ∀ o : Outcome, o.connection.phase = .established →
      (o.sendFinIfReady now).connection.phase.isSynchronized := by
    intro o ho
    by_cases hready : o.connection.isReadyToClose
    · rw [sendFinIfReady_eq now (ho ▸ rfl) hready]
      simp [afterFin, ho, Phase.afterOurFin, Phase.isSynchronized]
    · rw [Outcome.sendFinIfReady, if_neg hready]
      exact ho ▸ rfl
  unfold onEstablished
  rw [hscreen]
  simp only
  split
  · exact hp ▸ rfl
  · rename_i c₁ hack
    have hp₁ : c₁.phase = .established := (applyAck_phase hack).trans hp
    split
    · exact hp₁ ▸ rfl
    · rename_i c₂ hpay
      have hp₂ : c₂.phase = .established := (acceptPayload_phase hpay).trans hp₁
      split
      · rfl
      · split
        · rename_i c₃ data hdata
          rw [sendData_eq] at hdata
          split at hdata <;> cases hdata
          exact hfin _ hp₂
        · refine hfin _ ?_
          split <;> exact hp₂

/-- In phase SynReceived a segment that passes all checks of the handshake synchronizes. -/
theorem onSynReceived_passed (hrst : s.isRst = false) (hsyn : s.isSyn = false) (hack : s.isAck)
    (hwin : c.uplink.inWindow s.seq s.payload.length)
    (hrange : (SeqRange.mk c.iss c.sndNxt).contains s.ack) :
    (c.onSynReceived s now wall).connection.phase.isSynchronized := by
  have hbare : s.isBareSyn = false := by simp [Segment.isBareSyn, hsyn]
  have hscreen : ∀ c' : Connection, c'.uplink = c.uplink → c'.screen s = none := by
    intro c' huplink
    simp [screen, huplink, hrst, hwin, hsyn, hack]
  rw [onSynReceived, if_neg (by simp [hrst]), if_neg (by simp [hbare]), if_neg (by simp [hwin]),
    if_neg (by simp [hack]), if_neg (by simp [hrange])]
  exact onEstablished_isSynchronized rfl (hscreen _ rfl)

/-- Only the end of the handshake leads into a synchronized phase. -/
theorem Progress.was_synReceived {o : Outcome} (h : Progress e c o)
    (hwas : c.phase.isSynchronized = false) (his : o.connection.phase.isSynchronized) :
    c.phase = .synReceived := by
  cases h with
  | unchanged same =>
    rw [same, hwas] at his
    cases his
  | listening _ is => cases is ▸ his
  | synAnswered _ is _ => cases is ▸ his
  | established was _ => exact was
  | finSent ends _ =>
    rcases ends with ⟨was | was, -⟩ | ⟨was, -⟩
    · exact was
    · cases was ▸ hwas
    · cases was ▸ hwas
  | finAcknowledged was _ _ => cases was ▸ hwas
  | finTaken _ _ ends _ _ =>
    rcases ends with ⟨was | was, -⟩ | ⟨was, -⟩ | ⟨was, -⟩
    · exact was
    · cases was ▸ hwas
    · cases was ▸ hwas
    · cases was ▸ hwas
  | aborted is _ => cases is ▸ his
  | completed _ is _ => cases is ▸ his

theorem settle_phase (o : Outcome) : (settle o).connection.phase = o.connection.phase := by
  obtain ⟨advertised, hc⟩ := settle_connection o
  rw [hc]

theorem settle_of_ne_closed {o : Outcome} (h : o.connection.phase ≠ .closed) :
    ∃ advertised, (settle o).connection = { o.connection with advertised } := by
  obtain ⟨advertised, hc⟩ := settle_connection o
  rw [if_neg h] at hc
  exact ⟨advertised, hc⟩

theorem dispatch_segment (hp : c.phase = .synReceived) :
    c.dispatch (.segment s) now wall = (c.recorded now).onSynReceived s now wall := by
  simp only [dispatch, onSegment, hp, recorded]

/-- In phase SynReceived only a segment leads on; what else happens stays there or closes. -/
theorem dispatch_synReceived (hp : c.phase = .synReceived) (hnot : ∀ s, e ≠ .segment s) :
    (c.dispatch e now wall).connection.phase = .synReceived ∨
      (c.dispatch e now wall).connection.phase = .closed := by
  cases e with
  | segment s => exact absurd rfl (hnot s)
  | relayConnected =>
    have hstay : c.onRelayConnected now wall = c.stay := if_pos (by simp [hp])
    exact .inl (by rw [dispatch, hstay]; exact hp)
  | relayUnreachable =>
    obtain ⟨held, counters, hc⟩ := (Closing.unreachable (c := c) rfl).connection_eq
    exact .inr (by rw [dispatch, hc])
  | relayData => exact .inl (by simp [dispatch, onRelayData, hp, Phase.canSend, stay])
  | relayClosed =>
    exact .inl (by simp [dispatch, onRelayClosed, onRelayData, hp, Phase.canSend, stay])
  | relayFailed reason =>
    exact .inr (by simp [dispatch, onRelayFailed, hp, enter, Outcome.sendReset, Outcome.send,
      Outcome.command, countReset])
  | tick =>
    by_cases hidle : c.options.idleTimeout ≤ now - c.lastUsed
    · exact .inr (by simp [dispatch, onTick, hp, hidle, enter, Outcome.sendReset, Outcome.send,
        Outcome.command, countReset])
    · refine .inl ?_
      have hresend : c.dispatch .tick now wall = c.resendSynAck now := by
        simp [dispatch, onTick, hp, hidle]
      rw [hresend, resendSynAck]
      simp only
      split <;> exact hp

/-- An event that leads into a synchronized phase is a segment that passes the handshake. -/
theorem process_isSynchronized (hflight : Flight c) (hwas : c.phase.isSynchronized = false)
    (h : (c.process e now wall).connection.phase.isSynchronized) :
    c.phase = .synReceived ∧ ∃ s, e = .segment s ∧ s.isRst = false ∧ s.isSyn = false ∧ s.isAck ∧
      c.uplink.inWindow s.seq s.payload.length ∧ (SeqRange.mk c.iss c.sndNxt).contains s.ack ∧
      c.process e now wall = settle ((c.entering now).onEstablished s now) := by
  have hp : c.phase = .synReceived :=
    (process_progress hflight e now wall).was_synReceived hwas h
  rw [process, settle_phase] at h
  by_cases hsegment : ∃ s, e = .segment s
  · obtain ⟨s, rfl⟩ := hsegment
    rw [dispatch_segment hp] at h
    obtain ⟨hrst, hsyn, hack, hwin, hrange, hentered⟩ :=
      onSynReceived_isSynchronized (c := c.recorded now) hp h
    exact ⟨hp, s, rfl, hrst, hsyn, hack, hwin, hrange, by
      rw [process, dispatch_segment hp, hentered]
      rfl⟩
  · have hnext : (c.dispatch e now wall).connection.phase = .synReceived ∨
        (c.dispatch e now wall).connection.phase = .closed :=
      dispatch_synReceived hp (not_exists.mp hsegment)
    rcases hnext with hq | hq
    · cases hq ▸ h
    · cases hq ▸ h

/-- A segment that acknowledges anything else than the last SYN-ACK changes nothing but what every
segment changes.  It is refused by a reset at the number that it acknowledges, unless it is outside
of the window and is told so. -/
theorem process_otherAck (hp : c.phase = .synReceived) (hack : s.isAck) (hrst : s.isRst = false)
    (hother : (SeqRange.mk c.iss c.sndNxt).contains s.ack = false) :
    (∃ counters advertised, (c.process (.segment s) now wall).connection =
      { c with counters, advertised, lastUsed := now }) ∧
    (c.process (.segment s) now wall).segments =
      if c.uplink.inWindow s.seq s.payload.length then [s.resetAtAck] else [c.ackSegment] := by
  have hbare : s.isBareSyn = false := by simp [Segment.isBareSyn, hack]
  have hdispatch : c.dispatch (.segment s) now wall =
      if c.uplink.inWindow s.seq s.payload.length then (c.recorded now).stay.sendResetFor s
      else (c.recorded now).stay.sendAck := by
    rw [dispatch_segment hp, onSynReceived, if_neg (by simp [hrst]), if_neg (by simp [hbare])]
    by_cases hwin : c.uplink.inWindow s.seq s.payload.length
    · have hrange : (!(SeqRange.mk (c.recorded now).iss (c.recorded now).sndNxt).contains
          s.ack) = true := congrArg not hother
      rw [if_neg (by simpa [recorded] using hwin), if_neg (by simp [hack]), if_pos hrange,
        if_pos hwin]
    · rw [if_pos (by simpa [recorded] using hwin), if_neg hwin]
  have hkept : ∃ counters, (c.dispatch (.segment s) now wall).connection =
      { c with counters, lastUsed := now } := by
    rw [hdispatch]
    split
    · obtain ⟨counters, hc⟩ := sendResetFor_connection (c.recorded now).stay s
      exact ⟨counters, hc⟩
    · exact ⟨c.counters.record c.phase, rfl⟩
  obtain ⟨counters, hc⟩ := hkept
  obtain ⟨advertised, hsettled⟩ := settle_of_ne_closed (o := c.dispatch (.segment s) now wall)
    (by simp [hc, hp])
  refine ⟨⟨counters, advertised, by rw [process, hsettled, hc]⟩, ?_⟩
  show (c.dispatch (.segment s) now wall).segments = _
  rw [hdispatch]
  split
  · rw [Outcome.sendResetFor, Segment.resetReply_of_isAck hack hrst]
    rfl
  · rfl

end Events

/-! ## Every run -/

/-- The connection `c`, behind the history `h`, stands at the numbers behind the SYN `irs` and the
SYN-ACK `iss`, and neither stream has moved. -/
structure Fresh (h : History) (irs iss : SeqNum) (c : Connection) : Prop where
  sndUna : c.sndUna = iss.next
  sndNxt : c.sndNxt = iss.next
  rcvNxt : c.rcvNxt = irs.next
  queue : c.resends.segments = []
  none_taken : h.taken = [] ∧ c.uplink.buffer.bytes = []
  /-- All that the relay's side has written is still to be sent. -/
  all_unsent : h.firstSent = [] ∧ c.downlink.buffer.bytes = h.written ∧
    c.downlink.unsent = h.written.length

/-- In phase SynReceived a connection is fresh behind the SYN accepted last and the SYN-ACK sent
last. -/
theorem Windowed.fresh {flow : Flow} {held : Option Segment} {options : ConnectionOptions}
    {h : History} {c : Connection} (hw : Windowed flow held options h c)
    (hd : Delivered h.iss? h.written h.firstSent c) (hp : c.phase = .synReceived) :
    ∃ irs, h.irs? = some irs ∧ h.iss? = some c.iss ∧ Fresh h irs c.iss c := by
  have hopening : c.phase.isOpening := hp ▸ rfl
  obtain ⟨irs, hirs⟩ := Option.isSome_iff_exists.mp (hw.received.greeted (hp ▸ rfl))
  obtain ⟨htaken, hfins⟩ := hw.received.opening hopening
  have hsent : h.firstSent = [] := hd.opening hopening
  have hnext : c.sndNxt = c.iss.next := hw.flight.greeted hp
  have huna : c.sndUna = c.sndNxt := hw.flight.opening hopening
  have hflight : c.downlink.inFlight = 0 := Flight.inFlight_eq_zero huna
  have hbuffer : c.downlink.buffer.bytes = h.written := by
    rw [(hd.held (hw.flight.finSeq_of_isOpening hopening)).2, hsent, hflight]
    rfl
  have hempty : c.uplink.buffer.bytes = [] := by
    have hdrained := hw.drained
    rw [Drained, htaken] at hdrained
    exact (List.append_eq_nil_iff.mp hdrained.symm).2
  refine ⟨irs, hirs, hd.iss_eq hp, ?_⟩
  exact {
    sndUna := huna.trans hnext
    sndNxt := hnext
    rcvNxt := by
      rw [hw.received.next irs hirs, htaken, hfins]
      exact SeqNum.add_zero _
    queue := hw.flight.queue_eq_nil hopening
    none_taken := ⟨htaken, hempty⟩
    all_unsent := by
      refine ⟨hsent, hbuffer, ?_⟩
      rw [Downlink.unsent_eq, hw.flight.buffered_eq, hflight, Buffer.length, hbuffer]
      rfl }

/-- What a stage behind the history `h` has to do with the handshake. -/
structure Handshakes (h : History) (st : Stage) : Prop where
  /-- A stage that enters a synchronized phase handles, as in phase Established and on a fresh
  connection, a segment behind the SYN accepted last that acknowledges the SYN-ACK sent last. -/
  enters : st.before.phase.isSynchronized = false → st.after.phase.isSynchronized →
    ∃ s now wall irs iss, st.move = .event (.segment s) now wall ∧ h.irs? = some irs ∧
      h.iss? = some iss ∧ s.isAck ∧ s.isRst = false ∧ s.isSyn = false ∧ s.seq = irs.next ∧
      (s.ack = iss ∨ s.ack = iss.next) ∧ Fresh h irs iss (st.before.entering now) ∧
      st.outcome = settle ((st.before.entering now).onEstablished s now)
  /-- Such a segment does synchronize, if what it carries is in the window. -/
  completes : ∀ s now wall, st.move = .event (.segment s) now wall →
    st.before.phase = .synReceived → s.isAck → s.isRst = false → s.isSyn = false →
    st.before.uplink.inWindow s.seq s.payload.length →
    (∃ iss, h.iss? = some iss ∧ (s.ack = iss ∨ s.ack = iss.next)) →
    st.after.phase.isSynchronized
  /-- An acknowledgment of anything else leaves the handshake where it is.  It is answered by a
  reset at the number that it acknowledges, or by an acknowledgment if it is outside of the
  window. -/
  refuses : ∀ s now wall, st.move = .event (.segment s) now wall → st.before.phase = .synReceived →
    s.isAck → s.isRst = false → (∀ iss, h.iss? = some iss → s.ack ≠ iss ∧ s.ack ≠ iss.next) →
    (∃ counters advertised, st.after = { st.before with counters, advertised, lastUsed := now }) ∧
      st.outcome.segments =
        if st.before.uplink.inWindow s.seq s.payload.length then [s.resetAtAck]
        else [st.before.ackSegment]

/-- Safety of the handshake, for every move after every run, however many SYNs, stray segments and
ticks came before: only an acknowledgment of the SYN-ACK sent last, behind the SYN accepted last,
synchronizes a connection, which then starts with both streams where they began; any other
acknowledgment is refused. -/
theorem handshake_run (flow : Flow) (held : Option Segment) (options : ConnectionOptions)
    (t₀ : Nat) (moves : List Move) (m : Move) :
    let c₀ := begin flow held options t₀
    Handshakes (c₀.history moves) ((c₀.run moves).stage m) := by
  intro c₀
  have hw : Windowed flow held options (c₀.history moves) (c₀.run moves) :=
    windowed_run flow held options t₀ moves
  obtain ⟨-, hd⟩ := delivered_run flow held options t₀ moves
  generalize c₀.history moves = h at hw hd ⊢
  generalize c₀.run moves = c at hw hd ⊢
  constructor
  · intro hwas his
    rcases c.event_or_bufferMove m with ⟨e, now, wall, rfl⟩ | hmove
    · obtain ⟨hp, s, rfl, hrst, hsyn, hack, hwin, hrange, hprocess⟩ :=
        process_isSynchronized hw.flight hwas his
      obtain ⟨irs, hirs, hiss, hfresh⟩ := hw.fresh hd hp
      rw [hw.flight.greeted hp, SeqRange.contains_next_iff] at hrange
      have hseq : s.seq = irs.next := by
        rw [Uplink.inWindow, Bool.and_eq_true, beq_iff_eq] at hwin
        exact hwin.1.trans hfresh.rcvNxt
      exact ⟨s, now, wall, irs, c.iss, rfl, hirs, hiss, hack, hrst, hsyn, hseq, hrange,
        { hfresh with }, hprocess⟩
    · obtain ⟨down, up, hc⟩ := hmove.connection_eq
      change (c.apply m).connection.phase.isSynchronized at his
      rw [hc] at his
      cases hwas.symm.trans his
  · rintro s now wall rfl hp hack hrst hsyn hwin ⟨iss, hiss, hrange⟩
    cases (hd.iss_eq hp).symm.trans hiss
    rw [← SeqRange.contains_next_iff, ← hw.flight.greeted hp] at hrange
    show (c.process (.segment s) now wall).connection.phase.isSynchronized
    rw [process, settle_phase, dispatch_segment hp]
    exact onSynReceived_passed (c := c.recorded now) hrst hsyn hack hwin hrange
  · rintro s now wall rfl hp hack hrst hother
    obtain ⟨hne, hne'⟩ := hother c.iss (hd.iss_eq hp)
    refine process_otherAck hp hack hrst (Bool.eq_false_iff.mpr ?_)
    rw [hw.flight.greeted hp, Ne, SeqRange.contains_next_iff]
    exact not_or.mpr ⟨hne, hne'⟩

/-- A SYN that comes again with another number starts the handshake over: the acknowledgment of the
first SYN-ACK is refused, that of the second synchronizes. -/
example :
    let client (seq ack : UInt32) (flags : Flags) : Event :=
      .segment { flow := default, seq := ⟨seq⟩, ack := ⟨ack⟩, flags, window := 1000, payload := [] }
    let options := { maxPayload := 3, windowSize := 100, resendInterval := 10, idleTimeout := 1000 }
    let c := (begin default none options 0).run
      [.event (client 5 0 .syn) 0 0, .event (client 70 0 .syn) 1 4000]
    let refused := c.process (client 71 1 .ack) 2 4000
    let synchronized := refused.connection.process (client 71 1001 .ack) 3 8000
    refused.segments.map (fun p => (p.isRst, p.seq)) = [(true, ⟨1⟩)] ∧
      refused.connection.phase = .synReceived ∧ synchronized.connection.phase = .established ∧
      synchronized.connection.sndNxt = ⟨1001⟩ ∧ synchronized.connection.rcvNxt = ⟨71⟩ := by
  decide +kernel

end Connection

end TcpGateway
