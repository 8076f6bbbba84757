import TcpGateway.Proofs.Delivery
import TcpGateway.Proofs.Progress

/-!
# How a connection finishes

Our FIN ends the stream of the relay's bytes: it goes out once the relay has closed and everything
written was sent, takes the number behind the last byte, and nothing new follows it.  A connection
that closes in order has all of this acknowledged, the FIN included, and has consumed the client's
FIN as well.

`Finishing` is the invariant in the middle of an event, `Finished` the one between events, and
`Finishes` is what they say about one stage of a history.
-/

namespace TcpGateway

namespace Stage

def isRelayClosed (st : Stage) : Prop := ∃ now wall, st.move = .event .relayClosed now wall

/-- Whether the connection closes without an abort and not for want of a relay. -/
def closesInOrder (st : Stage) : Prop :=
  st.before.phase ≠ .closed ∧ st.after.phase = .closed ∧ .abortRelay ∉ st.outcome.commands ∧
    ∀ now wall, st.move ≠ .event .relayUnreachable now wall

end Stage

namespace Connection

/-! ## The relay -/

/-- Only the relay's end marks the relay as done. -/
theorem Step.relayDone_or {e : Event} {now wall : Nat} {o o' : Outcome}
    (h : Step e now wall o o') (hdone : o'.connection.relayDone) :
    o.connection.relayDone ∨ e = .relayClosed := by
  cases h with
  | relayDone is_closed => exact .inr is_closed
  | @ackRefused c s _ _ =>
    obtain ⟨counters, hc⟩ := sendResetFor_connection c.stay s
    rw [hc] at hdone
    exact .inl hdone
  | acknowledged _ _ _ _ applied =>
    obtain ⟨-, rfl⟩ | ⟨-, -, rfl⟩ := applyAck_eq_some applied <;> exact .inl hdone
  | lastAcknowledged _ _ _ _ applied =>
    obtain ⟨-, rfl⟩ | ⟨-, -, rfl⟩ := applyAck_eq_some applied <;> exact .inl hdone
  | received _ _ not_empty accepted =>
    obtain ⟨-, -, rfl⟩ := acceptPayload_eq_some accepted not_empty
    exact .inl hdone
  | finSent _ can_send is_ready =>
    rw [sendFinIfReady_eq now can_send is_ready] at hdone
    exact .inl hdone
  | closed closes =>
    obtain ⟨held, counters, hc⟩ := closes.connection_eq
    rw [hc] at hdone
    exact .inl hdone
  | settled =>
    obtain ⟨advertised, hc⟩ := settle_connection o
    rw [hc] at hdone
    exact .inl hdone
  | _ => exact .inl hdone

theorem process_relayDone {c : Connection} {e : Event} {now wall : Nat}
    (h : (c.process e now wall).connection.relayDone) : c.relayDone ∨ e = .relayClosed :=
  event_induction (P := fun o => o.connection.relayDone → c.relayDone ∨ e = .relayClosed)
    .inl (fun _ _ hp hstep hdone => (hstep.relayDone_or hdone).elim hp .inr) h

/-! ## In the middle of an event -/

/-- The segments sent so far end with the first FIN, which is numbered behind all that was
written, and all of that was sent. -/
structure FirstFin (h : History) (c₀ : Connection) (o : Outcome) : Prop where
  last : ∃ front p, o.segments = front ++ [p] ∧ p.isFin ∧ (∀ q ∈ front, q.isFin = false) ∧
    ∃ iss, lastSeq (h.synAcks ++ o.segments.filter (·.isSyn)) = some iss ∧
      p.seq = iss.next.add h.written.length
  all_sent : payloads (h.firstSent ++ o.segments.filter c₀.isFirst) = h.written

structure Finishing (h : History) (c₀ : Connection) (o : Outcome) : Prop where
  sending : Sending h c₀ o
  keeps : ∀ fin, c₀.finSeq = some fin → o.connection.finSeq = some fin
  quiet : c₀.finSeq.isSome → ∀ p ∈ o.segments, c₀.isFirst p = false
  same : ∀ p ∈ h.fins ++ o.segments.filter (·.isFin),
    p.payload = [] ∧ o.connection.finSeq = some p.seq
  sent : o.connection.finSeq.isSome → h.fins ++ o.segments.filter (·.isFin) ≠ []
  first : c₀.finSeq = none → o.connection.finSeq.isSome → FirstFin h c₀ o

namespace Finishing

variable {h : History} {c₀ : Connection} {o o' : Outcome} {now : Nat}

/-- While nothing was sent the FIN is the one that the event found. -/
theorem isSome_of_nil (hf : Finishing h c₀ o) (hnil : o.segments = [])
    (hsome : o.connection.finSeq.isSome) : c₀.finSeq.isSome := by
  by_contra hnone
  obtain ⟨front, p, hsegments, -⟩ := (hf.first (by simpa using hnone) hsome).last
  simp [hnil] at hsegments

/-- A step that keeps the FIN sends none, or repeats it. -/
theorem keepsFin (hf : Finishing h c₀ o) (hs : Sending h c₀ o') (hnil : o.segments = [])
    (hfin : o'.connection.finSeq = o.connection.finSeq)
    (hquiet : c₀.finSeq.isSome → ∀ p ∈ o'.segments, c₀.isFirst p = false)
    (hsame : ∀ p ∈ o'.segments, p.isFin → p.payload = [] ∧ o.connection.finSeq = some p.seq) :
    Finishing h c₀ o' where
  sending := hs
  keeps := fun fin hfin₀ => hfin.trans (hf.keeps fin hfin₀)
  quiet := hquiet
  same := by
    intro p hp
    rw [hfin]
    rcases List.mem_append.mp hp with hold | hnew
    · exact hf.same p (List.mem_append_left _ hold)
    · obtain ⟨hp, hisFin⟩ := List.mem_filter.mp hnew
      exact hsame p hp hisFin
  sent := by
    intro hsome
    rw [hfin] at hsome
    have hold := hf.sent hsome
    rw [hnil, List.filter_nil, List.append_nil] at hold
    exact List.append_ne_nil_of_left_ne_nil hold _
  first := by
    intro hnone hsome
    have hsome₀ := hf.isSome_of_nil hnil (hfin ▸ hsome)
    rw [hnone] at hsome₀
    cases hsome₀

/-- The first FIN goes out when all that was written has gone out. -/
theorem fin (hf : Finishing h c₀ o) (hs : Sending h c₀ o')
    (can_send : o.connection.phase.canSend) (is_ready : o.connection.isReadyToClose)
    (is_after : o'.connection = o.connection.afterFin now)
    (sends : o'.segments = o.segments ++ [o'.connection.finSegment o.connection.sndNxt]) :
    Finishing h c₀ o' := by
  obtain ⟨-, hnone, hsent⟩ := hf.sending.flight.of_isReadyToClose is_ready
  have hd := hf.sending.delivered
  obtain ⟨p, hp⟩ : ∃ p, p = o'.connection.finSegment o.connection.sndNxt := ⟨_, rfl⟩
  have hsyn : p.isSyn = false := hp ▸ isSyn_finSegment _ _
  have hisFin : p.isFin := hp ▸ isFin_finSegment _ _
  have hpay : p.payload = [] := hp ▸ rfl
  have hseq : p.seq = o.connection.sndNxt := hp ▸ rfl
  have hfin : o'.connection.finSeq = some p.seq := by
    rw [is_after, hseq]
    rfl
  rw [← hp] at sends
  have hnofin : h.fins ++ o.segments.filter (·.isFin) = [] := by
    by_contra hne
    obtain ⟨q, hq⟩ := List.exists_mem_of_ne_nil _ hne
    cases hnone.symm.trans (hf.same q hq).2
  have hnone₀ : c₀.finSeq = none := by
    cases hfin₀ : c₀.finSeq with
    | none => rfl
    | some fin => cases hnone.symm.trans (hf.keeps fin hfin₀)
  have hfins : h.fins ++ o'.segments.filter (·.isFin) = [p] := by
    rw [sends, List.filter_append, ← List.append_assoc, hnofin,
      List.filter_cons_of_pos (by simpa using hisFin)]
    rfl
  have hsyns : o'.segments.filter (·.isSyn) = o.segments.filter (·.isSyn) := by
    simp [sends, hsyn]
  have hfirsts : o'.segments.filter c₀.isFirst = o.segments.filter c₀.isFirst := by
    simp [sends, isFirst_eq_false hpay]
  have hall : payloads (h.firstSent ++ o.segments.filter c₀.isFirst) = h.written := by
    obtain ⟨hle, hbuf⟩ := hd.held hnone
    refine hd.sent.eq_of_length ?_
    have hlen := hd.sent.length_le
    have hbuffer := congrArg List.length hbuf
    rw [List.length_drop] at hbuffer
    change o.connection.downlink.buffer.length = _ at hbuffer
    omega
  obtain ⟨-, -, -, hgreeted⟩ := Phase.of_canSend can_send
  obtain ⟨iss, hiss⟩ := Option.isSome_iff_exists.mp (hd.greeted hgreeted)
  have hnumber : p.seq = iss.next.add h.written.length := by
    rw [hseq, (hd.numbered iss hiss).2.2, hall, hnone]
    rfl
  exact {
    sending := hs
    keeps := fun fin hfin₀ => by cases hnone₀.symm.trans hfin₀
    quiet := by
      intro hsome
      rw [hnone₀] at hsome
      cases hsome
    same := by
      intro q hq
      rw [hfins, List.mem_singleton] at hq
      exact hq ▸ ⟨hpay, hfin⟩
    sent := by
      intro _
      rw [hfins]
      exact List.cons_ne_nil _ _
    first := by
      intro _ _
      refine ⟨⟨o.segments, p, sends, hisFin, fun q hq => ?_, iss, ?_, hnumber⟩, ?_⟩
      · have hfilter := (List.append_eq_nil_iff.mp hnofin).2
        exact Bool.eq_false_iff.mpr (List.filter_eq_nil_iff.mp hfilter q hq)
      · rw [hsyns]
        exact hiss
      · rw [hfirsts]
        exact hall }

theorem kept (hf : Finishing h c₀ o) (hs : Sending h c₀ o')
    (keeps : Kept o.connection o'.connection) (sends_nothing : o'.segments = o.segments) :
    Finishing h c₀ o' where
  sending := hs
  keeps := fun fin hfin₀ => keeps.finSeq.trans (hf.keeps fin hfin₀)
  quiet := by
    rw [sends_nothing]
    exact hf.quiet
  same := by
    rw [sends_nothing, keeps.finSeq]
    exact hf.same
  sent := by
    rw [sends_nothing, keeps.finSeq]
    exact hf.sent
  first := by
    intro hnone hsome
    rw [keeps.finSeq] at hsome
    obtain ⟨hlast, hall⟩ := hf.first hnone hsome
    rw [← sends_nothing] at hlast hall
    exact ⟨hlast, hall⟩

theorem effect (hf : Finishing h c₀ o) (heffect : Effect now o o')
    (hflight : Flight o'.connection) : Finishing h c₀ o' := by
  have hs := hf.sending.effect heffect hflight
  cases heffect with
  | kept keeps sends_nothing _ => exact hf.kept hs keeps sends_nothing
  | repeated keeps nothing_sent repeats =>
    refine hf.keepsFin hs nothing_sent keeps.finSeq
      (fun _ p hp => hf.sending.isFirst_of_repeats nothing_sent (repeats p hp))
      fun p hp hfin => ?_
    obtain ⟨hpay, ⟨x, hx, hxfin, hseq⟩ | hremembered⟩ := (repeats p hp).of_isFin hfin
    · have hsound := (hf.sending.flight.sound x hx).fin_seq hxfin
      exact ⟨hpay, hseq ▸ hsound.2.2⟩
    · exact ⟨hpay, hremembered⟩
  | numbered _ nothing_sent _ _ finSeq _ sends =>
    refine hf.keepsFin hs nothing_sent finSeq (fun _ p hp => ?_) fun p hp hfin => ?_
    · rw [sends, List.mem_singleton] at hp
      exact isFirst_eq_false (hp ▸ rfl)
    · rw [sends, List.mem_singleton] at hp
      rw [hp, isFin_synAckSegment] at hfin
      cases hfin
  | acknowledged nothing_sent _ _ _ is_after sends_nothing =>
    exact hf.keepsFin hs nothing_sent (by rw [is_after]; rfl) (by simp [sends_nothing])
      (by simp [sends_nothing])
  | data can_send nothing_sent _ is_after =>
    have hnone := hf.sending.flight.finSeq_of_canSend can_send
    refine hf.keepsFin hs nothing_sent (by rw [is_after]; rfl) (fun hsome => ?_)
      fun p hp hfin => ?_
    · obtain ⟨fin, hfin₀⟩ := Option.isSome_iff_exists.mp hsome
      cases hnone.symm.trans (hf.keeps fin hfin₀)
    · rw [is_after] at hp
      obtain rfl := List.mem_singleton.mp hp
      rw [isFin_dataSegment] at hfin
      cases hfin
  | fin can_send is_ready is_after sends => exact hf.fin hs can_send is_ready is_after sends

end Finishing

/-! ## Between events -/

/-- What the history `h` and the connection `c` behind it agree on about the two FINs. -/
structure Finished (h : History) (c : Connection) : Prop where
  relay : c.relayDone → ∃ st ∈ h, st.isRelayClosed
  same : ∀ p ∈ h.fins, p.payload = [] ∧ c.finSeq = some p.seq
  sent : c.finSeq.isSome → h.fins ≠ []
  clientFin : c.phase.hasClientFin → ∃ st ∈ h, st.takesFin

namespace Finished

variable {h : History} {c : Connection}

theorem process (hflight : Flight c) (hd : Delivered h.iss? h.written h.firstSent c)
    (hf : Finished h c) (e : Event) (now wall : Nat) :
    Finishing h c (c.process e now wall) := by
  have hstart : Finishing h c c.stay := {
    sending := .start hflight hd
    keeps := fun _ hfin => hfin
    quiet := by simp [stay]
    same := by simpa [stay] using hf.same
    sent := by simpa [stay] using hf.sent
    first := by
      intro hnone hsome
      rw [show c.stay.connection.finSeq = none from hnone] at hsome
      cases hsome }
  exact event_induction hstart fun o o' hfo hstep =>
    hfo.effect hstep.effect (hfo.sending.flight.step hstep)

theorem apply (m : Move) (hflight : Flight c) (hd : Delivered h.iss? h.written h.firstSent c)
    (hf : Finished h c) : Finished (h ++ [c.stage m]) (c.apply m).connection := by
  have hmem : ∀ {P : Stage → Prop}, (∃ st ∈ h, P st) → ∃ st ∈ h ++ [c.stage m], P st :=
    fun ⟨st, hst, hp⟩ => ⟨st, List.mem_append_left _ hst, hp⟩
  rcases c.event_or_bufferMove m with ⟨e, now, wall, rfl⟩ | hmove
  · have hfo := hf.process hflight hd e now wall
    have hfins := h.fins_concat ⟨c, .event e now wall, c.process e now wall⟩
    exact {
      relay := by
        intro hdone
        rcases process_relayDone hdone with hold | rfl
        · exact hmem (hf.relay hold)
        · exact ⟨_, List.mem_append_right _ List.mem_cons_self, now, wall, rfl⟩
      same := by
        show ∀ p ∈ History.fins (h ++ [⟨c, .event e now wall, c.process e now wall⟩]), _
        rw [hfins]
        exact hfo.same
      sent := by
        show _ → History.fins (h ++ [⟨c, .event e now wall, c.process e now wall⟩]) ≠ []
        rw [hfins]
        exact hfo.sent
      clientFin := by
        intro hphase
        rcases hasClientFin_or (process_progress hflight e now wall) hphase with hold | htakes
        · exact hmem (hf.clientFin hold)
        · exact ⟨_, List.mem_append_right _ List.mem_cons_self, htakes⟩ }
  · have hfins : History.fins (h ++ [c.stage m]) = h.fins := by
      rw [h.fins_concat]
      simp [Stage.fins, hmove.segments_eq_nil]
    obtain ⟨down, up, hc⟩ := hmove.connection_eq
    rw [hc]
    exact {
      relay := fun hdone => hmem (hf.relay hdone)
      same := by
        rw [hfins]
        exact hf.same
      sent := by
        rw [hfins]
        exact hf.sent
      clientFin := fun hphase => hmem (hf.clientFin hphase) }

theorem begin (flow : Flow) (held : Option Segment) (options : ConnectionOptions) (t₀ : Nat) :
    Finished [] (begin flow held options t₀) := by
  cases held <;> exact {
    relay := by rintro ⟨⟩
    same := by rintro _ ⟨⟩
    sent := by rintro ⟨⟩
    clientFin := by rintro ⟨⟩ }

end Finished

theorem finished_run (flow : Flow) (held : Option Segment) (options : ConnectionOptions)
    (t₀ : Nat) (moves : List Move) :
    let c₀ := begin flow held options t₀
    Flight (c₀.run moves) ∧
      Delivered (c₀.history moves).iss? (c₀.history moves).written (c₀.history moves).firstSent
        (c₀.run moves) ∧
      Finished (c₀.history moves) (c₀.run moves) :=
  run_induction
    (P := fun h c => Flight c ∧ Delivered h.iss? h.written h.firstSent c ∧ Finished h c)
    ⟨.begin flow held options t₀, .begin flow held options t₀, .begin flow held options t₀⟩
    (fun _ _ m ⟨hflight, hd, hf⟩ => ⟨hflight.apply m, hd.apply m hflight, hf.apply m hflight hd⟩)
    moves

/-! ## Stages -/

/-- What a stage behind the history `h` has to do with the end of the streams. -/
structure Finishes (h : History) (st : Stage) : Prop where
  /-- No FIN is sent before the relay has closed. -/
  relay : st.fins ≠ [] → ∃ st' ∈ h ++ [st], st'.isRelayClosed
  /-- The first FIN goes out behind all that was written, and takes the next number. -/
  first : h.fins = [] → ∀ p ∈ st.fins, st.outcome.segments.getLast? = some p ∧
    History.sentBytes (h ++ [st]) = History.written (h ++ [st]) ∧
    ∃ iss, History.iss? (h ++ [st]) = some iss ∧
      p.seq = iss.next.add (History.written (h ++ [st])).length
  /-- All FINs are the same, and SND.NXT stays behind them. -/
  same : ∀ p ∈ History.fins (h ++ [st]), p.payload = [] ∧ st.after.sndNxt = p.seq.next ∧
    ∀ q ∈ History.fins (h ++ [st]), q.seq = p.seq
  /-- Behind a FIN only copies of earlier data are sent. -/
  no_more : h.fins ≠ [] → st.firstSent = [] ∧ ∀ p ∈ st.outcome.segments, p.payload ≠ [] →
    ∃ q ∈ h.firstSent, q.seq = p.seq ∧ q.payload = p.payload
  /-- A close in order comes from one of three phases, with both FINs behind it. -/
  in_order : st.closesInOrder →
    (st.before.phase = .closing ∨ st.before.phase = .lastAck ∨ st.before.phase = .finWait2) ∧
    (∃ p ∈ History.fins (h ++ [st]), st.after.sndUna = p.seq.next) ∧
    ∃ st' ∈ h ++ [st], st'.takesFin

/-- The first FIN in the words of the history. -/
theorem Finishing.first_stage {h : History} {c : Connection} {e : Event} {now wall : Nat}
    (hfo : Finishing h c (c.process e now wall)) (hnone : c.finSeq = none) {p : Segment}
    (hp : p ∈ (c.stage (.event e now wall)).fins) :
    (c.process e now wall).segments.getLast? = some p ∧
      History.sentBytes (h ++ [c.stage (.event e now wall)]) =
        History.written (h ++ [c.stage (.event e now wall)]) ∧
      ∃ iss, History.iss? (h ++ [c.stage (.event e now wall)]) = some iss ∧
        p.seq = iss.next.add (History.written (h ++ [c.stage (.event e now wall)])).length := by
  have hfin := (hfo.same p (List.mem_append_right _ hp)).2
  obtain ⟨⟨front, q, hsegments, -, hfront, iss, hiss, hseq⟩, hall⟩ :=
    hfo.first hnone (by rw [hfin]; rfl)
  obtain ⟨hp, hisFin⟩ := List.mem_filter.mp hp
  have hpq : p = q := by
    change p ∈ (c.process e now wall).segments at hp
    rw [hsegments] at hp
    rcases List.mem_append.mp hp with hold | hlast
    · rw [hfront p hold] at hisFin
      cases hisFin
    · exact List.mem_singleton.mp hlast
  subst hpq
  -- An event writes nothing into the downlink.
  have hwritten : History.written (h ++ [c.stage (.event e now wall)]) = h.written := by
    rw [h.written_concat]
    exact List.append_nil _
  have hsent : History.sentBytes (h ++ [c.stage (.event e now wall)]) = h.written := by
    rw [History.sentBytes, h.firstSent_concat]
    exact hall
  have hlast : History.iss? (h ++ [c.stage (.event e now wall)]) = some iss := by
    rw [History.iss?, h.synAcks_concat]
    exact hiss
  rw [hsent, hwritten]
  exact ⟨by simp [hsegments], rfl, iss, hlast, hseq⟩

theorem Finished.finishes {h : History} {c : Connection} (m : Move) (hflight : Flight c)
    (hd : Delivered h.iss? h.written h.firstSent c) (hf : Finished h c) :
    Finishes h (c.stage m) := by
  have hf' := hf.apply m hflight hd
  have hflight' := hflight.apply m
  have hsame : ∀ p ∈ History.fins (h ++ [c.stage m]), p.payload = [] ∧
      (c.apply m).connection.sndNxt = p.seq.next ∧
      ∀ q ∈ History.fins (h ++ [c.stage m]), q.seq = p.seq := by
    intro p hp
    obtain ⟨hpay, hfin⟩ := hf'.same p hp
    exact ⟨hpay, hflight'.fin_next _ hfin, fun q hq =>
      Option.some.inj ((hf'.same q hq).2.symm.trans hfin)⟩
  rcases c.event_or_bufferMove m with ⟨e, now, wall, rfl⟩ | hmove
  · have hfo := hf.process hflight hd e now wall
    have hprogress := process_progress hflight e now wall
    exact {
      relay := by
        intro hne
        obtain ⟨p, hp⟩ := List.exists_mem_of_ne_nil _ hne
        have hmem := List.mem_append_right h.fins hp
        rw [← h.fins_concat] at hmem
        have hfin := (hf'.same p hmem).2
        exact hf'.relay (hflight'.relay_done (by rw [hfin]; rfl))
      first := by
        intro hnone p hp
        have hnone₀ : c.finSeq = none := by
          by_contra hsome
          exact hf.sent (Option.isSome_iff_ne_none.mpr hsome) hnone
        exact hfo.first_stage hnone₀ hp
      same := hsame
      no_more := by
        intro hne
        obtain ⟨q, hq⟩ := List.exists_mem_of_ne_nil _ hne
        have hquiet := hfo.quiet (by rw [(hf.same q hq).2]; rfl)
        refine ⟨List.filter_eq_nil_iff.mpr fun p hp => ?_, fun p hp hpay => ?_⟩
        · rw [hquiet p hp]
          exact Bool.false_ne_true
        · refine (hfo.sending.copies p hp hpay).resolve_left ?_
          rw [hquiet p hp]
          exact Bool.false_ne_true
      in_order := by
        rintro ⟨hopen, hclosed, habort, hreached⟩
        have hrelay : e ≠ .relayUnreachable := fun he => hreached now wall (by rw [he])
        obtain ⟨hdone, hwas⟩ := closes_in_order now wall hprogress hopen hclosed habort hrelay
        obtain ⟨hsome, huna⟩ := isFinAcknowledged_iff.mp hdone
        obtain ⟨p, hp⟩ := List.exists_mem_of_ne_nil _ (hf'.sent hsome)
        have hearlier : c.phase.hasClientFin →
            ∃ st' ∈ h ++ [c.stage (.event e now wall)], st'.takesFin := by
          intro hphase
          obtain ⟨st, hst, htakes⟩ := hf.clientFin hphase
          exact ⟨st, List.mem_append_left _ hst, htakes⟩
        have htakes : ∃ st' ∈ h ++ [c.stage (.event e now wall)], st'.takesFin := by
          rcases hwas with hp | hp | ⟨-, htakes⟩
          · exact hearlier (hp ▸ rfl)
          · exact hearlier (hp ▸ rfl)
          · exact ⟨_, List.mem_append_right _ List.mem_cons_self, htakes⟩
        exact ⟨hwas.imp_right (.imp_right And.left), ⟨p, hp, huna.trans (hsame p hp).2.1⟩, htakes⟩ }
  · have hnil : (c.apply m).segments = [] := hmove.segments_eq_nil
    exact {
      relay := fun hne => absurd (by simp [Stage.fins, hnil]) hne
      first := fun _ p hp => by simp [Stage.fins, hnil] at hp
      same := hsame
      no_more := fun _ => by simp [Stage.firstSent, hnil]
      in_order := by
        rintro ⟨hopen, hclosed, _, _⟩
        obtain ⟨down, up, hc⟩ := hmove.connection_eq
        change (c.apply m).connection.phase = _ at hclosed
        rw [hc] at hclosed
        exact absurd hclosed hopen }

/-- The discipline of the FIN, for every move after every run: it is sent only once the relay has
closed, behind all that was written and with the next number; it is repeated unchanged and nothing
new follows it; and a connection that closes in order has it acknowledged and has consumed the
client's. -/
theorem finishes_run (flow : Flow) (held : Option Segment) (options : ConnectionOptions)
    (t₀ : Nat) (moves : List Move) (m : Move) :
    let c₀ := begin flow held options t₀
    Finishes (c₀.history moves) ((c₀.run moves).stage m) := by
  intro c₀
  obtain ⟨hflight, hd, hf⟩ := finished_run flow held options t₀ moves
  exact hf.finishes m hflight hd

/-- A whole exchange: the client sends a SYN and acknowledges ours, is sent four bytes in two
segments and our FIN behind them, and closes behind one byte of its own. -/
example :
    let client (seq ack : UInt32) (flags : Flags) (payload : Bytes) : Event :=
      .segment { flow := default, seq := ⟨seq⟩, ack := ⟨ack⟩, flags, window := 1000, payload }
    let options := { maxPayload := 3, windowSize := 100, resendInterval := 10, idleTimeout := 1000 }
    let moves := [.event (client 5 0 .syn []) 0 0, .event (client 6 1 .ack []) 1 0,
      .writeDownlink [1, 2, 3, 4], .event .relayData 2 0, .event .relayClosed 3 0,
      .event (client 6 6 .ack [7]) 4 0, .event (client 7 6 (.fin ||| .ack) []) 5 0]
    let c := begin default none options 0
    let h := c.history moves
    (c.run moves).phase = .closed ∧ h.iss? = some ⟨0⟩ ∧ h.sentBytes = [1, 2, 3, 4] ∧
      h.fins.map (·.seq) = [⟨5⟩] ∧ (c.run moves).sndUna = ⟨6⟩ ∧ h.taken = [7] ∧
      h.finsTaken = 1 := by
  decide +kernel

end Connection

end TcpGateway
