import TcpGateway.Proofs.Answer
import TcpGateway.Proofs.Effect
import TcpGateway.Proofs.Progress

/-!
# The relay is sent the client's bytes

RCV.NXT counts what was taken from the client: behind the SYN that was accepted last, one number
for each byte that went into the uplink and one for the FIN.  `Receiving` is that count in the
middle of an event, which either accepts a SYN or takes the payload and the FIN of one segment, and
`Received` the count between events.
-/

namespace TcpGateway

namespace Connection

/-! ## Which steps accept a SYN or take a FIN -/

section Steps

variable {e : Event} {now wall : Nat} {c₀ c : Connection} {o o' : Outcome}

theorem acceptedSyn_eq_none {m : Move} (h : ∀ p ∈ o.segments, p.isSyn = false) :
    Stage.acceptedSyn ⟨c₀, m, o⟩ = none := by
  have hany : o.segments.any (·.isSyn) = false := by
    rw [List.any_eq_false]
    simpa using h
  unfold Stage.acceptedSyn
  simp [hany]

theorem acceptedSyn_eq_some {s : Segment}
    (offered : e = .segment s ∨ e = .relayConnected ∧ c₀.heldSyn = some s) (hsyn : s.isBareSyn)
    (hsent : o.segments.any (·.isSyn)) :
    Stage.acceptedSyn ⟨c₀, .event e now wall, o⟩ = some s := by
  rcases offered with rfl | ⟨rfl, hheld⟩
  · simp [Stage.acceptedSyn, Option.filter, hsyn, hsent]
  · simp [Stage.acceptedSyn, Option.filter, hheld, hsyn, hsent]

theorem acceptedSyn_congr (h : o'.segments.any (·.isSyn) = o.segments.any (·.isSyn)) :
    Stage.acceptedSyn ⟨c₀, .event e now wall, o'⟩ =
      Stage.acceptedSyn ⟨c₀, .event e now wall, o⟩ := by
  simp only [Stage.acceptedSyn, h]

theorem taken_eq {m : Move} {data : Bytes}
    (h : o.connection.uplink.buffer.bytes = c₀.uplink.buffer.bytes ++ data) :
    Stage.taken ⟨c₀, m, o⟩ = data := by
  rw [Stage.taken, Stage.after, h]
  exact List.drop_left

theorem takesFin_congr (hphase : o'.connection.phase = o.connection.phase)
    (hcommands : o'.commands = o.commands) :
    Stage.takesFin ⟨c₀, .event e now wall, o'⟩ = Stage.takesFin ⟨c₀, .event e now wall, o⟩ := by
  simp only [Stage.takesFin, Stage.after, hphase, hcommands]

theorem isSyn_ackSegment (c : Connection) : c.ackSegment.isSyn = false :=
  (length_eq_zero_iff.mp c.length_ackSegment).2.1

/-- Outside of the handshake no SYN is sent. -/
theorem Effect.isSyn_eq_false (h : Effect now c.stay o') (hp : c.phase.isOpening = false) :
    ∀ p ∈ o'.segments, p.isSyn = false := by
  intro p hmem
  have hsyn : ¬ c.phase.isOpening := by simp [hp]
  cases h with
  | kept _ sends_nothing _ => simp [sends_nothing, stay] at hmem
  | repeated _ _ repeats =>
    refine Bool.eq_false_iff.mpr fun hp' => hsyn ?_
    exact ((repeats p hmem).of_isSyn hp').1 ▸ rfl
  | numbered was_opening _ _ _ _ _ _ => exact absurd was_opening hsyn
  | acknowledged _ _ _ _ _ sends_nothing => simp [sends_nothing] at hmem
  | data _ _ _ is_after =>
    rw [is_after] at hmem
    obtain rfl := List.mem_singleton.mp hmem
    exact isSyn_dataSegment _ _ _
  | fin _ _ _ sends =>
    rw [sends] at hmem
    obtain rfl := List.mem_singleton.mp hmem
    exact isSyn_finSegment _ _

/-- A step that stays in its phase takes no FIN. -/
theorem takesFin_eq_false (h : Progress e c₀ c.stay) (h' : Progress e c₀ o')
    (hphase : o'.connection.phase = c.phase) :
    Stage.takesFin ⟨c₀, .event e now wall, o'⟩ = false := by
  refine Bool.eq_false_iff.mpr fun htakes => ?_
  obtain ⟨⟨s, hs, -⟩, -, -, ends⟩ := (takesFin_iff h').mp htakes
  rw [hphase] at ends
  rcases ends with ⟨hwas, is⟩ | ⟨hwas, is⟩ | ⟨hwas, is⟩
  · have hsame := h.eq_of_stay (by simp [is])
    rw [hsame, is] at hwas
    simp at hwas
  · have hsame := h.eq_of_stay (by simp [is])
    rw [hsame, is] at hwas
    cases hwas
  · have is' : c.stay.connection.phase = .closed := is
    cases h <;> simp_all [stay]

/-- Nor does a step into a phase that is not behind the client's FIN. -/
theorem takesFin_eq_false_of_ne (h' : Progress e c₀ o')
    (hp : o'.connection.phase ≠ .closeWait ∧ o'.connection.phase ≠ .closing ∧
      o'.connection.phase ≠ .closed) : Stage.takesFin ⟨c₀, .event e now wall, o'⟩ = false := by
  refine Bool.eq_false_iff.mpr fun htakes => ?_
  obtain ⟨-, -, -, ⟨-, is⟩ | ⟨-, is⟩ | ⟨-, is⟩⟩ := (takesFin_iff h').mp htakes
  · exact hp.1 is
  · exact hp.2.1 is
  · exact hp.2.2 is

/-- Closing takes no FIN, except in phase FinWait2. -/
theorem takesFin_eq_false_of_closing (h : Progress e c₀ c.stay) (h' : Progress e c₀ o')
    (hclose : Closing e c o') : Stage.takesFin ⟨c₀, .event e now wall, o'⟩ = false := by
  obtain ⟨held, counters, hc⟩ := hclose.connection_eq
  refine Bool.eq_false_iff.mpr fun htakes => ?_
  obtain ⟨⟨s, hs, -⟩, -, hno, ends⟩ := (takesFin_iff h').mp htakes
  rw [hc] at ends
  have hwas : c₀.phase = .finWait2 := by simpa using ends
  cases hclose with
  | orderly is_closing _ =>
    have hsame := h.eq_of_stay (by simp [is_closing])
    cases hwas.symm.trans (hsame.trans is_closing)
  | aborted => simp [Outcome.command] at hno
  | reset => simp [Outcome.command] at hno
  | @refused s _ _ =>
    unfold Outcome.sendResetFor at hno
    split at hno <;> simp [Outcome.command, Outcome.send] at hno
  | unreachable is_unreachable => cases hs.symm.trans is_unreachable
  | failed _ _ => simp [Outcome.command] at hno

end Steps

/-! ## In the middle of an event -/

/-- The bytes `data` have gone into the uplink since the event `e` found the connection `c₀`. -/
structure Taken (e : Event) (c₀ c : Connection) (data : Bytes) : Prop where
  appended : c.uplink.buffer.bytes = c₀.uplink.buffer.bytes ++ data
  fits : data.length ≤ 65535
  /-- They are the payload of one segment, which starts at RCV.NXT. -/
  origin : data ≠ [] → ∃ s, e = .segment s ∧ data = s.payload ∧ s.seq = c₀.rcvNxt ∧
    (c₀.phase = .synReceived ∨ c₀.phase.canReceive)
  opening : c.phase.isOpening → data = []
  greeted : c.phase.isGreeted → c₀.phase.isGreeted

/-- What the event `e` has taken from the client so far. -/
inductive Receiving (e : Event) (now wall : Nat) (c₀ : Connection) (o : Outcome) : Prop
  /-- RCV.NXT counts the bytes and the FIN taken. -/
  | counted {data : Bytes} (takes : Taken e c₀ o.connection data)
      (next : o.connection.rcvNxt = c₀.rcvNxt.add
        (data.length + (Stage.takesFin ⟨c₀, .event e now wall, o⟩).toNat))
      (no_syn : Stage.acceptedSyn ⟨c₀, .event e now wall, o⟩ = none)
  /-- RCV.NXT is set by a SYN. -/
  | numbered {s : Segment}
      (accepted : Stage.acceptedSyn ⟨c₀, .event e now wall, o⟩ = some s)
      (kept : o.connection.uplink.buffer.bytes = c₀.uplink.buffer.bytes)
      (next : o.connection.rcvNxt = s.seq.next) (was_opening : c₀.phase.isOpening)
      (no_fin : Stage.takesFin ⟨c₀, .event e now wall, o⟩ = false)

namespace Receiving

variable {e : Event} {now wall : Nat} {c₀ c : Connection} {o o' : Outcome}

theorem start : Receiving e now wall c₀ c₀.stay := by
  have hfin : Stage.takesFin ⟨c₀, .event e now wall, c₀.stay⟩ = false :=
    takesFin_eq_false (c := c₀) (.unchanged rfl) (.unchanged rfl) rfl
  have htaken : Taken e c₀ c₀ [] :=
    ⟨(List.append_nil _).symm, Nat.zero_le _, fun hne => absurd rfl hne, fun _ => rfl, id⟩
  refine .counted htaken ?_ (acceptedSyn_eq_none (by simp [stay]))
  rw [hfin]
  exact (SeqNum.add_zero _).symm

/-- While nothing was sent, bytes were counted, and no FIN. -/
theorem of_stay (h : Receiving e now wall c₀ c.stay) (hp : Progress e c₀ c.stay) :
    ∃ data, Taken e c₀ c data ∧ c.rcvNxt = c₀.rcvNxt.add data.length := by
  cases h with
  | counted takes next _ =>
    rw [takesFin_eq_false hp hp rfl] at next
    exact ⟨_, takes, next⟩
  | numbered accepted _ _ _ _ =>
    rw [acceptedSyn_eq_none (by simp [stay])] at accepted
    cases accepted

/-- A step that leaves the uplink alone. -/
theorem kept (h : Receiving e now wall c₀ o)
    (huplink : o'.connection.uplink = o.connection.uplink)
    (hfin : Stage.takesFin ⟨c₀, .event e now wall, o'⟩ =
      Stage.takesFin ⟨c₀, .event e now wall, o⟩)
    (hsyn : Stage.acceptedSyn ⟨c₀, .event e now wall, o'⟩ =
      Stage.acceptedSyn ⟨c₀, .event e now wall, o⟩)
    (hopening : o'.connection.phase.isOpening → o.connection.phase.isOpening)
    (hgreeted : o'.connection.phase.isGreeted → o.connection.phase.isGreeted) :
    Receiving e now wall c₀ o' := by
  cases h with
  | counted takes next no_syn =>
    refine .counted { takes with
      appended := huplink ▸ takes.appended
      opening := fun hp => takes.opening (hopening hp)
      greeted := fun hp => takes.greeted (hgreeted hp) } ?_ (hsyn.trans no_syn)
    rw [hfin, rcvNxt, huplink]
    exact next
  | numbered accepted kept next was_opening no_fin =>
    refine .numbered (hsyn.trans accepted) (huplink ▸ kept) ?_ was_opening (hfin.trans no_fin)
    rw [rcvNxt, huplink]
    exact next

/-- A step that also sends no SYN and takes no FIN. -/
theorem passed (h : Receiving e now wall c₀ c.stay) (hp : Progress e c₀ c.stay)
    (huplink : o'.connection.uplink = c.uplink) (hsends : ∀ p ∈ o'.segments, p.isSyn = false)
    (hfin : Stage.takesFin ⟨c₀, .event e now wall, o'⟩ = false)
    (hopening : o'.connection.phase.isOpening → c.phase.isOpening)
    (hgreeted : o'.connection.phase.isGreeted → c.phase.isGreeted) :
    Receiving e now wall c₀ o' := by
  refine h.kept huplink (hfin.trans (takesFin_eq_false hp hp rfl).symm) ?_ hopening hgreeted
  rw [acceptedSyn_eq_none hsends, acceptedSyn_eq_none (by simp [stay])]

/-- A step that stays in its phase. -/
theorem same (h : Receiving e now wall c₀ c.stay) (hp : Progress e c₀ c.stay)
    (hp' : Progress e c₀ o') (huplink : o'.connection.uplink = c.uplink)
    (hsends : ∀ p ∈ o'.segments, p.isSyn = false)
    (hphase : o'.connection.phase = c.phase) : Receiving e now wall c₀ o' :=
  h.passed hp huplink hsends (takesFin_eq_false hp hp' hphase) (hphase ▸ id) (hphase ▸ id)

/-- Payload is taken once: a second time it would not start at RCV.NXT. -/
theorem received {c' : Connection} {s : Segment} (h : Receiving e now wall c₀ c.stay)
    (hp : Progress e c₀ c.stay) (hp' : Progress e c₀ c'.stay) (hs : e = .segment s)
    (hreceive : c.phase.canReceive) (hne : s.payload ≠ [])
    (happ : c.acceptPayload s = some c') : Receiving e now wall c₀ c'.stay := by
  obtain ⟨hseq, hwindow, rfl⟩ := acceptPayload_eq_some happ hne
  obtain ⟨data, htaken, hnext⟩ := h.of_stay hp
  have hwin : c.rcvWnd ≤ 65535 := c.uplink.window_le
  have hfirst : data = [] := by
    by_contra hdata
    obtain ⟨s', hs', -, hseq', -⟩ := htaken.origin hdata
    cases hs.symm.trans hs'
    rw [hseq', hnext] at hseq
    have hlen := htaken.fits
    have hzero := SeqNum.distance_add_of_lt c₀.rcvNxt (n := data.length) (by omega)
    rw [← hseq, SeqNum.distance_self] at hzero
    exact hdata (List.eq_nil_of_length_eq_zero hzero.symm)
  subst hfirst
  have hopen : c.phase.isOpening = false ∧ c.phase.isGreeted := by
    cases hq : c.phase <;> simp_all [Phase.canReceive, Phase.isOpening, Phase.isGreeted]
  have hnext' : c.rcvNxt = c₀.rcvNxt := hnext.trans (SeqNum.add_zero _)
  have hbytes : c.uplink.buffer.bytes = c₀.uplink.buffer.bytes := by
    rw [htaken.appended, List.append_nil]
  have htaken' : Taken e c₀ (c.afterPayload s) s.payload := {
    appended := congrArg (· ++ s.payload) hbytes
    fits := by omega
    origin := fun _ => ⟨s, hs, rfl, hseq.trans hnext', hp.of_canReceive hreceive⟩
    opening := fun ho => by cases hopen.1.symm.trans ho
    greeted := fun _ => htaken.greeted hopen.2 }
  refine .counted htaken' ?_ (acceptedSyn_eq_none (by simp [stay]))
  rw [takesFin_eq_false hp hp' rfl]
  exact congrArg (SeqNum.add · s.payload.length) hnext'

/-- The client's FIN is counted. -/
theorem finTaken {p : Phase} (h : Receiving e now wall c₀ c.stay) (hp : Progress e c₀ c.stay)
    (hphase : o'.connection.phase = p) (huplink : o'.connection.uplink = c.uplink.spendControl)
    (hsends : ∀ q ∈ o'.segments, q.isSyn = false)
    (hfin : Stage.takesFin ⟨c₀, .event e now wall, o'⟩)
    (hopening : p.isOpening = false) (hgreeted : c.phase.isGreeted) :
    Receiving e now wall c₀ o' := by
  obtain ⟨data, htaken, hnext⟩ := h.of_stay hp
  have htaken' : Taken e c₀ o'.connection data := {
    appended := by
      rw [huplink]
      exact htaken.appended
    fits := htaken.fits
    origin := htaken.origin
    opening := by
      intro ho
      rw [hphase, hopening] at ho
      cases ho
    greeted := fun _ => htaken.greeted hgreeted }
  refine .counted htaken' ?_ (acceptedSyn_eq_none hsends)
  rw [hfin, rcvNxt, huplink]
  show c.rcvNxt.next = _
  rw [hnext, SeqNum.add_next]
  rfl

/-- A SYN is accepted before anything was taken. -/
theorem synAccepted {s : Segment} (h : Receiving e now wall c₀ c.stay) (hp : Progress e c₀ c.stay)
    (hp' : Progress e c₀ o') (hopen : c.phase.isOpening)
    (hphase : o'.connection.phase = .synReceived)
    (huplink : o'.connection.uplink = .ofBuffer c.uplink.buffer s.seq.next)
    (offered : e = .segment s ∨ e = .relayConnected ∧ c₀.heldSyn = some s) (hsyn : s.isBareSyn)
    (hsent : o'.segments.any (·.isSyn)) : Receiving e now wall c₀ o' := by
  obtain ⟨data, htaken, -⟩ := h.of_stay hp
  have hbytes := htaken.appended
  rw [htaken.opening hopen, List.append_nil] at hbytes
  refine .numbered (acceptedSyn_eq_some offered hsyn hsent) ?_ ?_ (hp.of_isOpening hopen)
    (takesFin_eq_false_of_ne hp' (by simp [hphase]))
  · rw [huplink]
    exact hbytes
  · rw [rcvNxt, huplink]
    rfl

theorem step (h : Receiving e now wall c₀ o) (hp : Progress e c₀ o) (hflight : Flight o.connection)
    (hheld : o.connection.phase = .held → o.connection.heldSyn = c₀.heldSyn)
    (hstep : Step e now wall o o') : Receiving e now wall c₀ o' := by
  have hp' : Progress e c₀ o' := hp.step hflight hstep
  have heffect := hstep.effect
  cases hstep with
  | recorded _ => exact h.same hp hp' rfl (by simp [stay]) rfl
  | touched _ => exact h.same hp hp' rfl (by simp [stay]) rfl
  | relayDone _ => exact h.same hp hp' rfl (by simp [stay]) rfl
  | @listened c _ is_held _ =>
    exact h.passed hp rfl (by simp [stay]) (takesFin_eq_false_of_ne hp' (by simp [stay]))
      (fun _ => is_held ▸ rfl) (by rintro ⟨⟩)
  | @heldSynAccepted c s is_connected is_held holds is_syn =>
    have hsyn : c₀.heldSyn = some s := (hheld is_held).symm.trans holds
    exact h.synAccepted hp hp' (is_held ▸ rfl) rfl rfl (.inr ⟨is_connected, hsyn⟩) is_syn
      (by simp [acceptSyn, Outcome.send, isSyn_synAckSegment])
  | @synAccepted c s is_segment is_opening is_syn =>
    have hopen : c.phase.isOpening := by rcases is_opening with hq | hq <;> exact hq ▸ rfl
    exact h.synAccepted hp hp' hopen rfl rfl (.inl is_segment) is_syn
      (by simp [acceptSyn, Outcome.send, isSyn_synAckSegment])
  | @synAckRepeated c s is_segment not_syn _ =>
    have hstay : Stage.takesFin ⟨c₀, .event e now wall, c.stay⟩ = false :=
      takesFin_eq_false hp hp rfl
    refine h.kept rfl ((takesFin_eq_false hp hp' rfl).trans hstay.symm) ?_ id id
    rw [acceptedSyn_eq_none (o := c.stay) (by simp [stay])]
    subst is_segment
    simp [Stage.acceptedSyn, Option.filter, not_syn]
  | @synAckResent c is_tick _ =>
    have hstay : Stage.takesFin ⟨c₀, .event e now wall, c.stay⟩ = false :=
      takesFin_eq_false hp hp rfl
    refine h.kept rfl ((takesFin_eq_false hp hp' rfl).trans hstay.symm) ?_ id id
    rw [acceptedSyn_eq_none (o := c.stay) (by simp [stay])]
    subst is_tick
    rfl
  | @ackRefused c s _ _ =>
    obtain ⟨resets, hsegments, hlength⟩ := sendResetFor_segments c.stay s
    obtain ⟨counters, hc⟩ := sendResetFor_connection c.stay s
    refine h.same hp hp' (by rw [hc]; rfl) (fun p hmem => ?_) (by rw [hc]; rfl)
    rw [hsegments] at hmem
    exact (length_eq_zero_iff.mp (hlength p hmem)).2.1
  | @established c s _ is_opening _ _ _ =>
    exact h.passed hp rfl (by simp [stay]) (takesFin_eq_false_of_ne hp' (by simp [stay]))
      (by rintro ⟨⟩) (fun _ => is_opening ▸ rfl)
  | acknowledged _ _ _ _ applied =>
    refine h.same hp hp' ?_ (by simp [stay]) (applyAck_phase applied)
    obtain ⟨-, rfl⟩ | ⟨-, -, rfl⟩ := applyAck_eq_some applied <;> rfl
  | @lastAcknowledged c c' s fin _ is_lastAck _ _ applied =>
    refine h.passed hp ?_ (by simp [enter]) ?_ (by rintro ⟨⟩) (by rintro ⟨⟩)
    · obtain ⟨-, rfl⟩ | ⟨-, -, rfl⟩ := applyAck_eq_some applied <;> rfl
    · have hwas := (hp.eq_of_stay (by simp [is_lastAck])).trans is_lastAck
      refine Bool.eq_false_iff.mpr fun htakes => ?_
      have ends := ((takesFin_iff hp').mp htakes).2.2.2
      simp [hwas] at ends
  | received is_segment can_receive not_empty accepted =>
    exact h.received hp hp' is_segment can_receive not_empty accepted
  | @finReceived c s is_segment is_fin is_established =>
    refine h.finTaken hp rfl rfl ?_ ?_ rfl (is_established ▸ rfl)
    · simp [Outcome.command, Outcome.sendAck, Outcome.send, enter, isSyn_ackSegment]
    · exact (takesFin_iff hp').mpr ⟨⟨s, is_segment, is_fin⟩, List.cons_ne_nil _ _,
        by simp [Outcome.command, Outcome.sendAck, Outcome.send, enter],
        .inl ⟨hp.of_established is_established, rfl⟩⟩
  | @lastFinReceived c s p is_segment is_fin ends =>
    refine h.finTaken (p := p) hp rfl rfl ?_ ?_ ?_ ?_
    · simp [Outcome.sendAck, Outcome.send, enter, isSyn_ackSegment]
    · refine (takesFin_iff hp').mpr ⟨⟨s, is_segment, is_fin⟩, List.cons_ne_nil _ _,
        by simp [Outcome.sendAck, Outcome.send, enter], .inr ?_⟩
      rcases ends with ⟨hq, rfl⟩ | ⟨hq, rfl⟩
      · exact .inl ⟨(hp.eq_of_stay (by simp [hq])).trans hq, rfl⟩
      · exact .inr ⟨hp.of_finWait2 hq is_segment is_fin, rfl⟩
    · rcases ends with ⟨-, rfl⟩ | ⟨-, rfl⟩ <;> rfl
    · rcases ends with ⟨hq, -⟩ | ⟨hq, -⟩ <;> exact hq ▸ rfl
  | @finAcknowledged c s _ _ is_waiting _ =>
    exact h.passed hp rfl (by simp [enter])
      (takesFin_eq_false_of_ne hp' (by simp [enter])) (by rintro ⟨⟩) (fun _ => is_waiting ▸ rfl)
  | answered _ =>
    exact h.same hp hp' rfl (by simp [stay, Outcome.sendAck, Outcome.send, isSyn_ackSegment]) rfl
  | @dataSent c can_send _ =>
    obtain ⟨-, -, hopening, -⟩ := Phase.of_canSend can_send
    exact h.same hp hp' rfl (heffect.isSyn_eq_false hopening) rfl
  | @resent c x rest _ is_synchronized _ _ =>
    have hopen : c.phase.isOpening = false := by
      cases hq : c.phase <;> simp_all [Phase.isSynchronized, Phase.isOpening]
    exact h.same hp hp' rfl (heffect.isSyn_eq_false hopen) rfl
  | finRepeated is_lastAck _ =>
    exact h.same hp hp' rfl (heffect.isSyn_eq_false (is_lastAck ▸ rfl)) rfl
  | finSent no_command can_send is_ready =>
    rw [sendFinIfReady_eq now can_send is_ready] at hp' ⊢
    have hphase := hp.of_canSend no_command can_send
    have hfin : Stage.takesFin ⟨c₀, .event e now wall, o⟩ = false := by
      refine Bool.eq_false_iff.mpr fun htakes => ?_
      have ends := ((takesFin_iff hp).mp htakes).2.2.2
      rcases hphase with ⟨hwas, is⟩ | ⟨hwas, is⟩
      · simp [is] at ends
      · simp [hwas] at ends
    refine h.kept rfl ((takesFin_eq_false_of_ne hp' ?_).trans hfin.symm) (acceptedSyn_congr ?_)
      (fun ho => ?_) (fun _ => ?_)
    · rcases hphase with ⟨-, is⟩ | ⟨-, is⟩ <;> simp [afterFin, is, Phase.afterOurFin]
    · simp [isSyn_finSegment]
    · rcases hphase with ⟨-, is⟩ | ⟨-, is⟩ <;>
        simp [afterFin, is, Phase.afterOurFin, Phase.isOpening] at ho
    · rcases hphase with ⟨-, is⟩ | ⟨-, is⟩ <;> exact is ▸ rfl
  | closed closes =>
    obtain ⟨held, counters, hc⟩ := closes.connection_eq
    refine h.passed hp (by rw [hc]) (fun p hmem => ?_) (takesFin_eq_false_of_closing hp hp' closes)
      (by simp [hc, Phase.isOpening]) (by simp [hc, Phase.isGreeted])
    exact (length_eq_zero_iff.mp (closes.segments_length p hmem)).2.1
  | @settled o =>
    obtain ⟨advertised, hc⟩ := settle_connection o
    exact h.kept (by rw [hc]) (takesFin_congr (by rw [hc]) rfl) rfl (by rw [hc]; exact id)
      (by rw [hc]; exact id)

end Receiving

/-! ## The held SYN -/

/-- Before a SYN is answered a step stays in its phase and keeps the SYN that is held, or it finds
none there and listens. -/
theorem Step.of_isWaiting {e : Event} {now wall : Nat} {o o' : Outcome}
    (h : Step e now wall o o') (hp : o'.connection.phase.isWaiting) :
    o'.connection.phase = o.connection.phase ∧ o'.connection.heldSyn = o.connection.heldSyn ∨
      o.connection.phase = .held ∧ o.connection.heldSyn = none ∧
        o'.connection.phase = .listen := by
  cases h with
  | listened _ is_held holds_none => exact .inr ⟨is_held, holds_none, rfl⟩
  | @ackRefused c s _ _ =>
    obtain ⟨counters, hc⟩ := sendResetFor_connection c.stay s
    rw [hc]
    exact .inl ⟨rfl, rfl⟩
  | @acknowledged c c' s _ _ is_synchronized _ applied =>
    have hphase := applyAck_phase applied
    change c'.phase.isWaiting at hp
    rw [hphase] at hp
    cases hq : c.phase <;> simp_all [Phase.isSynchronized, Phase.isWaiting]
  | @received c c' s _ can_receive _ accepted =>
    have hphase := acceptPayload_phase accepted
    change c'.phase.isWaiting at hp
    rw [hphase] at hp
    cases hq : c.phase <;> simp_all [Phase.canReceive, Phase.isWaiting]
  | @lastFinReceived c s p _ _ ends =>
    change p.isWaiting at hp
    rcases ends with ⟨-, rfl⟩ | ⟨-, rfl⟩ <;> cases hp
  | finSent _ can_send is_ready =>
    rw [sendFinIfReady_eq now can_send is_ready] at hp
    change o.connection.phase.afterOurFin.isWaiting at hp
    rcases Phase.afterOurFin_of_canSend can_send with hq | hq <;> rw [hq] at hp <;> cases hp
  | closed closes =>
    obtain ⟨held, counters, hc⟩ := closes.connection_eq
    rw [hc] at hp
    cases hp
  | settled =>
    obtain ⟨advertised, hc⟩ := settle_connection o
    rw [hc]
    exact .inl ⟨rfl, rfl⟩
  | recorded _ => exact .inl ⟨rfl, rfl⟩
  | touched _ => exact .inl ⟨rfl, rfl⟩
  | relayDone _ => exact .inl ⟨rfl, rfl⟩
  | synAckRepeated _ _ _ => exact .inl ⟨rfl, rfl⟩
  | synAckResent _ _ => exact .inl ⟨rfl, rfl⟩
  | answered _ => exact .inl ⟨rfl, rfl⟩
  | dataSent _ _ => exact .inl ⟨rfl, rfl⟩
  | resent _ _ _ _ => exact .inl ⟨rfl, rfl⟩
  | finRepeated _ _ => exact .inl ⟨rfl, rfl⟩
  | _ => cases hp

/-- A step that stays in phase Held keeps the SYN that is held. -/
theorem Step.of_held {e : Event} {now wall : Nat} {o o' : Outcome} (h : Step e now wall o o')
    (hp : o'.connection.phase = .held) :
    o.connection.phase = .held ∧ o'.connection.heldSyn = o.connection.heldSyn := by
  rcases h.of_isWaiting (hp ▸ rfl) with ⟨hphase, hsame⟩ | ⟨-, -, hlisten⟩
  · exact ⟨hphase.symm.trans hp, hsame⟩
  · cases hp.symm.trans hlisten

/-- The induction over the steps of an event, for what depends on the held SYN: as long as the
phase is Held, it is the one that the event found. -/
theorem held_induction {P : Outcome → Prop} {c : Connection} {e : Event} {now wall : Nat}
    (start : P c.stay)
    (step : ∀ o o', (o.connection.phase = .held → o.connection.heldSyn = c.heldSyn) → P o →
      Step e now wall o o' → P o') : P (c.process e now wall) := by
  refine (event_induction (P := fun o =>
    (o.connection.phase = .held → o.connection.heldSyn = c.heldSyn) ∧ P o)
    ⟨fun _ => rfl, start⟩ ?_).2
  rintro o o' ⟨hheld, hp⟩ hstep
  refine ⟨fun hp' => ?_, step o o' hheld hp hstep⟩
  obtain ⟨hwas, hsame⟩ := hstep.of_held hp'
  exact hsame.trans (hheld hwas)

theorem process_receiving {c : Connection} (hflight : Flight c) (e : Event) (now wall : Nat) :
    Receiving e now wall c (c.process e now wall) := by
  refine (held_induction (P := fun o => Flight o.connection ∧ Progress e c o ∧
    Receiving e now wall c o) ⟨hflight, .unchanged rfl, .start⟩ ?_).2.2
  rintro o o' hheld ⟨hflight, hp, hr⟩ hstep
  exact ⟨hflight.step hstep, hp.step hflight hstep, hr.step hp hflight hheld hstep⟩

/-- What a stage takes is appended to the uplink, and comes from a segment at RCV.NXT. -/
theorem Receiving.taken {e : Event} {now wall : Nat} {c : Connection} {o : Outcome}
    (h : Receiving e now wall c o) :
    o.connection.uplink.buffer.bytes =
        c.uplink.buffer.bytes ++ Stage.taken ⟨c, .event e now wall, o⟩ ∧
      (Stage.taken ⟨c, .event e now wall, o⟩ ≠ [] → ∃ s, e = .segment s ∧
        Stage.taken ⟨c, .event e now wall, o⟩ = s.payload ∧ s.seq = c.rcvNxt ∧
        (c.phase = .synReceived ∨ c.phase.canReceive)) := by
  cases h with
  | counted takes _ _ =>
    rw [taken_eq takes.appended]
    exact ⟨takes.appended, takes.origin⟩
  | numbered _ kept _ _ _ =>
    rw [taken_eq (kept.trans (List.append_nil _).symm)]
    exact ⟨kept.trans (List.append_nil _).symm, fun hne => absurd rfl hne⟩

/-! ## Between events -/

/-- What the history `h` and the connection `c` behind it agree on about what was taken from the
client. -/
structure Received (h : History) (c : Connection) : Prop where
  greeted : c.phase.isGreeted → h.irs?.isSome
  next : ∀ irs, h.irs? = some irs → c.rcvNxt = irs.next.add (h.taken.length + h.finsTaken)
  opening : c.phase.isOpening → h.taken = [] ∧ h.finsTaken = 0
  fin_once : h.finsTaken ≤ 1
  behind_fin : h.finsTaken ≠ 0 → c.phase.hasClientFin ∨ c.phase = .closed

/-- What a stage behind the history `h` takes from the client. -/
structure Receives (h : History) (st : Stage) : Prop where
  /-- RCV.NXT counts the bytes and the FIN taken behind the SYN accepted last. -/
  next : ∀ irs, History.irs? (h ++ [st]) = some irs → st.after.rcvNxt =
    irs.next.add ((History.taken (h ++ [st])).length + History.finsTaken (h ++ [st]))
  /-- An event only appends to the uplink. -/
  appends : ∀ e now wall, st.move = .event e now wall →
    st.after.uplink.buffer.bytes = st.before.uplink.buffer.bytes ++ st.taken
  /-- What is taken is the payload of a segment that starts behind all that was taken before. -/
  in_order : st.taken ≠ [] → ∃ s now wall irs, st.move = .event (.segment s) now wall ∧
    st.taken = s.payload ∧ h.irs? = some irs ∧ s.seq = irs.next.add h.taken.length
  fin_once : History.finsTaken (h ++ [st]) ≤ 1
  none_behind_fin : h.finsTaken ≠ 0 → st.taken = []
  acknowledged : st.after.rcvNxt ≠ st.before.rcvNxt →
    ∃ p ∈ st.outcome.segments, p.isAck ∧ p.ack = st.after.rcvNxt

/-- A move that is no event takes nothing from the client. -/
theorem BufferMove.taken_eq_nil {c : Connection} {m : Move} (h : c.BufferMove m) :
    (c.stage m).taken = [] := by
  show (c.apply m).connection.uplink.buffer.bytes.drop c.uplink.buffer.bytes.length = []
  cases h with
  | downlink _ applied _ _ =>
    rw [applied]
    exact List.drop_length
  | uplink _ applied removed _ _ =>
    rw [applied]
    simp only [stay, removed, List.drop_drop]
    exact List.drop_eq_nil_of_le (Nat.le_add_left _ _)

theorem BufferMove.takesFin_eq_false {c : Connection} {m : Move} (h : c.BufferMove m) :
    (c.stage m).takesFin = false := by
  cases m with
  | event e now wall => exact absurd rfl (h.not_event e now wall)
  | _ => rfl

namespace Received

variable {h : History} {c : Connection}

/-- The client's FIN is taken before it was. -/
theorem finsTaken_eq_zero (hr : Received h c)
    (hp : c.phase = .synReceived ∨ c.phase.canReceive) : h.finsTaken = 0 := by
  by_contra hne
  have hbehind := hr.behind_fin hne
  cases hq : c.phase <;> simp_all [Phase.canReceive, Phase.hasClientFin]

theorem event (hr : Received h c) {e : Event} {now wall : Nat} {o : Outcome}
    (hp : Progress e c o) (ho : Receiving e now wall c o) :
    Received (h ++ [⟨c, .event e now wall, o⟩]) o.connection := by
  have htakesPhase : Stage.takesFin ⟨c, .event e now wall, o⟩ →
      (c.phase = .synReceived ∨ c.phase.canReceive) ∧
        (o.connection.phase.hasClientFin ∨ o.connection.phase = .closed) := by
    intro htakes
    obtain ⟨-, -, -, ⟨was | was, is⟩ | ⟨was, is⟩ | ⟨was, is⟩⟩ := (takesFin_iff hp).mp htakes <;>
      simp [was, is, Phase.canReceive, Phase.hasClientFin]
  have hsum := h.finsTaken_concat ⟨c, .event e now wall, o⟩
  have hbytes := h.taken_concat ⟨c, .event e now wall, o⟩
  have honce : History.finsTaken (h ++ [⟨c, .event e now wall, o⟩]) ≤ 1 := by
    have hold := hr.fin_once
    rw [hsum]
    cases ht : Stage.takesFin ⟨c, .event e now wall, o⟩ with
    | false => exact hold
    | true => exact (hr.finsTaken_eq_zero (htakesPhase ht).1).symm ▸ Nat.le_refl _
  have hbehind : History.finsTaken (h ++ [⟨c, .event e now wall, o⟩]) ≠ 0 →
      o.connection.phase.hasClientFin ∨ o.connection.phase = .closed := by
    intro hne
    rw [hsum] at hne
    cases ht : Stage.takesFin ⟨c, .event e now wall, o⟩ with
    | false =>
      rw [ht] at hne
      exact hp.behind_clientFin (hr.behind_fin hne)
    | true => exact (htakesPhase ht).2
  cases ho with
  | @counted data takes next no_syn =>
    have hirs := h.irs?_concat_none _ no_syn
    rw [taken_eq takes.appended] at hbytes
    exact {
      greeted := by
        intro hg
        rw [hirs]
        exact hr.greeted (takes.greeted hg)
      next := by
        intro irs hi
        rw [hirs] at hi
        rw [next, hr.next irs hi, SeqNum.add_add, hbytes, hsum, List.length_append]
        exact congrArg irs.next.add (by omega)
      opening := by
        intro ho
        obtain ⟨hnone, hzero⟩ := hr.opening (hp.of_isOpening ho)
        have hfin : Stage.takesFin ⟨c, .event e now wall, o⟩ = false :=
          takesFin_eq_false_of_ne hp (by
            cases hq : o.connection.phase <;> simp_all [Phase.isOpening])
        rw [hbytes, hsum, hnone, hzero, hfin, takes.opening ho]
        exact ⟨rfl, rfl⟩
      fin_once := honce
      behind_fin := hbehind }
  | numbered accepted kept next was_opening no_fin =>
    obtain ⟨hnone, hzero⟩ := hr.opening was_opening
    have hirs := h.irs?_concat_some _ accepted
    rw [taken_eq (kept.trans (List.append_nil _).symm), hnone] at hbytes
    rw [hzero, no_fin] at hsum
    exact {
      greeted := by
        intro _
        rw [hirs]
        rfl
      next := by
        intro irs hi
        rw [hirs] at hi
        cases hi
        rw [next, hbytes, hsum]
        exact (SeqNum.add_zero _).symm
      opening := fun _ => ⟨hbytes, hsum⟩
      fin_once := honce
      behind_fin := hbehind }

theorem apply (m : Move) (hflight : Flight c) (hr : Received h c) :
    Received (h ++ [c.stage m]) (c.apply m).connection := by
  rcases c.event_or_bufferMove m with ⟨e, now, wall, rfl⟩ | hmove
  · exact hr.event (process_progress hflight e now wall) (process_receiving hflight e now wall)
  · obtain ⟨down, up, hc⟩ := hmove.connection_eq
    have hirs := h.irs?_concat_none (c.stage m)
      (acceptedSyn_eq_none (by simp [hmove.segments_eq_nil]))
    have hbytes := h.taken_concat (c.stage m)
    have hsum := h.finsTaken_concat (c.stage m)
    rw [hmove.taken_eq_nil, List.append_nil] at hbytes
    rw [hmove.takesFin_eq_false] at hsum
    rw [hc]
    exact {
      greeted := by
        rw [hirs]
        exact hr.greeted
      next := by
        rw [hirs, hbytes, hsum]
        exact hr.next
      opening := by
        rw [hbytes, hsum]
        exact hr.opening
      fin_once := by
        rw [hsum]
        exact hr.fin_once
      behind_fin := by
        rw [hsum]
        exact hr.behind_fin }

theorem begin (flow : Flow) (held : Option Segment) (options : ConnectionOptions) (t₀ : Nat) :
    Received [] (begin flow held options t₀) where
  greeted := fun hg => by cases held <;> cases hg
  next := by rintro _ ⟨⟩
  opening := fun _ => ⟨rfl, rfl⟩
  fin_once := Nat.zero_le _
  behind_fin := fun hne => absurd rfl hne

theorem receives (m : Move) (hflight : Flight c) (hr : Received h c) :
    Receives h (c.stage m) := by
  have hr' := hr.apply m hflight
  rcases c.event_or_bufferMove m with ⟨e, now, wall, rfl⟩ | hmove
  · obtain ⟨happended, horigin⟩ := (process_receiving hflight e now wall).taken
    exact {
      next := hr'.next
      appends := fun _ _ _ _ => happended
      in_order := by
        intro hne
        obtain ⟨s, rfl, hpayload, hseq, hphase⟩ := horigin hne
        have hgreeted : c.phase.isGreeted := by
          cases hq : c.phase <;> simp_all [Phase.canReceive, Phase.isGreeted]
        obtain ⟨irs, hirs⟩ := Option.isSome_iff_exists.mp (hr.greeted hgreeted)
        refine ⟨s, now, wall, irs, rfl, hpayload, hirs, ?_⟩
        rw [hseq, hr.next irs hirs, hr.finsTaken_eq_zero hphase, Nat.add_zero]
      fin_once := hr'.fin_once
      none_behind_fin := by
        intro hne
        by_contra hsome
        obtain ⟨s, -, -, -, hphase⟩ := horigin hsome
        exact hne (hr.finsTaken_eq_zero hphase)
      acknowledged := (process_acknowledges e now wall).resolve_left }
  · exact {
      next := hr'.next
      appends := fun e now wall he => absurd he (hmove.not_event e now wall)
      in_order := fun hne => absurd hmove.taken_eq_nil hne
      fin_once := hr'.fin_once
      none_behind_fin := fun _ => hmove.taken_eq_nil
      acknowledged := by
        intro hne
        obtain ⟨down, up, hc⟩ := hmove.connection_eq
        exact absurd (by rw [Stage.after, hc]; rfl) hne }

end Received

theorem received_run (flow : Flow) (held : Option Segment) (options : ConnectionOptions)
    (t₀ : Nat) (moves : List Move) :
    let c₀ := begin flow held options t₀
    Flight (c₀.run moves) ∧ Received (c₀.history moves) (c₀.run moves) :=
  run_induction (P := fun h c => Flight c ∧ Received h c)
    ⟨.begin flow held options t₀, .begin flow held options t₀⟩
    (fun _ _ m ⟨hflight, hr⟩ => ⟨hflight.apply m, hr.apply m hflight⟩) moves

/-- Upstream integrity, for every move after every run: behind a SYN, RCV.NXT counts the bytes that
went into the uplink and the client's FIN; what goes in is the payload that starts there, so every
offset of the stream is filled once and in order, and nothing goes in behind the FIN; and every
change of RCV.NXT is acknowledged by the event that makes it. -/
theorem receives_run (flow : Flow) (held : Option Segment) (options : ConnectionOptions)
    (t₀ : Nat) (moves : List Move) (m : Move) :
    let c₀ := begin flow held options t₀
    Receives (c₀.history moves) ((c₀.run moves).stage m) := by
  intro c₀
  obtain ⟨hflight, hr⟩ := received_run flow held options t₀ moves
  exact hr.receives m hflight

end Connection

end TcpGateway
