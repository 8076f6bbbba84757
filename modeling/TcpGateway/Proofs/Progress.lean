import TcpGateway.Proofs.Flight

/-!
# How far an event leads

`Progress` says which phase an event has reached from the phase that it found, and what it must
have been for that.  It is kept by the steps, of which only a few change the phase, so the
constructors are the edges of the state diagram that one event can take, two at a time where the
end of the handshake carries more.

An event that closes is either an abort, and asks for the relay's to be aborted too unless the
relay was never reached, or it completes the exchange of FINs, and then all is acknowledged.
-/

namespace TcpGateway

/-- Whether the client's FIN was consumed and ours may be outstanding. -/
def Phase.hasClientFin : Phase → Bool
  | .closeWait | .closing | .lastAck => true
  | _ => false

namespace Connection

/-- Where the event `e` has led from the connection `c₀`, with the outcome `o` so far. -/
inductive Progress (e : Event) (c₀ : Connection) (o : Outcome) : Prop
  | unchanged (same : o.connection.phase = c₀.phase)
  | listening (was : c₀.phase = .held) (is : o.connection.phase = .listen)
  | synAnswered (was : c₀.phase.isOpening) (is : o.connection.phase = .synReceived)
      (sent : o.segments ≠ [])
  | established (was : c₀.phase = .synReceived) (is : o.connection.phase = .established)
  | finSent (ends : (c₀.phase = .synReceived ∨ c₀.phase = .established) ∧
        o.connection.phase = .finWait1 ∨
      c₀.phase = .closeWait ∧ o.connection.phase = .lastAck) (sent : o.segments ≠ [])
  | finAcknowledged (was : c₀.phase = .finWait1) (is : o.connection.phase = .finWait2)
      (not_fin : ∀ s, e = .segment s → s.isFin = false)
  /-- The client's FIN is consumed. -/
  | finTaken {s : Segment} (is_segment : e = .segment s) (is_fin : s.isFin)
      (ends : (c₀.phase = .synReceived ∨ c₀.phase = .established) ∧
          o.connection.phase = .closeWait ∧ o.commands ≠ [] ∨
        c₀.phase = .finWait1 ∧ o.connection.phase = .closing ∨
        c₀.phase = .finWait2 ∧ o.connection.phase = .closed ∧ o.connection.isFinAcknowledged)
      (not_aborted : .abortRelay ∉ o.commands) (sent : o.segments ≠ [])
  | aborted (is : o.connection.phase = .closed)
      (aborts : .abortRelay ∈ o.commands ∨ e = .relayUnreachable)
  /-- Our FIN is acknowledged behind the client's. -/
  | completed (was : c₀.phase = .closing ∨ c₀.phase = .lastAck)
      (is : o.connection.phase = .closed) (done : o.connection.isFinAcknowledged)

theorem isFinAcknowledged_iff {c : Connection} :
    c.isFinAcknowledged ↔ c.finSeq.isSome ∧ c.sndUna = c.sndNxt := by
  rw [isFinAcknowledged, Bool.and_eq_true, Downlink.isFullyAcknowledged_iff]
  rfl

namespace Progress

variable {e : Event} {now wall : Nat} {c₀ c : Connection} {o o' : Outcome}

/-- A step that stays in its phase; if that is Closed, it keeps what is acknowledged. -/
theorem same (h : Progress e c₀ o) (hphase : o'.connection.phase = o.connection.phase)
    (hcommands : o'.commands = o.commands) (hsent : o.segments ≠ [] → o'.segments ≠ [])
    (hdone : o.connection.phase = .closed → o'.connection.isFinAcknowledged =
      o.connection.isFinAcknowledged) : Progress e c₀ o' := by
  cases h with
  | unchanged same => exact .unchanged (hphase.trans same)
  | listening was is => exact .listening was (hphase.trans is)
  | synAnswered was is sent => exact .synAnswered was (hphase.trans is) (hsent sent)
  | established was is => exact .established was (hphase.trans is)
  | finSent ends sent => exact .finSent (hphase ▸ ends) (hsent sent)
  | finAcknowledged was is not_fin => exact .finAcknowledged was (hphase.trans is) not_fin
  | finTaken is_segment is_fin ends not_aborted sent =>
    refine .finTaken is_segment is_fin ?_ (hcommands ▸ not_aborted) (hsent sent)
    rw [hphase, hcommands]
    rcases ends with hwait | hclosing | ⟨was, is, done⟩
    · exact .inl hwait
    · exact .inr (.inl hclosing)
    · exact .inr (.inr ⟨was, is, (hdone is).trans done⟩)
  | aborted is aborts => exact .aborted (hphase.trans is) (hcommands ▸ aborts)
  | completed was is done => exact .completed was (hphase.trans is) ((hdone is).trans done)

/-- While nothing was sent, only three phases can have been reached by a change, and Closed. -/
theorem eq_of_stay (h : Progress e c₀ c.stay) (hp : c.phase ≠ .listen ∧ c.phase ≠ .established ∧
    c.phase ≠ .finWait2 ∧ c.phase ≠ .closed) : c₀.phase = c.phase := by
  cases h with
  | unchanged same => exact same.symm
  | listening _ is => exact absurd is hp.1
  | synAnswered _ _ sent => exact absurd rfl sent
  | established _ is => exact absurd is hp.2.1
  | finSent _ sent => exact absurd rfl sent
  | finAcknowledged _ is _ => exact absurd is hp.2.2.1
  | finTaken _ _ _ _ sent => exact absurd rfl sent
  | aborted is _ => exact absurd is hp.2.2.2
  | completed _ is _ => exact absurd is hp.2.2.2

theorem of_established (h : Progress e c₀ c.stay) (hp : c.phase = .established) :
    c₀.phase = .synReceived ∨ c₀.phase = .established := by
  have hp' : c.stay.connection.phase = .established := hp
  cases h <;> simp_all [stay]

theorem of_finWait2 {s : Segment} (h : Progress e c₀ c.stay) (hp : c.phase = .finWait2)
    (hs : e = .segment s) (hfin : s.isFin) : c₀.phase = .finWait2 := by
  have hp' : c.stay.connection.phase = .finWait2 := hp
  cases h <;> simp_all [stay]

theorem of_isOpening (h : Progress e c₀ o) (hp : o.connection.phase.isOpening) :
    c₀.phase.isOpening := by
  have hclash : ∀ {p : Phase}, o.connection.phase = p → p.isOpening := fun is => is ▸ hp
  cases h with
  | unchanged same => exact hclash same
  | listening was _ => exact was ▸ rfl
  | synAnswered was _ _ => exact was
  | established _ is => cases hclash is
  | finSent ends _ => rcases ends with ⟨-, is⟩ | ⟨-, is⟩ <;> cases hclash is
  | finAcknowledged _ is _ => cases hclash is
  | finTaken _ _ ends _ _ =>
    rcases ends with ⟨-, is, -⟩ | ⟨-, is⟩ | ⟨-, is, -⟩ <;> cases hclash is
  | aborted is _ => cases hclash is
  | completed _ is _ => cases hclash is

/-- Once the client's FIN was consumed, only Closed is still ahead. -/
theorem behind_clientFin (h : Progress e c₀ o)
    (hp : c₀.phase.hasClientFin ∨ c₀.phase = .closed) :
    o.connection.phase.hasClientFin ∨ o.connection.phase = .closed := by
  cases h with
  | unchanged same => exact same ▸ hp
  | listening was _ => simp [was, Phase.hasClientFin] at hp
  | synAnswered was _ _ =>
    cases hq : c₀.phase <;> simp_all [Phase.hasClientFin, Phase.isOpening]
  | established was _ => simp [was, Phase.hasClientFin] at hp
  | finSent ends _ =>
    rcases ends with ⟨was | was, -⟩ | ⟨-, is⟩
    · simp [was, Phase.hasClientFin] at hp
    · simp [was, Phase.hasClientFin] at hp
    · exact .inl (is ▸ rfl)
  | finAcknowledged was _ _ => simp [was, Phase.hasClientFin] at hp
  | finTaken _ _ ends _ _ =>
    rcases ends with ⟨-, is, -⟩ | ⟨-, is⟩ | ⟨-, is, -⟩
    · exact .inl (is ▸ rfl)
    · exact .inl (is ▸ rfl)
    · exact .inr is
  | aborted is _ => exact .inr is
  | completed _ is _ => exact .inr is

theorem of_canReceive (h : Progress e c₀ c.stay) (hp : c.phase.canReceive) :
    c₀.phase = .synReceived ∨ c₀.phase.canReceive := by
  have hclash : ∀ {p : Phase}, c.stay.connection.phase = p → p.canReceive := fun is => is ▸ hp
  cases h with
  | unchanged same => exact .inr (hclash same)
  | listening _ is => cases hclash is
  | synAnswered _ is _ => cases hclash is
  | established was _ => exact .inl was
  | finSent _ sent => exact absurd rfl sent
  | finAcknowledged was _ _ => exact .inr (was ▸ rfl)
  | finTaken _ _ _ _ sent => exact absurd rfl sent
  | aborted is _ => cases hclash is
  | completed _ is _ => cases hclash is

theorem of_canSend (h : Progress e c₀ o) (hcommands : o.commands = [])
    (hsend : o.connection.phase.canSend) :
    (c₀.phase = .synReceived ∨ c₀.phase = .established) ∧
        o.connection.phase = .established ∨
      c₀.phase = .closeWait ∧ o.connection.phase = .closeWait := by
  have hcases : o.connection.phase = .established ∨ o.connection.phase = .closeWait := by
    cases hq : o.connection.phase <;> simp_all [Phase.canSend]
  rcases hcases with hq | hq <;> cases h <;> simp_all

theorem closing (h : Progress e c₀ c.stay) (hclose : Closing e c o) : Progress e c₀ o := by
  obtain ⟨held, counters, hc⟩ := hclose.connection_eq
  have hp : o.connection.phase = .closed := by rw [hc]
  cases hclose with
  | orderly is_closing is_acknowledged =>
    have hwas := h.eq_of_stay (by simp [is_closing])
    exact .completed (.inl (hwas.trans is_closing)) rfl is_acknowledged
  | aborted => exact .aborted hp (.inl (by simp [Outcome.command]))
  | reset => exact .aborted hp (.inl (by simp [Outcome.command]))
  | @refused s _ _ =>
    refine .aborted hp (.inl ?_)
    unfold Outcome.sendResetFor
    split <;> simp [Outcome.command, Outcome.send]
  | unreachable is_unreachable => exact .aborted hp (.inr is_unreachable)
  | failed _ _ => exact .aborted hp (.inl (by simp [Outcome.command]))

/-- The acknowledgment that ends phase LastAck leaves nothing in flight. -/
theorem lastAcknowledged {c' : Connection} {s : Segment} {fin : SeqNum} (hflight : Flight c)
    (hp : c.phase = .lastAck) (hfin : c.finSeq = some fin) (hack : s.ack = fin.next)
    (happ : c.applyAck s = some c') : c'.isFinAcknowledged := by
  have hnxt : c.sndNxt = s.ack := by rw [hack, hflight.fin_next fin hfin]
  have hsome : c.finSeq.isSome := by rw [hfin]; rfl
  obtain ⟨hnot, rfl⟩ | ⟨-, -, rfl⟩ := applyAck_eq_some happ
  · have hprec : c.sndUna.precedes c.sndNxt := by
      rw [SeqNum.precedes_iff]
      have hpos := mt SeqNum.distance_eq_zero_iff.mp (hflight.lastAck hp).symm
      have hle := hflight.inFlight_lt
      show 0 < c.downlink.inFlight ∧ c.downlink.inFlight < 2 ^ 31
      change ¬ c.downlink.inFlight = 0 at hpos
      omega
    rw [hnxt, hnot] at hprec
    cases hprec
  · exact isFinAcknowledged_iff.mpr ⟨hsome, hnxt.symm⟩

theorem step (h : Progress e c₀ o) (hflight : Flight o.connection)
    (hstep : Step e now wall o o') : Progress e c₀ o' := by
  cases hstep with
  | recorded _ => exact h.same rfl rfl (fun hne => absurd rfl hne) fun _ => rfl
  | touched _ => exact h.same rfl rfl (fun hne => absurd rfl hne) fun _ => rfl
  | relayDone _ => exact h.same rfl rfl (fun hne => absurd rfl hne) fun _ => rfl
  | listened _ is_held _ =>
    exact .listening ((h.eq_of_stay (by simp [is_held])).trans is_held) rfl
  | @heldSynAccepted c s _ is_held _ _ =>
    have hopen : c.phase.isOpening := is_held ▸ rfl
    exact .synAnswered (h.of_isOpening hopen) rfl (List.cons_ne_nil _ _)
  | @synAccepted c s _ is_opening _ =>
    have hopen : c.phase.isOpening := by rcases is_opening with hp | hp <;> exact hp ▸ rfl
    exact .synAnswered (h.of_isOpening hopen) rfl (List.cons_ne_nil _ _)
  | synAckRepeated _ _ _ => exact h.same rfl rfl (fun hne => absurd rfl hne) fun _ => rfl
  | synAckResent _ _ => exact h.same rfl rfl (fun hne => absurd rfl hne) fun _ => rfl
  | @ackRefused c s _ _ =>
    obtain ⟨counters, hc⟩ := sendResetFor_connection c.stay s
    have hcommands : (c.stay.sendResetFor s).commands = [] := by
      unfold Outcome.sendResetFor
      split <;> rfl
    exact h.same (by rw [hc]) hcommands (fun hne => absurd rfl hne) fun _ => by rw [hc]; rfl
  | @established c s _ is_opening _ _ _ =>
    exact .established ((h.eq_of_stay (by simp [is_opening])).trans is_opening) rfl
  | acknowledged _ _ is_synchronized _ applied =>
    refine h.same (applyAck_phase applied) rfl (fun hne => absurd rfl hne) fun hp => ?_
    exact absurd hp (Phase.ne_closed_of_isSynchronized is_synchronized)
  | @lastAcknowledged c c' s fin _ is_lastAck is_fin is_ack applied =>
    have hflight : Flight c := hflight
    have hdone : c'.isFinAcknowledged :=
      lastAcknowledged hflight is_lastAck is_fin is_ack applied
    exact .completed (.inr ((h.eq_of_stay (by simp [is_lastAck])).trans is_lastAck)) rfl hdone
  | received _ _ not_empty accepted =>
    obtain ⟨-, -, rfl⟩ := acceptPayload_eq_some accepted not_empty
    exact h.same rfl rfl (fun hne => absurd rfl hne) fun _ => rfl
  | finReceived is_segment is_fin is_established =>
    exact .finTaken is_segment is_fin
      (.inl ⟨h.of_established is_established, rfl, List.cons_ne_nil _ _⟩) (by
        simp [Outcome.command, Outcome.sendAck, Outcome.send, enter]) (List.cons_ne_nil _ _)
  | @lastFinReceived c s p is_segment is_fin ends =>
    refine .finTaken is_segment is_fin ?_ (by simp [Outcome.sendAck, Outcome.send, enter])
      (List.cons_ne_nil _ _)
    rcases ends with ⟨hp, rfl⟩ | ⟨hp, rfl⟩
    · exact .inr (.inl ⟨(h.eq_of_stay (by simp [hp])).trans hp, rfl⟩)
    · have hflight : Flight c := hflight
      have hsome := hflight.fin_phase (by simp [hp])
      rw [hp] at hsome
      exact .inr (.inr ⟨h.of_finWait2 hp is_segment is_fin, rfl,
        isFinAcknowledged_iff.mpr ⟨hsome, hflight.finWait2 hp⟩⟩)
  | @finAcknowledged c s is_segment not_fin is_waiting _ =>
    have hwas := (h.eq_of_stay (by simp [is_waiting])).trans is_waiting
    refine .finAcknowledged hwas rfl fun s' hs' => ?_
    cases is_segment.symm.trans hs'
    exact not_fin
  | answered _ => exact h.same rfl rfl (fun hne => absurd rfl hne) fun _ => rfl
  | @dataSent c can_send _ =>
    refine h.same rfl rfl (fun hne => absurd rfl hne) fun hp => ?_
    rw [show c.phase = .closed from hp] at can_send
    cases can_send
  | resent _ _ _ _ => exact h.same rfl rfl (fun hne => absurd rfl hne) fun _ => rfl
  | finRepeated _ _ => exact h.same rfl rfl (fun hne => absurd rfl hne) fun _ => rfl
  | finSent no_command can_send is_ready =>
    rw [sendFinIfReady_eq now can_send is_ready]
    refine .finSent ?_ (by simp)
    rcases h.of_canSend no_command can_send with ⟨hwas, hp⟩ | ⟨hwas, hp⟩
    · exact .inl ⟨hwas, by simp [afterFin, hp, Phase.afterOurFin]⟩
    · exact .inr ⟨hwas, by simp [afterFin, hp, Phase.afterOurFin]⟩
  | closed closes => exact h.closing closes
  | @settled o =>
    obtain ⟨advertised, hc⟩ := settle_connection o
    exact h.same (by rw [hc]) rfl id fun _ => by rw [hc]; rfl

end Progress

/-- Every event leads along one of the edges. -/
theorem process_progress {c : Connection} (h : Flight c) (e : Event) (now wall : Nat) :
    Progress e c (c.process e now wall) := by
  refine (event_induction (P := fun o => Flight o.connection ∧ Progress e c o)
    ⟨h, .unchanged rfl⟩ ?_).2
  rintro o o' ⟨hflight, hp⟩ hstep
  exact ⟨hflight.step hstep, hp.step hflight hstep⟩

/-! ## The client's FIN -/

section ClientFin

variable {e : Event} {now wall : Nat} {c₀ : Connection} {o : Outcome}

/-- A stage takes the client's FIN exactly if it leads along one of the edges for it. -/
theorem takesFin_iff (h : Progress e c₀ o) :
    Stage.takesFin ⟨c₀, .event e now wall, o⟩ ↔ (∃ s, e = .segment s ∧ s.isFin) ∧
      o.segments ≠ [] ∧ .abortRelay ∉ o.commands ∧
      ((c₀.phase = .synReceived ∨ c₀.phase = .established) ∧ o.connection.phase = .closeWait ∨
        c₀.phase = .finWait1 ∧ o.connection.phase = .closing ∨
        c₀.phase = .finWait2 ∧ o.connection.phase = .closed) := by
  unfold Stage.takesFin Stage.after
  cases h with
  | unchanged same => cases hp : c₀.phase <;> cases e <;> simp_all
  | listening was is => cases e <;> simp [was, is]
  | synAnswered was is _ => cases e <;> simp [is]
  | established was is => cases e <;> simp [was, is]
  | finSent ends _ =>
    rcases ends with ⟨hwas | hwas, is⟩ | ⟨hwas, is⟩ <;> cases e <;> simp [hwas, is]
  | finAcknowledged was is _ => cases e <;> simp [was, is]
  | finTaken is_segment is_fin ends not_aborted sent =>
    subst is_segment
    rcases ends with ⟨hwas | hwas, is, -⟩ | ⟨hwas, is⟩ | ⟨hwas, is, -⟩ <;>
      simp [hwas, is, is_fin, not_aborted, sent]
  | aborted is aborts =>
    rcases aborts with habort | rfl
    · cases e <;> cases hp : c₀.phase <;> simp [is, habort]
    · simp
  | completed was is _ => rcases was with hwas | hwas <;> cases e <;> simp [hwas, is]

/-- Behind the client's FIN an event was there already, or takes the FIN. -/
theorem hasClientFin_or (h : Progress e c₀ o) (hp : o.connection.phase.hasClientFin) :
    c₀.phase.hasClientFin ∨ Stage.takesFin ⟨c₀, .event e now wall, o⟩ := by
  have hclash : ∀ {p : Phase}, o.connection.phase = p → p.hasClientFin := fun is => is ▸ hp
  rw [takesFin_iff h]
  cases h with
  | unchanged same => exact .inl (hclash same)
  | listening _ is => cases hclash is
  | synAnswered _ is _ => cases hclash is
  | established _ is => cases hclash is
  | finSent ends _ =>
    rcases ends with ⟨-, is⟩ | ⟨was, -⟩
    · cases hclash is
    · exact .inl (was ▸ rfl)
  | finAcknowledged _ is _ => cases hclash is
  | finTaken is_segment is_fin ends not_aborted sent =>
    refine .inr ⟨⟨_, is_segment, is_fin⟩, sent, not_aborted, ?_⟩
    rcases ends with ⟨was, is, -⟩ | hclosing | ⟨was, is, -⟩
    · exact .inl ⟨was, is⟩
    · exact .inr (.inl hclosing)
    · exact .inr (.inr ⟨was, is⟩)
  | aborted is _ => cases hclash is
  | completed _ is _ => cases hclash is

/-- An event that closes in order has our FIN acknowledged, and finds or takes the client's. -/
theorem closes_in_order (now wall : Nat) (h : Progress e c₀ o) (hopen : c₀.phase ≠ .closed)
    (hclosed : o.connection.phase = .closed) (habort : .abortRelay ∉ o.commands)
    (hreached : e ≠ .relayUnreachable) :
    o.connection.isFinAcknowledged ∧ (c₀.phase = .closing ∨ c₀.phase = .lastAck ∨
      c₀.phase = .finWait2 ∧ Stage.takesFin ⟨c₀, .event e now wall, o⟩) := by
  rw [takesFin_iff h]
  cases h with
  | unchanged same => exact absurd (same.symm.trans hclosed) hopen
  | listening _ is => cases is.symm.trans hclosed
  | synAnswered _ is _ => cases is.symm.trans hclosed
  | established _ is => cases is.symm.trans hclosed
  | finSent ends _ => rcases ends with ⟨-, is⟩ | ⟨-, is⟩ <;> cases is.symm.trans hclosed
  | finAcknowledged _ is _ => cases is.symm.trans hclosed
  | finTaken is_segment is_fin ends not_aborted sent =>
    rcases ends with ⟨-, is, -⟩ | ⟨-, is⟩ | ⟨was, is, done⟩
    · cases is.symm.trans hclosed
    · cases is.symm.trans hclosed
    · exact ⟨done, .inr (.inr ⟨was, ⟨_, is_segment, is_fin⟩, sent, not_aborted,
        .inr (.inr ⟨was, is⟩)⟩)⟩
  | aborted _ aborts => exact absurd aborts (not_or.mpr ⟨habort, hreached⟩)
  | completed was _ done => exact ⟨done, was.imp_right .inl⟩

end ClientFin

end Connection

end TcpGateway
