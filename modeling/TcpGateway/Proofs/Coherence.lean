import TcpGateway.Proofs.Finish
import TcpGateway.Proofs.Intake

/-!
# The phase tells what was sent and received

The phases of a connection are reached along the edges of the state diagram only
(`Phase.successors`), and each of them says which of the two FINs there was: ours, which the
connection remembers by its number, and the client's, which is counted in RCV.NXT.

Two facts are not visible at a single step.  A connection never listens after it has held a SYN,
because it holds one in phase Held; and phase FinWait1 is left as soon as our FIN is acknowledged,
because the handler that applies the acknowledgment looks at it before the event ends.
-/

namespace TcpGateway

namespace Phase

/-- The phases that one event can lead to. -/
def successors : Phase → List Phase
  | held => [held, synReceived, closed]
  | listen => [listen, synReceived, closed]
  | synReceived => [synReceived, established, finWait1, closeWait, closed]
  | established => [established, finWait1, closeWait, closed]
  | finWait1 => [finWait1, finWait2, closing, closed]
  | finWait2 => [finWait2, closed]
  | closeWait => [closeWait, lastAck, closed]
  | closing => [closing, closed]
  | lastAck => [lastAck, closed]
  | closed => [closed]

theorem mem_successors_self (p : Phase) : p ∈ p.successors := by cases p <;> decide

theorem closed_mem_successors (p : Phase) : closed ∈ p.successors := by cases p <;> decide

end Phase

namespace Connection

/-! ## The held SYN -/

/-- In phase Held there is a SYN, and so no event leads from there to Listen. -/
theorem process_held {c : Connection} (h : c.phase = .held → c.heldSyn.isSome) (e : Event)
    (now wall : Nat) :
    let c' := (c.process e now wall).connection
    (c'.phase = .held → c'.heldSyn.isSome) ∧ (c'.phase = .listen → c.phase = .listen) := by
  refine event_induction (P := fun o =>
    (o.connection.phase = .held → o.connection.heldSyn.isSome) ∧
      (o.connection.phase = .listen → c.phase = .listen)) ⟨h, id⟩ ?_
  rintro o o' ⟨hheld, hlisten⟩ hstep
  refine ⟨fun hp => ?_, fun hp => ?_⟩
  · obtain ⟨hwas, hsame⟩ := hstep.of_held hp
    rw [hsame]
    exact hheld hwas
  · rcases hstep.of_isWaiting (hp ▸ rfl) with ⟨hphase, -⟩ | ⟨hwas, hnone, -⟩
    · exact hlisten (hphase.symm.trans hp)
    · have hsome := hheld hwas
      rw [hnone] at hsome
      cases hsome

/-! ## Phase FinWait1 -/

/-- Our FIN is not acknowledged. -/
def Awaits (c : Connection) : Prop := c.phase = .finWait1 → c.sndUna ≠ c.sndNxt

theorem Awaits.of_ne {c : Connection} (h : c.phase ≠ .finWait1) : Awaits c := fun hp => absurd hp h

/-- What the screen stops is left as it was, or closed. -/
theorem screen_connection {c : Connection} {s : Segment} {o : Outcome} (h : c.screen s = some o) :
    o.connection = c ∨ o.connection.phase = .closed := by
  unfold screen at h
  split at h
  · split at h <;> cases h
    · exact .inr rfl
    · exact .inl rfl
  · split at h
    · cases h
      exact .inl rfl
    · split at h
      · cases h
        exact .inr rfl
      · split at h <;> cases h
        exact .inl rfl

/-- An acknowledgment of our FIN leads out of phase FinWait1. -/
theorem onFinWait1_awaits {c : Connection} {s : Segment} (hflight : Flight c)
    (hp : c.phase = .finWait1) (h : Awaits c) : Awaits (c.onFinWait1 s).connection := by
  unfold onFinWait1 onFinWait
  split
  · rename_i o hscreen
    rcases screen_connection hscreen with hsame | hclosed
    · exact hsame ▸ h
    · exact .of_ne (by simp [hclosed])
  · split
    · exact h
    · rename_i c₁ hack
      obtain ⟨c₂, hc₂⟩ : ∃ c₂, c₂ = (c₁.acceptPayload s).getD c₁ := ⟨_, rfl⟩
      have hfin : c₂.finSeq.isSome := by
        have hsome := hflight.fin_phase (by simp [hp])
        rw [hp, ← applyAck_finSeq hack] at hsome
        rw [hc₂]
        cases hpay : c₁.acceptPayload s with
        | none => exact hsome
        | some c' =>
          by_cases hne : s.payload = []
          · cases (acceptPayload_nil hne).symm.trans hpay
            exact hsome
          · obtain ⟨-, -, rfl⟩ := acceptPayload_eq_some hpay hne
            exact hsome
      have hnext : Awaits (c₂.enter
          (if c₂.isFinAcknowledged then .finWait2 else c₂.phase)).connection := by
        by_cases hdone : c₂.isFinAcknowledged
        · rw [if_pos hdone]
          exact .of_ne (by simp [enter])
        · exact fun _ huna => hdone (isFinAcknowledged_iff.mpr ⟨hfin, huna⟩)
      simp only [← hc₂]
      split
      · exact .of_ne (by simp [Outcome.sendAck, Outcome.send, enter])
      · split <;> exact hnext

/-- Outside of a segment in phase FinWait1 nothing acknowledges our FIN there. -/
theorem Awaits.step {e : Event} {now wall : Nat} {o o' : Outcome} (h : Awaits o.connection)
    (hflight : Flight o.connection)
    (hnot : ∀ (c : Connection) s, o = c.stay → e = .segment s → c.phase ≠ .finWait1)
    (hstep : Step e now wall o o') : Awaits o'.connection := by
  cases hstep with
  | @ackRefused c s _ _ =>
    obtain ⟨counters, hc⟩ := sendResetFor_connection c.stay s
    rw [hc]
    exact h
  | @acknowledged c c' s is_segment _ _ _ applied =>
    refine .of_ne ?_
    show c'.phase ≠ .finWait1
    rw [applyAck_phase applied]
    exact hnot _ _ rfl is_segment
  | received _ _ not_empty accepted =>
    obtain ⟨-, -, rfl⟩ := acceptPayload_eq_some accepted not_empty
    exact h
  | @lastFinReceived c s p _ _ ends =>
    refine .of_ne ?_
    show p ≠ .finWait1
    rcases ends with ⟨-, rfl⟩ | ⟨-, rfl⟩ <;> simp
  | finSent _ can_send is_ready =>
    rw [sendFinIfReady_eq now can_send is_ready]
    exact fun _ => hflight.sndUna_ne_afterFin now
  | closed closes =>
    obtain ⟨held, counters, hc⟩ := closes.connection_eq
    rw [hc]
    exact .of_ne (by simp)
  | settled =>
    obtain ⟨advertised, hc⟩ := settle_connection o
    rw [hc]
    exact h
  | @dataSent c can_send _ =>
    refine .of_ne fun hp => ?_
    rw [show c.phase = .finWait1 from hp] at can_send
    cases can_send
  | recorded _ => exact h
  | touched _ => exact h
  | relayDone _ => exact h
  | synAckRepeated _ _ _ => exact h
  | synAckResent _ _ => exact h
  | answered _ => exact h
  | resent _ _ _ _ => exact h
  | finRepeated _ _ => exact h
  | _ => exact .of_ne (by simp [stay, enter, acceptSyn, Outcome.send, Outcome.sendAck,
      Outcome.command])

theorem Awaits.process {c : Connection} (h : Awaits c) (hflight : Flight c) (e : Event)
    (now wall : Nat) : Awaits (c.process e now wall).connection := by
  by_cases hack : c.phase = .finWait1 ∧ ∃ s, e = .segment s
  · obtain ⟨hp, s, rfl⟩ := hack
    obtain ⟨c₁, hc₁⟩ : ∃ c₁ : Connection,
      c₁ = { c with counters := c.counters.record c.phase, lastUsed := now } := ⟨_, rfl⟩
    have hflight₁ : Flight c₁ := hc₁ ▸ { hflight with }
    have hp₁ : c₁.phase = .finWait1 := hc₁ ▸ hp
    have h₁ : Awaits c₁ := hc₁ ▸ h
    have hdispatch : c.dispatch (.segment s) now wall = c₁.onFinWait1 s := by
      rw [dispatch, ← hc₁, onSegment, hp₁]
    obtain ⟨advertised, hsettle⟩ := settle_connection (c₁.onFinWait1 s)
    have hawaits := onFinWait1_awaits (s := s) hflight₁ hp₁ h₁
    rw [Connection.process, hdispatch, hsettle]
    exact hawaits
  · refine (event_induction (P := fun o => Flight o.connection ∧ Progress e c o ∧
      Awaits o.connection) ⟨hflight, .unchanged rfl, h⟩ ?_).2.2
    rintro o o' ⟨hflight, hprogress, ha⟩ hstep
    refine ⟨hflight.step hstep, hprogress.step hflight hstep, ha.step hflight ?_ hstep⟩
    rintro c' s rfl hs hp
    exact hack ⟨(hprogress.eq_of_stay (by simp [hp])).trans hp, s, hs⟩

/-! ## Every run -/

theorem Progress.mem_successors {e : Event} {c₀ : Connection} {o : Outcome}
    (h : Progress e c₀ o) (hlisten : o.connection.phase = .listen → c₀.phase = .listen) :
    o.connection.phase ∈ c₀.phase.successors := by
  cases h with
  | unchanged same =>
    rw [same]
    exact Phase.mem_successors_self _
  | listening was is => cases was.symm.trans (hlisten is)
  | synAnswered was is _ =>
    rw [is]
    cases hq : c₀.phase <;> simp_all [Phase.isOpening, Phase.successors]
  | established was is => simp [was, is, Phase.successors]
  | finSent ends _ =>
    rcases ends with ⟨was | was, is⟩ | ⟨was, is⟩ <;> simp [was, is, Phase.successors]
  | finAcknowledged was is _ => simp [was, is, Phase.successors]
  | finTaken _ _ ends _ _ =>
    rcases ends with ⟨was | was, is, -⟩ | ⟨was, is⟩ | ⟨was, is, -⟩ <;>
      simp [was, is, Phase.successors]
  | aborted is _ =>
    rw [is]
    exact Phase.closed_mem_successors _
  | completed _ is _ =>
    rw [is]
    exact Phase.closed_mem_successors _

/-- What the phase of `c` says about the run `h` behind which it stands. -/
structure Coherent (h : History) (c : Connection) : Prop where
  held_syn : c.phase = .held → c.heldSyn.isSome
  /-- Our FIN was sent exactly if its number is remembered. -/
  fin_sent : h.fins ≠ [] ↔ c.finSeq.isSome
  no_fin : c.phase ∈ [.held, .listen, .synReceived, .established, .closeWait] → c.finSeq = none
  /-- Behind our FIN it has the last number sent, and the relay had closed. -/
  fin : c.phase ∈ [.finWait1, .finWait2, .closing, .lastAck] →
    ∃ fin, c.finSeq = some fin ∧ c.sndNxt = fin.next ∧ ∃ st ∈ h, st.isRelayClosed
  clientFin : c.phase ∈ [.closeWait, .closing, .lastAck] → h.finsTaken = 1
  no_clientFin : c.phase ∈ [.held, .listen, .synReceived, .established, .finWait1, .finWait2] →
    h.finsTaken = 0
  unacknowledged : c.phase = .finWait1 ∨ c.phase = .lastAck → c.sndUna ≠ c.sndNxt
  acknowledged : c.phase = .finWait2 → c.sndUna = c.sndNxt
  opening : c.phase.isOpening → c.sndUna = c.sndNxt

/-- The two facts about the phase that the steps do not show. -/
structure Settled (c : Connection) : Prop where
  held_syn : c.phase = .held → c.heldSyn.isSome
  awaits : Awaits c

theorem Settled.apply {c : Connection} (m : Move) (h : Settled c) (hflight : Flight c) :
    Settled (c.apply m).connection := by
  rcases c.event_or_bufferMove m with ⟨e, now, wall, rfl⟩ | hmove
  · exact ⟨(process_held h.held_syn e now wall).1, h.awaits.process hflight e now wall⟩
  · obtain ⟨down, up, hc⟩ := hmove.connection_eq
    rw [hc]
    exact ⟨h.held_syn, h.awaits⟩

theorem settled_run (flow : Flow) (held : Option Segment) (options : ConnectionOptions)
    (t₀ : Nat) (moves : List Move) :
    let c := (begin flow held options t₀).run moves
    Flight c ∧ Settled c := by
  have hstart : Settled (begin flow held options t₀) := by
    cases held with
    | none => exact ⟨by rintro ⟨⟩, .of_ne (by simp [begin, listening, start])⟩
    | some s => exact ⟨fun _ => rfl, .of_ne (by simp [begin, ofSyn, start])⟩
  exact run_induction (P := fun _ c => Flight c ∧ Settled c)
    ⟨.begin flow held options t₀, hstart⟩
    (fun _ _ m ⟨hflight, hs⟩ => ⟨hflight.apply m, hs.apply m hflight⟩) moves

/-- Every move leads along an edge of the state diagram. -/
theorem apply_mem_successors {c : Connection} (m : Move) (hflight : Flight c) (hs : Settled c) :
    (c.apply m).connection.phase ∈ c.phase.successors := by
  rcases c.event_or_bufferMove m with ⟨e, now, wall, rfl⟩ | hmove
  · exact (process_progress hflight e now wall).mem_successors
      (process_held hs.held_syn e now wall).2
  · obtain ⟨down, up, hc⟩ := hmove.connection_eq
    rw [hc]
    exact Phase.mem_successors_self _

theorem Settled.coherent {h : History} {c : Connection} (hs : Settled c) (hflight : Flight c)
    (hf : Finished h c) (hr : Received h c) : Coherent h c where
  held_syn := hs.held_syn
  fin_sent := by
    refine ⟨fun hne => ?_, hf.sent⟩
    obtain ⟨p, hp⟩ := List.exists_mem_of_ne_nil _ hne
    rw [(hf.same p hp).2]
    rfl
  no_fin := by
    intro hp
    have hphase : c.phase ≠ .closed ∧ c.phase.isBehindFin = false := by
      cases hq : c.phase <;> simp_all [Phase.isBehindFin]
    exact hflight.finSeq_eq_none hphase.1 hphase.2
  fin := by
    intro hp
    have hphase : c.phase ≠ .closed ∧ c.phase.isBehindFin := by
      cases hq : c.phase <;> simp_all [Phase.isBehindFin]
    have hsome : c.finSeq.isSome := (hflight.fin_phase hphase.1).trans hphase.2
    obtain ⟨fin, hfin⟩ := Option.isSome_iff_exists.mp hsome
    exact ⟨fin, hfin, hflight.fin_next fin hfin, hf.relay (hflight.relay_done hsome)⟩
  clientFin := by
    intro hp
    have hphase : c.phase.hasClientFin := by
      cases hq : c.phase <;> simp_all [Phase.hasClientFin]
    exact Nat.le_antisymm hr.fin_once (List.countP_pos_iff.mpr (hf.clientFin hphase))
  no_clientFin := by
    intro hp
    by_contra hne
    have hbehind := hr.behind_fin hne
    cases hq : c.phase <;> simp_all [Phase.hasClientFin]
  unacknowledged := fun hp => hp.elim hs.awaits hflight.lastAck
  acknowledged := hflight.finWait2
  opening := hflight.opening

/-- The state of a connection is coherent after every run, and every move from there leads along an
edge of the state diagram. -/
theorem coherent_run (flow : Flow) (held : Option Segment) (options : ConnectionOptions)
    (t₀ : Nat) (moves : List Move) :
    let c₀ := begin flow held options t₀
    Coherent (c₀.history moves) (c₀.run moves) ∧
      ∀ m, ((c₀.run moves).apply m).connection.phase ∈ (c₀.run moves).phase.successors := by
  intro c₀
  obtain ⟨hflight, hs⟩ := settled_run flow held options t₀ moves
  obtain ⟨-, -, hf⟩ := finished_run flow held options t₀ moves
  obtain ⟨-, hr⟩ := received_run flow held options t₀ moves
  exact ⟨hs.coherent hflight hf hr, fun m => apply_mem_successors m hflight hs⟩

end Connection

end TcpGateway
