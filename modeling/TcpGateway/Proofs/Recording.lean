import TcpGateway.Proofs.Step

/-!
# Handling a segment counts no segment

A segment is counted before it is handled, under the phase that it finds.  That it is counted there
once and nowhere else is no invariant of the elementary steps, which only say that a step may count
it.  It is shown for the handlers one by one: none of them writes the counts of the phases
(`onSegment_inPhase`), whatever else they count.
-/

namespace TcpGateway

namespace Connection

section Recording

variable {now wall : Nat} {c c' : Connection} {s p : Segment} {o : Outcome}

/-! ## The parts of a handler -/

theorem sendData_counters (h : c.sendData now = some (c', p)) :
    ∃ sent, c'.counters = { c.counters with bytesToClients := sent } := by
  rw [sendData_eq] at h
  split at h <;> cases h
  exact ⟨_, rfl⟩

theorem sendFinIfReady_counters (o : Outcome) (now : Nat) :
    (o.sendFinIfReady now).connection.counters = o.connection.counters := by
  unfold Outcome.sendFinIfReady
  split
  · simp only
    split <;> rfl
  · rfl

theorem sendPending_counters (c : Connection) (now : Nat) :
    ∃ sent,
      (c.sendPending now).connection.counters = { c.counters with bytesToClients := sent } := by
  rw [sendPending, sendFinIfReady_counters, Outcome.sendData]
  split
  · exact ⟨_, rfl⟩
  · rename_i c' data h
    exact sendData_counters (c := c) h

theorem sendResetFor_inPhase (o : Outcome) (s : Segment) :
    (o.sendResetFor s).connection.counters.inPhase = o.connection.counters.inPhase := by
  unfold Outcome.sendResetFor
  split <;> rfl

theorem screen_inPhase (h : c.screen s = some o) :
    o.connection.counters.inPhase = c.counters.inPhase := by
  unfold screen at h
  split at h
  · split at h <;> cases h <;> rfl
  · split at h
    · cases h
      rfl
    · split at h
      · cases h
        rfl
      · split at h <;> cases h
        rfl

theorem applyAck_inPhase (h : c.applyAck s = some c') :
    c'.counters.inPhase = c.counters.inPhase := by
  obtain ⟨-, rfl⟩ | ⟨-, -, rfl⟩ := applyAck_eq_some h <;> rfl

theorem acceptPayload_inPhase (h : c.acceptPayload s = some c') :
    c'.counters.inPhase = c.counters.inPhase := by
  by_cases hne : s.payload = []
  · cases (acceptPayload_nil hne).symm.trans h
    rfl
  · obtain ⟨-, -, rfl⟩ := acceptPayload_eq_some h hne
    rfl

/-! ## The handlers -/

theorem onListen_inPhase :
    (c.onListen s now wall).connection.counters.inPhase = c.counters.inPhase := by
  unfold onListen
  split
  · rfl
  · split
    · exact sendResetFor_inPhase _ s
    · rfl

theorem onEstablished_inPhase :
    (c.onEstablished s now).connection.counters.inPhase = c.counters.inPhase := by
  unfold onEstablished
  split
  · exact screen_inPhase (by assumption)
  · split
    · rfl
    · rename_i c₁ hack
      split
      · exact applyAck_inPhase hack
      · rename_i c₂ hpay
        have hsame : c₂.counters.inPhase = c.counters.inPhase :=
          (acceptPayload_inPhase hpay).trans (applyAck_inPhase hack)
        split
        · exact hsame
        · split
          · rename_i hdata
            obtain ⟨sent, hcounters⟩ := sendData_counters hdata
            rw [sendFinIfReady_counters, Outcome.send, stay, hcounters]
            exact hsame
          · rw [sendFinIfReady_counters]
            split <;> exact hsame

theorem onCloseWait_inPhase :
    (c.onCloseWait s now).connection.counters.inPhase = c.counters.inPhase := by
  unfold onCloseWait
  split
  · exact screen_inPhase (by assumption)
  · split
    · rfl
    · rename_i hack
      split
      · obtain ⟨sent, hcounters⟩ := sendPending_counters _ now
        rw [hcounters]
        exact applyAck_inPhase hack
      · exact applyAck_inPhase hack

theorem onFinWait_inPhase {afterFin : Phase} {next : Connection → Phase} :
    (c.onFinWait s afterFin next).connection.counters.inPhase = c.counters.inPhase := by
  unfold onFinWait
  split
  · exact screen_inPhase (by assumption)
  · split
    · rfl
    · rename_i c₁ hack
      have hsame : ((c₁.acceptPayload s).getD c₁).counters.inPhase = c.counters.inPhase := by
        cases hpay : c₁.acceptPayload s with
        | none => exact applyAck_inPhase hack
        | some c₂ => exact (acceptPayload_inPhase hpay).trans (applyAck_inPhase hack)
      simp only
      split
      · exact hsame
      · split <;> exact hsame

theorem onClosing_inPhase :
    (c.onClosing s).connection.counters.inPhase = c.counters.inPhase := by
  unfold onClosing
  split
  · exact screen_inPhase (by assumption)
  · split
    · rfl
    · rename_i hack
      have hsame := applyAck_inPhase hack
      split <;> exact hsame

theorem onLastAck_inPhase :
    (c.onLastAck s).connection.counters.inPhase = c.counters.inPhase := by
  unfold onLastAck
  split
  · exact screen_inPhase (by assumption)
  · rfl
  · split
    · rfl
    · rename_i hack
      have hsame := applyAck_inPhase hack
      split <;> exact hsame

theorem onSynReceived_inPhase :
    (c.onSynReceived s now wall).connection.counters.inPhase = c.counters.inPhase := by
  unfold onSynReceived
  split
  · split <;> rfl
  · split
    · rfl
    · split
      · rfl
      · split
        · rfl
        · split
          · exact sendResetFor_inPhase _ s
          · exact onEstablished_inPhase

theorem onSegment_inPhase :
    (c.onSegment s now wall).connection.counters.inPhase = c.counters.inPhase := by
  unfold onSegment
  split
  · rfl
  · exact onListen_inPhase
  · exact onSynReceived_inPhase
  · exact onEstablished_inPhase
  · exact onFinWait_inPhase
  · exact onFinWait_inPhase
  · exact onCloseWait_inPhase
  · exact onClosing_inPhase
  · exact onLastAck_inPhase
  · rfl

/-- A segment is counted once, under the phase that it finds. -/
theorem process_segment_inPhase :
    (c.process (.segment s) now wall).connection.counters.inPhase =
      (c.counters.record c.phase).inPhase := by
  obtain ⟨advertised, hc⟩ := settle_connection (c.dispatch (.segment s) now wall)
  rw [process, hc]
  exact onSegment_inPhase

end Recording

end Connection

end TcpGateway
