import TcpGateway.Proofs.Step

/-!
# Every change of RCV.NXT is acknowledged

A step that takes payload sends nothing, so that the change is acknowledged before the event ends
is no invariant of the steps.  It is shown for the handlers one by one: those that do not touch the
uplink have nothing to acknowledge (`Acknowledges.of_uplink`), and the few that do end with a
SYN-ACK, with data or with a bare acknowledgment.
-/

namespace TcpGateway

namespace Connection

/-- RCV.NXT is that of `c`, or a segment acknowledges the new one. -/
def Acknowledges (c : Connection) (o : Outcome) : Prop :=
  o.connection.rcvNxt = c.rcvNxt ∨ ∃ p ∈ o.segments, p.isAck ∧ p.ack = o.connection.rcvNxt

section Acknowledging

variable {now wall : Nat} {c c' : Connection} {s : Segment} {o : Outcome}

theorem Acknowledges.of_uplink (h : o.connection.uplink = c.uplink) : Acknowledges c o :=
  .inl (congrArg Uplink.nxt h)

theorem Acknowledges.sendAck (c : Connection) (o : Outcome) : Acknowledges c o.sendAck := by
  have hack : o.connection.ackSegment.isAck := by
    show Flags.ack.has .ack
    decide
  exact .inr ⟨_, List.mem_append_right _ List.mem_cons_self, hack, rfl⟩

theorem sendFinIfReady_keeps (o : Outcome) (now : Nat) :
    (o.sendFinIfReady now).connection.uplink = o.connection.uplink ∧
      o.segments ⊆ (o.sendFinIfReady now).segments := by
  unfold Outcome.sendFinIfReady
  split
  · simp only
    split <;> exact ⟨rfl, List.subset_append_left _ _⟩
  · exact ⟨rfl, List.Subset.refl _⟩

theorem Acknowledges.sendFinIfReady (h : Acknowledges c o) :
    Acknowledges c (o.sendFinIfReady now) := by
  obtain ⟨huplink, hsegments⟩ := sendFinIfReady_keeps o now
  have hnext : (o.sendFinIfReady now).connection.rcvNxt = o.connection.rcvNxt :=
    congrArg Uplink.nxt huplink
  rw [Acknowledges, hnext]
  exact h.imp_right fun ⟨p, hp, hack⟩ => ⟨p, hsegments hp, hack⟩

/-- Data acknowledges what was taken. -/
theorem Acknowledges.sendData {data : Segment} (h : c'.sendData now = some (c, data))
    (c₀ : Connection) : Acknowledges c₀ (c.stay.send data) := by
  rw [sendData_eq] at h
  split at h
  · cases h
  · cases h
    have hack : (Flags.ack ||| Flags.psh).has .ack := by decide
    exact .inr ⟨_, List.mem_cons_self, hack, rfl⟩

theorem sendPending_uplink : (c.sendPending now).connection.uplink = c.uplink := by
  rw [sendPending, (sendFinIfReady_keeps _ now).1, Outcome.sendData]
  split
  · rfl
  · rename_i c' data h
    change c.sendData now = some (c', data) at h
    rw [sendData_eq] at h
    split at h <;> cases h
    rfl

theorem screen_uplink (h : c.screen s = some o) : o.connection.uplink = c.uplink := by
  unfold screen at h
  split at h
  · split at h <;> cases h <;> rfl
  · split at h
    · cases h
      rfl
    · split at h
      · cases h
        rfl
      · split at h <;> cases h
        rfl

theorem applyAck_uplink (h : c.applyAck s = some c') : c'.uplink = c.uplink := by
  obtain ⟨-, rfl⟩ | ⟨-, -, rfl⟩ := applyAck_eq_some h <;> rfl

theorem acceptSyn_acknowledges (c₀ : Connection) :
    Acknowledges c₀ (c.acceptSyn s now wall) := by
  have hack : (Flags.syn ||| Flags.ack).has .ack := by decide
  exact .inr ⟨_, List.mem_cons_self, hack, rfl⟩

theorem onEstablished_acknowledges : Acknowledges c (c.onEstablished s now) := by
  unfold onEstablished
  split
  · exact .of_uplink (screen_uplink (by assumption))
  · split
    · exact .of_uplink rfl
    · rename_i c₁ hack
      split
      · exact .of_uplink (applyAck_uplink hack)
      · rename_i c₂ hpay
        split
        · exact .sendAck c (c₂.acceptFin.enter .closeWait)
        · split
          · rename_i hdata
            exact (Acknowledges.sendData hdata c).sendFinIfReady
          · refine Acknowledges.sendFinIfReady ?_
            split
            · rename_i hnil
              rw [List.isEmpty_iff] at hnil
              cases (acceptPayload_nil hnil).symm.trans hpay
              exact .of_uplink (applyAck_uplink hack)
            · exact .sendAck c c₂.stay

theorem onCloseWait_acknowledges : Acknowledges c (c.onCloseWait s now) := by
  refine .of_uplink ?_
  unfold onCloseWait
  split
  · exact screen_uplink (by assumption)
  · split
    · rfl
    · rename_i hack
      split
      · exact sendPending_uplink.trans (applyAck_uplink hack)
      · exact applyAck_uplink hack

theorem onFinWait_acknowledges {afterFin : Phase} {next : Connection → Phase} :
    Acknowledges c (c.onFinWait s afterFin next) := by
  unfold onFinWait
  split
  · exact .of_uplink (screen_uplink (by assumption))
  · split
    · exact .of_uplink rfl
    · rename_i c₁ hack
      simp only
      split
      · exact .sendAck c _
      · split
        · rename_i hnil
          rw [List.isEmpty_iff] at hnil
          have huplink := applyAck_uplink hack
          rw [acceptPayload_nil hnil]
          exact .of_uplink huplink
        · exact .sendAck c _

theorem onClosing_acknowledges : Acknowledges c (c.onClosing s) := by
  refine .of_uplink ?_
  unfold onClosing
  split
  · exact screen_uplink (by assumption)
  · split
    · rfl
    · rename_i hack
      have huplink := applyAck_uplink hack
      split <;> exact huplink

theorem onLastAck_acknowledges : Acknowledges c (c.onLastAck s) := by
  refine .of_uplink ?_
  unfold onLastAck
  split
  · exact screen_uplink (by assumption)
  · rfl
  · split
    · rfl
    · rename_i hack
      have huplink := applyAck_uplink hack
      split <;> exact huplink

theorem sendResetFor_uplink (o : Outcome) (s : Segment) :
    (o.sendResetFor s).connection.uplink = o.connection.uplink := by
  obtain ⟨counters, hc⟩ := sendResetFor_connection o s
  rw [hc]

theorem onListen_acknowledges : Acknowledges c (c.onListen s now wall) := by
  unfold onListen
  split
  · exact .of_uplink rfl
  · split
    · exact .of_uplink (sendResetFor_uplink _ s)
    · exact acceptSyn_acknowledges c

theorem onSynReceived_acknowledges : Acknowledges c (c.onSynReceived s now wall) := by
  unfold onSynReceived
  split
  · split <;> exact .of_uplink rfl
  · split
    · exact acceptSyn_acknowledges c
    · split
      · exact .of_uplink rfl
      · split
        · exact .of_uplink rfl
        · split
          · exact .of_uplink (sendResetFor_uplink _ s)
          · exact onEstablished_acknowledges

theorem onSegment_acknowledges : Acknowledges c (c.onSegment s now wall) := by
  unfold onSegment
  split
  · exact .of_uplink rfl
  · exact onListen_acknowledges
  · exact onSynReceived_acknowledges
  · exact onEstablished_acknowledges
  · exact onFinWait_acknowledges
  · exact onFinWait_acknowledges
  · exact onCloseWait_acknowledges
  · exact onClosing_acknowledges
  · exact onLastAck_acknowledges
  · exact .of_uplink rfl

theorem onRelayData_uplink : (c.onRelayData now).connection.uplink = c.uplink := by
  unfold onRelayData
  split
  · exact sendPending_uplink
  · rfl

theorem refuseHeld_uplink : c.refuseHeld.connection.uplink = c.uplink := by
  unfold refuseHeld
  split
  · rfl
  · exact sendResetFor_uplink _ _

theorem resend_uplink : (c.resend now).connection.uplink = c.uplink := by
  unfold resend
  split
  · rfl
  · exact onRelayData_uplink

theorem onTick_uplink : (c.onTick now).connection.uplink = c.uplink := by
  unfold onTick
  split
  · rfl
  · rfl
  · split
    · split <;> rfl
    · split
      · rfl
      · split
        · unfold resendSynAck
          simp only
          split <;> rfl
        · split
          · rfl
          · simp only
            split <;> exact resend_uplink

/-- Every event that changes RCV.NXT sends a segment that acknowledges the new one. -/
theorem process_acknowledges (e : Event) (now wall : Nat) :
    Acknowledges c (c.process e now wall) := by
  have hsettle : ∀ o, Acknowledges c o → Acknowledges c (settle o) := by
    intro o h
    obtain ⟨advertised, hc⟩ := settle_connection o
    rw [Acknowledges, hc]
    exact h
  refine hsettle _ ?_
  unfold dispatch
  split
  · exact onSegment_acknowledges
  · unfold onRelayConnected
    split
    · exact .of_uplink rfl
    · simp only
      split
      · exact .of_uplink rfl
      · exact onListen_acknowledges
  · exact .of_uplink refuseHeld_uplink
  · exact .of_uplink onRelayData_uplink
  · exact .of_uplink onRelayData_uplink
  · refine .of_uplink ?_
    unfold onRelayFailed
    split
    · exact refuseHeld_uplink
    all_goals rfl
  · exact .of_uplink onTick_uplink

end Acknowledging

end Connection

end TcpGateway
