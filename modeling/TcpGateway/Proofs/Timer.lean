import TcpGateway.Proofs.Effect

/-!
# What the timer does

A tick that finds a synchronized connection in use does one of four things (`Served`): it sends the
oldest segment of the queue again if that is due, else new data or the FIN if there is any, else a
bare acknowledgment if the window has opened again, else nothing.  In every other state a tick ends
the connection, repeats the SYN-ACK or does nothing (`Unserved`).

Both lists are complete, so that what holds of ticks is proved by one case for each entry.
-/

namespace TcpGateway

namespace Connection

/-- Whether a tick at time `now` finds the connection synchronized, neither idle for too long nor
at its end. -/
structure IsServed (c : Connection) (now : Nat) : Prop where
  is_synchronized : c.phase.isSynchronized
  in_use : now - c.lastUsed < c.options.idleTimeout
  not_ended : ¬ (c.phase = .closing ∧ c.isFinAcknowledged)

/-- The connection after `x`, the first segment of the queue, was sent again. -/
def afterResend (c : Connection) (now : Nat) (x : SentSegment) (rest : List SentSegment) :
    Connection :=
  { c with
    resends.segments := { x with sentAt := now } :: rest
    counters.resends := c.counters.resends + 1 }

/-- What a tick does to a synchronized connection in use. -/
inductive Served (c : Connection) (now : Nat) : Outcome → Prop
  /-- The oldest segment is due. -/
  | resent {x : SentSegment} {rest : List SentSegment} (is_oldest : c.resends.segments = x :: rest)
      (is_due : c.resends.interval ≤ x.age now) :
      Served c now ((c.afterResend now x rest).stay.send (c.repeated x))
  /-- Nothing is due, and there is something new to send. -/
  | sent (none_due : ∀ x ∈ c.resends.segments.head?, x.age now < c.resends.interval)
      (can_send : c.phase.canSend) (sends : (c.sendPending now).segments ≠ []) :
      Served c now (c.sendPending now)
  /-- There is nothing to send, but the window has opened again. -/
  | reopened (none_due : ∀ x ∈ c.resends.segments.head?, x.age now < c.resends.interval)
      (is_reopened : c.isWindowReopened) : Served c now c.stay.sendAck
  | quiet (none_due : ∀ x ∈ c.resends.segments.head?, x.age now < c.resends.interval)
      (not_reopened : c.isWindowReopened = false) : Served c now c.stay

/-- What a tick does to any other connection. -/
inductive Unserved (c : Connection) (now : Nat) : Outcome → Prop
  | quiet : Unserved c now c.stay
  | closed {o : Outcome} (closes : Closing .tick c o) : Unserved c now o
  | synAck (is_opening : c.phase = .synReceived) :
      Unserved c now
        ({ c with synAckSentAt := some now, counters.resends := c.counters.resends + 1 }.stay.send
          c.synAckSegment)

section Ticks

variable {c : Connection} {now : Nat}

theorem resend_due {x : SentSegment} {rest : List SentSegment}
    (hq : c.resends.segments = x :: rest) (hdue : c.resends.interval ≤ x.age now) :
    c.resend now = (c.afterResend now x rest).stay.send (c.repeated x) := by
  have hok : c.resends.due now = .ok x := by
    rw [ResendQueue.due, hq]
    exact if_pos hdue
  obtain ⟨rest', hq', hmark⟩ := ResendQueue.due_eq_ok hok
  cases hq.symm.trans hq'
  rw [resend, hok]
  simp only [hmark]
  rfl

theorem resend_none_due (h : ∀ x ∈ c.resends.segments.head?, x.age now < c.resends.interval) :
    c.resend now = c.onRelayData now := by
  have herror : ∃ fault, c.resends.due now = .error fault := by
    rw [ResendQueue.due]
    split
    · exact ⟨_, rfl⟩
    · rename_i x rest hq
      rw [if_neg (Nat.not_le_of_lt (h x (by rw [hq]; rfl)))]
      exact ⟨_, rfl⟩
  obtain ⟨fault, hdue⟩ := herror
  rw [resend, hdue, onRelayData]

theorem onTick_eq (h : c.IsServed now) :
    c.onTick now =
      if (c.resend now).segments = [] ∧ c.isWindowReopened then c.stay.sendAck
      else c.resend now := by
  obtain ⟨hsync, huse, hend⟩ := h
  have hidle : ¬ c.options.idleTimeout ≤ now - c.lastUsed := Nat.not_le_of_lt huse
  have hsegments : (if (c.resend now).segments.isEmpty && (c.resend now).connection.isWindowReopened
      then (c.resend now).sendAck else c.resend now) =
        if (c.resend now).segments = [] ∧ c.isWindowReopened then c.stay.sendAck
        else c.resend now := by
    by_cases hnil : (c.resend now).segments = []
    · rw [resend_eq_stay hnil]
      simp [stay]
    · simp [hnil]
  rw [← hsegments]
  cases hp : c.phase <;> simp_all [onTick, Phase.isSynchronized]

theorem onTick_served (h : c.IsServed now) : Served c now (c.onTick now) := by
  rw [onTick_eq h]
  by_cases hdue : ∀ x ∈ c.resends.segments.head?, x.age now < c.resends.interval
  · rw [resend_none_due hdue]
    by_cases hsegments : (c.onRelayData now).segments = []
    · have hstay : c.onRelayData now = c.stay := by
        rw [← resend_none_due hdue] at hsegments ⊢
        exact resend_eq_stay hsegments
      by_cases hopen : c.isWindowReopened
      · rw [if_pos ⟨hsegments, hopen⟩]
        exact .reopened hdue hopen
      · rw [if_neg (fun hboth => hopen hboth.2), hstay]
        exact .quiet hdue (Bool.eq_false_iff.mpr hopen)
    · rw [if_neg (fun hboth => hsegments hboth.1)]
      by_cases hsend : c.phase.canSend
      · rw [onRelayData, if_pos hsend] at hsegments ⊢
        exact .sent hdue hsend hsegments
      · rw [onRelayData, if_neg hsend] at hsegments
        exact absurd rfl hsegments
  · simp only [not_forall, Nat.not_lt, exists_prop] at hdue
    obtain ⟨x, hx, hdue⟩ := hdue
    obtain ⟨rest, hq⟩ : ∃ rest, c.resends.segments = x :: rest := List.head?_eq_some_iff.mp hx
    rw [resend_due hq hdue, if_neg (fun hboth => by simp [Outcome.send] at hboth)]
    exact .resent hq hdue

theorem onTick_unserved (h : ¬ c.IsServed now) : Unserved c now (c.onTick now) := by
  by_cases hwait : c.phase = .held ∨ c.phase = .closed
  · have hstay : c.onTick now = c.stay := by rcases hwait with hp | hp <;> rw [onTick, hp]
    rw [hstay]
    exact .quiet
  · rw [not_or] at hwait
    by_cases hidle : c.options.idleTimeout ≤ now - c.lastUsed
    · have hreset : c.onTick now = (if c.phase = .listen then c.enter .closed
          else (c.enter .closed).sendReset).command .abortRelay := by
        cases hp : c.phase <;> simp_all [onTick]
      rw [hreset]
      split
      · exact .closed .aborted
      · exact .closed .reset
    · by_cases hsync : c.phase.isSynchronized
      · have hend : c.phase = .closing ∧ c.isFinAcknowledged := by
          by_contra hend
          exact h ⟨hsync, Nat.lt_of_not_le hidle, hend⟩
        have hclosed : c.onTick now = c.enter .closed := by simp [onTick, hidle, hend.1, hend.2]
        rw [hclosed]
        exact .closed (.orderly hend.1 hend.2)
      · have hopening : c.phase = .listen ∨ c.phase = .synReceived := by
          cases hp : c.phase <;> simp_all [Phase.isSynchronized]
        rcases hopening with hp | hp
        · have hstay : c.onTick now = c.stay := by simp [onTick, hp, hidle]
          rw [hstay]
          exact .quiet
        · have hresend : c.onTick now = c.resendSynAck now := by simp [onTick, hp, hidle]
          rw [hresend, resendSynAck]
          simp only
          split
          · exact .synAck hp
          · exact .quiet

/-! ## The segments of a tick -/

theorem flags_repeated (c : Connection) (x : SentSegment) :
    (c.repeated x).flags = .fin ||| .ack ∨ (c.repeated x).flags = .ack ||| .psh := by
  unfold repeated
  split
  · exact .inl rfl
  · exact .inr rfl

/-- What is sent without being asked for by the client is the next piece of data, the FIN or both. -/
theorem mem_sendPending {p : Segment} (hsend : c.phase.canSend)
    (hp : p ∈ (c.sendPending now).segments) :
    p.flags = .ack ||| .psh ∧ p.seq = c.sndNxt ∧ p.payload = c.downlink.waiting c.nextSize ∧
        c.nextSize ≠ 0 ∨
      p.flags = .fin ||| .ack ∧ p.payload = [] ∧ c.finSeq = none := by
  have hfin : ∀ o : Outcome, o.connection.phase.canSend → o.connection.finSeq = c.finSeq →
      p ∈ (o.sendFinIfReady now).segments →
        p ∈ o.segments ∨ p.flags = .fin ||| .ack ∧ p.payload = [] ∧ c.finSeq = none := by
    intro o ho hsame hmem
    by_cases hready : o.connection.isReadyToClose
    · rw [sendFinIfReady_eq now ho hready] at hmem
      refine (List.mem_append.mp hmem).imp_right fun hnew => ?_
      rw [isReadyToClose, Bool.and_eq_true, Bool.and_eq_true, Option.isNone_iff_eq_none] at hready
      rw [List.mem_singleton.mp hnew]
      exact ⟨rfl, rfl, hsame.symm.trans hready.1.2⟩
    · rw [Outcome.sendFinIfReady, if_neg hready] at hmem
      exact .inl hmem
  rw [sendPending, Outcome.sendData] at hp
  simp only [stay, sendData_eq] at hp
  by_cases hz : c.nextSize = 0
  · rw [if_pos hz] at hp
    exact .inr ((hfin _ hsend rfl hp).resolve_left (by simp))
  · rw [if_neg hz] at hp
    refine (hfin (c.sendNext now c.nextSize) hsend rfl hp).imp_left fun hdata => ?_
    rw [List.mem_singleton.mp hdata]
    exact ⟨rfl, rfl, rfl, hz⟩

/-- What a tick sends to a synchronized connection in use is data, the FIN or an acknowledgment, and
the last only if the window has opened again. -/
theorem Served.flags {o : Outcome} (h : Served c now o) : ∀ p ∈ o.segments,
    p.flags = .fin ||| .ack ∨ p.flags = .ack ||| .psh ∨ p.flags = .ack ∧ c.isWindowReopened := by
  intro p hp
  cases h with
  | resent is_oldest is_due =>
    obtain rfl := List.mem_singleton.mp hp
    exact (c.flags_repeated _).imp_right .inl
  | sent _ can_send _ =>
    rcases mem_sendPending can_send hp with hdata | hfin
    · exact .inr (.inl hdata.1)
    · exact .inl hfin.1
  | reopened _ is_reopened =>
    obtain rfl := List.mem_singleton.mp hp
    exact .inr (.inr ⟨rfl, is_reopened⟩)
  | quiet _ _ => cases hp

/-- What a tick sends to any other connection is a reset or a SYN-ACK. -/
theorem Unserved.flags {o : Outcome} (h : Unserved c now o) : ∀ p ∈ o.segments,
    p.isRst ∨ p.flags = .syn ||| .ack := by
  intro p hp
  cases h with
  | quiet => cases hp
  | closed closes => exact .inl (closes.segments_isRst p hp)
  | synAck is_opening =>
    obtain rfl := List.mem_singleton.mp hp
    exact .inr rfl

end Ticks

end Connection

end TcpGateway
