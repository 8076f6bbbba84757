import TcpGateway.Proofs.Coverage

/-!
# Closed is final

A closed connection stays closed, sends nothing and touches neither stream, whatever it is given.
Most handlers see the phase and do nothing.  Those that do not look at it, for a relay that fails or
is not reached, would answer the SYN that is held; what keeps them silent is that a SYN is held in
phase Held only (`HoldsNone`), so that none is left once the connection has closed.
-/

namespace TcpGateway

namespace Connection

/-! ## The held SYN -/

/-- No SYN is held outside of phase Held. -/
def HoldsNone (c : Connection) : Prop := c.phase ≠ .held → c.heldSyn = none

section Holding

variable {c : Connection} {e : Event} {now wall : Nat} {o o' : Outcome}

/-- No step holds a SYN that was not held. -/
theorem Step.heldSyn_eq_none (hstep : Step e now wall o o')
    (h : o.connection.heldSyn = none) : o'.connection.heldSyn = none := by
  cases hstep with
  | listened _ _ _ => rfl
  | heldSynAccepted _ _ _ _ => rfl
  | @ackRefused c s _ _ =>
    obtain ⟨counters, hc⟩ := sendResetFor_connection c.stay s
    rw [hc]
    exact h
  | acknowledged _ _ _ _ applied =>
    obtain ⟨-, rfl⟩ | ⟨-, -, rfl⟩ := applyAck_eq_some applied <;> exact h
  | lastAcknowledged _ _ _ _ applied =>
    obtain ⟨-, rfl⟩ | ⟨-, -, rfl⟩ := applyAck_eq_some applied <;> exact h
  | received _ _ not_empty accepted =>
    obtain ⟨-, -, rfl⟩ := acceptPayload_eq_some accepted not_empty
    exact h
  | finSent _ can_send is_ready =>
    rw [sendFinIfReady_eq now can_send is_ready]
    exact h
  | closed closes => exact closes.heldSyn.elim (fun hsame => hsame.trans h) id
  | settled =>
    obtain ⟨advertised, hc⟩ := settle_connection o
    rw [hc]
    exact h
  | _ => exact h

theorem refuseHeld_heldSyn (c : Connection) : c.refuseHeld.connection.heldSyn = none := by
  unfold refuseHeld
  split
  · assumption
  · rename_i s _
    obtain ⟨counters, hc⟩ := sendResetFor_connection ({ c with heldSyn := none }.enter .closed) s
    rw [hc]
    rfl

theorem onListen_heldSyn (s : Segment) (h : c.heldSyn = none) :
    (c.onListen s now wall).connection.heldSyn = none := by
  unfold onListen
  split
  · exact h
  · split
    · obtain ⟨counters, hc⟩ := sendResetFor_connection ((c.enter .closed).command .abortRelay) s
      rw [hc]
      exact h
    · exact h

/-- An event in phase Held leaves the phase as it is, or takes the SYN that is held. -/
theorem dispatch_held (hp : c.phase = .held) :
    (c.dispatch e now wall).connection.phase = .held ∨
      (c.dispatch e now wall).connection.heldSyn = none := by
  cases e with
  | segment s => exact .inl (by simp [dispatch, onSegment, hp, stay])
  | relayConnected =>
    refine .inr ?_
    rw [dispatch, onRelayConnected, if_neg (by simp [hp])]
    cases hheld : c.heldSyn with
    | none => rfl
    | some syn => exact onListen_heldSyn syn rfl
  | relayUnreachable => exact .inr c.refuseHeld_heldSyn
  | relayData => exact .inl (by simp [dispatch, onRelayData, hp, Phase.canSend, stay])
  | relayClosed =>
    exact .inl (by simp [dispatch, onRelayClosed, onRelayData, hp, Phase.canSend, stay])
  | relayFailed reason =>
    refine .inr ?_
    simp only [dispatch, onRelayFailed, hp]
    exact c.refuseHeld_heldSyn
  | tick => exact .inl (by simp [dispatch, onTick, hp, stay])

theorem HoldsNone.process (h : HoldsNone c) (e : Event) (now wall : Nat) :
    HoldsNone (c.process e now wall).connection := by
  by_cases hp : c.phase = .held
  · obtain ⟨advertised, hc⟩ := settle_connection (c.dispatch e now wall)
    intro hnot
    change (settle (c.dispatch e now wall)).connection.phase ≠ _ at hnot
    show (settle (c.dispatch e now wall)).connection.heldSyn = none
    rw [hc] at hnot ⊢
    exact (dispatch_held hp).resolve_left hnot
  · exact fun _ => event_induction (P := fun o => o.connection.heldSyn = none) (h hp)
      fun _ _ hnone hstep => hstep.heldSyn_eq_none hnone

theorem HoldsNone.apply (m : Move) (h : HoldsNone c) : HoldsNone (c.apply m).connection := by
  rcases c.event_or_bufferMove m with ⟨e, now, wall, rfl⟩ | hmove
  · exact h.process e now wall
  · obtain ⟨down, up, hc⟩ := hmove.connection_eq
    rw [hc]
    exact h

theorem HoldsNone.begin (flow : Flow) (held : Option Segment) (options : ConnectionOptions)
    (t₀ : Nat) : HoldsNone (begin flow held options t₀) := by
  cases held with
  | none => exact fun _ => rfl
  | some s => exact fun hp => absurd rfl hp

end Holding

/-! ## Closed connections -/

/-- A connection that is closed and has nothing left to send. -/
structure Final (c : Connection) : Prop where
  phase : c.phase = .closed
  heldSyn : c.heldSyn = none
  queue : c.resends.segments = []

namespace Final

variable {c : Connection}

/-- An event changes only what is counted and noted. -/
theorem dispatch (h : Final c) (e : Event) (now wall : Nat) :
    (∃ lastUsed relayDone counters, (c.dispatch e now wall).connection =
      { c with lastUsed, relayDone, counters }) ∧ (c.dispatch e now wall).segments = [] := by
  obtain ⟨hp, hheld, -⟩ := h
  have hclosed : { c with phase := .closed } = c := by rw [← hp]
  have hrefuse : c.refuseHeld = c.enter .closed := by rw [refuseHeld, hheld]
  have hsend : c.phase.canSend = false := by rw [hp]; rfl
  cases e with
  | segment s =>
    simp only [Connection.dispatch, onSegment, hp]
    exact ⟨⟨now, c.relayDone, _, rfl⟩, rfl⟩
  | relayConnected =>
    rw [Connection.dispatch, onRelayConnected, if_pos (by simp [hp])]
    exact ⟨⟨_, _, _, rfl⟩, rfl⟩
  | relayUnreachable =>
    rw [Connection.dispatch, hrefuse, enter, hclosed]
    exact ⟨⟨_, _, _, rfl⟩, rfl⟩
  | relayData =>
    rw [Connection.dispatch, onRelayData, if_neg (by simp [hsend])]
    exact ⟨⟨now, _, _, rfl⟩, rfl⟩
  | relayClosed =>
    rw [Connection.dispatch, onRelayClosed, onRelayData, if_neg (by simp [hsend])]
    exact ⟨⟨_, true, _, rfl⟩, rfl⟩
  | relayFailed reason =>
    have hfailed : c.onRelayFailed = (c.enter .closed).command .abortRelay := by
      simp only [onRelayFailed, hp]
    rw [Connection.dispatch, hfailed, enter, hclosed]
    exact ⟨⟨_, _, _, rfl⟩, rfl⟩
  | tick =>
    have hstay : c.onTick now = c.stay := by simp only [onTick, hp]
    rw [Connection.dispatch, hstay]
    exact ⟨⟨_, _, _, rfl⟩, rfl⟩

end Final

/-- What the connection `c`, once closed, shows at a later stage. -/
structure Silent (c : Connection) (st : Stage) : Prop where
  phase : st.after.phase = .closed
  not_open : st.after.isOpen = false
  sends_nothing : st.outcome.segments = []
  same_numbers : st.after.sndUna = c.sndUna ∧ st.after.sndNxt = c.sndNxt ∧
    st.after.rcvNxt = c.rcvNxt
  queue : st.after.resends.segments = []
  /-- An event leaves both streams and their buffers as they are. -/
  streams : ∀ e now wall, st.move = .event e now wall →
    st.after.downlink = st.before.downlink ∧ st.after.uplink = st.before.uplink

/-- One more move after the connection `c` has closed. -/
theorem Final.apply {c c' : Connection} (h : Final c') (m : Move)
    (hsame : c'.sndUna = c.sndUna ∧ c'.sndNxt = c.sndNxt ∧ c'.rcvNxt = c.rcvNxt) :
    Final (c'.apply m).connection ∧ Silent c (c'.stage m) := by
  have hnot_open : ∀ c : Connection, c.phase = .closed → c.isOpen = false := by
    intro c hp
    rw [isOpen, hp]
    rfl
  rcases c'.event_or_bufferMove m with ⟨e, now, wall, rfl⟩ | hmove
  · obtain ⟨⟨lastUsed, relayDone, counters, hc⟩, hnil⟩ := h.dispatch e now wall
    obtain ⟨advertised, hsettled⟩ := settle_connection (c'.dispatch e now wall)
    have hafter : (c'.process e now wall).connection =
        { c' with
          lastUsed, relayDone, counters, advertised
          resends := c'.resends.clear } := by
      rw [process, hsettled, hc]
      simp only [h.phase, if_true]
    have hfinal : Final (c'.process e now wall).connection := by
      rw [hafter]
      exact ⟨h.phase, h.heldSyn, rfl⟩
    have hstreams : (c'.process e now wall).connection.downlink = c'.downlink ∧
        (c'.process e now wall).connection.uplink = c'.uplink := by
      rw [hafter]
      exact ⟨rfl, rfl⟩
    have hnumbers : (c'.process e now wall).connection.sndUna = c.sndUna ∧
        (c'.process e now wall).connection.sndNxt = c.sndNxt ∧
        (c'.process e now wall).connection.rcvNxt = c.rcvNxt := by
      rw [hafter]
      exact hsame
    exact ⟨hfinal, hfinal.phase, hnot_open _ hfinal.phase, hnil, hnumbers, hfinal.queue,
      fun _ _ _ _ => hstreams⟩
  · obtain ⟨down, up, hc⟩ := hmove.connection_eq
    have hfinal : Final (c'.apply m).connection := by
      rw [hc]
      exact ⟨h.phase, h.heldSyn, h.queue⟩
    have hnumbers : (c'.apply m).connection.sndUna = c.sndUna ∧
        (c'.apply m).connection.sndNxt = c.sndNxt ∧
        (c'.apply m).connection.rcvNxt = c.rcvNxt := by
      rw [hc]
      exact hsame
    exact ⟨hfinal, hfinal.phase, hnot_open _ hfinal.phase, hmove.segments_eq_nil, hnumbers,
      hfinal.queue, fun e now wall he => absurd he (hmove.not_event e now wall)⟩

/-! ## Every run -/

/-- A connection that has closed in a run holds no SYN and has nothing queued. -/
theorem final_run (flow : Flow) (held : Option Segment) (options : ConnectionOptions) (t₀ : Nat)
    (moves : List Move) (hp : ((begin flow held options t₀).run moves).phase = .closed) :
    Final ((begin flow held options t₀).run moves) := by
  have hstart : (begin flow held options t₀).resends.segments = [] := by cases held <;> rfl
  obtain ⟨hholds, hqueue⟩ := run_induction
    (P := fun _ c => HoldsNone c ∧ (c.phase = .closed → c.resends.segments = []))
    ⟨.begin flow held options t₀, fun _ => hstart⟩
    (fun _ _ m h => ⟨h.1.apply m, apply_closed m h.2⟩) moves
  exact ⟨hp, hholds (by simp [hp]), hqueue hp⟩

/-- Closed is final and silent.  Once a run has closed its connection, whatever moves follow, the
connection stays closed, sends nothing and queues nothing, its numbers stay, and no event touches
its streams. -/
theorem silent_run (flow : Flow) (held : Option Segment) (options : ConnectionOptions) (t₀ : Nat)
    (moves : List Move) (hp : ((begin flow held options t₀).run moves).phase = .closed)
    (later : List Move) :
    let c := (begin flow held options t₀).run moves
    ∀ st ∈ c.history later, Silent c st := by
  intro c
  have hfinal : Final c := final_run flow held options t₀ moves hp
  refine (run_induction (P := fun h c' => (Final c' ∧ c'.sndUna = c.sndUna ∧
    c'.sndNxt = c.sndNxt ∧ c'.rcvNxt = c.rcvNxt) ∧ ∀ st ∈ h, Silent c st)
    ⟨⟨hfinal, rfl, rfl, rfl⟩, by rintro _ ⟨⟩⟩ ?_ later).2
  rintro h c' m ⟨⟨hc', hsame⟩, hsilent⟩
  obtain ⟨hfinal', hst⟩ := hc'.apply m hsame
  refine ⟨⟨hfinal', hst.same_numbers⟩, fun st hmem => ?_⟩
  rcases List.mem_append.mp hmem with hold | hnew
  · exact hsilent st hold
  · exact List.mem_singleton.mp hnew ▸ hst

/-- A connection that was refused the relay while it held a SYN does not answer the SYN again when
the relay fails or is refused once more. -/
theorem silent_afterRefusal :
    let syn : Segment :=
      { flow := default, seq := ⟨5⟩, ack := ⟨0⟩, flags := .syn, window := 1000, payload := [] }
    let options := { maxPayload := 3, windowSize := 100, resendInterval := 10, idleTimeout := 1000 }
    let c := (begin default (some syn) options 0).run [.event .relayUnreachable 0 0]
    c.phase = .closed ∧ ∀ st ∈ c.history [.event (.relayFailed "reset") 1 0,
      .event .relayUnreachable 2 0, .event .relayConnected 3 0, .event (.segment syn) 4 0,
      .event .tick 5000 0], Silent c st := by
  intro syn options c
  exact ⟨by decide +kernel, silent_run default (some syn) options 0 [.event .relayUnreachable 0 0]
    (by decide +kernel) _⟩

end Connection

end TcpGateway
