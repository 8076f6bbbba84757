import TcpGateway.Proofs.Answer
import TcpGateway.Proofs.Outgoing
import TcpGateway.Proofs.Progress

/-!
# No internal error is passed over

A connection goes on when an operation of its streams or its resend queue refuses what it is asked:
it drops the rest of the step and says nothing.  `Strict` is the same machine with a fault in the
place of each such branch.  On every run strict processing gives the outcome of `process`, so none
of the branches is ever taken.

Most of them are excluded by the check in front of them alone.  Two need the run: payload that
passed the window check would still be refused by a closed uplink, and phase LastAck would answer
nothing if it did not know its FIN.
-/

namespace TcpGateway

/-- An internal error that `process` would pass over. -/
inductive Fault where
  /-- The downlink refuses an acknowledgment between SND.UNA and SND.NXT. -/
  | acknowledge (e : StreamError)
  /-- The downlink does not give or does not mark the range that it says is next. -/
  | send (e : StreamError)
  /-- The uplink refuses the payload of a segment that passed the screen. -/
  | receive (e : StreamError)
  /-- The resend queue does not know the segment that it offers, or complains of more than that
  nothing is due. -/
  | resend (e : ResendError)
  /-- Phase LastAck without a FIN. -/
  | noFin
deriving DecidableEq, Repr

/-! ## Strict processing -/

namespace Strict

section Steps

variable (c : Connection) (s : Segment) (now wall : Nat)

def applyAck : Except Fault (Option Connection) :=
  if c.sndNxt.precedes s.ack then .ok none
  else if c.sndUna.precedes s.ack then
    match c.downlink.acknowledge s.ack with
    | .error e => .error (.acknowledge e)
    | .ok (downlink, _) =>
      .ok (some
        { c with downlink, resends := c.resends.acknowledge s.ack, peerWindow := s.window })
  else .ok (some { c with peerWindow := s.window })

def acceptPayload : Except Fault Connection :=
  if s.payload.isEmpty then .ok c
  else
    match c.uplink.write s.seq s.payload with
    | .error e => .error (.receive e)
    | .ok uplink =>
      .ok { c with
        uplink
        counters.bytesFromClients :=
          c.counters.bytesFromClients + UInt64.ofNat s.payload.length }

def sendData : Except Fault (Option (Connection × Segment)) :=
  match c.downlink.nextRange c.options.maxPayload c.peerWindow with
  | none => .ok none
  | some range =>
    match c.downlink.read range with
    | .error e => .error (.send e)
    | .ok data =>
      match c.downlink.markSent range with
      | .error e => .error (.send e)
      | .ok downlink =>
        let c := { c with
          downlink
          resends := c.resends.add (.ofData data range now)
          counters.bytesToClients := c.counters.bytesToClients + UInt64.ofNat data.length }
        .ok (some (c, c.dataSegment range.lower data))

def sendPending : Except Fault Outcome := do
  match ← sendData c now with
  | none => return c.stay.sendFinIfReady now
  | some (c, data) => return (c.stay.send data).sendFinIfReady now

def resend : Except Fault Outcome :=
  match c.resends.due now with
  | .ok x =>
    match c.resends.markResent x.seq now with
    | .error e => .error (.resend e)
    | .ok resends =>
      let segment := if x.isFin then c.finSegment x.seq else c.dataSegment x.seq x.data
      .ok ({ c with resends, counters.resends := c.counters.resends + 1 }.stay.send segment)
  | .error e =>
    if !e.isControlSignal then .error (.resend e)
    else if c.phase.canSend then sendPending c now
    else .ok c.stay

/-! ### The client's segments -/

/-- What the synchronized phases share; `pass` handles what passes. -/
def screened (pass : Connection → Except Fault Outcome) : Except Fault Outcome :=
  match c.screen s with
  | some o => .ok o
  | none => do
    match ← applyAck c s with
    | none => return c.stay.sendAck
    | some c => pass c

def onEstablished : Except Fault Outcome :=
  screened c s fun c => do
    let c ← acceptPayload c s
    if s.isFin then return (c.acceptFin.enter .closeWait).sendAck.command .finishUplink
    else
      match ← sendData c now with
      | some (c, data) => return (c.stay.send data).sendFinIfReady now
      | none => return (if s.payload.isEmpty then c.stay else c.stay.sendAck).sendFinIfReady now

def onCloseWait : Except Fault Outcome :=
  screened c s fun c => if s.payload.isEmpty then sendPending c now else .ok c.stay.sendAck

def onFinWait (afterFin : Phase) (next : Connection → Phase) : Except Fault Outcome :=
  screened c s fun c => do
    let c ← acceptPayload c s
    if s.isFin then return (c.acceptFin.enter afterFin).sendAck
    else
      let o := c.enter (next c)
      return if s.payload.isEmpty then o else o.sendAck

def onClosing : Except Fault Outcome :=
  screened c s fun c => .ok (if c.isFinAcknowledged then c.enter .closed else c.stay)

def onLastAck : Except Fault Outcome :=
  match c.screen s, c.finSeq with
  | some o, _ => .ok o
  | none, none => .error .noFin
  | none, some fin => do
    match ← applyAck c s with
    | none => return c.stay.send (c.finSegment fin)
    | some c => return if s.ack = fin.next then c.enter .closed else c.stay.send (c.finSegment fin)

def onSynReceived : Except Fault Outcome :=
  if s.isRst then
    if c.uplink.receiveRange.contains s.seq then .ok ((c.enter .closed).command .abortRelay)
    else .ok c.stay
  else if s.isBareSyn then .ok (c.acceptSyn s now wall)
  else if !c.uplink.inWindow s.seq s.payload.length then .ok c.stay.sendAck
  else if !s.isAck then .ok ({ c with synAckSentAt := some now }.stay.send c.synAckSegment)
  else if !(SeqRange.mk c.iss c.sndNxt).contains s.ack then .ok (c.stay.sendResetFor s)
  else onEstablished { c with synAckSentAt := none, phase := .established } s now

def onSegment : Except Fault Outcome :=
  match c.phase with
  | .held => .ok c.stay
  | .listen => .ok (c.onListen s now wall)
  | .synReceived => onSynReceived c s now wall
  | .established => onEstablished c s now
  | .finWait1 =>
    onFinWait c s .closing fun c => if c.isFinAcknowledged then .finWait2 else c.phase
  | .finWait2 => onFinWait c s .closed Connection.phase
  | .closeWait => onCloseWait c s now
  | .closing => onClosing c s
  | .lastAck => onLastAck c s
  | .closed => .ok c.stay

/-! ### The relay's side and the timer -/

def onRelayData : Except Fault Outcome :=
  if c.phase.canSend then sendPending c now else .ok c.stay

def onTick : Except Fault Outcome :=
  match c.phase with
  | .held | .closed => .ok c.stay
  | phase =>
    if c.options.idleTimeout ≤ now - c.lastUsed then
      let o := c.enter .closed
      .ok ((if phase = .listen then o else o.sendReset).command .abortRelay)
    else if phase = .listen then .ok c.stay
    else if phase = .synReceived then .ok (c.resendSynAck now)
    else if phase = .closing && c.isFinAcknowledged then .ok (c.enter .closed)
    else do
      let o ← resend c now
      return if o.segments.isEmpty && o.connection.isWindowReopened then o.sendAck else o

def dispatch (event : Event) : Except Fault Outcome :=
  match event with
  | .segment s =>
    onSegment { c with counters := c.counters.record c.phase, lastUsed := now } s now wall
  | .relayConnected => .ok (c.onRelayConnected now wall)
  | .relayUnreachable => .ok c.refuseHeld
  | .relayData => onRelayData { c with lastUsed := now } now
  | .relayClosed => onRelayData { c with relayDone := true } now
  | .relayFailed _ => .ok c.onRelayFailed
  | .tick => onTick c now

/-- Processes one event like `Connection.process`, and stops at a fault. -/
def process (event : Event) : Except Fault Outcome :=
  (dispatch c now wall event).map Connection.settle

end Steps

end Strict

/-! ## The operations behind their guards -/

/-- A number between SND.UNA and SND.NXT covers no more than what is in flight, however much that
is: both comparisons go the shorter way around. -/
theorem Downlink.acknowledge_guarded {d : Downlink} {ack : SeqNum}
    (hnxt : d.nxt.precedes ack = false) (huna : d.una.precedes ack) :
    ∃ released, d.acknowledge ack = .ok released := by
  have hcovered := (SeqNum.precedes_iff.mp huna).2
  have hle : ¬ d.inFlight < ack.distance d.una := by
    intro hlt
    have hahead : d.nxt.precedes ack := by
      rw [d.nxt_eq, ← SeqNum.add_distance ack d.una]
      exact (SeqNum.precedes_add_add d.una (by omega) hcovered).mpr hlt
    rw [hnxt] at hahead
    cases hahead
  have hreleased : ¬ d.buffer.length < min (ack.distance d.una) d.buffer.length := by omega
  simp only [acknowledge, if_pos huna, if_neg hle, Buffer.discard, if_neg hreleased]
  exact ⟨_, rfl⟩

/-- What is in the window fits into the buffer. -/
theorem Uplink.write_guarded {u : Uplink} {seq : SeqNum} {payload : Bytes}
    (hwindow : u.inWindow seq payload.length) (hopen : u.buffer.closed = false)
    (hne : payload ≠ []) : u.write seq payload = .ok (u.extend payload) := by
  have hpos : 0 < payload.length := List.length_pos_iff.mpr hne
  simp only [inWindow, Bool.and_eq_true, Bool.or_eq_true, beq_iff_eq, decide_eq_true_eq] at hwindow
  obtain ⟨hseq, hlen⟩ := hwindow
  have hle : payload.length ≤ u.window := by omega
  have hfits : u.buffer.fits payload.length := u.fits_of_le_window hle
  have hempty : ¬ payload.isEmpty = true := by rwa [List.isEmpty_iff]
  rw [write, if_neg (not_not.mpr hseq), if_neg hempty, if_neg (by omega), Buffer.write, hopen,
    if_neg Bool.false_ne_true, if_pos hfits]
  simp only [extend, hopen]

/-- If no segment is offered, none is due. -/
theorem ResendQueue.due_eq_error {q : ResendQueue} {now : Nat} {e : ResendError}
    (h : q.due now = .error e) : e.isControlSignal := by
  unfold due at h
  split at h
  · cases h
    rfl
  · split at h <;> cases h
    rfl

namespace Connection

variable {c : Connection} {s : Segment} {now wall : Nat}

/-- What passes the screen is in the window. -/
theorem screen_inWindow (h : c.screen s = none) : c.uplink.inWindow s.seq s.payload.length := by
  unfold screen at h
  split at h
  · split at h <;> cases h
  · split at h
    · cases h
    · simp_all

/-! ## Strict processing does not stop -/

theorem strict_applyAck : Strict.applyAck c s = .ok (c.applyAck s) := by
  unfold Strict.applyAck applyAck
  split
  · rfl
  · rename_i hnxt
    split
    · rename_i huna
      obtain ⟨released, h⟩ := Downlink.acknowledge_guarded (Bool.eq_false_iff.mpr hnxt) huna
      simp only [h]
    · rfl

theorem strict_acceptPayload (hwindow : c.uplink.inWindow s.seq s.payload.length)
    (hopen : c.uplink.buffer.closed = false) :
    ∃ c', c.acceptPayload s = some c' ∧ Strict.acceptPayload c s = .ok c' := by
  unfold Strict.acceptPayload acceptPayload
  split
  · exact ⟨c, rfl, rfl⟩
  · rename_i hne
    rw [Uplink.write_guarded hwindow hopen (by rwa [List.isEmpty_iff] at hne)]
    exact ⟨_, rfl, rfl⟩

theorem strict_sendData : Strict.sendData c now = .ok (c.sendData now) := by
  unfold Strict.sendData sendData
  by_cases hz : c.nextSize = 0
  · rw [nextRange_eq_none hz]
  · obtain ⟨hrange, hread, hmark⟩ := nextRange_eq_some hz
    rw [hrange]
    simp only [hread, hmark]

theorem strict_sendPending : Strict.sendPending c now = .ok (c.sendPending now) := by
  have hsend : c.sendPending now = (c.stay.sendData now).sendFinIfReady now := rfl
  rw [Strict.sendPending, strict_sendData, hsend, Outcome.sendData, stay]
  cases h : c.sendData now <;> rfl

theorem strict_resend : Strict.resend c now = .ok (c.resend now) := by
  unfold Strict.resend resend
  cases hdue : c.resends.due now with
  | ok x =>
    obtain ⟨rest, -, hmark⟩ := ResendQueue.due_eq_ok hdue
    simp only [hmark]
  | error e =>
    have hsignal : e.isControlSignal := ResendQueue.due_eq_error hdue
    simp only [hsignal, Bool.not_true, Bool.false_eq_true, if_false]
    split
    · exact strict_sendPending
    · rfl

/-! ### The client's segments -/

/-- What the synchronized phases share; `pass` handles what passes the screen and acknowledges
nothing that was never sent. -/
def screened (c : Connection) (s : Segment) (pass : Connection → Outcome) : Outcome :=
  match c.screen s with
  | some o => o
  | none =>
    match c.applyAck s with
    | none => c.stay.sendAck
    | some c => pass c

/-- The handlers are of the form of `screened`, so that only what passes has to be looked at. -/
theorem strict_screened {strict : Connection → Except Fault Outcome} {pass : Connection → Outcome}
    (h : ∀ c', c.screen s = none → c.applyAck s = some c' → strict c' = .ok (pass c')) :
    Strict.screened c s strict = .ok (c.screened s pass) := by
  unfold Strict.screened screened
  rw [strict_applyAck]
  cases hscreen : c.screen s with
  | some o => rfl
  | none =>
    cases hack : c.applyAck s with
    | none => rfl
    | some c' => exact h c' hscreen hack

/-- The payload of what passes is taken. -/
theorem strict_passed {c' : Connection} (hopen : c.uplink.buffer.closed = false)
    (hscreen : c.screen s = none) (hack : c.applyAck s = some c') :
    ∃ c₂, c'.acceptPayload s = some c₂ ∧ Strict.acceptPayload c' s = .ok c₂ := by
  have huplink := applyAck_uplink hack
  exact strict_acceptPayload (huplink ▸ screen_inWindow hscreen) (huplink ▸ hopen)

theorem strict_onEstablished (hopen : c.uplink.buffer.closed = false) :
    Strict.onEstablished c s now = .ok (c.onEstablished s now) := by
  refine strict_screened fun c₁ hscreen hack => ?_
  obtain ⟨c₂, hpay, hstrict⟩ := strict_passed hopen hscreen hack
  simp only [hpay, hstrict, strict_sendData, bind, Except.bind]
  split
  · rfl
  · cases c₂.sendData now <;> rfl

theorem strict_onCloseWait : Strict.onCloseWait c s now = .ok (c.onCloseWait s now) := by
  refine strict_screened fun c₁ _ _ => ?_
  split
  · exact strict_sendPending
  · rfl

theorem strict_onFinWait {afterFin : Phase} {next : Connection → Phase}
    (hopen : c.uplink.buffer.closed = false) :
    Strict.onFinWait c s afterFin next = .ok (c.onFinWait s afterFin next) := by
  refine strict_screened fun c₁ hscreen hack => ?_
  obtain ⟨c₂, hpay, hstrict⟩ := strict_passed hopen hscreen hack
  simp only [hpay, hstrict, Option.getD_some, bind, Except.bind]
  split <;> rfl

theorem strict_onClosing : Strict.onClosing c s = .ok (c.onClosing s) :=
  strict_screened fun _ _ _ => rfl

theorem strict_onLastAck (hfin : c.finSeq.isSome) :
    Strict.onLastAck c s = .ok (c.onLastAck s) := by
  obtain ⟨fin, hfin⟩ := Option.isSome_iff_exists.mp hfin
  unfold Strict.onLastAck onLastAck
  rw [strict_applyAck, hfin]
  cases hscreen : c.screen s with
  | some o => rfl
  | none => cases hack : c.applyAck s <;> rfl

theorem strict_onSynReceived (hopen : c.uplink.buffer.closed = false) :
    Strict.onSynReceived c s now wall = .ok (c.onSynReceived s now wall) := by
  unfold Strict.onSynReceived onSynReceived
  rw [strict_onEstablished (c := { c with synAckSentAt := none, phase := .established }) hopen]
  repeat' split
  all_goals rfl

/-- What the handlers do not check themselves: while payload may be taken the uplink is open, and
phase LastAck has its FIN. -/
structure Unfaulted (c : Connection) : Prop where
  uplink_open : c.uplink.buffer.closed → c.phase.hasClientFin ∨ c.phase = .closed
  has_fin : c.phase = .lastAck → c.finSeq.isSome

theorem Unfaulted.of_phase {p : Phase} (h : Unfaulted c) (hp : c.phase = p)
    (hbefore : p.hasClientFin = false) (hne : p ≠ .closed) : c.uplink.buffer.closed = false := by
  rw [← Bool.not_eq_true]
  intro hclosed
  rcases h.uplink_open hclosed with hfin | hc
  · rw [hp, hbefore] at hfin
    cases hfin
  · exact hne (hp.symm.trans hc)

theorem strict_onSegment (h : Unfaulted c) :
    Strict.onSegment c s now wall = .ok (c.onSegment s now wall) := by
  unfold Strict.onSegment onSegment
  cases hp : c.phase with
  | held | listen | closed => rfl
  | synReceived => exact strict_onSynReceived (h.of_phase hp rfl (by decide))
  | established => exact strict_onEstablished (h.of_phase hp rfl (by decide))
  | finWait1 => exact strict_onFinWait (h.of_phase hp rfl (by decide))
  | finWait2 => exact strict_onFinWait (h.of_phase hp rfl (by decide))
  | closeWait => exact strict_onCloseWait
  | closing => exact strict_onClosing
  | lastAck => exact strict_onLastAck (h.has_fin hp)

/-! ### The relay's side and the timer -/

theorem strict_onRelayData : Strict.onRelayData c now = .ok (c.onRelayData now) := by
  unfold Strict.onRelayData onRelayData
  split
  · exact strict_sendPending
  · rfl

theorem strict_onTick : Strict.onTick c now = .ok (c.onTick now) := by
  unfold Strict.onTick onTick
  rw [strict_resend]
  cases hp : c.phase with
  | held | closed => rfl
  | _ =>
    simp only [bind, Except.bind, pure, Except.pure]
    repeat' split
    all_goals rfl

/-- Where the two conditions hold, no event meets a fault. -/
theorem strict_process (h : Unfaulted c) (e : Event) :
    Strict.process c now wall e = .ok (c.process e now wall) := by
  have hdispatch : Strict.dispatch c now wall e = .ok (c.dispatch e now wall) := by
    cases e with
    | segment s =>
      exact strict_onSegment
        (c := { c with counters := c.counters.record c.phase, lastUsed := now })
        ⟨h.uplink_open, h.has_fin⟩
    | relayData => exact strict_onRelayData
    | relayClosed => exact strict_onRelayData
    | tick => exact strict_onTick
    | relayConnected | relayUnreachable | relayFailed _ => rfl
  rw [Strict.process, hdispatch]
  rfl

/-! ## When the uplink is closed -/

/-- What an event asks of the relay's side it asks on taking the client's FIN, on its own FIN behind
that, or on closing. -/
theorem commands_step {e : Event} {o o' : Outcome}
    (h : o.commands ≠ [] → o.connection.phase.hasClientFin ∨ o.connection.phase = .closed)
    (hstep : Step e now wall o o') (hcommands : o'.commands ≠ []) :
    o'.connection.phase.hasClientFin ∨ o'.connection.phase = .closed := by
  cases hstep with
  | finReceived _ _ _ => exact .inl rfl
  | @finSent o no_command can_send is_ready =>
    rw [sendFinIfReady_eq now can_send is_ready] at hcommands ⊢
    rw [no_command, List.nil_append] at hcommands
    by_cases hp : o.connection.phase = .closeWait
    · exact .inl (by simp [afterFin, hp, Phase.afterOurFin, Phase.hasClientFin])
    · rw [if_neg hp] at hcommands
      exact absurd rfl hcommands
  | closed closes =>
    obtain ⟨held, counters, hc⟩ := closes.connection_eq
    exact .inr (by rw [hc])
  | @settled o =>
    obtain ⟨advertised, hc⟩ := settle_connection o
    rw [hc]
    exact h hcommands
  | @ackRefused c s _ _ =>
    refine absurd ?_ hcommands
    unfold Outcome.sendResetFor
    split <;> rfl
  | _ => exact absurd rfl hcommands

theorem process_commands {e : Event} (h : (c.process e now wall).commands ≠ []) :
    (c.process e now wall).connection.phase.hasClientFin ∨
      (c.process e now wall).connection.phase = .closed :=
  event_induction
    (P := fun o => o.commands ≠ [] → o.connection.phase.hasClientFin ∨ o.connection.phase = .closed)
    (fun hnil => absurd rfl hnil) (fun _ _ => commands_step) h

theorem BufferMove.commands_eq_nil {m : Move} (h : c.BufferMove m) : (c.apply m).commands = [] := by
  cases h with
  | downlink _ applied _ _ => rw [applied, stay]
  | uplink _ applied _ _ _ => rw [applied, stay]

/-- No event closes the uplink, or opens it again. -/
theorem closed_step {e : Event} {o o' : Outcome} (hstep : Step e now wall o o') :
    o'.connection.uplink.buffer.closed = o.connection.uplink.buffer.closed := by
  cases hstep with
  | acknowledged _ _ _ _ applied =>
    exact congrArg (·.buffer.closed) (applyAck_uplink applied)
  | lastAcknowledged _ _ _ _ applied =>
    exact congrArg (·.buffer.closed) (applyAck_uplink applied)
  | received _ _ not_empty accepted =>
    obtain ⟨-, -, rfl⟩ := acceptPayload_eq_some accepted not_empty
    rfl
  | @ackRefused c s _ _ =>
    obtain ⟨counters, hc⟩ := sendResetFor_connection c.stay s
    rw [hc]
  | finSent _ can_send is_ready =>
    rw [sendFinIfReady_eq now can_send is_ready]
    rfl
  | closed closes =>
    obtain ⟨held, counters, hc⟩ := closes.connection_eq
    rw [hc]
    rfl
  | @settled o =>
    obtain ⟨advertised, hc⟩ := settle_connection o
    rw [hc]
  | _ => rfl

theorem process_closed {e : Event} :
    (c.process e now wall).connection.uplink.buffer.closed = c.uplink.buffer.closed :=
  event_induction
    (P := fun o => o.connection.uplink.buffer.closed = c.uplink.buffer.closed) rfl
    fun _ _ h hstep => (closed_step hstep).trans h

/-- Of the moves that are no events only one closes the uplink. -/
theorem BufferMove.closed_eq {m : Move} (h : c.BufferMove m) (hne : m ≠ .closeUplink) :
    (c.apply m).connection.uplink.buffer.closed = c.uplink.buffer.closed := by
  cases m with
  | event e now wall => exact absurd rfl (h.not_event e now wall)
  | closeUplink => exact absurd rfl hne
  | discardUplink n =>
    simp only [apply]
    split
    · rename_i hd
      obtain ⟨rfl, -⟩ := Buffer.discard_eq_ok hd
      rfl
    · rfl
  | writeDownlink | writeSomeDownlink => simp only [apply]; split <;> rfl
  | closeDownlink => rfl

end Connection

namespace History

/-- Whether anything was asked of the relay's side. -/
def Commands (h : History) : Prop := ∃ st ∈ h, st.outcome.commands ≠ []

instance (h : History) : Decidable h.Commands :=
  inferInstanceAs (Decidable (∃ st ∈ h, st.outcome.commands ≠ []))

/-- The uplink is closed only on a command. -/
def ClosesOnCommand (h : History) : Prop :=
  ∀ h₁ st h₂, h = h₁ ++ st :: h₂ → st.move = .closeUplink → Commands h₁

theorem commands_concat {h : History} {st : Stage} :
    Commands (h ++ [st]) ↔ h.Commands ∨ st.outcome.commands ≠ [] := by
  simp [Commands, or_and_right, exists_or]

theorem closesOnCommand_of_forall {h : History} (hnever : ∀ st ∈ h, st.move ≠ .closeUplink) :
    h.ClosesOnCommand := by
  rintro h₁ st h₂ rfl hmove
  exact absurd hmove (hnever st (by simp))

theorem closesOnCommand_concat {h : History} {st : Stage} :
    ClosesOnCommand (h ++ [st]) ↔ h.ClosesOnCommand ∧ (st.move = .closeUplink → h.Commands) := by
  constructor
  · intro hclose
    refine ⟨fun h₁ st' h₂ heq => ?_, hclose h st [] rfl⟩
    exact hclose h₁ st' (h₂ ++ [st]) (by rw [heq]; simp)
  · rintro ⟨hbefore, hlast⟩ h₁ st' h₂ heq
    rcases List.eq_nil_or_concat h₂ with rfl | ⟨h₂, last, rfl⟩
    · obtain ⟨rfl, hst⟩ := List.append_inj' heq rfl
      cases hst
      exact hlast
    · refine hbefore h₁ st' h₂ ?_
      rw [List.concat_eq_append, ← List.cons_append, ← List.append_assoc] at heq
      exact (List.append_inj' heq rfl).1

end History

namespace Connection

/-- What was asked of the relay's side lies behind the client's FIN, and so does the end of the
uplink. -/
structure Governed (h : History) (c : Connection) : Prop where
  flight : Flight c
  commanded : h.Commands → c.phase.hasClientFin ∨ c.phase = .closed
  uplink_closed : c.uplink.buffer.closed → h.Commands

namespace Governed

variable {h : History} {c : Connection}

theorem unfaulted (hg : Governed h c) : Unfaulted c where
  uplink_open := fun hclosed => hg.commanded (hg.uplink_closed hclosed)
  has_fin := fun hp => by
    rw [hg.flight.fin_phase (by simp [hp]), hp]
    rfl

theorem apply (m : Move) (hclose : m = .closeUplink → h.Commands) (hg : Governed h c) :
    Governed (h ++ [c.stage m]) (c.apply m).connection := by
  rcases c.event_or_bufferMove m with ⟨e, now, wall, rfl⟩ | hmove
  · refine ⟨hg.flight.apply _, fun hcommands => ?_, fun hclosed => ?_⟩
    · rcases History.commands_concat.mp hcommands with hbefore | hnow
      · exact (process_progress hg.flight e now wall).behind_clientFin (hg.commanded hbefore)
      · exact process_commands hnow
    · change (c.process e now wall).connection.uplink.buffer.closed = true at hclosed
      rw [process_closed] at hclosed
      exact History.commands_concat.mpr (.inl (hg.uplink_closed hclosed))
  · obtain ⟨down, up, hc⟩ := hmove.connection_eq
    refine ⟨hg.flight.apply _, fun hcommands => ?_, fun hclosed => ?_⟩
    · rcases History.commands_concat.mp hcommands with hbefore | hnow
      · rw [hc]
        exact hg.commanded hbefore
      · exact absurd hmove.commands_eq_nil hnow
    · refine History.commands_concat.mpr (.inl ?_)
      by_cases hm : m = .closeUplink
      · exact hclose hm
      · rw [hmove.closed_eq hm] at hclosed
        exact hg.uplink_closed hclosed

end Governed

theorem governed_run (flow : Flow) (held : Option Segment) (options : ConnectionOptions) (t₀ : Nat)
    (moves : List Move) : ((begin flow held options t₀).history moves).ClosesOnCommand →
      Governed ((begin flow held options t₀).history moves)
        ((begin flow held options t₀).run moves) := by
  refine run_induction (P := fun h c => h.ClosesOnCommand → Governed h c) (fun _ => ?_)
    (fun h c m ih hclose => ?_) moves
  · refine ⟨Flight.begin flow held options t₀, ?_, ?_⟩
    · rintro ⟨_, ⟨⟩, -⟩
    · cases held <;> rintro ⟨⟩
  · obtain ⟨hbefore, hlast⟩ := History.closesOnCommand_concat.mp hclose
    exact (ih hbefore).apply m hlast

/-! ## Every event of every run -/

/-- No more than a window and a FIN is in flight, and whatever event comes next, no operation
behind a check fails. -/
structure Faultless (options : ConnectionOptions) (c : Connection) : Prop where
  inFlight_le : c.sndNxt.distance c.sndUna ≤ options.windowSize.toNat + 1
  no_fault : ∀ e now wall, Strict.process c now wall e = .ok (c.process e now wall)

/-- On a run that closes the uplink only when it was asked to, no internal error is ever passed
over. -/
theorem faultless_run (flow : Flow) (held : Option Segment) (options : ConnectionOptions)
    (t₀ : Nat) (moves : List Move)
    (hclose : ((begin flow held options t₀).history moves).ClosesOnCommand) :
    Faultless options ((begin flow held options t₀).run moves) := by
  have hg := governed_run flow held options t₀ moves hclose
  have hinFlight := hg.flight.inFlight_le
  rw [(rooted_run flow held options t₀ moves).options_eq] at hinFlight
  exact ⟨hinFlight, fun e now wall => strict_process hg.unfaulted e⟩

/-- The client's FIN completes the handshake and ends the uplink, and the payload that comes behind
it in phase CloseWait is acknowledged without a fault. -/
theorem faultless_afterFin :
    let client (seq ack : UInt32) (flags : Flags) (payload : Bytes) : Event :=
      .segment { flow := default, seq := ⟨seq⟩, ack := ⟨ack⟩, flags, window := 1000, payload }
    let options := { maxPayload := 3, windowSize := 100, resendInterval := 10, idleTimeout := 1000 }
    let moves := [.event (client 5 0 .syn []) 0 0,
      .event (client 6 1 (.fin ||| .ack) [7]) 1 0, .closeUplink]
    let c := (begin default none options 0).run moves
    c.phase = .closeWait ∧ c.uplink.buffer.closed ∧ Faultless options c := by
  intro client options moves c
  refine ⟨by decide +kernel, by decide +kernel, faultless_run default none options 0 moves ?_⟩
  -- the command comes with the FIN, one move before the uplink is closed
  change History.ClosesOnCommand
    ((begin default none options 0).history (moves.take 2 ++ [.closeUplink]))
  rw [history_append]
  refine History.closesOnCommand_concat.mpr ⟨History.closesOnCommand_of_forall ?_, fun _ => ?_⟩
  · simp [moves, history]
  · decide +kernel

/-- If the uplink is closed unasked in phase Established, payload inside the window is refused, and
the window of the same segment has been applied already. -/
example :
    let client (seq ack : UInt32) (flags : Flags) (window : UInt16) (payload : Bytes) : Event :=
      .segment { flow := default, seq := ⟨seq⟩, ack := ⟨ack⟩, flags, window, payload }
    let options := { maxPayload := 3, windowSize := 100, resendInterval := 10, idleTimeout := 1000 }
    let c := (begin default none options 0).run [.event (client 5 0 .syn 1000 []) 0 0,
      .event (client 6 1 .ack 1000 []) 1 0, .closeUplink]
    (Strict.process c 2 0 (client 6 1 .ack 500 [7])).map (fun _ => ()) =
        .error (.receive .closed) ∧
      (c.process (client 6 1 .ack 500 [7]) 2 0).connection.peerWindow = 500 := by
  decide +kernel

end Connection

end TcpGateway
