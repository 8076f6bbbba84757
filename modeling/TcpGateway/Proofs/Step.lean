import Mathlib.Logic.Relation
import TcpGateway.Connection.Process
import TcpGateway.Proofs.Queue
import TcpGateway.Proofs.Streams

/-!
# Elementary steps of a connection

What one event does to a connection is a short sequence of elementary steps, and `Step` lists all
there are, each with the conditions under which it is taken.  A step leads from the outcome so far
to the next one.  While nothing has been sent the outcome is `c.stay`; nearly every step starts
there, so that an event is a few silent updates, at most one segment, perhaps the FIN behind it,
and the settling at the end.

`process_path` decomposes every event in this way.  An invariant of connections is then proved by
one case for each step, and never by looking into the handlers again.
-/

namespace TcpGateway

/-- Whether the client's SYN was answered and the connection is not closed. -/
def Phase.isGreeted : Phase → Bool
  | .held | .listen | .closed => false
  | _ => true

/-- Whether the handshake is still to be completed. -/
def Phase.isOpening : Phase → Bool
  | .held | .listen | .synReceived => true
  | _ => false

/-- Whether no SYN was answered yet. -/
def Phase.isWaiting : Phase → Bool
  | .held | .listen => true
  | _ => false

/-- The phase that our FIN leads to. -/
def Phase.afterOurFin : Phase → Phase
  | .established => .finWait1
  | .closeWait => .lastAck
  | p => p

namespace Connection

/-! ## What the parts of a handler do -/

/-- How much data is sent next; zero if there is none to send or no room for it. -/
def nextSize (c : Connection) : Nat := c.downlink.nextSize c.options.maxPayload c.peerWindow

/-- The connection after the next `n` bytes were sent for the first time. -/
def afterData (c : Connection) (now n : Nat) : Connection :=
  { c with
    downlink := c.downlink.advance n
    resends := c.resends.add (.ofData (c.downlink.waiting n) (.ofSize c.sndNxt n) now)
    counters.bytesToClients := c.counters.bytesToClients + UInt64.ofNat n }

/-- The outcome of sending the next `n` bytes. -/
def sendNext (c : Connection) (now n : Nat) : Outcome :=
  (c.afterData now n).stay.send ((c.afterData now n).dataSegment c.sndNxt (c.downlink.waiting n))

theorem nextRange_eq_none {c : Connection} (hz : c.nextSize = 0) :
    c.downlink.nextRange c.options.maxPayload c.peerWindow = none :=
  (c.downlink.nextRange_eq _ _).trans (if_pos hz)

/-- The next range to send can be read and marked. -/
theorem nextRange_eq_some {c : Connection} (hz : c.nextSize ≠ 0) :
    c.downlink.nextRange c.options.maxPayload c.peerWindow =
        some (.ofSize c.sndNxt c.nextSize) ∧
      c.downlink.read (.ofSize c.sndNxt c.nextSize) = .ok (c.downlink.waiting c.nextSize) ∧
      c.downlink.markSent (.ofSize c.sndNxt c.nextSize) = .ok (c.downlink.advance c.nextSize) :=
  ⟨(c.downlink.nextRange_eq _ _).trans (if_neg hz),
    c.downlink.read_next (Nat.pos_of_ne_zero hz) (c.downlink.nextSize_le _ _),
    c.downlink.markSent_next c.nextSize⟩

theorem sendData_eq (c : Connection) (now : Nat) :
    c.sendData now =
      if c.nextSize = 0 then none
      else some (c.afterData now c.nextSize,
        (c.afterData now c.nextSize).dataSegment c.sndNxt (c.downlink.waiting c.nextSize)) := by
  have hle : c.nextSize ≤ c.downlink.buffered - c.downlink.inFlight :=
    c.downlink.nextSize_le _ _
  unfold sendData
  by_cases hz : c.nextSize = 0
  · rw [nextRange_eq_none hz, if_pos hz]
  · obtain ⟨hrange, hread, hmark⟩ := nextRange_eq_some hz
    rw [hrange, if_neg hz]
    simp only [hread, hmark, c.downlink.length_waiting hle]
    rfl

/-- The connection after its FIN was sent. -/
def afterFin (c : Connection) (now : Nat) : Connection :=
  { c with
    phase := c.phase.afterOurFin
    finSeq := some c.sndNxt
    downlink := c.downlink.advance 1
    resends := c.resends.add (.ofFin c.sndNxt now) }

theorem sendFinIfReady_eq {o : Outcome} (now : Nat) (hsend : o.connection.phase.canSend)
    (hready : o.connection.isReadyToClose) :
    o.sendFinIfReady now =
      { connection := o.connection.afterFin now
        segments :=
          o.segments ++ [(o.connection.afterFin now).finSegment o.connection.sndNxt]
        commands :=
          o.commands ++ if o.connection.phase = .closeWait then [.finishUplink] else [] } := by
  have hcases : o.connection.phase = .established ∨ o.connection.phase = .closeWait := by
    cases hp : o.connection.phase <;> simp_all [Phase.canSend]
  rw [Outcome.sendFinIfReady, if_pos hready]
  rcases hcases with hp | hp
  · simp [sendFin, Outcome.send, afterFin, Phase.afterOurFin, hp, finSegment, segmentAt,
      Downlink.spendControl, Downlink.advance, SeqNum.next_eq, rcvNxt, rcvWnd, sndNxt]
  · simp [sendFin, Outcome.send, Outcome.command, afterFin, Phase.afterOurFin, hp, finSegment,
      segmentAt, Downlink.spendControl, Downlink.advance, SeqNum.next_eq, rcvNxt, rcvWnd, sndNxt]

/-- The connection after `s` acknowledged numbers in flight. -/
def afterAck (c : Connection) (s : Segment) : Connection :=
  { c with
    downlink := c.downlink.release s.ack
    resends := c.resends.acknowledge s.ack
    peerWindow := s.window }

/-- An acknowledgment is refused if it is ahead of what was sent.  Else it sets the window, and
if it is ahead of `una` it releases what it covers. -/
theorem applyAck_eq_some {c c' : Connection} {s : Segment} (h : c.applyAck s = some c') :
    c.sndUna.precedes s.ack = false ∧ c' = { c with peerWindow := s.window } ∨
      0 < s.ack.distance c.sndUna ∧ s.ack.distance c.sndUna ≤ c.downlink.inFlight ∧
        c' = c.afterAck s := by
  unfold applyAck at h
  split at h
  · cases h
  · split at h
    · rename_i huna
      split at h
      · cases h
      · rename_i d released hd
        obtain ⟨hpos, hle, rfl⟩ := Downlink.acknowledge_eq_ok huna hd
        cases h
        exact .inr ⟨hpos, hle, rfl⟩
    · rename_i huna
      cases h
      exact .inl ⟨Bool.eq_false_iff.mpr huna, rfl⟩

theorem applyAck_phase {c c' : Connection} {s : Segment} (h : c.applyAck s = some c') :
    c'.phase = c.phase := by
  obtain ⟨-, rfl⟩ | ⟨-, -, rfl⟩ := applyAck_eq_some h <;> rfl

theorem applyAck_finSeq {c c' : Connection} {s : Segment} (h : c.applyAck s = some c') :
    c'.finSeq = c.finSeq := by
  obtain ⟨-, rfl⟩ | ⟨-, -, rfl⟩ := applyAck_eq_some h <;> rfl

/-- The connection after the payload of `s` was taken. -/
def afterPayload (c : Connection) (s : Segment) : Connection :=
  { c with
    uplink := c.uplink.extend s.payload
    counters.bytesFromClients :=
      c.counters.bytesFromClients + UInt64.ofNat s.payload.length }

theorem acceptPayload_nil {c : Connection} {s : Segment} (h : s.payload = []) :
    c.acceptPayload s = some c := by
  rw [acceptPayload, if_pos (by simp [h])]

theorem acceptPayload_eq_some {c c' : Connection} {s : Segment} (h : c.acceptPayload s = some c')
    (hne : s.payload ≠ []) :
    s.seq = c.rcvNxt ∧ s.payload.length ≤ c.rcvWnd ∧ c' = c.afterPayload s := by
  unfold acceptPayload at h
  split at h
  · simp_all
  · split at h
    · cases h
    · rename_i u hu
      obtain ⟨hseq, hwin, rfl⟩ := Uplink.write_eq_ok hu hne
      cases h
      exact ⟨hseq, hwin, rfl⟩

theorem acceptPayload_phase {c c' : Connection} {s : Segment} (h : c.acceptPayload s = some c') :
    c'.phase = c.phase := by
  by_cases hne : s.payload = []
  · cases (acceptPayload_nil hne).symm.trans h
    rfl
  · obtain ⟨-, -, rfl⟩ := acceptPayload_eq_some h hne
    rfl

/-! ## What the segments occupy -/

theorem length_segmentAt (c : Connection) (seq : SeqNum) (flags : Flags) (payload : Bytes) :
    (c.segmentAt seq flags payload).length =
      payload.length + ((flags.has .syn).toNat + (flags.has .fin).toNat) := Nat.add_assoc _ _ _

theorem length_ackSegment (c : Connection) : c.ackSegment.length = 0 := by
  rw [ackSegment, length_segmentAt]
  decide

theorem length_finSegment (c : Connection) (seq : SeqNum) : (c.finSegment seq).length = 1 := by
  rw [finSegment, length_segmentAt]
  decide

theorem length_dataSegment (c : Connection) (seq : SeqNum) (data : Bytes) :
    (c.dataSegment seq data).length = data.length := by
  have hbare :
      ((Flags.ack ||| .psh).has .syn).toNat + ((Flags.ack ||| .psh).has .fin).toNat = 0 := by
    decide
  rw [dataSegment, length_segmentAt, hbare]
  rfl

/-- A segment without payload, SYN and FIN occupies nothing. -/
theorem length_eq_zero_iff {p : Segment} :
    p.length = 0 ↔ p.payload = [] ∧ p.isSyn = false ∧ p.isFin = false := by
  unfold Segment.length
  cases p.isSyn <;> cases p.isFin <;> simp

theorem rst_bare : Flags.rst.has .syn = false ∧ Flags.rst.has .fin = false := by decide

theorem length_resetSegment (c : Connection) : c.resetSegment.length = 0 :=
  length_eq_zero_iff.mpr ⟨rfl, rst_bare⟩

theorem isRst_resetSegment (c : Connection) : c.resetSegment.isRst := by
  show Flags.rst.has .rst
  decide

theorem length_resetReply {s r : Segment} (h : s.resetReply = some r) : r.length = 0 := by
  have hboth : (Flags.rst ||| .ack).has .syn = false ∧ (Flags.rst ||| .ack).has .fin = false := by
    decide
  unfold Segment.resetReply at h
  split at h
  · cases h
  · split at h <;> cases h
    · exact length_eq_zero_iff.mpr ⟨rfl, rst_bare⟩
    · exact length_eq_zero_iff.mpr ⟨rfl, hboth⟩

theorem isRst_resetReply {s r : Segment} (h : s.resetReply = some r) : r.isRst := by
  have hone : Flags.rst.has .rst ∧ (Flags.rst ||| .ack).has .rst := by decide
  unfold Segment.resetReply at h
  split at h
  · cases h
  · split at h <;> cases h
    · exact hone.1
    · exact hone.2

/-! ## The steps -/

/-- The outcomes that close a connection as it is. -/
inductive Closing (e : Event) (c : Connection) : Outcome → Prop
  /-- Both FINs are acknowledged. -/
  | orderly (is_closing : c.phase = .closing) (is_acknowledged : c.isFinAcknowledged) :
      Closing e c (c.enter .closed)
  | aborted : Closing e c ((c.enter .closed).command .abortRelay)
  | reset : Closing e c ((c.enter .closed).sendReset.command .abortRelay)
  | refused {s : Segment} (is_segment : e = .segment s) (is_listen : c.phase = .listen) :
      Closing e c (((c.enter .closed).command .abortRelay).sendResetFor s)
  | unreachable (is_unreachable : e = .relayUnreachable) : Closing e c c.refuseHeld
  /-- The relay fails, or it is reached and what is held for it is no SYN. -/
  | failed (is_relay : (∃ reason, e = .relayFailed reason) ∨ e = .relayConnected)
      (is_held : c.phase = .held) :
      Closing e c (c.refuseHeld.command .abortRelay)

/-- The elementary steps of handling the event `e` at time `now`. -/
inductive Step (e : Event) (now wall : Nat) : Outcome → Outcome → Prop
  /-- The client's segment is counted. -/
  | recorded {c : Connection} {s : Segment} (is_segment : e = .segment s) :
      Step e now wall c.stay
        { c with counters := c.counters.record c.phase, lastUsed := now }.stay
  /-- The relay's data count as use. -/
  | touched {c : Connection} (is_data : e = .relayData) :
      Step e now wall c.stay { c with lastUsed := now }.stay
  /-- The relay has finished. -/
  | relayDone {c : Connection} (is_closed : e = .relayClosed) :
      Step e now wall c.stay { c with relayDone := true }.stay
  /-- The relay was reached, and there is no SYN to accept. -/
  | listened {c : Connection} (is_connected : e = .relayConnected) (is_held : c.phase = .held)
      (holds_none : c.heldSyn = none) :
      Step e now wall c.stay { c with phase := .listen, heldSyn := none }.stay
  /-- The relay was reached, and the held SYN is answered. -/
  | heldSynAccepted {c : Connection} {s : Segment} (is_connected : e = .relayConnected)
      (is_held : c.phase = .held) (holds : c.heldSyn = some s) (is_syn : s.isBareSyn) :
      Step e now wall c.stay
        ({ c with phase := .listen, heldSyn := none }.acceptSyn s now wall)
  /-- A SYN is answered; an earlier handshake starts over. -/
  | synAccepted {c : Connection} {s : Segment} (is_segment : e = .segment s)
      (is_opening : c.phase = .listen ∨ c.phase = .synReceived) (is_syn : s.isBareSyn) :
      Step e now wall c.stay (c.acceptSyn s now wall)
  /-- The SYN-ACK is repeated for a segment without acknowledgment. -/
  | synAckRepeated {c : Connection} {s : Segment} (is_segment : e = .segment s)
      (not_syn : s.isBareSyn = false) (is_opening : c.phase = .synReceived) :
      Step e now wall c.stay ({ c with synAckSentAt := some now }.stay.send c.synAckSegment)
  /-- The SYN-ACK is sent again by the timer. -/
  | synAckResent {c : Connection} (is_tick : e = .tick) (is_opening : c.phase = .synReceived) :
      Step e now wall c.stay
        ({ c with synAckSentAt := some now, counters.resends := c.counters.resends + 1 }.stay.send
          c.synAckSegment)
  /-- An acknowledgment of the handshake that acknowledges something else is refused. -/
  | ackRefused {c : Connection} {s : Segment} (is_segment : e = .segment s)
      (is_opening : c.phase = .synReceived) :
      Step e now wall c.stay (c.stay.sendResetFor s)
  /-- The handshake is complete. -/
  | established {c : Connection} {s : Segment} (is_segment : e = .segment s)
      (is_opening : c.phase = .synReceived) (in_window : c.uplink.inWindow s.seq s.payload.length)
      (is_ack : s.isAck) (acknowledges : (SeqRange.mk c.iss c.sndNxt).contains s.ack) :
      Step e now wall c.stay { c with synAckSentAt := none, phase := .established }.stay
  /-- The acknowledgment of a segment is applied; it is not the one that ends phase LastAck. -/
  | acknowledged {c c' : Connection} {s : Segment} (is_segment : e = .segment s) (is_ack : s.isAck)
      (is_synchronized : c.phase.isSynchronized)
      (not_last : ∀ fin, c.phase = .lastAck → c.finSeq = some fin → s.ack ≠ fin.next)
      (applied : c.applyAck s = some c') :
      Step e now wall c.stay c'.stay
  /-- In phase LastAck our FIN is acknowledged. -/
  | lastAcknowledged {c c' : Connection} {s : Segment} {fin : SeqNum}
      (is_segment : e = .segment s) (is_lastAck : c.phase = .lastAck)
      (is_fin : c.finSeq = some fin) (is_ack : s.ack = fin.next)
      (applied : c.applyAck s = some c') :
      Step e now wall c.stay (c'.enter .closed)
  /-- The payload of a segment is taken. -/
  | received {c c' : Connection} {s : Segment} (is_segment : e = .segment s)
      (can_receive : c.phase.canReceive) (not_empty : s.payload ≠ [])
      (accepted : c.acceptPayload s = some c') :
      Step e now wall c.stay c'.stay
  /-- The client's FIN comes while the relay may still send. -/
  | finReceived {c : Connection} {s : Segment} (is_segment : e = .segment s) (is_fin : s.isFin)
      (is_established : c.phase = .established) :
      Step e now wall c.stay ((c.acceptFin.enter .closeWait).sendAck.command .finishUplink)
  /-- The client's FIN comes behind ours, which may be acknowledged or not. -/
  | lastFinReceived {c : Connection} {s : Segment} {p : Phase} (is_segment : e = .segment s)
      (is_fin : s.isFin)
      (ends : c.phase = .finWait1 ∧ p = .closing ∨ c.phase = .finWait2 ∧ p = .closed) :
      Step e now wall c.stay (c.acceptFin.enter p).sendAck
  /-- Our FIN is acknowledged, and the client may still send. -/
  | finAcknowledged {c : Connection} {s : Segment} (is_segment : e = .segment s)
      (not_fin : s.isFin = false) (is_waiting : c.phase = .finWait1)
      (is_acknowledged : c.isFinAcknowledged) :
      Step e now wall c.stay (c.enter .finWait2)
  /-- A bare acknowledgment is sent. -/
  | answered {c : Connection} (is_greeted : c.phase.isGreeted) :
      Step e now wall c.stay c.stay.sendAck
  /-- New data is sent. -/
  | dataSent {c : Connection} (can_send : c.phase.canSend) (not_empty : c.nextSize ≠ 0) :
      Step e now wall c.stay (c.sendNext now c.nextSize)
  /-- The oldest segment is sent again by the timer. -/
  | resent {c : Connection} {x : SentSegment} {rest : List SentSegment} (is_tick : e = .tick)
      (is_synchronized : c.phase.isSynchronized) (is_oldest : c.resends.segments = x :: rest)
      (is_due : c.resends.due now = .ok x) :
      Step e now wall c.stay
        ({ c with
            resends.segments := { x with sentAt := now } :: rest
            counters.resends := c.counters.resends + 1 }.stay.send
          (if x.isFin then c.finSegment x.seq else c.dataSegment x.seq x.data))
  /-- In phase LastAck the FIN is repeated for any segment that does not acknowledge it. -/
  | finRepeated {c : Connection} {fin : SeqNum} (is_lastAck : c.phase = .lastAck)
      (is_fin : c.finSeq = some fin) :
      Step e now wall c.stay (c.stay.send (c.finSegment fin))
  /-- The FIN goes out behind what was sent before. -/
  | finSent {o : Outcome} (no_command : o.commands = []) (can_send : o.connection.phase.canSend)
      (is_ready : o.connection.isReadyToClose) :
      Step e now wall o (o.sendFinIfReady now)
  | closed {c : Connection} {o : Outcome} (closes : Closing e c o) : Step e now wall c.stay o
  /-- The end of the event. -/
  | settled {o : Outcome} : Step e now wall o (settle o)

/-- Answering a segment as one without a connection changes only the counters. -/
theorem sendResetFor_connection (o : Outcome) (s : Segment) :
    ∃ counters, (o.sendResetFor s).connection = { o.connection with counters } := by
  unfold Outcome.sendResetFor
  split <;> exact ⟨_, rfl⟩

/-- What answers a segment without a connection occupies no sequence number. -/
theorem sendResetFor_segments (o : Outcome) (s : Segment) :
    ∃ resets, (o.sendResetFor s).segments = o.segments ++ resets ∧ ∀ p ∈ resets, p.length = 0 := by
  unfold Outcome.sendResetFor
  split
  · exact ⟨[], by simp, by simp⟩
  · rename_i r hr
    exact ⟨[r], rfl, by simpa using length_resetReply hr⟩

theorem forall_sendResetFor {o : Outcome} {s : Segment} {P : Segment → Prop}
    (h : o.segments = []) (hreply : ∀ r, s.resetReply = some r → P r) :
    ∀ p ∈ (o.sendResetFor s).segments, P p := by
  unfold Outcome.sendResetFor
  split
  · simp [h]
  · rename_i r hr
    simpa [Outcome.send, h] using hreply r hr

/-- Closing a connection changes its phase, and beside it only the held SYN and the counters. -/
theorem Closing.connection_eq {e : Event} {c : Connection} {o : Outcome} (h : Closing e c o) :
    ∃ held counters, o.connection = { c with phase := .closed, heldSyn := held, counters } := by
  have hheld : ∃ held counters,
      c.refuseHeld.connection = { c with phase := .closed, heldSyn := held, counters } := by
    unfold refuseHeld
    split
    · exact ⟨_, _, rfl⟩
    · rename_i s _
      obtain ⟨k, hk⟩ := sendResetFor_connection ({ c with heldSyn := none }.enter .closed) s
      exact ⟨_, k, hk⟩
  cases h with
  | orderly _ _ => exact ⟨_, _, rfl⟩
  | aborted => exact ⟨_, _, rfl⟩
  | reset => exact ⟨_, _, rfl⟩
  | @refused s _ _ =>
    obtain ⟨k, hk⟩ := sendResetFor_connection ((c.enter .closed).command .abortRelay) s
    exact ⟨_, k, hk⟩
  | unreachable _ => exact hheld
  | failed _ _ => exact hheld

/-- The held SYN is kept or refused. -/
theorem Closing.heldSyn {e : Event} {c : Connection} {o : Outcome} (h : Closing e c o) :
    o.connection.heldSyn = c.heldSyn ∨ o.connection.heldSyn = none := by
  have hheld : c.refuseHeld.connection.heldSyn = none := by
    unfold refuseHeld
    split
    · assumption
    · rename_i s _
      obtain ⟨k, hk⟩ := sendResetFor_connection ({ c with heldSyn := none }.enter .closed) s
      rw [hk]
      rfl
  cases h with
  | orderly _ _ => exact .inl rfl
  | aborted => exact .inl rfl
  | reset => exact .inl rfl
  | @refused s _ _ =>
    obtain ⟨k, hk⟩ := sendResetFor_connection ((c.enter .closed).command .abortRelay) s
    rw [hk]
    exact .inl rfl
  | unreachable _ => exact .inr hheld
  | failed _ _ => exact .inr hheld

/-- What is sent on closing is a reset, of the connection itself or in reply to a segment. -/
theorem Closing.forall_segments {e : Event} {c : Connection} {o : Outcome} {P : Segment → Prop}
    (h : Closing e c o) (hown : ∀ c : Connection, P c.resetSegment)
    (hreply : ∀ s r, Segment.resetReply s = some r → P r) : ∀ p ∈ o.segments, P p := by
  have hheld : ∀ p ∈ c.refuseHeld.segments, P p := by
    unfold refuseHeld
    split
    · simp [enter]
    · exact forall_sendResetFor rfl (hreply _)
  cases h with
  | orderly _ _ => simp [enter]
  | aborted => simp [enter, Outcome.command]
  | reset => simp [enter, Outcome.command, Outcome.sendReset, Outcome.send, hown]
  | refused _ _ => exact forall_sendResetFor rfl (hreply _)
  | unreachable _ => exact hheld
  | failed _ _ => exact hheld

/-- It occupies no sequence number. -/
theorem Closing.segments_length {e : Event} {c : Connection} {o : Outcome} (h : Closing e c o) :
    ∀ p ∈ o.segments, p.length = 0 :=
  h.forall_segments length_resetSegment fun _ _ => length_resetReply

theorem Closing.segments_isRst {e : Event} {c : Connection} {o : Outcome} (h : Closing e c o) :
    ∀ p ∈ o.segments, p.isRst :=
  h.forall_segments isRst_resetSegment fun _ _ => isRst_resetReply

/-- Settling notes the window, and empties the queue of a closed connection. -/
theorem settle_connection (o : Outcome) :
    ∃ advertised, (settle o).connection =
      { o.connection with
        advertised
        resends := if o.connection.phase = .closed then o.connection.resends.clear
          else o.connection.resends } := by
  unfold settle
  by_cases hseg : o.segments.isEmpty <;> by_cases hp : o.connection.phase = .closed <;>
    simp only [hseg, hp, if_true, if_false, reduceCtorEq] <;> exact ⟨_, rfl⟩

/-- A sequence of elementary steps. -/
abbrev Path (e : Event) (now wall : Nat) : Outcome → Outcome → Prop :=
  Relation.ReflTransGen (Step e now wall)

/-! ## Every event is a sequence of steps -/

section Paths

open Relation (ReflTransGen)

variable {e : Event} {now wall : Nat} {c : Connection} {s : Segment}

theorem Phase.isGreeted_of_isSynchronized {p : Phase} (h : p.isSynchronized) : p.isGreeted := by
  cases p <;> simp_all [Phase.isSynchronized, Phase.isGreeted]

theorem sendAck_path (h : c.phase.isSynchronized) : Path e now wall c.stay c.stay.sendAck :=
  .single (.answered (Phase.isGreeted_of_isSynchronized h))

theorem sendFinIfReady_path {o : Outcome} (hcmd : o.commands = [])
    (hsend : o.connection.phase.canSend) : Path e now wall o (o.sendFinIfReady now) := by
  by_cases hready : o.connection.isReadyToClose
  · exact .single (.finSent hcmd hsend hready)
  · rw [Outcome.sendFinIfReady, if_neg hready]

/-- Data, if there are any to send, and then the FIN if it is time for it. -/
theorem sendPending_path (hsend : c.phase.canSend) :
    Path e now wall c.stay (c.sendPending now) := by
  rw [sendPending, Outcome.sendData]
  simp only [stay, sendData_eq]
  by_cases hz : c.nextSize = 0
  · rw [if_pos hz]
    exact sendFinIfReady_path rfl hsend
  · rw [if_neg hz]
    exact .head (.dataSent hsend hz)
      (sendFinIfReady_path (o := c.sendNext now c.nextSize) rfl hsend)

theorem screen_path {o : Outcome} (hsync : c.phase.isSynchronized) (h : c.screen s = some o) :
    Path e now wall c.stay o := by
  unfold screen at h
  split at h
  · split at h
    · cases h
      exact .single (.closed .aborted)
    · cases h
      exact sendAck_path hsync
  · split at h
    · cases h
      exact sendAck_path hsync
    · split at h
      · cases h
        exact .single (.closed .reset)
      · split at h
        · cases h
          exact .refl
        · cases h

/-- What passes the screen carries an acknowledgment. -/
theorem screen_isAck (h : c.screen s = none) : s.isAck := by
  unfold screen at h
  split at h
  · split at h <;> cases h
  · split at h
    · cases h
    · split at h
      · cases h
      · split at h
        · cases h
        · simp_all

/-- The payload is taken or was empty. -/
theorem acceptPayload_path {c' : Connection} (hs : e = .segment s) (hp : c.phase.canReceive)
    (h : c.acceptPayload s = some c') : Path e now wall c.stay c'.stay := by
  by_cases hne : s.payload = []
  · cases (acceptPayload_nil hne).symm.trans h
    exact .refl
  · exact .single (.received hs hp hne h)

theorem onEstablished_path (hs : e = .segment s) (hp : c.phase = .established) :
    Path e now wall c.stay (c.onEstablished s now) := by
  have hsync : c.phase.isSynchronized := hp ▸ rfl
  unfold onEstablished
  split
  · exact screen_path hsync (by assumption)
  · rename_i hscreen
    split
    · exact sendAck_path hsync
    · rename_i c₁ hack
      have hp₁ : c₁.phase = .established := (applyAck_phase hack).trans hp
      refine .head (.acknowledged hs (screen_isAck hscreen) hsync (by simp [hp]) hack) ?_
      split
      · exact sendAck_path (hp₁ ▸ rfl)
      · rename_i c₂ hpay
        have hp₂ : c₂.phase = .established := (acceptPayload_phase hpay).trans hp₁
        have hsend : c₂.phase.canSend := hp₂ ▸ rfl
        refine (acceptPayload_path hs (hp₁ ▸ rfl) hpay).trans ?_
        split
        · rename_i hfin
          exact .single (.finReceived hs hfin hp₂)
        · rw [sendData_eq]
          by_cases hz : c₂.nextSize = 0
          · simp only [if_pos hz]
            split
            · exact sendFinIfReady_path rfl hsend
            · exact (sendAck_path (hp₂ ▸ rfl)).trans (sendFinIfReady_path rfl hsend)
          · simp only [if_neg hz]
            exact .head (.dataSent hsend hz)
              (sendFinIfReady_path (o := c₂.sendNext now c₂.nextSize) rfl hsend)

theorem onCloseWait_path (hs : e = .segment s) (hp : c.phase = .closeWait) :
    Path e now wall c.stay (c.onCloseWait s now) := by
  have hsync : c.phase.isSynchronized := hp ▸ rfl
  unfold onCloseWait
  split
  · exact screen_path hsync (by assumption)
  · rename_i hscreen
    split
    · exact sendAck_path hsync
    · rename_i c₁ hack
      have hp₁ : c₁.phase = .closeWait := (applyAck_phase hack).trans hp
      refine .head (.acknowledged hs (screen_isAck hscreen) hsync (by simp [hp]) hack) ?_
      split
      · exact sendPending_path (hp₁ ▸ rfl)
      · exact sendAck_path (hp₁ ▸ rfl)

/-- Both phases that wait for the client's FIN behind ours: a segment without FIN leads to `next`,
which is reached by a step of its own. -/
theorem onFinWait_path {afterFin : Phase} {next : Connection → Phase} (hs : e = .segment s)
    (hp : c.phase = .finWait1 ∧ afterFin = .closing ∨ c.phase = .finWait2 ∧ afterFin = .closed)
    (hnext : ∀ c' : Connection, c'.phase = c.phase → s.isFin = false →
      (next c').isSynchronized ∧ Path e now wall c'.stay (c'.enter (next c'))) :
    Path e now wall c.stay (c.onFinWait s afterFin next) := by
  have hsync : c.phase.isSynchronized := by
    rcases hp with ⟨hp, -⟩ | ⟨hp, -⟩ <;> exact hp ▸ rfl
  have hnot : ∀ fin, c.phase = .lastAck → c.finSeq = some fin → s.ack ≠ fin.next := by
    rcases hp with ⟨hp, -⟩ | ⟨hp, -⟩ <;> simp [hp]
  unfold onFinWait
  split
  · exact screen_path hsync (by assumption)
  · rename_i hscreen
    split
    · exact sendAck_path hsync
    · rename_i c₁ hack
      have hp₁ : c₁.phase = c.phase := applyAck_phase hack
      refine .head (.acknowledged hs (screen_isAck hscreen) hsync hnot hack) ?_
      obtain ⟨c₂, hc₂⟩ : ∃ c₂, c₂ = (c₁.acceptPayload s).getD c₁ := ⟨_, rfl⟩
      have htaken : c₂.phase = c.phase ∧ Path e now wall c₁.stay c₂.stay := by
        cases hpay : c₁.acceptPayload s with
        | none =>
          rw [hc₂, hpay]
          exact ⟨hp₁, .refl⟩
        | some c' =>
          have hreceive : c₁.phase.canReceive := by
            rw [hp₁]
            rcases hp with ⟨hp, -⟩ | ⟨hp, -⟩ <;> exact hp ▸ rfl
          rw [hc₂, hpay]
          exact ⟨(acceptPayload_phase hpay).trans hp₁, acceptPayload_path hs hreceive hpay⟩
      simp only [← hc₂]
      refine htaken.2.trans ?_
      split
      · rename_i hfin
        rw [← htaken.1] at hp
        exact .single (.lastFinReceived hs hfin hp)
      · rename_i hfin
        obtain ⟨hsync', hpath⟩ := hnext c₂ htaken.1 (Bool.eq_false_iff.mpr hfin)
        split
        · exact hpath
        · exact hpath.trans (sendAck_path (c := { c₂ with phase := next c₂ }) hsync')

theorem onFinWait1_path (hs : e = .segment s) (hp : c.phase = .finWait1) :
    Path e now wall c.stay (c.onFinWait1 s) := by
  refine onFinWait_path hs (.inl ⟨hp, rfl⟩) fun c' hp' hfin => ?_
  by_cases hack : c'.isFinAcknowledged
  · rw [if_pos hack]
    exact ⟨rfl, .single (.finAcknowledged hs hfin (hp'.trans hp) hack)⟩
  · rw [if_neg hack, hp', hp]
    refine ⟨rfl, ?_⟩
    rw [← hp, ← hp']
    exact .refl

theorem onFinWait2_path (hs : e = .segment s) (hp : c.phase = .finWait2) :
    Path e now wall c.stay (c.onFinWait2 s) := by
  refine onFinWait_path hs (.inr ⟨hp, rfl⟩) fun c' hp' _ => ⟨?_, .refl⟩
  rw [hp', hp]
  rfl

theorem onClosing_path (hs : e = .segment s) (hp : c.phase = .closing) :
    Path e now wall c.stay (c.onClosing s) := by
  have hsync : c.phase.isSynchronized := hp ▸ rfl
  unfold onClosing
  split
  · exact screen_path hsync (by assumption)
  · rename_i hscreen
    split
    · exact sendAck_path hsync
    · rename_i c₁ hack
      refine .head (.acknowledged hs (screen_isAck hscreen) hsync (by simp [hp]) hack) ?_
      split
      · rename_i hfin
        exact .single (.closed (.orderly ((applyAck_phase hack).trans hp) hfin))
      · exact .refl

theorem onLastAck_path (hs : e = .segment s) (hp : c.phase = .lastAck) :
    Path e now wall c.stay (c.onLastAck s) := by
  have hsync : c.phase.isSynchronized := hp ▸ rfl
  unfold onLastAck
  split
  · exact screen_path hsync (by assumption)
  · exact .refl
  · rename_i fin hscreen hfin
    split
    · exact .single (.finRepeated hp hfin)
    · rename_i c₁ hack
      split
      · rename_i hat
        exact .single (.lastAcknowledged hs hp hfin hat hack)
      · rename_i hat
        have hnot : ∀ fin', c.phase = .lastAck → c.finSeq = some fin' → s.ack ≠ fin'.next := by
          rintro fin' - hfin'
          cases hfin.symm.trans hfin'
          exact hat
        exact .head (.acknowledged hs (screen_isAck hscreen) hsync hnot hack)
          (.single (.finRepeated ((applyAck_phase hack).trans hp)
            ((applyAck_finSeq hack).trans hfin)))

theorem onListen_path (hs : e = .segment s) (hp : c.phase = .listen) (hsyn : s.isBareSyn →
    Path e now wall c.stay (c.acceptSyn s now wall)) :
    Path e now wall c.stay (c.onListen s now wall) := by
  unfold onListen
  split
  · exact .single (.closed .aborted)
  · split
    · exact .single (.closed (.refused hs hp))
    · rename_i hbare
      exact hsyn (by simpa using hbare)

theorem onSynReceived_path (hs : e = .segment s) (hp : c.phase = .synReceived) :
    Path e now wall c.stay (c.onSynReceived s now wall) := by
  unfold onSynReceived
  split
  · split
    · exact .single (.closed .aborted)
    · exact .refl
  · split
    · rename_i hbare
      exact .single (.synAccepted hs (.inr hp) hbare)
    · rename_i hbare
      split
      · exact .single (.answered (hp ▸ rfl))
      · rename_i hwin
        split
        · exact .single (.synAckRepeated hs (Bool.eq_false_iff.mpr hbare) hp)
        · rename_i hack
          split
          · exact .single (.ackRefused hs hp)
          · rename_i hrange
            refine .head (.established hs hp ?_ ?_ ?_) (onEstablished_path hs rfl)
            all_goals simp_all

theorem onSegment_path (hs : e = .segment s) :
    Path e now wall c.stay (c.onSegment s now wall) := by
  unfold onSegment
  split
  · exact .refl
  · rename_i hp
    exact onListen_path hs hp fun h => .single (.synAccepted hs (.inl hp) h)
  · exact onSynReceived_path hs (by assumption)
  · exact onEstablished_path hs (by assumption)
  · exact onFinWait1_path hs (by assumption)
  · exact onFinWait2_path hs (by assumption)
  · exact onCloseWait_path hs (by assumption)
  · exact onClosing_path hs (by assumption)
  · exact onLastAck_path hs (by assumption)
  · exact .refl

theorem sendResetFor_command (o : Outcome) (k : Command) :
    (o.command k).sendResetFor s = (o.sendResetFor s).command k := by
  unfold Outcome.sendResetFor
  split <;> rfl

/-- A held segment that is no SYN is refused as if the relay had failed. -/
theorem onListen_of_not_isBareSyn (hheld : c.heldSyn = some s) (hbare : ¬ s.isBareSyn) :
    ({ c with phase := .listen, heldSyn := none } : Connection).onListen s now wall =
      c.refuseHeld.command .abortRelay := by
  have hnot : (!s.isBareSyn) = true := by simpa using hbare
  have hrefuse : c.refuseHeld = ({ c with heldSyn := none }.enter .closed).sendResetFor s := by
    rw [refuseHeld, hheld]
  rw [onListen, hrefuse, if_pos hnot, ← sendResetFor_command]
  split
  · rename_i hrst
    rw [Outcome.sendResetFor, Segment.resetReply, if_pos hrst]
    rfl
  · rfl

theorem onRelayConnected_path (he : e = .relayConnected) :
    Path e now wall c.stay (c.onRelayConnected now wall) := by
  unfold onRelayConnected
  split
  · exact .refl
  · rename_i hheld
    have hp : c.phase = .held := Decidable.not_not.mp hheld
    cases hsyn : c.heldSyn with
    | none =>
      have hstep : Step e now wall c.stay { c with phase := .listen, heldSyn := none }.stay :=
        .listened he hp hsyn
      simp only
      rw [← hsyn]
      rw [← hsyn] at hstep
      exact .single hstep
    | some syn =>
      simp only
      by_cases hbare : syn.isBareSyn
      · have honListen :
            ({ c with phase := .listen, heldSyn := none } : Connection).onListen syn now wall =
              { c with phase := .listen, heldSyn := none }.acceptSyn syn now wall := by
          have hrst : syn.isRst = false := by
            simp only [Segment.isBareSyn, Bool.and_eq_true, Bool.not_eq_true'] at hbare
            exact hbare.2
          rw [onListen, hrst, hbare]
          rfl
        rw [honListen]
        exact .single (.heldSynAccepted he hp hsyn hbare)
      · rw [onListen_of_not_isBareSyn hsyn hbare]
        exact .single (.closed (.failed (.inr he) hp))

theorem onRelayData_path : Path e now wall c.stay (c.onRelayData now) := by
  unfold onRelayData
  split
  · exact sendPending_path (by assumption)
  · exact .refl

theorem onRelayFailed_path {reason : String} (he : e = .relayFailed reason) :
    Path e now wall c.stay c.onRelayFailed := by
  unfold onRelayFailed
  split
  · exact .single (.closed (.failed (.inl ⟨reason, he⟩) (by assumption)))
  · exact .single (.closed .aborted)
  · exact .single (.closed .aborted)
  · exact .single (.closed .reset)

theorem resend_path (he : e = .tick) (hsync : c.phase.isSynchronized) :
    Path e now wall c.stay (c.resend now) := by
  unfold resend
  split
  · rename_i x hdue
    obtain ⟨rest, hq, hmark⟩ := ResendQueue.due_eq_ok hdue
    rw [hmark]
    exact .single (.resent he hsync hq hdue)
  · exact onRelayData_path

/-- If the timer finds nothing to send, the connection is as it was. -/
theorem resend_eq_stay (h : (c.resend now).segments = []) : c.resend now = c.stay := by
  unfold resend at h ⊢
  split at h
  · simp [Outcome.send] at h
  · split at h
    · rename_i hsend
      rw [if_pos hsend]
      rw [sendPending, Outcome.sendData] at h ⊢
      simp only [stay, sendData_eq] at h ⊢
      have hfin : ∀ o : Outcome, o.connection.phase.canSend → (o.sendFinIfReady now).segments = [] →
          o.sendFinIfReady now = o := by
        intro o ho hnil
        by_cases hready : o.connection.isReadyToClose
        · rw [sendFinIfReady_eq now ho hready] at hnil
          simp at hnil
        · rw [Outcome.sendFinIfReady, if_neg hready]
      by_cases hz : c.nextSize = 0
      · rw [if_pos hz] at h ⊢
        exact hfin _ hsend h
      · rw [if_neg hz] at h
        have hkept := hfin (c.sendNext now c.nextSize) hsend h
        have hnil : (c.sendNext now c.nextSize).segments = [] := by rw [← hkept]; exact h
        simp [sendNext, Outcome.send] at hnil
    · rename_i hsend
      rw [if_neg hsend]

theorem resendSynAck_path (he : e = .tick) (hp : c.phase = .synReceived) :
    Path e now wall c.stay (c.resendSynAck now) := by
  unfold resendSynAck
  simp only
  split
  · exact .single (.synAckResent he hp)
  · exact .refl

theorem onTick_path (he : e = .tick) : Path e now wall c.stay (c.onTick now) := by
  unfold onTick
  split
  · exact .refl
  · exact .refl
  · rename_i p hheld hclosed
    split
    · split
      · exact .single (.closed .aborted)
      · exact .single (.closed .reset)
    · split
      · exact .refl
      · rename_i hlisten
        split
        · exact resendSynAck_path he (by assumption)
        · rename_i hsyn
          have hsync : c.phase.isSynchronized := by
            cases hp : c.phase <;> simp_all [Phase.isSynchronized]
          split
          · rename_i hfin
            rw [Bool.and_eq_true, decide_eq_true_eq] at hfin
            exact .single (.closed (.orderly hfin.1 hfin.2))
          · simp only
            split
            · rename_i hopen
              rw [Bool.and_eq_true, List.isEmpty_iff] at hopen
              rw [resend_eq_stay hopen.1]
              exact sendAck_path hsync
            · exact resend_path he hsync

theorem dispatch_path : Path e now wall c.stay (c.dispatch e now wall) := by
  unfold dispatch
  split
  · exact .head (.recorded rfl) (onSegment_path rfl)
  · exact onRelayConnected_path rfl
  · exact .single (.closed (.unreachable rfl))
  · exact .head (.touched rfl) onRelayData_path
  · exact .head (.relayDone rfl) onRelayData_path
  · exact onRelayFailed_path rfl
  · exact onTick_path rfl

/-- Every event is handled by elementary steps, of which settling is the last. -/
theorem process_path : Path e now wall c.stay (c.process e now wall) :=
  dispatch_path.tail .settled

end Paths

end Connection

end TcpGateway
