import TcpGateway.Proofs.Finish
import TcpGateway.Proofs.Intake
import TcpGateway.Proofs.Pacing
import TcpGateway.Proofs.Recording

/-!
# The counters tell what happened

A connection counts its resets, the payload of the two streams, what its timer sends again and the
segments that it handles, each in the helper that has to do with it and not where the segments
leave.  Here the counters are compared with the history of the run, which knows only the moves, the
segments sent and the buffers (`Counted`).

Every elementary step counts what it sends and takes (`Step.counts`), and therefore so does an event
(`process_counts`).  Two counters are no matter of single steps.  Whether the timer repeats a
segment of the queue depends on the queue that the tick found, so ticks are gone through by what
they can do (`onTick_countsResends`); and that a segment is counted once under its phase is the
subject of `Proofs/Recording.lean`.
-/

namespace TcpGateway

/-- Whether `p` is a SYN-ACK or repeats a segment of the queue. -/
def Connection.isResend (c : Connection) (p : Segment) : Bool :=
  p.isSyn && p.isAck || c.resends.segments.any (·.piece == p.piece)

/-- The segments counted, in whatever phase. -/
def Counters.handled (k : Counters) : UInt64 := Phase.all.foldl (fun n p => n + k.inPhase p) 0

namespace Stage

/-- The resets that the stage sends. -/
def resets (st : Stage) : List Segment := st.outcome.segments.filter (·.isRst)

/-- What the timer sends again. -/
def resent (st : Stage) : List Segment :=
  if st.isTick then st.outcome.segments.filter st.before.isResend else []

/-- The phase that the client's segment finds, if the stage handles one. -/
def phase? (st : Stage) : Option Phase :=
  match st.move with
  | .event (.segment _) _ _ => some st.before.phase
  | _ => none

end Stage

namespace History

/-- All resets sent. -/
def resets (h : History) : List Segment := h.flatMap Stage.resets

/-- All that the timer sent again. -/
def resent (h : History) : List Segment := h.flatMap Stage.resent

/-- How many segments of the client were handled in phase `p`. -/
def handledIn (h : History) (p : Phase) : Nat := h.countP (·.phase? == some p)

/-- How many segments of the client were handled. -/
def handled (h : History) : Nat := h.countP (·.phase?.isSome)

end History

/-- A number of steps that was counted in 64 bits leads to the same place on the circle. -/
theorem SeqNum.add_toNat_ofNat (s : SeqNum) (m n : Nat) :
    s.add ((UInt64.ofNat m).toNat + n) = s.add (m + n) := by
  have hword : UInt32.ofNat ((UInt64.ofNat m).toNat + n) = UInt32.ofNat (m + n) := by
    rw [← UInt32.toNat_inj, UInt32.toNat_ofNat', UInt32.toNat_ofNat', UInt64.toNat_ofNat']
    omega
  rw [add, hword, add]

namespace History

theorem handledIn_concat (h : History) (st : Stage) (p : Phase) :
    handledIn (h ++ [st]) p = h.handledIn p + if st.phase? = some p then 1 else 0 := by
  simp [handledIn, List.countP_append, List.countP_cons]

theorem handled_concat (h : History) (st : Stage) :
    handled (h ++ [st]) = h.handled + st.phase?.isSome.toNat := by
  cases hp : st.phase? <;> simp [handled, List.countP_append, hp]

end History

theorem Counters.handled_congr {k k' : Counters} (h : k'.inPhase = k.inPhase) :
    k'.handled = k.handled := by
  rw [handled, handled, h]

theorem Counters.handled_record (k : Counters) (p : Phase) :
    (k.record p).handled = k.handled + 1 := by
  -- Written out, the sum has one term that is larger by one.
  cases p <;>
    simp only [handled, record, Phase.all, List.foldl_cons, List.foldl_nil, reduceCtorEq,
      if_true, if_false] <;>
    ac_rfl

namespace Connection

/-! ## What one step counts -/

/-- What the counters gain from `k` to `k'` during the event `e`. -/
structure Gain (e : Event) (k k' : Counters) (resets received sent : Nat) : Prop where
  resets : k'.resetsSent = k.resetsSent + UInt64.ofNat resets
  received : k'.bytesFromClients = k.bytesFromClients + UInt64.ofNat received
  sent : k'.bytesToClients = k.bytesToClients + UInt64.ofNat sent
  /-- Only the timer counts what is sent again. -/
  resends : e ≠ .tick → k'.resends = k.resends
  /-- Only the client's segments are counted by phases. -/
  inPhase : (∀ s, e ≠ .segment s) → k'.inPhase = k.inPhase

namespace Gain

variable {e : Event} {k k' k'' : Counters} {r r' d d' b b' : Nat}

theorem of_eq (hresets : k'.resetsSent = k.resetsSent)
    (hreceived : k'.bytesFromClients = k.bytesFromClients)
    (hsent : k'.bytesToClients = k.bytesToClients) (hresends : e ≠ .tick → k'.resends = k.resends)
    (hphases : (∀ s, e ≠ .segment s) → k'.inPhase = k.inPhase) : Gain e k k' 0 0 0 where
  resets := hresets.trans (UInt64.add_zero _).symm
  received := hreceived.trans (UInt64.add_zero _).symm
  sent := hsent.trans (UInt64.add_zero _).symm
  resends := hresends
  inPhase := hphases

theorem refl (e : Event) (k : Counters) : Gain e k k 0 0 0 :=
  .of_eq rfl rfl rfl (fun _ => rfl) fun _ => rfl

theorem trans (h : Gain e k k' r d b) (h' : Gain e k' k'' r' d' b') :
    Gain e k k'' (r + r') (d + d') (b + b') where
  resets := by rw [h'.resets, h.resets, UInt64.add_assoc, UInt64.ofNat_add]
  received := by rw [h'.received, h.received, UInt64.add_assoc, UInt64.ofNat_add]
  sent := by rw [h'.sent, h.sent, UInt64.add_assoc, UInt64.ofNat_add]
  resends hnot := (h'.resends hnot).trans (h.resends hnot)
  inPhase hnot := (h'.inPhase hnot).trans (h.inPhase hnot)

end Gain

/-- Answering a segment as one without a connection counts the reset, if there is one. -/
theorem sendResetFor_resets {o : Outcome} (s : Segment) (h : o.segments = []) :
    (o.sendResetFor s).connection.counters = { o.connection.counters with
      resetsSent := o.connection.counters.resetsSent +
        UInt64.ofNat (o.sendResetFor s).segments.length } := by
  unfold Outcome.sendResetFor
  split
  · rw [h]
    simp
  · simp [Outcome.send, countReset, h]

/-- Closing a connection counts a reset for each that is sent, and nothing else. -/
theorem Closing.resets {e : Event} {c : Connection} {o : Outcome} (h : Closing e c o) :
    o.connection.counters = { c.counters with
      resetsSent := c.counters.resetsSent + UInt64.ofNat o.segments.length } := by
  have hheld : c.refuseHeld.connection.counters = { c.counters with
      resetsSent := c.counters.resetsSent + UInt64.ofNat c.refuseHeld.segments.length } := by
    unfold refuseHeld
    split
    · simp [enter]
    · exact sendResetFor_resets _ rfl
  cases h with
  | orderly _ _ => simp [enter]
  | aborted => simp [enter, Outcome.command]
  | reset => rfl
  | refused _ _ => exact sendResetFor_resets (o := (c.enter .closed).command .abortRelay) _ rfl
  | unreachable _ => exact hheld
  | failed _ _ => exact hheld

section Kinds

variable (c : Connection) (seq : SeqNum) (data : Bytes)

theorem isRst_ackSegment : c.ackSegment.isRst = false := by
  show Flags.ack.has .rst = false
  decide

theorem isRst_synAckSegment : c.synAckSegment.isRst = false := by
  show (Flags.syn ||| Flags.ack).has .rst = false
  decide

theorem isRst_finSegment : (c.finSegment seq).isRst = false := by
  show (Flags.fin ||| Flags.ack).has .rst = false
  decide

theorem isRst_dataSegment : (c.dataSegment seq data).isRst = false := by
  show (Flags.ack ||| Flags.psh).has .rst = false
  decide

theorem isRst_repeated (x : SentSegment) : (c.repeated x).isRst = false := by
  unfold repeated
  split
  · exact c.isRst_finSegment _
  · exact c.isRst_dataSegment _ _

end Kinds

/-- New data at the next number is sent for the first time. -/
theorem Sending.isFirst_dataSegment {h : History} {c₀ : Connection} {o : Outcome} {now n : Nat}
    (hs : Sending h c₀ o) (nothing_sent : o.segments = []) (hne : o.connection.nextSize ≠ 0) :
    c₀.isFirst ((o.connection.afterData now n).dataSegment o.connection.sndNxt
      (o.connection.downlink.waiting o.connection.nextSize)) := by
  have hwaiting := hs.flight.waiting_ne_nil hne
  have hnext := hs.same_next nothing_sent
  simp [isFirst, dataSegment, segmentAt, Segment.reply, hwaiting, hnext]

/-- What a step has to do with the counters: it sends `new`, puts `data` into the uplink, and counts
both. -/
structure Counts (e : Event) (c₀ : Connection) (o o' : Outcome) (new : List Segment)
    (data : Bytes) : Prop where
  segments : o'.segments = o.segments ++ new
  bytes : o'.connection.uplink.buffer.bytes = o.connection.uplink.buffer.bytes ++ data
  gain : Gain e o.connection.counters o'.connection.counters (new.filter (·.isRst)).length
    data.length (payloads (new.filter c₀.isFirst)).length

section Steps

variable {e : Event} {now wall : Nat} {c₀ c : Connection} {o o' : Outcome}

theorem Counts.trans {o'' : Outcome} {new new' : List Segment} {data data' : Bytes}
    (h : Counts e c₀ o o' new data) (h' : Counts e c₀ o' o'' new' data') :
    Counts e c₀ o o'' (new ++ new') (data ++ data') where
  segments := by rw [h'.segments, h.segments, List.append_assoc]
  bytes := by rw [h'.bytes, h.bytes, List.append_assoc]
  gain := by
    rw [List.filter_append, List.filter_append, payloads_append, List.length_append,
      List.length_append, List.length_append]
    exact h.gain.trans h'.gain

theorem Counts.silent (hsegments : o'.segments = o.segments)
    (hbytes : o'.connection.uplink.buffer.bytes = o.connection.uplink.buffer.bytes)
    (hgain : Gain e o.connection.counters o'.connection.counters 0 0 0) :
    Counts e c₀ o o' [] [] where
  segments := by rw [hsegments, List.append_nil]
  bytes := by rw [hbytes, List.append_nil]
  gain := hgain

theorem Counts.one {p : Segment} (hsegments : o'.segments = o.segments ++ [p])
    (hbytes : o'.connection.uplink.buffer.bytes = o.connection.uplink.buffer.bytes)
    (hrst : p.isRst = false) (hfirst : c₀.isFirst p = false)
    (hgain : Gain e o.connection.counters o'.connection.counters 0 0 0) :
    Counts e c₀ o o' [p] [] where
  segments := hsegments
  bytes := by rw [hbytes, List.append_nil]
  gain := by
    simp only [List.filter_cons_of_neg (Bool.eq_false_iff.mp hrst),
      List.filter_cons_of_neg (Bool.eq_false_iff.mp hfirst)]
    exact hgain

/-- What is sent as resets only is counted as resets. -/
theorem Counts.ofResets (hnil : o.segments = [])
    (hbytes : o'.connection.uplink.buffer.bytes = o.connection.uplink.buffer.bytes)
    (hrst : ∀ p ∈ o'.segments, p.isRst) (hlength : ∀ p ∈ o'.segments, p.length = 0)
    (hcounters : o'.connection.counters = { o.connection.counters with
      resetsSent := o.connection.counters.resetsSent + UInt64.ofNat o'.segments.length }) :
    Counts e c₀ o o' o'.segments [] where
  segments := by rw [hnil, List.nil_append]
  bytes := by rw [hbytes, List.append_nil]
  gain := by
    have hfirst : o'.segments.filter c₀.isFirst = [] := by
      refine List.filter_eq_nil_iff.mpr fun p hp => ?_
      rw [isFirst_eq_false (length_eq_zero_iff.mp (hlength p hp)).1]
      exact Bool.false_ne_true
    rw [hfirst, List.filter_eq_self.mpr hrst, hcounters]
    exact ⟨rfl, (UInt64.add_zero _).symm, (UInt64.add_zero _).symm, fun _ => rfl, fun _ => rfl⟩

theorem Step.counts {h : History} (hs : Sending h c₀ o) (hstep : Step e now wall o o') :
    ∃ new data, Counts e c₀ o o' new data := by
  cases hstep with
  | recorded is_segment =>
    exact ⟨_, _, .silent rfl rfl (.of_eq rfl rfl rfl (fun _ => rfl)
      fun hnot => absurd is_segment (hnot _))⟩
  | touched _ => exact ⟨_, _, .silent rfl rfl (.refl _ _)⟩
  | relayDone _ => exact ⟨_, _, .silent rfl rfl (.refl _ _)⟩
  | listened _ _ _ => exact ⟨_, _, .silent rfl rfl (.refl _ _)⟩
  | heldSynAccepted _ _ _ _ =>
    exact ⟨_, _, .one rfl rfl (isRst_synAckSegment _) (isFirst_eq_false rfl) (.refl _ _)⟩
  | synAccepted _ _ _ =>
    exact ⟨_, _, .one rfl rfl (isRst_synAckSegment _) (isFirst_eq_false rfl) (.refl _ _)⟩
  | synAckRepeated _ _ _ =>
    exact ⟨_, _, .one rfl rfl (isRst_synAckSegment _) (isFirst_eq_false rfl) (.refl _ _)⟩
  | synAckResent is_tick _ =>
    exact ⟨_, _, .one rfl rfl (isRst_synAckSegment _) (isFirst_eq_false rfl)
      (.of_eq rfl rfl rfl (fun hnot => absurd is_tick hnot) fun _ => rfl)⟩
  | @ackRefused c s _ _ =>
    exact ⟨_, _, .ofResets rfl (congrArg (·.buffer.bytes) (sendResetFor_uplink c.stay s))
      (forall_sendResetFor rfl fun _ => isRst_resetReply)
      (forall_sendResetFor rfl fun _ => length_resetReply) (sendResetFor_resets s rfl)⟩
  | established _ _ _ _ _ => exact ⟨_, _, .silent rfl rfl (.refl _ _)⟩
  | acknowledged _ _ _ _ applied =>
    obtain ⟨-, rfl⟩ | ⟨-, -, rfl⟩ := applyAck_eq_some applied <;>
      exact ⟨_, _, .silent rfl rfl (.refl _ _)⟩
  | lastAcknowledged _ _ _ _ applied =>
    obtain ⟨-, rfl⟩ | ⟨-, -, rfl⟩ := applyAck_eq_some applied <;>
      exact ⟨_, _, .silent rfl rfl (.refl _ _)⟩
  | @received c c' s _ _ not_empty accepted =>
    obtain ⟨-, -, rfl⟩ := acceptPayload_eq_some accepted not_empty
    exact ⟨[], s.payload, rfl, rfl, (UInt64.add_zero _).symm, rfl, (UInt64.add_zero _).symm,
      fun _ => rfl, fun _ => rfl⟩
  | finReceived _ _ _ =>
    exact ⟨_, _, .one rfl rfl (isRst_ackSegment _) (isFirst_eq_false rfl) (.refl _ _)⟩
  | lastFinReceived _ _ _ =>
    exact ⟨_, _, .one rfl rfl (isRst_ackSegment _) (isFirst_eq_false rfl) (.refl _ _)⟩
  | finAcknowledged _ _ _ _ => exact ⟨_, _, .silent rfl rfl (.refl _ _)⟩
  | answered _ => exact ⟨_, _, .one rfl rfl (isRst_ackSegment _) (isFirst_eq_false rfl) (.refl _ _)⟩
  | @dataSent c can_send not_empty =>
    obtain ⟨p, hp⟩ : ∃ p, p = (c.afterData now c.nextSize).dataSegment c.sndNxt
      (c.downlink.waiting c.nextSize) := ⟨_, rfl⟩
    have hfirst : c₀.isFirst p := hp ▸ hs.isFirst_dataSegment rfl not_empty
    have hrst : ¬ p.isRst := hp ▸ Bool.eq_false_iff.mp (isRst_dataSegment _ _ _)
    have hlength : p.payload.length = c.nextSize := hp ▸ hs.flight.length_waiting
    refine ⟨[p], [], hp ▸ rfl, (List.append_nil _).symm, ?_⟩
    rw [List.filter_cons_of_pos hfirst, List.filter_cons_of_neg hrst, List.filter_nil,
      List.filter_nil, payloads_singleton, hlength]
    exact ⟨(UInt64.add_zero _).symm, (UInt64.add_zero _).symm, rfl, fun _ => rfl, fun _ => rfl⟩
  | @resent c x rest is_tick is_synchronized is_oldest _ =>
    have hrepeats : Repeats c.stay.connection c.stay.connection (c.repeated x) :=
      .oldest is_synchronized is_oldest rfl
    have hfirst : c₀.isFirst (c.repeated x) = false := hs.isFirst_of_repeats rfl hrepeats
    exact ⟨_, _, .one rfl rfl (c.isRst_repeated x) hfirst
      (.of_eq rfl rfl rfl (fun hnot => absurd is_tick hnot) fun _ => rfl)⟩
  | finRepeated _ _ =>
    exact ⟨_, _, .one rfl rfl (isRst_finSegment _ _) (isFirst_eq_false rfl) (.refl _ _)⟩
  | finSent _ can_send is_ready =>
    rw [sendFinIfReady_eq now can_send is_ready]
    exact ⟨_, _, .one rfl rfl (isRst_finSegment _ _) (isFirst_eq_false rfl) (.refl _ _)⟩
  | @closed c o' closes =>
    obtain ⟨held, counters, hc⟩ := closes.connection_eq
    exact ⟨_, _, .ofResets rfl (by rw [hc]; rfl) closes.segments_isRst closes.segments_length
      closes.resets⟩
  | @settled o =>
    obtain ⟨advertised, hc⟩ := settle_connection o
    exact ⟨_, _, .silent rfl (by rw [hc]) (by rw [hc]; exact .refl _ _)⟩

end Steps

/-! ## What one event counts -/

section Events

variable {h : History} {c : Connection}

theorem process_counts (hflight : Flight c) (hd : Delivered h.iss? h.written h.firstSent c)
    (e : Event) (now wall : Nat) :
    ∃ data, Counts e c c.stay (c.process e now wall) (c.process e now wall).segments data := by
  have hstep : ∀ o o', (Sending h c o ∧ ∃ new data, Counts e c c.stay o new data) →
      Step e now wall o o' → Sending h c o' ∧ ∃ new data, Counts e c c.stay o' new data := by
    rintro o o' ⟨hs, new, data, hcounts⟩ hstep
    obtain ⟨new', data', hcounts'⟩ := hstep.counts hs
    exact ⟨hs.effect hstep.effect (hs.flight.step hstep), _, _, hcounts.trans hcounts'⟩
  obtain ⟨-, new, data, hcounts⟩ :=
    event_induction (P := fun o => Sending h c o ∧ ∃ new data, Counts e c c.stay o new data)
      ⟨.start hflight hd, [], [], .silent rfl rfl (.refl _ _)⟩ hstep
  have hnew : (c.process e now wall).segments = new := hcounts.segments
  exact ⟨data, hnew ▸ hcounts⟩

/-! ## What the timer counts -/

theorem isResend_eq_false {p : Segment} (hsyn : p.isSyn = false)
    (hnot : ∀ x ∈ c.resends.segments, x.piece ≠ p.piece) : c.isResend p = false := by
  have hqueue : c.resends.segments.any (·.piece == p.piece) = false :=
    List.any_eq_false.mpr fun x hx hsame => hnot x hx (beq_iff_eq.mp hsame)
  rw [isResend, hsyn, hqueue]
  rfl

/-- What occupies no number repeats nothing of the queue. -/
theorem Flight.isResend_of_length (hflight : Flight c) (hopen : c.phase ≠ .closed) {p : Segment}
    (hlength : p.length = 0) : c.isResend p = false := by
  refine isResend_eq_false (length_eq_zero_iff.mp hlength).2.1 fun x hx hsame => ?_
  have hempty := isEmpty_of_length hlength
  rw [← hsame, hflight.isEmpty_eq_false hopen hx] at hempty
  cases hempty

/-- Nor does what is sent for the first time. -/
theorem Flight.isResend_of_sendPending (hflight : Flight c) (hsend : c.phase.canSend) {now : Nat}
    {p : Segment} (hp : p ∈ (c.sendPending now).segments) : c.isResend p = false := by
  have hflags : (Flags.ack ||| Flags.psh).has .syn = false ∧
      (Flags.fin ||| Flags.ack).has .syn = false := by decide
  have hsyn : p.isSyn = false := by
    rcases mem_sendPending hsend hp with ⟨hdata, -⟩ | ⟨hfin, -⟩
    · rw [Segment.isSyn, hdata, hflags.1]
    · rw [Segment.isSyn, hfin, hflags.2]
  refine isResend_eq_false hsyn fun x hx hsame => ?_
  have hnew := isNew_of_mem_sendPending hflight hsend hp
  rw [← hsame, hflight.isNew_eq_false (Phase.of_canSend hsend).1 hx] at hnew
  cases hnew

/-- What a tick does with the counter of resends: it counts what it sends again. -/
def CountsResends (c : Connection) (o : Outcome) : Prop :=
  o.connection.counters.resends =
    c.counters.resends + UInt64.ofNat (o.segments.filter c.isResend).length

theorem CountsResends.of_none {o : Outcome}
    (hcounters : o.connection.counters.resends = c.counters.resends)
    (hnone : ∀ p ∈ o.segments, c.isResend p = false) : CountsResends c o := by
  have hfilter : o.segments.filter c.isResend = [] :=
    List.filter_eq_nil_iff.mpr fun p hp => Bool.eq_false_iff.mp (hnone p hp)
  rw [CountsResends, hfilter, hcounters]
  exact (UInt64.add_zero _).symm

theorem CountsResends.of_one {o : Outcome} {p : Segment}
    (hcounters : o.connection.counters.resends = c.counters.resends + 1) (hone : o.segments = [p])
    (hresend : c.isResend p) : CountsResends c o := by
  rw [CountsResends, hone, List.filter_cons_of_pos hresend, hcounters]
  rfl

theorem Served.countsResends {now : Nat} {o : Outcome} (h : Served c now o) (hflight : Flight c)
    (hopen : c.phase ≠ .closed) : CountsResends c o := by
  cases h with
  | @resent x rest is_oldest is_due =>
    have hx : x ∈ c.resends.segments := is_oldest ▸ List.mem_cons_self
    have hpiece := c.piece_repeated (hflight.sound x hx)
    refine .of_one rfl rfl ?_
    rw [isResend, Bool.or_eq_true, List.any_eq_true]
    exact .inr ⟨x, hx, beq_iff_eq.mpr hpiece.symm⟩
  | sent _ can_send _ =>
    obtain ⟨sent, hcounters⟩ := sendPending_counters c now
    exact .of_none (by rw [hcounters]) fun p hp => hflight.isResend_of_sendPending can_send hp
  | reopened _ _ =>
    refine .of_none rfl fun p hp => ?_
    rw [List.mem_singleton.mp hp]
    exact hflight.isResend_of_length hopen c.length_ackSegment
  | quiet _ _ => exact .of_none rfl (by rintro _ ⟨⟩)

theorem Unserved.countsResends {now : Nat} {o : Outcome} (h : Unserved c now o)
    (hflight : Flight c) (hopen : c.phase ≠ .closed) : CountsResends c o := by
  cases h with
  | quiet => exact .of_none rfl (by rintro _ ⟨⟩)
  | closed closes =>
    exact .of_none (by rw [closes.resets])
      fun p hp => hflight.isResend_of_length hopen (closes.segments_length p hp)
  | synAck is_opening =>
    have hack : (Flags.syn ||| Flags.ack).has .ack := by decide
    refine .of_one rfl rfl ?_
    rw [isResend, isSyn_synAckSegment, Bool.true_and, Bool.or_eq_true]
    exact .inl hack

theorem onTick_countsResends (hflight : Flight c) (now : Nat) : CountsResends c (c.onTick now) := by
  by_cases hopen : c.phase = .closed
  · have hstay : c.onTick now = c.stay := by rw [onTick, hopen]
    rw [hstay]
    exact .of_none rfl (by rintro _ ⟨⟩)
  · by_cases hserved : c.IsServed now
    · exact (onTick_served hserved).countsResends hflight hopen
    · exact (onTick_unserved hserved).countsResends hflight hopen

theorem process_resends (hflight : Flight c) (hd : Delivered h.iss? h.written h.firstSent c)
    (e : Event) (now wall : Nat) :
    (c.process e now wall).connection.counters.resends =
      c.counters.resends + UInt64.ofNat (c.stage (.event e now wall)).resent.length := by
  by_cases htick : e = .tick
  · subst htick
    obtain ⟨advertised, hc⟩ := settle_connection (c.onTick now)
    show (settle (c.onTick now)).connection.counters.resends = _
    rw [hc]
    exact onTick_countsResends hflight now
  · obtain ⟨data, hcounts⟩ := process_counts hflight hd e now wall
    have hnone : (c.stage (.event e now wall)).resent = [] := by
      refine if_neg fun hbool => htick ?_
      cases e with
      | tick => rfl
      | _ => cases hbool
    rw [hnone, hcounts.gain.resends htick]
    exact (UInt64.add_zero _).symm

end Events

/-! ## What a run counts -/

/-- What the counters of a connection say of the history `h` that led to it. -/
structure Counted (h : History) (c : Connection) : Prop where
  resets : c.counters.resetsSent = UInt64.ofNat h.resets.length
  received : c.counters.bytesFromClients = UInt64.ofNat h.taken.length
  /-- What is sent again is not counted again. -/
  sent : c.counters.bytesToClients = UInt64.ofNat h.sentBytes.length
  resends : c.counters.resends = UInt64.ofNat h.resent.length
  inPhase : ∀ p, c.counters.inPhase p = UInt64.ofNat (h.handledIn p)
  handled : c.counters.handled = UInt64.ofNat h.handled

namespace Counted

variable {h : History} {c : Connection}

/-- A move that counts what its stage shows keeps the counters right. -/
theorem concat {st : Stage} {e : Event} (hc : Counted h c)
    (gain : Gain e c.counters st.after.counters st.resets.length st.taken.length
      (payloads st.firstSent).length)
    (resends : st.after.counters.resends = c.counters.resends + UInt64.ofNat st.resent.length)
    (phases : st.after.counters.inPhase =
      (st.phase?.elim c.counters c.counters.record).inPhase) :
    Counted (h ++ [st]) st.after where
  resets := by
    rw [gain.resets, hc.resets, ← UInt64.ofNat_add]
    simp [History.resets]
  received := by
    rw [gain.received, hc.received, ← UInt64.ofNat_add, History.taken_concat, List.length_append]
  sent := by
    rw [gain.sent, hc.sent, ← UInt64.ofNat_add, History.sentBytes, History.sentBytes,
      History.firstSent_concat, payloads_append, List.length_append]
  resends := by
    rw [resends, hc.resends, ← UInt64.ofNat_add]
    simp [History.resent]
  inPhase := by
    intro q
    rw [History.handledIn_concat, phases]
    cases hp : st.phase? with
    | none => simpa using hc.inPhase q
    | some p =>
      show (if q = p then c.counters.inPhase q + 1 else c.counters.inPhase q) = _
      rw [hc.inPhase q]
      by_cases hq : q = p
      · rw [if_pos hq, if_pos (congrArg some hq.symm), UInt64.ofNat_add]
        rfl
      · rw [if_neg hq, if_neg fun hsame => hq (Option.some.inj hsame).symm, Nat.add_zero]
  handled := by
    rw [History.handled_concat, Counters.handled_congr phases]
    cases hp : st.phase? with
    | none => exact hc.handled
    | some p =>
      rw [Option.elim, Counters.handled_record, hc.handled]
      exact (UInt64.ofNat_add _ _).symm

theorem process (hflight : Flight c) (hd : Delivered h.iss? h.written h.firstSent c)
    (hc : Counted h c) (e : Event) (now wall : Nat) :
    Counted (h ++ [c.stage (.event e now wall)]) (c.process e now wall).connection := by
  obtain ⟨data, hcounts⟩ := process_counts hflight hd e now wall
  have htaken : (c.stage (.event e now wall)).taken = data := taken_eq hcounts.bytes
  have hgain := hcounts.gain
  rw [← htaken] at hgain
  refine hc.concat hgain (process_resends hflight hd e now wall) ?_
  cases e with
  | segment s => exact process_segment_inPhase
  | _ => exact hgain.inPhase (by rintro _ ⟨⟩)

theorem bufferMove {m : Move} (hc : Counted h c) (hmove : c.BufferMove m) :
    Counted (h ++ [c.stage m]) (c.apply m).connection := by
  obtain ⟨down, up, happlied⟩ := hmove.connection_eq
  have hcounters : (c.stage m).after.counters = c.counters := by
    show (c.apply m).connection.counters = _
    rw [happlied]
  have hnil : (c.stage m).outcome.segments = [] := hmove.segments_eq_nil
  have hresent : (c.stage m).resent = [] := by simp [Stage.resent, hmove.segments_eq_nil]
  have hphase : (c.stage m).phase? = none := by
    cases m with
    | event e now wall => exact absurd rfl (hmove.not_event e now wall)
    | _ => rfl
  refine hc.concat (e := .tick) ?_ ?_ ?_
  · rw [hcounters, Stage.resets, Stage.firstSent, hnil, hmove.taken_eq_nil]
    exact .refl _ _
  · rw [hcounters, hresent]
    exact (UInt64.add_zero _).symm
  · rw [hcounters, hphase]
    rfl

theorem apply (m : Move) (hflight : Flight c) (hd : Delivered h.iss? h.written h.firstSent c)
    (hc : Counted h c) : Counted (h ++ [c.stage m]) (c.apply m).connection := by
  rcases c.event_or_bufferMove m with ⟨e, now, wall, rfl⟩ | hmove
  · exact hc.process hflight hd e now wall
  · exact hc.bufferMove hmove

theorem begin (flow : Flow) (held : Option Segment) (options : ConnectionOptions) (t₀ : Nat) :
    Counted [] (begin flow held options t₀) := by
  cases held <;> exact ⟨rfl, rfl, rfl, rfl, fun _ => rfl, rfl⟩

end Counted

theorem counted_run (flow : Flow) (held : Option Segment) (options : ConnectionOptions) (t₀ : Nat)
    (moves : List Move) :
    let c₀ := begin flow held options t₀
    Counted (c₀.history moves) (c₀.run moves) := by
  have hrun := run_induction
    (P := fun h c => (Flight c ∧ Delivered h.iss? h.written h.firstSent c) ∧ Counted h c)
    ⟨⟨.begin flow held options t₀, .begin flow held options t₀⟩, .begin flow held options t₀⟩
    (fun _ _ m ⟨⟨hflight, hd⟩, hc⟩ =>
      ⟨⟨hflight.apply m, hd.apply m hflight⟩, hc.apply m hflight hd⟩)
    moves
  exact hrun.2

/-- The connection remembers a FIN if and only if one was sent. -/
theorem Finished.toNat_isSome_finSeq {h : History} {c : Connection} (hf : Finished h c) :
    c.finSeq.isSome.toNat = if h.fins = [] then 0 else 1 := by
  by_cases hnone : h.fins = []
  · have hfin : c.finSeq.isSome = false := by
      by_contra hsome
      exact hf.sent (Bool.not_eq_false _ ▸ hsome) hnone
    rw [if_pos hnone, hfin]
    rfl
  · obtain ⟨p, hp⟩ := List.exists_mem_of_ne_nil _ hnone
    rw [if_neg hnone, (hf.same p hp).2]
    rfl

/-- The counters of a connection tell what happened in its run: the resets that it sent, the bytes
that it put into the uplink, the bytes that it sent for the first time, what its timer sent again,
and the segments that it handled in each phase.  Whatever else it sent with payload is a copy of
what was sent before, and the bytes sent for the first time are a front of the relay's, numbered
without a gap; so SND.NXT is found by counting. -/
theorem counters_run (flow : Flow) (held : Option Segment) (options : ConnectionOptions) (t₀ : Nat)
    (moves : List Move) :
    let c₀ := begin flow held options t₀
    let h := c₀.history moves
    let c := c₀.run moves
    Counted h c ∧
      (∀ h₁ st h₂, h = h₁ ++ st :: h₂ → ∀ p ∈ st.outcome.segments, p.payload ≠ [] →
        p ∈ st.firstSent ∨
          ∃ q ∈ History.firstSent h₁, q.seq = p.seq ∧ q.payload = p.payload) ∧
      h.sentBytes <+: h.written ∧
      (c.phase.isSynchronized → ∃ iss, h.iss? = some iss) ∧
      ∀ iss, h.iss? = some iss → Consecutive iss.next h.firstSent ∧ c.sndNxt =
        iss.next.add (c.counters.bytesToClients.toNat + if h.fins = [] then 0 else 1) := by
  intro c₀ h c
  have hc : Counted h c := counted_run flow held options t₀ moves
  obtain ⟨-, hd, hf⟩ := finished_run flow held options t₀ moves
  refine ⟨hc, fun _ _ _ hsplit => copies_run flow held options t₀ hsplit, hd.sent,
    fun hsync => ?_, fun iss hiss => ?_⟩
  · exact Option.isSome_iff_exists.mp (hd.greeted (Phase.isGreeted_of_isSynchronized hsync))
  · obtain ⟨-, hconsecutive, hnext⟩ := hd.numbered iss hiss
    refine ⟨hconsecutive, ?_⟩
    rw [hc.sent, SeqNum.add_toNat_ofNat, ← hf.toNat_isSome_finSeq]
    exact hnext

end Connection

end TcpGateway
