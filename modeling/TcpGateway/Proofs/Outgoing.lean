import TcpGateway.Proofs.Effect
import TcpGateway.Proofs.History
import TcpGateway.Proofs.Packet

/-!
# What a connection sends

Every segment that an event sends is built from the connection at one of its steps.  Those that are
not resets acknowledge RCV.NXT and advertise RCV.WND, and no step behind them touches the uplink any
more, so that they agree with the connection at the end of the event (`Outbox`).

Such a segment is small enough for a packet, and the packet is read back as the same segment.
-/

namespace TcpGateway

namespace Connection

/-! ## What every run keeps -/

/-- What a connection has kept since it began. -/
structure Rooted (flow : Flow) (held : Option Segment) (options : ConnectionOptions)
    (c : Connection) : Prop where
  flow_eq : c.flow = flow
  options_eq : c.options = options
  held_of : ∀ s, c.heldSyn = some s → held = some s
  uplink_bounded : c.uplink.buffer.Bounded options.windowSize.toNat
  queued_le : ∀ x ∈ c.resends.segments, x.data.length ≤ options.maxPayload

namespace Rooted

variable {flow : Flow} {held : Option Segment} {options : ConnectionOptions} {c c' : Connection}

/-- The window and the bytes held make up the largest window. -/
theorem rcvWnd_add_length (h : Rooted flow held options c) :
    c.rcvWnd + c.uplink.buffer.length = options.windowSize.toNat := by
  have hlt := options.windowSize.toNat_lt
  exact c.uplink.window_add_length h.uplink_bounded (by omega)

theorem acknowledged {s : Segment} (h : Rooted flow held options c)
    (happ : c.applyAck s = some c') : Rooted flow held options c' := by
  obtain ⟨-, rfl⟩ | ⟨-, -, rfl⟩ := applyAck_eq_some happ
  · exact { h with }
  · exact { h with queued_le := fun x hx => h.queued_le x (List.mem_of_mem_filter hx) }

/-- What is taken from the client fits into the buffer. -/
theorem received {s : Segment} (h : Rooted flow held options c) (hne : s.payload ≠ [])
    (happ : c.acceptPayload s = some c') : Rooted flow held options c' := by
  obtain ⟨-, hfits, rfl⟩ := acceptPayload_eq_some happ hne
  have hwindow := h.rcvWnd_add_length
  refine { h with uplink_bounded := ⟨h.uplink_bounded.capacity, ?_⟩ }
  show (c.uplink.buffer.bytes ++ s.payload).length ≤ _
  rw [List.length_append]
  change c.rcvWnd + c.uplink.buffer.bytes.length = _ at hwindow
  omega

theorem queued {x : SentSegment} {q : ResendQueue} (h : Rooted flow held options c)
    (hx : x.data.length ≤ options.maxPayload) (hq : q = c.resends.add x) :
    ∀ y ∈ q.segments, y.data.length ≤ options.maxPayload := by
  intro y hy
  rw [hq] at hy
  rcases List.mem_append.mp hy with hold | hnew
  · exact h.queued_le y hold
  · exact List.mem_singleton.mp hnew ▸ hx

theorem length_waiting_le (h : Rooted flow held options c) :
    (c.downlink.waiting c.nextSize).length ≤ options.maxPayload := by
  have hsize : c.nextSize ≤ c.options.maxPayload := Nat.min_le_right _ _
  rw [h.options_eq] at hsize
  exact Nat.le_trans (List.length_take_le _ _) hsize

theorem closing {e : Event} {o : Outcome} (h : Rooted flow held options c)
    (hclose : Closing e c o) : Rooted flow held options o.connection := by
  have hheld : ∀ s, o.connection.heldSyn = some s → held = some s := by
    intro s hs
    rcases hclose.heldSyn with hsame | hnone
    · exact h.held_of s (hsame.symm.trans hs)
    · cases hnone.symm.trans hs
  obtain ⟨heldSyn, counters, hc⟩ := hclose.connection_eq
  rw [hc] at hheld ⊢
  exact { h with held_of := hheld }

theorem settle {o : Outcome} (h : Rooted flow held options o.connection) :
    Rooted flow held options (settle o).connection := by
  obtain ⟨advertised, hc⟩ := settle_connection o
  rw [hc]
  refine { h with queued_le := ?_ }
  by_cases hp : o.connection.phase = .closed
  · simp [hp, ResendQueue.clear]
  · simpa [hp] using h.queued_le

theorem step {e : Event} {now wall : Nat} {o o' : Outcome}
    (h : Rooted flow held options o.connection) (hstep : Step e now wall o o') :
    Rooted flow held options o'.connection := by
  cases hstep with
  | recorded _ => exact { h with }
  | touched _ => exact { h with }
  | relayDone _ => exact { h with }
  | listened _ _ _ => exact { h with held_of := by rintro _ ⟨⟩ }
  | heldSynAccepted _ _ _ _ => exact { h with held_of := by rintro _ ⟨⟩ }
  | synAccepted _ _ _ => exact { h with }
  | synAckRepeated _ _ _ => exact { h with }
  | synAckResent _ _ => exact { h with }
  | @ackRefused c s _ _ =>
    obtain ⟨counters, hc⟩ := sendResetFor_connection c.stay s
    rw [hc]
    exact { h with }
  | established _ _ _ _ _ => exact { h with }
  | acknowledged _ _ _ _ applied => exact h.acknowledged applied
  | lastAcknowledged _ _ _ _ applied => exact { h.acknowledged applied with }
  | received _ _ not_empty accepted => exact h.received not_empty accepted
  | finReceived _ _ _ => exact { h with }
  | lastFinReceived _ _ _ => exact { h with }
  | finAcknowledged _ _ _ _ => exact { h with }
  | answered _ => exact h
  | dataSent _ _ => exact { h with queued_le := h.queued h.length_waiting_le rfl }
  | @resent c x rest _ _ is_oldest _ =>
    have hqueued := h.queued_le
    change ∀ y ∈ c.resends.segments, _ at hqueued
    rw [is_oldest] at hqueued
    exact { h with
      queued_le := List.forall_mem_cons.mpr (List.forall_mem_cons.mp hqueued) }
  | finRepeated _ _ => exact h
  | finSent _ can_send is_ready =>
    rw [sendFinIfReady_eq now can_send is_ready]
    exact { h with queued_le := h.queued (Nat.zero_le _) rfl }
  | closed closes => exact h.closing closes
  | settled => exact h.settle

theorem apply (m : Move) (h : Rooted flow held options c) :
    Rooted flow held options (c.apply m).connection := by
  rcases c.event_or_bufferMove m with ⟨e, now, wall, rfl⟩ | hmove
  · exact event_induction (P := fun o => Rooted flow held options o.connection) h fun _ _ => step
  · cases hmove with
    | downlink _ applied _ _ =>
      rw [applied]
      exact { h with }
    | @uplink b n _ applied removed capacity _ =>
      rw [applied]
      refine { h with uplink_bounded := ⟨capacity.trans h.uplink_bounded.capacity, ?_⟩ }
      show b.bytes.length ≤ _
      rw [removed]
      exact (h.uplink_bounded.drop n).length_le

theorem begin (flow : Flow) (held : Option Segment) (options : ConnectionOptions) (t₀ : Nat) :
    Rooted flow held options (begin flow held options t₀) := by
  cases held <;> exact {
    flow_eq := rfl
    options_eq := rfl
    held_of := fun _ hs => hs
    uplink_bounded := Buffer.bounded_empty _
    queued_le := by rintro _ ⟨⟩ }

end Rooted

/-! ## One segment -/

/-- Whether `f` is the flow of a connection or of a segment that it was given. -/
def IsAnswered (e : Event) (held : Option Segment) (flow f : Flow) : Prop :=
  f = flow ∨ ∃ s, (e = .segment s ∨ held = some s) ∧ s.flow = f

/-- A segment that the connection `c` may have sent while it handled the event `e`. -/
structure Outgoing (e : Event) (held : Option Segment) (c : Connection) (p : Segment) : Prop where
  flow_of : IsAnswered e held c.flow p.flow.reverse
  current : p.isRst = false → p.isAck ∧ p.ack = c.rcvNxt ∧ p.window.toNat = c.rcvWnd
  payload_le : p.payload.length ≤ c.options.maxPayload
  syn_bare : p.isSyn → p.payload = []
  known : p.flags.known = p.flags

/-- The window fits the window field. -/
theorem toNat_rcvWnd (c : Connection) : (UInt16.ofNat c.rcvWnd).toNat = c.rcvWnd := by
  have hle : c.rcvWnd ≤ 65535 := c.uplink.window_le
  rw [UInt16.toNat_ofNat']
  omega

namespace Outgoing

variable {e : Event} {held : Option Segment} {c : Connection}

/-- What is built from the connection itself. -/
theorem segmentAt {seq : SeqNum} {flags : Flags} {payload : Bytes}
    (hflags : flags.has .ack ∧ flags.known = flags)
    (hpayload : payload = [] ∨ flags.has .syn = false ∧ payload.length ≤ c.options.maxPayload) :
    Outgoing e held c (c.segmentAt seq flags payload) where
  flow_of := .inl rfl
  current := by
    intro _
    exact ⟨hflags.1, rfl, c.toNat_rcvWnd⟩
  payload_le := by
    rcases hpayload with rfl | ⟨-, hle⟩
    · exact Nat.zero_le _
    · exact hle
  syn_bare := by
    intro hsyn
    rcases hpayload with rfl | ⟨hnot, -⟩
    · rfl
    · cases hnot.symm.trans hsyn
  known := hflags.2

theorem ackSegment : Outgoing e held c c.ackSegment :=
  segmentAt (by decide) (.inl rfl)

theorem synAckSegment : Outgoing e held c c.synAckSegment :=
  segmentAt (by decide) (.inl rfl)

theorem finSegment (seq : SeqNum) : Outgoing e held c (c.finSegment seq) :=
  segmentAt (by decide) (.inl rfl)

theorem dataSegment {seq : SeqNum} {data : Bytes} (h : data.length ≤ c.options.maxPayload) :
    Outgoing e held c (c.dataSegment seq data) :=
  segmentAt (by decide) (.inr ⟨by decide, h⟩)

theorem repeated {x : SentSegment} (h : x.data.length ≤ c.options.maxPayload) :
    Outgoing e held c (c.repeated x) := by
  unfold Connection.repeated
  split
  · exact finSegment _
  · exact dataSegment h

theorem resetSegment : Outgoing e held c c.resetSegment where
  flow_of := .inl rfl
  current := fun hnot => by cases hnot.symm.trans c.isRst_resetSegment
  payload_le := Nat.zero_le _
  syn_bare := fun _ => rfl
  known := by
    show Flags.rst.known = Flags.rst
    decide

/-- The reply to a segment travels on the reverse of the segment's flow. -/
theorem resetReply {s p : Segment} (hs : e = .segment s ∨ held = some s)
    (hp : s.resetReply = some p) : Outgoing e held c p := by
  have hflags : Flags.rst.known = .rst ∧ (Flags.rst ||| .ack).known = .rst ||| .ack := by decide
  have hshape : p.flow = s.flow.reverse ∧ p.payload = [] ∧ p.flags.known = p.flags := by
    unfold Segment.resetReply at hp
    split at hp
    · cases hp
    · split at hp <;> cases hp
      · exact ⟨rfl, rfl, hflags.1⟩
      · exact ⟨rfl, rfl, hflags.2⟩
  obtain ⟨hflow, hpayload, hknown⟩ := hshape
  exact {
    flow_of := .inr ⟨s, hs, by rw [hflow, Flow.reverse_reverse]⟩
    current := fun hnot => by cases hnot.symm.trans (isRst_resetReply hp)
    payload_le := by
      rw [hpayload]
      exact Nat.zero_le _
    syn_bare := fun _ => hpayload
    known := hknown }

/-- Another connection with the same flow, uplink and options. -/
theorem congr {c' : Connection} {p : Segment} (h : Outgoing e held c p)
    (hflow : c'.flow = c.flow) (huplink : c'.uplink = c.uplink)
    (hoptions : c'.options = c.options) : Outgoing e held c' p where
  flow_of := hflow ▸ h.flow_of
  current := by
    rw [rcvNxt, rcvWnd, huplink]
    exact h.current
  payload_le := hoptions ▸ h.payload_le
  syn_bare := h.syn_bare
  known := h.known

end Outgoing

/-! ## One event -/

/-- What an event has sent so far. -/
structure Outbox (flow : Flow) (held : Option Segment) (options : ConnectionOptions) (e : Event)
    (o : Outcome) : Prop where
  rooted : Rooted flow held options o.connection
  outgoing : ∀ p ∈ o.segments, Outgoing e held o.connection p
  one_payload : (o.segments.filter fun p => !p.payload.isEmpty).length ≤ 1
  /-- Only the FIN goes out behind another segment. -/
  few : o.segments.length ≤ 1 ∨ o.segments.length = 2 ∧ o.connection.phase.canSend = false

namespace Outbox

variable {flow : Flow} {held : Option Segment} {options : ConnectionOptions} {e : Event}
  {now wall : Nat} {c : Connection} {o o' : Outcome}

theorem of_atMostOne (hr : Rooted flow held options o.connection) (hlen : o.segments.length ≤ 1)
    (hp : ∀ p ∈ o.segments, Outgoing e held o.connection p) : Outbox flow held options e o :=
  ⟨hr, hp, Nat.le_trans (List.length_filter_le _ _) hlen, .inl hlen⟩

theorem silent (hr : Rooted flow held options c) : Outbox flow held options e c.stay :=
  of_atMostOne hr (Nat.zero_le _) (by rintro _ ⟨⟩)

theorem single {p : Segment} (hr : Rooted flow held options o.connection)
    (hsends : o.segments = [p]) (hp : Outgoing e held o.connection p) :
    Outbox flow held options e o := by
  refine of_atMostOne hr (by rw [hsends]; exact Nat.le_refl _) fun q hq => ?_
  rw [hsends] at hq
  exact List.mem_singleton.mp hq ▸ hp

/-- A segment is answered as one without a connection. -/
theorem sendResetFor {s : Segment} (ho : o.segments = []) (hs : e = .segment s ∨ held = some s)
    (hr : Rooted flow held options (o.sendResetFor s).connection) :
    Outbox flow held options e (o.sendResetFor s) := by
  unfold Outcome.sendResetFor at hr ⊢
  split
  · rename_i hnone
    rw [hnone] at hr
    exact of_atMostOne hr (by simp [ho]) (by simp [ho])
  · rename_i p hsome
    rw [hsome] at hr
    refine single (p := p) hr (by simp [Outcome.send, ho]) ?_
    exact .resetReply hs hsome

theorem closing (h : Rooted flow held options c) (hclose : Closing e c o) :
    Outbox flow held options e o := by
  have hr := h.closing hclose
  have hheld : Outbox flow held options e c.refuseHeld := by
    have hrefuse := h.closing (e := .relayUnreachable) (.unreachable rfl)
    unfold refuseHeld at hrefuse ⊢
    split
    · rename_i hnone
      rw [hnone] at hrefuse
      exact silent hrefuse
    · rename_i s hsome
      rw [hsome] at hrefuse
      exact sendResetFor rfl (.inr (h.held_of s hsome)) hrefuse
  cases hclose with
  | orderly _ _ => exact silent hr
  | aborted => exact of_atMostOne hr (Nat.zero_le _) (by rintro _ ⟨⟩)
  | reset => exact single hr rfl .resetSegment
  | refused is_segment _ => exact sendResetFor rfl (.inl is_segment) hr
  | unreachable _ => exact hheld
  | failed _ _ => exact { hheld with }

/-- The FIN goes out behind what was sent before. -/
theorem fin (h : Outbox flow held options e o)
    (hr : Rooted flow held options (o.sendFinIfReady now).connection)
    (can_send : o.connection.phase.canSend) (is_ready : o.connection.isReadyToClose) :
    Outbox flow held options e (o.sendFinIfReady now) := by
  rw [sendFinIfReady_eq now can_send is_ready] at hr ⊢
  have hlen : o.segments.length ≤ 1 := h.few.resolve_right fun ⟨_, hnot⟩ => by
    cases hnot.symm.trans can_send
  have hphase : (o.connection.afterFin now).phase.canSend = false := by
    cases hp : o.connection.phase <;> simp_all [Phase.canSend, afterFin, Phase.afterOurFin]
  refine ⟨hr, fun p hp => ?_, ?_, ?_⟩
  · rcases List.mem_append.mp hp with hold | hnew
    · exact (h.outgoing p hold).congr rfl rfl rfl
    · rw [List.mem_singleton.mp hnew]
      exact .finSegment _
  · have hempty : ((o.connection.afterFin now).finSegment o.connection.sndNxt).payload = [] := rfl
    simpa [hempty] using h.one_payload
  · refine (Nat.le_one_iff_eq_zero_or_eq_one.mp hlen).imp (fun hzero => ?_) fun hone => ⟨?_, hphase⟩
    · rw [List.length_append, hzero]
      exact Nat.le_refl _
    · rw [List.length_append, hone]
      rfl

theorem step (h : Outbox flow held options e o) (hstep : Step e now wall o o') :
    Outbox flow held options e o' := by
  have hr := h.rooted.step hstep
  cases hstep with
  | recorded _ => exact silent hr
  | touched _ => exact silent hr
  | relayDone _ => exact silent hr
  | listened _ _ _ => exact silent hr
  | heldSynAccepted _ _ _ _ => exact single hr rfl .synAckSegment
  | synAccepted _ _ _ => exact single hr rfl .synAckSegment
  | synAckRepeated _ _ _ => exact single hr rfl .synAckSegment
  | synAckResent _ _ => exact single hr rfl .synAckSegment
  | ackRefused is_segment _ => exact sendResetFor rfl (.inl is_segment) hr
  | established _ _ _ _ _ => exact silent hr
  | acknowledged _ _ _ _ _ => exact silent hr
  | lastAcknowledged _ _ _ _ _ => exact silent hr
  | received _ _ _ _ => exact silent hr
  | finReceived _ _ _ => exact single hr rfl .ackSegment
  | lastFinReceived _ _ _ => exact single hr rfl .ackSegment
  | finAcknowledged _ _ _ _ => exact silent hr
  | answered _ => exact single hr rfl .ackSegment
  | @dataSent c _ _ =>
    refine single hr rfl (.dataSegment ?_)
    have hle := h.rooted.length_waiting_le
    rw [← h.rooted.options_eq] at hle
    exact hle
  | @resent c x rest _ _ is_oldest _ =>
    refine single hr rfl (.repeated ?_)
    have hle := h.rooted.queued_le x (is_oldest ▸ List.mem_cons_self)
    rw [← h.rooted.options_eq] at hle
    exact hle
  | finRepeated _ _ => exact single hr rfl (.finSegment _)
  | finSent _ can_send is_ready => exact h.fin hr can_send is_ready
  | closed closes => exact closing h.rooted closes
  | @settled o =>
    obtain ⟨advertised, hc⟩ := settle_connection o
    exact {
      rooted := hr
      outgoing := fun p hp => (h.outgoing p hp).congr (by rw [hc]) (by rw [hc]) (by rw [hc])
      one_payload := h.one_payload
      few := by
        rw [hc]
        exact h.few }

theorem process (h : Rooted flow held options c) (e : Event) (now wall : Nat) :
    Outbox flow held options e (c.process e now wall) :=
  event_induction (silent h) fun _ _ => step

end Outbox

theorem rooted_run (flow : Flow) (held : Option Segment) (options : ConnectionOptions) (t₀ : Nat)
    (moves : List Move) : Rooted flow held options ((begin flow held options t₀).run moves) :=
  run_induction (P := fun _ c => Rooted flow held options c) (.begin flow held options t₀)
    (fun _ _ m h => h.apply m) moves

/-! ## Packets -/

namespace Outgoing

variable {e : Event} {held : Option Segment} {c : Connection} {p : Segment}

theorem length_encode_le (h : Outgoing e held c p) (identification : UInt16) :
    (p.encode identification).length ≤ max c.options.maxPayload 4 + 40 := by
  have hpayload := h.payload_le
  rw [p.length_encode, Segment.tcpHeaderLength]
  split
  · rename_i hsyn
    rw [h.syn_bare hsyn, List.length_nil]
    omega
  · omega

theorem decode_encode (h : Outgoing e held c p) (hsmall : c.options.maxPayload ≤ 1460)
    (identification : UInt16) : Segment.decode (p.encode identification) = .ok p := by
  have hlen := h.length_encode_le identification
  rw [p.length_encode] at hlen
  rw [p.decode_encode identification (by omega), h.known]

end Outgoing

/-- What is sent in answer to one event is in order; `c` is the connection afterwards. -/
structure WellFormed (flow : Flow) (c : Connection) (segments : List Segment) : Prop where
  /-- Under every identification the packet of a segment is read back as the segment. -/
  accepted : ∀ p ∈ segments, ∀ identification, Segment.decode (p.encode identification) = .ok p
  length_le : ∀ p ∈ segments, ∀ identification,
    (p.encode identification).length ≤ max c.options.maxPayload 4 + 40 ∧
      (p.encode identification).length ≤ 1500
  flow_eq : ∀ p ∈ segments, p.flow = flow.reverse
  current : ∀ p ∈ segments, p.isRst = false →
    p.isAck ∧ p.ack = c.rcvNxt ∧ p.window.toNat = c.rcvWnd
  payload_le : ∀ p ∈ segments, p.payload.length ≤ c.options.maxPayload
  one_payload : (segments.filter fun p => !p.payload.isEmpty).length ≤ 1
  few : segments.length ≤ 2

/-- After every run, what an event sends is well formed and current: the client accepts its packets,
which fit an Ethernet frame and travel on the reverse flow, they acknowledge and advertise what
holds after the event, and there are at most two of them, one of which may carry payload. -/
theorem wellFormed_run (flow : Flow) (held : Option Segment) (options : ConnectionOptions)
    (t₀ : Nat) (moves : List Move) (e : Event) (now wall : Nat)
    (hsmall : options.maxPayload ≤ 1460) (hheld : ∀ s, held = some s → s.flow = flow)
    (hsegment : ∀ s, e = .segment s → s.flow = flow) :
    let o := ((begin flow held options t₀).run moves).process e now wall
    o.connection.options = options ∧ WellFormed flow o.connection o.segments := by
  intro o
  have hbox : Outbox flow held options e o :=
    .process (rooted_run flow held options t₀ moves) e now wall
  have hoptions := hbox.rooted.options_eq
  refine ⟨hoptions, ?_⟩
  rw [← hoptions] at hsmall
  exact {
    accepted := fun p hp => (hbox.outgoing p hp).decode_encode hsmall
    length_le := by
      intro p hp identification
      have hlen := (hbox.outgoing p hp).length_encode_le identification
      exact ⟨hlen, by omega⟩
    flow_eq := by
      intro p hp
      have hreverse : p.flow.reverse = flow := by
        rcases (hbox.outgoing p hp).flow_of with hown | ⟨s, hs | hs, hflow⟩
        · exact hown.trans hbox.rooted.flow_eq
        · exact hflow.symm.trans (hsegment s hs)
        · exact hflow.symm.trans (hheld s hs)
      rw [← hreverse, Flow.reverse_reverse]
    current := fun p hp => (hbox.outgoing p hp).current
    payload_le := fun p hp => (hbox.outgoing p hp).payload_le
    one_payload := hbox.one_payload
    few := hbox.few.elim (fun hle => Nat.le_succ_of_le hle) fun heq => Nat.le_of_eq heq.1 }

/-- The end of a handshake that brings a byte is answered by data and the FIN behind it. -/
theorem wellFormed_dataAndFin :
    let client (seq ack : UInt32) (flags : Flags) (payload : Bytes) : Segment :=
      { flow := default, seq := ⟨seq⟩, ack := ⟨ack⟩, flags, window := 1000, payload }
    let options := { maxPayload := 3, windowSize := 100, resendInterval := 10, idleTimeout := 1000 }
    let moves := [.event .relayConnected 0 0, .writeDownlink [1, 2], .event .relayClosed 1 0]
    let c := (begin default (some (client 5 0 .syn [])) options 0).run moves
    let o := c.process (.segment (client 6 1 .ack [7])) 2 0
    o.segments.length = 2 ∧ o.connection.options = options ∧
      WellFormed default o.connection o.segments := by
  intro client options moves c o
  exact ⟨by decide +kernel, wellFormed_run default (some (client 5 0 .syn [])) options 0 moves
    (.segment (client 6 1 .ack [7])) 2 0 (by decide) (by rintro _ ⟨⟩; rfl) (by rintro _ ⟨⟩; rfl)⟩

end Connection

end TcpGateway
