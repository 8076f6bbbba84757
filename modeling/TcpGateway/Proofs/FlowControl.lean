import TcpGateway.Proofs.Delivery
import TcpGateway.Proofs.Intake

/-!
# Which windows the client's data is sent into

New data ends at most the advertised window ahead of SND.UNA.  That window is the one of the segment
applied last, and as a rule this segment acknowledges just SND.UNA, so that the data ends before the
edge that the client has advertised.  A stale acknowledgment is the exception: it does not move
SND.UNA, but its window is taken over and counted from SND.UNA instead of from the number that it
acknowledges.  Then data can end behind every edge advertised so far (`staleWindow_overruns`).

`Offering` keeps track of the offer in force in the middle of an event.
-/

namespace TcpGateway

/-- A window that the client has advertised: `window` numbers from `ack` on. -/
structure Offer where
  ack : SeqNum
  window : UInt16
  /-- Whether more than `ack` was acknowledged already when the offer came in. -/
  stale : Bool
deriving DecidableEq, Repr

/-- The number that the offer ends at. -/
def Offer.edge (x : Offer) : SeqNum := x.ack.add x.window.toNat

namespace Stage

/-- The window of a segment that acknowledges something. -/
def ackOffers (st : Stage) : List Offer :=
  match st.move with
  | .event (.segment s) _ _ =>
    if s.isAck then [⟨s.ack, s.window, !st.before.sndUna.atMost s.ack⟩] else []
  | _ => []

/-- The window of a SYN that is answered; it counts as acknowledging ours. -/
def synOffers (st : Stage) : List Offer :=
  st.acceptedSyn.toList.map fun syn => ⟨st.after.iss.next, syn.window, false⟩

/-- What the client advertises. -/
def offers (st : Stage) : List Offer := st.ackOffers ++ st.synOffers

end Stage

/-- All windows that the client has advertised. -/
def History.offers (h : History) : List Offer := h.flatMap Stage.offers

theorem History.offers_concat (h : History) (st : Stage) :
    offers (h ++ [st]) = h.offers ++ st.offers := by
  simp [offers]

namespace Connection

/-- The offer `x` is in force: its window is the one that new data is sent into, and it starts at
SND.UNA or is stale. -/
def InForce (x : Offer) (c : Connection) : Prop :=
  x.window = c.peerWindow ∧ (x.ack = c.sndUna ∨ x.stale)

/-- The numbers from SND.UNA on that new data is sent into reach up to here. -/
def sendEdge (c : Connection) : SeqNum := c.sndUna.add c.peerWindow.toNat

theorem InForce.edge_eq {x : Offer} {c : Connection} (h : InForce x c) :
    c.sendEdge = c.sndUna.add x.window.toNat ∧ (x.edge = c.sendEdge ∨ x.stale) := by
  obtain ⟨hwindow, hack | hstale⟩ := h
  · refine ⟨by rw [sendEdge, hwindow], .inl ?_⟩
    rw [Offer.edge, sendEdge, hwindow, hack]
  · exact ⟨by rw [sendEdge, hwindow], .inr hstale⟩

/-! ## In the middle of an event -/

/-- What the event `e` has done so far with the windows that the client has advertised. -/
structure Offering (h : History) (e : Event) (now wall : Nat) (c₀ : Connection) (o : Outcome) :
    Prop where
  /-- Only the acknowledgment of the event itself moves SND.UNA. -/
  una : o.segments = [] → o.connection.sndUna = c₀.sndUna ∨
    ∃ s, e = .segment s ∧ o.connection.sndUna = s.ack
  offered : o.connection.phase.isGreeted →
    ∃ x ∈ h.offers ++ Stage.offers ⟨c₀, .event e now wall, o⟩, InForce x o.connection
  within : ∀ p ∈ o.segments, c₀.isFirst p → o.connection.phase.isGreeted ∧
    (p.seq.add p.payload.length).atMost o.connection.sendEdge

/-- The offers of a stage do not depend on what it sends, the SYN-ACK apart. -/
theorem offers_subset {c₀ : Connection} {m : Move} {o o' : Outcome} (h : o.segments = []) :
    Stage.offers ⟨c₀, m, o⟩ ⊆ Stage.offers ⟨c₀, m, o'⟩ := by
  have hnone : Stage.acceptedSyn ⟨c₀, m, o⟩ = none := acceptedSyn_eq_none (by simp [h])
  have hoffers : Stage.offers ⟨c₀, m, o⟩ = Stage.ackOffers ⟨c₀, m, o'⟩ := by
    rw [Stage.offers, Stage.synOffers, hnone]
    exact List.append_nil _
  rw [hoffers]
  exact List.subset_append_left _ _

theorem offers_congr {c₀ : Connection} {e : Event} {now wall : Nat} {o o' : Outcome}
    (hsyn : o'.segments.any (·.isSyn) = o.segments.any (·.isSyn))
    (hiss : o'.connection.iss = o.connection.iss) :
    Stage.offers ⟨c₀, .event e now wall, o'⟩ = Stage.offers ⟨c₀, .event e now wall, o⟩ := by
  simp only [Stage.offers, Stage.ackOffers, Stage.synOffers, Stage.after, acceptedSyn_congr hsyn,
    hiss]

/-- New data ends inside the window. -/
theorem dataSegment_atMost {c : Connection} (now : Nat) (h : Flight c) (hpos : c.nextSize ≠ 0) :
    (c.sndNxt.add (c.downlink.waiting c.nextSize).length).atMost
      (c.afterData now c.nextSize).sendEdge := by
  have hsize : c.nextSize ≤ c.peerWindow.toNat - c.downlink.inFlight :=
    Nat.le_trans (Nat.min_le_left _ _) (Nat.min_le_right _ _)
  have hwindow := c.peerWindow.toNat_lt
  have hnxt : c.sndNxt = c.sndUna.add c.downlink.inFlight := c.downlink.nxt_eq
  rw [h.length_waiting, hnxt, SeqNum.add_add]
  show SeqNum.atMost _ (c.sndUna.add c.peerWindow.toNat)
  exact (SeqNum.atMost_add_add c.sndUna (by omega) (by omega)).mpr (by omega)

namespace Offering

variable {h : History} {e : Event} {now wall : Nat} {c₀ c : Connection} {o o' : Outcome}

/-- A step that keeps SND.UNA and the window, and sends nothing new. -/
theorem kept (ho : Offering h e now wall c₀ c.stay)
    (hwindow : o'.connection.peerWindow = c.peerWindow)
    (huna : o'.connection.sndUna = c.sndUna)
    (hgreeted : o'.connection.phase.isGreeted → c.phase.isGreeted)
    (hwithin : ∀ p ∈ o'.segments, c₀.isFirst p → o'.connection.phase.isGreeted ∧
      (p.seq.add p.payload.length).atMost o'.connection.sendEdge) :
    Offering h e now wall c₀ o' where
  una := by
    intro _
    rw [huna]
    exact ho.una rfl
  offered := by
    intro hp
    obtain ⟨x, hx, hforce⟩ := ho.offered (hgreeted hp)
    refine ⟨x, ?_, by rw [InForce, hwindow, huna]; exact hforce⟩
    rcases List.mem_append.mp hx with hold | hnew
    · exact List.mem_append_left _ hold
    · exact List.mem_append_right _ (offers_subset rfl hnew)
  within := hwithin

/-- A step that also sends no payload. -/
theorem bare (ho : Offering h e now wall c₀ c.stay)
    (hwindow : o'.connection.peerWindow = c.peerWindow)
    (huna : o'.connection.sndUna = c.sndUna)
    (hgreeted : o'.connection.phase.isGreeted → c.phase.isGreeted)
    (hpayload : ∀ p ∈ o'.segments, p.payload = []) : Offering h e now wall c₀ o' := by
  refine ho.kept hwindow huna hgreeted fun p hp hfirst => ?_
  exact absurd (hpayload p hp) (payload_ne_nil_of_isFirst hfirst)

theorem silent {c' : Connection} (ho : Offering h e now wall c₀ c.stay)
    (hwindow : c'.peerWindow = c.peerWindow) (huna : c'.sndUna = c.sndUna)
    (hgreeted : c'.phase.isGreeted → c.phase.isGreeted) : Offering h e now wall c₀ c'.stay :=
  ho.bare hwindow huna hgreeted (by rintro _ ⟨⟩)

/-- SND.UNA is that of the event's beginning or the number that it acknowledges. -/
theorem una_applyAck {c' : Connection} {s : Segment} (ho : Offering h e now wall c₀ c.stay)
    (hs : e = .segment s) (happ : c.applyAck s = some c') :
    c'.sndUna = c₀.sndUna ∨ ∃ s, e = .segment s ∧ c'.sndUna = s.ack := by
  obtain ⟨-, rfl⟩ | ⟨-, -, rfl⟩ := applyAck_eq_some happ
  · exact ho.una rfl
  · exact .inr ⟨s, hs, rfl⟩

/-- An acknowledgment that is applied offers the window in force. -/
theorem acknowledged {c' : Connection} {s : Segment} (ho : Offering h e now wall c₀ c.stay)
    (hs : e = .segment s) (hisAck : s.isAck) (happ : c.applyAck s = some c') :
    Offering h e now wall c₀ c'.stay where
  una := fun _ => ho.una_applyAck hs happ
  offered := by
    intro _
    obtain ⟨x, hx⟩ : ∃ x : Offer, x = ⟨s.ack, s.window, !c₀.sndUna.atMost s.ack⟩ := ⟨_, rfl⟩
    have hmem : x ∈ Stage.offers ⟨c₀, .event e now wall, c'.stay⟩ := by
      refine List.mem_append_left _ ?_
      simp [Stage.ackOffers, hs, hisAck, hx]
    refine ⟨x, List.mem_append_right _ hmem, ?_⟩
    rw [hx]
    obtain ⟨hnot, rfl⟩ | ⟨-, -, rfl⟩ := applyAck_eq_some happ
    · refine ⟨rfl, ?_⟩
      by_cases hsame : s.ack = c.sndUna
      · exact .inl hsame
      · -- SND.UNA was not moved before, as then it would be the number acknowledged
        have huna : c.sndUna = c₀.sndUna := by
          refine (ho.una rfl).resolve_right fun ⟨s', hs', hack⟩ => ?_
          cases hs.symm.trans hs'
          exact hsame hack.symm
        refine .inr ?_
        show (!c₀.sndUna.atMost s.ack) = true
        rw [Bool.not_eq_true', Bool.eq_false_iff, ← huna]
        intro hle
        rcases SeqNum.atMost_iff.mp hle with heq | hprec
        · exact hsame heq.symm
        · cases hnot.symm.trans hprec
    · exact ⟨rfl, .inl rfl⟩
  within := by rintro _ ⟨⟩

/-- A SYN that is answered offers the window in force. -/
theorem numbered {c₁ : Connection} {s : Segment}
    (offered : e = .segment s ∨ e = .relayConnected ∧ c₀.heldSyn = some s) (hsyn : s.isBareSyn) :
    Offering h e now wall c₀ (c₁.acceptSyn s now wall) where
  una := fun hnil => absurd hnil (List.cons_ne_nil _ _)
  offered := by
    intro _
    have haccepted : Stage.acceptedSyn ⟨c₀, .event e now wall, c₁.acceptSyn s now wall⟩ = some s :=
      acceptedSyn_eq_some offered hsyn (by simp [acceptSyn, Outcome.send, isSyn_synAckSegment])
    refine ⟨⟨(SeqNum.ofClock wall).next, s.window, false⟩, ?_, rfl, .inl rfl⟩
    refine List.mem_append_right _ (List.mem_append_right _ ?_)
    rw [Stage.synOffers, haccepted]
    exact List.mem_cons_self
  within := by
    intro p hp hfirst
    exact absurd (List.mem_singleton.mp hp ▸ rfl) (payload_ne_nil_of_isFirst hfirst)

/-- The FIN goes out behind what was sent before. -/
theorem fin (ho : Offering h e now wall c₀ o) (can_send : o.connection.phase.canSend)
    (is_ready : o.connection.isReadyToClose) :
    Offering h e now wall c₀ (o.sendFinIfReady now) := by
  obtain ⟨-, -, -, hgreeted⟩ := Phase.of_canSend can_send
  have hphase : (o.connection.afterFin now).phase.isGreeted := by
    show o.connection.phase.afterOurFin.isGreeted
    rcases Phase.afterOurFin_of_canSend can_send with hp | hp <;> exact hp ▸ rfl
  have hoffers : Stage.offers ⟨c₀, .event e now wall, o.sendFinIfReady now⟩ =
      Stage.offers ⟨c₀, .event e now wall, o⟩ := by
    rw [sendFinIfReady_eq now can_send is_ready]
    exact offers_congr (by simp [isSyn_finSegment]) rfl
  rw [sendFinIfReady_eq now can_send is_ready] at hoffers ⊢
  refine ⟨fun hnil => absurd hnil (by simp), fun _ => ?_, fun p hp hfirst => ⟨hphase, ?_⟩⟩
  · rw [hoffers]
    exact ho.offered hgreeted
  · rcases List.mem_append.mp hp with hold | hnew
    · exact (ho.within p hold hfirst).2
    · exact absurd (List.mem_singleton.mp hnew ▸ rfl) (payload_ne_nil_of_isFirst hfirst)

theorem settle (ho : Offering h e now wall c₀ o) : Offering h e now wall c₀ (settle o) := by
  obtain ⟨advertised, hc⟩ := settle_connection o
  have hoffers : Stage.offers ⟨c₀, .event e now wall, Connection.settle o⟩ =
      Stage.offers ⟨c₀, .event e now wall, o⟩ := offers_congr rfl (by rw [hc])
  refine ⟨?_, ?_, ?_⟩
  · rw [hc]
    exact ho.una
  · rw [hc, hoffers]
    exact ho.offered
  · rw [hc]
    exact ho.within

theorem step (ho : Offering h e now wall c₀ o) (hs : Sending h c₀ o)
    (hheld : o.connection.phase = .held → o.connection.heldSyn = c₀.heldSyn)
    (hstep : Step e now wall o o') : Offering h e now wall c₀ o' := by
  cases hstep with
  | recorded _ => exact ho.silent rfl rfl id
  | touched _ => exact ho.silent rfl rfl id
  | relayDone _ => exact ho.silent rfl rfl id
  | listened _ _ _ => exact ho.silent rfl rfl (by rintro ⟨⟩)
  | @heldSynAccepted c s is_connected is_held holds is_syn =>
    exact numbered (.inr ⟨is_connected, (hheld is_held).symm.trans holds⟩) is_syn
  | synAccepted is_segment _ is_syn => exact numbered (.inl is_segment) is_syn
  | synAckRepeated _ _ _ =>
    exact ho.bare rfl rfl id fun p hp => List.mem_singleton.mp hp ▸ rfl
  | synAckResent _ _ =>
    exact ho.bare rfl rfl id fun p hp => List.mem_singleton.mp hp ▸ rfl
  | @ackRefused c s _ _ =>
    obtain ⟨counters, hc⟩ := sendResetFor_connection c.stay s
    obtain ⟨resets, hsegments, hlength⟩ := sendResetFor_segments c.stay s
    refine ho.bare (by rw [hc]; rfl) (by rw [hc]; rfl) (by rw [hc]; exact id) fun p hp => ?_
    rw [hsegments] at hp
    exact (length_eq_zero_iff.mp (hlength p hp)).1
  | @established c s _ is_opening _ _ _ =>
    exact ho.silent rfl rfl fun _ => is_opening ▸ rfl
  | acknowledged is_segment is_ack _ _ applied => exact ho.acknowledged is_segment is_ack applied
  | @lastAcknowledged c c' s fin is_segment _ _ _ applied =>
    have huna : c'.sndUna = c₀.sndUna ∨ ∃ s, e = .segment s ∧ c'.sndUna = s.ack :=
      ho.una_applyAck is_segment applied
    exact ⟨fun _ => huna, by rintro ⟨⟩, by rintro _ ⟨⟩⟩
  | received _ _ not_empty accepted =>
    obtain ⟨-, -, rfl⟩ := acceptPayload_eq_some accepted not_empty
    exact ho.silent rfl rfl id
  | @finReceived c s _ _ is_established =>
    exact ho.bare rfl rfl (fun _ => is_established ▸ rfl)
      fun p hp => List.mem_singleton.mp hp ▸ rfl
  | @lastFinReceived c s p _ _ ends =>
    refine ho.bare rfl rfl (fun _ => ?_) fun p hp => List.mem_singleton.mp hp ▸ rfl
    rcases ends with ⟨hp, -⟩ | ⟨hp, -⟩ <;> exact hp ▸ rfl
  | @finAcknowledged c s _ _ is_waiting _ =>
    exact ho.silent rfl rfl fun _ => is_waiting ▸ rfl
  | answered _ => exact ho.bare rfl rfl id fun p hp => List.mem_singleton.mp hp ▸ rfl
  | @dataSent c can_send not_empty =>
    obtain ⟨-, -, -, hgreeted⟩ := Phase.of_canSend can_send
    refine ho.kept rfl rfl id fun p hp _ => ⟨hgreeted, ?_⟩
    obtain rfl := List.mem_singleton.mp hp
    exact dataSegment_atMost now hs.flight not_empty
  | @resent c x rest _ is_synchronized is_oldest _ =>
    refine ho.kept rfl rfl id fun p hp hfirst => ?_
    have hrepeats : Repeats c.stay.connection c.stay.connection p :=
      .oldest is_synchronized is_oldest (List.mem_singleton.mp hp)
    rw [hs.isFirst_of_repeats rfl hrepeats] at hfirst
    cases hfirst
  | finRepeated _ _ => exact ho.bare rfl rfl id fun p hp => List.mem_singleton.mp hp ▸ rfl
  | finSent _ can_send is_ready => exact ho.fin can_send is_ready
  | closed closes =>
    obtain ⟨held, counters, hc⟩ := closes.connection_eq
    refine ho.bare (by rw [hc]) (by rw [hc]; rfl) (by rw [hc]; rintro ⟨⟩) fun p hp => ?_
    exact (length_eq_zero_iff.mp (closes.segments_length p hp)).1
  | settled => exact ho.settle

end Offering

/-! ## Between events -/

/-- Once the client was answered, an offer of the history is in force. -/
def Offered (h : History) (c : Connection) : Prop :=
  c.phase.isGreeted → ∃ x ∈ h.offers, InForce x c

namespace Offered

variable {h : History} {c : Connection}

theorem process (ho : Offered h c) (hflight : Flight c)
    (hd : Delivered h.iss? h.written h.firstSent c) (e : Event) (now wall : Nat) :
    Offering h e now wall c (c.process e now wall) := by
  have hstart : Offering h e now wall c c.stay := by
    refine ⟨fun _ => .inl rfl, fun hp => ?_, by rintro _ ⟨⟩⟩
    obtain ⟨x, hx, hforce⟩ := ho hp
    exact ⟨x, List.mem_append_left _ hx, hforce⟩
  refine (held_induction (P := fun o => Sending h c o ∧ Offering h e now wall c o)
    ⟨.start hflight hd, hstart⟩ ?_).2
  rintro o o' hheld ⟨hs, ho⟩ hstep
  exact ⟨hs.effect hstep.effect (hs.flight.step hstep), ho.step hs hheld hstep⟩

theorem apply (m : Move) (ho : Offered h c) (hflight : Flight c)
    (hd : Delivered h.iss? h.written h.firstSent c) :
    Offered (h ++ [c.stage m]) (c.apply m).connection := by
  rw [Offered, h.offers_concat]
  rcases c.event_or_bufferMove m with ⟨e, now, wall, rfl⟩ | hmove
  · exact (ho.process hflight hd e now wall).offered
  · obtain ⟨down, up, hc⟩ := hmove.connection_eq
    rw [hc]
    intro hp
    obtain ⟨x, hx, hforce⟩ := ho hp
    exact ⟨x, List.mem_append_left _ hx, hforce⟩

theorem begin (flow : Flow) (held : Option Segment) (options : ConnectionOptions) (t₀ : Nat) :
    Offered [] (begin flow held options t₀) := by
  cases held <;> rintro ⟨⟩

end Offered

/-- How far the data goes that a stage behind the history `h` sends for the first time. -/
structure FlowControlled (h : History) (st : Stage) : Prop where
  /-- An offer is in force, which starts at SND.UNA or is stale. -/
  offered : st.after.phase.isGreeted → ∃ x ∈ History.offers (h ++ [st]), InForce x st.after
  /-- New data ends before the edge of an offer, or before SND.UNA and the window of a stale one. -/
  within : ∀ p ∈ st.firstSent, ∃ x ∈ History.offers (h ++ [st]),
    (p.seq.add p.payload.length).atMost x.edge ∨
      x.stale ∧ (p.seq.add p.payload.length).atMost (st.after.sndUna.add x.window.toNat)

theorem Offered.flowControlled {h : History} {c : Connection} (m : Move) (ho : Offered h c)
    (hflight : Flight c) (hd : Delivered h.iss? h.written h.firstSent c) :
    FlowControlled h (c.stage m) where
  offered := ho.apply m hflight hd
  within := by
    intro p hp
    obtain ⟨hmem, hfirst⟩ := List.mem_filter.mp hp
    obtain ⟨e, now, wall, rfl⟩ := event_of_mem_segments hmem
    have hoffering := ho.process hflight hd e now wall
    obtain ⟨hgreeted, hend⟩ := hoffering.within p hmem hfirst
    obtain ⟨x, hx, hforce⟩ := hoffering.offered hgreeted
    obtain ⟨hedge, hsame | hstale⟩ := hforce.edge_eq
    · refine ⟨x, h.offers_concat _ ▸ hx, .inl ?_⟩
      rw [hsame]
      exact hend
    · refine ⟨x, h.offers_concat _ ▸ hx, .inr ⟨hstale, ?_⟩⟩
      rw [hedge] at hend
      exact hend

/-- Flow control, for every move after every run: what is sent for the first time ends before the
edge of a window that the client has advertised, unless the window in force came with a stale
acknowledgment and is counted from SND.UNA. -/
theorem flowControlled_run (flow : Flow) (held : Option Segment) (options : ConnectionOptions)
    (t₀ : Nat) (moves : List Move) (m : Move) :
    let c₀ := begin flow held options t₀
    FlowControlled (c₀.history moves) ((c₀.run moves).stage m) := by
  intro c₀
  obtain ⟨hflight, hd, ho⟩ := run_induction
    (P := fun h c => Flight c ∧ Delivered h.iss? h.written h.firstSent c ∧ Offered h c)
    ⟨.begin flow held options t₀, .begin flow held options t₀, .begin flow held options t₀⟩
    (fun _ _ m ⟨hflight, hd, ho⟩ =>
      ⟨hflight.apply m, hd.apply m hflight, ho.apply m hflight hd⟩) moves
  exact ho.flowControlled m hflight hd

/-- A client with room for four bytes is sent eight: its first acknowledgment, which offers the room
behind the handshake, arrives once more after the one that acknowledges four bytes and closes the
window, and the room is counted from there. -/
theorem staleWindow_overruns :
    let client (seq ack : UInt32) (flags : Flags) (window : UInt16) : Move :=
      .event
        (.segment { flow := default, seq := ⟨seq⟩, ack := ⟨ack⟩, flags, window, payload := [] })
        0 4000000000
    let options :=
      { maxPayload := 1400, windowSize := 65535, resendInterval := 100, idleTimeout := 300000 }
    let moves := [client 1000 0 .syn 4,
      .writeDownlink [0x61, 0x62, 0x63, 0x64, 0x65, 0x66, 0x67, 0x68],
      client 1001 1000000001 .ack 4, client 1001 1000000005 .ack 0, client 1001 1000000001 .ack 4]
    let h := (begin default none options 0).history moves
    ∃ p ∈ h.firstSent, ∀ x ∈ h.offers, (p.seq.add p.payload.length).atMost x.edge = false := by
  decide +kernel

end Connection

end TcpGateway
