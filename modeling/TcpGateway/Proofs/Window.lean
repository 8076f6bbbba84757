import TcpGateway.Proofs.Intake
import TcpGateway.Proofs.Outgoing

/-!
# The receive window is never taken back

The bytes taken from the client are those that the relay's side has removed and those that the
uplink still holds (`Drained`).  With the window being the room left in the uplink, RCV.NXT and
RCV.WND add up to the capacity, the bytes removed and the client's FIN, none of which ever becomes
less.  So the right edge of the window only moves forward, and what once fitted still fits.

Edges are compared as offsets from the number behind the client's SYN, which do not wrap.
-/

namespace TcpGateway

/-- The bytes that were removed from the uplink. -/
def Stage.removed (st : Stage) : Bytes :=
  match st.move with
  | .discardUplink n =>
    match st.before.uplink.buffer.discard n with
    | .ok _ => st.before.uplink.buffer.bytes.take n
    | .error _ => []
  | _ => []

namespace History

/-- All bytes ever removed from the uplink. -/
def removed (h : History) : Bytes := h.flatMap Stage.removed

/-- How many numbers behind the client's SYN were consumed, by its bytes and its FIN. -/
def consumed (h : History) : Nat := h.taken.length + h.finsTaken

/-- Whether `p` is sent by the last stage and is no reset. -/
def Sends (h : History) (p : Segment) : Prop :=
  ∃ front st, h = front ++ [st] ∧ p ∈ st.outcome.segments ∧ p.isRst = false

/-- The right edge of the window that `p` shows if it is sent by the last stage. -/
def edge (h : History) (p : Segment) : Nat := h.consumed + p.window.toNat

theorem removed_concat (h : History) (st : Stage) :
    removed (h ++ [st]) = h.removed ++ st.removed := by
  simp [removed]

/-- What was removed and the FINs that were taken only become more. -/
theorem removed_mono {h₁ h₂ : History} (h : h₁ <+: h₂) :
    h₁.removed.length ≤ h₂.removed.length ∧ h₁.finsTaken ≤ h₂.finsTaken := by
  obtain ⟨rest, rfl⟩ := h
  simp [removed, finsTaken, List.countP_append]

end History

namespace Connection

/-- A move that is no event removes from the uplink what is missing afterwards. -/
theorem removed_append {c : Connection} {m : Move} (h : ∀ e now wall, m ≠ .event e now wall) :
    (c.stage m).removed ++ (c.apply m).connection.uplink.buffer.bytes =
      c.uplink.buffer.bytes := by
  cases m with
  | event e now wall => exact absurd rfl (h e now wall)
  | writeDownlink data =>
    simp only [Stage.removed, apply]
    split <;> rfl
  | writeSomeDownlink data =>
    simp only [Stage.removed, apply]
    split <;> rfl
  | closeDownlink => rfl
  | discardUplink n =>
    cases hd : c.uplink.buffer.discard n with
    | error fault => simp [Stage.removed, apply, hd, stay]
    | ok b =>
      obtain ⟨rfl, -⟩ := Buffer.discard_eq_ok hd
      simp [Stage.removed, apply, hd, stay]
  | closeUplink => rfl

/-- What was taken from the client was removed or is held. -/
def Drained (h : History) (c : Connection) : Prop :=
  h.taken = h.removed ++ c.uplink.buffer.bytes

theorem Drained.apply {h : History} {c : Connection} (m : Move) (hflight : Flight c)
    (hd : Drained h c) : Drained (h ++ [c.stage m]) (c.apply m).connection := by
  rw [Drained] at hd ⊢
  rw [h.taken_concat, h.removed_concat, hd, List.append_assoc, List.append_assoc]
  rcases c.event_or_bufferMove m with ⟨e, now, wall, rfl⟩ | hmove
  · have happended := (process_receiving hflight e now wall).taken.1
    exact congrArg (h.removed ++ ·) happended.symm
  · rw [hmove.taken_eq_nil, removed_append hmove.not_event, List.append_nil]

/-- What the history `h` and the connection `c` behind it agree on about the window. -/
structure Windowed (flow : Flow) (held : Option Segment) (options : ConnectionOptions)
    (h : History) (c : Connection) : Prop where
  flight : Flight c
  received : Received h c
  rooted : Rooted flow held options c
  drained : Drained h c

namespace Windowed

variable {flow : Flow} {held : Option Segment} {options : ConnectionOptions} {h : History}
  {c : Connection}

/-- RCV.NXT and RCV.WND add up to what never becomes less. -/
theorem conserved (hw : Windowed flow held options h c) :
    h.consumed + c.rcvWnd = options.windowSize.toNat + h.removed.length + h.finsTaken := by
  have hwindow := hw.rooted.rcvWnd_add_length
  have htaken := congrArg List.length hw.drained
  rw [List.length_append] at htaken
  change c.rcvWnd + c.uplink.buffer.bytes.length = _ at hwindow
  rw [History.consumed]
  omega

theorem apply (m : Move) (hw : Windowed flow held options h c) :
    Windowed flow held options (h ++ [c.stage m]) (c.apply m).connection where
  flight := hw.flight.apply m
  received := hw.received.apply m hw.flight
  rooted := hw.rooted.apply m
  drained := hw.drained.apply m hw.flight

theorem begin (flow : Flow) (held : Option Segment) (options : ConnectionOptions) (t₀ : Nat) :
    Windowed flow held options [] (begin flow held options t₀) where
  flight := .begin flow held options t₀
  received := .begin flow held options t₀
  rooted := .begin flow held options t₀
  drained := by cases held <;> rfl

end Windowed

theorem windowed_run (flow : Flow) (held : Option Segment) (options : ConnectionOptions)
    (t₀ : Nat) (moves : List Move) :
    let c₀ := begin flow held options t₀
    Windowed flow held options (c₀.history moves) (c₀.run moves) :=
  run_induction (P := Windowed flow held options) (.begin flow held options t₀)
    (fun _ _ m hw => hw.apply m) moves

/-! ## Segments are sent behind the client's SYN -/

/-- What is sent to a client that was not answered before: resets, unless it is answered now. -/
structure Greets (o : Outcome) : Prop where
  silent : o.segments = [] → o.connection.phase.isGreeted = false
  greeted : ∀ p ∈ o.segments, p.isRst = false → o.connection.phase.isGreeted

namespace Greets

variable {e : Event} {now wall : Nat} {c : Connection} {o o' : Outcome}

theorem of_silent {c' : Connection} (h : c'.phase.isGreeted = false) : Greets c'.stay :=
  ⟨fun _ => h, by rintro _ ⟨⟩⟩

theorem of_isGreeted (hsends : o.segments ≠ []) (h : o.connection.phase.isGreeted) : Greets o :=
  ⟨fun hnil => absurd hnil hsends, fun _ _ _ => h⟩

/-- Before anything is sent, no step finds the client answered. -/
theorem absurd_isGreeted (hg : Greets c.stay) (h : c.phase.isGreeted) : Greets o := by
  cases (hg.silent rfl).symm.trans h

theorem step (hg : Greets o) (hstep : Step e now wall o o') : Greets o' := by
  cases hstep with
  | recorded _ => exact of_silent (hg.silent rfl)
  | touched _ => exact of_silent (hg.silent rfl)
  | relayDone _ => exact of_silent (hg.silent rfl)
  | listened _ _ _ => exact of_silent rfl
  | heldSynAccepted _ _ _ _ => exact of_isGreeted (List.cons_ne_nil _ _) rfl
  | synAccepted _ _ _ => exact of_isGreeted (List.cons_ne_nil _ _) rfl
  | synAckRepeated _ _ is_opening => exact hg.absurd_isGreeted (is_opening ▸ rfl)
  | synAckResent _ is_opening => exact hg.absurd_isGreeted (is_opening ▸ rfl)
  | ackRefused _ is_opening => exact hg.absurd_isGreeted (is_opening ▸ rfl)
  | established _ is_opening _ _ _ => exact hg.absurd_isGreeted (is_opening ▸ rfl)
  | acknowledged _ _ is_synchronized _ _ =>
    exact hg.absurd_isGreeted (Phase.isGreeted_of_isSynchronized is_synchronized)
  | lastAcknowledged _ is_lastAck _ _ _ => exact hg.absurd_isGreeted (is_lastAck ▸ rfl)
  | @received c _ _ _ can_receive _ _ =>
    refine hg.absurd_isGreeted ?_
    cases hp : c.phase <;> simp_all [Phase.canReceive, Phase.isGreeted]
  | finReceived _ _ is_established => exact hg.absurd_isGreeted (is_established ▸ rfl)
  | lastFinReceived _ _ ends =>
    refine hg.absurd_isGreeted ?_
    rcases ends with ⟨hp, -⟩ | ⟨hp, -⟩ <;> exact hp ▸ rfl
  | finAcknowledged _ _ is_waiting _ => exact hg.absurd_isGreeted (is_waiting ▸ rfl)
  | answered is_greeted => exact hg.absurd_isGreeted is_greeted
  | dataSent can_send _ => exact hg.absurd_isGreeted (Phase.of_canSend can_send).2.2.2
  | resent _ is_synchronized _ _ =>
    exact hg.absurd_isGreeted (Phase.isGreeted_of_isSynchronized is_synchronized)
  | finRepeated is_lastAck _ => exact hg.absurd_isGreeted (is_lastAck ▸ rfl)
  | finSent _ can_send is_ready =>
    rw [sendFinIfReady_eq now can_send is_ready]
    refine of_isGreeted (by simp) ?_
    show o.connection.phase.afterOurFin.isGreeted
    rcases Phase.afterOurFin_of_canSend can_send with hp | hp <;> exact hp ▸ rfl
  | closed closes =>
    obtain ⟨held, counters, hc⟩ := closes.connection_eq
    refine ⟨fun _ => by rw [hc]; rfl, fun p hp hrst => ?_⟩
    cases hrst.symm.trans (closes.segments_isRst p hp)
  | settled =>
    obtain ⟨advertised, hc⟩ := settle_connection o
    exact ⟨by rw [hc]; exact hg.silent, by rw [hc]; exact hg.greeted⟩

end Greets

/-- What is no reset is sent to a client whose SYN was accepted before or is accepted now. -/
theorem Received.isSome_of_mem_segments {h : History} {c : Connection} (hr : Received h c)
    {e : Event} {now wall : Nat} {p : Segment} (hflight : Flight c)
    (hp : p ∈ (c.process e now wall).segments) (hrst : p.isRst = false) :
    (History.irs? (h ++ [c.stage (.event e now wall)])).isSome := by
  by_cases hc : c.phase.isGreeted
  · have hsome := hr.greeted hc
    cases haccepted : (c.stage (.event e now wall)).acceptedSyn with
    | none => exact h.irs?_concat_none _ haccepted ▸ hsome
    | some s =>
      rw [h.irs?_concat_some _ haccepted]
      rfl
  · have hgreets : Greets (c.process e now wall) :=
      event_induction (P := Greets) (.of_silent (by simpa using hc)) fun _ _ => .step
    exact (hr.apply (.event e now wall) hflight).greeted (hgreets.greeted p hp hrst)

/-! ## The edges that segments show -/

/-- A segment that is no reset shows RCV.NXT, counted behind the client's SYN, and the edge of the
window at the end of its stage. -/
theorem sends_run (flow : Flow) (held : Option Segment) (options : ConnectionOptions)
    (t₀ : Nat) {moves : List Move} {h : History} {p : Segment}
    (hfront : h <+: (begin flow held options t₀).history moves) (hp : h.Sends p) :
    (∃ irs, h.irs? = some irs ∧ p.ack = irs.next.add h.consumed) ∧
      h.edge p = options.windowSize.toNat + h.removed.length + h.finsTaken := by
  obtain ⟨front, st, rfl, hmem, hrst⟩ := hp
  obtain ⟨rest, hrest⟩ := hfront
  rw [List.append_assoc] at hrest
  obtain ⟨moves₁, m, rfl, rfl⟩ := history_split hrest.symm
  have hw := windowed_run flow held options t₀ moves₁
  have hw' := hw.apply m
  obtain ⟨e, now, wall, rfl⟩ := event_of_mem_segments hmem
  obtain ⟨-, hack, hwindow⟩ :=
    ((Outbox.process hw.rooted e now wall).outgoing p hmem).current hrst
  obtain ⟨irs, hirs⟩ := Option.isSome_iff_exists.mp
    (hw.received.isSome_of_mem_segments hw.flight hmem hrst)
  rw [History.edge, hwindow]
  exact ⟨⟨irs, hirs, hack.trans (hw'.received.next irs hirs)⟩, hw'.conserved⟩

/-- What a run `h`, which leads to the connection `c`, shows of the receive window. -/
structure NeverShrinks (options : ConnectionOptions) (h : History) (c : Connection) : Prop where
  /-- A client that was answered has its SYN accepted. -/
  greeted : c.phase.isGreeted → h.irs?.isSome
  /-- RCV.NXT is counted behind the SYN that was accepted last. -/
  next : ∀ irs, h.irs? = some irs → c.rcvNxt = irs.next.add h.consumed
  conserved : h.consumed + c.rcvWnd = options.windowSize.toNat + h.removed.length + h.finsTaken
  fin_once : h.finsTaken ≤ 1
  /-- The number at the right edge that a segment shows. -/
  shown : ∀ (h₁ : History) (p : Segment), h₁ <+: h → h₁.Sends p → ∃ irs, h₁.irs? = some irs ∧
    p.ack = irs.next.add h₁.consumed ∧ p.ack.add p.window.toNat = irs.next.add (h₁.edge p)
  /-- No segment shows an edge behind that of an earlier one. -/
  forward : ∀ (h₁ h₂ : History) (p q : Segment), h₁ <+: h₂ → h₂ <+: h → h₁.Sends p → h₂.Sends q →
    h₁.edge p ≤ h₂.edge q
  /-- What starts at RCV.NXT and ends before an edge shown earlier is accepted. -/
  accepts : ∀ (h₁ : History) (p s : Segment), h₁ <+: h → h₁.Sends p → s.seq = c.rcvNxt →
    h.consumed + s.payload.length ≤ h₁.edge p → c.uplink.inWindow s.seq s.payload.length

/-- The receive window is never taken back.  After every run RCV.NXT and RCV.WND add up to the
capacity, the bytes removed and the client's FIN; the right edges that segments show only move
forward; and a segment at RCV.NXT that ends before any edge shown so far passes the window check. -/
theorem neverShrinks_run (flow : Flow) (held : Option Segment) (options : ConnectionOptions)
    (t₀ : Nat) (moves : List Move) :
    let c₀ := begin flow held options t₀
    NeverShrinks options (c₀.history moves) (c₀.run moves) := by
  intro c₀
  have hw : Windowed flow held options (c₀.history moves) (c₀.run moves) :=
    windowed_run flow held options t₀ moves
  exact {
    greeted := hw.received.greeted
    next := hw.received.next
    conserved := hw.conserved
    fin_once := hw.received.fin_once
    shown := by
      intro h₁ p hfront hp
      obtain ⟨irs, hirs, hack⟩ := (sends_run flow held options t₀ hfront hp).1
      exact ⟨irs, hirs, hack, by rw [hack, SeqNum.add_add, History.edge]⟩
    forward := by
      intro h₁ h₂ p q hmono hfront hp hq
      have hedge := (sends_run flow held options t₀ (hmono.trans hfront) hp).2
      have hedge' := (sends_run flow held options t₀ hfront hq).2
      have hle := History.removed_mono hmono
      omega
    accepts := by
      intro h₁ p s hfront hp hseq hle
      have hedge := (sends_run flow held options t₀ hfront hp).2
      have hmono := History.removed_mono hfront
      have hconserved := hw.conserved
      have hfits : s.payload.length ≤ (c₀.run moves).uplink.window := by
        change _ + (c₀.run moves).uplink.window = _ at hconserved
        omega
      change s.seq = (c₀.run moves).uplink.nxt at hseq
      simp [Uplink.inWindow, hseq, hfits] }

end Connection

end TcpGateway
