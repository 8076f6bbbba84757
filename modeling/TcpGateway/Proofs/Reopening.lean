import TcpGateway.Proofs.Answer
import TcpGateway.Proofs.Closed
import TcpGateway.Proofs.Handshake
import TcpGateway.Proofs.Timer
import TcpGateway.Proofs.Window

/-!
# A closed window is reopened

A client that was told a closed window sends nothing more until it is told otherwise, so somebody
has to tell it once there is room again.  That is the timer: if it finds nothing else to send it
sends a bare acknowledgment, provided that the window noted at the last sending was zero.

The note is taken of resets too, which show no window to the client.  It is right nevertheless
(`advertised_run`): a reset either closes the connection or is sent in phase SynReceived, where the
window is as large as it can be.
-/

namespace TcpGateway

theorem Phase.isSynchronized_of_canReceive {p : Phase} (h : p.canReceive) : p.isSynchronized := by
  cases p <;> simp_all [canReceive, isSynchronized]

/-- The window shown by the last of some segments that is no reset. -/
def shownWindow? (segments : List Segment) : Option Nat :=
  (segments.filter (!·.isRst)).getLast?.map (·.window.toNat)

theorem shownWindow?_append_resets {l l' : List Segment} (h : ∀ p ∈ l', p.isRst) :
    shownWindow? (l ++ l') = shownWindow? l := by
  have hnil : l'.filter (!·.isRst) = [] := by
    rw [List.filter_eq_nil_iff]
    intro p hp
    simp [h p hp]
  rw [shownWindow?, List.filter_append, hnil, List.append_nil, shownWindow?]

/-- If not all of the last segments are resets, then one of them shows the window. -/
theorem shownWindow?_append {l l' : List Segment} {P : Nat → Prop}
    (hall : ∀ p ∈ l', p.isRst = false → P p.window.toNat) (hsome : ∃ p ∈ l', p.isRst = false) :
    ∃ w, shownWindow? (l ++ l') = some w ∧ P w := by
  obtain ⟨p, hp, hrst⟩ := hsome
  obtain ⟨q, hq⟩ : ∃ q, (l'.filter (!·.isRst)).getLast? = some q := by
    rw [← Option.isSome_iff_exists, List.getLast?_isSome]
    exact List.ne_nil_of_mem (List.mem_filter.mpr ⟨hp, by simp [hrst]⟩)
  obtain ⟨hmem, hqrst⟩ := List.mem_filter.mp (List.mem_of_getLast? hq)
  rw [Bool.not_eq_true'] at hqrst
  refine ⟨q.window.toNat, ?_, hall q hmem hqrst⟩
  rw [shownWindow?, List.filter_append, List.getLast?_append, hq]
  rfl

namespace Connection

theorem sent_concat (c : Connection) (moves : List Move) (m : Move) :
    c.sent (moves ++ [m]) = c.sent moves ++ ((c.run moves).apply m).segments := by
  induction moves generalizing c with
  | nil => simp [sent, outcomes, run]
  | cons m' moves ih =>
    have hih := ih (c.apply m').connection
    simp only [sent] at hih
    simp [sent, outcomes, hih, run]

theorem sent_append (c : Connection) (moves moves' : List Move) :
    c.sent (moves ++ moves') = c.sent moves ++ (c.run moves).sent moves' := by
  induction moves' using List.reverseRecOn with
  | nil => simp [sent, outcomes]
  | append_singleton moves' m ih =>
    rw [← List.append_assoc, sent_concat, sent_concat, ih, run_append, List.append_assoc]

/-! ## The note of the window -/

theorem settle_advertised (o : Outcome) :
    (settle o).connection.advertised =
      if o.segments = [] then o.connection.advertised else o.connection.rcvWnd := by
  rw [settle]
  cases o.segments <;> by_cases hp : o.connection.phase = .closed <;> simp [hp]

/-- What an event that found the connection `c` has noted and sent so far. -/
structure Noting (c : Connection) (o : Outcome) : Prop where
  same : o.segments = [] → o.connection.advertised = c.advertised
  /-- If only resets were sent, the connection is closed or in the handshake. -/
  resets : o.segments ≠ [] → (∀ p ∈ o.segments, p.isRst) →
    o.connection.phase = .closed ∨ o.connection.phase = .synReceived

namespace Noting

variable {e : Event} {now wall : Nat} {c c' c'' : Connection} {o o' : Outcome}

theorem silent (h : Noting c c'.stay) (hsame : c''.advertised = c'.advertised) :
    Noting c c''.stay :=
  ⟨fun _ => hsame.trans (h.same rfl), fun hne => absurd rfl hne⟩

theorem of_plain {p : Segment} (hp : p ∈ o.segments) (hplain : p.isRst = false) : Noting c o := by
  refine ⟨fun hnil => ?_, fun _ hall => ?_⟩
  · rw [hnil] at hp
    cases hp
  · cases hplain.symm.trans (hall p hp)

theorem step (h : Noting c o) (hstep : Step e now wall o o') : Noting c o' := by
  have hack : Flags.ack.has .rst = false := by decide
  have hsynAck : (Flags.syn ||| Flags.ack).has .rst = false := by decide
  have hfin : (Flags.fin ||| Flags.ack).has .rst = false := by decide
  have hdata : (Flags.ack ||| Flags.psh).has .rst = false := by decide
  cases hstep with
  | recorded _ => exact h.silent rfl
  | touched _ => exact h.silent rfl
  | relayDone _ => exact h.silent rfl
  | listened _ _ _ => exact h.silent rfl
  | heldSynAccepted _ _ _ _ => exact of_plain List.mem_cons_self hsynAck
  | synAccepted _ _ _ => exact of_plain List.mem_cons_self hsynAck
  | synAckRepeated _ _ _ => exact of_plain List.mem_cons_self hsynAck
  | synAckResent _ _ => exact of_plain List.mem_cons_self hsynAck
  | @ackRefused c' s _ is_opening =>
    obtain ⟨counters, hc⟩ := sendResetFor_connection c'.stay s
    refine ⟨fun _ => ?_, fun _ _ => .inr ?_⟩
    · rw [hc]
      exact h.same rfl
    · rw [hc]
      exact is_opening
  | established _ _ _ _ _ => exact h.silent rfl
  | acknowledged _ _ _ _ applied =>
    obtain ⟨-, rfl⟩ | ⟨-, -, rfl⟩ := applyAck_eq_some applied <;> exact h.silent rfl
  | lastAcknowledged _ _ _ _ applied =>
    obtain ⟨-, rfl⟩ | ⟨-, -, rfl⟩ := applyAck_eq_some applied <;> exact h.silent rfl
  | received _ _ not_empty accepted =>
    obtain ⟨-, -, rfl⟩ := acceptPayload_eq_some accepted not_empty
    exact h.silent rfl
  | finReceived _ _ _ => exact of_plain List.mem_cons_self hack
  | lastFinReceived _ _ _ => exact of_plain List.mem_cons_self hack
  | finAcknowledged _ _ _ _ => exact h.silent rfl
  | answered _ => exact of_plain List.mem_cons_self hack
  | dataSent _ _ => exact of_plain List.mem_cons_self hdata
  | @resent c' x rest _ _ _ _ =>
    refine of_plain (p := c'.repeated x) List.mem_cons_self ?_
    rcases c'.flags_repeated x with hflags | hflags
    · rw [Segment.isRst, hflags, hfin]
    · rw [Segment.isRst, hflags, hdata]
  | finRepeated _ _ => exact of_plain List.mem_cons_self hfin
  | finSent _ can_send is_ready =>
    rw [sendFinIfReady_eq now can_send is_ready]
    exact of_plain (List.mem_append_right _ List.mem_cons_self) hfin
  | closed closes =>
    obtain ⟨held, counters, hc⟩ := closes.connection_eq
    refine ⟨fun _ => ?_, fun _ _ => .inl ?_⟩
    · rw [hc]
      exact h.same rfl
    · rw [hc]
  | settled =>
    refine ⟨fun hnil => ?_, fun hne hall => ?_⟩
    · rw [settle_advertised]
      exact (if_pos hnil).trans (h.same hnil)
    · rw [settle_phase]
      exact h.resets hne hall

theorem process (c : Connection) (e : Event) (now wall : Nat) : Noting c (c.process e now wall) :=
  event_induction (.silent ⟨fun _ => rfl, fun hne => absurd rfl hne⟩ rfl) fun _ _ => step

end Noting

/-- An event that sends something notes the window that it leaves behind. -/
theorem process_advertised {c : Connection} {e : Event} {now wall : Nat}
    (hne : (c.process e now wall).segments ≠ []) :
    (c.process e now wall).connection.advertised = (c.process e now wall).connection.rcvWnd := by
  obtain ⟨advertised, hc⟩ := settle_connection (c.dispatch e now wall)
  have hwindow : (c.process e now wall).connection.rcvWnd =
      (c.dispatch e now wall).connection.rcvWnd := by
    rw [process, hc]
    rfl
  rw [hwindow, process, settle_advertised]
  exact if_neg hne

/-- In the handshake the window is as large as it can be. -/
theorem Windowed.rcvWnd_of_isOpening {flow : Flow} {held : Option Segment}
    {options : ConnectionOptions} {h : History} {c : Connection}
    (hw : Windowed flow held options h c) (hp : c.phase.isOpening) :
    c.rcvWnd = options.windowSize.toNat := by
  obtain ⟨htaken, -⟩ := hw.received.opening hp
  have hdrained := hw.drained
  rw [Drained, htaken] at hdrained
  have hempty : c.uplink.buffer.bytes = [] := (List.append_eq_nil_iff.mp hdrained.symm).2
  have hwindow := hw.rooted.rcvWnd_add_length
  rw [Buffer.length, hempty] at hwindow
  exact hwindow

/-- The note of `c` is right, behind a run that has sent `segments`. -/
structure Noted (options : ConnectionOptions) (segments : List Segment) (c : Connection) : Prop where
  shown : c.phase ≠ .closed → ∀ w, shownWindow? segments = some w → c.advertised = w
  opening : c.phase.isOpening → c.advertised = options.windowSize.toNat

namespace Noted

variable {flow : Flow} {held : Option Segment} {options : ConnectionOptions} {h : History}
  {c : Connection} {segments : List Segment}

theorem event (hn : Noted options segments c) (hw : Windowed flow held options h c)
    (hfinal : c.phase = .closed → Final c) (e : Event) (now wall : Nat) :
    Noted options (segments ++ (c.process e now wall).segments)
      (c.process e now wall).connection := by
  have hw' := hw.apply (.event e now wall)
  have hnoting : Noting c (c.process e now wall) := .process c e now wall
  have hopening : (c.process e now wall).connection.phase.isOpening → c.phase.isOpening :=
    isOpening_of_apply (m := .event e now wall)
  by_cases hnil : (c.process e now wall).segments = []
  · have hsame := hnoting.same hnil
    rw [hnil, List.append_nil]
    refine ⟨fun hp w hshown => ?_, fun hp => hsame.trans (hn.opening (hopening hp))⟩
    have hopen : c.phase ≠ .closed := fun hclosed =>
      hp ((hfinal hclosed).apply (.event e now wall) ⟨rfl, rfl, rfl⟩).1.phase
    exact hsame.trans (hn.shown hopen w hshown)
  · have hnoted := process_advertised hnil
    refine ⟨fun hp w hshown => ?_, fun hp => hnoted.trans (hw'.rcvWnd_of_isOpening hp)⟩
    by_cases hall : ∀ p ∈ (c.process e now wall).segments, p.isRst
    · rw [shownWindow?_append_resets hall] at hshown
      have hphase := (hnoting.resets hnil hall).resolve_left hp
      have hopen : (c.process e now wall).connection.phase.isOpening := hphase ▸ rfl
      have hlargest := hw'.rcvWnd_of_isOpening hopen
      rw [← hn.opening (hopening hopen)] at hlargest
      have hwas := Phase.ne_closed_of_isOpening (hopening hopen)
      exact hnoted.trans (hlargest.trans (hn.shown hwas w hshown))
    · simp only [not_forall, exists_prop, Bool.not_eq_true] at hall
      have hcurrent : ∀ p ∈ (c.process e now wall).segments, p.isRst = false →
          p.window.toNat = (c.process e now wall).connection.rcvWnd := fun p hp hrst =>
        (((Outbox.process hw.rooted e now wall).outgoing p hp).current hrst).2.2
      obtain ⟨w', hw', hwindow⟩ := shownWindow?_append (P := (· = _)) hcurrent hall
      rw [hshown, Option.some.injEq] at hw'
      exact hnoted.trans (hwindow.symm.trans hw'.symm)

theorem isWindowReopened (hn : Noted options segments c) (hp : c.phase.canReceive)
    (hshut : shownWindow? segments = some 0) (hroom : 0 < c.rcvWnd) : c.isWindowReopened := by
  have hopen := Phase.ne_closed_of_isSynchronized (Phase.isSynchronized_of_canReceive hp)
  simp [Connection.isWindowReopened, hp, hn.shown hopen 0 hshut, hroom]

theorem not_isWindowReopened (hn : Noted options segments c)
    (hshown : ∃ w, shownWindow? segments = some w ∧ w ≠ 0) : c.isWindowReopened = false := by
  obtain ⟨w, hw, hne⟩ := hshown
  by_contra hreopened
  rw [Bool.not_eq_false, Connection.isWindowReopened, Bool.and_eq_true, Bool.and_eq_true,
    beq_iff_eq] at hreopened
  obtain ⟨⟨hp, hzero⟩, -⟩ := hreopened
  have hopen := Phase.ne_closed_of_isSynchronized (Phase.isSynchronized_of_canReceive hp)
  exact hne ((hn.shown hopen w hw).symm.trans hzero)

end Noted

theorem noted_run (flow : Flow) (held : Option Segment) (options : ConnectionOptions)
    (t₀ : Nat) (moves : List Move) :
    let c₀ := begin flow held options t₀
    Noted options (c₀.sent moves) (c₀.run moves) := by
  intro c₀
  induction moves using List.reverseRecOn with
  | nil =>
    refine ⟨fun _ w hw => ?_, fun _ => ?_⟩
    · cases hw
    · cases held <;> rfl
  | append_singleton moves m ih =>
    rw [sent_concat, run_append]
    rcases (c₀.run moves).event_or_bufferMove m with ⟨e, now, wall, rfl⟩ | hmove
    · exact ih.event (windowed_run flow held options t₀ moves)
        (final_run flow held options t₀ moves) e now wall
    · obtain ⟨down, up, hc⟩ := hmove.connection_eq
      rw [hmove.segments_eq_nil, List.append_nil]
      show Noted options _ ((c₀.run moves).apply m).connection
      rw [hc]
      exact ⟨ih.shown, ih.opening⟩

/-! ## The timer -/

/-- What a tick at time `now`, and those behind it, tell the client of the window of `c`. -/
structure Reopens (c : Connection) (now wall : Nat) : Prop where
  sends : (c.process .tick now wall).segments ≠ []
  current : ∀ p ∈ (c.process .tick now wall).segments,
    p.isRst = false ∧ p.isAck ∧ p.ack = c.rcvNxt ∧ p.window.toNat = c.rcvWnd
  /-- Until a closed window is shown once more, no tick sends a bare acknowledgment. -/
  once : ∀ later now' wall',
    (∀ p ∈ (c.process .tick now wall).connection.sent later, p.isRst = false → p.window ≠ 0) →
    ∀ p ∈ (((c.process .tick now wall).connection.run later).process .tick now' wall').segments,
      p.flags ≠ .ack

/-- No tick sends a bare acknowledgment while the window shown last is open. -/
theorem process_tick_flags {c : Connection} {now wall : Nat} (h : c.isWindowReopened = false) :
    ∀ p ∈ (c.process .tick now wall).segments, p.flags ≠ .ack := by
  have hdistinct : Flags.fin ||| Flags.ack ≠ .ack ∧ Flags.ack ||| Flags.psh ≠ .ack ∧
      Flags.syn ||| Flags.ack ≠ .ack ∧ Flags.ack.has .rst = false := by decide
  obtain ⟨hfin, hdata, hsynAck, hrst⟩ := hdistinct
  intro p hp hack
  change p ∈ (c.onTick now).segments at hp
  by_cases hserved : c.IsServed now
  · rcases (onTick_served hserved).flags p hp with hflags | hflags | ⟨-, hopen⟩
    · exact hfin (hflags.symm.trans hack)
    · exact hdata (hflags.symm.trans hack)
    · cases h.symm.trans hopen
  · rcases (onTick_unserved hserved).flags p hp with hreset | hflags
    · rw [Segment.isRst, hack, hrst] at hreset
      cases hreset
    · exact hsynAck (hflags.symm.trans hack)

theorem Served.sends {c : Connection} {now : Nat} {o : Outcome} (h : Served c now o)
    (hopen : c.isWindowReopened) : o.segments ≠ [] := by
  cases h with
  | resent _ _ => exact List.cons_ne_nil _ _
  | sent _ _ sends => exact sends
  | reopened _ _ => exact List.cons_ne_nil _ _
  | quiet _ not_reopened => cases hopen.symm.trans not_reopened

theorem Served.isRst {c : Connection} {now : Nat} {o : Outcome} (h : Served c now o) :
    ∀ p ∈ o.segments, p.isRst = false := by
  have hplain : (Flags.fin ||| Flags.ack).has .rst = false ∧
      (Flags.ack ||| Flags.psh).has .rst = false ∧ Flags.ack.has .rst = false := by decide
  intro p hp
  rw [Segment.isRst]
  rcases h.flags p hp with hflags | hflags | ⟨hflags, -⟩ <;> rw [hflags]
  · exact hplain.1
  · exact hplain.2.1
  · exact hplain.2.2

/-- A closed window is no deadlock.  After every run, if the client may still send, was shown a
closed window by the last segment that was no reset, and there is room again, then the next tick
tells it so, unless that tick finds the connection idle: it sends at least one segment, and all that
it sends shows the window that is open now.  Nothing is told twice. -/
theorem reopens_run (flow : Flow) (held : Option Segment) (options : ConnectionOptions)
    (t₀ : Nat) (moves : List Move) (now wall : Nat)
    (hreceive : ((begin flow held options t₀).run moves).phase.canReceive)
    (hshut : shownWindow? ((begin flow held options t₀).sent moves) = some 0)
    (hroom : 0 < ((begin flow held options t₀).run moves).rcvWnd)
    (hidle : now - ((begin flow held options t₀).run moves).lastUsed < options.idleTimeout) :
    Reopens ((begin flow held options t₀).run moves) now wall := by
  have hrooted := rooted_run flow held options t₀ moves
  have hlater := fun later =>
    noted_run flow held options t₀ (moves ++ .event .tick now wall :: later)
  obtain ⟨c, hc⟩ : ∃ c, c = (begin flow held options t₀).run moves := ⟨_, rfl⟩
  have hopen : c.isWindowReopened :=
    hc ▸ (noted_run flow held options t₀ moves).isWindowReopened hreceive hshut hroom
  simp only [sent_append, run_append] at hlater
  rw [← hc] at hreceive hroom hidle hrooted hlater ⊢
  rw [← hrooted.options_eq] at hidle
  have hserved : Served c now (c.onTick now) := by
    refine onTick_served ⟨Phase.isSynchronized_of_canReceive hreceive, hidle, fun hend => ?_⟩
    rw [hend.1] at hreceive
    cases hreceive
  have huplink : (c.process .tick now wall).connection.uplink = c.uplink := by
    obtain ⟨advertised, hsettled⟩ := settle_connection (c.onTick now)
    show (settle (c.onTick now)).connection.uplink = _
    rw [hsettled]
    exact onTick_uplink
  have hsends : (c.process .tick now wall).segments ≠ [] := hserved.sends hopen
  have hcurrent : ∀ p ∈ (c.process .tick now wall).segments,
      p.isRst = false ∧ p.isAck ∧ p.ack = c.rcvNxt ∧ p.window.toNat = c.rcvWnd := by
    intro p hp
    have hrst : p.isRst = false := hserved.isRst p hp
    have hshows := ((Outbox.process hrooted .tick now wall).outgoing p hp).current hrst
    rw [rcvNxt, rcvWnd, huplink] at hshows
    exact ⟨hrst, hshows⟩
  refine ⟨hsends, hcurrent, fun later now' wall' hshown => process_tick_flags ?_⟩
  have hsplit : c.sent (.event .tick now wall :: later) =
      (c.process .tick now wall).segments ++ (c.process .tick now wall).connection.sent later := rfl
  refine (hlater later).not_isWindowReopened (shownWindow?_append (P := (· ≠ 0)) ?_ ?_)
  · intro p hp hrst
    rw [hsplit] at hp
    rcases List.mem_append.mp hp with hnow | hthen
    · rw [(hcurrent p hnow).2.2.2]
      exact Nat.ne_of_gt hroom
    · exact fun hzero => hshown p hthen hrst (UInt16.toNat_inj.mp hzero)
  · obtain ⟨p, hp⟩ := List.exists_mem_of_ne_nil _ hsends
    exact ⟨p, hsplit ▸ List.mem_append_left _ hp, (hcurrent p hp).1⟩

/-- A client that has filled the window, and was told so, learns from the next tick that the relay's
side has taken two bytes. -/
theorem reopens_drained :
    let client (seq ack : UInt32) (flags : Flags) (payload : Bytes) : Event :=
      .segment { flow := default, seq := ⟨seq⟩, ack := ⟨ack⟩, flags, window := 1000, payload }
    let options := { maxPayload := 3, windowSize := 4, resendInterval := 10, idleTimeout := 1000 }
    let moves := [.event (client 5 0 .syn []) 0 0, .event (client 6 1 .ack []) 1 0,
      .event (client 6 1 .ack [1, 2, 3, 4]) 2 0, .discardUplink 2]
    let c := (begin default none options 0).run moves
    c.rcvWnd = 2 ∧ ((c.process .tick 50 0).segments.map fun p => (p.flags, p.ack, p.window)) =
      [(.ack, ⟨10⟩, 2)] ∧ Reopens c 50 0 := by
  intro client options moves c
  exact ⟨by decide +kernel, by decide +kernel, reopens_run default none options 0 moves 50 0
    (by decide +kernel) (by decide +kernel) (by decide +kernel) (by decide +kernel)⟩

end Connection

end TcpGateway
