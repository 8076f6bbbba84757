import TcpGateway.Proofs.Handshake

/-!
# Segments that are not accepted

A segment that does not fit into the client's stream, or that acknowledges what was never sent, is
rejected before anything of it is applied.  All that it leaves is that it came in (`rejection`), and
it is answered by what holds: a bare acknowledgment, or the FIN again in phase LastAck.

A reset is accepted if its number lies in the range of what the client may send.  Ranges contain
both their bounds, so this is the receive window and the number behind it: a reset there closes the
connection although the client may not send that number.
-/

namespace TcpGateway

theorem Phase.ne_closed_of_isGreeted {p : Phase} (h : p.isGreeted) : p ≠ .closed := by
  rintro rfl
  cases h

theorem Phase.isSynchronized_of_isGreeted {p : Phase} (h : p.isGreeted) (hne : p ≠ .synReceived) :
    p.isSynchronized := by
  cases p <;> simp_all [isGreeted, isSynchronized]

namespace Connection

/-- Whether the client may send the number `n` now.  A closed window still takes a reset at
RCV.NXT. -/
def InReceiveWindow (c : Connection) (n : SeqNum) : Prop :=
  n.distance c.rcvNxt < c.rcvWnd ∨ c.rcvWnd = 0 ∧ n = c.rcvNxt

instance (c : Connection) (n : SeqNum) : Decidable (c.InReceiveWindow n) :=
  inferInstanceAs (Decidable (_ ∨ _))

/-- Whether `s` does not start at RCV.NXT, or carries more than the window has room for. -/
def Misfits (c : Connection) (s : Segment) : Prop :=
  s.seq ≠ c.rcvNxt ∨ s.payload ≠ [] ∧ c.rcvWnd < s.payload.length

/-- The outcome of a segment that came in at time `now` and is rejected: it is counted as use, and
answered by `answer`. -/
def rejection (c : Connection) (now : Nat) (answer : List Segment) : Outcome where
  connection :=
    { c.recorded now with
      advertised := if answer.isEmpty then c.advertised else c.rcvWnd }
  segments := answer

/-- The outcome of a reset that is accepted at time `now`. -/
def aborted (c : Connection) (now : Nat) : Outcome where
  connection := { c.recorded now with phase := .closed, resends := c.resends.clear }
  commands := [.abortRelay]

section Rejected

variable {c : Connection} {s : Segment} {now wall : Nat}

/-- The range that resets are tested against is the receive window and the number behind it. -/
theorem receiveRange_contains_iff {n : SeqNum} :
    c.uplink.receiveRange.contains n ↔ c.InReceiveWindow n ∨ n = c.rcvNxt.add c.rcvWnd := by
  have hle : c.rcvWnd ≤ 65535 := c.uplink.window_le
  have hsize : c.uplink.receiveRange.size = c.rcvWnd :=
    SeqRange.size_ofSize _ (Nat.lt_of_le_of_lt c.uplink.window_le (by decide))
  have hrange : c.uplink.receiveRange.contains n ↔ n.distance c.rcvNxt ≤ c.rcvWnd := by
    rw [SeqRange.contains_iff, hsize]
    rfl
  have hat : n = c.rcvNxt.add c.rcvWnd ↔ n.distance c.rcvNxt = c.rcvWnd := by
    constructor
    · rintro rfl
      exact SeqNum.distance_add_of_lt _ (by omega)
    · intro heq
      rw [← heq, SeqNum.add_distance]
  have hself : n = c.rcvNxt ↔ n.distance c.rcvNxt = 0 := SeqNum.distance_eq_zero_iff.symm
  rw [hrange, InReceiveWindow, hat, hself]
  omega

theorem inWindow_eq_false_iff :
    c.uplink.inWindow s.seq s.payload.length = false ↔ c.Misfits s := by
  have hempty : s.payload.length = 0 ↔ s.payload = [] := List.length_eq_zero_iff
  show (s.seq == c.rcvNxt && (s.payload.length == 0 || decide (s.payload.length ≤ c.rcvWnd))) = false
    ↔ _
  rw [Misfits, Ne, Ne, ← hempty, Bool.and_eq_false_iff, Bool.or_eq_false_iff, beq_eq_false_iff_ne,
    beq_eq_false_iff_ne, decide_eq_false_iff_not, Nat.not_le]

/-! ## The handlers -/

/-- What the screen stops is not handled by any synchronized phase. -/
theorem onSegment_screened {o : Outcome} (hp : c.phase.isSynchronized)
    (hscreen : c.screen s = some o) : c.onSegment s now wall = o := by
  cases hq : c.phase with
  | held | listen | synReceived | closed => simp [hq, Phase.isSynchronized] at hp
  | established => simp only [onSegment, hq, onEstablished, hscreen]
  | finWait1 => simp only [onSegment, hq, onFinWait1, onFinWait, hscreen]
  | finWait2 => simp only [onSegment, hq, onFinWait2, onFinWait, hscreen]
  | closeWait => simp only [onSegment, hq, onCloseWait, hscreen]
  | closing => simp only [onSegment, hq, onClosing, hscreen]
  | lastAck => simp only [onSegment, hq, onLastAck, hscreen]

/-- An acknowledgment of what was never sent is answered by what holds. -/
theorem onSegment_unapplied (hp : c.phase.isSynchronized) (hscreen : c.screen s = none)
    (hack : c.applyAck s = none) :
    (c.phase ≠ .lastAck → c.onSegment s now wall = c.stay.sendAck) ∧
      ∀ fin, c.phase = .lastAck → c.finSeq = some fin →
        c.onSegment s now wall = c.stay.send (c.finSegment fin) := by
  cases hq : c.phase with
  | held | listen | synReceived | closed => simp [hq, Phase.isSynchronized] at hp
  | established => simp [onSegment, hq, onEstablished, hscreen, hack]
  | finWait1 => simp [onSegment, hq, onFinWait1, onFinWait, hscreen, hack]
  | finWait2 => simp [onSegment, hq, onFinWait2, onFinWait, hscreen, hack]
  | closeWait => simp [onSegment, hq, onCloseWait, hscreen, hack]
  | closing => simp [onSegment, hq, onClosing, hscreen, hack]
  | lastAck =>
    refine ⟨fun hne => absurd rfl hne, fun fin _ hfin => ?_⟩
    simp only [onSegment, hq, onLastAck, hscreen, hfin, hack]

theorem screen_of_isRst (hrst : s.isRst) :
    c.screen s = some (
      if c.uplink.receiveRange.contains s.seq then (c.enter .closed).command .abortRelay
      else c.stay.sendAck) := by
  rw [screen, if_pos hrst]
  split <;> rfl

theorem screen_misfit (hrst : s.isRst = false) (hmisfit : c.Misfits s) :
    c.screen s = some c.stay.sendAck := by
  rw [screen, if_neg (by simp [hrst]), if_pos (by simp [inWindow_eq_false_iff.mpr hmisfit])]

theorem screen_passes (hrst : s.isRst = false) (hsyn : s.isSyn = false) (hack : s.isAck)
    (hfits : ¬ c.Misfits s) : c.screen s = none := by
  have hwin : c.uplink.inWindow s.seq s.payload.length = true := by
    rw [← inWindow_eq_false_iff, Bool.not_eq_false] at hfits
    exact hfits
  simp [screen, hrst, hsyn, hack, hwin]

/-! ## The event -/

theorem process_segment : c.process (.segment s) now wall =
    settle ((c.recorded now).onSegment s now wall) := rfl

/-- A segment whose handler only sends `answer` is rejected. -/
theorem process_rejected {answer : List Segment} (hp : c.phase ≠ .closed)
    (h : (c.recorded now).onSegment s now wall = ⟨c.recorded now, answer, []⟩) :
    c.process (.segment s) now wall = c.rejection now answer := by
  rw [process_segment, h]
  cases answer <;> simp [settle, rejection, hp, recorded, rcvWnd]

/-- A reset either closes the connection at once or is rejected. -/
theorem process_reset (hp : c.phase.isGreeted) (hrst : s.isRst) :
    c.process (.segment s) now wall =
      if c.uplink.receiveRange.contains s.seq then c.aborted now
      else c.rejection now (if c.phase = .synReceived then [] else [c.ackSegment]) := by
  have hopen : c.phase ≠ .closed := Phase.ne_closed_of_isGreeted hp
  have hhandled : (c.recorded now).onSegment s now wall =
      if c.uplink.receiveRange.contains s.seq then
        ((c.recorded now).enter .closed).command .abortRelay
      else if c.phase = .synReceived then (c.recorded now).stay
      else (c.recorded now).stay.sendAck := by
    by_cases hsyn : c.phase = .synReceived
    · simp [onSegment, recorded, hsyn, onSynReceived, hrst]
    · have hsync : (c.recorded now).phase.isSynchronized := Phase.isSynchronized_of_isGreeted hp hsyn
      rw [onSegment_screened hsync (screen_of_isRst hrst), if_neg hsyn]
      rfl
  by_cases hrange : c.uplink.receiveRange.contains s.seq
  · rw [if_pos hrange] at hhandled ⊢
    rw [process_segment, hhandled]
    rfl
  · rw [if_neg hrange] at hhandled ⊢
    refine process_rejected hopen (hhandled.trans ?_)
    split <;> rfl

/-- What does not fit is acknowledged and rejected; in phase SynReceived a SYN is let through. -/
theorem process_misfit (hp : c.phase.isGreeted) (hsyn : c.phase = .synReceived → ¬ s.isBareSyn)
    (hrst : s.isRst = false) (hmisfit : c.Misfits s) :
    c.process (.segment s) now wall = c.rejection now [c.ackSegment] := by
  have hopen : c.phase ≠ .closed := Phase.ne_closed_of_isGreeted hp
  refine process_rejected hopen ?_
  by_cases hq : c.phase = .synReceived
  · have hwin : c.uplink.inWindow s.seq s.payload.length = false := inWindow_eq_false_iff.mpr hmisfit
    have hhandled : (c.recorded now).onSegment s now wall = (c.recorded now).stay.sendAck := by
      simp [onSegment, recorded, hq, onSynReceived, hrst, hsyn hq, hwin]
    exact hhandled
  · have hsync : (c.recorded now).phase.isSynchronized := Phase.isSynchronized_of_isGreeted hp hq
    exact onSegment_screened hsync (screen_misfit hrst hmisfit)

/-- What acknowledges more than was sent is rejected. -/
theorem process_ahead (hp : c.phase.isSynchronized) (hrst : s.isRst = false)
    (hsyn : s.isSyn = false) (hack : s.isAck) (hfits : ¬ c.Misfits s)
    (hahead : c.sndNxt.precedes s.ack) :
    (c.phase ≠ .lastAck → c.process (.segment s) now wall = c.rejection now [c.ackSegment]) ∧
      ∀ fin, c.phase = .lastAck → c.finSeq = some fin →
        c.process (.segment s) now wall = c.rejection now [c.finSegment fin] := by
  have hopen : c.phase ≠ .closed := Phase.ne_closed_of_isSynchronized hp
  have hscreen : (c.recorded now).screen s = none := screen_passes hrst hsyn hack hfits
  have hnone : (c.recorded now).applyAck s = none := if_pos hahead
  have hunapplied := @onSegment_unapplied (c.recorded now) s now wall hp hscreen hnone
  exact ⟨fun hq => process_rejected hopen (hunapplied.1 hq),
    fun fin hq hfin => process_rejected hopen (hunapplied.2 fin hq hfin)⟩

end Rejected

/-! ## Every run -/

/-- A segment without payload that acknowledges RCV.NXT and shows RCV.WND. -/
structure IsAnswer (c : Connection) (seq : SeqNum) (flags : Flags) (p : Segment) : Prop where
  flow_eq : p.flow = c.flow.reverse
  seq_eq : p.seq = seq
  flags_eq : p.flags = flags
  ack_eq : p.ack = c.rcvNxt
  window_eq : p.window.toNat = c.rcvWnd
  empty : p.payload = []

theorem isAnswer_segmentAt (c : Connection) (seq : SeqNum) (flags : Flags) :
    c.IsAnswer seq flags (c.segmentAt seq flags []) where
  flow_eq := rfl
  seq_eq := rfl
  flags_eq := rfl
  ack_eq := rfl
  window_eq := c.toNat_rcvWnd
  empty := rfl

/-- Whether `s`, at time `now`, leaves no trace and is answered by one segment at `seq`. -/
def Rejects (c : Connection) (s : Segment) (now wall : Nat) (seq : SeqNum) (flags : Flags) : Prop :=
  ∃ p, c.IsAnswer seq flags p ∧ c.process (.segment s) now wall = c.rejection now [p]

/-- What becomes of the segment `s` if it is not accepted. -/
structure Screened (c : Connection) (s : Segment) (now wall : Nat) : Prop where
  /-- The number behind the window is excepted. -/
  reset : c.phase.isSynchronized → s.isRst → ¬ c.InReceiveWindow s.seq →
    s.seq ≠ c.rcvNxt.add c.rcvWnd → c.Rejects s now wall c.sndNxt .ack
  misfit : c.phase.isSynchronized → s.isRst = false → c.Misfits s →
    c.Rejects s now wall c.sndNxt .ack
  ahead : c.phase.isSynchronized → c.phase ≠ .lastAck → s.isRst = false → s.isSyn = false →
    s.isAck → ¬ c.Misfits s → c.sndNxt.precedes s.ack → c.Rejects s now wall c.sndNxt .ack
  aheadOfFin : c.phase = .lastAck → s.isRst = false → s.isSyn = false → s.isAck → ¬ c.Misfits s →
    c.sndNxt.precedes s.ack →
    ∃ fin, c.finSeq = some fin ∧ c.Rejects s now wall fin (.fin ||| .ack)
  openingReset : c.phase = .synReceived → s.isRst → ¬ c.InReceiveWindow s.seq →
    s.seq ≠ c.rcvNxt.add c.rcvWnd → c.process (.segment s) now wall = c.rejection now []
  openingMisfit : c.phase = .synReceived → s.isRst = false → ¬ s.isBareSyn → c.Misfits s →
    c.Rejects s now wall c.sndNxt .ack

/-- A segment that is not accepted leaves no trace, after every run: of the connection only the
counters, the time of last use and the record of the advertised window change, nothing is asked of
the relay's side, and one segment is sent that shows what holds. -/
theorem screened_run (flow : Flow) (held : Option Segment) (options : ConnectionOptions)
    (t₀ : Nat) (moves : List Move) (s : Segment) (now wall : Nat) :
    Screened ((begin flow held options t₀).run moves) s now wall := by
  have hflight : Flight ((begin flow held options t₀).run moves) :=
    flight_run flow held options t₀ moves
  generalize (begin flow held options t₀).run moves = c at hflight ⊢
  have hack : c.IsAnswer c.sndNxt .ack c.ackSegment := c.isAnswer_segmentAt _ _
  have hout : ¬ c.InReceiveWindow s.seq → s.seq ≠ c.rcvNxt.add c.rcvWnd →
      ¬ c.uplink.receiveRange.contains s.seq := by
    intro hwindow hbehind
    rw [receiveRange_contains_iff]
    exact not_or.mpr ⟨hwindow, hbehind⟩
  have hgreeted : c.phase.isSynchronized → c.phase.isGreeted ∧ c.phase ≠ .synReceived := by
    cases hp : c.phase <;> simp [Phase.isSynchronized, Phase.isGreeted]
  exact {
    reset := by
      intro hp hrst hwindow hbehind
      obtain ⟨hg, hne⟩ := hgreeted hp
      refine ⟨_, hack, ?_⟩
      rw [process_reset hg hrst, if_neg (hout hwindow hbehind), if_neg hne]
    misfit := by
      intro hp hrst hmisfit
      obtain ⟨hg, hne⟩ := hgreeted hp
      exact ⟨_, hack, process_misfit hg (fun h => absurd h hne) hrst hmisfit⟩
    ahead := fun hp hne hrst hsyn hisAck hfits hahead =>
      ⟨_, hack, (process_ahead hp hrst hsyn hisAck hfits hahead).1 hne⟩
    aheadOfFin := by
      intro hp hrst hsyn hisAck hfits hahead
      have hsome : c.finSeq.isSome := by
        rw [hflight.fin_phase (by simp [hp]), hp]
        rfl
      obtain ⟨fin, hfin⟩ := Option.isSome_iff_exists.mp hsome
      exact ⟨fin, hfin, _, c.isAnswer_segmentAt _ _,
        (process_ahead (hp ▸ rfl) hrst hsyn hisAck hfits hahead).2 fin hp hfin⟩
    openingReset := by
      intro hp hrst hwindow hbehind
      rw [process_reset (hp ▸ rfl) hrst, if_neg (hout hwindow hbehind), if_pos hp]
    openingMisfit := fun hp hrst hbare hmisfit =>
      ⟨_, hack, process_misfit (hp ▸ rfl) (fun _ => hbare) hrst hmisfit⟩ }

/-- How resets are tested. -/
structure TestsResets (c : Connection) : Prop where
  /-- A reset closes exactly if its number is in the receive window, or the one behind it. -/
  closes_iff : ∀ s now wall, c.phase.isGreeted → s.isRst →
    ((c.process (.segment s) now wall).connection.phase = .closed ↔
      c.InReceiveWindow s.seq ∨ s.seq = c.rcvNxt.add c.rcvWnd)
  /-- A reset that closes is not answered, and the relay's side is told to stop. -/
  closes : ∀ s now wall, c.phase.isGreeted → s.isRst →
    (c.process (.segment s) now wall).connection.phase = .closed →
    c.process (.segment s) now wall = c.aborted now
  stays : ∀ s now wall, c.phase.isGreeted → s.isRst →
    (c.process (.segment s) now wall).connection.phase ≠ .closed →
    (c.process (.segment s) now wall).connection.phase = c.phase

/-- Resets are tested alike in all phases behind the client's SYN and under every window. -/
theorem testsResets (c : Connection) : TestsResets c := by
  have hrejected : ∀ now answer, (c.rejection now answer).connection.phase = c.phase :=
    fun _ _ => rfl
  constructor
  · intro s now wall hp hrst
    rw [process_reset hp hrst, ← receiveRange_contains_iff]
    by_cases hrange : c.uplink.receiveRange.contains s.seq
    · rw [if_pos hrange]
      exact iff_of_true rfl hrange
    · rw [if_neg hrange, hrejected]
      exact iff_of_false (Phase.ne_closed_of_isGreeted hp) hrange
  · intro s now wall hp hrst hclosed
    rw [process_reset hp hrst] at hclosed ⊢
    by_cases hrange : c.uplink.receiveRange.contains s.seq
    · rw [if_pos hrange]
    · rw [if_neg hrange, hrejected] at hclosed
      exact absurd hclosed (Phase.ne_closed_of_isGreeted hp)
  · intro s now wall hp hrst hopen
    rw [process_reset hp hrst] at hopen ⊢
    by_cases hrange : c.uplink.receiveRange.contains s.seq
    · rw [if_pos hrange] at hopen
      exact absurd rfl hopen
    · rw [if_neg hrange, hrejected]

/-- Behind a SYN at 4294967294 the window of four takes the numbers 4294967295 to 2.  A reset at 3
closes. -/
theorem resetBehindWindow_closes :
    let client (seq : UInt32) (flags : Flags) : Segment :=
      { flow := default, seq := ⟨seq⟩, ack := .zero, flags, window := 1000, payload := [] }
    let options := { maxPayload := 3, windowSize := 4, resendInterval := 10, idleTimeout := 1000 }
    let c := (begin default none options 0).run [.event (.segment (client 4294967294 .syn)) 0 0]
    let reset := client 3 .rst
    c.phase = .synReceived ∧ c.rcvWnd = 4 ∧ reset.seq.distance c.rcvNxt = 4 ∧
      ¬ c.InReceiveWindow reset.seq ∧
      (c.process (.segment reset) 1 0).connection.phase = .closed := by
  decide +kernel

/-- In phase Established a reset at the number behind the window is not answered by an
acknowledgment. -/
theorem resetBehindWindow_unanswered :
    let client (seq ack : UInt32) (flags : Flags) : Segment :=
      { flow := default, seq := ⟨seq⟩, ack := ⟨ack⟩, flags, window := 1000, payload := [] }
    let options :=
      { maxPayload := 1400, windowSize := 65535, resendInterval := 10, idleTimeout := 1000 }
    let c := (begin default none options 0).run [.event (.segment (client 1000 0 .syn)) 0 0,
      .event (.segment (client 1001 1 .ack)) 1 0]
    let o := c.process (.segment (client 66536 0 .rst)) 2 0
    c.phase = .established ∧ ¬ c.InReceiveWindow ⟨66536⟩ ∧ o.segments = [] ∧
      o.commands = [.abortRelay] ∧ o.connection.phase = .closed := by
  decide +kernel

end Connection

end TcpGateway
