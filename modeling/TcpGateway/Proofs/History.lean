import TcpGateway.Connection.Run
import TcpGateway.Proofs.Step

/-!
# Histories of runs

A run is a list of moves; its history adds to each move the connection before it and the outcome.
What the theorems on whole runs speak about is read off the history alone: the bytes that the
downlink accepted, the data sent for the first time, the SYN-ACKs and FINs sent, the client's SYN
that was accepted, the bytes that the uplink took and the client's FINs that were consumed.

All of these are sums over the stages of the history, so that one more move adds one more term.
-/

namespace TcpGateway

/-- The payloads of segments, one behind the other. -/
def payloads (segments : List Segment) : Bytes := segments.flatMap (·.payload)

/-- The number of the last of some segments. -/
def lastSeq (segments : List Segment) : Option SeqNum := segments.getLast?.map (·.seq)

/-- Whether `p` carries payload that starts at the next number to send. -/
def Connection.isFirst (c : Connection) (p : Segment) : Bool :=
  !p.payload.isEmpty && p.seq == c.sndNxt

/-- One move of a run, with the connection before it and what came of it. -/
structure Stage where
  before : Connection
  move : Move
  outcome : Outcome

namespace Stage

/-- The connection afterwards. -/
def after (st : Stage) : Connection := st.outcome.connection

/-! ## The relay's bytes -/

/-- The bytes that the downlink accepted. -/
def written (st : Stage) : Bytes :=
  match st.move with
  | .writeDownlink data =>
    match st.before.downlink.buffer.write data with
    | .ok _ => data
    | .error _ => []
  | .writeSomeDownlink data =>
    match st.before.downlink.buffer.writeSome data with
    | .ok (_, rest) => data.take (data.length - rest.length)
    | .error _ => []
  | _ => []

/-- The data sent for the first time: it starts at the next number to send. -/
def firstSent (st : Stage) : List Segment := st.outcome.segments.filter st.before.isFirst

def synAcks (st : Stage) : List Segment := st.outcome.segments.filter (·.isSyn)

def fins (st : Stage) : List Segment := st.outcome.segments.filter (·.isFin)

/-! ## The client's bytes -/

/-- The bytes that the uplink took. -/
def taken (st : Stage) : Bytes :=
  st.after.uplink.buffer.bytes.drop st.before.uplink.buffer.length

/-- The client's SYN, if it is answered by a SYN-ACK: the segment that came in, or the one that
was held until the relay was reached. -/
def acceptedSyn (st : Stage) : Option Segment :=
  let offered :=
    match st.move with
    | .event (.segment s) _ _ => some s
    | .event .relayConnected _ _ => st.before.heldSyn
    | _ => none
  offered.filter fun s => s.isBareSyn && st.outcome.segments.any (·.isSyn)

/-- Whether the client's FIN is consumed: a segment with FIN leads to a phase behind it. -/
def takesFin (st : Stage) : Bool :=
  match st.move with
  | .event (.segment s) _ _ =>
    s.isFin &&
      match st.before.phase, st.after.phase with
      | .synReceived, .closeWait | .established, .closeWait | .finWait1, .closing => true
      | .finWait2, .closed => !st.outcome.commands.contains .abortRelay
      | _, _ => false
  | _ => false

end Stage

/-- What happened in a run, oldest stage first. -/
abbrev History := List Stage

namespace History

/-- All bytes ever accepted by the downlink. -/
def written (h : History) : Bytes := h.flatMap Stage.written

/-- All data sent for the first time. -/
def firstSent (h : History) : List Segment := h.flatMap Stage.firstSent

/-- All bytes ever sent. -/
def sentBytes (h : History) : Bytes := payloads h.firstSent

/-- All SYN-ACKs sent. -/
def synAcks (h : History) : List Segment := h.flatMap Stage.synAcks

/-- The number of the last SYN-ACK sent. -/
def iss? (h : History) : Option SeqNum := lastSeq h.synAcks

/-- All FINs sent. -/
def fins (h : History) : List Segment := h.flatMap Stage.fins

/-- All bytes ever taken by the uplink. -/
def taken (h : History) : Bytes := h.flatMap Stage.taken

/-- The number of the client's SYN that was accepted last. -/
def irs? (h : History) : Option SeqNum := lastSeq (h.filterMap Stage.acceptedSyn)

/-- How many FINs of the client were consumed. -/
def finsTaken (h : History) : Nat := h.countP Stage.takesFin

variable (h : History) (st : Stage)

theorem written_concat : written (h ++ [st]) = h.written ++ st.written := by
  simp [written]

theorem firstSent_concat : firstSent (h ++ [st]) = h.firstSent ++ st.firstSent := by
  simp [firstSent]

theorem synAcks_concat : synAcks (h ++ [st]) = h.synAcks ++ st.synAcks := by
  simp [synAcks]

theorem fins_concat : fins (h ++ [st]) = h.fins ++ st.fins := by
  simp [fins]

theorem taken_concat : taken (h ++ [st]) = h.taken ++ st.taken := by
  simp [taken]

theorem finsTaken_concat : finsTaken (h ++ [st]) = h.finsTaken + st.takesFin.toNat := by
  cases ht : st.takesFin <;> simp [finsTaken, ht]

theorem irs?_concat_none (hnone : st.acceptedSyn = none) : irs? (h ++ [st]) = h.irs? := by
  simp [irs?, hnone]

theorem irs?_concat_some {s : Segment} (hsome : st.acceptedSyn = some s) :
    irs? (h ++ [st]) = some s.seq := by
  simp [irs?, lastSeq, hsome]

end History

namespace Connection

/-- A connection at its beginning: it holds the client's segment until the relay is reached, or
listens. -/
def begin (flow : Flow) (held : Option Segment) (options : ConnectionOptions) (now : Nat) :
    Connection :=
  match held with
  | some s => ofSyn flow s options now
  | none => listening flow options now

/-- The stage of the move `m` from the connection `c`. -/
abbrev stage (c : Connection) (m : Move) : Stage := ⟨c, m, c.apply m⟩

/-- The history of a run. -/
def history (c : Connection) : List Move → History
  | [] => []
  | m :: moves => c.stage m :: (c.apply m).connection.history moves

/-! ## One move more -/

theorem run_append (c : Connection) (moves moves' : List Move) :
    c.run (moves ++ moves') = (c.run moves).run moves' :=
  List.foldl_append

theorem history_append (c : Connection) (moves moves' : List Move) :
    c.history (moves ++ moves') = c.history moves ++ (c.run moves).history moves' := by
  induction moves generalizing c with
  | nil => rfl
  | cons m moves ih =>
    have hih := ih (c.apply m).connection
    rw [List.cons_append, history, hih]
    rfl

/-- Each stage of a history is a move from where the moves before it have led. -/
theorem history_split {c : Connection} {moves : List Move} {h₁ h₂ : History} {st : Stage}
    (h : c.history moves = h₁ ++ st :: h₂) :
    ∃ moves₁ m, h₁ = c.history moves₁ ∧ st = (c.run moves₁).stage m := by
  induction moves generalizing c h₁ with
  | nil => simp [history] at h
  | cons m moves ih =>
    cases h₁ with
    | nil =>
      obtain ⟨hst, -⟩ := List.cons.inj h
      exact ⟨[], m, rfl, hst.symm⟩
    | cons st₁ h₁ =>
      obtain ⟨rfl, htail⟩ := List.cons.inj h
      obtain ⟨moves₁, m', rfl, rfl⟩ := ih htail
      exact ⟨m :: moves₁, m', rfl, rfl⟩

/-- What holds of the empty history and is kept by one more move holds of every run. -/
theorem run_induction {P : History → Connection → Prop} {c₀ : Connection} (h₀ : P [] c₀)
    (move : ∀ h c m, P h c → P (h ++ [c.stage m]) (c.apply m).connection)
    (moves : List Move) : P (c₀.history moves) (c₀.run moves) := by
  induction moves using List.reverseRecOn with
  | nil => exact h₀
  | append_singleton moves m ih =>
    rw [history_append, run_append]
    exact move _ _ m ih

/-- What holds before an event and is kept by the elementary steps holds of its outcome. -/
theorem event_induction {P : Outcome → Prop} {c : Connection} {e : Event} {now wall : Nat}
    (start : P c.stay) (step : ∀ o o', P o → Step e now wall o o' → P o') :
    P (c.process e now wall) := by
  have hpath : Path e now wall c.stay (c.process e now wall) := process_path
  generalize c.process e now wall = o at hpath ⊢
  induction hpath with
  | refl => exact start
  | tail _ hstep ih => exact step _ _ ih hstep

/-- What a move does that is no event: it changes the contents of one buffer. -/
inductive BufferMove (c : Connection) (m : Move) : Prop
  /-- Bytes go into the downlink, or it is closed. -/
  | downlink {b : Buffer} (not_event : ∀ e now wall, m ≠ .event e now wall)
      (applied : c.apply m = { c with downlink.buffer := b }.stay)
      (appended : b.bytes = c.downlink.buffer.bytes ++ (c.stage m).written)
      (bounded : ∀ n, c.downlink.buffer.Bounded n → b.Bounded n)
  /-- Bytes are removed from the uplink, or it is closed. -/
  | uplink {b : Buffer} {n : Nat} (not_event : ∀ e now wall, m ≠ .event e now wall)
      (applied : c.apply m = { c with uplink.buffer := b }.stay)
      (removed : b.bytes = c.uplink.buffer.bytes.drop n)
      (capacity : b.capacity = c.uplink.buffer.capacity)
      (not_written : (c.stage m).written = [])

theorem event_or_bufferMove (c : Connection) (m : Move) :
    (∃ e now wall, m = .event e now wall) ∨ c.BufferMove m := by
  cases m with
  | event e now wall => exact .inl ⟨e, now, wall, rfl⟩
  | writeDownlink data =>
    refine .inr ?_
    cases hw : c.downlink.buffer.write data with
    | error err =>
      exact .downlink (b := c.downlink.buffer) (by simp) (by simp only [apply, hw])
        (by simp [Stage.written, hw]) (fun _ h => h)
    | ok b =>
      obtain ⟨hb, hfits⟩ := Buffer.write_eq_ok hw
      exact .downlink (b := b) (by simp) (by simp only [apply, hw])
        (by simp [Stage.written, hw, hb]) (fun _ h => hb ▸ h.append hfits)
  | writeSomeDownlink data =>
    refine .inr ?_
    cases hw : c.downlink.buffer.writeSome data with
    | error err =>
      exact .downlink (b := c.downlink.buffer) (by simp) (by simp only [apply, hw])
        (by simp [Stage.written, hw]) (fun _ h => h)
    | ok r =>
      obtain ⟨b, rest⟩ := r
      obtain ⟨piece, rfl, hb, hfits⟩ := Buffer.writeSome_eq_ok hw
      exact .downlink (b := b) (by simp) (by simp only [apply, hw])
        (by simp [Stage.written, hw, hb]) (fun _ h => hb ▸ h.append hfits)
  | closeDownlink =>
    exact .inr (.downlink (b := c.downlink.buffer.close) (by simp) rfl
      (by simp [Stage.written, Buffer.close]) (fun _ h => ⟨h.capacity, h.length_le⟩))
  | discardUplink n =>
    refine .inr ?_
    cases hd : c.uplink.buffer.discard n with
    | error err =>
      exact .uplink (b := c.uplink.buffer) (n := 0) (by simp) (by simp only [apply, hd])
        (by simp) rfl rfl
    | ok b =>
      obtain ⟨hb, -⟩ := Buffer.discard_eq_ok hd
      exact .uplink (b := b) (n := n) (by simp) (by simp only [apply, hd])
        (by simp [hb]) (by simp [hb]) rfl
  | closeUplink =>
    exact .inr (.uplink (b := c.uplink.buffer.close) (n := 0) (by simp) rfl
      (by simp [Buffer.close]) rfl rfl)

/-- All but the contents of the buffers stays. -/
theorem BufferMove.connection_eq {c : Connection} {m : Move} (h : c.BufferMove m) :
    ∃ down up, (c.apply m).connection =
      { c with downlink.buffer := down, uplink.buffer := up } := by
  cases h with
  | downlink _ applied _ _ => exact ⟨_, _, by rw [applied]; rfl⟩
  | uplink _ applied _ _ _ => exact ⟨_, _, by rw [applied]; rfl⟩

theorem BufferMove.not_event {c : Connection} {m : Move} (h : c.BufferMove m) :
    ∀ e now wall, m ≠ .event e now wall := by
  cases h <;> assumption

theorem BufferMove.segments_eq_nil {c : Connection} {m : Move} (h : c.BufferMove m) :
    (c.apply m).segments = [] := by
  cases h with
  | downlink _ applied _ _ => rw [applied, stay]
  | uplink _ applied _ _ _ => rw [applied, stay]

/-- Only events send something. -/
theorem event_of_mem_segments {c : Connection} {m : Move} {p : Segment}
    (hp : p ∈ (c.apply m).segments) : ∃ e now wall, m = .event e now wall := by
  refine (c.event_or_bufferMove m).resolve_right fun hmove => ?_
  rw [hmove.segments_eq_nil] at hp
  cases hp

end Connection

end TcpGateway
