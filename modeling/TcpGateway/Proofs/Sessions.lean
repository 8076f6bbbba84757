import TcpGateway.Gateway.Run
import TcpGateway.Proofs.Step

/-!
# What a session does to itself

A session keeps its identifier and its flow whatever it does, and the segments that wait for it
leave its mailbox only towards its connection, in their order.  The last part is not obvious,
because a session shares its mailbox with a forwarder, and the last event of that is a value that
it carries along; `Forwarder.AddsNoSegment` says that this is never a segment of the client.

The numbers of sessions begun and ended are counted by the gateway alone, so that the counters of
a connection (`Connection.Steady`) do not count for them.
-/

namespace TcpGateway

/-! ## The connection -/

namespace Connection

/-- What no event changes. -/
structure Steady (c c' : Connection) : Prop where
  flow : c'.flow = c.flow
  opened : c'.counters.opened = c.counters.opened
  closed : c'.counters.closed = c.counters.closed

namespace Steady

variable {c c' c'' : Connection} {s : Segment}

theorem trans (h : Steady c c') (h' : Steady c' c'') : Steady c c'' :=
  ⟨h'.flow.trans h.flow, h'.opened.trans h.opened, h'.closed.trans h.closed⟩

theorem sendResetFor {o : Outcome} (h : Steady c o.connection) (s : Segment) :
    Steady c (o.sendResetFor s).connection := by
  unfold Outcome.sendResetFor
  split
  · exact h
  · exact h.trans ⟨rfl, rfl, rfl⟩

theorem refuseHeld (c : Connection) : Steady c c.refuseHeld.connection := by
  unfold Connection.refuseHeld
  split
  · exact ⟨rfl, rfl, rfl⟩
  · refine sendResetFor ?_ _
    exact ⟨rfl, rfl, rfl⟩

theorem closing {e : Event} {o : Outcome} (h : Closing e c o) : Steady c o.connection := by
  cases h with
  | orderly _ _ => exact ⟨rfl, rfl, rfl⟩
  | aborted => exact ⟨rfl, rfl, rfl⟩
  | reset => exact ⟨rfl, rfl, rfl⟩
  | refused _ _ =>
    refine sendResetFor ?_ _
    exact ⟨rfl, rfl, rfl⟩
  | unreachable _ => exact refuseHeld c
  | failed _ _ => exact refuseHeld c

theorem applyAck (h : c.applyAck s = some c') : Steady c c' := by
  obtain ⟨-, rfl⟩ | ⟨-, -, rfl⟩ := applyAck_eq_some h <;> exact ⟨rfl, rfl, rfl⟩

theorem step {e : Event} {now wall : Nat} {o o' : Outcome} (h : Step e now wall o o') :
    Steady o.connection o'.connection := by
  cases h with
  | ackRefused _ _ => exact sendResetFor ⟨rfl, rfl, rfl⟩ _
  | acknowledged _ _ _ _ applied => exact .applyAck applied
  | lastAcknowledged _ _ _ _ applied => exact (Steady.applyAck applied).trans ⟨rfl, rfl, rfl⟩
  | received _ _ not_empty accepted =>
    obtain ⟨-, -, rfl⟩ := acceptPayload_eq_some accepted not_empty
    exact ⟨rfl, rfl, rfl⟩
  | finSent _ can_send is_ready =>
    rw [sendFinIfReady_eq _ can_send is_ready]
    exact ⟨rfl, rfl, rfl⟩
  | closed closes => exact .closing closes
  | @settled o =>
    obtain ⟨advertised, hc⟩ := settle_connection o
    rw [hc]
    exact ⟨rfl, rfl, rfl⟩
  | _ => exact ⟨rfl, rfl, rfl⟩

theorem process (c : Connection) (e : Event) (now wall : Nat) :
    Steady c (c.process e now wall).connection := by
  have hpath : Path e now wall c.stay (c.process e now wall) := process_path
  generalize c.process e now wall = o at hpath ⊢
  induction hpath with
  | refl => exact ⟨rfl, rfl, rfl⟩
  | tail _ hstep ih => exact ih.trans (.step hstep)

end Steady

end Connection

/-! ## The mailbox -/

namespace Mailbox

variable {m m' : Mailbox} {e : Event}

theorem put_eq : m.put e =
    if m.isOpen && m.events.length < m.capacity then { m with events := m.events ++ [e] }
    else m := by
  unfold put offer
  cases hopen : m.isOpen with
  | false => simp
  | true => by_cases hroom : m.capacity ≤ m.events.length <;> simp [hroom]

theorem segments_of_offer (h : m.offer e = .delivered m') (he : e.segment? = none) :
    m'.segments = m.segments := by
  unfold offer at h
  split at h
  · cases h
  · split at h <;> cases h
    simp [segments, he]

end Mailbox

/-! ## The forwarder -/

namespace Forwarder

/-- The last event, if it has come to that, is no segment. -/
def AddsNoSegment (f : Forwarder) : Prop := ∀ last, f.stage = .ending last → last.segment? = none

/-- What a forwarder leaves behind that was asked to go on with the mailbox `m`: it puts no
segment there. -/
def Harmless (m : Mailbox) (x : Forwarder × Surroundings) : Prop :=
  x.1.AddsNoSegment ∧ x.2.mailbox.segments = m.segments

section Steps

variable {o : ForwarderOptions} {now : Nat} {f : Forwarder} {s : Surroundings}

theorem addsNoSegment_finish (f : Forwarder) (result : Except RelayError Unit) :
    (f.finish result).AddsNoSegment := by
  rintro last hlast
  cases hlast
  cases result with
  | ok => rfl
  | error e =>
    rw [lastEvent]
    split <;> rfl

theorem addsNoSegment_choose (f : Forwarder) (now : Nat) : (f.choose now).AddsNoSegment := by
  rintro last ⟨⟩

theorem harmless_send {next : Forwarder} (h : next.AddsNoSegment) (r : Request) :
    Harmless s.mailbox (f.send s r next) := by
  unfold send
  split
  · exact ⟨addsNoSegment_finish _ _, rfl⟩
  · split
    · exact ⟨h, rfl⟩
    · exact ⟨addsNoSegment_finish _ _, rfl⟩

theorem harmless_onAnswer (answer : Bytes) :
    Harmless s.mailbox (f.onAnswer o now s answer) := by
  unfold onAnswer onSilence
  split
  · split
    · exact harmless_send (addsNoSegment_finish _ _) .close
    · exact ⟨addsNoSegment_choose _ _, rfl⟩
  · exact ⟨by rintro last ⟨⟩, rfl⟩

theorem harmless_read {wake : Nat} {next : Forwarder} {x : Forwarder × Surroundings}
    (hnext : next.AddsNoSegment)
    (h : (if wake ≤ now then some (f.send s .read next) else none) = some x) :
    Harmless s.mailbox x := by
  split at h <;> cases h
  exact harmless_send hnext .read

theorem harmless_onChoosing {wake : Nat} {x : Forwarder × Surroundings}
    (h : f.onChoosing o now wake s = some x) : Harmless s.mailbox x := by
  have hawaiting (quietSince : Option Nat) :
      ({ stage := .awaiting, delay := f.delay, quietSince } : Forwarder).AddsNoSegment := by
    rintro last ⟨⟩
  cases hquiet : f.quietSince with
  | some since =>
    simp only [onChoosing, hquiet] at h
    exact harmless_read (hawaiting _) h
  | none =>
    simp only [onChoosing, hquiet] at h
    split at h
    · cases h
      exact harmless_send (s := { s with uplink := _ }) (hawaiting _) (.exchange _)
    · exact harmless_read (hawaiting _) h
    · cases h
      exact ⟨addsNoSegment_choose _ _, rfl⟩

theorem harmless_step {x : Forwarder × Surroundings} (h : f.AddsNoSegment)
    (hstep : f.step o now s = some x) : Harmless s.mailbox x := by
  unfold step at hstep
  split at hstep
  · exact harmless_onChoosing hstep
  · split at hstep
    · cases hstep
      exact harmless_onAnswer _
    · cases hstep
      exact ⟨addsNoSegment_finish _ _, rfl⟩
    · obtain ⟨fault, -, rfl⟩ := Option.map_eq_some_iff.mp hstep
      exact ⟨addsNoSegment_finish _ _, rfl⟩
  · split at hstep
    · cases hstep
      exact ⟨by rintro last ⟨⟩, rfl⟩
    · split at hstep
      · cases hstep
        exact ⟨addsNoSegment_finish _ _, rfl⟩
      · split at hstep <;> cases hstep
        exact ⟨by rintro last ⟨⟩, rfl⟩
  · split at hstep
    · rename_i hoffer
      cases hstep
      exact ⟨addsNoSegment_choose _ _, Mailbox.segments_of_offer hoffer rfl⟩
    · cases hstep
    · cases hstep
      exact ⟨addsNoSegment_finish _ _, rfl⟩
  · rename_i last hlast
    split at hstep
    · rename_i hoffer
      cases hstep
      exact ⟨by rintro last ⟨⟩, Mailbox.segments_of_offer hoffer (h last hlast)⟩
    · cases hstep
    · cases hstep
      exact ⟨by rintro last ⟨⟩, rfl⟩
  · cases hstep

end Steps

end Forwarder

/-! ## The session -/

namespace Session

/-- What holds of every session. -/
structure Sound (s : Session) : Prop where
  forwarder : ∀ f, s.forwarder = some f → f.AddsNoSegment
  opened : s.connection.counters.opened = 0
  closed : s.connection.counters.closed = 0

/-- The session `s` has become `s'`; meanwhile the segments `added` were put into its mailbox, and
`handed` is what it has handed to its connection. -/
structure Evolves (added : List Segment) (handed : Option Event) (s s' : Session) : Prop where
  id : s'.id = s.id
  flow : s'.flow = s.flow
  aborted : s'.aborted = s.aborted
  sound : s'.Sound
  segments : s.mailbox.segments ++ added =
    (handed.bind Event.segment?).toList ++ s'.mailbox.segments

section Steps

variable {settings : Settings} {now wall : Nat} {s s' : Session} {e : Event}

/-- A step that only concerns the connection. -/
theorem Evolves.of_connection (hs : s.Sound) (c : Connection.Steady s.connection s'.connection)
    (hid : s'.id = s.id) (haborted : s'.aborted = s.aborted) (hmailbox : s'.mailbox = s.mailbox)
    (hforwarder : s'.forwarder = s.forwarder ∨ s'.forwarder = none) :
    Evolves [] none s s' where
  id := hid
  flow := c.flow
  aborted := haborted
  sound := {
    forwarder := by
      intro f hf
      rcases hforwarder with hsame | hnone
      · exact hs.forwarder f (hsame.symm.trans hf)
      · cases hnone.symm.trans hf
    opened := c.opened.trans hs.opened
    closed := c.closed.trans hs.closed }
  segments := by
    rw [hmailbox]
    exact List.append_nil _

theorem Evolves.refl (hs : s.Sound) : Evolves [] none s s :=
  .of_connection hs ⟨rfl, rfl, rfl⟩ rfl rfl rfl (.inl rfl)

theorem Evolves.trans {s'' : Session} {added : List Segment} {handed : Option Event}
    (h : Evolves added handed s s') (h' : Evolves [] none s' s'') : Evolves added handed s s'' where
  id := h'.id.trans h.id
  flow := h'.flow.trans h.flow
  aborted := h'.aborted.trans h.aborted
  sound := h'.sound
  segments := by
    have hsame := h'.segments
    rw [List.append_nil] at hsame
    rw [h.segments, hsame]
    rfl

theorem Evolves.begin (hs : s.Sound) : Evolves [] none s (s.begin settings now) :=
  .of_connection hs ⟨rfl, rfl, rfl⟩ rfl rfl rfl (.inl rfl)

/-- What a session goes on with comes out of its mailbox, or is no segment. -/
theorem Evolves.wake {cause : Cause} (hs : s.Sound)
    (h : s.wake settings now cause = some (s', e)) : Evolves [] (some e) s s' := by
  unfold Session.wake at h
  split at h
  · cases h
  · split at h
    · cases h
      exact ⟨rfl, rfl, rfl, ⟨fun f hf => by cases hf; rintro _ ⟨⟩, hs.opened, hs.closed⟩,
        List.append_nil _⟩
    · cases h
      exact ⟨rfl, rfl, rfl, ⟨hs.forwarder, hs.opened, hs.closed⟩, List.append_nil _⟩
    · obtain ⟨⟨e', mailbox⟩, htake, heq⟩ := Option.map_eq_some_iff.mp h
      cases heq
      refine ⟨rfl, rfl, rfl, ⟨hs.forwarder, hs.opened, hs.closed⟩, ?_⟩
      unfold Mailbox.take? at htake
      split at htake
      · cases htake
      · rename_i rest hevents
        cases htake
        rw [Mailbox.segments, hevents, List.filterMap_cons, List.append_nil]
        cases hs : e.segment? <;> simp [hs, Mailbox.segments]
    · split at h <;> cases h
      exact ⟨rfl, rfl, rfl, ⟨hs.forwarder, hs.opened, hs.closed⟩, List.append_nil _⟩
    · cases h

theorem Evolves.hand (hs : s.Sound) : Evolves [] none s (s.hand e now wall) :=
  .of_connection hs (.process s.connection e now wall) rfl rfl rfl (.inl rfl)

theorem Evolves.obey (hs : s.Sound) (commands : List Command) :
    Evolves [] none s (commands.foldl Session.obey s) := by
  induction commands generalizing s with
  | nil => exact .refl hs
  | cons k commands ih =>
    have hfirst : Evolves [] none s (s.obey k) := by
      cases k with
      | finishUplink => exact .of_connection hs ⟨rfl, rfl, rfl⟩ rfl rfl rfl (.inl rfl)
      | abortRelay => exact .of_connection hs ⟨rfl, rfl, rfl⟩ rfl rfl rfl (.inr rfl)
    exact hfirst.trans (ih hfirst.sound)

theorem Evolves.carryOn (hs : s.Sound) (t : Tunnel) :
    Evolves [] none s (s.carryOn t).session := by
  have hduty (duty : Option Duty) : Evolves [] none s { s with duty } :=
    .of_connection hs ⟨rfl, rfl, rfl⟩ rfl rfl rfl (.inl rfl)
  unfold Session.carryOn
  split
  · exact .refl hs
  · split
    · exact hduty _
    · exact .refl hs
  · exact (hduty none).trans (.obey (hduty none).sound _)

theorem Evolves.forward {f : Forwarder} {link : Link} {x : Forwarder × Surroundings}
    (hs : s.Sound) (hf : s.forwarder = some f)
    (hstep : f.step settings.forwarderOptions now (s.surroundings link) = some x) :
    Evolves [] none s { s.withSurroundings x.2 with forwarder := some x.1 } := by
  obtain ⟨hforwarder, hsegments⟩ := Forwarder.harmless_step (hs.forwarder f hf) hstep
  exact ⟨rfl, rfl, rfl, ⟨fun f' hf' => by cases hf'; exact hforwarder, hs.opened, hs.closed⟩,
    (List.append_nil _).trans hsegments.symm⟩

/-- A segment that comes in goes behind the others, or is dropped. -/
theorem Evolves.put (hs : s.Sound) (p : Segment) :
    ∃ added, List.Sublist added [p] ∧
      Evolves added none s { s with mailbox := s.mailbox.put (.segment p) } := by
  have hsegments : ∃ added, List.Sublist added [p] ∧
      s.mailbox.segments ++ added = (s.mailbox.put (.segment p)).segments := by
    rw [Mailbox.put_eq]
    split
    · exact ⟨[p], .refl _, by simp [Mailbox.segments, Event.segment?]⟩
    · exact ⟨[], List.nil_sublist _, List.append_nil _⟩
  obtain ⟨added, hadded, hput⟩ := hsegments
  exact ⟨added, hadded, rfl, rfl, rfl, ⟨hs.forwarder, hs.opened, hs.closed⟩, hput⟩

end Steps

end Session

end TcpGateway
