import TcpGateway.Proofs.Coherence
import TcpGateway.Proofs.Faults
import TcpGateway.Proofs.Handshake

/-!
# The client's FIN and the payload in front of it

RCV.NXT counts the bytes that go into the uplink and the FIN that is consumed, and nothing else.  A
segment may bring both.  In phase Established its FIN is consumed behind the whole payload only.
The phases behind our own FIN do not ask whether the payload was taken: when the uplink is closed
they drop it, consume the FIN, and the number that they spend on the FIN is that of the first byte
lost.
-/

namespace TcpGateway

/-- What a stage consumes of the segment `s`. -/
structure Stage.Consumes (st : Stage) (s : Segment) : Prop where
  /-- RCV.NXT counts what is taken, if the segment is not a SYN that numbers the stream anew. -/
  counted : st.acceptedSyn = none →
    st.after.rcvNxt = st.before.rcvNxt.add (st.taken.length + st.takesFin.toNat)
  numbered : ∀ syn, st.acceptedSyn = some syn →
    syn = s ∧ st.after.rcvNxt = s.seq.next ∧ st.taken = [] ∧ st.takesFin = false
  /-- Payload is taken whole or not at all. -/
  whole : st.taken = [] ∨ st.taken = s.payload
  /-- The payload in front of a FIN is missing exactly if the uplink was closed … -/
  behind_payload : st.takesFin →
    (st.taken = s.payload ↔ s.payload = [] ∨ st.before.uplink.buffer.closed = false)
  /-- … and then the connection was in phase FinWait1 or FinWait2. -/
  behind_ours : st.takesFin → st.taken ≠ s.payload →
    st.before.phase = .finWait1 ∨ st.before.phase = .finWait2

namespace Connection

/-! ## The payload of a segment that passes the screen -/

section Payload

variable {c c' : Connection} {s : Segment} {now wall : Nat}

theorem acceptPayload_of_closed (hclosed : c.uplink.buffer.closed) (hne : s.payload ≠ []) :
    c.acceptPayload s = none := by
  have hempty : s.payload.isEmpty = false := by simpa [List.isEmpty_iff] using hne
  have hwrite : ∃ e, c.uplink.write s.seq s.payload = .error e := by
    simp only [Uplink.write, hempty, Buffer.write, hclosed, if_true]
    split
    · exact ⟨_, rfl⟩
    · simp only [Bool.false_eq_true, if_false]
      split <;> exact ⟨_, rfl⟩
  obtain ⟨e, he⟩ := hwrite
  simp only [acceptPayload, hempty, he, Bool.false_eq_true, if_false]

theorem acceptPayload_uplink (h : c.acceptPayload s = some c') :
    c'.uplink = c.uplink.extend s.payload := by
  by_cases hne : s.payload = []
  · cases (acceptPayload_nil hne).symm.trans h
    simp [Uplink.extend, hne, SeqNum.add_zero]
  · obtain ⟨-, -, rfl⟩ := acceptPayload_eq_some h hne
    rfl

/-- A payload in the window is refused by a closed uplink only. -/
theorem acceptPayload_none_iff (hwin : c.uplink.inWindow s.seq s.payload.length) :
    c.acceptPayload s = none ↔ s.payload ≠ [] ∧ c.uplink.buffer.closed := by
  constructor
  · intro hnone
    refine ⟨fun hnil => ?_, ?_⟩
    · cases (acceptPayload_nil hnil).symm.trans hnone
    · by_contra hopen
      obtain ⟨c', hsome, -⟩ := strict_acceptPayload hwin (Bool.eq_false_iff.mpr hopen)
      cases hsome.symm.trans hnone
  · exact fun ⟨hne, hclosed⟩ => acceptPayload_of_closed hclosed hne

end Payload

/-! ## The FIN -/

/-- What a connection that consumes the FIN of `s` makes of the uplink `u`. -/
inductive Ended (c : Connection) (s : Segment) (u : Uplink) : Prop
  | behind (taken : s.payload = [] ∨ c.uplink.buffer.closed = false)
      (is_after : u = (c.uplink.extend s.payload).spendControl)
  /-- The payload is lost. -/
  | alone (behind_ours : c.phase = .finWait1 ∨ c.phase = .finWait2) (not_empty : s.payload ≠ [])
      (is_closed : c.uplink.buffer.closed) (is_after : u = c.uplink.spendControl)

section Fin

variable {c c' : Connection} {s : Segment} {now wall : Nat}

theorem acceptPayload_behind (h : c.acceptPayload s = some c') :
    s.payload = [] ∨ c.uplink.buffer.closed = false := by
  by_contra hnot
  obtain ⟨hne, hclosed⟩ := not_or.mp hnot
  cases h.symm.trans (acceptPayload_of_closed (by simpa using hclosed) hne)

theorem sendFinIfReady_phase {o : Outcome} (hp : o.connection.phase = .established) :
    (o.sendFinIfReady now).connection.phase ≠ .closeWait := by
  by_cases hready : o.connection.isReadyToClose
  · rw [sendFinIfReady_eq now (hp ▸ rfl) hready]
    simp [afterFin, hp, Phase.afterOurFin]
  · rw [Outcome.sendFinIfReady, if_neg hready, hp]
    decide

theorem onEstablished_ended (hp : c.phase = .established)
    (h : (c.onEstablished s now).connection.phase = .closeWait) :
    Ended c s (c.onEstablished s now).connection.uplink := by
  unfold onEstablished at h ⊢
  split at h
  · rename_i o hscreen
    obtain hsame | hclosed := screen_connection hscreen
    · rw [hsame, hp] at h
      cases h
    · cases hclosed.symm.trans h
  · split at h
    · cases hp.symm.trans h
    · rename_i c₁ hack
      have hp₁ : c₁.phase = .established := (applyAck_phase hack).trans hp
      split at h
      · cases hp₁.symm.trans h
      · rename_i c₂ hpay
        have hp₂ : c₂.phase = .established := (acceptPayload_phase hpay).trans hp₁
        have huplink : c₁.uplink = c.uplink := applyAck_uplink hack
        split at h
        · rename_i hfin
          simp only [*, if_true]
          refine .behind (huplink ▸ acceptPayload_behind hpay) ?_
          rw [← huplink, ← acceptPayload_uplink hpay]
          rfl
        · split at h
          · rename_i c₃ data hdata
            rw [sendData_eq] at hdata
            split at hdata <;> cases hdata
            exact absurd h (sendFinIfReady_phase hp₂)
          · refine absurd h (sendFinIfReady_phase ?_)
            split <;> exact hp₂

/-- What the screen stops is left as it was, or aborted. -/
theorem screen_aborts {o : Outcome} (h : c.screen s = some o) :
    o.connection = c ∨ .abortRelay ∈ o.commands := by
  unfold screen at h
  split at h
  · split at h <;> cases h
    · exact .inr (by simp [Outcome.command])
    · exact .inl rfl
  · split at h
    · cases h
      exact .inl rfl
    · split at h
      · cases h
        exact .inr (by simp [Outcome.command])
      · split at h <;> cases h
        exact .inl rfl

/-- Behind our FIN the payload is taken unless the uplink is closed, and the FIN in any case. -/
theorem onFinWait_ended {afterFin : Phase} {next : Connection → Phase}
    (hp : c.phase = .finWait1 ∨ c.phase = .finWait2) (hfin : s.isFin)
    (hphase : (c.onFinWait s afterFin next).connection.phase ≠ c.phase)
    (habort : .abortRelay ∉ (c.onFinWait s afterFin next).commands) :
    Ended c s (c.onFinWait s afterFin next).connection.uplink := by
  unfold onFinWait at hphase habort ⊢
  split at hphase
  · rename_i o hscreen
    rw [hscreen] at habort
    obtain hsame | haborts := screen_aborts hscreen
    · exact absurd (congrArg phase hsame) hphase
    · exact absurd haborts habort
  · rename_i hscreen
    cases hack : c.applyAck s with
    | none =>
      rw [hack] at hphase
      exact absurd rfl hphase
    | some c₁ =>
      have huplink : c₁.uplink = c.uplink := applyAck_uplink hack
      have hwin : c₁.uplink.inWindow s.seq s.payload.length := huplink ▸ screen_inWindow hscreen
      simp only [hfin, if_true]
      cases hpay : c₁.acceptPayload s with
      | none =>
        obtain ⟨hne, hclosed⟩ := (acceptPayload_none_iff hwin).mp hpay
        exact .alone hp hne (huplink ▸ hclosed) (congrArg Uplink.spendControl huplink)
      | some c₂ =>
        refine .behind (huplink ▸ acceptPayload_behind hpay) ?_
        rw [← huplink, ← acceptPayload_uplink hpay]
        rfl

theorem Ended.of_recorded {u : Uplink} (now : Nat) (h : Ended (c.recorded now) s u) :
    Ended c s u := by
  cases h with
  | behind taken is_after => exact .behind taken is_after
  | alone behind_ours not_empty is_closed is_after =>
    exact .alone behind_ours not_empty is_closed is_after

/-- A connection that consumes the FIN of a segment took the whole payload in front of it, or was
behind its own FIN with a closed uplink. -/
theorem process_ended (hflight : Flight c)
    (h : Stage.takesFin ⟨c, .event (.segment s) now wall, c.process (.segment s) now wall⟩) :
    Ended c s (c.process (.segment s) now wall).connection.uplink := by
  obtain ⟨⟨s', hs, hfin⟩, -, habort, ends⟩ :=
    (takesFin_iff (process_progress hflight (.segment s) now wall)).mp h
  cases hs
  have hsettled (o : Outcome) : (settle o).connection.uplink = o.connection.uplink := by
    obtain ⟨advertised, hc⟩ := settle_connection o
    rw [hc]
  rcases ends with ⟨was | was, is⟩ | ⟨was, is⟩ | ⟨was, is⟩
  · obtain ⟨-, s', hs, -, -, -, -, -, hprocess⟩ :=
      process_isSynchronized hflight (by rw [was]; rfl) (by rw [is]; rfl)
    cases hs
    rw [hprocess, settle_phase] at is
    rw [hprocess, hsettled]
    cases onEstablished_ended (c := c.entering now) rfl is with
    | behind taken is_after => exact .behind taken is_after
    | alone behind_ours _ _ _ => simp [entering] at behind_ours
  all_goals
    rw [process, settle_phase] at is
    rw [process, hsettled]
    change .abortRelay ∉ (c.dispatch (.segment s) now wall).commands at habort
  · have hdispatch : c.dispatch (.segment s) now wall = (c.recorded now).onEstablished s now := by
      simp only [dispatch, onSegment, was, recorded]
    rw [hdispatch] at is ⊢
    exact (onEstablished_ended (c := c.recorded now) was is).of_recorded now
  · have hdispatch : c.dispatch (.segment s) now wall = (c.recorded now).onFinWait1 s := by
      simp only [dispatch, onSegment, was, recorded]
    rw [hdispatch] at is habort ⊢
    have hended := onFinWait_ended (c := c.recorded now) (.inl was) hfin
      (fun heq => by cases is.symm.trans (heq.trans was)) habort
    exact hended.of_recorded now
  · have hdispatch : c.dispatch (.segment s) now wall = (c.recorded now).onFinWait2 s := by
      simp only [dispatch, onSegment, was, recorded]
    rw [hdispatch] at is habort ⊢
    have hended := onFinWait_ended (c := c.recorded now) (.inr was) hfin
      (fun heq => by cases is.symm.trans (heq.trans was)) habort
    exact hended.of_recorded now

end Fin

/-! ## Every segment of every run -/

section Consumes

variable {c : Connection} {s : Segment} {now wall : Nat}

theorem Ended.appended {u : Uplink} (h : Ended c s u) :
    u.buffer.bytes = c.uplink.buffer.bytes ++ s.payload ∧
        (s.payload = [] ∨ c.uplink.buffer.closed = false) ∨
      u.buffer.bytes = c.uplink.buffer.bytes ∧ s.payload ≠ [] ∧ c.uplink.buffer.closed ∧
        (c.phase = .finWait1 ∨ c.phase = .finWait2) := by
  cases h with
  | behind taken is_after => exact .inl ⟨by rw [is_after]; rfl, taken⟩
  | alone behind_ours not_empty is_closed is_after =>
    exact .inr ⟨by rw [is_after]; rfl, not_empty, is_closed, behind_ours⟩

theorem consumes (hflight : Flight c) :
    (c.stage (.event (.segment s) now wall)).Consumes s := by
  have hreceiving := process_receiving hflight (.segment s) now wall
  obtain ⟨happended, horigin⟩ := hreceiving.taken
  have hwhole : (c.stage (.event (.segment s) now wall)).taken = [] ∨
      (c.stage (.event (.segment s) now wall)).taken = s.payload := by
    by_contra hnot
    obtain ⟨hne, hpayload⟩ := not_or.mp hnot
    obtain ⟨s', hs, htaken, -⟩ := horigin hne
    cases hs
    exact hpayload htaken
  have hended (hfin : (c.stage (.event (.segment s) now wall)).takesFin) :
      (c.stage (.event (.segment s) now wall)).taken = s.payload ∧
          (s.payload = [] ∨ c.uplink.buffer.closed = false) ∨
        (c.stage (.event (.segment s) now wall)).taken = [] ∧ s.payload ≠ [] ∧
          c.uplink.buffer.closed ∧ (c.phase = .finWait1 ∨ c.phase = .finWait2) := by
    rcases (process_ended hflight hfin).appended with ⟨hbytes, htaken⟩ | ⟨hbytes, hlost⟩
    · exact .inl ⟨taken_eq hbytes, htaken⟩
    · exact .inr ⟨taken_eq (hbytes.trans (List.append_nil _).symm), hlost⟩
  exact {
    counted := by
      intro hnone
      cases hreceiving with
      | counted takes next _ =>
        rw [show (c.stage (.event (.segment s) now wall)).taken = _ from taken_eq takes.appended]
        exact next
      | numbered accepted _ _ _ _ => cases accepted.symm.trans hnone
    numbered := by
      intro syn hsome
      cases hreceiving with
      | counted _ _ no_syn => cases no_syn.symm.trans hsome
      | numbered accepted kept next _ no_fin =>
        have hsyn : s = syn := by
          have hoffered := hsome
          rw [Stage.acceptedSyn] at hoffered
          exact Option.some.inj (Option.eq_some_of_filter_eq_some hoffered)
        cases accepted.symm.trans hsome
        subst hsyn
        exact ⟨rfl, next, taken_eq (kept.trans (List.append_nil _).symm), no_fin⟩
    whole := hwhole
    behind_payload := by
      intro hfin
      rcases hended hfin with ⟨htaken, hopen⟩ | ⟨htaken, hne, hclosed, -⟩
      · exact ⟨fun _ => hopen, fun _ => htaken⟩
      · refine ⟨fun hpayload => absurd (hpayload.symm.trans htaken) hne, fun hor => ?_⟩
        rcases hor with hnil | hopen
        · exact absurd hnil hne
        · cases hclosed.symm.trans hopen
    behind_ours := by
      intro hfin hne
      rcases hended hfin with ⟨htaken, -⟩ | ⟨-, -, -, hphase⟩
      · exact absurd htaken hne
      · exact hphase }

end Consumes

/-- What a segment brings is counted as it is taken, after every run: its payload whole or not at
all, and its FIN.  The payload in front of a FIN that is consumed is lost exactly if the uplink was
closed, and then our FIN had been sent before. -/
theorem consumes_run (flow : Flow) (held : Option Segment) (options : ConnectionOptions)
    (t₀ : Nat) (moves : List Move) (s : Segment) (now wall : Nat) :
    let c := (begin flow held options t₀).run moves
    (c.stage (.event (.segment s) now wall)).Consumes s :=
  consumes (received_run flow held options t₀ moves).1

/-- In phase FinWait1 with a closed uplink, a segment of two bytes and a FIN is consumed as the FIN
alone: none of the bytes is taken, and the first of them is acknowledged in place of the FIN. -/
theorem lostPayload_acknowledged :
    let client (seq ack : UInt32) (flags : Flags) (payload : Bytes) : Event :=
      .segment { flow := default, seq := ⟨seq⟩, ack := ⟨ack⟩, flags, window := 65535, payload }
    let options :=
      { maxPayload := 1400, windowSize := 65535, resendInterval := 100, idleTimeout := 300000 }
    let moves := [.event (client 1000 0 .syn []) 0 4000000000,
      .event (client 1001 1000000001 .ack []) 0 4000000000, .event .relayClosed 0 4000000000,
      .closeUplink]
    let c := (begin default none options 0).run moves
    let st := c.stage (.event (client 1001 1000000001 (.fin ||| .ack) [0x61, 0x62]) 0 4000000000)
    c.phase = .finWait1 ∧ st.takesFin ∧ st.taken = [] ∧ st.after.phase = .closing ∧
      st.outcome.segments.map (·.ack) = [⟨1002⟩] := by
  decide +kernel

end Connection

end TcpGateway
