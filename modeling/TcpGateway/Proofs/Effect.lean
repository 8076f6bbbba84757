import TcpGateway.Proofs.Step

/-!
# What a step does to the downlink

Of all the steps only four touch the numbers of the downlink: one that answers a SYN numbers it
anew, one that applies an acknowledgment moves SND.UNA, and the first sending of data and of the
FIN move SND.NXT.  Every other step keeps the numbers, and what it sends repeats what was sent
before or occupies no number at all.

`Step.effect` sorts the steps in this way.  Theorems on the bytes and numbers of the downlink go
through its six cases.
-/

namespace TcpGateway

namespace Connection

/-! ## The kinds of segments -/

/-- The segment that repeats what is queued as `x`. -/
def repeated (c : Connection) (x : SentSegment) : Segment :=
  if x.isFin then c.finSegment x.seq else c.dataSegment x.seq x.data

section Kinds

variable (c : Connection) (seq : SeqNum) (data : Bytes) (x : SentSegment)

theorem isSyn_synAckSegment : c.synAckSegment.isSyn := by
  show (Flags.syn ||| Flags.ack).has .syn
  decide

theorem isFin_synAckSegment : c.synAckSegment.isFin = false := by
  show (Flags.syn ||| Flags.ack).has .fin = false
  decide

theorem isSyn_finSegment : (c.finSegment seq).isSyn = false := by
  show (Flags.fin ||| Flags.ack).has .syn = false
  decide

theorem isFin_finSegment : (c.finSegment seq).isFin := by
  show (Flags.fin ||| Flags.ack).has .fin
  decide

theorem isSyn_dataSegment : (c.dataSegment seq data).isSyn = false := by
  show (Flags.ack ||| Flags.psh).has .syn = false
  decide

theorem isFin_dataSegment : (c.dataSegment seq data).isFin = false := by
  show (Flags.ack ||| Flags.psh).has .fin = false
  decide

theorem seq_repeated : (c.repeated x).seq = x.seq := by
  unfold repeated
  split <;> rfl

theorem isSyn_repeated : (c.repeated x).isSyn = false := by
  unfold repeated
  split
  · exact c.isSyn_finSegment _
  · exact c.isSyn_dataSegment _ _

theorem isFin_repeated : (c.repeated x).isFin = x.isFin := by
  unfold repeated
  split
  · rename_i hx
    rw [hx]
    exact c.isFin_finSegment _
  · rename_i hx
    rw [Bool.eq_false_iff.mpr hx]
    exact c.isFin_dataSegment _ _

end Kinds

/-- A segment sent by a step from `c` to `c'` that moves no number. -/
inductive Repeats (c c' : Connection) (p : Segment) : Prop
  /-- An acknowledgment or a reset. -/
  | bare (is_empty : p.length = 0)
  /-- The SYN-ACK again. -/
  | synAck (is_opening : c.phase = .synReceived) (stays : c'.phase = c.phase)
      (is_eq : p = c'.synAckSegment)
  /-- The oldest segment of the queue. -/
  | oldest {x : SentSegment} {rest : List SentSegment} (is_synchronized : c.phase.isSynchronized)
      (is_oldest : c.resends.segments = x :: rest) (is_eq : p = c'.repeated x)
  /-- The FIN in phase LastAck. -/
  | lastFin {fin : SeqNum} (is_lastAck : c.phase = .lastAck) (is_fin : c.finSeq = some fin)
      (is_eq : p = c'.finSegment fin)

namespace Repeats

variable {c c' : Connection} {p : Segment}

theorem of_isSyn (h : Repeats c c' p) (hsyn : p.isSyn) :
    c.phase = .synReceived ∧ c'.phase = .synReceived ∧ p.seq = c'.iss := by
  cases h with
  | bare is_empty => simp [(length_eq_zero_iff.mp is_empty).2.1] at hsyn
  | synAck is_opening stays is_eq => exact ⟨is_opening, stays.trans is_opening, is_eq ▸ rfl⟩
  | oldest _ _ is_eq => simp [is_eq, isSyn_repeated] at hsyn
  | lastFin _ _ is_eq => simp [is_eq, isSyn_finSegment] at hsyn

/-- Payload that is repeated was queued as data. -/
theorem of_payload (h : Repeats c c' p) (hpay : p.payload ≠ []) :
    ∃ x ∈ c.resends.segments, c.phase.isSynchronized ∧ x.isFin = false ∧
      p.seq = x.seq ∧ p.payload = x.data := by
  cases h with
  | bare is_empty => exact absurd (length_eq_zero_iff.mp is_empty).1 hpay
  | synAck _ _ is_eq => exact absurd (is_eq ▸ rfl) hpay
  | @oldest x rest is_synchronized is_oldest is_eq =>
    by_cases hx : x.isFin
    · rw [is_eq, repeated, if_pos hx] at hpay
      exact absurd rfl hpay
    · rw [repeated, if_neg hx] at is_eq
      exact ⟨x, is_oldest ▸ List.mem_cons_self, is_synchronized, Bool.eq_false_iff.mpr hx,
        is_eq ▸ rfl, is_eq ▸ rfl⟩
  | lastFin _ _ is_eq => exact absurd (is_eq ▸ rfl) hpay

/-- A FIN that is repeated was queued, or is the one that the connection remembers. -/
theorem of_isFin (h : Repeats c c' p) (hfin : p.isFin) :
    p.payload = [] ∧
      ((∃ x ∈ c.resends.segments, x.isFin ∧ p.seq = x.seq) ∨ c.finSeq = some p.seq) := by
  cases h with
  | bare is_empty => simp [(length_eq_zero_iff.mp is_empty).2.2] at hfin
  | synAck _ _ is_eq => simp [is_eq, isFin_synAckSegment] at hfin
  | @oldest x rest _ is_oldest is_eq =>
    have hx : x.isFin := by rwa [is_eq, isFin_repeated] at hfin
    rw [repeated, if_pos hx] at is_eq
    exact ⟨is_eq ▸ rfl, .inl ⟨x, is_oldest ▸ List.mem_cons_self, hx, is_eq ▸ rfl⟩⟩
  | lastFin _ is_fin is_eq =>
    refine ⟨is_eq ▸ rfl, .inr ?_⟩
    rw [is_fin, is_eq]
    rfl

end Repeats

/-- Numbers and bytes of the downlink are as they were, and nothing new is queued. -/
structure Kept (c c' : Connection) : Prop where
  downlink : c'.downlink = c.downlink
  iss : c'.iss = c.iss
  finSeq : c'.finSeq = c.finSeq
  queue : ∀ x' ∈ c'.resends.segments, ∃ x ∈ c.resends.segments,
    x'.seq = x.seq ∧ x'.data = x.data ∧ x'.isFin = x.isFin
  opening : c'.phase.isOpening → c.phase.isOpening
  greeted : c'.phase.isGreeted → c.phase.isGreeted

theorem Kept.refl (c : Connection) : Kept c c where
  downlink := rfl
  iss := rfl
  finSeq := rfl
  queue := fun x hx => ⟨x, hx, rfl, rfl, rfl⟩
  opening := id
  greeted := id

/-- What a step does to the downlink, and what it sends. -/
inductive Effect (now : Nat) (o o' : Outcome) : Prop
  /-- Nothing is sent; behind what was sent already, the phase stays. -/
  | kept (keeps : Kept o.connection o'.connection) (sends_nothing : o'.segments = o.segments)
      (late : o.segments = [] ∨ o'.connection.phase = o.connection.phase)
  | repeated (keeps : Kept o.connection o'.connection) (nothing_sent : o.segments = [])
      (repeats : ∀ p ∈ o'.segments, Repeats o.connection o'.connection p)
  /-- A SYN is answered. -/
  | numbered (was_opening : o.connection.phase.isOpening) (nothing_sent : o.segments = [])
      (enters : o'.connection.phase = .synReceived)
      (downlink : o'.connection.downlink =
        .ofBuffer o.connection.downlink.buffer o'.connection.iss.next)
      (finSeq : o'.connection.finSeq = o.connection.finSeq)
      (queue : o'.connection.resends = o.connection.resends)
      (sends : o'.segments = [o'.connection.synAckSegment])
  /-- An acknowledgment releases numbers in flight; it may be the one that closes. -/
  | acknowledged {s : Segment} {p : Phase} (nothing_sent : o.segments = [])
      (not_empty : 0 < s.ack.distance o.connection.sndUna)
      (in_flight : s.ack.distance o.connection.sndUna ≤ o.connection.downlink.inFlight)
      (phase : p = o.connection.phase ∨ p = .closed)
      (is_after : o'.connection = { o.connection.afterAck s with phase := p })
      (sends_nothing : o'.segments = [])
  /-- Data is sent for the first time. -/
  | data (can_send : o.connection.phase.canSend) (nothing_sent : o.segments = [])
      (not_empty : o.connection.nextSize ≠ 0)
      (is_after : o' = o.connection.sendNext now o.connection.nextSize)
  /-- The FIN is sent for the first time. -/
  | fin (can_send : o.connection.phase.canSend) (is_ready : o.connection.isReadyToClose)
      (is_after : o'.connection = o.connection.afterFin now)
      (sends : o'.segments =
        o.segments ++ [o'.connection.finSegment o.connection.sndNxt])

/-! ## Every step -/

/-- An acknowledgment that is applied keeps the numbers or releases some. -/
theorem applyAck_effect {now : Nat} {c c' : Connection} {s : Segment} {p : Phase}
    (h : c.applyAck s = some c') (hp : p = c.phase ∨ p = .closed) :
    Effect now c.stay { c' with phase := p }.stay := by
  obtain ⟨-, rfl⟩ | ⟨hpos, hle, rfl⟩ := applyAck_eq_some h
  · have hkept : Kept c { c with peerWindow := s.window, phase := p } :=
      { Kept.refl c with
        opening := by
          intro ho
          rcases hp with rfl | rfl
          · exact ho
          · cases ho
        greeted := by
          intro hg
          rcases hp with rfl | rfl
          · exact hg
          · cases hg }
    exact .kept hkept rfl (.inl rfl)
  · exact .acknowledged rfl hpos hle hp rfl rfl

theorem acceptSyn_effect {now wall : Nat} {c : Connection} {s : Segment}
    (h : c.phase.isOpening) : Effect now c.stay (c.acceptSyn s now wall) :=
  .numbered h rfl rfl rfl rfl rfl rfl

theorem Closing.kept {e : Event} {c : Connection} {o : Outcome} (h : Closing e c o) :
    Kept c o.connection := by
  obtain ⟨held, counters, hc⟩ := h.connection_eq
  rw [hc]
  exact { Kept.refl c with opening := by rintro ⟨⟩, greeted := by rintro ⟨⟩ }

theorem settle_kept (o : Outcome) : Kept o.connection (settle o).connection := by
  obtain ⟨advertised, hc⟩ := settle_connection o
  have hkept : Kept o.connection o.connection := .refl _
  rw [hc]
  refine { hkept with queue := ?_ }
  by_cases hp : o.connection.phase = .closed
  · simp [hp, ResendQueue.clear]
  · simpa [hp] using hkept.queue

theorem Step.effect {e : Event} {now wall : Nat} {o o' : Outcome} (h : Step e now wall o o') :
    Effect now o o' := by
  have hsilent : ∀ {c c' : Connection}, Kept c c' → Effect now c.stay c'.stay :=
    fun hkept => .kept hkept rfl (.inl rfl)
  have hone : ∀ {c : Connection} {o' : Outcome} {p : Segment}, Kept c o'.connection →
      o'.segments = [p] → Repeats c o'.connection p → Effect now c.stay o' := by
    intro c o' p hkept hsends hp
    refine .repeated hkept rfl fun q hq => ?_
    rw [hsends] at hq
    exact List.mem_singleton.mp hq ▸ hp
  cases h with
  | recorded _ => exact hsilent { Kept.refl _ with }
  | touched _ => exact hsilent { Kept.refl _ with }
  | relayDone _ => exact hsilent { Kept.refl _ with }
  | @listened c _ is_held _ =>
    have hopen : c.phase.isOpening := is_held ▸ rfl
    exact hsilent { Kept.refl c with opening := fun _ => hopen, greeted := by rintro ⟨⟩ }
  | @heldSynAccepted c s _ is_held _ _ =>
    have hopen : c.phase.isOpening := is_held ▸ rfl
    exact .numbered hopen rfl rfl rfl rfl rfl rfl
  | @synAccepted c s _ is_opening _ =>
    refine acceptSyn_effect ?_
    rcases is_opening with hp | hp <;> exact hp ▸ rfl
  | @synAckRepeated c s _ _ is_opening =>
    exact hone { Kept.refl c with } rfl (.synAck is_opening rfl rfl)
  | @synAckResent c _ is_opening =>
    exact hone { Kept.refl c with } rfl (.synAck is_opening rfl rfl)
  | @ackRefused c s _ _ =>
    obtain ⟨resets, hsegments, hlength⟩ := sendResetFor_segments c.stay s
    obtain ⟨counters, hc⟩ := sendResetFor_connection c.stay s
    refine .repeated ?_ rfl fun p hp => .bare (hlength p ?_)
    · rw [hc]
      exact { Kept.refl c with }
    · rw [hsegments] at hp
      exact hp
  | @established c s _ is_opening _ _ _ =>
    have hgreeted : c.phase.isGreeted := is_opening ▸ rfl
    exact hsilent { Kept.refl c with opening := by rintro ⟨⟩, greeted := fun _ => hgreeted }
  | @acknowledged c c' s _ _ _ _ applied =>
    have heffect : Effect now c.stay { c' with phase := c.phase }.stay :=
      applyAck_effect applied (.inl rfl)
    rwa [← applyAck_phase applied] at heffect
  | lastAcknowledged _ _ _ _ applied => exact applyAck_effect applied (.inr rfl)
  | received _ _ not_empty accepted =>
    obtain ⟨-, -, rfl⟩ := acceptPayload_eq_some accepted not_empty
    exact hsilent { Kept.refl _ with }
  | @finReceived c s _ _ is_established =>
    have hgreeted : c.phase.isGreeted := is_established ▸ rfl
    exact hone (c := c) { Kept.refl c with opening := by rintro ⟨⟩, greeted := fun _ => hgreeted }
      rfl (.bare (length_ackSegment _))
  | @lastFinReceived c s p _ _ ends =>
    have hgreeted : c.phase.isGreeted := by rcases ends with ⟨hp, -⟩ | ⟨hp, -⟩ <;> exact hp ▸ rfl
    have hnot : p.isOpening = false := by rcases ends with ⟨-, rfl⟩ | ⟨-, rfl⟩ <;> rfl
    have hkept : Kept c { c with uplink := c.uplink.spendControl, phase := p } :=
      { Kept.refl c with
        opening := fun ho => by cases hnot.symm.trans ho
        greeted := fun _ => hgreeted }
    exact hone (c := c) hkept rfl (.bare (length_ackSegment _))
  | @finAcknowledged c s _ _ is_waiting _ =>
    have hgreeted : c.phase.isGreeted := is_waiting ▸ rfl
    exact hsilent { Kept.refl c with opening := by rintro ⟨⟩, greeted := fun _ => hgreeted }
  | @answered c _ => exact hone (c := c) (.refl c) rfl (.bare (length_ackSegment _))
  | dataSent can_send not_empty => exact .data can_send rfl not_empty rfl
  | @resent c x rest _ is_synchronized is_oldest _ =>
    refine hone (c := c) ?_ rfl (.oldest is_synchronized is_oldest rfl)
    have hkept : Kept c c := .refl _
    refine { hkept with queue := ?_ }
    rw [is_oldest]
    refine List.forall_mem_cons.mpr ⟨⟨x, List.mem_cons_self, rfl, rfl, rfl⟩, fun y hy => ?_⟩
    exact ⟨y, List.mem_cons_of_mem _ hy, rfl, rfl, rfl⟩
  | @finRepeated c fin is_lastAck is_fin =>
    exact hone (c := c) (.refl c) rfl (.lastFin is_lastAck is_fin rfl)
  | finSent _ can_send is_ready =>
    rw [sendFinIfReady_eq now can_send is_ready]
    exact .fin can_send is_ready rfl rfl
  | closed closes =>
    exact .repeated closes.kept rfl fun p hp => .bare (closes.segments_length p hp)
  | @settled o =>
    obtain ⟨advertised, hc⟩ := settle_connection o
    exact .kept (settle_kept o) rfl (.inr (by rw [hc]))

/-- No step leads back into the handshake. -/
theorem Effect.isOpening {now : Nat} {o o' : Outcome} (h : Effect now o o')
    (hp : o'.connection.phase.isOpening) : o.connection.phase.isOpening := by
  cases h with
  | kept keeps _ _ => exact keeps.opening hp
  | repeated keeps _ _ => exact keeps.opening hp
  | numbered was_opening _ _ _ _ _ _ => exact was_opening
  | acknowledged _ _ _ phase is_after _ =>
    rw [is_after] at hp
    rcases phase with rfl | rfl
    · exact hp
    · cases hp
  | data _ _ _ is_after =>
    rw [is_after] at hp
    exact hp
  | fin can_send _ is_after _ =>
    rw [is_after] at hp
    cases hq : o.connection.phase <;>
      simp_all [Phase.canSend, afterFin, Phase.afterOurFin, Phase.isOpening]

end Connection

end TcpGateway
