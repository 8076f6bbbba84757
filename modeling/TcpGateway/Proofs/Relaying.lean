import Mathlib.Data.List.Induction
import TcpGateway.Forwarder.Run
import TcpGateway.Proofs.Framing
import TcpGateway.Proofs.Streams

/-!
# What a forwarder does in one step

`Does` lists the steps of a forwarder, each with the entry that it makes in the history, and `Waits`
the reasons why it may be unable to take one (`step_outcome`), so that nothing later unfolds the
machine.  Three of the steps send a request; how that goes is the same for all of them (`Sending`):
the request is on the stream whole, or a front of it is and the forwarder ends.  A property of runs
is then an invariant of `Does` that others cannot break (`run_induction`).
-/

namespace TcpGateway

namespace Buffer

/-- A read of up to `limit` bytes takes a front of the buffer, has to wait at an empty buffer, or
finds it closed. -/
theorem read_upTo_cases (b : Buffer) {limit : Nat} (hpos : 0 < limit) :
    (∃ data rest, data ≠ [] ∧ data.length ≤ limit ∧ b.bytes = data ++ rest ∧
        b.read (.upTo limit) = .ok (some (data, { b with bytes := rest }))) ∨
      b.bytes = [] ∧ b.closed = false ∧ b.read (.upTo limit) = .ok none ∨
      b.bytes = [] ∧ b.closed ∧ b.read (.upTo limit) = .error .closed := by
  have htrivial : (Want.upTo limit).trivial? b.capacity = none := if_neg (by omega)
  unfold read take
  rw [htrivial]
  by_cases hempty : b.bytes = []
  · have hserved : (Want.upTo limit).served b.length = none := if_neg (by simp [length, hempty])
    simp only [hserved]
    by_cases hclosed : b.closed
    · exact .inr (.inr ⟨hempty, hclosed, if_pos hclosed⟩)
    · exact .inr (.inl ⟨hempty, Bool.eq_false_iff.mpr hclosed, if_neg hclosed⟩)
  · have hlen : 0 < b.length := List.length_pos_iff.mpr hempty
    have hserved : (Want.upTo limit).served b.length = some (min b.length limit) := if_pos hlen
    simp only [hserved]
    refine .inl ⟨_, _, ?_, ?_, (List.take_append_drop _ _).symm, rfl⟩
    · rw [Ne, List.take_eq_nil_iff]
      rintro (hzero | hnil)
      · omega
      · exact hempty hnil
    · rw [List.length_take]
      omega

end Buffer

namespace Forwarder

/-! ## Entries -/

/-- What a step that made the entry `e` did to the surroundings `s`, which it left as `s'`. -/
structure Changes (s : Surroundings) (e : Entry) (s' : Surroundings) : Prop where
  uplink : s.uplink = { s'.uplink with bytes := e.taken ++ s'.uplink.bytes }
  outgoing : s'.link.outgoing = s.link.outgoing ++ e.sent
  incoming : s.link.incoming = e.received ++ s'.link.incoming
  downlink : s'.downlink = { s.downlink with bytes := s.downlink.bytes ++ e.stored }
  mailbox : s'.mailbox = { s.mailbox with events := s.mailbox.events ++ e.posted }

/-- The entry of a turn is the only one that tells what the turn has changed. -/
theorem Changes.entry_eq {t : Turn} {e : Entry} (h : Changes t.found e t.left) : t.entry = e := by
  obtain ⟨taken, sent, received, stored, posted⟩ := e
  have huplink : t.found.uplink.bytes = taken ++ t.left.uplink.bytes := by rw [h.uplink]
  have hdownlink : t.left.downlink.bytes = t.found.downlink.bytes ++ stored := by rw [h.downlink]
  have hmailbox : t.left.mailbox.events = t.found.mailbox.events ++ posted := by rw [h.mailbox]
  simp [Turn.entry, Buffer.length, huplink, hdownlink, hmailbox, h.outgoing, h.incoming]

/-! ## Sending a request -/

/-- Why writing the request `r` has failed on a link whose writing fails by `writeFault`. -/
inductive WriteError (writeFault : Option (Nat × IoFault)) (r : Request) : RelayError → Prop
  | io {room : Nat} {fault : IoFault} (fails : writeFault = some (room, fault)) :
      WriteError writeFault r (.io fault)
  | tooLarge {data : Bytes} (payload : r.payload? = some data)
      (large : Frame.maxLength < data.length) :
      WriteError writeFault r (.frameTooLarge data.length Frame.maxLength)

/-- A front of the request `r`, but not the whole of it, and nothing if `r` cannot be encoded. -/
structure IsCut (piece : Bytes) (r : Request) : Prop where
  front : piece <+: r.bytes
  ne_bytes : piece ≠ r.bytes
  fits : piece = [] ∨ r.Fits Frame.maxLength

/-- How sending the request `r` goes: what is put on the stream, and the forwarder and the
surroundings afterwards.  If all goes well the forwarder is `next`. -/
inductive Sending (f next : Forwarder) (s : Surroundings) (r : Request) :
    Bytes → Forwarder → Surroundings → Prop
  | whole {link : Link} (fits : r.Fits Frame.maxLength)
      (outgoing : link.outgoing = s.link.outgoing ++ r.bytes)
      (incoming : link.incoming = s.link.incoming) : Sending f next s r r.bytes next { s with link }
  | cut {link : Link} {piece : Bytes} {e : RelayError} (front : IsCut piece r)
      (error : WriteError s.link.writeFault r e)
      (outgoing : link.outgoing = s.link.outgoing ++ piece)
      (incoming : link.incoming = s.link.incoming) :
      Sending f next s r piece (f.finish (.error e)) { s with link }

theorem send_sending (f next : Forwarder) (s : Surroundings) (r : Request) :
    ∃ piece, Sending f next s r piece (f.send s r next).1 (f.send s r next).2 := by
  unfold send
  obtain ⟨hfits, hencode⟩ | ⟨data, hpayload, hlarge, hencode⟩ := r.encode_cases
  · rw [hencode]
    unfold Link.write
    cases hfault : s.link.writeFault with
    | none => exact ⟨r.bytes, .whole hfits rfl rfl⟩
    | some room =>
      obtain ⟨room, fault⟩ := room
      by_cases hroom : r.bytes.length ≤ room
      · simp only [if_pos hroom, List.take_of_length_le hroom]
        exact ⟨r.bytes, .whole hfits rfl rfl⟩
      · have hshort : r.bytes.take room ≠ r.bytes := fun hall => by
          have hlen := congrArg List.length hall
          rw [List.length_take] at hlen
          omega
        simp only [if_neg hroom]
        exact ⟨r.bytes.take room, .cut ⟨List.take_prefix _ _, hshort, .inr hfits⟩ (.io hfault) rfl
          rfl⟩
  · rw [hencode]
    have hnothing : s.link.outgoing = s.link.outgoing ++ [] := (List.append_nil _).symm
    exact ⟨[], .cut ⟨List.nil_prefix, r.bytes_ne_nil.symm, .inl rfl⟩ (.tooLarge hpayload hlarge)
      hnothing rfl⟩

/-! ## Steps -/

/-- What a forwarder `f` that finds the surroundings `s` can do in one step at time `now`: the entry
of the step, and the forwarder and the surroundings afterwards. -/
inductive Does (o : ForwarderOptions) (now : Nat) (f : Forwarder) (s : Surroundings) :
    Entry → Forwarder → Surroundings → Prop
  /-- Bytes of the client go out in an exchange. -/
  | exchange {wake : Nat} {data rest piece : Bytes} {f' : Forwarder} {s' : Surroundings}
      (stage : f.stage = .choosing wake) (quiet : f.quietSince = none) (some_data : data ≠ [])
      (chunk : data.length ≤ o.maxChunk) (front : s.uplink.bytes = data ++ rest)
      (sending : Sending f { f with stage := .awaiting }
        { s with uplink := { s.uplink with bytes := rest } } (.exchange data) piece f' s') :
      Does o now f s { taken := data, sent := piece } f' s'
  /-- The time for a read has come and there is nothing else to send. -/
  | read {wake : Nat} {piece : Bytes} {f' : Forwarder} {s' : Surroundings}
      (stage : f.stage = .choosing wake) (due : wake ≤ now)
      (idle : f.quietSince = none → s.uplink.bytes = [] ∧ s.uplink.closed = false)
      (sending : Sending f { f with stage := .awaiting } s .read piece f' s') :
      Does o now f s { sent := piece } f' s'
  /-- The client is seen to have finished. -/
  | halfClose {wake : Nat} (stage : f.stage = .choosing wake) (quiet : f.quietSince = none)
      (drained : s.uplink.bytes = []) (is_closed : s.uplink.closed) :
      Does o now f s {} ({ f with quietSince := some now }.choose now) s
  | silence {rest : Bytes} (stage : f.stage = .awaiting)
      (front : s.link.incoming = Frame.bytes [] ++ rest)
      (early : ∀ since, f.quietSince = some since → now - since < o.drainTimeout) :
      Does o now f s { received := Frame.bytes [] }
        ({ f with delay := o.pollInterval }.choose now) { s with link.incoming := rest }
  /-- The relay has been silent for long enough. -/
  | close {since : Nat} {rest piece : Bytes} {f' : Forwarder} {s' : Surroundings}
      (stage : f.stage = .awaiting) (front : s.link.incoming = Frame.bytes [] ++ rest)
      (quiet : f.quietSince = some since) (late : o.drainTimeout ≤ now - since)
      (sending :
        Sending f (f.finish (.ok ())) { s with link.incoming := rest } .close piece f' s') :
      Does o now f s { received := Frame.bytes [], sent := piece } f' s'
  | answer {data rest : Bytes} (stage : f.stage = .awaiting)
      (front : s.link.incoming = Frame.bytes data ++ rest) (some_data : data ≠ [])
      (limit : data.length ≤ o.maxFrameLength) (fits : data.length ≤ Frame.maxLength) :
      Does o now f s { received := Frame.bytes data }
        { stage := .storing data, delay := 0, quietSince := f.quietSince.map fun _ => now }
        { s with link.incoming := rest }
  /-- The relay announces a frame that is too large. -/
  | refuse {length : Nat} {rest : Bytes} (stage : f.stage = .awaiting)
      (front : s.link.incoming = Bytes.ofU32 (UInt32.ofNat length) ++ rest)
      (limit : o.maxFrameLength < length) (fits : length ≤ Frame.maxLength) :
      Does o now f s { received := Bytes.ofU32 (UInt32.ofNat length) }
        (f.finish (.error (.frameTooLarge length o.maxFrameLength)))
        { s with link.incoming := rest }
  /-- Reading fails before an answer is there. -/
  | lose {fault : IoFault} (stage : f.stage = .awaiting)
      (cut : Frame.read o.maxFrameLength s.link.incoming = .cut)
      (fails : s.link.readFault = some fault) :
      Does o now f s {} (f.finish (.error (.io fault))) s
  | storeAll (stage : f.stage = .storing []) :
      Does o now f s {} { f with stage := .announcing } s
  | store {piece rest : Bytes} (stage : f.stage = .storing (piece ++ rest))
      (some_piece : piece ≠ []) (fits : s.downlink.fits piece.length)
      (is_open : s.downlink.closed = false) :
      Does o now f s { stored := piece } { f with stage := .storing rest }
        { s with downlink := { s.downlink with bytes := s.downlink.bytes ++ piece } }
  /-- The downlink takes nothing more. -/
  | spill {rest : Bytes} (stage : f.stage = .storing rest) (some_rest : rest ≠ [])
      (is_closed : s.downlink.closed) :
      Does o now f s {} (f.finish (.error .closed)) s
  | announce (stage : f.stage = .announcing) (heard : s.mailbox.isOpen)
      (room : s.mailbox.events.length < s.mailbox.capacity) :
      Does o now f s { posted := [.relayData] } (f.choose now)
        { s with mailbox := { s.mailbox with events := s.mailbox.events ++ [.relayData] } }
  /-- Nobody is there to be told. -/
  | leave (stage : f.stage = .announcing) (deaf : s.mailbox.isOpen = false) :
      Does o now f s {} (f.finish (.ok ())) s
  | report {last : Event} (stage : f.stage = .ending last) (heard : s.mailbox.isOpen)
      (room : s.mailbox.events.length < s.mailbox.capacity) :
      Does o now f s { posted := [last] } { f with stage := .done }
        { s with
          mailbox := { s.mailbox with events := s.mailbox.events ++ [last] }
          link := s.link.hangUp }
  | vanish {last : Event} (stage : f.stage = .ending last) (deaf : s.mailbox.isOpen = false) :
      Does o now f s {} { f with stage := .done } { s with link := s.link.hangUp }

/-- Why a forwarder `f` that finds the surroundings `s` cannot take a step at time `now`. -/
inductive Waits (o : ForwarderOptions) (now : Nat) (f : Forwarder) (s : Surroundings) : Prop
  /-- There is nothing to send and the time of the next read has not come. -/
  | choosing {wake : Nat} (stage : f.stage = .choosing wake) (early : now < wake)
      (idle : f.quietSince = none → s.uplink.bytes = [] ∧ s.uplink.closed = false)
  /-- The relay has not answered completely and may still do so. -/
  | awaiting (stage : f.stage = .awaiting)
      (cut : Frame.read o.maxFrameLength s.link.incoming = .cut) (live : s.link.readFault = none)
  | storing {rest : Bytes} (stage : f.stage = .storing rest) (some_rest : rest ≠ [])
      (full : s.downlink.IsFull) (is_open : s.downlink.closed = false)
  | announcing (stage : f.stage = .announcing) (heard : s.mailbox.isOpen)
      (full : s.mailbox.capacity ≤ s.mailbox.events.length)
  | ending {last : Event} (stage : f.stage = .ending last) (heard : s.mailbox.isOpen)
      (full : s.mailbox.capacity ≤ s.mailbox.events.length)
  | done (stage : f.stage = .done)

/-- What comes of a try to step. -/
inductive Outcome (o : ForwarderOptions) (now : Nat) (f : Forwarder) (s : Surroundings) :
    Option (Forwarder × Surroundings) → Prop
  | waits (why : Waits o now f s) : Outcome o now f s none
  | does {e : Entry} {f' : Forwarder} {s' : Surroundings} (does : Does o now f s e f' s') :
      Outcome o now f s (some (f', s'))

/-- An event is delivered into an open mailbox that has room, and is lost in a closed one. -/
theorem offer_cases (m : Mailbox) (e : Event) :
    m.isOpen ∧ m.events.length < m.capacity ∧
        m.offer e = .delivered { m with events := m.events ++ [e] } ∨
      m.isOpen ∧ m.capacity ≤ m.events.length ∧ m.offer e = .full ∨
      m.isOpen = false ∧ m.offer e = .closed := by
  unfold Mailbox.offer
  by_cases hopen : m.isOpen
  · by_cases hfull : m.capacity ≤ m.events.length
    · simp [hopen, hfull]
    · simp [hopen, hfull, Nat.lt_of_not_le hfull]
  · simp [hopen]

section Step

variable {o : ForwarderOptions} {now : Nat} {f f' : Forwarder} {s s' : Surroundings}

theorem onChoosing_outcome {wake : Nat} (hchunk : 0 < o.maxChunk)
    (hstage : f.stage = .choosing wake) : Outcome o now f s (f.onChoosing o now wake s) := by
  -- a read is the choice both of a draining forwarder and of one that finds nothing to send
  have hread (hidle : f.quietSince = none → s.uplink.bytes = [] ∧ s.uplink.closed = false) :
      Outcome o now f s
        (if wake ≤ now then some (f.send s .read { f with stage := .awaiting }) else none) := by
    by_cases hdue : wake ≤ now
    · rw [if_pos hdue]
      obtain ⟨piece, hsending⟩ := send_sending f { f with stage := .awaiting } s .read
      exact .does (.read hstage hdue hidle hsending)
    · rw [if_neg hdue]
      exact .waits (.choosing hstage (Nat.lt_of_not_le hdue) hidle)
  unfold onChoosing
  obtain hquiet | ⟨since, hquiet⟩ := Option.eq_none_or_eq_some f.quietSince
  · obtain ⟨data, rest, hdata, hlen, hfront, htake⟩ | ⟨hempty, hopen, htake⟩ |
      ⟨hempty, hclosed, htake⟩ := s.uplink.read_upTo_cases hchunk
    · obtain ⟨piece, hsending⟩ := send_sending f { f with stage := .awaiting }
        { s with uplink := { s.uplink with bytes := rest } } (.exchange data)
      have hdoes : Does o now f s _ _ _ :=
        .exchange hstage hquiet hdata hlen hfront hsending
      simpa only [hquiet, htake] using Outcome.does hdoes
    · simpa only [hquiet, htake] using hread fun _ => ⟨hempty, hopen⟩
    · have hdoes : Does o now f s _ _ _ := .halfClose hstage hquiet hempty hclosed
      simpa only [hquiet, htake] using Outcome.does hdoes
  · have hnever : f.quietSince = none → s.uplink.bytes = [] ∧ s.uplink.closed = false :=
      fun hnone => by cases hquiet.symm.trans hnone
    simpa only [hquiet] using hread hnever

theorem onAnswer_does {data rest : Bytes} (hstage : f.stage = .awaiting)
    (hfront : s.link.incoming = Frame.bytes data ++ rest) (hlimit : data.length ≤ o.maxFrameLength)
    (hfits : data.length ≤ Frame.maxLength) :
    ∃ e, Does o now f s e (f.onAnswer o now { s with link.incoming := rest } data).1
      (f.onAnswer o now { s with link.incoming := rest } data).2 := by
  unfold onAnswer
  by_cases hdata : data = []
  · subst hdata
    unfold onSilence
    simp only [List.isEmpty_nil, if_true]
    by_cases hlate : f.quietSince.any fun since => o.drainTimeout ≤ now - since
    · rw [if_pos hlate]
      obtain ⟨since, hquiet, htimeout⟩ := (Option.any_eq_true _ _).mp hlate
      obtain ⟨piece, hsending⟩ := send_sending f (f.finish (.ok ()))
        { s with link.incoming := rest } .close
      exact ⟨_, .close hstage hfront hquiet (of_decide_eq_true htimeout) hsending⟩
    · rw [if_neg hlate]
      refine ⟨_, .silence hstage hfront fun since hquiet => ?_⟩
      simpa [hquiet] using hlate
  · rw [if_neg (by simpa using hdata)]
    exact ⟨_, .answer hstage hfront hdata hlimit hfits⟩

/-- A forwarder does one of the steps listed, or waits for a reason listed. -/
theorem step_outcome (hchunk : 0 < o.maxChunk) : Outcome o now f s (f.step o now s) := by
  unfold step
  cases hstage : f.stage with
  | choosing wake => exact onChoosing_outcome hchunk hstage
  | awaiting =>
    simp only
    cases hread : Frame.read o.maxFrameLength s.link.incoming with
    | whole data rest =>
      obtain ⟨hfront, hlimit, hfits⟩ := Frame.read_eq_whole hread
      obtain ⟨e, hdoes⟩ := onAnswer_does hstage hfront hlimit hfits
      exact .does hdoes
    | cut =>
      obtain hlive | ⟨fault, hfault⟩ := Option.eq_none_or_eq_some s.link.readFault
      · simp only [hlive]
        exact .waits (.awaiting hstage hread hlive)
      · simp only [hfault]
        exact .does (.lose hstage hread hfault)
    | bad fault rest =>
      obtain ⟨length, hlimit, hfits, rfl, hfront⟩ := Frame.read_eq_bad hread
      exact .does (.refuse hstage hfront hlimit hfits)
  | storing rest =>
    simp only
    by_cases hrest : rest = []
    · subst hrest
      exact .does (.storeAll hstage)
    · rw [if_neg (by simpa using hrest)]
      cases hwrite : s.downlink.writeSome rest with
      | error fault => exact .does (.spill hstage hrest (Buffer.closed_of_writeSome hwrite))
      | ok written =>
        obtain ⟨downlink, left⟩ := written
        obtain ⟨piece, rfl, rfl, hfits⟩ := Buffer.writeSome_eq_ok hwrite
        by_cases hpiece : piece = []
        · subst hpiece
          obtain ⟨hfull, hopen⟩ := Buffer.isFull_of_writeSome hwrite hrest
          rw [List.append_nil] at hfull
          simp only [List.nil_append, Nat.lt_irrefl, if_false]
          exact .waits (.storing hstage hrest hfull hopen)
        · have hless : left.length < (piece ++ left).length := by
            rw [List.length_append]
            exact Nat.lt_add_of_pos_left (List.length_pos_iff.mpr hpiece)
          simp only [if_pos hless]
          exact .does (.store hstage hpiece hfits (Buffer.open_of_writeSome hwrite))
  | announcing =>
    obtain ⟨hheard, hroom, hoffer⟩ | ⟨hheard, hfull, hoffer⟩ | ⟨hdeaf, hoffer⟩ :=
      offer_cases s.mailbox .relayData
    · simp only [hoffer]
      exact .does (.announce hstage hheard hroom)
    · simp only [hoffer]
      exact .waits (.announcing hstage hheard hfull)
    · simp only [hoffer]
      exact .does (.leave hstage hdeaf)
  | ending last =>
    obtain ⟨hheard, hroom, hoffer⟩ | ⟨hheard, hfull, hoffer⟩ | ⟨hdeaf, hoffer⟩ :=
      offer_cases s.mailbox last
    · simp only [hoffer]
      exact .does (.report hstage hheard hroom)
    · simp only [hoffer]
      exact .waits (.ending hstage hheard hfull)
    · simp only [hoffer]
      exact .does (.vanish hstage hdeaf)
  | done => exact .waits (.done hstage)

theorem step_does (hchunk : 0 < o.maxChunk) (h : f.step o now s = some (f', s')) :
    ∃ e, Does o now f s e f' s' := by
  have houtcome : Outcome o now f s (f.step o now s) := step_outcome hchunk
  rw [h] at houtcome
  cases houtcome with
  | does hdoes => exact ⟨_, hdoes⟩

theorem step_waits (hchunk : 0 < o.maxChunk) (h : f.step o now s = none) : Waits o now f s := by
  have houtcome : Outcome o now f s (f.step o now s) := step_outcome hchunk
  rw [h] at houtcome
  cases houtcome with
  | waits hwhy => exact hwhy

theorem Sending.changes {next : Forwarder} {r : Request} {piece : Bytes}
    (h : Sending f next s r piece f' s') :
    ∃ link, s' = { s with link } ∧ link.outgoing = s.link.outgoing ++ piece ∧
      link.incoming = s.link.incoming := by
  cases h with
  | whole _ houtgoing hincoming => exact ⟨_, rfl, houtgoing, hincoming⟩
  | cut _ _ houtgoing hincoming => exact ⟨_, rfl, houtgoing, hincoming⟩

/-- Each step changes what its entry tells, and nothing else. -/
theorem Does.changes {e : Entry} (h : Does o now f s e f' s') : Changes s e s' := by
  cases h with
  | exchange _ _ _ _ hfront hsending =>
    obtain ⟨link, rfl, houtgoing, hincoming⟩ := hsending.changes
    constructor <;> simp [← hfront, houtgoing, hincoming]
  | read _ _ _ hsending =>
    obtain ⟨link, rfl, houtgoing, hincoming⟩ := hsending.changes
    constructor <;> simp [houtgoing, hincoming]
  | close _ hfront _ _ hsending =>
    obtain ⟨link, rfl, houtgoing, hincoming⟩ := hsending.changes
    constructor <;> simp [hfront, houtgoing, hincoming]
  | silence _ hfront _ => constructor <;> simp [hfront]
  | answer _ hfront _ _ _ => constructor <;> simp [hfront]
  | refuse _ hfront _ _ => constructor <;> simp [hfront]
  | halfClose => constructor <;> simp
  | lose => constructor <;> simp
  | storeAll => constructor <;> simp
  | store => constructor <;> simp
  | spill => constructor <;> simp
  | announce => constructor <;> simp
  | leave => constructor <;> simp
  | report => constructor <;> simp [Link.hangUp]
  | vanish => constructor <;> simp [Link.hangUp]

/-- At the end only the last event is put into the mailbox, if somebody listens. -/
theorem Does.of_ending {e : Entry} {last : Event} (h : Does o now f s e f' s')
    (hstage : f.stage = .ending last) :
    f'.stage = .done ∧ s'.downlink = s.downlink ∧ s'.mailbox.isOpen = s.mailbox.isOpen ∧
      ∃ posted, e = { posted } ∧ (posted = [last] ∨ posted = [] ∧ s.mailbox.isOpen = false) := by
  cases h with
  | report hsame =>
    cases hsame.symm.trans hstage
    exact ⟨rfl, rfl, rfl, [last], rfl, .inl rfl⟩
  | vanish hsame hdeaf => exact ⟨rfl, rfl, rfl, [], rfl, .inr ⟨rfl, hdeaf⟩⟩
  | _ => simp_all only [reduceCtorEq]

theorem Does.ne_done {e : Entry} (h : Does o now f s e f' s') : f.stage ≠ .done := by
  intro hstage
  cases h <;> simp_all only [reduceCtorEq]

/-- Bytes are only taken or sent by a forwarder that has just read an empty answer or that waits for
no answer. -/
theorem Does.sends {e : Entry} (h : Does o now f s e f' s') (hsome : e.taken ≠ [] ∨ e.sent ≠ []) :
    (∃ wake, f.stage = .choosing wake) ∧ e.received = [] ∨
      f.stage = .awaiting ∧ e.received = Frame.bytes [] := by
  cases h with
  | exchange hstage => exact .inl ⟨⟨_, hstage⟩, rfl⟩
  | read hstage => exact .inl ⟨⟨_, hstage⟩, rfl⟩
  | close hstage => exact .inr ⟨hstage, rfl⟩
  | _ => simp at hsome

/-- Data are only announced by a forwarder that has stored them. -/
theorem Does.announces {e : Entry} (h : Does o now f s e f' s') (hdata : .relayData ∈ e.posted) :
    e.posted = [.relayData] ∧ (f.stage = .announcing ∨ f.stage = .ending .relayData) := by
  cases h with
  | announce hstage => exact ⟨rfl, .inl hstage⟩
  | report hstage =>
    obtain rfl := List.mem_singleton.mp hdata
    exact ⟨rfl, .inr hstage⟩
  | _ => simp at hdata

end Step

/-! ## Runs -/

section Run

variable {o : ForwarderOptions} (x : Forwarder × Surroundings) (moves moves' : List Move)

theorem run_append : run o x (moves ++ moves') = run o (run o x moves) moves' := List.foldl_append

theorem turns_append :
    turns o x (moves ++ moves') = turns o x moves ++ turns o (run o x moves) moves' := by
  induction moves generalizing x with
  | nil => rfl
  | cons m moves ih =>
    have hih := ih (act o x m)
    rw [List.cons_append, turns, hih, turns, List.append_assoc]
    rfl

/-- What holds of no turns, and is kept by one more turn and by all that others do, holds of every
run. -/
theorem run_induction {P : Turns → Forwarder → Surroundings → Prop} (hchunk : 0 < o.maxChunk)
    (h₀ : P [] x.1 x.2)
    (turn : ∀ h t e, P h t.before t.found → Does o t.now t.before t.found e t.after t.left →
      P (h ++ [t]) t.after t.left)
    (others : ∀ h f s m, P h f s → P h f (s.apply m)) :
    P (turns o x moves) (run o x moves).1 (run o x moves).2 := by
  induction moves using List.reverseRecOn with
  | nil => exact h₀
  | append_singleton moves m ih =>
    rw [turns_append, run_append]
    generalize run o x moves = reached at ih ⊢
    obtain ⟨f, s⟩ := reached
    cases m with
    | step now =>
      cases hstep : f.step o now s with
      | none => simpa [turns, turn?, run, act, hstep] using ih
      | some next =>
        obtain ⟨e, hdoes⟩ := step_does hchunk hstep
        have hturn := turn _ ⟨now, f, next.1, s, next.2⟩ e ih hdoes
        simpa [turns, turn?, run, act, hstep] using hturn
    | others m => simpa [turns, turn?, run, act] using others _ f s m ih

end Run

end Forwarder

end TcpGateway
