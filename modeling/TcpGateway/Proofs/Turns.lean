import Mathlib.Data.List.Induction
import Mathlib.Data.List.Nodup
import TcpGateway.Proofs.Sessions

/-!
# What one turn of a run does

Three things can come of a packet at once: it is counted and no more, or it goes into a mailbox, or
a session is started; and it may leave a reply behind (`Gateway.Routes`).  With the turns of the
sessions there are four ways in which a turn can change the registry and the sessions: the sessions
go on, one starts, one ends, or a shutdown clears the registry (`Service.Turn.Change`).
-/

namespace TcpGateway

/-! ## The registry -/

namespace Registry

variable {r r' : Registry} {f : Flow} {id : Nat}

theorem find?_eq_some_iff (h : (r.entries.map (·.1)).Nodup) :
    r.find? f = some id ↔ (f, id) ∈ r.entries := by
  rw [find?, List.lookup_eq_some_iff]
  constructor
  · rintro ⟨before, after, hentries, -⟩
    simp [hentries]
  · intro hmem
    obtain ⟨before, after, hentries⟩ := List.append_of_mem hmem
    refine ⟨before, after, hentries, fun e he => ?_⟩
    rw [hentries, List.map_append, List.map_cons, List.nodup_append] at h
    have hne := h.2.2 e.1 (List.mem_map_of_mem he) f List.mem_cons_self
    simpa using hne.symm

theorem find?_eq_none_iff : r.find? f = none ↔ f ∉ r.entries.map (·.1) := by
  rw [find?, List.lookup_eq_none_iff]
  simp only [bne_iff_ne, List.mem_map, not_exists, not_and]
  exact forall₂_congr fun e _ => ⟨fun h heq => h heq.symm, fun h heq => h heq.symm⟩

theorem insert?_eq_some_iff : r.insert? f = some (id, r') ↔ r.find? f = none ∧ id = r.nextId ∧
    r' = { r with entries := r.entries ++ [(f, r.nextId)], nextId := r.nextId + 1 } := by
  unfold insert? contains
  cases r.find? f with
  | none => simp [eq_comm]
  | some k => simp

theorem length_lt_of_isFull (h : r.isFull = false) : r.length < r.capacity := by
  simpa [isFull] using h

end Registry

/-! ## Sessions by their identifiers -/

namespace Gateway

variable {g : Gateway} {s s' : Session} {id : Nat}

theorem mem_of_session? (h : g.session? id = some s) : s ∈ g.sessions ∧ s.id = id :=
  ⟨List.mem_of_find?_eq_some h, by simpa using List.find?_some h⟩

theorem session?_eq_none_iff : g.session? id = none ↔ id ∉ g.sessions.map (·.id) := by
  simp [session?, List.find?_eq_none]

theorem session?_of_mem (hids : (g.sessions.map (·.id)).Nodup) (hs : s ∈ g.sessions) :
    g.session? s.id = some s := by
  cases hfound : g.session? s.id with
  | none => exact absurd (List.mem_map_of_mem hs) (session?_eq_none_iff.mp hfound)
  | some x =>
    obtain ⟨hx, hid⟩ := mem_of_session? hfound
    rw [List.inj_on_of_nodup_map hids hx hs hid]

/-- A function that keeps the identifiers keeps what is found by them. -/
theorem session?_map {g' : Gateway} (f : Session → Session)
    (hsessions : g'.sessions = g.sessions.map f) (hf : ∀ s ∈ g.sessions, (f s).id = s.id) :
    g'.session? id = (g.session? id).map f := by
  rw [session?, hsessions, session?]
  clear hsessions
  generalize g.sessions = sessions at hf
  induction sessions with
  | nil => rfl
  | cons s sessions ih =>
    have ih := ih fun x hx => hf x (List.mem_cons_of_mem _ hx)
    rw [List.map_cons, List.find?_cons, List.find?_cons, hf s List.mem_cons_self]
    split
    · rfl
    · exact ih

theorem session?_putSession {tunnel : Tunnel} (hids : (g.sessions.map (·.id)).Nodup)
    (hs : s ∈ g.sessions) (hid : s'.id = s.id) :
    ({ g with tunnel }.putSession s').session? s.id = some s' := by
  have hkeeps (x : Session) (_ : x ∈ g.sessions) : (if x.id = s'.id then s' else x).id = x.id := by
    split
    · exact Eq.symm ‹_›
    · rfl
  rw [session?_map (g := g) (fun x => if x.id = s'.id then s' else x) rfl hkeeps,
    session?_of_mem hids hs, Option.map_some, if_pos hid.symm]

theorem filter_putSession {tunnel : Tunnel} (hid : s'.id = s.id) :
    ({ g with tunnel }.putSession s').sessions.filter (·.id != s.id) =
      g.sessions.filter (·.id != s.id) := by
  rw [putSession]
  induction g.sessions with
  | nil => rfl
  | cons x sessions ih =>
    simp only [List.map_cons, List.filter_cons, hid] at ih ⊢
    by_cases hx : x.id = s.id
    · simp [hx, hid, ih]
    · simp [hx, ih]

/-- A session that ends takes its own entry with it. -/
theorem endSession_eq (h : g.session? id = some s) : g.endSession id =
    { g with
      sessions := g.sessions.filter (·.id != id)
      registry := g.registry.erase s.flow id
      counters :=
        { g.counters + s.connection.counters with
          closed := g.counters.closed + s.connection.counters.closed + 1 } } := by
  rw [endSession, h]
  rfl

/-! ## One call -/

/-- What a gateway makes of a packet: the gateway afterwards, and what is left of the call. -/
inductive Routes (g : Gateway) (packet : Bytes) (now : Nat) : Gateway → Call → Prop
  /-- What cannot be read is counted. -/
  | unreadable {e : PacketError} (result : Segment.decode packet = .error e) :
      Routes g packet now { g with counters := countPacket g.counters (.error e) }
        { result := .error (.packet e) }
  /-- A segment of a known flow is for its session alone. -/
  | known {s : Segment} {id : Nat} (result : Segment.decode packet = .ok s)
      (entry : g.registry.find? s.flow = some id) :
      Routes g packet now ({ g with counters := countPacket g.counters (.ok s) }.deliver id s) {}
  /-- A reset is not answered, and neither is a segment that asks for nothing. -/
  | ignored {s : Segment} (result : Segment.decode packet = .ok s)
      (unknown : g.registry.find? s.flow = none)
      (asks_nothing : s.isRst ∨ s.isAck = false ∧ s.isSyn = false) :
      Routes g packet now { g with counters := countPacket g.counters (.ok s) } {}
  /-- What acknowledges something is answered by a reset at the acknowledged number. -/
  | refused {s : Segment} (result : Segment.decode packet = .ok s)
      (unknown : g.registry.find? s.flow = none) (not_rst : s.isRst = false) (is_ack : s.isAck) :
      Routes g packet now
        { g with
          counters :=
            { countPacket g.counters (.ok s) with resetsSent := g.counters.resetsSent + 1 } }
        { reply := some (.reply s.flow s.ack .zero .rst 0 []) }
  /-- A SYN that finds the registry full is answered by a reset that acknowledges it. -/
  | full {s : Segment} (result : Segment.decode packet = .ok s)
      (unknown : g.registry.find? s.flow = none) (not_rst : s.isRst = false)
      (not_ack : s.isAck = false) (is_syn : s.isSyn) (is_full : g.registry.isFull) :
      Routes g packet now
        { g with
          counters :=
            { countPacket g.counters (.ok s) with
              rejected := g.counters.rejected + 1
              resetsSent := g.counters.resetsSent + 1 } }
        { reply := some (.reply s.flow .zero (s.seq.add s.length) (.rst ||| .ack) 0 [])
          result := .error (.full g.registry.capacity) }
  /-- Any other SYN opens a connection. -/
  | opened {s : Segment} (result : Segment.decode packet = .ok s)
      (unknown : g.registry.find? s.flow = none) (not_rst : s.isRst = false)
      (not_ack : s.isAck = false) (is_syn : s.isSyn) (not_full : g.registry.isFull = false) :
      Routes g packet now
        { g with
          registry :=
            { g.registry with
              entries := g.registry.entries ++ [(s.flow, g.registry.nextId)]
              nextId := g.registry.nextId + 1 }
          sessions := g.sessions ++ [{
            id := g.registry.nextId
            connection := .ofSyn s.flow s g.settings.connectionOptions now
            mailbox := { capacity := g.settings.eventCapacity } }]
          counters := { countPacket g.counters (.ok s) with opened := g.counters.opened + 1 } }
        {}

theorem call_routes (g : Gateway) (packet : Bytes) (now : Nat) :
    g.Routes packet now (g.call packet now).1 (g.call packet now).2 := by
  unfold call
  cases hresult : Segment.decode packet with
  | error e => exact .unreadable hresult
  | ok s =>
    simp only [route]
    cases hfind : g.registry.find? s.flow with
    | some id => exact .known hresult hfind
    | none =>
      simp only
      by_cases hrst : s.isRst
      · rw [if_pos hrst]
        exact .ignored hresult hfind (.inl hrst)
      · rw [if_neg hrst]
        have hrst : s.isRst = false := Bool.eq_false_iff.mpr hrst
        by_cases hack : s.isAck
        · rw [if_pos hack]
          simp only [sendReset, Segment.resetReply, hrst, hack, if_true, Bool.false_eq_true,
            if_false]
          exact .refused hresult hfind hrst hack
        · rw [if_neg hack]
          have hack : s.isAck = false := Bool.eq_false_iff.mpr hack
          by_cases hsyn : s.isSyn
          · rw [if_pos hsyn, accept]
            by_cases hfull : g.registry.isFull
            · simp only [hfull, sendReset, Segment.resetReply, hrst, hack, if_true,
                Bool.false_eq_true, if_false]
              exact .full hresult hfind hrst hack hsyn hfull
            · have hfull : g.registry.isFull = false := Bool.eq_false_iff.mpr hfull
              have hinsert := Registry.insert?_eq_some_iff.mpr ⟨hfind, rfl, rfl⟩
              simp only [hfull, hinsert, Bool.false_eq_true, if_false]
              exact .opened hresult hfind hrst hack hsyn hfull
          · rw [if_neg hsyn]
            exact .ignored hresult hfind (.inr ⟨hack, Bool.eq_false_iff.mpr hsyn⟩)

end Gateway

namespace Service

/-! ## One turn -/

/-- The gateway counts `opened` and `closed` sessions. -/
structure Turn.Counts (t : Turn) (opened closed : UInt64) : Prop where
  opened : t.after.gateway.counters.opened = t.before.gateway.counters.opened + opened
  closed : t.after.gateway.counters.closed = t.before.gateway.counters.closed + closed

theorem Turn.Counts.of_same {t : Turn} {g : Gateway} (hafter : t.after.gateway = g)
    (opened : g.counters.opened = t.before.gateway.counters.opened)
    (closed : g.counters.closed = t.before.gateway.counters.closed) : t.Counts 0 0 where
  opened := by rw [hafter, opened, UInt64.add_zero]
  closed := by rw [hafter, closed, UInt64.add_zero]

/-- What a turn does to the registry and the sessions. -/
inductive Turn.Change (t : Turn) : Prop
  /-- The sessions go on, each by itself. -/
  | goesOn (f : Session → Session)
      (sessions : t.after.gateway.sessions = t.before.gateway.sessions.map f)
      (registry : t.after.gateway.registry = t.before.gateway.registry) (counts : t.Counts 0 0)
      (evolves : ∀ s ∈ t.before.gateway.sessions,
        ∃ added, List.Sublist added (t.arrivedFor s.id).toList ∧
          s.Evolves added (t.handed s.id) (f s))
  /-- A SYN of a flow without a connection starts a session. -/
  | starts {s : Segment} {x : Session} (arrived : t.arrived = some s)
      (asks : s.isRst = false ∧ s.isAck = false ∧ s.isSyn) (flow : x.flow = s.flow)
      (not_full : t.before.gateway.registry.isFull = false)
      (inserted :
        t.before.gateway.registry.insert? x.flow = some (x.id, t.after.gateway.registry))
      (sessions : t.after.gateway.sessions = t.before.gateway.sessions ++ [x])
      (counts : t.Counts 1 0) (sound : x.Sound) (not_aborted : x.aborted = false)
      (empty : x.mailbox.segments = []) (silent : ∀ id, t.handed id = none)
  /-- A session ends, and its entry goes with it if it is still there. -/
  | ends {x : Session} (was_there : x ∈ t.before.gateway.sessions)
      (sessions : t.after.gateway.sessions = t.before.gateway.sessions.filter (·.id != x.id))
      (registry : t.after.gateway.registry = t.before.gateway.registry.erase x.flow x.id)
      (counts : t.Counts 0 1) (silent : ∀ id, t.handed id = none)
  /-- All entries go, and the sessions are told to end. -/
  | clears (is_shutdown : t.move = .shutdown)
      (sessions : t.after.gateway.sessions = t.before.gateway.sessions.map fun s =>
        if t.before.gateway.registry.find? s.flow = some s.id then { s with aborted := true }
        else s)
      (registry : t.after.gateway.registry = t.before.gateway.registry.clear)
      (counts : t.Counts 0 0) (silent : ∀ id, t.handed id = none)

namespace Turn

variable {t : Turn}

/-- A turn that keeps the registry and the sessions. -/
theorem Change.of_kept {counters : Counters} {tunnel : Tunnel}
    (hsound : ∀ s ∈ t.before.gateway.sessions, s.Sound)
    (hafter : t.after.gateway = { t.before.gateway with counters, tunnel })
    (opened : counters.opened = t.before.gateway.counters.opened)
    (closed : counters.closed = t.before.gateway.counters.closed)
    (silent : ∀ id, t.handed id = none) : t.Change := by
  refine .goesOn id ?_ ?_ (.of_same hafter opened closed) fun s hs => ?_
  · rw [hafter, List.map_id]
  · rw [hafter]
  · rw [silent]
    exact ⟨[], List.nil_sublist _, .refl (hsound s hs)⟩

/-- A turn that changes nothing. -/
theorem Change.of_same (hsound : ∀ s ∈ t.before.gateway.sessions, s.Sound)
    (hafter : t.after.gateway = t.before.gateway) (silent : ∀ id, t.handed id = none) :
    t.Change :=
  .of_kept hsound hafter rfl rfl silent

/-- A turn of one session. -/
theorem Change.of_put {s s' : Session} {tunnel : Tunnel}
    (hids : (t.before.gateway.sessions.map (·.id)).Nodup)
    (hsound : ∀ s ∈ t.before.gateway.sessions, s.Sound) (hs : s ∈ t.before.gateway.sessions)
    (evolves : s.Evolves [] (t.handed s.id) s')
    (hafter : t.after.gateway = { t.before.gateway with tunnel }.putSession s')
    (silent : ∀ id, id ≠ s.id → t.handed id = none) : t.Change := by
  refine .goesOn _ (congrArg Gateway.sessions hafter) ?_ (.of_same hafter rfl rfl)
    fun x hx => ⟨[], List.nil_sublist _, ?_⟩
  · rw [hafter]
    rfl
  · by_cases hid : x.id = s'.id
    · have hx' : x = s := List.inj_on_of_nodup_map hids hx hs (hid.trans evolves.id)
      rw [if_pos hid, hx']
      exact evolves
    · rw [if_neg hid, silent x.id fun heq => hid (heq.trans evolves.id.symm)]
      exact .refl (hsound x hx)

end Turn

section Moves

variable {w : Service} {id : Nat} {s : Session}

theorem mem_of_running? (h : w.running? id = some s) :
    s ∈ w.gateway.sessions ∧ s.id = id := by
  obtain ⟨hfound, -⟩ := Option.filter_eq_some_iff.mp h
  exact Gateway.mem_of_session? hfound

theorem countPacket_opened (c : Counters) (result : Except PacketError Segment) :
    (Gateway.countPacket c result).opened = c.opened := by
  unfold Gateway.countPacket
  split
  · rfl
  · dsimp only
    split <;> rfl

theorem countPacket_closed (c : Counters) (result : Except PacketError Segment) :
    (Gateway.countPacket c result).closed = c.closed := by
  unfold Gateway.countPacket
  split
  · rfl
  · dsimp only
    split <;> rfl

theorem change_call (hsound : ∀ s ∈ w.gateway.sessions, s.Sound) (packet : Bytes) (now : Nat) :
    Turn.Change ⟨w, .call packet now⟩ := by
  have hroutes := w.gateway.call_routes packet now
  generalize hcall : w.gateway.call packet now = x at hroutes
  obtain ⟨g, c⟩ := x
  have hafter : (Turn.after ⟨w, .call packet now⟩).gateway = g := by
    simp only [Turn.after, act, hcall]
  have hopened := countPacket_opened w.gateway.counters
  have hclosed := countPacket_closed w.gateway.counters
  cases hroutes with
  | unreadable _ => exact .of_kept hsound hafter (hopened _) (hclosed _) fun _ => rfl
  | @known s id result entry =>
    refine .goesOn _ (congrArg Gateway.sessions hafter) ?_
      (.of_same hafter (hopened _) (hclosed _)) fun x hx => ?_
    · rw [hafter]
    · by_cases hid : x.id = id
      · obtain ⟨added, hadded, hevolves⟩ := Session.Evolves.put (hsound x hx) s
        have harrived : Turn.arrivedFor ⟨w, .call packet now⟩ x.id = some s := by
          simp [Turn.arrivedFor, Turn.arrived, result, Except.toOption, entry, hid]
        rw [if_pos hid, harrived]
        exact ⟨added, hadded, hevolves⟩
      · rw [if_neg hid]
        exact ⟨[], List.nil_sublist _, .refl (hsound x hx)⟩
  | ignored _ _ _ => exact .of_kept hsound hafter (hopened _) (hclosed _) fun _ => rfl
  | refused _ _ _ _ => exact .of_kept hsound hafter (hopened _) (hclosed _) fun _ => rfl
  | full _ _ _ _ _ _ => exact .of_kept hsound hafter (hopened _) (hclosed _) fun _ => rfl
  | @opened s result unknown not_rst not_ack is_syn not_full =>
    have harrived : Turn.arrived ⟨w, .call packet now⟩ = some s := by
      simp [Turn.arrived, result, Except.toOption]
    refine .starts harrived ⟨not_rst, not_ack, is_syn⟩ rfl not_full ?_
      (congrArg Gateway.sessions hafter) ⟨?_, ?_⟩ ⟨by rintro f ⟨⟩, rfl, rfl⟩ rfl rfl
      fun _ => rfl
    · rw [hafter]
      exact Registry.insert?_eq_some_iff.mpr ⟨unknown, rfl, rfl⟩
    · rw [hafter]
    · rw [hafter, UInt64.add_zero]
      exact hclosed _

theorem change_complete (hsound : ∀ s ∈ w.gateway.sessions, s.Sound) (place : Nat) :
    Turn.Change ⟨w, .complete place⟩ := by
  obtain ⟨tunnel, hafter⟩ : ∃ tunnel,
      (Turn.after ⟨w, .complete place⟩).gateway = { w.gateway with tunnel } := by
    simp only [Turn.after, act]
    split
    · exact ⟨w.gateway.tunnel, rfl⟩
    · unfold Gateway.complete
      split
      · exact ⟨w.gateway.tunnel, rfl⟩
      · split
        · exact ⟨_, rfl⟩
        · exact ⟨w.gateway.tunnel, rfl⟩
  exact .of_kept hsound hafter rfl rfl fun _ => rfl

/-- The end of the session `s`, which has become `s'` in the gateway `g`. -/
theorem change_end {m : Move} {g : Gateway} {s' : Session} (hs : s ∈ w.gateway.sessions)
    (hevolves : s.Evolves [] none s') (hfound : g.session? s.id = some s')
    (hkept : ∃ tunnel, g = { w.gateway with sessions := g.sessions, tunnel })
    (hothers : g.sessions.filter (·.id != s.id) = w.gateway.sessions.filter (·.id != s.id))
    (hafter : (w.act m).gateway = g.endSession s.id)
    (silent : ∀ id, Turn.handed ⟨w, m⟩ id = none) : Turn.Change ⟨w, m⟩ := by
  rw [Gateway.endSession_eq hfound, hothers, hevolves.flow] at hafter
  obtain ⟨tunnel, hg⟩ := hkept
  rw [hg] at hafter
  refine .ends hs ?_ ?_ ⟨?_, ?_⟩ silent
  · rw [Turn.after, hafter]
  · rw [Turn.after, hafter]
  · rw [Turn.after, hafter]
    show w.gateway.counters.opened + s'.connection.counters.opened = _
    rw [hevolves.sound.opened]
  · rw [Turn.after, hafter]
    show w.gateway.counters.closed + s'.connection.counters.closed + 1 = _
    rw [hevolves.sound.closed, UInt64.add_zero]

theorem change_begin (hids : (w.gateway.sessions.map (·.id)).Nodup)
    (hsound : ∀ s ∈ w.gateway.sessions, s.Sound) (id now : Nat) :
    Turn.Change ⟨w, .begin id now⟩ := by
  cases hrun : w.running? id with
  | none => exact .of_same hsound (by simp [Turn.after, act, withGateway, hrun]) fun _ => rfl
  | some s =>
    obtain ⟨hs, rfl⟩ := mem_of_running? hrun
    by_cases hbegun : s.connecting = .notBegun
    · have hafter : (w.act (.begin s.id now)).gateway =
          { w.gateway with tunnel := w.gateway.tunnel }.putSession
            (s.begin w.gateway.settings now) := by
        simp [act, withGateway, hrun, Gateway.beginSession, hbegun]
      exact .of_put hids hsound hs (.begin (hsound s hs)) hafter fun _ _ => rfl
    · refine .of_same hsound ?_ fun _ => rfl
      simp [Turn.after, act, withGateway, hrun, Gateway.beginSession, hbegun]

theorem change_wake (hids : (w.gateway.sessions.map (·.id)).Nodup)
    (hsound : ∀ s ∈ w.gateway.sessions, s.Sound) (id : Nat) (cause : Session.Cause)
    (now wall : Nat) : Turn.Change ⟨w, .wake id cause now wall⟩ := by
  have hothers (id' : Nat) (hne : id' ≠ id) :
      Turn.handed ⟨w, .wake id cause now wall⟩ id' = none := if_neg hne.symm
  have hhanded : Turn.handed ⟨w, .wake id cause now wall⟩ id =
      ((w.running? id).bind (·.wake w.gateway.settings now cause)).map (·.2) := if_pos rfl
  cases hwake : (w.running? id).bind (·.wake w.gateway.settings now cause) with
  | none =>
    have hsame : (w.running? id).bind (w.gateway.wakeSession now wall · cause) = none := by
      cases hrun : w.running? id with
      | none => rfl
      | some s =>
        rw [hrun, Option.bind_some] at hwake
        simp [Gateway.wakeSession, hwake]
    refine .of_same hsound (by simp [Turn.after, act, withGateway, hsame]) fun id' => ?_
    by_cases hid : id' = id
    · rw [hid, hhanded, hwake]
      rfl
    · exact hothers id' hid
  | some x =>
    obtain ⟨s, hrun, hwake'⟩ := Option.bind_eq_some_iff.mp hwake
    obtain ⟨hs, rfl⟩ := mem_of_running? hrun
    have hevolves := Session.Evolves.wake (hsound s hs) hwake'
    rw [hwake] at hhanded
    have hafter : (w.act (.wake s.id cause now wall)).gateway =
        { w.gateway with tunnel := w.gateway.tunnel }.putSession (x.1.hand x.2 now wall) := by
      simp [act, withGateway, hrun, Gateway.wakeSession, hwake']
    refine .of_put hids hsound hs ?_ hafter hothers
    rw [hhanded]
    exact hevolves.trans (.hand hevolves.sound)

theorem change_carryOn (hids : (w.gateway.sessions.map (·.id)).Nodup)
    (hsound : ∀ s ∈ w.gateway.sessions, s.Sound) (id : Nat) : Turn.Change ⟨w, .carryOn id⟩ := by
  cases hrun : w.running? id with
  | none => exact .of_same hsound (by simp [Turn.after, act, withGateway, hrun]) fun _ => rfl
  | some s =>
    obtain ⟨hs, rfl⟩ := mem_of_running? hrun
    have hevolves := Session.Evolves.carryOn (hsound s hs) w.gateway.tunnel
    have hafter : (w.act (.carryOn s.id)).gateway = w.gateway.carryOn s := by
      simp [act, withGateway, hrun]
    rw [Gateway.carryOn] at hafter
    generalize s.carryOn w.gateway.tunnel = step at hevolves hafter
    by_cases hended : step.ended
    · rw [if_pos hended] at hafter
      refine change_end hs hevolves ?_ ⟨step.tunnel, rfl⟩ ?_ hafter fun _ => rfl
      · exact Gateway.session?_putSession hids hs hevolves.id
      · exact Gateway.filter_putSession hevolves.id
    · rw [if_neg hended] at hafter
      exact .of_put hids hsound hs hevolves hafter fun _ _ => rfl

theorem change_forward (hids : (w.gateway.sessions.map (·.id)).Nodup)
    (hsound : ∀ s ∈ w.gateway.sessions, s.Sound) (id : Nat) (link : Link) (now : Nat) :
    Turn.Change ⟨w, .forward id link now⟩ := by
  cases hfound : w.gateway.session? id with
  | none =>
    exact .of_same hsound (by simp [Turn.after, act, withGateway, hfound]) fun _ => rfl
  | some s =>
    obtain ⟨hs, rfl⟩ := Gateway.mem_of_session? hfound
    cases hforward : w.gateway.forward now s link with
    | none =>
      refine .of_same hsound ?_ fun _ => rfl
      simp [Turn.after, act, withGateway, hfound, hforward]
    | some x =>
      obtain ⟨f, hf, hrest⟩ := Option.bind_eq_some_iff.mp hforward
      obtain ⟨y, hstep, hx⟩ := Option.bind_eq_some_iff.mp hrest
      cases hx
      have hafter : (w.act (.forward s.id link now)).gateway =
          { w.gateway with tunnel := w.gateway.tunnel }.putSession
            { s.withSurroundings y.2 with forwarder := some y.1 } := by
        simp only [act, withGateway, hfound, Option.bind_some, hforward, Option.map_some,
          Option.getD_some]
      exact .of_put hids hsound hs (.forward (hsound s hs) hf hstep) hafter fun _ _ => rfl

theorem change_drop (hsound : ∀ s ∈ w.gateway.sessions, s.Sound) (id : Nat) :
    Turn.Change ⟨w, .drop id⟩ := by
  cases hfound : w.gateway.session? id with
  | none =>
    exact .of_same hsound (by simp [Turn.after, act, Gateway.endSession, hfound]) fun _ => rfl
  | some s =>
    obtain ⟨hs, rfl⟩ := Gateway.mem_of_session? hfound
    exact change_end hs (.refl (hsound s hs)) hfound ⟨w.gateway.tunnel, rfl⟩ rfl rfl fun _ => rfl

theorem Turn.change (t : Turn) (hids : (t.before.gateway.sessions.map (·.id)).Nodup)
    (hsound : ∀ s ∈ t.before.gateway.sessions, s.Sound) : t.Change := by
  obtain ⟨w, m⟩ := t
  cases m with
  | call packet now => exact change_call hsound packet now
  | complete place => exact change_complete hsound place
  | begin id now => exact change_begin hids hsound id now
  | wake id cause now wall => exact change_wake hids hsound id cause now wall
  | carryOn id => exact change_carryOn hids hsound id
  | forward id link now => exact change_forward hids hsound id link now
  | drop id => exact change_drop hsound id
  | shutdown =>
    exact .clears rfl rfl rfl (.of_same rfl rfl rfl) fun _ => rfl
  | closeTunnel => exact .of_kept hsound rfl rfl rfl fun _ => rfl

end Moves

end Service

end TcpGateway
