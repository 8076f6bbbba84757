import TcpGateway.Proofs.Turns
import TcpGateway.Segment.Encoding

/-!
# The life of sessions

An entry of the registry and the session that it stands for do not go at the same time: a shutdown
forgets the entries while the sessions go on until they are dropped, and in between the same flow
may be opened again.  What tells them apart are the identifiers, which are handed out one after the
other.  So a session that ends finds its own entry or none.
-/

namespace TcpGateway

namespace Service

/-! ## Runs -/

/-- What one more turn keeps is kept by every run. -/
theorem run_induction {P : History → Service → Prop}
    (turn : ∀ h w m, P h w → P (h ++ [⟨w, m⟩]) (w.act m)) {h : History} {w : Service}
    (start : P h w) (moves : List Move) : P (h ++ w.history moves) (w.run moves) := by
  induction moves generalizing h w with
  | nil =>
    rw [history, List.append_nil]
    exact start
  | cons m moves ih =>
    have hrest := ih (turn h w m start)
    rw [List.append_assoc] at hrest
    exact hrest

/-! ## Who has started and ended -/

namespace Turn

variable {t : Turn}

theorem ids_of_map {f : Session → Session}
    (h : t.after.gateway.sessions = t.before.gateway.sessions.map f)
    (hf : ∀ s ∈ t.before.gateway.sessions, (f s).id = s.id) :
    t.after.gateway.sessions.map (·.id) = t.before.gateway.sessions.map (·.id) := by
  rw [h, List.map_map]
  exact List.map_congr_left hf

/-- A turn that keeps the identifiers starts and ends nothing. -/
theorem started_of_ids
    (h : t.after.gateway.sessions.map (·.id) = t.before.gateway.sessions.map (·.id)) :
    t.started = [] ∧ t.ended = [] := by
  simp only [started, ended, List.filter_eq_nil_iff, Option.isNone_iff_eq_none,
    Gateway.session?_eq_none_iff, not_not]
  exact ⟨fun s hs => h ▸ List.mem_map_of_mem hs, fun s hs => h ▸ List.mem_map_of_mem hs⟩

theorem started_of_concat {x : Session}
    (h : t.after.gateway.sessions = t.before.gateway.sessions ++ [x])
    (hfresh : x.id ∉ t.before.gateway.sessions.map (·.id)) : t.started = [x] ∧ t.ended = [] := by
  have hold (s : Session) (hs : s ∈ t.before.gateway.sessions) :
      s.id ∈ t.before.gateway.sessions.map (·.id) := List.mem_map_of_mem hs
  constructor
  · rw [started, h, List.filter_append, List.filter_eq_nil_iff.mpr, List.nil_append,
      List.filter_cons_of_pos, List.filter_nil]
    · simpa [Gateway.session?_eq_none_iff] using hfresh
    · intro s hs
      simpa [Gateway.session?_eq_none_iff] using hold s hs
  · simp only [ended, List.filter_eq_nil_iff, Option.isNone_iff_eq_none,
      Gateway.session?_eq_none_iff, not_not, h, List.map_append]
    exact fun s hs => List.mem_append_left _ (hold s hs)

/-- With distinct identifiers a session is told from the others by its own. -/
theorem filter_id_eq {sessions : List Session} {x : Session}
    (hids : (sessions.map (·.id)).Nodup) (hx : x ∈ sessions) :
    sessions.filter (·.id == x.id) = [x] := by
  obtain ⟨before, after, rfl⟩ := List.append_of_mem hx
  rw [List.map_append, List.map_cons, List.nodup_append, List.nodup_cons] at hids
  obtain ⟨-, ⟨hafter, -⟩, hbefore⟩ := hids
  rw [List.filter_append, List.filter_cons_of_pos (by simp), List.filter_eq_nil_iff.mpr,
    List.filter_eq_nil_iff.mpr, List.nil_append]
  · intro s hs heq
    exact hafter (beq_iff_eq.mp heq ▸ List.mem_map_of_mem hs)
  · intro s hs heq
    exact hbefore s.id (List.mem_map_of_mem hs) x.id List.mem_cons_self (beq_iff_eq.mp heq)

theorem started_of_filter {x : Session} (hids : (t.before.gateway.sessions.map (·.id)).Nodup)
    (hx : x ∈ t.before.gateway.sessions)
    (h : t.after.gateway.sessions = t.before.gateway.sessions.filter (·.id != x.id)) :
    t.started = [] ∧ t.ended = [x] := by
  constructor
  · simp only [started, List.filter_eq_nil_iff, Option.isNone_iff_eq_none,
      Gateway.session?_eq_none_iff, not_not, h]
    exact fun s hs => List.mem_map_of_mem (List.mem_of_mem_filter hs)
  · rw [← filter_id_eq hids hx, ended]
    refine List.filter_congr fun s hs => ?_
    rw [Bool.eq_iff_iff, Option.isNone_iff_eq_none, Gateway.session?_eq_none_iff, h]
    simp only [List.mem_map, List.mem_filter, bne_iff_ne, ne_eq, beq_iff_eq]
    constructor
    · intro hnone
      by_contra hne
      exact hnone ⟨s, ⟨hs, hne⟩, rfl⟩
    · rintro heq ⟨y, ⟨-, hne⟩, hid⟩
      exact hne (hid.trans heq)

end Turn

/-! ## The registry, the sessions and the history -/

/-- What the history `h` and the gateway `g` behind it agree on. -/
structure Roster (settings : Settings) (h : History) (g : Gateway) : Prop where
  capacity_eq : g.registry.capacity = settings.maxConnections
  length_le : g.registry.length ≤ g.registry.capacity
  flows : (g.registry.entries.map (·.1)).Nodup
  started : h.started.map (·.id) = List.range' 1 h.started.length
  next_id : g.registry.nextId = h.started.length + 1
  /-- Every session that was started either goes on or has ended, and once. -/
  accounted : (g.sessions.map (·.id) ++ h.ended.map (·.id)).Perm (h.started.map (·.id))
  live : ∀ s ∈ g.sessions, ∃ x ∈ h.started, x.id = s.id ∧ x.flow = s.flow
  sound : ∀ s ∈ g.sessions, s.Sound
  /-- The registry lists the sessions that were not told to end. -/
  entry : ∀ f id, (f, id) ∈ g.registry.entries ↔
    ∃ s ∈ g.sessions, s.id = id ∧ s.flow = f ∧ s.aborted = false
  opened : g.counters.opened = .ofNat h.started.length
  closed : g.counters.closed = .ofNat h.ended.length

namespace Roster

variable {settings : Settings} {h : History} {g : Gateway} {t : Turn}

theorem begin (settings : Settings) : Roster settings [] (.ofSettings settings) where
  capacity_eq := rfl
  length_le := Nat.zero_le _
  flows := .nil
  started := rfl
  next_id := rfl
  accounted := .nil
  live := by rintro s ⟨⟩
  sound := by rintro s ⟨⟩
  entry := fun f id => ⟨by rintro ⟨⟩, by rintro ⟨s, ⟨⟩, -⟩⟩
  opened := rfl
  closed := rfl

theorem started_nodup (hr : Roster settings h g) : (h.started.map (·.id)).Nodup := by
  rw [hr.started]
  exact List.nodup_range'

theorem ids_nodup (hr : Roster settings h g) : (g.sessions.map (·.id)).Nodup :=
  (List.nodup_append.mp (hr.accounted.nodup_iff.mpr hr.started_nodup)).1

theorem id_lt_of_started (hr : Roster settings h g) {x : Session} (hx : x ∈ h.started) :
    x.id < g.registry.nextId := by
  have hmem : x.id ∈ h.started.map (·.id) := List.mem_map_of_mem hx
  rw [hr.started, List.mem_range'_1] at hmem
  rw [hr.next_id]
  omega

theorem id_lt (hr : Roster settings h g) {s : Session} (hs : s ∈ g.sessions) :
    s.id < g.registry.nextId := by
  obtain ⟨x, hx, hid, -⟩ := hr.live s hs
  exact hid ▸ hr.id_lt_of_started hx

theorem nextId_not_mem (hr : Roster settings h g) : g.registry.nextId ∉ g.sessions.map (·.id) := by
  intro hmem
  obtain ⟨s, hs, hid⟩ := List.mem_map.mp hmem
  exact absurd (hr.id_lt hs) (by omega)

/-! ### One more turn -/

/-- A turn after which the same sessions are there, and no new entries. -/
theorem carried (hr : Roster settings h t.before.gateway) (counts : t.Counts 0 0)
    (f : Session → Session)
    (sessions : t.after.gateway.sessions = t.before.gateway.sessions.map f)
    (hsame : ∀ s ∈ t.before.gateway.sessions, (f s).id = s.id ∧ (f s).flow = s.flow ∧ (f s).Sound)
    (capacity : t.after.gateway.registry.capacity = t.before.gateway.registry.capacity)
    (nextId : t.after.gateway.registry.nextId = t.before.gateway.registry.nextId)
    (entries : t.after.gateway.registry.entries.Sublist t.before.gateway.registry.entries)
    (entry : ∀ f id, (f, id) ∈ t.after.gateway.registry.entries ↔
      ∃ s ∈ t.after.gateway.sessions, s.id = id ∧ s.flow = f ∧ s.aborted = false) :
    Roster settings (h ++ [t]) t.after.gateway := by
  have hids := Turn.ids_of_map sessions fun s hs => (hsame s hs).1
  obtain ⟨hnone, hnone'⟩ := Turn.started_of_ids hids
  have hstarted : (h ++ [t]).started = h.started := by simp [History.started, hnone]
  have hended : (h ++ [t]).ended = h.ended := by simp [History.ended, hnone']
  have hof (s : Session) (hs : s ∈ t.after.gateway.sessions) :
      ∃ s₀ ∈ t.before.gateway.sessions, s.id = s₀.id ∧ s.flow = s₀.flow ∧ s.Sound := by
    rw [sessions] at hs
    obtain ⟨s₀, hs₀, rfl⟩ := List.mem_map.mp hs
    exact ⟨s₀, hs₀, hsame s₀ hs₀⟩
  exact {
    capacity_eq := capacity.trans hr.capacity_eq
    length_le := by
      rw [capacity]
      exact Nat.le_trans entries.length_le hr.length_le
    flows := (entries.map _).nodup hr.flows
    started := by rw [hstarted, hr.started]
    next_id := by rw [nextId, hstarted, hr.next_id]
    accounted := by
      rw [hids, hstarted, hended]
      exact hr.accounted
    live := by
      intro s hs
      obtain ⟨s₀, hs₀, hid, hflow, -⟩ := hof s hs
      rw [hstarted, hid, hflow]
      exact hr.live s₀ hs₀
    sound := fun s hs => (hof s hs).choose_spec.2.2.2
    entry
    opened := by rw [counts.opened, hr.opened, hstarted, UInt64.add_zero]
    closed := by rw [counts.closed, hr.closed, hended, UInt64.add_zero] }

/-- A turn in which a session starts. -/
theorem joined {x : Session} (hr : Roster settings h t.before.gateway)
    (not_full : t.before.gateway.registry.isFull = false)
    (inserted : t.before.gateway.registry.insert? x.flow = some (x.id, t.after.gateway.registry))
    (sessions : t.after.gateway.sessions = t.before.gateway.sessions ++ [x])
    (counts : t.Counts 1 0) (sound : x.Sound) (not_aborted : x.aborted = false) :
    Roster settings (h ++ [t]) t.after.gateway := by
  obtain ⟨hnone, hid, hregistry⟩ := Registry.insert?_eq_some_iff.mp inserted
  have hfresh : x.id ∉ t.before.gateway.sessions.map (·.id) := hid ▸ hr.nextId_not_mem
  obtain ⟨hnew, hnone'⟩ := Turn.started_of_concat sessions hfresh
  have hstarted : (h ++ [t]).started = h.started ++ [x] := by simp [History.started, hnew]
  have hended : (h ++ [t]).ended = h.ended := by simp [History.ended, hnone']
  exact {
    capacity_eq := by
      rw [hregistry]
      exact hr.capacity_eq
    length_le := by
      have hlt := Registry.length_lt_of_isFull not_full
      rw [hregistry]
      show (t.before.gateway.registry.entries ++ [_]).length ≤ _
      rw [List.length_append]
      exact hlt
    flows := by
      rw [hregistry, List.map_append, List.nodup_append]
      refine ⟨hr.flows, List.nodup_singleton _, fun f hf f' hf' heq => ?_⟩
      obtain rfl := List.mem_singleton.mp hf'
      have heq : f = x.flow := heq
      exact Registry.find?_eq_none_iff.mp hnone (heq ▸ hf)
    started := by
      rw [hstarted, List.map_append, hr.started, List.length_append]
      exact (List.range'_concat.trans (by simp [hid, hr.next_id, Nat.add_comm])).symm
    next_id := by
      rw [hregistry, hstarted, List.length_append, hr.next_id]
      rfl
    accounted := by
      rw [sessions, hstarted, hended, List.map_append, List.map_append, List.append_assoc]
      refine (List.perm_append_comm.append_left _).trans ?_
      rw [← List.append_assoc]
      exact hr.accounted.append_right _
    live := by
      intro s hs
      rw [sessions] at hs
      rw [hstarted]
      rcases List.mem_append.mp hs with hold | hlast
      · obtain ⟨y, hy, hyid⟩ := hr.live s hold
        exact ⟨y, List.mem_append_left _ hy, hyid⟩
      · obtain rfl := List.mem_singleton.mp hlast
        exact ⟨s, List.mem_append_right _ List.mem_cons_self, rfl, rfl⟩
    sound := by
      intro s hs
      rw [sessions] at hs
      rcases List.mem_append.mp hs with hold | hlast
      · exact hr.sound s hold
      · exact List.mem_singleton.mp hlast ▸ sound
    entry := by
      intro f id
      have hlast : (f, id) = (x.flow, t.before.gateway.registry.nextId) ↔
          x.id = id ∧ x.flow = f ∧ x.aborted = false := by
        rw [← hid, Prod.mk.injEq, and_comm, eq_comm, @eq_comm _ f]
        simp [not_aborted]
      rw [hregistry, sessions, List.mem_append, List.mem_singleton, hr.entry, hlast]
      simp [or_and_right, exists_or]
    opened := by
      rw [counts.opened, hr.opened, hstarted, List.length_append, UInt64.ofNat_add]
      rfl
    closed := by rw [counts.closed, hr.closed, hended, UInt64.add_zero] }

/-- A turn in which a session ends. -/
theorem parted {x : Session} (hr : Roster settings h t.before.gateway)
    (was_there : x ∈ t.before.gateway.sessions)
    (sessions : t.after.gateway.sessions = t.before.gateway.sessions.filter (·.id != x.id))
    (registry : t.after.gateway.registry = t.before.gateway.registry.erase x.flow x.id)
    (counts : t.Counts 0 1) : Roster settings (h ++ [t]) t.after.gateway := by
  have hids := hr.ids_nodup
  obtain ⟨hnone, hgone⟩ := Turn.started_of_filter hids was_there sessions
  have hstarted : (h ++ [t]).started = h.started := by simp [History.started, hnone]
  have hended : (h ++ [t]).ended = h.ended ++ [x] := by simp [History.ended, hgone]
  have hmem {s : Session} (hs : s ∈ t.after.gateway.sessions) :
      s ∈ t.before.gateway.sessions := by
    rw [sessions] at hs
    exact List.mem_of_mem_filter hs
  exact {
    capacity_eq := by
      rw [registry]
      exact hr.capacity_eq
    length_le := by
      rw [registry]
      exact Nat.le_trans (List.length_filter_le _ _) hr.length_le
    flows := by
      rw [registry]
      exact (List.filter_sublist.map _).nodup hr.flows
    started := by rw [hstarted, hr.started]
    next_id := by
      rw [registry, hstarted]
      exact hr.next_id
    accounted := by
      have hsplit := List.filter_append_perm (·.id == x.id) t.before.gateway.sessions
      rw [Turn.filter_id_eq hids was_there] at hsplit
      rw [hstarted, hended, sessions, List.map_append, ← List.append_assoc]
      refine (List.perm_append_comm.trans ?_).trans hr.accounted
      rw [← List.append_assoc]
      exact (hsplit.map _).append_right _
    live := by
      intro s hs
      rw [hstarted]
      exact hr.live s (hmem hs)
    sound := fun s hs => hr.sound s (hmem hs)
    entry := by
      intro f id
      rw [registry, sessions]
      constructor
      · intro hentry
        obtain ⟨hold, hother⟩ := List.mem_filter.mp hentry
        obtain ⟨s, hs, rfl, rfl, haborted⟩ := (hr.entry f id).mp hold
        refine ⟨s, List.mem_filter.mpr ⟨hs, bne_iff_ne.mpr fun hid => ?_⟩, rfl, rfl, haborted⟩
        rw [List.inj_on_of_nodup_map hids hs was_there hid] at hother
        simp at hother
      · rintro ⟨s, hs, rfl, rfl, haborted⟩
        obtain ⟨hs, hother⟩ := List.mem_filter.mp hs
        refine List.mem_filter.mpr ⟨(hr.entry _ _).mpr ⟨s, hs, rfl, rfl, haborted⟩, ?_⟩
        have hne : s.id ≠ x.id := bne_iff_ne.mp hother
        simp [hne]
    opened := by rw [counts.opened, hr.opened, hstarted, UInt64.add_zero]
    closed := by
      rw [counts.closed, hr.closed, hended, List.length_append, UInt64.ofNat_add]
      rfl }

theorem turn (hr : Roster settings h t.before.gateway) :
    Roster settings (h ++ [t]) t.after.gateway := by
  cases t.change hr.ids_nodup hr.sound with
  | goesOn f sessions registry counts evolves =>
    refine hr.carried counts f sessions (fun s hs => ?_) (by rw [registry]) (by rw [registry])
      (by rw [registry]) fun flow id => ?_
    · obtain ⟨added, -, hevolves⟩ := evolves s hs
      exact ⟨hevolves.id, hevolves.flow, hevolves.sound⟩
    · rw [registry, hr.entry, sessions]
      simp only [List.mem_map, exists_exists_and_eq_and]
      refine exists_congr fun s => and_congr_right fun hs => ?_
      obtain ⟨added, -, hevolves⟩ := evolves s hs
      rw [hevolves.id, hevolves.flow, hevolves.aborted]
  | starts _ _ _ not_full inserted sessions counts sound not_aborted _ _ =>
    exact hr.joined not_full inserted sessions counts sound not_aborted
  | ends was_there sessions registry counts _ => exact hr.parted was_there sessions registry counts
  | clears is_shutdown sessions registry counts silent =>
    refine hr.carried counts _ sessions (fun s hs => ?_) (by rw [registry]; rfl)
      (by rw [registry]; rfl) ?_ fun flow id => ?_
    · split
      · exact ⟨rfl, rfl, (hr.sound s hs).forwarder, (hr.sound s hs).opened, (hr.sound s hs).closed⟩
      · exact ⟨rfl, rfl, hr.sound s hs⟩
    · rw [registry]
      exact List.nil_sublist _
    · rw [registry, sessions]
      refine iff_of_false (by rintro ⟨⟩) ?_
      simp only [List.mem_map, exists_exists_and_eq_and]
      rintro ⟨s, hs, -, -, haborted⟩
      split at haborted
      · cases haborted
      · rename_i hnone
        have hentry := (hr.entry s.flow s.id).mpr ⟨s, hs, rfl, rfl, haborted⟩
        exact hnone ((Registry.find?_eq_some_iff hr.flows).mpr hentry)

theorem run {w : Service} (hr : Roster settings h w.gateway) (moves : List Move) :
    Roster settings (h ++ w.history moves) (w.run moves).gateway :=
  run_induction (P := fun h w => Roster settings h w.gateway)
    (fun _ w m hr => hr.turn (t := ⟨w, m⟩)) hr moves

end Roster

/-! ## What a turn does to the registry -/

/-- Sessions start, and entries come and go, only like this. -/
structure Turn.Orderly (t : Turn) : Prop where
  /-- A session is started exactly for a SYN whose flow has no entry, while there is room. -/
  starts : t.started ≠ [] ↔ ∃ s, t.arrived = some s ∧
    (s.isRst = false ∧ s.isAck = false ∧ s.isSyn) ∧ t.before.gateway.registry.isFull = false ∧
      s.flow ∉ t.before.gateway.registry.entries.map (·.1)
  enters : ∀ x ∈ t.started, t.started = [x] ∧ t.ended = [] ∧
    x.id = t.before.gateway.registry.nextId ∧
      t.after.gateway.registry.entries = t.before.gateway.registry.entries ++ [(x.flow, x.id)]
  /-- A session that ends takes its own entry with it if that is still there, and no other. -/
  leaves : ∀ x ∈ t.ended, t.ended = [x] ∧ t.started = [] ∧
    t.after.gateway.registry.entries =
      t.before.gateway.registry.entries.filter (· ≠ (x.flow, x.id))
  keeps : t.started = [] → t.ended = [] → t.move ≠ .shutdown →
    t.after.gateway.registry.entries = t.before.gateway.registry.entries
  clears : t.move = .shutdown → t.started = [] ∧ t.ended = [] ∧
    t.after.gateway.registry.entries = []

theorem Turn.clears_of_shutdown {t : Turn} (h : t.move = .shutdown) :
    t.started = [] ∧ t.ended = [] ∧ t.after.gateway.registry.entries = [] := by
  obtain ⟨w, m⟩ := t
  cases h
  have hids := Turn.ids_of_map (t := ⟨w, .shutdown⟩) rfl fun s _ => by split <;> rfl
  obtain ⟨hnone, hnone'⟩ := Turn.started_of_ids hids
  exact ⟨hnone, hnone', rfl⟩

namespace Roster

variable {settings : Settings} {h : History} {t : Turn}

/-- A SYN of a flow without an entry starts a session while there is room. -/
theorem started_of_asks (hr : Roster settings h t.before.gateway) {s : Segment}
    (harrived : t.arrived = some s) (hrst : s.isRst = false) (hack : s.isAck = false)
    (hsyn : s.isSyn) (hroom : t.before.gateway.registry.isFull = false)
    (hvacant : t.before.gateway.registry.find? s.flow = none) : t.started ≠ [] := by
  obtain ⟨w, m⟩ := t
  cases m with
  | call packet now =>
    obtain ⟨s', hdecoded, rfl⟩ : ∃ s', Segment.decode packet = .ok s' ∧ s' = s := by
      unfold Turn.arrived at harrived
      cases hd : Segment.decode packet with
      | error e => simp [hd, Except.toOption] at harrived
      | ok s' => exact ⟨s', rfl, by simpa [hd, Except.toOption] using harrived⟩
    have hroutes := w.gateway.call_routes packet now
    generalize hcall : w.gateway.call packet now = x at hroutes
    obtain ⟨g, c⟩ := x
    have hafter : (Turn.after ⟨w, .call packet now⟩).gateway = g := by
      simp only [Turn.after, act, hcall]
    cases hroutes with
    | unreadable result => cases result.symm.trans hdecoded
    | known result entry =>
      cases result.symm.trans hdecoded
      cases entry.symm.trans hvacant
    | ignored result _ asks_nothing =>
      cases result.symm.trans hdecoded
      simp [hrst, hack, hsyn] at asks_nothing
    | refused result _ _ is_ack =>
      cases result.symm.trans hdecoded
      cases is_ack.symm.trans hack
    | full result _ _ _ _ is_full =>
      cases is_full.symm.trans hroom
    | opened result _ _ _ _ _ =>
      have hsessions := congrArg Gateway.sessions hafter
      rw [(Turn.started_of_concat hsessions hr.nextId_not_mem).1]
      exact List.cons_ne_nil _ _
  | _ => cases harrived

theorem orderly (hr : Roster settings h t.before.gateway) : t.Orderly := by
  have hids := hr.ids_nodup
  have hstarts (hnone : t.started = []) : t.started ≠ [] ↔ ∃ s, t.arrived = some s ∧
      (s.isRst = false ∧ s.isAck = false ∧ s.isSyn) ∧ t.before.gateway.registry.isFull = false ∧
        s.flow ∉ t.before.gateway.registry.entries.map (·.1) := by
    refine iff_of_false (fun hsome => hsome hnone) ?_
    rintro ⟨s, harrived, ⟨hrst, hack, hsyn⟩, hroom, hvacant⟩
    exact hr.started_of_asks harrived hrst hack hsyn hroom
      (Registry.find?_eq_none_iff.mpr hvacant) hnone
  cases t.change hids hr.sound with
  | goesOn f sessions registry counts evolves =>
    have hsame := Turn.ids_of_map sessions fun s hs => (evolves s hs).choose_spec.2.id
    obtain ⟨hnone, hnone'⟩ := Turn.started_of_ids hsame
    exact {
      starts := hstarts hnone
      enters := fun x hx => by simp [hnone] at hx
      leaves := fun x hx => by simp [hnone'] at hx
      keeps := fun _ _ _ => by rw [registry]
      clears := Turn.clears_of_shutdown }
  | @starts s x arrived asks flow not_full inserted sessions counts _ _ _ _ =>
    obtain ⟨hnone, hid, hregistry⟩ := Registry.insert?_eq_some_iff.mp inserted
    obtain ⟨hnew, hnone'⟩ := Turn.started_of_concat sessions (hid ▸ hr.nextId_not_mem)
    exact {
      starts := by
        refine iff_of_true (by simp [hnew]) ⟨s, arrived, asks, not_full, ?_⟩
        rw [← flow]
        exact Registry.find?_eq_none_iff.mp hnone
      enters := by
        intro y hy
        rw [hnew] at hy
        obtain rfl := List.mem_singleton.mp hy
        exact ⟨hnew, hnone', hid, by rw [hregistry, hid]⟩
      leaves := fun x hx => by simp [hnone'] at hx
      keeps := fun hnil => by simp [hnew] at hnil
      clears := Turn.clears_of_shutdown }
  | @ends x was_there sessions registry counts _ =>
    obtain ⟨hnone, hgone⟩ := Turn.started_of_filter hids was_there sessions
    exact {
      starts := hstarts hnone
      enters := fun x hx => by simp [hnone] at hx
      leaves := by
        intro y hy
        rw [hgone] at hy
        obtain rfl := List.mem_singleton.mp hy
        exact ⟨hgone, hnone, by rw [registry]; rfl⟩
      keeps := fun _ hnil => by simp [hgone] at hnil
      clears := Turn.clears_of_shutdown }
  | clears is_shutdown sessions registry counts _ =>
    have hclears := Turn.clears_of_shutdown is_shutdown
    exact {
      starts := hstarts hclears.1
      enters := fun x hx => by simp [hclears.1] at hx
      leaves := fun x hx => by simp [hclears.2.1] at hx
      keeps := fun _ _ hmove => absurd is_shutdown hmove
      clears := Turn.clears_of_shutdown }

end Roster

/-! ## Every run -/

theorem totals_opened {g : Gateway} (hsound : ∀ s ∈ g.sessions, s.Sound) :
    g.totals.opened = g.counters.opened ∧ g.totals.closed = g.counters.closed := by
  unfold Gateway.totals
  generalize g.counters = counters
  generalize g.sessions = sessions at hsound
  induction sessions generalizing counters with
  | nil => exact ⟨rfl, rfl⟩
  | cons s sessions ih =>
    have hs := hsound s List.mem_cons_self
    obtain ⟨hopened, hclosed⟩ :=
      ih (counters + s.connection.counters) fun x hx => hsound x (List.mem_cons_of_mem _ hx)
    rw [List.foldl_cons, hopened, hclosed]
    constructor
    · show counters.opened + s.connection.counters.opened = _
      rw [hs.opened, UInt64.add_zero]
    · show counters.closed + s.connection.counters.closed = _
      rw [hs.closed, UInt64.add_zero]

/-- What holds between any two turns of a run with the history `h`. -/
structure Lifecycle (settings : Settings) (h : History) (g : Gateway) : Prop where
  length_le : g.registry.length ≤ settings.maxConnections
  /-- No flow has two entries. -/
  flows_nodup : (g.registry.entries.map (·.1)).Nodup
  /-- A flow can be entered exactly if it has no entry. -/
  vacant : ∀ f, (g.registry.insert? f).isSome ↔ f ∉ g.registry.entries.map (·.1)
  /-- The identifiers are handed out one after the other, and none twice. -/
  identifiers : h.started.map (·.id) = List.range' 1 h.started.length
  /-- Every session that was started either goes on or has ended, and once. -/
  accounted : (g.sessions.map (·.id) ++ h.ended.map (·.id)).Perm (h.started.map (·.id))
  /-- The registry lists the sessions that go on and were not told to end. -/
  listed : ∀ f id, (f, id) ∈ g.registry.entries ↔
    ∃ s ∈ g.sessions, s.id = id ∧ s.flow = f ∧ s.aborted = false
  opened : g.totals.opened = .ofNat h.started.length
  balance : g.totals.opened = g.totals.closed + .ofNat g.sessions.length

theorem Roster.lifecycle {settings : Settings} {h : History} {g : Gateway}
    (hr : Roster settings h g) : Lifecycle settings h g := by
  obtain ⟨hopened, hclosed⟩ := totals_opened hr.sound
  exact {
    length_le := hr.capacity_eq ▸ hr.length_le
    flows_nodup := hr.flows
    vacant := by
      intro f
      rw [← Registry.find?_eq_none_iff, Option.isSome_iff_exists]
      constructor
      · rintro ⟨x, hx⟩
        exact (Registry.insert?_eq_some_iff.mp hx).1
      · exact fun hnone => ⟨_, Registry.insert?_eq_some_iff.mpr ⟨hnone, rfl, rfl⟩⟩
    identifiers := hr.started
    accounted := hr.accounted
    listed := hr.entry
    opened := hopened.trans hr.opened
    balance := by
      have hlength := hr.accounted.length_eq
      rw [List.length_append, List.length_map, List.length_map, List.length_map] at hlength
      rw [hopened, hclosed, hr.opened, hr.closed, ← hlength, UInt64.ofNat_add, UInt64.add_comm] }

/-- When a flow is opened again after a shutdown, the session that was told to end leaves the new
entry alone. -/
example :
    let syn : Segment :=
      { flow := default, seq := ⟨5⟩, ack := ⟨0⟩, flags := .syn, window := 1000, payload := [] }
    let packet := syn.encode 0
    let w := run ⟨.ofSettings {}, []⟩ [.call packet 0, .shutdown, .call packet 1, .drop 1]
    w.gateway.registry.entries = [(default, 2)] ∧ w.gateway.sessions.map (·.id) = [2] := by
  decide +kernel

end Service

end TcpGateway
