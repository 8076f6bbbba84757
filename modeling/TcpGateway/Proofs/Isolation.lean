import Mathlib.Data.List.Perm.Basic
import TcpGateway.Proofs.Lifecycle

/-!
# Connections do not meet

A packet concerns the connection of its own flow or none.  A segment of a known flow is put behind
the others in one mailbox, or dropped; what a session hands to its connection later is, in the order
of arrival, a part of what came in for it (`Ordered`).  The gateway itself answers only segments
without a connection, by one reset at most: the reply that a call has decided on waits for the
tunnel, and is neither lost nor sent twice (`Pending`).
-/

namespace TcpGateway

namespace Service

/-! ## In the order of arrival -/

namespace Turn

variable {t : Turn} {id : Nat}

/-- Only a session that is there hands something to its connection. -/
theorem handed_of_none (h : t.before.gateway.session? id = none) : t.handed id = none := by
  unfold handed
  split
  · split
    · rw [running?, h]
      rfl
    · rfl
  · rfl

/-- What is handed on and what still waits are what waited before and what came in. -/
theorem Change.ordered (hids : (t.before.gateway.sessions.map (·.id)).Nodup) (h : t.Change)
    (id : Nat) :
    (((t.handed id).bind Event.segment?).toList ++ t.after.queued id).Sublist
      (t.before.queued id ++ (t.arrivedFor id).toList) := by
  cases h with
  | goesOn f sessions registry counts evolves =>
    have hkeeps (s : Session) (hs : s ∈ t.before.gateway.sessions) : (f s).id = s.id :=
      (evolves s hs).choose_spec.2.id
    rw [queued, queued, Gateway.session?_map f sessions hkeeps]
    cases hfound : t.before.gateway.session? id with
    | none =>
      rw [handed_of_none hfound]
      exact List.nil_sublist _
    | some s =>
      obtain ⟨hs, rfl⟩ := Gateway.mem_of_session? hfound
      obtain ⟨added, hadded, hevolves⟩ := evolves s hs
      show List.Sublist (_ ++ (f s).mailbox.segments) (s.mailbox.segments ++ _)
      rw [← hevolves.segments]
      exact hadded.append_left _
  | @starts s x _ _ _ _ _ sessions _ _ _ empty silent =>
    rw [silent]
    refine List.Sublist.trans ?_ (List.sublist_append_left _ _)
    rw [queued, queued, Gateway.session?, Gateway.session?, sessions, List.find?_append]
    cases hfound : t.before.gateway.sessions.find? (·.id == id) with
    | some s => exact .refl _
    | none =>
      simp only [Option.none_or, List.find?_cons, List.find?_nil]
      split
      · show List.Sublist x.mailbox.segments _
        rw [empty]
        exact List.nil_sublist _
      · exact List.nil_sublist _
  | @ends x was_there sessions registry counts silent =>
    rw [silent]
    refine List.Sublist.trans ?_ (List.sublist_append_left _ _)
    rw [queued, queued]
    cases hfound : t.after.gateway.session? id with
    | none => exact List.nil_sublist _
    | some s =>
      obtain ⟨hs, rfl⟩ := Gateway.mem_of_session? hfound
      rw [sessions] at hs
      rw [Gateway.session?_of_mem hids (List.mem_of_mem_filter hs)]
      exact .refl _
  | clears is_shutdown sessions registry counts silent =>
    rw [silent]
    refine List.Sublist.trans ?_ (List.sublist_append_left _ _)
    rw [queued, queued, Gateway.session?_map _ sessions]
    · cases t.before.gateway.session? id with
      | none => exact .refl _
      | some s =>
        simp only [Option.map_some, Option.getD_some]
        split <;> exact .refl _
    · intro s _
      split <;> rfl

end Turn

/-- What came in for a session, and what it has made of it. -/
structure Ordered (h : History) (w : Service) : Prop where
  /-- What a session has handed on and what waits for it came in for it, in this order. -/
  in_order : ∀ id, (h.handled id ++ w.queued id).Sublist (h.arrivedFor id)
  /-- What came in for a session is of its flow. -/
  own : ∀ x ∈ h.started, ∀ s ∈ h.arrivedFor x.id, s.flow = x.flow
  /-- Nothing comes in for a session before it is started. -/
  fresh : ∀ id, h.arrivedFor id ≠ [] → id < w.gateway.registry.nextId

/-- What comes in is for a session that is there, and of its flow. -/
theorem Roster.of_arrivedFor {settings : Settings} {h : History} {t : Turn}
    (hr : Roster settings h t.before.gateway) {s : Segment} {id : Nat}
    (harrived : t.arrivedFor id = some s) : ∃ x ∈ h.started, x.id = id ∧ x.flow = s.flow := by
  obtain ⟨-, hfind⟩ := Option.filter_eq_some_iff.mp harrived
  have hentry := (Registry.find?_eq_some_iff hr.flows).mp (of_decide_eq_true hfind)
  obtain ⟨y, hy, rfl, hflow, -⟩ := (hr.entry s.flow id).mp hentry
  obtain ⟨x, hx, hid, hflow'⟩ := hr.live y hy
  exact ⟨x, hx, hid, hflow'.trans hflow⟩

theorem Ordered.turn {settings : Settings} {h : History} {t : Turn}
    (hr : Roster settings h t.before.gateway) (ho : Ordered h t.before) :
    Ordered (h ++ [t]) t.after := by
  have hr' := hr.turn
  have harrived (id : Nat) :
      (h ++ [t]).arrivedFor id = h.arrivedFor id ++ (t.arrivedFor id).toList := by
    cases ht : t.arrivedFor id <;> simp [History.arrivedFor, ht]
  have hhandled (id : Nat) : (h ++ [t]).handled id =
      h.handled id ++ ((t.handed id).bind Event.segment?).toList := by
    cases ht : (t.handed id).bind Event.segment? <;> simp [History.handled, ht]
  have hnext : t.before.gateway.registry.nextId ≤ t.after.gateway.registry.nextId := by
    rw [hr.next_id, hr'.next_id]
    simp [History.started]
  exact {
    in_order := by
      intro id
      have hturn := (t.change hr.ids_nodup hr.sound).ordered hr.ids_nodup id
      rw [harrived, hhandled, List.append_assoc]
      refine (hturn.append_left _).trans ?_
      rw [← List.append_assoc]
      exact (ho.in_order id).append_right _
    own := by
      intro x hx s hs
      rw [harrived] at hs
      rw [History.started, List.flatMap_append, List.flatMap_singleton] at hx
      rcases List.mem_append.mp hx with hold | hnew
      · rcases List.mem_append.mp hs with hs | hs
        · exact ho.own x hold s hs
        · obtain ⟨y, hy, hid, hflow⟩ := hr.of_arrivedFor (Option.mem_toList.mp hs)
          rw [← hflow, List.inj_on_of_nodup_map hr.started_nodup hy hold hid]
      · obtain ⟨-, -, hid, -⟩ := hr.orderly.enters x hnew
        rcases List.mem_append.mp hs with hs | hs
        · exact absurd (ho.fresh x.id (List.ne_nil_of_mem hs)) (by omega)
        · obtain ⟨y, hy, hid', -⟩ := hr.of_arrivedFor (Option.mem_toList.mp hs)
          exact absurd (hr.id_lt_of_started hy) (by omega)
    fresh := by
      intro id hne
      rw [harrived] at hne
      by_cases hold : h.arrivedFor id = []
      · rw [hold, List.nil_append] at hne
        cases hs : t.arrivedFor id with
        | none =>
          rw [hs] at hne
          exact absurd rfl hne
        | some s =>
          obtain ⟨x, hx, rfl, -⟩ := hr.of_arrivedFor hs
          exact Nat.lt_of_lt_of_le (hr.id_lt_of_started hx) hnext
      · exact Nat.lt_of_lt_of_le (ho.fresh id hold) hnext }

/-! ## The replies of the gateway itself -/

/-- Every reply that a call has decided on was completed once, or is still waiting. -/
structure Pending (h : History) (w : Service) : Prop where
  replies : h.begun.Perm (h.completed ++ w.waiting)
  has_reply : ∀ c ∈ w.waiting, c.reply.isSome

theorem Turn.replies (t : Turn) :
    (t.before.waiting ++ t.begun).Perm (t.completed ++ t.after.waiting) ∧
      ∀ c ∈ t.after.waiting, c ∈ t.before.waiting ∨ c.reply.isSome := by
  obtain ⟨w, m⟩ := t
  cases m with
  | call packet now =>
    simp only [begun, completed, after, act, List.nil_append, List.filter_cons, List.filter_nil]
    split
    · refine ⟨.refl _, fun c hc => ?_⟩
      rcases List.mem_append.mp hc with hold | hnew
      · exact .inl hold
      · obtain rfl := List.mem_singleton.mp hnew
        exact .inr ‹_›
    · exact ⟨by rw [List.append_nil], fun c hc => .inl hc⟩
  | complete place =>
    simp only [begun, completed, after, act, List.append_nil]
    cases hplace : w.waiting[place]? with
    | none => exact ⟨.refl _, fun c hc => .inl hc⟩
    | some c =>
      obtain ⟨hlt, rfl⟩ := List.getElem?_eq_some_iff.mp hplace
      exact ⟨(List.getElem_cons_eraseIdx_perm hlt).symm,
        fun c hc => .inl (List.mem_of_mem_eraseIdx hc)⟩
  | _ => exact ⟨by rw [begun, List.append_nil]; exact .refl _, fun c hc => .inl hc⟩

theorem Pending.turn {h : History} {t : Turn} (hp : Pending h t.before) :
    Pending (h ++ [t]) t.after := by
  obtain ⟨hperm, hwaiting⟩ := t.replies
  constructor
  · simp only [History.begun, History.completed, List.flatMap_append, List.flatMap_singleton]
    refine (hp.replies.append_right _).trans ?_
    rw [List.append_assoc, List.append_assoc]
    exact hperm.append_left _
  · intro c hc
    exact (hwaiting c hc).elim (hp.has_reply c) id

/-! ## Every run -/

/-- What holds between any two turns of a run with the history `h`. -/
structure Isolated (h : History) (w : Service) : Prop where
  /-- A packet is counted, or goes into one mailbox, or is answered, or opens a connection. -/
  routes : ∀ packet now,
    w.gateway.Routes packet now (w.gateway.call packet now).1 (w.gateway.call packet now).2
  /-- What goes into a mailbox goes into that of the one session of its flow, behind the others, or
  is dropped. -/
  delivers : ∀ s id, w.gateway.registry.find? s.flow = some id →
    ∃ before x after, w.gateway.sessions = before ++ x :: after ∧ x.id = id ∧ x.flow = s.flow ∧
      ∀ counters, { w.gateway with counters }.deliver id s =
        { w.gateway with
          counters
          sessions := before ++ { x with
            mailbox :=
              if x.mailbox.isOpen && x.mailbox.events.length < x.mailbox.capacity then
                { x.mailbox with events := x.mailbox.events ++ [.segment s] }
              else x.mailbox } :: after }
  /-- A call that has a reply waits, behind the others. -/
  waits : ∀ packet now, (w.act (.call packet now)).waiting =
    w.waiting ++ [(w.gateway.call packet now).2].filter (·.reply.isSome)
  /-- A call that goes on sends its reply, and fails if the tunnel is closed. -/
  completes : ∀ place c, w.waiting[place]? = some c → ∃ reply, c.reply = some reply ∧
    (w.act (.complete place)).waiting = w.waiting.eraseIdx place ∧
      if w.gateway.tunnel.isOpen then
        (w.act (.complete place)).gateway =
            { w.gateway with tunnel.sent := w.gateway.tunnel.sent ++ [reply] } ∧
          (w.gateway.complete c).2 = c.result
      else
        (w.act (.complete place)).gateway = w.gateway ∧
          (w.gateway.complete c).2 = .error .tunnelClosed
  /-- Every reply that a call has decided on was completed once, or is still waiting. -/
  replies : h.begun.Perm (h.completed ++ w.waiting)
  /-- What a session has handed on and what waits for it came in for it, in this order. -/
  in_order : ∀ id, (h.handled id ++ w.queued id).Sublist (h.arrivedFor id)
  /-- What came in for a session is of its flow. -/
  own : ∀ x ∈ h.started, ∀ s ∈ h.arrivedFor x.id, s.flow = x.flow

/-- Only one session has the identifier that a segment goes to. -/
theorem deliver_eq {g : Gateway} {s : Segment} {x : Session} {before after : List Session}
    (hsessions : g.sessions = before ++ x :: after) (hids : (g.sessions.map (·.id)).Nodup) :
    (g.deliver x.id s).sessions =
      before ++ { x with mailbox := x.mailbox.put (.segment s) } :: after := by
  rw [hsessions, List.map_append, List.map_cons, List.nodup_append, List.nodup_cons] at hids
  obtain ⟨-, ⟨hafter, -⟩, hbefore⟩ := hids
  have hothers (sessions : List Session) (hne : ∀ y ∈ sessions, y.id ≠ x.id)
      (f : Session → Session) :
      sessions.map (fun y => if y.id = x.id then f y else y) = sessions := by
    conv_rhs => rw [← List.map_id sessions]
    exact List.map_congr_left fun y hy => if_neg (hne y hy)
  rw [Gateway.deliver, hsessions, List.map_append, List.map_cons, if_pos rfl, hothers before,
    hothers after]
  · exact fun y hy heq => hafter (heq ▸ List.mem_map_of_mem hy)
  · exact fun y hy => hbefore y.id (List.mem_map_of_mem hy) x.id List.mem_cons_self

/-- What a run keeps: the registry, the queues and the replies agree with the history. -/
structure Intact (settings : Settings) (h : History) (w : Service) : Prop where
  roster : Roster settings h w.gateway
  ordered : Ordered h w
  pending : Pending h w

namespace Intact

variable {settings : Settings} {h : History} {w : Service}

theorem begin (settings : Settings) : Intact settings [] ⟨.ofSettings settings, []⟩ where
  roster := .begin settings
  ordered := ⟨fun _ => .refl _, by rintro x ⟨⟩, fun _ hne => absurd rfl hne⟩
  pending := ⟨.nil, by rintro c ⟨⟩⟩

theorem turn {t : Turn} (hi : Intact settings h t.before) : Intact settings (h ++ [t]) t.after :=
  ⟨hi.roster.turn, hi.ordered.turn hi.roster, hi.pending.turn⟩

theorem run (hi : Intact settings h w) (moves : List Move) :
    Intact settings (h ++ w.history moves) (w.run moves) :=
  run_induction (fun _ w m hi => hi.turn (t := ⟨w, m⟩)) hi moves

theorem isolated (hi : Intact settings h w) : Isolated h w := by
  obtain ⟨hr, ho, hp⟩ := hi
  exact {
    routes := w.gateway.call_routes
    delivers := by
      intro s id hfind
      have hentry := (Registry.find?_eq_some_iff hr.flows).mp hfind
      obtain ⟨x, hx, rfl, hflow, -⟩ := (hr.entry s.flow id).mp hentry
      obtain ⟨before, after, hsessions⟩ := List.append_of_mem hx
      refine ⟨before, x, after, hsessions, rfl, hflow, fun counters => ?_⟩
      rw [← Mailbox.put_eq, ← deliver_eq hsessions hr.ids_nodup]
      rfl
    waits := by
      intro packet now
      simp only [act, List.filter_cons, List.filter_nil]
      split
      · rfl
      · rw [List.append_nil]
    completes := by
      intro place c hplace
      obtain ⟨reply, hreply⟩ := Option.isSome_iff_exists.mp
        (hp.has_reply c (List.mem_of_getElem? hplace))
      refine ⟨reply, hreply, ?_⟩
      by_cases hopen : w.gateway.tunnel.isOpen <;>
        simp [act, hplace, Gateway.complete, hreply, hopen]
    replies := hp.replies
    in_order := ho.in_order
    own := ho.own }

end Intact

/-- Whatever happened before, a packet concerns only the connection of its own flow, the gateway
answers what it does not know as a closed connection would, and what a connection is handed is, in
the order of arrival, a part of what came in for it. -/
theorem isolated_run (settings : Settings) (moves : List Move) :
    let w₀ : Service := ⟨.ofSettings settings, []⟩
    Isolated (w₀.history moves) (w₀.run moves) :=
  ((Intact.begin settings).run moves).isolated

end Service

end TcpGateway
