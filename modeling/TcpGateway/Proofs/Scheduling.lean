import TcpGateway.Proofs.Isolation
import TcpGateway.Simulation.Deployment

/-!
# A simulated deployment as a run

A deployment decides which of its parts goes on next, and handles a packet at once up to its end;
a run leaves both open.  So all that a deployment does to its gateway is a run of that gateway,
after which no call waits (`Gateway.RunsTo`), and what holds in every run holds in a simulation.
-/

namespace TcpGateway

namespace Gateway

/-- Some run makes `g'` of the gateway `g` and leaves no call waiting. -/
def RunsTo (g g' : Gateway) : Prop := ∃ moves, Service.run ⟨g, []⟩ moves = ⟨g', []⟩

namespace RunsTo

variable {g g' g'' : Gateway}

theorem refl (g : Gateway) : g.RunsTo g := ⟨[], rfl⟩

theorem trans (h : g.RunsTo g') (h' : g'.RunsTo g'') : g.RunsTo g'' := by
  obtain ⟨moves, hrun⟩ := h
  obtain ⟨moves', hrun'⟩ := h'
  refine ⟨moves ++ moves', ?_⟩
  rw [Service.run, List.foldl_append, ← Service.run, ← Service.run, hrun, hrun']

theorem intact {settings : Settings} (h : g.RunsTo g')
    (hi : ∃ history, Service.Intact settings history ⟨g, []⟩) :
    ∃ history, Service.Intact settings history ⟨g', []⟩ := by
  obtain ⟨moves, hrun⟩ := h
  obtain ⟨history, hi⟩ := hi
  have hi' := hi.run moves
  rw [hrun] at hi'
  exact ⟨_, hi'⟩

theorem of_act {m : Service.Move} (h : Service.act ⟨g, []⟩ m = ⟨g', []⟩) : g.RunsTo g' := ⟨[m], h⟩

end RunsTo

/-! ## Packets -/

variable (g : Gateway) (now : Nat)

theorem runsTo_receive (packet : Bytes) : g.RunsTo (g.receive packet now).1 := by
  show g.RunsTo ((g.call packet now).1.complete (g.call packet now).2).1
  cases hreply : (g.call packet now).2.reply with
  | none =>
    refine .of_act (m := .call packet now) ?_
    simp [Service.act, complete, hreply]
  | some reply =>
    refine ⟨[.call packet now, .complete 0], ?_⟩
    simp [Service.run, Service.act, hreply]

theorem runsTo_shutdown : g.RunsTo g.shutdown := .of_act (m := .shutdown) rfl

theorem runsTo_serve (packets : List Bytes) : g.RunsTo (g.serve now packets).1 := by
  induction packets generalizing g with
  | nil => exact .refl g
  | cons packet packets ih =>
    have hfirst := g.runsTo_receive now packet
    rw [serve]
    generalize g.receive packet now = x at hfirst ⊢
    obtain ⟨g', _ | _⟩ := x
    · simp only
      split
      · exact hfirst.trans (ih g')
      · exact hfirst.trans g'.runsTo_shutdown
    · exact hfirst.trans (ih g')

/-! ## Sessions -/

variable {g now} {s : Session} {id : Nat}

theorem runsTo_endSession : g.RunsTo (g.endSession id) := .of_act (m := .drop id) rfl

section Running

variable (hfound : g.session? s.id = some s) (hruns : s.aborted = false)
include hfound hruns

theorem running?_eq : Service.running? ⟨g, []⟩ s.id = some s := by
  simp [Service.running?, hfound, hruns]

theorem runsTo_carryOn : g.RunsTo (g.carryOn s) := by
  refine .of_act (m := .carryOn s.id) ?_
  simp [Service.act, Service.withGateway, running?_eq hfound hruns]

theorem runsTo_beginSession {g' : Gateway} (h : g.beginSession now s = some g') :
    g.RunsTo g' := by
  refine .of_act (m := .begin s.id now) ?_
  simp [Service.act, Service.withGateway, running?_eq hfound hruns, h]

theorem runsTo_wakeSession {g' : Gateway} {wall : Nat} {cause : Session.Cause}
    (h : g.wakeSession now wall s cause = some g') : g.RunsTo g' := by
  refine .of_act (m := .wake s.id cause now wall) ?_
  simp [Service.act, Service.withGateway, running?_eq hfound hruns, h]

end Running

theorem runsTo_forward {x : Gateway × Link} {link : Link} (hfound : g.session? s.id = some s)
    (h : g.forward now s link = some x) : g.RunsTo x.1 := by
  refine .of_act (m := .forward s.id link now) ?_
  simp [Service.act, Service.withGateway, hfound, h]

end Gateway

namespace Deployment

variable {d d' : Deployment} {now : Nat}

@[simp] theorem afterStep_gateway (d : Deployment) (g : Gateway) (id : Nat) :
    (d.afterStep g id).gateway = g := by
  unfold afterStep hangUp
  split
  · rfl
  · split <;> rfl

/-! ## Steps -/

theorem runsTo_stepForwarder {s : Session} (hfound : d.gateway.session? s.id = some s)
    (h : d.stepForwarder now s = some d') : d.gateway.RunsTo d'.gateway := by
  obtain ⟨c, -, h⟩ := Option.bind_eq_some_iff.mp h
  obtain ⟨x, hforward, h⟩ := Option.bind_eq_some_iff.mp h
  cases h
  exact Gateway.runsTo_forward hfound hforward

theorem runsTo_stepSession {s : Session} (hfound : d.gateway.session? s.id = some s)
    (h : d.stepSession now s = some d') : d.gateway.RunsTo d'.gateway := by
  unfold stepSession at h
  split at h
  · cases h
    rw [afterStep_gateway]
    exact Gateway.runsTo_endSession
  · rename_i haborted
    have hruns : s.aborted = false := Bool.eq_false_iff.mpr haborted
    split at h
    · cases h
      rw [afterStep_gateway]
      exact Gateway.runsTo_carryOn hfound hruns
    · split at h
      · obtain ⟨g, hbegin, rfl⟩ := Option.map_eq_some_iff.mp h
        exact Gateway.runsTo_beginSession hfound hruns hbegin
      · obtain ⟨cause, -, h⟩ := List.exists_of_findSome?_eq_some h
        obtain ⟨g, hwake, rfl⟩ := Option.map_eq_some_iff.mp h
        rw [afterStep_gateway]
        exact Gateway.runsTo_wakeSession hfound hruns hwake

/-- A relay does nothing to the gateway. -/
theorem stepRelay_gateway {c : Contact} (h : d.stepRelay now c = some d') :
    d'.gateway = d.gateway := by
  obtain ⟨x, -, rfl⟩ := Option.map_eq_some_iff.mp h
  rfl

theorem runsTo_stepPart {p : Part} (h : d.stepPart now p = some d') :
    d.gateway.RunsTo d'.gateway := by
  cases p with
  | forwarder id =>
    obtain ⟨s, hfound, hstep⟩ := Option.bind_eq_some_iff.mp h
    obtain ⟨-, rfl⟩ := Gateway.mem_of_session? hfound
    exact runsTo_stepForwarder hfound hstep
  | session id =>
    obtain ⟨s, hfound, hstep⟩ := Option.bind_eq_some_iff.mp h
    obtain ⟨-, rfl⟩ := Gateway.mem_of_session? hfound
    exact runsTo_stepSession hfound hstep
  | relay id =>
    obtain ⟨c, -, hstep⟩ := Option.bind_eq_some_iff.mp h
    rw [stepRelay_gateway hstep]
    exact .refl _

theorem runsTo_step (h : d.step now = some d') : d.gateway.RunsTo d'.gateway := by
  obtain ⟨p, -, h⟩ := List.exists_of_findSome?_eq_some h
  obtain ⟨d₁, hpart, rfl⟩ := Option.map_eq_some_iff.mp h
  have hrun := runsTo_stepPart hpart
  exact hrun

/-! ## Time -/

theorem runsTo_run (bound : Nat) (d : Deployment) :
    d.gateway.RunsTo (timed.run now bound d).gateway := by
  induction bound generalizing d with
  | zero => exact .refl _
  | succ bound ih =>
    rw [Timed.run]
    split
    · exact .refl _
    · exact (runsTo_step ‹_›).trans (ih _)

theorem runsTo_settle (d : Deployment) : d.gateway.RunsTo d.settle.gateway :=
  runsTo_run _ d

theorem runsTo_advance (d : Deployment) (time : Nat) :
    d.gateway.RunsTo (d.advance time).gateway := by
  show d.gateway.RunsTo (timed.advance d.now (d.now + time) d).gateway
  generalize d.now = now
  generalize now + time = limit
  fun_induction Timed.advance timed now limit d with
  | case1 now d s hlt ih => exact (runsTo_run _ d).trans ih
  | case2 now d s hlt => exact runsTo_run _ d

/-! ## What comes from outside -/

theorem runsTo_receive (d : Deployment) (packets : List Bytes) :
    d.gateway.RunsTo (d.receive packets).1.gateway := by
  induction packets using List.reverseRecOn with
  | nil => exact .refl _
  | append_singleton packets packet ih =>
    rw [receive] at ih ⊢
    rw [List.foldl_append]
    generalize packets.foldl _ (d, []) = x at ih ⊢
    obtain ⟨d', results⟩ := x
    exact ih.trans (d'.gateway.runsTo_receive d'.now packet)

theorem runsTo_enqueue (d : Deployment) (packets : List Bytes) :
    d.gateway.RunsTo (d.enqueue packets).1.gateway := by
  unfold enqueue
  split
  · exact d.gateway.runsTo_serve d.now packets
  · exact .refl _

theorem runsTo_stopServing (d : Deployment) : d.gateway.RunsTo d.stopServing.1.gateway := by
  unfold stopServing
  split
  · exact d.gateway.runsTo_shutdown
  · exact .refl _

theorem runsTo_closeTunnel (d : Deployment) : d.gateway.RunsTo d.closeTunnel.gateway :=
  .of_act (m := .closeTunnel) rfl

/-- What becomes of a deployment with these settings, whatever its relays, its clocks and its
clients do. -/
inductive Simulated (settings : Settings) : Deployment → Prop
  | start {d : Deployment} (fresh : d.gateway = .ofSettings settings) : Simulated settings d
  | advance {d : Deployment} (time : Nat) (h : Simulated settings d) :
      Simulated settings (d.advance time)
  | setWall {d : Deployment} (wall : Nat) (h : Simulated settings d) :
      Simulated settings (d.setWall wall)
  | receive {d : Deployment} (packets : List Bytes) (h : Simulated settings d) :
      Simulated settings (d.receive packets).1
  | enqueue {d : Deployment} (packets : List Bytes) (h : Simulated settings d) :
      Simulated settings (d.enqueue packets).1
  | stopServing {d : Deployment} (h : Simulated settings d) : Simulated settings d.stopServing.1
  | shutdown {d : Deployment} (h : Simulated settings d) : Simulated settings d.shutdown
  | closeTunnel {d : Deployment} (h : Simulated settings d) : Simulated settings d.closeTunnel
  | look {d : Deployment} (h : Simulated settings d) : Simulated settings d.look.1

namespace Simulated

variable {settings : Settings}

theorem intact (h : Simulated settings d) :
    ∃ history, Service.Intact settings history ⟨d.gateway, []⟩ := by
  induction h with
  | start fresh => exact ⟨[], fresh ▸ .begin settings⟩
  | @advance d time _ ih => exact (d.runsTo_advance time).intact ih
  | setWall wall _ ih => exact ih
  | @receive d packets _ ih => exact (d.runsTo_receive packets).intact ih
  | @enqueue d packets _ ih => exact (d.runsTo_enqueue packets).intact ih
  | @stopServing d _ ih => exact d.runsTo_stopServing.intact ih
  | @shutdown d _ ih => exact d.gateway.runsTo_shutdown.intact ih
  | @closeTunnel d _ ih => exact d.runsTo_closeTunnel.intact ih
  | @look d _ ih =>
    obtain ⟨history, hi⟩ := d.runsTo_settle.intact ih
    -- What was sent is taken out of the tunnel, and neither the gateway nor a session looks there.
    exact ⟨history, { hi.roster with }, { hi.ordered with }, { hi.pending with }⟩

/-- What holds between two turns of every run holds whenever a simulation is looked at. -/
theorem lifecycle_and_isolated (h : Simulated settings d) :
    ∃ history, Service.Lifecycle settings history d.gateway ∧
      Service.Isolated history ⟨d.gateway, []⟩ := by
  obtain ⟨history, hi⟩ := h.intact
  exact ⟨history, hi.roster.lifecycle, hi.isolated⟩

end Simulated

end Deployment

end TcpGateway
