import TcpGateway.Proofs.Streams
import TcpGateway.Uplink.Run

/-!
# What the window check lets through is accepted

The connection looks at the window before it writes payload to its uplink, and drops the answer of
the write.  That is sound because the check and the write agree for every capacity and every fill:
what the window has room for always fits the buffer behind it (`Uplink.fits_of_le_window`), so the
buffer's own complaint never comes out, and only a closed uplink can still refuse
(`Uplink.serve_write`).

Over a run of calls, the writes that go through are all that the stream is made of
(`Uplink.Account`): a refused one has left no trace.
-/

namespace TcpGateway

namespace Uplink

/-! ## One write -/

theorem extend_nil (u : Uplink) : u.extend [] = u := by
  simp only [extend, List.append_nil, List.length_nil, SeqNum.add_zero]

/-- What becomes of a write, and the order in which its conditions are looked at. -/
theorem serve_write (u : Uplink) (seq : SeqNum) (payload : Bytes) :
    u.serve (.write seq payload) =
      if seq ≠ u.nxt then (u, .error (.misordered u.nxt seq))
      else if u.window < payload.length then
        (u, .error
          (.badWindow s!"{payload.length} byte payload exceeds receive window {u.window}"))
      else if u.buffer.closed ∧ payload ≠ [] then (u, .error .closed)
      else (u.extend payload, .ok ()) := by
  by_cases hseq : seq ≠ u.nxt
  · rw [serve, write, if_pos hseq, if_pos hseq]
  · by_cases hempty : payload = []
    · subst hempty
      have hzero : ¬ u.window < ([] : Bytes).length := Nat.not_lt_zero _
      have hnone : ¬ (u.buffer.closed ∧ ([] : Bytes) ≠ []) := fun h => h.2 rfl
      rw [if_neg hseq, if_neg hzero, if_neg hnone, extend_nil, serve, write, if_neg hseq]
      rfl
    · have hnonempty : ¬ payload.isEmpty = true := by rwa [List.isEmpty_iff]
      by_cases hwindow : u.window < payload.length
      · rw [serve, write, if_neg hseq, if_neg hseq, if_neg hnonempty, if_pos hwindow,
          if_pos hwindow]
      · rw [serve, write, if_neg hseq, if_neg hseq, if_neg hnonempty, if_neg hwindow,
          if_neg hwindow, Buffer.write]
        by_cases hclosed : u.buffer.closed
        · rw [if_pos hclosed, if_pos ⟨hclosed, hempty⟩]
        · rw [if_neg hclosed, if_pos (u.fits_of_le_window (Nat.le_of_not_lt hwindow)),
            if_neg fun h => hclosed h.1]
          rfl

theorem inWindow_iff (u : Uplink) (seq : SeqNum) (length : Nat) :
    u.inWindow seq length = true ↔ seq = u.nxt ∧ length ≤ u.window := by
  simp only [inWindow, Bool.and_eq_true, Bool.or_eq_true, beq_iff_eq, decide_eq_true_eq]
  exact and_congr_right fun _ => ⟨fun h => by omega, .inr⟩

theorem serve_write_of_ok {u : Uplink} {seq : SeqNum} {payload : Bytes}
    (h : (u.serve (.write seq payload)).2 = .ok ()) :
    (u.serve (.write seq payload)).1 = u.extend payload ∧ payload.length ≤ u.window := by
  rw [serve_write] at h ⊢
  grind

theorem serve_write_of_error {u : Uplink} {seq : SeqNum} {payload : Bytes} {e : StreamError}
    (h : (u.serve (.write seq payload)).2 = .error e) :
    (u.serve (.write seq payload)).1 = u := by
  rw [serve_write] at h ⊢
  grind

/-- The window check and the write at `seq` agree, and each refusal has its one reason. -/
structure Guarded (u : Uplink) (seq : SeqNum) (payload : Bytes) : Prop where
  /-- While the uplink is open, the window check says whether the write goes through. -/
  checked : u.buffer.closed = false →
    (u.inWindow seq payload.length = true ↔ (u.serve (.write seq payload)).2 = .ok ())
  accepted : (u.serve (.write seq payload)).2 = .ok () →
    (u.serve (.write seq payload)).1 =
        { u with buffer.bytes := u.buffer.bytes ++ payload, nxt := u.nxt.add payload.length } ∧
      payload.length ≤ 65535
  /-- A write that is refused leaves everything as it was. -/
  refused : ∀ e, (u.serve (.write seq payload)).2 = .error e →
    (u.serve (.write seq payload)).1 = u
  misordered : ∀ expected actual,
    (u.serve (.write seq payload)).2 = .error (.misordered expected actual) ↔
      seq ≠ u.nxt ∧ expected = u.nxt ∧ actual = seq
  badWindow : ∀ reason, (u.serve (.write seq payload)).2 = .error (.badWindow reason) ↔
    seq = u.nxt ∧ u.window < payload.length ∧
      reason = s!"{payload.length} byte payload exceeds receive window {u.window}"
  closed : (u.serve (.write seq payload)).2 = .error .closed ↔
    seq = u.nxt ∧ payload.length ≤ u.window ∧ u.buffer.closed = true ∧ payload ≠ []
  /-- The three errors above are all. -/
  reasons : ∀ e, (u.serve (.write seq payload)).2 = .error e →
    (∃ expected actual, e = .misordered expected actual) ∨ (∃ reason, e = .badWindow reason) ∨
      e = .closed
  /-- The buffer's own complaint is not one of them. -/
  neverFull : ∀ requested available,
    (u.serve (.write seq payload)).2 ≠ .error (.full requested available)

theorem guarded (u : Uplink) (seq : SeqNum) (payload : Bytes) : Guarded u seq payload where
  checked is_open := by
    rw [inWindow_iff, serve_write]
    grind
  accepted h := by
    obtain ⟨hextend, hwindow⟩ := serve_write_of_ok h
    exact ⟨hextend, Nat.le_trans hwindow u.window_le⟩
  refused _ := serve_write_of_error
  misordered expected actual := by
    rw [serve_write]
    grind
  badWindow reason := by
    rw [serve_write]
    grind
  closed := by
    rw [serve_write]
    grind
  reasons := by
    rw [serve_write]
    grind
  neverFull requested available := by
    rw [serve_write]
    grind

/-! ## A run of calls -/

/-- From `u` on, these bytes came in behind, those went out in front, and so many numbers were
spent on control flags. -/
structure Account (u u' : Uplink) (appended removed : Bytes) (controls : Nat) : Prop where
  bytes : u.buffer.bytes ++ appended = removed ++ u'.buffer.bytes
  nxt : u'.nxt = u.nxt.add (appended.length + controls)
  capacity : u'.buffer.capacity = u.buffer.capacity
  /-- A buffer that held no more than its capacity still does. -/
  bounded : ∀ n, u.buffer.Bounded n → u'.buffer.Bounded n

theorem Account.refl (u : Uplink) : Account u u [] [] 0 where
  bytes := List.append_nil _
  nxt := (SeqNum.add_zero _).symm
  capacity := rfl
  bounded _ h := h

theorem Account.trans {u u' u'' : Uplink} {appended removed appended' removed' : Bytes}
    {controls controls' : Nat} (h : Account u u' appended removed controls)
    (h' : Account u' u'' appended' removed' controls') :
    Account u u'' (appended ++ appended') (removed ++ removed') (controls + controls') where
  bytes := by rw [← List.append_assoc, h.bytes, List.append_assoc, h'.bytes, List.append_assoc]
  nxt := by
    rw [h'.nxt, h.nxt, SeqNum.add_add, List.length_append]
    congr 1
    omega
  capacity := h'.capacity.trans h.capacity
  bounded n hn := h'.bounded n (h.bounded n hn)

theorem extend_account (u : Uplink) {payload : Bytes} (h : payload.length ≤ u.window) :
    Account u (u.extend payload) payload [] 0 where
  bytes := rfl
  nxt := rfl
  capacity := rfl
  bounded _ hn := hn.append (u.fits_of_le_window h)

/-- The account of one call.  A refused one has none. -/
theorem serve_account (u : Uplink) (call : Call) :
    Account u (u.serve call).1 (u.appends call) (u.removes call)
      ([call].count .spendControl) := by
  cases call with
  | write seq payload =>
    rw [(rfl : [Call.write seq payload].count .spendControl = 0)]
    cases h : (u.serve (.write seq payload)).2 with
    | ok =>
      obtain ⟨hextend, hwindow⟩ := serve_write_of_ok h
      simp only [appends, removes, h, hextend]
      exact u.extend_account hwindow
    | error e =>
      simp only [appends, removes, h, serve_write_of_error h]
      exact .refl u
  | spendControl => exact ⟨List.append_nil _, rfl, rfl, fun _ h => h⟩
  | close => exact ⟨List.append_nil _, (SeqNum.add_zero _).symm, rfl, fun _ h => ⟨h.1, h.2⟩⟩
  | discard count =>
    rw [(rfl : [Call.discard count].count .spendControl = 0)]
    cases h : u.buffer.discard count with
    | ok b =>
      obtain ⟨rfl, -⟩ := Buffer.discard_eq_ok h
      simp only [appends, removes, serve, h]
      exact ⟨by simp, (SeqNum.add_zero _).symm, rfl, fun _ hn => hn.drop count⟩
    | error e =>
      simp only [appends, removes, serve, h]
      exact .refl u

theorem run_account (u : Uplink) (calls : List Call) :
    Account u (u.run calls) (u.appended calls) (u.removed calls) (calls.count .spendControl) := by
  induction calls generalizing u with
  | nil => exact .refl u
  | cons call calls ih =>
    have hrun := (u.serve_account call).trans (ih (u.serve call).1)
    rwa [← List.count_append] at hrun

/-- Wherever a run has brought an uplink, the window check and the write agree, a refused write
changes nothing, and the uplink stands where the bytes that were let in and out have moved it. -/
theorem guarded_run (buffer : Buffer) (start : SeqNum) (calls : List Call) :
    (∀ seq payload, Guarded ((ofBuffer buffer start).run calls) seq payload) ∧
      Account (ofBuffer buffer start) ((ofBuffer buffer start).run calls)
        ((ofBuffer buffer start).appended calls) ((ofBuffer buffer start).removed calls)
        (calls.count .spendControl) :=
  ⟨fun seq payload => guarded _ seq payload, run_account _ calls⟩

end Uplink

end TcpGateway
