import Mathlib.Data.List.Induction
import TcpGateway.Buffer.Run
import TcpGateway.Proofs.Streams

/-!
# A shared buffer is a lossless queue

Whatever calls its two parties make, in whatever order, and wherever they drop one that waits, the
bytes that a shared buffer took are those that were removed from it and behind them those that it
holds.

`Moves` is all that one call can do to the bytes.  The two calls that can wait are described by what
one attempt at them does (`PutsIn`, `Takes`), no matter whether it is the first attempt or a poll.
-/

namespace TcpGateway

namespace Buffer

/-- What is wanted at most. -/
def Want.most (w : Want) : Nat :=
  match w with
  | .upTo limit => limit
  | .exactly count => count

/-- Whether `length` bytes are too few for the read to be served. -/
def Want.Lacks (w : Want) (length : Nat) : Prop :=
  match w with
  | .upTo _ => length = 0
  | .exactly count => length < count

/-- What a call can do to a buffer: `accepted` comes in behind, or `removed` goes out in front. -/
inductive Moves (b : Buffer) : (accepted removed : Bytes) → Buffer → Prop
  | kept : Moves b [] [] b
  | put {piece : Bytes} (is_open : b.closed = false) (fits : b.fits piece.length) :
      Moves b piece [] { b with bytes := b.bytes ++ piece }
  | taken (n : Nat) : Moves b [] (b.bytes.take n) { b with bytes := b.bytes.drop n }

section Moves

variable {b b' : Buffer} {accepted removed : Bytes}

theorem Moves.conserved (h : Moves b accepted removed b') :
    b.bytes ++ accepted = removed ++ b'.bytes := by
  cases h with
  | kept => simp
  | put _ _ => rfl
  | taken n => simp

theorem Moves.accepted_eq (h : Moves b accepted removed b') :
    b'.bytes.drop b.length = accepted := by
  cases h with
  | kept => exact List.drop_length
  | put _ _ => exact List.drop_left
  | taken n => simp [length]

theorem Moves.bounded {n : Nat} (h : Moves b accepted removed b') (hb : b.Bounded n) :
    b'.Bounded n := by
  cases h with
  | kept => exact hb
  | put _ fits => exact hb.append fits
  | taken k => exact hb.drop k

theorem Moves.closed_eq (h : Moves b accepted removed b') : b'.closed = b.closed := by
  cases h <;> rfl

theorem Moves.eq_self (h : Moves b accepted removed b') (haccepted : accepted = [])
    (hremoved : removed = []) : b' = b := by
  have hbytes : b'.bytes = b.bytes := by
    have hsame := h.conserved
    rw [haccepted, hremoved, List.append_nil] at hsame
    exact hsame.symm
  cases h with
  | kept => rfl
  | put _ _ => exact congrArg (fun bytes => { b with bytes }) hbytes
  | taken n => exact congrArg (fun bytes => { b with bytes }) hbytes

/-- A closed buffer takes nothing. -/
theorem Moves.eq_nil_of_closed (h : Moves b accepted removed b') (hclosed : b.closed) :
    accepted = [] := by
  cases h with
  | kept => rfl
  | put is_open _ => cases is_open.symm.trans hclosed
  | taken _ => rfl

end Moves

instance (w : Want) (length : Nat) : Decidable (w.Lacks length) :=
  match w with
  | .upTo _ => inferInstanceAs (Decidable (length = 0))
  | .exactly count => inferInstanceAs (Decidable (length < count))

theorem Want.served_eq (w : Want) (length : Nat) :
    w.served length = if w.Lacks length then none else some (min w.most length) := by
  cases w with
  | upTo limit =>
    show (if 0 < length then some (min length limit) else none) =
      if length = 0 then none else some (min limit length)
    rcases Nat.eq_zero_or_pos length with hzero | hpos
    · rw [if_pos hzero, if_neg (by omega)]
    · rw [if_pos hpos, if_neg (by omega), Nat.min_comm]
  | exactly count =>
    show (if count ≤ length then some count else none) =
      if length < count then none else some (min count length)
    rcases Nat.lt_or_ge length count with hlt | hle
    · rw [if_pos hlt, if_neg (by omega)]
    · rw [if_pos hle, if_neg (by omega), Nat.min_eq_left hle]

/-- A write is refused by a closed buffer and by one without room for it. -/
theorem write_moves (b : Buffer) (data : Bytes) :
    b.closed = false ∧ b.fits data.length ∧ (∃ b', b.write data = .ok b' ∧ Moves b data [] b') ∨
      (b.closed ∨ b.fits data.length = false) ∧ ∃ e, b.write data = .error e := by
  unfold write
  by_cases hclosed : b.closed
  · exact .inr ⟨.inl hclosed, _, if_pos hclosed⟩
  · rw [if_neg hclosed]
    have hopen : b.closed = false := Bool.eq_false_iff.mpr hclosed
    by_cases hfits : b.fits data.length
    · exact .inl ⟨hopen, hfits, _, if_pos hfits, .put hopen hfits⟩
    · exact .inr ⟨.inr (Bool.eq_false_iff.mpr hfits), _, if_neg hfits⟩

/-- A piecewise write is refused by a closed buffer only. -/
theorem writeSome_moves (b : Buffer) (data : Bytes) :
    b.closed ∧ b.writeSome data = .error .closed ∨
      ∃ b' piece rest, b.writeSome data = .ok (b', rest) ∧ data = piece ++ rest ∧
        Moves b piece [] b' := by
  by_cases hclosed : b.closed
  · exact .inl ⟨hclosed, if_pos hclosed⟩
  · refine .inr ?_
    cases hw : b.writeSome data with
    | error e =>
      rw [writeSome, if_neg hclosed] at hw
      split at hw <;> cases hw
    | ok r =>
      obtain ⟨b', rest⟩ := r
      obtain ⟨piece, hdata, rfl, hfits⟩ := writeSome_eq_ok hw
      exact ⟨_, piece, rest, rfl, hdata, .put (Bool.eq_false_iff.mpr hclosed) hfits⟩

theorem discard_moves {b b' : Buffer} {n : Nat} (h : b.discard n = .ok b') :
    Moves b [] (b.bytes.take n) b' := by
  obtain ⟨rfl, -⟩ := discard_eq_ok h
  exact .taken n

end Buffer

namespace WaitingBuffer

open Buffer (Want Moves)

/-! ## One attempt at a call that can wait -/

/-- An attempt to write `data` into `b`: what is put in, what is still to come, and the answer. -/
inductive PutsIn (b : Buffer) (data : Bytes) : Bytes → Option Bytes → Answer Unit → Prop
  | finished : PutsIn b data data none (.done (.ok ()))
  | suspended {piece rest : Bytes} (split : data = piece ++ rest) :
      PutsIn b data piece (some rest) .pending
  | refused (is_closed : b.closed) : PutsIn b data [] none (.done (.error .closed))

/-- An attempt to read from `b`: what is taken, what is still wanted, and the answer. -/
inductive Takes (b : Buffer) (want : Want) : Bytes → Option Want → Answer Bytes → Prop
  | served {data : Bytes} (front : data = b.bytes.take want.most)
      (enough : want.Lacks b.length → want.most = 0) :
      Takes b want data none (.done (.ok data))
  | suspended : Takes b want [] (some want) .pending
  | ended (is_closed : b.closed) (lacks : want.Lacks b.length) :
      Takes b want [] none (.done (.error .closed))
  /-- No buffer of this capacity will ever serve the read. -/
  | impossible {count capacity : Nat} :
      Takes b want [] none (.done (.error (.exceedsCapacity count capacity)))

/-- An attempt at the rest of a write puts in more of it, or all of it if it succeeds. -/
theorem PutsIn.progress {b : Buffer} {data piece : Bytes} {left : Option Bytes}
    {answer : Answer Unit} (h : PutsIn b data piece left answer) :
    piece <+: data ∧ (answer = .done (.ok ()) → piece = data) ∧
      ∀ e, answer = .done (.error e) → e = .closed ∧ b.closed := by
  cases h with
  | finished => exact ⟨List.prefix_rfl, fun _ => rfl, by rintro _ ⟨⟩⟩
  | @suspended piece rest split => exact ⟨⟨rest, split.symm⟩, by rintro ⟨⟩, by rintro _ ⟨⟩⟩
  | refused is_closed =>
    refine ⟨⟨data, rfl⟩, by rintro ⟨⟩, ?_⟩
    rintro _ ⟨⟩
    exact ⟨rfl, is_closed⟩

theorem Takes.answer_eq {b : Buffer} {want : Want} {data : Bytes} {left : Option Want}
    {answer : Answer Bytes} (h : Takes b want data left answer) :
    (∀ data', answer = .done (.ok data') → data' = b.bytes.take want.most ∧
      (want.Lacks b.length → want.most = 0)) ∧
    (answer = .done (.error .closed) → b.closed ∧ want.Lacks b.length) ∧
    (answer = .pending → data = []) := by
  cases h with
  | served front enough =>
    refine ⟨?_, by rintro ⟨⟩, by rintro ⟨⟩⟩
    rintro _ ⟨⟩
    exact ⟨front, enough⟩
  | suspended => exact ⟨by rintro _ ⟨⟩, by rintro ⟨⟩, fun _ => rfl⟩
  | ended is_closed lacks =>
    exact ⟨by rintro _ ⟨⟩, fun _ => ⟨is_closed, lacks⟩, by rintro ⟨⟩⟩
  | impossible => exact ⟨by rintro _ ⟨⟩, by rintro ⟨⟩, by rintro ⟨⟩⟩

/-- What an attempt takes is what it answers. -/
theorem Takes.removed_eq {b : Buffer} {want : Want} {data : Bytes} {left : Option Want}
    {answer : Answer Bytes} {t : Turn} (h : Takes b want data left answer)
    (hcall : t.call = .pollRead ∨ ∃ want, t.call = .read want) (hreply : t.reply = .bytes answer) :
    t.removed = data := by
  unfold Turn.removed
  rw [hreply]
  obtain hcall | ⟨want, hcall⟩ := hcall
  · rw [hcall]
    cases h <;> rfl
  · rw [hcall]
    cases h <;> rfl

/-- What is answered without a look at the bytes. -/
theorem trivial_takes {b : Buffer} {want : Want} {answer : Except StreamError Bytes}
    (h : want.trivial? b.capacity = some answer) : Takes b want [] none (.done answer) := by
  have hnothing : want.most = 0 → Takes b want [] none (.done (.ok [])) := fun hzero =>
    .served (by rw [hzero, List.take_zero]) fun _ => hzero
  unfold Want.trivial? at h
  split at h
  · split at h
    · rename_i hzero
      cases h
      exact hnothing hzero
    · cases h
  · split at h
    · split at h
      · cases h
        exact .impossible
      · split at h
        · rename_i hzero
          cases h
          exact hnothing hzero
        · cases h
    · split at h
      · rename_i hzero
        cases h
        exact hnothing hzero
      · cases h

variable (w : WaitingBuffer)

theorem tryWrite_putsIn (data : Bytes) :
    ∃ piece, PutsIn w.buffer data piece (w.tryWrite data).1.writing (w.tryWrite data).2 ∧
      Moves w.buffer piece [] (w.tryWrite data).1.buffer ∧
      (w.tryWrite data).1.reading = w.reading := by
  unfold tryWrite
  split
  · rename_i hnil
    rw [List.isEmpty_iff] at hnil
    subst hnil
    exact ⟨[], .finished, .kept, rfl⟩
  · obtain ⟨hclosed, hw⟩ | ⟨b', piece, rest, hw, hdata, hmoves⟩ := w.buffer.writeSome_moves data
    · rw [hw]
      exact ⟨[], .refused hclosed, .kept, rfl⟩
    · rw [hw]
      simp only
      split
      · rename_i hnil
        rw [List.isEmpty_iff] at hnil
        subst hnil
        rw [List.append_nil] at hdata
        subst hdata
        exact ⟨data, .finished, hmoves, rfl⟩
      · exact ⟨piece, .suspended hdata, hmoves, rfl⟩

/-- A piecewise write waits only if it has filled the buffer. -/
theorem tryWrite_pending {data : Bytes} (h : (w.tryWrite data).2 = .pending) :
    (w.tryWrite data).1.buffer.available = 0 := by
  unfold tryWrite at h ⊢
  split
  · rename_i hnil
    rw [if_pos hnil] at h
    cases h
  · rename_i hne
    rw [if_neg hne] at h
    cases hw : w.buffer.writeSome data with
    | error e =>
      simp only [hw] at h
      cases h
    | ok r =>
      obtain ⟨b', rest⟩ := r
      simp only [hw] at h ⊢
      split
      · rename_i hnil
        rw [if_pos hnil] at h
        cases h
      · rename_i hrest
        exact Buffer.writeSome_full hw (by rwa [List.isEmpty_iff] at hrest)

/-- A read waits only if it cannot be served and the buffer may still get more. -/
theorem tryRead_pending {want : Want} (h : (w.tryRead want).2 = .pending) :
    want.Lacks w.buffer.length ∧ w.buffer.closed = false := by
  unfold tryRead Buffer.take at h
  rw [Want.served_eq] at h
  by_cases hlacks : want.Lacks w.buffer.length
  · by_cases hclosed : w.buffer.closed
    · rw [if_pos hlacks, if_pos hclosed] at h
      cases h
    · exact ⟨hlacks, Bool.eq_false_iff.mpr hclosed⟩
  · rw [if_neg hlacks] at h
    cases h

theorem tryRead_takes (want : Want) :
    ∃ data, Takes w.buffer want data (w.tryRead want).1.reading (w.tryRead want).2 ∧
      Moves w.buffer [] data (w.tryRead want).1.buffer ∧
      (w.tryRead want).1.writing = w.writing := by
  unfold tryRead Buffer.take
  rw [Want.served_eq]
  by_cases hlacks : want.Lacks w.buffer.length
  · rw [if_pos hlacks]
    by_cases hclosed : w.buffer.closed
    · rw [if_pos hclosed]
      exact ⟨[], .ended hclosed hlacks, .kept, rfl⟩
    · rw [if_neg hclosed]
      exact ⟨[], .suspended, .kept, rfl⟩
  · rw [if_neg hlacks]
    have hfront : w.buffer.bytes.take (min want.most w.buffer.length) =
        w.buffer.bytes.take want.most := by
      rw [List.take_eq_take_iff, Buffer.length]
      omega
    exact ⟨_, .served hfront fun h => absurd h hlacks, .taken _, rfl⟩

/-! ## One turn -/

theorem dropRead_keeps : w.dropRead.buffer = w.buffer ∧ w.dropRead.reading = none ∧
    w.dropRead.writing = w.writing := by
  unfold dropRead
  split
  · rename_i hnone
    exact ⟨rfl, hnone, rfl⟩
  · exact ⟨rfl, rfl, rfl⟩

theorem dropWrite_keeps : w.dropWrite.buffer = w.buffer ∧ w.dropWrite.writing = none ∧
    w.dropWrite.reading = w.reading := by
  unfold dropWrite
  split
  · rename_i hnone
    exact ⟨rfl, hnone, rfl⟩
  · exact ⟨rfl, rfl, rfl⟩

theorem write_cases (data : Bytes) :
    w.buffer.closed = false ∧ w.buffer.fits data.length ∧
        Moves w.buffer data [] (w.write data).1.buffer ∧ (w.write data).2 = .ok () ∨
      (w.buffer.closed ∨ w.buffer.fits data.length = false) ∧
        ∃ e, w.write data = (w, .error e) := by
  unfold write
  obtain ⟨hopen, hfits, b', hw, hmoves⟩ | ⟨hrefused, e, hw⟩ := w.buffer.write_moves data
  · rw [hw]
    exact .inl ⟨hopen, hfits, hmoves, rfl⟩
  · rw [hw]
    exact .inr ⟨hrefused, e, rfl⟩

theorem writeAll_putsIn (data : Bytes) :
    ∃ piece, PutsIn w.buffer data piece (w.writeAll data).1.writing (w.writeAll data).2 ∧
      Moves w.buffer piece [] (w.writeAll data).1.buffer ∧
      (w.writeAll data).1.reading = w.reading := by
  obtain ⟨hbuffer, -, hreading⟩ := w.dropWrite_keeps
  have h := w.dropWrite.tryWrite_putsIn data
  rw [hbuffer, hreading] at h
  exact h

theorem pollWrite_putsIn {data : Bytes} (hw : w.writing = some data) :
    ∃ piece, PutsIn w.buffer data piece w.pollWrite.1.writing w.pollWrite.2 ∧
      Moves w.buffer piece [] w.pollWrite.1.buffer ∧ w.pollWrite.1.reading = w.reading := by
  unfold pollWrite
  split
  · rename_i hnone
    cases hw.symm.trans hnone
  · rename_i rest hsome
    cases hw.symm.trans hsome
    split
    · exact tryWrite_putsIn { w with writable := { w.writable with wait := .none } } data
    · exact ⟨[], hw ▸ .suspended rfl, .kept, rfl⟩

theorem read_takes (want : Want) :
    ∃ data, Takes w.buffer want data (w.read want).1.reading (w.read want).2 ∧
      Moves w.buffer [] data (w.read want).1.buffer ∧ (w.read want).1.writing = w.writing := by
  obtain ⟨hbuffer, hreading, hwriting⟩ := w.dropRead_keeps
  unfold read
  cases htrivial : want.trivial? w.buffer.capacity with
  | none =>
    have h := w.dropRead.tryRead_takes want
    rw [hbuffer, hwriting] at h
    exact h
  | some answer =>
    refine ⟨[], ?_, hbuffer ▸ .kept, hwriting⟩
    rw [hreading]
    exact trivial_takes htrivial

theorem read_pending {want : Want} (h : (w.read want).2 = .pending) :
    want.Lacks w.buffer.length ∧ w.buffer.closed = false := by
  rw [← w.dropRead_keeps.1]
  unfold read at h
  split at h
  · cases h
  · exact w.dropRead.tryRead_pending h

theorem pollRead_takes {want : Want} (hr : w.reading = some want) :
    ∃ data, Takes w.buffer want data w.pollRead.1.reading w.pollRead.2 ∧
      Moves w.buffer [] data w.pollRead.1.buffer ∧ w.pollRead.1.writing = w.writing := by
  unfold pollRead
  split
  · rename_i hnone
    cases hr.symm.trans hnone
  · rename_i want' hsome
    cases hr.symm.trans hsome
    split
    · exact tryRead_takes { w with readable := { w.readable with wait := .none } } want
    · exact ⟨[], hr ▸ .suspended, .kept, rfl⟩

theorem pollWrite_idle (hw : w.writing = none) : w.pollWrite = (w, .idle) := by
  unfold pollWrite
  split
  · rfl
  · rename_i rest hsome
    cases hw.symm.trans hsome

theorem pollRead_idle (hr : w.reading = none) : w.pollRead = (w, .idle) := by
  unfold pollRead
  split
  · rfl
  · rename_i want hsome
    cases hr.symm.trans hsome

/-- A turn that gets on with a read is an attempt at it. -/
theorem turn_takes {want : Want} (call : Call)
    (hx : (w.turn call).reads w.reading = some want) :
    ∃ answer, (w.turn call).reply = .bytes answer ∧
      Takes w.buffer want (w.turn call).removed (w.turn call).after.reading answer ∧
      Moves w.buffer [] (w.turn call).removed (w.turn call).after.buffer := by
  cases call with
  | read want' =>
    cases hx
    obtain ⟨data, htakes, hmoves, -⟩ := w.read_takes want
    have hremoved : (w.turn (.read want)).removed = data :=
      htakes.removed_eq (.inr ⟨want, rfl⟩) rfl
    exact ⟨_, rfl, hremoved ▸ htakes, hremoved ▸ hmoves⟩
  | pollRead =>
    obtain ⟨data, htakes, hmoves, -⟩ := w.pollRead_takes hx
    have hremoved : (w.turn .pollRead).removed = data := htakes.removed_eq (.inl rfl) rfl
    exact ⟨_, rfl, hremoved ▸ htakes, hremoved ▸ hmoves⟩
  | _ => cases hx

/-- Whether the call puts bytes in, or gets on with a write that does. -/
def Puts (call : Call) : Prop :=
  (∃ data, call = .write data) ∨ (∃ data, call = .writeAll data) ∨
    call = .pollWrite ∧ w.writing ≠ none

/-- Every call but that of closing moves bytes in one direction at most, and none but those that
write put any in. -/
theorem turn_moves (call : Call) (hcall : call ≠ .close) :
    Moves w.buffer (w.turn call).accepted (w.turn call).removed (w.turn call).after.buffer ∧
      ((w.turn call).accepted = [] ∨ w.Puts call) := by
  suffices h : ∃ piece, Moves w.buffer piece (w.turn call).removed (w.turn call).after.buffer ∧
      (piece = [] ∨ w.Puts call) by
    obtain ⟨piece, hmoves, hputs⟩ := h
    have haccepted : (w.turn call).accepted = piece := hmoves.accepted_eq
    rw [haccepted]
    exact ⟨hmoves, hputs⟩
  cases call with
  | write data =>
    simp only [turn, serve, Turn.removed]
    obtain ⟨-, -, hmoves, -⟩ | ⟨-, e, hw⟩ := w.write_cases data
    · exact ⟨data, hmoves, .inr (.inl ⟨data, rfl⟩)⟩
    · rw [hw]
      exact ⟨[], .kept, .inl rfl⟩
  | writeAll data =>
    obtain ⟨piece, -, hmoves, -⟩ := w.writeAll_putsIn data
    exact ⟨piece, hmoves, .inr (.inr (.inl ⟨data, rfl⟩))⟩
  | pollWrite =>
    cases hw : w.writing with
    | none =>
      simp only [turn, serve, w.pollWrite_idle hw, Turn.removed]
      exact ⟨[], .kept, .inl rfl⟩
    | some data =>
      obtain ⟨piece, -, hmoves, -⟩ := w.pollWrite_putsIn hw
      exact ⟨piece, hmoves, .inr (.inr (.inr ⟨rfl, by simp [hw]⟩))⟩
  | dropWrite => exact ⟨[], w.dropWrite_keeps.1.symm ▸ .kept, .inl rfl⟩
  | read want =>
    obtain ⟨-, -, -, hmoves⟩ := w.turn_takes (.read want) rfl
    exact ⟨[], hmoves, .inl rfl⟩
  | pollRead =>
    cases hr : w.reading with
    | none =>
      simp only [turn, serve, w.pollRead_idle hr, Turn.removed]
      exact ⟨[], .kept, .inl rfl⟩
    | some want =>
      obtain ⟨-, -, -, hmoves⟩ := w.turn_takes .pollRead hr
      exact ⟨[], hmoves, .inl rfl⟩
  | dropRead => exact ⟨[], w.dropRead_keeps.1.symm ▸ .kept, .inl rfl⟩
  | peek offset count => exact ⟨[], .kept, .inl rfl⟩
  | discard count =>
    simp only [turn, serve, discard, Turn.removed]
    cases hd : w.buffer.discard count with
    | error e => exact ⟨[], .kept, .inl rfl⟩
    | ok b => exact ⟨[], Buffer.discard_moves hd, .inl rfl⟩
  | close => exact absurd rfl hcall

/-! ## Calls under way -/

/-- What a piecewise write has still to put in. -/
def Piecewise.rest (x : Piecewise) : Bytes := x.data.drop x.put.length

/-- The write under way, as the calls tell it, is the one that the buffer knows. -/
structure Follows (x : Option Piecewise) (writing : Option Bytes) : Prop where
  rest_eq : writing = x.map Piecewise.rest
  put_le : ∀ y, x = some y → y.put <+: y.data

theorem Follows.data_eq {x : Piecewise} {writing : Option Bytes} (h : Follows (some x) writing) :
    writing = some x.rest ∧ x.data = x.put ++ x.rest := by
  obtain ⟨rest, hrest⟩ := h.put_le x rfl
  refine ⟨h.rest_eq, ?_⟩
  rw [Piecewise.rest, ← hrest, List.drop_left]

/-- Likewise a turn that gets on with a write is an attempt at the rest of it. -/
theorem turn_putsIn {u : Option Piecewise} {x : Piecewise} {call : Call}
    (hf : Follows u w.writing) (hx : (w.turn call).writes u = some x) :
    x.data = x.put ++ x.rest ∧ ∃ answer, (w.turn call).reply = .unit answer ∧
      PutsIn w.buffer x.rest (w.turn call).accepted (w.turn call).after.writing answer := by
  cases call with
  | writeAll data =>
    cases hx
    obtain ⟨piece, hputs, hmoves, -⟩ := w.writeAll_putsIn data
    have haccepted : (w.turn (.writeAll data)).accepted = piece := hmoves.accepted_eq
    exact ⟨rfl, _, rfl, haccepted ▸ hputs⟩
  | pollWrite =>
    cases (show u = some x from hx)
    obtain ⟨hwriting, hdata⟩ := hf.data_eq
    obtain ⟨piece, hputs, hmoves, -⟩ := w.pollWrite_putsIn hwriting
    have haccepted : (w.turn .pollWrite).accepted = piece := hmoves.accepted_eq
    exact ⟨hdata, _, rfl, haccepted ▸ hputs⟩
  | _ => cases hx

section Left

variable {t : Turn}

theorem writeLeft_pending {u : Option Piecewise} {x : Piecewise} (hx : t.writes u = some x)
    (hreply : t.reply = .unit .pending) :
    t.writeLeft u = some { x with put := x.put ++ t.accepted } := by
  unfold Turn.writeLeft
  rw [hreply, hx]
  unfold Turn.writes at hx
  cases hcall : t.call <;> rw [hcall] at hx <;> first | rfl | cases hx

theorem writeLeft_done {u : Option Piecewise} {x : Piecewise} {result : Except StreamError Unit}
    (hx : t.writes u = some x) (hreply : t.reply = .unit (.done result)) :
    t.writeLeft u = none := by
  unfold Turn.writeLeft
  rw [hreply]
  unfold Turn.writes at hx
  cases hcall : t.call <;> rw [hcall] at hx <;> first | rfl | cases hx

end Left

theorem Follows.ended : Follows none none := ⟨rfl, by simp⟩

/-- A suspended attempt leaves what it did not put in, and every other attempt ends the write. -/
theorem PutsIn.follows {b : Buffer} {data piece : Bytes} {left : Option Bytes}
    {answer : Answer Unit} (h : PutsIn b data piece left answer) {t : Turn} {u : Option Piecewise}
    {x : Piecewise} (hx : t.writes u = some x) (hreply : t.reply = .unit answer)
    (haccepted : t.accepted = piece) (hdata : x.data = x.put ++ data) :
    Follows (t.writeLeft u) left := by
  cases h with
  | finished => exact writeLeft_done hx hreply ▸ .ended
  | @suspended piece rest split =>
    rw [writeLeft_pending hx hreply, haccepted]
    have hput : x.data = x.put ++ piece ++ rest := by rw [hdata, split, List.append_assoc]
    refine ⟨?_, ?_⟩
    · rw [Option.map_some, Piecewise.rest, hput, List.drop_left]
    · rintro _ ⟨⟩
      exact ⟨rest, hput.symm⟩
  | refused _ => exact writeLeft_done hx hreply ▸ .ended

theorem Follows.turn {u : Option Piecewise} (call : Call) (hf : Follows u w.writing) :
    Follows ((w.turn call).writeLeft u) (w.turn call).after.writing := by
  cases hx : (w.turn call).writes u with
  | some x =>
    obtain ⟨hdata, answer, hreply, hputs⟩ := w.turn_putsIn hf hx
    exact hputs.follows hx hreply rfl hdata
  | none =>
    cases call with
    | writeAll data => cases hx
    | pollWrite =>
      cases (show u = none from hx)
      simp only [WaitingBuffer.turn, serve, w.pollWrite_idle hf.rest_eq]
      exact ⟨hf.rest_eq, by simp [Turn.writeLeft]⟩
    | dropWrite => exact w.dropWrite_keeps.2.1.symm ▸ .ended
    | write data =>
      have hsame : (w.write data).1.writing = w.writing := by
        unfold write
        split <;> rfl
      exact hsame ▸ hf
    | read want =>
      obtain ⟨data, -, -, hsame⟩ := w.read_takes want
      exact hsame ▸ hf
    | pollRead =>
      cases hr : w.reading with
      | none =>
        simp only [WaitingBuffer.turn, serve, w.pollRead_idle hr]
        exact hf
      | some want =>
        obtain ⟨data, -, -, hsame⟩ := w.pollRead_takes hr
        exact hsame ▸ hf
    | dropRead => exact w.dropRead_keeps.2.2.symm ▸ hf
    | peek offset count => exact hf
    | discard count =>
      have hsame : (w.discard count).1.writing = w.writing := by
        unfold discard
        split <;> rfl
      exact hsame ▸ hf
    | close => exact hf

/-- A suspended attempt goes on wanting the same, and every other attempt ends the read. -/
theorem Takes.left_eq {b : Buffer} {want : Want} {data : Bytes} {left : Option Want}
    {answer : Answer Bytes} (h : Takes b want data left answer) {t : Turn} {u : Option Want}
    (hx : t.reads u = some want) (hreply : t.reply = .bytes answer) : left = t.readLeft u := by
  unfold Turn.readLeft
  rw [hreply, hx]
  unfold Turn.reads at hx
  cases hcall : t.call <;> rw [hcall] at hx <;> first | cases h <;> rfl | cases hx

theorem turn_reading (call : Call) :
    (w.turn call).after.reading = (w.turn call).readLeft w.reading := by
  cases hx : (w.turn call).reads w.reading with
  | some want =>
    obtain ⟨answer, hreply, htakes, -⟩ := w.turn_takes call hx
    exact htakes.left_eq hx hreply
  | none =>
    cases call with
    | read want => cases hx
    | pollRead =>
      have hr : w.reading = none := hx
      simp only [turn, serve, w.pollRead_idle hr, Turn.readLeft]
      exact hr
    | dropRead => exact w.dropRead_keeps.2.1
    | write data =>
      show (w.write data).1.reading = w.reading
      unfold write
      split <;> rfl
    | writeAll data =>
      obtain ⟨piece, -, -, hsame⟩ := w.writeAll_putsIn data
      exact hsame
    | pollWrite =>
      show w.pollWrite.1.reading = w.reading
      cases hw : w.writing with
      | none => rw [w.pollWrite_idle hw]
      | some data =>
        obtain ⟨piece, -, -, hsame⟩ := w.pollWrite_putsIn hw
        exact hsame
    | dropWrite => exact w.dropWrite_keeps.2.2
    | peek offset count => rfl
    | discard count =>
      show (w.discard count).1.reading = w.reading
      unfold discard
      split <;> rfl
    | close => rfl

/-! ## Runs -/

theorem run_append (calls calls' : List Call) :
    w.run (calls ++ calls') = (w.run calls).run calls' :=
  List.foldl_append

theorem turns_append (calls calls' : List Call) :
    w.turns (calls ++ calls') = w.turns calls ++ (w.run calls).turns calls' := by
  induction calls generalizing w with
  | nil => rfl
  | cons call calls ih =>
    have hih := ih (w.serve call).1
    rw [List.cons_append, turns, hih]
    rfl

/-- Each turn is a call on the buffer to which the calls before it have led. -/
theorem turns_split {calls : List Call} {h₁ h₂ : Turns} {t : Turn}
    (h : w.turns calls = h₁ ++ t :: h₂) :
    ∃ calls₁ call, h₁ = w.turns calls₁ ∧ t = (w.run calls₁).turn call := by
  induction calls generalizing w h₁ with
  | nil => simp [turns] at h
  | cons call calls ih =>
    cases h₁ with
    | nil =>
      obtain ⟨ht, -⟩ := List.cons.inj h
      exact ⟨[], call, rfl, ht.symm⟩
    | cons t₁ h₁ =>
      obtain ⟨rfl, htail⟩ := List.cons.inj h
      obtain ⟨calls₁, call', rfl, rfl⟩ := ih _ htail
      exact ⟨call :: calls₁, call', rfl, rfl⟩

/-- What holds of no turns and is kept by one more call holds of every run. -/
theorem turns_induction {P : Turns → WaitingBuffer → Prop} {w₀ : WaitingBuffer} (h₀ : P [] w₀)
    (call : ∀ h w call, P h w → P (h ++ [w.turn call]) (w.turn call).after)
    (calls : List Call) : P (w₀.turns calls) (w₀.run calls) := by
  induction calls using List.reverseRecOn with
  | nil => exact h₀
  | append_singleton calls last ih =>
    rw [turns_append, run_append]
    exact call _ _ last ih

namespace Turns

variable (h : Turns) (t : Turn)

theorem accepted_concat : accepted (h ++ [t]) = h.accepted ++ t.accepted := by
  simp [accepted]

theorem removed_concat : removed (h ++ [t]) = h.removed ++ t.removed := by
  simp [removed]

theorem closes_concat : Closes (h ++ [t]) ↔ h.Closes ∨ t.call = .close := by
  simp [Closes, or_and_right, exists_or]

theorem writing_concat : writing (h ++ [t]) = t.writeLeft h.writing := by
  simp [writing]

theorem reading_concat : reading (h ++ [t]) = t.readLeft h.reading := by
  simp [reading]

end Turns

/-- How the turn `t` goes that follows the turns `h`. -/
structure Lawful (h : Turns) (t : Turn) : Prop where
  /-- Only what is written is put in. -/
  source : t.accepted ≠ [] →
    (∃ data, t.call = .write data) ∨ ∃ x, t.writes h.writing = some x
  /-- A write puts in all of its data, or none if the buffer was closed or has no room for them. -/
  write : ∀ data, t.call = .write data →
    ¬ h.Closes ∧ t.before.buffer.fits data.length ∧
        t.reply = .unit (.done (.ok ())) ∧ t.accepted = data ∨
      (h.Closes ∨ t.before.buffer.fits data.length = false) ∧
        (∃ e, t.reply = .unit (.done (.error e))) ∧ t.accepted = []
  /-- A piecewise write has put in a prefix of its data, and all of it if it succeeds.  It fails
  only because the buffer was closed. -/
  writeAll : ∀ x, t.writes h.writing = some x → x.put ++ t.accepted <+: x.data ∧
    (t.reply = .unit (.done (.ok ())) → x.put ++ t.accepted = x.data) ∧
    ∀ e, t.reply = .unit (.done (.error e)) → e = .closed ∧ h.Closes
  /-- A read takes the front of the buffer, as much as it wants, and fails with Closed only if the
  buffer was closed and holds too little for it. -/
  read : ∀ want, t.reads h.reading = some want →
    (∀ data, t.reply = .bytes (.done (.ok data)) →
      data = t.before.buffer.bytes.take want.most ∧
        (want.Lacks t.before.buffer.length → want.most = 0)) ∧
    (t.reply = .bytes (.done (.error .closed)) →
      h.Closes ∧ want.Lacks t.before.buffer.length)
  /-- A read that waits and a call that is dropped leave the buffer as it is. -/
  kept : t.reply = .bytes .pending ∨ t.call = .dropRead ∨ t.call = .dropWrite →
    t.after.buffer = t.before.buffer
  /-- A read begins to wait only if it cannot be served, a piecewise write only in a full buffer. -/
  waits : (∀ want, t.call = .read want → t.reply = .bytes .pending →
      want.Lacks t.before.buffer.length ∧ ¬ h.Closes) ∧
    ∀ data, t.call = .writeAll data → t.reply = .unit .pending → t.after.buffer.available = 0
  /-- A call that was answered or dropped does not go on. -/
  idle : t.call = .pollWrite ∧ h.writing = none ∨ t.call = .pollRead ∧ h.reading = none →
    t.after = t.before
  /-- A peek changes nothing and answers what it addresses.  The condition excludes only a range
  that ends beyond the largest byte count, in a buffer that is as long. -/
  peek : ∀ offset count, t.call = .peek offset count → t.after = t.before ∧
    (offset + count ≤ Buffer.maxCount ∨ t.before.buffer.length < Buffer.maxCount →
      t.reply = .bytes (.done
        (if offset + count ≤ t.before.buffer.length then
          .ok ((t.before.buffer.bytes.drop offset).take count)
        else
          .error (.notEnough (min (offset + count) Buffer.maxCount) t.before.buffer.length))))
  /-- A buffer that was closed takes nothing more. -/
  closed : h.Closes → t.accepted = []

/-- The buffer `b` after the turns `h`, with no bytes at the start. -/
structure Fifo (capacity : Option Nat) (h : Turns) (b : Buffer) : Prop where
  /-- What was taken is what was removed and behind it what is held. -/
  conserved : h.accepted = h.removed ++ b.bytes
  length_le : ∀ n, capacity = some n → b.length ≤ n
  /-- The piecewise write under way has put in a prefix of its data. -/
  put_le : ∀ x, h.writing = some x → x.put <+: x.data
  lawful : ∀ h₁ t h₂, h = h₁ ++ t :: h₂ → Lawful h₁ t

/-- What the calls tell of a run agrees with the buffer that it leads to. -/
structure Sound (capacity : Option Nat) (h : Turns) (w : WaitingBuffer) : Prop where
  conserved : h.accepted = h.removed ++ w.buffer.bytes
  bounded : ∀ n, capacity = some n → w.buffer.Bounded n
  closed_iff : w.buffer.closed ↔ h.Closes
  reading : w.reading = h.reading
  writing : Follows h.writing w.writing

namespace Sound

variable {capacity : Option Nat} {h : Turns} {w}

theorem ofBuffer (capacity : Option Nat) : Sound capacity [] (.ofBuffer { capacity }) where
  conserved := rfl
  bounded := by
    rintro n rfl
    exact Buffer.bounded_empty n
  closed_iff := by simp [Turns.Closes, WaitingBuffer.ofBuffer]
  reading := rfl
  writing := .ended

theorem turn (hs : Sound capacity h w) (call : Call) :
    Sound capacity (h ++ [w.turn call]) (w.turn call).after := by
  have hreading : (w.turn call).after.reading = Turns.reading (h ++ [w.turn call]) := by
    rw [Turns.reading_concat, ← hs.reading, turn_reading]
  have hwriting : Follows (Turns.writing (h ++ [w.turn call])) (w.turn call).after.writing := by
    rw [Turns.writing_concat]
    exact hs.writing.turn w call
  by_cases hcall : call = .close
  · subst hcall
    refine ⟨?_, fun n hn => ?_, ?_, hreading, hwriting⟩
    · have haccepted : (w.turn .close).accepted = [] := List.drop_length
      rw [Turns.accepted_concat, haccepted, List.append_nil, Turns.removed_concat, hs.conserved]
      exact (congrArg (· ++ _) (List.append_nil _)).symm
    · exact ⟨(hs.bounded n hn).capacity, (hs.bounded n hn).length_le⟩
    · rw [Turns.closes_concat]
      exact ⟨fun _ => .inr rfl, fun _ => rfl⟩
  · have hmoves := (w.turn_moves call hcall).1
    refine ⟨?_, fun n hn => hmoves.bounded (hs.bounded n hn), ?_, hreading, hwriting⟩
    · rw [Turns.accepted_concat, Turns.removed_concat, hs.conserved, List.append_assoc,
        List.append_assoc, hmoves.conserved]
    · rw [Turns.closes_concat, hmoves.closed_eq, hs.closed_iff]
      exact ⟨.inl, fun hor => hor.resolve_right hcall⟩

theorem lawful (hs : Sound capacity h w) (call : Call) : Lawful h (w.turn call) where
  source := by
    intro hne
    have hcall : call ≠ .close := by
      rintro rfl
      exact hne List.drop_length
    obtain hwrite | ⟨data, rfl⟩ | ⟨rfl, hsome⟩ := (w.turn_moves call hcall).2.resolve_left hne
    · exact .inl hwrite
    · exact .inr ⟨⟨data, []⟩, rfl⟩
    · rw [hs.writing.rest_eq, Ne, Option.map_eq_none_iff, ← Ne, Option.ne_none_iff_exists'] at hsome
      exact .inr hsome
  write := by
    rintro data hcall
    cases (show call = .write data from hcall)
    rw [← hs.closed_iff]
    obtain ⟨hopen, hfits, hmoves, hok⟩ | ⟨hrefused, e, hw⟩ := w.write_cases data
    · exact .inl ⟨by simp [hopen], hfits, congrArg (fun r => Reply.unit (.done r)) hok,
        hmoves.accepted_eq⟩
    · have hreply : (w.turn (.write data)).reply = .unit (.done (.error e)) :=
        congrArg (fun r : WaitingBuffer × _ => Reply.unit (.done r.2)) hw
      have hafter : (w.turn (.write data)).after = w := congrArg Prod.fst hw
      refine .inr ⟨hrefused, ⟨e, hreply⟩, ?_⟩
      rw [Turn.accepted, hafter]
      exact List.drop_length
  writeAll := by
    intro x hx
    obtain ⟨hdata, answer, hreply, hputs⟩ := w.turn_putsIn hs.writing hx
    obtain ⟨hfront, hall, hfails⟩ := hputs.progress
    rw [hreply, ← hs.closed_iff]
    refine ⟨?_, fun hok => ?_, fun e herror => hfails e (Reply.unit.inj herror)⟩
    · rw [hdata]
      exact (List.prefix_append_right_inj _).mpr hfront
    · rw [hall (Reply.unit.inj hok), ← hdata]
  read := by
    intro want hx
    rw [← hs.reading] at hx
    obtain ⟨answer, hreply, htakes, -⟩ := w.turn_takes call hx
    obtain ⟨hserved, hended, -⟩ := htakes.answer_eq
    rw [hreply, ← hs.closed_iff]
    exact ⟨fun data hok => hserved data (Reply.bytes.inj hok),
      fun herror => hended (Reply.bytes.inj herror)⟩
  kept := by
    rintro (hpending | hcall | hcall)
    · cases hx : (w.turn call).reads w.reading with
      | some want =>
        obtain ⟨answer, hreply, htakes, hmoves⟩ := w.turn_takes call hx
        rw [hreply] at hpending
        exact hmoves.eq_self rfl (htakes.answer_eq.2.2 (Reply.bytes.inj hpending))
      | none =>
        cases call with
        | read want => cases hx
        | pollRead =>
          rw [show (w.turn .pollRead).reply = .bytes w.pollRead.2 from rfl,
            w.pollRead_idle hx] at hpending
          cases hpending
        | _ => cases hpending
    · cases (show call = .dropRead from hcall)
      exact w.dropRead_keeps.1
    · cases (show call = .dropWrite from hcall)
      exact w.dropWrite_keeps.1
  waits := by
    refine ⟨?_, ?_⟩
    · rintro want hcall hpending
      cases (show call = .read want from hcall)
      rw [← hs.closed_iff, Bool.not_eq_true]
      exact w.read_pending (Reply.bytes.inj hpending)
    · rintro data hcall hpending
      cases (show call = .writeAll data from hcall)
      exact w.dropWrite.tryWrite_pending (Reply.unit.inj hpending)
  idle := by
    rintro (⟨hcall, hnone⟩ | ⟨hcall, hnone⟩)
    · cases (show call = .pollWrite from hcall)
      have hw : w.writing = none := by rw [hs.writing.rest_eq, hnone]; rfl
      exact congrArg Prod.fst (w.pollWrite_idle hw)
    · cases (show call = .pollRead from hcall)
      exact congrArg Prod.fst (w.pollRead_idle (hs.reading.trans hnone))
  peek := by
    rintro offset count hcall
    cases (show call = .peek offset count from hcall)
    exact ⟨rfl, fun hbound => congrArg (fun r => Reply.bytes (.done r)) (Buffer.peek_eq hbound)⟩
  closed := by
    intro hcloses
    by_cases hcall : call = .close
    · subst hcall
      exact List.drop_length
    · exact (w.turn_moves call hcall).1.eq_nil_of_closed (hs.closed_iff.mpr hcloses)

end Sound

theorem sound_run (capacity : Option Nat) (calls : List Call) :
    Sound capacity ((ofBuffer { capacity }).turns calls) ((ofBuffer { capacity }).run calls) :=
  turns_induction (.ofBuffer capacity) (fun _ _ call hs => hs.turn call) calls

/-- In every run a shared buffer is a lossless bounded queue. -/
theorem fifo_run (capacity : Option Nat) (calls : List Call) :
    Fifo capacity ((ofBuffer { capacity }).turns calls)
      ((ofBuffer { capacity }).run calls).buffer := by
  have hs := sound_run capacity calls
  refine ⟨hs.conserved, fun n hn => (hs.bounded n hn).length_le, hs.writing.put_le, ?_⟩
  intro h₁ t h₂ hsplit
  obtain ⟨calls₁, call, rfl, rfl⟩ := turns_split _ hsplit
  exact (sound_run capacity calls₁).lawful call

/-- A piecewise write that is dropped with one byte left, and a read that takes what the others have
left in a closed buffer. -/
example :
    let h := (ofBuffer { capacity := some 2 }).turns
      [.writeAll [1, 2, 3, 4], .read (.upTo 1), .pollWrite, .dropWrite, .close, .write [5],
        .read (.exactly 3), .read (.upTo 5)]
    h.accepted = [1, 2, 3] ∧ h.removed = [1, 2, 3] := by
  decide +kernel

end WaitingBuffer

end TcpGateway
