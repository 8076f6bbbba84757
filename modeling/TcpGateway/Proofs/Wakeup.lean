import TcpGateway.Proofs.Fifo

/-!
# No wake-up is lost

A call that waits at a shared buffer sleeps until it is woken, so whatever makes its request
possible has to wake it.  The invariant `Alert` says of each side where its call stands
(`Signal.Guards`): it is woken, or it is suspended and then stuck, that is, the buffer cannot serve
it and is not closed.

Two facts about signals carry everything.  After a notification nobody is suspended, so it excuses
any change to the buffer (`Guards.notify`); and without one the buffer may only change in a
direction that leaves the call stuck (`Guards.mono`).  Stored permits play no part in this, because
an attempt suspends only after it has looked at the buffer and used the permit up.
-/

namespace TcpGateway

namespace Signal

/-- Where the call that waits at a signal stands, if one is under way: one that is suspended is
stuck. -/
inductive Guards (stuck : Prop) : (underWay : Bool) → Signal → Prop
  | idle {permit : Bool} : Guards stuck false ⟨.none, permit⟩
  | woken {permit : Bool} : Guards stuck true ⟨.woken, permit⟩
  | suspended {permit : Bool} (held : stuck) : Guards stuck true ⟨.suspended, permit⟩

namespace Guards

variable {stuck stuck' : Prop} {underWay : Bool} {s : Signal}

theorem mono (h : Guards stuck underWay s) (himp : stuck → stuck') : Guards stuck' underWay s := by
  cases h with
  | idle => exact .idle
  | woken => exact .woken
  | suspended held => exact .suspended (himp held)

/-- After a notification no call is suspended. -/
theorem notify (h : Guards stuck underWay s) : Guards stuck' underWay s.notify := by
  cases h with
  | idle => exact .idle
  | woken => exact .woken
  | suspended held => exact .woken

/-- After a notification or a change that leaves the call stuck. -/
theorem notify_if {condition : Prop} [Decidable condition] (h : Guards stuck underWay s)
    (himp : ¬ condition → stuck → stuck') :
    Guards stuck' underWay (if condition then s.notify else s) := by
  by_cases hc : condition
  · rw [if_pos hc]
    exact h.notify
  · rw [if_neg hc]
    exact h.mono (himp hc)

theorem abandon (h : Guards stuck underWay s) : Guards stuck' false s.abandon := by
  cases h with
  | idle => exact .idle
  | woken => exact .idle
  | suspended held => exact .idle

theorem wait_eq_none (h : Guards stuck false s) : s.wait = .none := by
  cases h
  rfl

theorem of_wait_eq_none (h : s.wait = .none) : Guards stuck false s := by
  obtain ⟨wait, permit⟩ := s
  cases h
  exact .idle

/-- A call under way that is not woken is stuck. -/
theorem stuck_of_ne_woken (h : Guards stuck true s) (hwait : s.wait ≠ .woken) :
    s.wait = .suspended ∧ stuck := by
  cases h with
  | woken => exact absurd rfl hwait
  | suspended held => exact ⟨rfl, held⟩

end Guards

end Signal

namespace Buffer

theorem IsFull.append {b : Buffer} (h : b.IsFull) (piece : Bytes) :
    IsFull { b with bytes := b.bytes ++ piece } := by
  obtain ⟨capacity, hcapacity, hroom⟩ := h
  refine ⟨capacity, hcapacity, ?_⟩
  simp only [available, length, hcapacity, List.length_append] at hroom ⊢
  omega

theorem Want.Lacks.mono {w : Want} {n m : Nat} (h : w.Lacks n) (hle : m ≤ n) : w.Lacks m := by
  cases w with
  | upTo limit => exact Nat.eq_zero_of_le_zero (Nat.le_trans hle (Nat.le_of_eq h))
  | exactly count => exact Nat.lt_of_le_of_lt hle h

end Buffer

/-- What an acknowledgment releases is discarded. -/
theorem Downlink.acknowledge_discards {d d' : Downlink} {ack : SeqNum} {released : Nat}
    (h : d.acknowledge ack = .ok (d', released)) : d.buffer.discard released = .ok d'.buffer := by
  simp only [acknowledge] at h
  split at h
  · split at h
    · cases h
    · split at h
      · rename_i hdiscard
        cases h
        exact hdiscard
      · cases h
  · cases h
    exact if_neg (Nat.not_lt_zero _)

namespace WaitingBuffer

open Buffer (Want)

/-- No attempt at the read under way would get anywhere. -/
def ReadStuck (b : Buffer) (reading : Option Want) : Prop :=
  ∀ want, reading = some want → want.Lacks b.length ∧ b.closed = false

/-- No attempt at a piecewise write would get anywhere. -/
def WriteStuck (b : Buffer) : Prop := b.IsFull ∧ b.closed = false

theorem ReadStuck.mono {b b' : Buffer} {reading : Option Want} (h : ReadStuck b reading)
    (hlen : b'.length ≤ b.length) (hclosed : b'.closed = b.closed) : ReadStuck b' reading := by
  intro want hwant
  obtain ⟨hlacks, hopen⟩ := h want hwant
  exact ⟨hlacks.mono hlen, hclosed.trans hopen⟩

/-- The calls under way that are suspended are stuck. -/
structure Alert (w : WaitingBuffer) : Prop where
  reader : w.readable.Guards (ReadStuck w.buffer w.reading) w.reading.isSome
  writer : w.writable.Guards (WriteStuck w.buffer) w.writing.isSome

theorem Alert.ofBuffer (b : Buffer) : Alert (.ofBuffer b) := ⟨.idle, .idle⟩

variable {w : WaitingBuffer}

/-! ## Reads -/

/-- An attempt at a read that nobody waits for any more keeps both sides alert: it takes bytes and
wakes the writer, or changes nothing in the buffer. -/
theorem alert_tryRead (hreader : w.readable.wait = .none)
    (hwriter : w.writable.Guards (WriteStuck w.buffer) w.writing.isSome) (want : Want) :
    Alert (w.tryRead want).1 := by
  cases ht : w.buffer.take want with
  | error e =>
    rw [tryRead, ht]
    exact ⟨.of_wait_eq_none hreader, hwriter⟩
  | ok taken =>
    cases taken with
    | some r =>
      rw [tryRead, ht]
      exact ⟨.of_wait_eq_none hreader, hwriter.notify⟩
    | none =>
      have hpending : (w.tryRead want).2 = .pending := by rw [tryRead, ht]
      obtain ⟨hlacks, hopen⟩ := w.tryRead_pending hpending
      rw [tryRead, ht]
      refine ⟨.suspended ?_, hwriter⟩
      rintro _ ⟨⟩
      exact ⟨hlacks, hopen⟩

theorem Alert.dropRead (h : Alert w) :
    w.dropRead.readable.wait = .none ∧ Alert w.dropRead := by
  have hreader := h.reader
  unfold WaitingBuffer.dropRead
  split
  · rename_i hnone
    rw [hnone] at hreader
    exact ⟨hreader.wait_eq_none, h⟩
  · have habandoned : w.readable.abandon.Guards (ReadStuck w.buffer none) false :=
      hreader.abandon
    exact ⟨habandoned.wait_eq_none, habandoned, h.writer⟩

theorem Alert.read (h : Alert w) (want : Want) : Alert (w.read want).1 := by
  obtain ⟨hidle, hdropped⟩ := h.dropRead
  unfold WaitingBuffer.read
  split
  · exact hdropped
  · exact alert_tryRead hidle hdropped.writer want

theorem Alert.pollRead (h : Alert w) : Alert w.pollRead.1 := by
  unfold WaitingBuffer.pollRead
  split
  · exact h
  · split
    · exact alert_tryRead (w := { w with readable.wait := .none }) rfl h.writer _
    · exact h

/-! ## Writes -/

/-- Likewise an attempt at a piecewise write.  Bytes that it puts in wake the reader, and what is
left over has found the buffer full. -/
theorem alert_tryWrite (hwriter : w.writable.wait = .none)
    (hreader : w.readable.Guards (ReadStuck w.buffer w.reading) w.reading.isSome)
    (data : Bytes) : Alert (w.tryWrite data).1 := by
  unfold tryWrite
  split
  · exact ⟨hreader, .of_wait_eq_none hwriter⟩
  · cases hw : w.buffer.writeSome data with
    | error e => exact ⟨hreader, .of_wait_eq_none hwriter⟩
    | ok r =>
      obtain ⟨b, rest⟩ := r
      obtain ⟨piece, hdata, hb, -⟩ := Buffer.writeSome_eq_ok hw
      -- without a byte put in the buffer is as it was
      have hsame : ¬ rest.length < data.length → ReadStuck w.buffer w.reading →
          ReadStuck b w.reading := by
        intro hnot hstuck
        have hpiece : piece = [] := by
          rw [hdata, List.length_append] at hnot
          exact List.eq_nil_of_length_eq_zero (by omega)
        subst hb hpiece
        exact hstuck.mono (by simp [Buffer.length]) rfl
      have hwoken := hreader.notify_if hsame
      by_cases hrest : rest = []
      · subst hrest
        exact ⟨hwoken, .of_wait_eq_none hwriter⟩
      · have hstuck := Buffer.isFull_of_writeSome hw hrest
        simp only [List.isEmpty_iff, if_neg hrest]
        exact ⟨hwoken, .suspended hstuck⟩

theorem Alert.dropWrite (h : Alert w) :
    w.dropWrite.writable.wait = .none ∧ Alert w.dropWrite := by
  have hwriter := h.writer
  unfold WaitingBuffer.dropWrite
  split
  · rename_i hnone
    rw [hnone] at hwriter
    exact ⟨hwriter.wait_eq_none, h⟩
  · have habandoned : w.writable.abandon.Guards (WriteStuck w.buffer) false := hwriter.abandon
    exact ⟨habandoned.wait_eq_none, h.reader, habandoned⟩

theorem Alert.writeAll (h : Alert w) (data : Bytes) : Alert (w.writeAll data).1 := by
  obtain ⟨hidle, hdropped⟩ := h.dropWrite
  exact alert_tryWrite hidle hdropped.reader data

theorem Alert.pollWrite (h : Alert w) : Alert w.pollWrite.1 := by
  unfold WaitingBuffer.pollWrite
  split
  · exact h
  · split
    · exact alert_tryWrite (w := { w with writable.wait := .none }) rfl h.reader _
    · exact h

/-! ## Calls that never wait -/

/-- A write that puts bytes in wakes the reader, and leaves a full buffer full. -/
theorem Alert.write (h : Alert w) (data : Bytes) : Alert (w.write data).1 := by
  unfold WaitingBuffer.write
  cases hw : w.buffer.write data with
  | error e => exact h
  | ok b =>
    obtain ⟨rfl, -⟩ := Buffer.write_eq_ok hw
    refine ⟨?_, h.writer.mono fun hstuck => ⟨hstuck.1.append data, hstuck.2⟩⟩
    by_cases hdata : data = []
    · subst hdata
      exact h.reader.mono fun hstuck => hstuck.mono (by simp [Buffer.length]) rfl
    · simp only [List.isEmpty_iff, if_neg hdata]
      exact h.reader.notify

/-- Bytes that are discarded wake the writer, and leave a reader that lacks bytes lacking them. -/
theorem Alert.discard (h : Alert w) (count : Nat) : Alert (w.discard count).1 := by
  unfold WaitingBuffer.discard
  cases hd : w.buffer.discard count with
  | error e => exact h
  | ok b =>
    obtain ⟨rfl, -⟩ := Buffer.discard_eq_ok hd
    refine ⟨h.reader.mono fun hstuck => hstuck.mono (by simp [Buffer.length]) rfl, ?_⟩
    by_cases hcount : count = 0
    · subst hcount
      exact h.writer.mono id
    · simp only [if_neg hcount]
      exact h.writer.notify

theorem Alert.close (h : Alert w) : Alert w.close := ⟨h.reader.notify, h.writer.notify⟩

/-! ## One deed -/

theorem Alert.serve (h : Alert w) (call : Call) : Alert (w.serve call).1 := by
  cases call with
  | write data => exact h.write data
  | writeAll data => exact h.writeAll data
  | pollWrite => exact h.pollWrite
  | dropWrite => exact h.dropWrite.2
  | read want => exact h.read want
  | pollRead => exact h.pollRead
  | dropRead => exact h.dropRead.2
  | peek offset count => exact h
  | discard count => exact h.discard count
  | close => exact h.close

/-- An acknowledgment discards from the shared buffer what it releases from the downlink's. -/
theorem acknowledge_buffer {una nxt ack : SeqNum} {d : Downlink} {released : Nat}
    (h : (Downlink.mk w.buffer una nxt).acknowledge ack = .ok (d, released)) :
    (w.acknowledge una nxt ack).buffer = d.buffer := by
  have hdiscard : w.buffer.discard released = .ok d.buffer := Downlink.acknowledge_discards h
  unfold acknowledge
  rw [h]
  simp only [discard, hdiscard]

theorem Alert.acknowledge (h : Alert w) (una nxt ack : SeqNum) :
    Alert (w.acknowledge una nxt ack) := by
  unfold WaitingBuffer.acknowledge
  split
  · exact h.discard _
  · exact h

theorem Alert.perform (h : Alert w) (deed : Deed) : Alert (w.perform deed) := by
  cases deed with
  | call call => exact h.serve call
  | acknowledge una nxt ack => exact h.acknowledge una nxt ack

/-! ## What a call under way can rely on -/

theorem pollRead_of_woken {want : Want} (hr : w.reading = some want)
    (hwoken : w.readable.wait = .woken) :
    w.pollRead = { w with readable.wait := .none }.tryRead want := by
  simp only [pollRead, hr, hwoken]

theorem pollWrite_of_woken {data : Bytes} (hw : w.writing = some data)
    (hwoken : w.writable.wait = .woken) :
    w.pollWrite = { w with writable.wait := .none }.tryWrite data := by
  simp only [pollWrite, hw, hwoken]

/-- An attempt at a read answers it or has to wait. -/
theorem tryRead_answer (w : WaitingBuffer) (want : Want) :
    (∃ result, (w.tryRead want).2 = .done result) ∨ (w.tryRead want).2 = .pending := by
  unfold tryRead
  split
  · exact .inl ⟨_, rfl⟩
  · exact .inl ⟨_, rfl⟩
  · exact .inr rfl

/-- An attempt at a piecewise write ends it, or fills up a buffer that had room. -/
theorem tryWrite_answer (w : WaitingBuffer) (data : Bytes) :
    (∃ result, (w.tryWrite data).2 = .done result) ∨
      w.buffer.closed = false ∧
        (w.buffer.IsFull ∨ w.buffer.length < (w.tryWrite data).1.buffer.length) := by
  unfold tryWrite
  split
  · exact .inl ⟨_, rfl⟩
  · cases hw : w.buffer.writeSome data with
    | error e => exact .inl ⟨_, rfl⟩
    | ok r =>
      obtain ⟨b, rest⟩ := r
      by_cases hrest : rest = []
      · subst hrest
        exact .inl ⟨_, rfl⟩
      · obtain ⟨hfull, hopen⟩ := Buffer.isFull_of_writeSome hw hrest
        obtain ⟨piece, -, rfl, -⟩ := Buffer.writeSome_eq_ok hw
        simp only [List.isEmpty_iff, if_neg hrest]
        refine .inr ⟨hopen, ?_⟩
        by_cases hpiece : piece = []
        · subst hpiece
          exact .inl (by simpa using hfull)
        · have hpos := List.length_pos_iff.mpr hpiece
          refine .inr ?_
          simp only [Buffer.length, List.length_append]
          omega

/-- No wake-up is lost on the way to the calls under way. -/
structure Wakeful (w : WaitingBuffer) : Prop where
  /-- A read that is suspended and not woken cannot be served, and the buffer is not closed. -/
  reader : ∀ want, w.reading = some want → w.readable.wait ≠ .woken →
    w.readable.wait = .suspended ∧ want.Lacks w.buffer.length ∧ w.buffer.closed = false
  /-- A piecewise write that is suspended and not woken finds no room, and the buffer is not
  closed. -/
  writer : ∀ rest, w.writing = some rest → w.writable.wait ≠ .woken →
    w.writable.wait = .suspended ∧ w.buffer.IsFull ∧ w.buffer.closed = false
  /-- So a read that can be served, or never will be, is answered at the next poll. -/
  pollRead : ∀ want, w.reading = some want →
    ¬ want.Lacks w.buffer.length ∨ w.buffer.closed → ∃ result, w.pollRead.2 = .done result
  /-- Likewise a piecewise write gets on. -/
  pollWrite : ∀ rest, w.writing = some rest → ¬ w.buffer.IsFull ∨ w.buffer.closed →
    (∃ result, w.pollWrite.2 = .done result) ∨
      w.buffer.length < w.pollWrite.1.buffer.length

theorem Alert.wakeful (h : Alert w) : Wakeful w := by
  have hreader : ∀ want, w.reading = some want → w.readable.wait ≠ .woken →
      w.readable.wait = .suspended ∧ want.Lacks w.buffer.length ∧ w.buffer.closed = false := by
    intro want hwant hwait
    have hguards := h.reader
    rw [hwant] at hguards
    obtain ⟨hsuspended, hstuck⟩ := hguards.stuck_of_ne_woken hwait
    exact ⟨hsuspended, hstuck want rfl⟩
  have hwriter : ∀ rest, w.writing = some rest → w.writable.wait ≠ .woken →
      w.writable.wait = .suspended ∧ w.buffer.IsFull ∧ w.buffer.closed = false := by
    intro rest hrest hwait
    have hguards := h.writer
    rw [hrest] at hguards
    exact hguards.stuck_of_ne_woken hwait
  refine ⟨hreader, hwriter, ?_, ?_⟩
  · intro want hwant hable
    by_cases hwoken : w.readable.wait = .woken
    · rw [pollRead_of_woken hwant hwoken]
      refine (tryRead_answer _ want).resolve_right fun hpending => ?_
      obtain ⟨hlacks, hopen⟩ := tryRead_pending _ hpending
      obtain hserved | hclosed := hable
      · exact hserved hlacks
      · exact Bool.eq_false_iff.mp hopen hclosed
    · obtain ⟨-, hlacks, hopen⟩ := hreader want hwant hwoken
      obtain hserved | hclosed := hable
      · exact absurd hlacks hserved
      · exact absurd hclosed (Bool.eq_false_iff.mp hopen)
  · intro rest hrest hable
    by_cases hwoken : w.writable.wait = .woken
    · rw [pollWrite_of_woken hrest hwoken]
      obtain hdone | ⟨hopen, hfull | hmore⟩ :=
        tryWrite_answer { w with writable.wait := .none } rest
      · exact .inl hdone
      · obtain hroom | hclosed := hable
        · exact absurd hfull hroom
        · exact absurd hclosed (Bool.eq_false_iff.mp hopen)
      · exact .inr hmore
    · obtain ⟨-, hfull, hopen⟩ := hwriter rest hrest hwoken
      obtain hroom | hclosed := hable
      · exact absurd hfull hroom
      · exact absurd hclosed (Bool.eq_false_iff.mp hopen)

/-- Whatever happens to a shared buffer, no call sleeps through what it waits for. -/
theorem wakeful_run (capacity : Option Nat) (deeds : List Deed) :
    Wakeful ((ofBuffer { capacity }).performAll deeds) := by
  suffices h : ∀ w, Alert w → Alert (w.performAll deeds) from
    (h _ (.ofBuffer { capacity })).wakeful
  induction deeds with
  | nil => exact fun _ h => h
  | cons deed deeds ih => exact fun w h => ih _ (h.perform deed)

end WaitingBuffer

end TcpGateway
