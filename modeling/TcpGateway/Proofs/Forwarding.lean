import TcpGateway.Proofs.Relaying

/-!
# Every byte is forwarded once, in order

The account of a run is kept by what a relay reads off the stream, the requests, and by the answers
that were read completely.  While a forwarder runs, the account is exact (`Running`): the bytes
taken from the client are those of the requests, and the bytes of the answers are stored, but for
those that the forwarder has in hand.  Once it is over (`Over`), what is missing is the request
whose writing has failed, or the rest of an answer for a closed downlink.

A step adds its entry to the account, and `Does` tells the entry.  The two sides of the stream are
independent of each other (`Asked`, `Answered`), and so is what each of them says of a longer run.
-/

namespace TcpGateway

/-- The bytes of the client in requests. -/
def Request.forwarded (rs : List Request) : Bytes := rs.flatMap fun r => r.payload?.getD []

/-- What a forwarder asks while it runs, with chunks of at most `limit` bytes. -/
inductive Request.Asks (limit : Nat) : Request → Prop
  | read : Asks limit .read
  | exchange {data : Bytes} (some_data : 1 ≤ data.length) (chunk : data.length ≤ limit) :
      Asks limit (.exchange data)

namespace Surroundings

variable (s : Surroundings) (m : Move)

/-- Nothing opens a downlink again. -/
theorem closed_apply (h : s.downlink.closed) : (s.apply m).downlink.closed := by
  cases m with
  | writeUplink data =>
    simp only [apply]
    split <;> exact h
  | discardDownlink count =>
    simp only [apply]
    cases hdiscard : s.downlink.discard count with
    | error e => exact h
    | ok downlink =>
      obtain ⟨rfl, -⟩ := Buffer.discard_eq_ok hdiscard
      exact h
  | closeDownlink => rfl
  | offer e =>
    simp only [apply]
    split <;> exact h
  | takeEvent =>
    simp only [apply]
    split <;> exact h
  | _ => exact h

/-- Nothing opens a mailbox again. -/
theorem deaf_apply (h : s.mailbox.isOpen = false) : (s.apply m).mailbox.isOpen = false := by
  cases m with
  | writeUplink data =>
    simp only [apply]
    split <;> exact h
  | discardDownlink count =>
    simp only [apply]
    split <;> exact h
  | offer e => simp [apply, Mailbox.offer, h]
  | takeEvent =>
    simp only [apply, Mailbox.take?]
    cases s.mailbox.events <;> exact h
  | closeMailbox => rfl
  | _ => exact h

end Surroundings

namespace Forwarder

/-! ## The account -/

/-- The requests `rs` carry the bytes `taken` and stand on the stream `sent`.  Beyond them, `lost`
was taken too, and `cut` is on the stream, of which no request can be read. -/
structure Asked (taken sent : Bytes) (rs : List Request) (lost cut : Bytes) : Prop where
  taken_eq : taken = Request.forwarded rs ++ lost
  sent_eq : sent = rs.flatMap Request.bytes ++ cut
  fits : ∀ r ∈ rs, r.Fits Frame.maxLength
  unreadable : (Request.readAll Frame.maxLength cut).1 = []

/-- The answers `answers` stand on the stream `received`, and behind them `junk`, of which no answer
can be read. -/
structure Answered (limit : Nat) (received : Bytes) (answers : List Bytes) (junk : Bytes) :
    Prop where
  received_eq : received = answers.flatMap Frame.bytes ++ junk
  fits : ∀ a ∈ answers, a.length ≤ limit ∧ a.length ≤ Frame.maxLength
  unreadable : (Frame.readAll limit junk).1 = []

/-- The number of answers that have bytes. -/
def filled (answers : List Bytes) : Nat := answers.countP fun a => !a.isEmpty

/-- What has still to be stored of an answer. -/
@[simp] def Stage.unstored : Stage → Bytes
  | .storing rest => rest
  | _ => []

/-- The number of answers that have bytes and are not announced. -/
@[simp] def Stage.unannounced : Stage → Nat
  | .storing _ => 1
  | .announcing => 1
  | _ => 0

/-- The number of requests that wait for an answer. -/
@[simp] def Stage.unanswered : Stage → Nat
  | .awaiting => 1
  | _ => 0

/-- Whether the forwarder has only to report how it has ended, or has done so. -/
@[simp] def Stage.isOver : Stage → Bool
  | .ending _ => true
  | .done => true
  | _ => false

/-- The account of a run that goes on. -/
structure Running (o : ForwarderOptions) (h : Turns) (f : Forwarder) : Prop where
  asked : Asked h.taken h.sent h.requests [] []
  asks : ∀ r ∈ h.requests, r.Asks o.maxChunk
  answered : Answered o.maxFrameLength h.received (h.answers o.maxFrameLength) []
  inTurn : h.requests.length = (h.answers o.maxFrameLength).length + f.stage.unanswered
  stored : (h.answers o.maxFrameLength).flatten = h.stored ++ f.stage.unstored
  posted : ∃ n, h.posted = List.replicate n .relayData ∧
    n + f.stage.unannounced = filled (h.answers o.maxFrameLength)
  on : f.stage.isOver = false

/-- The request `r` could not be written in the turn `t`, because of `e`. -/
structure Turn.CutOff (o : ForwarderOptions) (t : Turn) (r : Request) (e : RelayError) : Prop where
  asks : r.Asks o.maxChunk ∨ r = .close
  taken : t.entry.taken = r.payload?.getD []
  sent : IsCut t.entry.sent r
  error : WriteError t.found.link.writeFault r e

/-- With which result a forwarder ends in the turn `t`. -/
inductive Ends (o : ForwarderOptions) (t : Turn) : Except RelayError Unit → Prop
  /-- The relay has been told that the client has finished. -/
  | closed (sent : t.entry.sent = Request.close.bytes) : Ends o t (.ok ())
  /-- Nobody listens to the forwarder. -/
  | unheard (stage : t.before.stage = .announcing) (deaf : t.found.mailbox.isOpen = false) :
      Ends o t (.ok ())
  | unwritten {r : Request} {e : RelayError} (cut : t.CutOff o r e) : Ends o t (.error e)
  /-- The stream ends or fails before an answer is there. -/
  | unread {fault : IoFault} (stage : t.before.stage = .awaiting)
      (cut : Frame.read o.maxFrameLength t.found.link.incoming = .cut)
      (fails : t.found.link.readFault = some fault) : Ends o t (.error (.io fault))
  /-- The relay announces an answer above the limit. -/
  | oversized {length : Nat} {rest : Bytes} (stage : t.before.stage = .awaiting)
      (front : t.found.link.incoming = Bytes.ofU32 (UInt32.ofNat length) ++ rest)
      (limit : o.maxFrameLength < length) :
      Ends o t (.error (.frameTooLarge length o.maxFrameLength))
  /-- An answer finds the downlink closed. -/
  | unstored {rest : Bytes} (stage : t.before.stage = .storing rest)
      (is_closed : t.found.downlink.closed) : Ends o t (.error .closed)

/-- The forwarder has only to report the result `result`, or has reported it by the events `last`
if there was still somebody to listen. -/
inductive Reports (m : Mailbox) (result : Except RelayError Unit) : Stage → List Event → Prop
  | ending : Reports m result (.ending (lastEvent result)) []
  | done : Reports m result .done [lastEvent result]
  | unheard (deaf : m.isOpen = false) : Reports m result .done []

/-- The account of a run that is over, with the surroundings as they are now. -/
structure Over (o : ForwarderOptions) (h : Turns) (f : Forwarder) (s : Surroundings) : Prop where
  /-- What was lost of the client belongs to a request that was cut off. -/
  asked : ∃ lost cut, Asked h.taken h.sent h.requests lost cut ∧
    (lost = [] ∧ cut = [] ∨
      ∃ t ∈ h, ∃ r e, t.CutOff o r e ∧ t.entry.taken = lost ∧ t.entry.sent = cut)
  /-- The close request comes at most once, and last. -/
  asks : ∃ rs close, h.requests = rs ++ close ∧ (∀ r ∈ rs, r.Asks o.maxChunk) ∧
    (close = [] ∨ close = [.close])
  answered : ∃ junk, Answered o.maxFrameLength h.received (h.answers o.maxFrameLength) junk
  stored : ∃ rest, (h.answers o.maxFrameLength).flatten = h.stored ++ rest ∧
    (rest = [] ∨ s.downlink.closed)
  /-- The last answer may not have been announced; all before it were. -/
  posted : ∃ n last, h.posted = List.replicate n .relayData ++ last ∧
    (n = filled (h.answers o.maxFrameLength) ∨
      n + 1 = filled (h.answers o.maxFrameLength) ∧
        (s.downlink.closed ∨ s.mailbox.isOpen = false)) ∧
    ∃ t ∈ h, ∃ result, Ends o t result ∧ Reports s.mailbox result f.stage last

/-- What holds of a turn `t` that comes after the turns `h`. -/
structure Lawful (o : ForwarderOptions) (h : Turns) (t : Turn) : Prop where
  /-- The entry tells all that the turn has changed. -/
  changes : Changes t.found t.entry t.left
  /-- A request is only sent once all requests before it are answered. -/
  asks : t.entry.taken ≠ [] ∨ t.entry.sent ≠ [] →
    (Turns.answers (h ++ [t]) o.maxFrameLength).length = h.requests.length
  /-- An answer is announced once it is stored, and by one event. -/
  announces : .relayData ∈ t.entry.posted →
    t.entry.posted = [.relayData] ∧ (h.answers o.maxFrameLength).flatten = h.stored ∧
      h.posted.length + 1 = filled (h.answers o.maxFrameLength)

/-- What a forwarder has carried by the turns `h`, which have led to `f` and `s`. -/
structure Carried (o : ForwarderOptions) (h : Turns) (f : Forwarder) (s : Surroundings) : Prop where
  account : Running o h f ∨ Over o h f s
  lawful : ∀ h₁ t h₂, h = h₁ ++ t :: h₂ → Lawful o h₁ t
  /-- The forwarder goes on whenever it can. -/
  waits : ∀ now, f.step o now s = none → Waits o now f s

/-! ## Requests and answers of a longer run -/

section Account

variable {limit : Nat} {taken taken' sent sent' lost cut received received' junk : Bytes}
  {rs rs' : List Request} {answers answers' : List Bytes}

theorem Asked.requests_eq (h : Asked taken sent rs lost cut) :
    (Request.readAll Frame.maxLength sent).1 = rs := by
  rw [h.sent_eq, Request.readAll_flatMap fun r hr => ⟨h.fits r hr, h.fits r hr⟩]
  simp only [h.unreadable, List.append_nil]

theorem Asked.append (h : Asked taken sent rs [] []) (h' : Asked taken' sent' rs' lost cut) :
    Asked (taken ++ taken') (sent ++ sent') (rs ++ rs') lost cut where
  taken_eq := by simp [h.taken_eq, h'.taken_eq, Request.forwarded]
  sent_eq := by simp [h.sent_eq, h'.sent_eq]
  fits r hr := (List.mem_append.mp hr).elim (h.fits r) (h'.fits r)
  unreadable := h'.unreadable

theorem Asked.nothing : Asked [] [] [] [] [] where
  taken_eq := rfl
  sent_eq := rfl
  fits := by simp
  unreadable := by rw [Request.readAll_nil]

theorem Asked.request {r : Request} (hfits : r.Fits Frame.maxLength) :
    Asked (r.payload?.getD []) r.bytes [r] [] [] where
  taken_eq := by simp [Request.forwarded]
  sent_eq := by simp
  fits := by simpa using hfits
  unreadable := by rw [Request.readAll_nil]

/-- A front of a request is no request. -/
theorem Asked.ofCut {r : Request} (h : IsCut sent r) : Asked taken sent [] taken sent where
  taken_eq := rfl
  sent_eq := rfl
  fits := by simp
  unreadable := by
    by_cases hempty : sent = []
    · rw [hempty, Request.readAll_nil]
    · have hfits : r.Fits Frame.maxLength := h.fits.resolve_left hempty
      have hcut : Request.read? Frame.maxLength sent = .cut :=
        Request.read?_cut hfits hfits h.front h.ne_bytes
      have hnext : Request.next Frame.maxLength sent = (.error (.io .eof), []) := by
        rw [Request.next_eq_read? hempty, hcut]
      rw [Request.readAll_of_next_error hnext]

theorem Answered.answers_eq (h : Answered limit received answers junk) :
    (Frame.readAll limit received).1 = answers := by
  rw [h.received_eq, Frame.readAll_flatMap h.fits]
  simp only [h.unreadable, List.append_nil]

theorem Answered.append (h : Answered limit received answers [])
    (h' : Answered limit received' answers' junk) :
    Answered limit (received ++ received') (answers ++ answers') junk where
  received_eq := by simp [h.received_eq, h'.received_eq]
  fits a ha := (List.mem_append.mp ha).elim (h.fits a) (h'.fits a)
  unreadable := h'.unreadable

theorem Answered.nothing : Answered limit [] [] [] where
  received_eq := rfl
  fits := by simp
  unreadable := by rw [Frame.readAll_of_next_error (Frame.next_nil limit)]

theorem Answered.answer {a : Bytes} (hlimit : a.length ≤ limit)
    (hfits : a.length ≤ Frame.maxLength) : Answered limit (Frame.bytes a) [a] [] where
  received_eq := by simp
  fits := by simpa using ⟨hlimit, hfits⟩
  unreadable := by rw [Frame.readAll_of_next_error (Frame.next_nil limit)]

/-- A length above the limit is no answer. -/
theorem Answered.refused {length : Nat} (hlimit : limit < length)
    (hfits : length ≤ Frame.maxLength) :
    Answered limit (Bytes.ofU32 (UInt32.ofNat length)) [] (Bytes.ofU32 (UInt32.ofNat length)) where
  received_eq := rfl
  fits := by simp
  unreadable := by
    have hread := Frame.read_ofU32 limit hfits []
    rw [if_pos hlimit, List.append_nil] at hread
    have hnext : Frame.next limit (Bytes.ofU32 (UInt32.ofNat length)) =
        (.error (.frameTooLarge length limit), []) := by
      rw [Frame.next, hread]
    rw [Frame.readAll_of_next_error hnext]

end Account

section Turns

variable {o : ForwarderOptions} {h : Turns} {t : Turn} {f f' : Forwarder} {s s' : Surroundings}

theorem Turns.taken_concat : Turns.taken (h ++ [t]) = h.taken ++ t.entry.taken := by simp [taken]

theorem Turns.sent_concat : Turns.sent (h ++ [t]) = h.sent ++ t.entry.sent := by simp [sent]

theorem Turns.received_concat : Turns.received (h ++ [t]) = h.received ++ t.entry.received := by
  simp [received]

theorem Turns.stored_concat : Turns.stored (h ++ [t]) = h.stored ++ t.entry.stored := by
  simp [stored]

theorem Turns.posted_concat : Turns.posted (h ++ [t]) = h.posted ++ t.entry.posted := by
  simp [posted]

/-- The requests of a turn come behind those of the turns before it. -/
theorem Asked.concat {lost cut : Bytes} {new : List Request}
    (hh : Asked h.taken h.sent h.requests [] [])
    (ht : Asked t.entry.taken t.entry.sent new lost cut) :
    Turns.requests (h ++ [t]) = h.requests ++ new ∧
      Asked (Turns.taken (h ++ [t])) (Turns.sent (h ++ [t])) (Turns.requests (h ++ [t])) lost
        cut := by
  have hall := hh.append ht
  rw [← Turns.taken_concat, ← Turns.sent_concat] at hall
  have heq : Turns.requests (h ++ [t]) = h.requests ++ new := hall.requests_eq
  exact ⟨heq, heq ▸ hall⟩

/-- The answers of a turn come behind those of the turns before it. -/
theorem Answered.concat {limit : Nat} {junk : Bytes} {new : List Bytes}
    (hh : Answered limit h.received (h.answers limit) [])
    (ht : Answered limit t.entry.received new junk) :
    Turns.answers (h ++ [t]) limit = h.answers limit ++ new ∧
      Answered limit (Turns.received (h ++ [t])) (Turns.answers (h ++ [t]) limit) junk := by
  have hall := hh.append ht
  rw [← Turns.received_concat] at hall
  have heq : Turns.answers (h ++ [t]) limit = h.answers limit ++ new := hall.answers_eq
  exact ⟨heq, heq ▸ hall⟩

/-! ## A forwarder that runs -/

/-- A step after which the forwarder still runs adds what it asks and what it is answered. -/
theorem Running.concat {e : Entry} (new : List Request) (more : List Bytes) (count : Nat)
    (hr : Running o h f) (hentry : t.entry = e) (hasked : Asked e.taken e.sent new [] [])
    (hasks : ∀ r ∈ new, r.Asks o.maxChunk)
    (hanswered : Answered o.maxFrameLength e.received more [])
    (hturn : f.stage.unanswered + new.length = more.length + f'.stage.unanswered)
    (hstored : f.stage.unstored ++ more.flatten = e.stored ++ f'.stage.unstored)
    (hposted : e.posted = List.replicate count .relayData)
    (hcount : count + f'.stage.unannounced = f.stage.unannounced + filled more)
    (hon : f'.stage.isOver = false) : Running o (h ++ [t]) f' := by
  subst hentry
  obtain ⟨hrequests, hasked⟩ := hr.asked.concat hasked
  obtain ⟨hanswers, hanswered⟩ := hr.answered.concat hanswered
  obtain ⟨n, hn, hfilled⟩ := hr.posted
  refine ⟨hasked, ?_, hanswered, ?_, ?_, ⟨n + count, ?_, ?_⟩, hon⟩
  · rw [hrequests]
    exact fun r hr' => (List.mem_append.mp hr').elim (hr.asks r) (hasks r)
  · have hbefore := hr.inTurn
    rw [hrequests, hanswers, List.length_append, List.length_append]
    omega
  · rw [hanswers, List.flatten_append, hr.stored, List.append_assoc, hstored, Turns.stored_concat,
      List.append_assoc]
  · rw [Turns.posted_concat, hn, hposted, List.replicate_append_replicate]
  · rw [hanswers, filled, List.countP_append, ← filled, ← filled]
    omega

/-- So does a step with which the relay has nothing to do. -/
theorem Running.inside {stored : Bytes} {posted : List Event} (count : Nat) (hr : Running o h f)
    (hentry : t.entry = { stored, posted }) (hturn : f.stage.unanswered = f'.stage.unanswered)
    (hstored : f.stage.unstored = stored ++ f'.stage.unstored)
    (hposted : posted = List.replicate count .relayData)
    (hcount : count + f'.stage.unannounced = f.stage.unannounced)
    (hon : f'.stage.isOver = false) : Running o (h ++ [t]) f' := by
  refine hr.concat [] [] count hentry .nothing (by simp) .nothing ?_ ?_ hposted hcount hon
  · rw [List.length_nil, List.length_nil, Nat.add_zero, Nat.zero_add, hturn]
  · rw [List.flatten_nil, List.append_nil, hstored]

/-- A step that ends the run may send the close request, lose what it has taken for a request that
cannot be written, receive an empty answer or one that it refuses, and no more. -/
theorem Running.ends {e : Entry} {close : List Request} {more : List Bytes} {lost cut junk : Bytes}
    {result : Except RelayError Unit} (hr : Running o h f) (hentry : t.entry = e)
    (hasked : Asked e.taken e.sent close lost cut) (hclose : close = [] ∨ close = [.close])
    (hlost : lost = [] ∧ cut = [] ∨ ∃ r fault, t.CutOff o r fault ∧ e.taken = lost ∧ e.sent = cut)
    (hanswered : Answered o.maxFrameLength e.received more junk) (hmore : more = [] ∨ more = [[]])
    (hstored : e.stored = []) (hposted : e.posted = [])
    (hunstored : f.stage.unstored = [] ∨ s.downlink.closed)
    (hunannounced : f.stage.unannounced = 0 ∨
      f.stage.unannounced = 1 ∧ (s.downlink.closed ∨ s.mailbox.isOpen = false))
    (hends : Ends o t result) : Over o (h ++ [t]) (f'.finish result) s := by
  subst hentry
  have hflat : more.flatten = [] ∧ filled more = 0 := by
    obtain rfl | rfl := hmore
    · exact ⟨rfl, rfl⟩
    · exact ⟨rfl, rfl⟩
  have hlast : t ∈ h ++ [t] := List.mem_append_right _ List.mem_cons_self
  obtain ⟨hrequests, hasked⟩ := hr.asked.concat hasked
  obtain ⟨hanswers, hanswered⟩ := hr.answered.concat hanswered
  obtain ⟨n, hn, hfilled⟩ := hr.posted
  have hcount : filled (Turns.answers (h ++ [t]) o.maxFrameLength) = n + f.stage.unannounced := by
    rw [hanswers, filled, List.countP_append, ← filled, ← filled, hflat.2, hfilled, Nat.add_zero]
  refine ⟨⟨lost, cut, hasked, ?_⟩, ⟨h.requests, close, hrequests, hr.asks, hclose⟩,
    ⟨junk, hanswered⟩, ⟨f.stage.unstored, ?_, hunstored⟩,
    ⟨n, [], ?_, ?_, t, hlast, result, hends, .ending⟩⟩
  · exact hlost.imp_right fun hcut => ⟨t, hlast, hcut⟩
  · rw [hanswers, List.flatten_append, hflat.1, List.append_nil, hr.stored, Turns.stored_concat,
      hstored, List.append_nil]
  · rw [Turns.posted_concat, hposted, hn]
  · rw [hcount]
    obtain hzero | ⟨hone, hwhy⟩ := hunannounced
    · exact .inl (by omega)
    · exact .inr ⟨by omega, hwhy⟩

/-- A request that cannot be written ends the run, after an empty answer if it is the close
request. -/
theorem Running.cut (r : Request) {fault : RelayError} {piece received : Bytes} {more : List Bytes}
    (hr : Running o h f)
    (hentry : t.entry = { taken := r.payload?.getD [], sent := piece, received })
    (hasks : r.Asks o.maxChunk ∨ r = .close) (hcut : IsCut piece r)
    (herror : WriteError t.found.link.writeFault r fault)
    (hanswered : Answered o.maxFrameLength received more []) (hmore : more = [] ∨ more = [[]])
    (hunstored : f.stage.unstored = []) (hunannounced : f.stage.unannounced = 0) :
    Over o (h ++ [t]) (f'.finish (.error fault)) s := by
  have hcutOff : t.CutOff o r fault := by
    refine ⟨hasks, ?_, ?_, herror⟩
    · rw [hentry]
    · rw [hentry]
      exact hcut
  exact hr.ends hentry (.ofCut hcut) (.inl rfl) (.inr ⟨r, fault, hcutOff, rfl, rfl⟩) hanswered hmore
    rfl rfl (.inl hunstored) (.inl hunannounced) (.unwritten hcutOff)

/-- An end with which the relay has nothing to do. -/
theorem Running.endsInside {result : Except RelayError Unit} (hr : Running o h f)
    (hentry : t.entry = {}) (hunstored : f.stage.unstored = [] ∨ s.downlink.closed)
    (hunannounced : f.stage.unannounced = 0 ∨
      f.stage.unannounced = 1 ∧ (s.downlink.closed ∨ s.mailbox.isOpen = false))
    (hends : Ends o t result) : Over o (h ++ [t]) (f'.finish result) s :=
  hr.ends hentry .nothing (.inl rfl) (.inl ⟨rfl, rfl⟩) .nothing (.inl rfl) rfl rfl hunstored
    hunannounced hends

/-- A forwarder that runs goes on with its account, or ends. -/
theorem Running.step {now : Nat} {e : Entry} (hr : Running o h f) (hdoes : Does o now f s e f' s')
    (hbefore : t.before = f) (hfound : t.found = s) (hentry : t.entry = e) :
    Running o (h ++ [t]) f' ∨ Over o (h ++ [t]) f' s' := by
  -- `t` stays a variable: of the turn, nothing is needed but its entry and what it found
  have hempty : Answered o.maxFrameLength (Frame.bytes []) [[]] [] :=
    .answer (Nat.zero_le _) (Nat.zero_le _)
  subst hfound
  cases hdoes with
  | @exchange _ data _ _ _ _ hstage _ hdata hchunk _ hsending =>
    have hasks : (Request.exchange data).Asks o.maxChunk :=
      .exchange (List.length_pos_iff.mpr hdata) hchunk
    cases hsending with
    | whole hfits _ _ =>
      refine .inl (hr.concat [.exchange data] [] 0 hentry (.request hfits) (by simpa using hasks)
        .nothing ?_ ?_ rfl ?_ rfl) <;> simp [hstage, filled]
    | cut hcut herror _ _ =>
      refine .inr (hr.cut (.exchange data) hentry (.inl hasks) hcut herror .nothing (.inl rfl)
        ?_ ?_) <;> simp [hstage]
  | read hstage _ _ hsending =>
    cases hsending with
    | whole hfits _ _ =>
      refine .inl (hr.concat [.read] [] 0 hentry (.request hfits) (by simpa using .read)
        .nothing ?_ ?_ rfl ?_ rfl) <;> simp [hstage, filled]
    | cut hcut herror _ _ =>
      refine .inr (hr.cut .read hentry (.inl .read) hcut herror .nothing (.inl rfl) ?_ ?_) <;>
        simp [hstage]
  | halfClose hstage _ _ _ =>
    refine .inl (hr.inside 0 hentry ?_ ?_ rfl ?_ rfl) <;> simp [hstage, choose]
  | silence hstage _ _ =>
    refine .inl (hr.concat [] [[]] 0 hentry .nothing (by simp) hempty ?_ ?_ rfl ?_ rfl) <;>
      simp [hstage, filled, choose]
  | close hstage _ _ _ hsending =>
    cases hsending with
    | whole hfits _ _ =>
      refine .inr (hr.ends hentry (.request hfits) (.inr rfl) (.inl ⟨rfl, rfl⟩) hempty (.inr rfl)
        rfl rfl ?_ ?_ (.closed (by rw [hentry]))) <;> simp [hstage]
    | cut hcut herror _ _ =>
      refine .inr (hr.cut .close hentry (.inr rfl) hcut herror hempty (.inr rfl) ?_ ?_) <;>
        simp [hstage]
  | answer hstage _ hdata hlimit hfits =>
    refine .inl (hr.concat [] [_] 0 hentry .nothing (by simp) (.answer hlimit hfits)
      ?_ ?_ rfl ?_ rfl) <;> simp [hstage, filled, hdata]
  | refuse hstage hfront hlimit hfits =>
    refine .inr (hr.ends hentry .nothing (.inl rfl) (.inl ⟨rfl, rfl⟩) (.refused hlimit hfits)
      (.inl rfl) rfl rfl ?_ ?_ (.oversized (hbefore ▸ hstage) hfront hlimit)) <;> simp [hstage]
  | lose hstage hcut hfails =>
    refine .inr (hr.endsInside hentry ?_ ?_ (.unread (hbefore ▸ hstage) hcut hfails)) <;>
      simp [hstage]
  | storeAll hstage => refine .inl (hr.inside 0 hentry ?_ ?_ rfl ?_ rfl) <;> simp [hstage]
  | store hstage _ _ _ => refine .inl (hr.inside 0 hentry ?_ ?_ rfl ?_ rfl) <;> simp [hstage]
  | spill hstage _ hclosed =>
    refine .inr (hr.endsInside hentry ?_ ?_ (.unstored (hbefore ▸ hstage) hclosed)) <;>
      simp [hstage, hclosed]
  | announce hstage _ _ =>
    refine .inl (hr.inside 1 hentry ?_ ?_ rfl ?_ rfl) <;> simp [hstage, choose]
  | leave hstage hdeaf =>
    refine .inr (hr.endsInside hentry ?_ ?_ (.unheard (hbefore ▸ hstage) hdeaf)) <;>
      simp [hstage, hdeaf]
  | report hstage _ _ => exact absurd hr.on (by simp [hstage])
  | vanish hstage _ => exact absurd hr.on (by simp [hstage])

theorem Running.lawful {e : Entry} (hr : Running o h t.before)
    (hdoes : Does o t.now t.before t.found e t.after t.left) : Lawful o h t := by
  have hentry : t.entry = e := hdoes.changes.entry_eq
  refine ⟨hentry ▸ hdoes.changes, ?_, ?_⟩
  · rw [hentry]
    intro hsome
    have hturn := hr.inTurn
    obtain ⟨⟨wake, hstage⟩, hreceived⟩ | ⟨hstage, hreceived⟩ := hdoes.sends hsome
    · have hnothing : Answered o.maxFrameLength t.entry.received [] [] := by
        rw [hentry, hreceived]
        exact .nothing
      rw [(hr.answered.concat hnothing).1, List.append_nil, hturn, hstage]
      rfl
    · have hempty : Answered o.maxFrameLength t.entry.received [[]] [] := by
        rw [hentry, hreceived]
        exact .answer (Nat.zero_le _) (Nat.zero_le _)
      rw [(hr.answered.concat hempty).1, List.length_append, hturn, hstage]
      rfl
  · rw [hentry]
    intro hdata
    obtain ⟨hposted, hstage | hstage⟩ := hdoes.announces hdata
    · obtain ⟨n, hn, hfilled⟩ := hr.posted
      have hstored := hr.stored
      rw [hstage] at hfilled hstored
      refine ⟨hposted, ?_, ?_⟩
      · rwa [Stage.unstored, List.append_nil] at hstored
        simp
      · rw [← hfilled, hn, List.length_replicate, Stage.unannounced]
    · exact absurd hr.on (by simp [hstage])

/-! ## A forwarder that is over -/

theorem lastEvent_ne_relayData (result : Except RelayError Unit) :
    lastEvent result ≠ .relayData := by
  cases result with
  | ok => simp [lastEvent]
  | error e =>
    by_cases he : e.isDisconnect
    · simp [lastEvent, he]
    · simp [lastEvent, he]

theorem Reports.mono {m m' : Mailbox} {result : Except RelayError Unit} {stage : Stage}
    {last : List Event} (hr : Reports m result stage last)
    (hdeaf : m.isOpen = false → m'.isOpen = false) : Reports m' result stage last := by
  cases hr with
  | ending => exact .ending
  | done => exact .done
  | unheard hclosed => exact .unheard (hdeaf hclosed)

theorem Reports.report {m : Mailbox} {result : Except RelayError Unit} {e : Event}
    {last more : List Event} (hr : Reports m result (.ending e) last)
    (hmore : more = [e] ∨ more = [] ∧ m.isOpen = false) :
    Reports m result .done (last ++ more) := by
  cases hr with
  | ending =>
    obtain rfl | ⟨rfl, hdeaf⟩ := hmore
    · exact .done
    · exact .unheard hdeaf

/-- A downlink that was closed and a mailbox that was closed stay so, and nothing else matters. -/
theorem Over.others (ho : Over o h f s) (hclosed : s.downlink.closed → s'.downlink.closed)
    (hdeaf : s.mailbox.isOpen = false → s'.mailbox.isOpen = false) : Over o h f s' := by
  obtain ⟨rest, hrest, hstored⟩ := ho.stored
  obtain ⟨n, last, hposted, hcount, t, ht, result, hends, hreports⟩ := ho.posted
  refine ⟨ho.asked, ho.asks, ho.answered, ⟨rest, hrest, hstored.imp_right hclosed⟩,
    ⟨n, last, hposted, ?_, t, ht, result, hends, hreports.mono hdeaf⟩⟩
  exact hcount.imp_right fun ⟨hn, hwhy⟩ => ⟨hn, hwhy.imp hclosed hdeaf⟩

/-- A turn that only reports changes nothing else in the account. -/
theorem Over.concat {e : Event} {more : List Event} (ho : Over o h f s)
    (hentry : t.entry = { posted := more }) (hstage : f.stage = .ending e)
    (hdone : f'.stage = .done)
    (hmore : more = [e] ∨ more = [] ∧ s.mailbox.isOpen = false) : Over o (h ++ [t]) f' s := by
  have htaken : Turns.taken (h ++ [t]) = h.taken := by
    rw [Turns.taken_concat, hentry, List.append_nil]
  have hsent : Turns.sent (h ++ [t]) = h.sent := by
    rw [Turns.sent_concat, hentry, List.append_nil]
  have hreceived : Turns.received (h ++ [t]) = h.received := by
    rw [Turns.received_concat, hentry, List.append_nil]
  have hstored : Turns.stored (h ++ [t]) = h.stored := by
    rw [Turns.stored_concat, hentry, List.append_nil]
  have hrequests : Turns.requests (h ++ [t]) = h.requests := by
    rw [Turns.requests, hsent, Turns.requests]
  have hanswers : Turns.answers (h ++ [t]) o.maxFrameLength = h.answers o.maxFrameLength := by
    rw [Turns.answers, hreceived, Turns.answers]
  obtain ⟨lost, cut, hasked, hlost⟩ := ho.asked
  obtain ⟨n, last, hposted, hcount, t', ht', result, hends, hreports⟩ := ho.posted
  rw [hstage] at hreports
  refine ⟨⟨lost, cut, ?_, ?_⟩, hrequests ▸ ho.asks, ?_, ?_,
    ⟨n, last ++ more, ?_, hanswers ▸ hcount, t', List.mem_append_left _ ht', result, hends,
      hdone ▸ hreports.report hmore⟩⟩
  · rwa [htaken, hsent, hrequests]
  · exact hlost.imp_right fun ⟨t', ht', hcut⟩ => ⟨t', List.mem_append_left _ ht', hcut⟩
  · rw [hreceived, hanswers]
    exact ho.answered
  · rw [hstored, hanswers]
    exact ho.stored
  · rw [Turns.posted_concat, hposted, hentry, List.append_assoc]

/-- After its end a forwarder only reports. -/
theorem Over.step {e : Entry} (ho : Over o h t.before t.found)
    (hdoes : Does o t.now t.before t.found e t.after t.left) :
    Over o (h ++ [t]) t.after t.left ∧ Lawful o h t := by
  have hentry : t.entry = e := hdoes.changes.entry_eq
  obtain ⟨n, last, hposted, -, t', -, result, -, hreports⟩ := ho.posted
  have hstage : t.before.stage = .ending (lastEvent result) := by
    generalize hstage : t.before.stage = stage at hreports
    cases hreports with
    | ending => rfl
    | done => exact absurd hstage hdoes.ne_done
    | unheard => exact absurd hstage hdoes.ne_done
  obtain ⟨hdone, hdownlink, hmailbox, more, rfl, hmore⟩ := hdoes.of_ending hstage
  constructor
  · refine (ho.concat hentry hstage hdone hmore).others ?_ ?_
    · rw [hdownlink]
      exact id
    · rw [hmailbox]
      exact id
  · refine ⟨hentry ▸ hdoes.changes, ?_, ?_⟩
    · rw [hentry]
      simp
    · rw [hentry]
      intro hdata
      obtain ⟨-, hannouncing | hending⟩ := hdoes.announces hdata
      · cases hstage.symm.trans hannouncing
      · exact absurd (Stage.ending.inj (hstage.symm.trans hending)) (lastEvent_ne_relayData result)

/-! ## Runs -/

theorem Running.start (o : ForwarderOptions) (now : Nat) : Running o [] (start now) := by
  have hrequests : Turns.requests [] = [] := Asked.nothing.requests_eq
  have hanswers : Turns.answers [] o.maxFrameLength = [] := Answered.nothing.answers_eq
  refine ⟨?_, ?_, ?_, ?_, ?_, ⟨0, rfl, ?_⟩, rfl⟩
  · rw [hrequests]
    exact .nothing
  · simp [hrequests]
  · rw [hanswers]
    exact .nothing
  · rw [hrequests, hanswers]
    rfl
  · rw [hanswers]
    rfl
  · rw [hanswers]
    rfl

theorem Carried.concat {e : Entry} (hchunk : 0 < o.maxChunk) (hc : Carried o h t.before t.found)
    (hdoes : Does o t.now t.before t.found e t.after t.left) :
    Carried o (h ++ [t]) t.after t.left := by
  have hstep :
      (Running o (h ++ [t]) t.after ∨ Over o (h ++ [t]) t.after t.left) ∧ Lawful o h t := by
    obtain hr | ho := hc.account
    · exact ⟨hr.step hdoes rfl rfl hdoes.changes.entry_eq, hr.lawful hdoes⟩
    · exact ⟨.inr (ho.step hdoes).1, (ho.step hdoes).2⟩
  refine ⟨hstep.1, fun h₁ t' h₂ hsplit => ?_, fun now => step_waits hchunk⟩
  obtain rfl | ⟨h₂, last, rfl⟩ := List.eq_nil_or_concat h₂
  · obtain ⟨rfl, hlast⟩ := List.append_inj' hsplit rfl
    obtain rfl := List.singleton_inj.mp hlast
    exact hstep.2
  · rw [List.concat_eq_append, ← List.cons_append, ← List.append_assoc] at hsplit
    exact hc.lawful h₁ t' h₂ (List.append_inj' hsplit rfl).1

end Turns

/-- Over any run, a forwarder sends each byte of the client once and in order, in requests that are
answered one at a time, stores the answers likewise, and ends with one last event. -/
theorem carried_run (o : ForwarderOptions) (hchunk : 0 < o.maxChunk) (now : Nat) (s : Surroundings)
    (moves : List Move) :
    Carried o (turns o (start now, s) moves) (run o (start now, s) moves).1
      (run o (start now, s) moves).2 := by
  refine run_induction _ moves hchunk ?_ (fun h t e hc hdoes => hc.concat hchunk hdoes) ?_
  · exact ⟨.inl (.start o now), by simp, fun now => step_waits hchunk⟩
  · intro h f s m hc
    refine ⟨hc.account.imp_right fun ho => ?_, hc.lawful, fun now => step_waits hchunk⟩
    exact ho.others (s.closed_apply m) (s.deaf_apply m)

/-- Three bytes go out in two exchanges, one byte comes back, and the client has finished. -/
theorem carried_twoChunks :
    let o : ForwarderOptions :=
      { pollInterval := 1000, maxFrameLength := 16, maxChunk := 2, drainTimeout := 5000 }
    let s : Surroundings :=
      { uplink := { capacity := none, bytes := [1, 2, 3], closed := true }
        downlink := { capacity := some 8 }
        mailbox := { capacity := 4 }
        link := {} }
    let moves : List Move :=
      [.step 0, .others (.deliver [0, 0, 0, 1, 9]), .step 0, .step 0, .step 0, .step 0, .step 0,
        .others (.deliver [0, 0, 0, 0]), .step 0, .step 1000, .step 2000,
        .others (.deliver [0, 0, 0, 0]), .step 9000, .step 9000]
    let h := turns o (start 0, s) moves
    0 < o.maxChunk ∧ Carried o h (run o (start 0, s) moves).1 (run o (start 0, s) moves).2 ∧
      h.taken = [1, 2, 3] ∧ h.sent = [3, 0, 0, 0, 2, 1, 2, 3, 0, 0, 0, 1, 3, 2, 4] ∧
      h.stored = [9] ∧ h.posted = [.relayData, .relayClosed] :=
  ⟨by decide, carried_run _ (by decide) 0 _ _, by decide +kernel, by decide +kernel,
    by decide +kernel, by decide +kernel⟩

end Forwarder

end TcpGateway
