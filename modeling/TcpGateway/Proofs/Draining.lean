import TcpGateway.Proofs.Forwarding

/-!
# The end of a client, and the silence behind it

Once the client has finished and its bytes are gone, a forwarder only reads, until the relay has
been silent for the drain timeout.  The moment from which the silence is counted is `quietSince`.
What it stands for is read off the history (`Quiet`): the client was seen to have finished then or
before, and no answer with bytes came later.  This is where it matters that the clock does not go
back, since `quietSince` tells only the later of two times.

From the moment the client is seen to have finished nothing can be taken any more (`Draining`), and
so each further step sends a read, the close request, or nothing.
-/

namespace TcpGateway

namespace Surroundings

variable (s : Surroundings) (m : Move)

/-- What a move puts into the uplink. -/
def fed : Bytes :=
  match m with
  | .writeUplink data =>
    match s.uplink.write data with
    | .ok _ => data
    | .error _ => []
  | _ => []

/-- Others only append to the uplink, and do not open it again. -/
theorem uplink_apply :
    (s.apply m).uplink.bytes = s.uplink.bytes ++ s.fed m ∧
      (s.uplink.closed → (s.apply m).uplink.closed ∧ s.fed m = []) := by
  cases m with
  | writeUplink data =>
    simp only [apply, fed]
    cases hwrite : s.uplink.write data with
    | error e => exact ⟨(List.append_nil _).symm, fun hclosed => ⟨hclosed, rfl⟩⟩
    | ok uplink =>
      obtain ⟨rfl, -⟩ := Buffer.write_eq_ok hwrite
      refine ⟨rfl, fun hclosed => ?_⟩
      simp [Buffer.write, hclosed] at hwrite
  | closeUplink => exact ⟨(List.append_nil _).symm, fun _ => ⟨rfl, rfl⟩⟩
  | discardDownlink count =>
    simp only [apply]
    split <;> exact ⟨(List.append_nil _).symm, fun hclosed => ⟨hclosed, rfl⟩⟩
  | offer e =>
    simp only [apply]
    split <;> exact ⟨(List.append_nil _).symm, fun hclosed => ⟨hclosed, rfl⟩⟩
  | takeEvent =>
    simp only [apply]
    split <;> exact ⟨(List.append_nil _).symm, fun hclosed => ⟨hclosed, rfl⟩⟩
  | _ => exact ⟨(List.append_nil _).symm, fun hclosed => ⟨hclosed, rfl⟩⟩

end Surroundings

namespace Forwarder

/-! ## What is read off a run -/

/-- All bytes that others put into the uplink during a run. -/
def fed (o : ForwarderOptions) (x : Forwarder × Surroundings) : List Move → Bytes
  | [] => []
  | .others m :: moves => x.2.fed m ++ fed o (act o x (.others m)) moves
  | .step now :: moves => fed o (act o x (.step now)) moves

namespace Turn

variable (t : Turn)

/-- Whether the forwarder has to choose what to send when the client has finished and nothing of it
is left. -/
def seesEnd : Bool :=
  match t.before.stage with
  | .choosing _ => t.found.uplink.closed && t.found.uplink.isEmpty
  | _ => false

/-- An answer with bytes is received. -/
def Brings : Prop := ∃ data, data ≠ [] ∧ t.entry.received = Frame.bytes data

/-- The close request is sent. -/
def Closes : Prop := t.entry.sent = Request.close.bytes

end Turn

/-- The clock does not go back. -/
def Turns.InTime (h : Turns) : Prop := h.Pairwise fun t t' => t.now ≤ t'.now

/-- Only reads, and then the close request at most once. -/
def OnlyReads (rs : List Request) : Prop :=
  ∃ n close, (close = [] ∨ close = [Request.close]) ∧ rs = List.replicate n .read ++ close

/-- What was answered in the turns `h` is stored, and each answer with bytes was announced. -/
structure Turns.Delivered (h : Turns) (limit : Nat) : Prop where
  stored : h.stored = (h.answers limit).flatten
  posted : h.posted = List.replicate (filled (h.answers limit)) .relayData

/-- What holds of a turn `t` that sends the close request.  Before it came the turns `h`, and the
bytes `held` were in the uplink at some time. -/
structure ClosesLate (o : ForwarderOptions) (held : Bytes) (h : Turns) (t : Turn) : Prop where
  finished : t.found.uplink.closed ∧ t.found.uplink.bytes = []
  /-- All bytes of the client went out, in exchanges. -/
  carried : held = Request.forwarded h.requests
  asks : ∀ r ∈ h.requests, r.Asks o.maxChunk
  /-- The request is the reply to an empty answer. -/
  answered : t.entry.received = Frame.bytes []
  silent_since_end : ∃ t', h.find? (·.seesEnd) = some t' ∧ t'.now + o.drainTimeout ≤ t.now
  silent_since_answer : ∀ t' ∈ h, t'.Brings → t'.now + o.drainTimeout ≤ t.now
  delivered : h.Delivered o.maxFrameLength

/-- What holds behind a turn that has sent the close request: in the turns `h`, which have led to
`f` and `s`, the forwarder only reports its end. -/
structure Parts (o : ForwarderOptions) (h : Turns) (f : Forwarder) (s : Surroundings) :
    Prop where
  sent : h.sent = []
  reports : Reports s.mailbox (.ok ()) f.stage h.posted
  /-- It does so as soon as there is room, unless nobody listens. -/
  waits : ∀ now, f.step o now s = none →
    f.stage = .done ∨ s.mailbox.isOpen ∧ s.mailbox.capacity ≤ s.mailbox.events.length

/-- What a forwarder does about the end of a client in the turn `t`, which comes between the turns
`h` and `h'`; the latter have led to `f` and `s`. -/
structure Drained (o : ForwarderOptions) (held : Bytes) (h : Turns) (t : Turn) (h' : Turns)
    (f : Forwarder) (s : Surroundings) : Prop where
  /-- From the moment the client is seen to have finished there are only reads, and then at most one
  close request. -/
  only_reads : t.seesEnd → OnlyReads (Turns.requests (t :: h')) ∧
    Turns.sent (t :: h') = (Turns.requests (t :: h')).flatMap Request.bytes
  closes : t.Closes → ClosesLate o held h t
  parts : t.Closes → Parts o h' f s
  /-- The relay is reported to be done once all it has answered was handed on. -/
  reported : .relayClosed ∈ t.entry.posted → t.found.downlink.closed = false →
    h.Delivered o.maxFrameLength

/-! ## One step -/

section Step

variable {o : ForwarderOptions} {now : Nat} {f f' : Forwarder} {s s' : Surroundings} {e : Entry}

theorem Sending.isPrefix {next : Forwarder} {r : Request} {piece : Bytes}
    (h : Sending f next s r piece f' s') : piece <+: r.bytes := by
  cases h with
  | whole => exact List.prefix_rfl
  | cut front => exact front.front

/-- Of a request that is a single byte nothing is left if it is cut. -/
theorem IsCut.eq_nil {piece : Bytes} {r : Request} (h : IsCut piece r) (hone : r.bytes.length = 1) :
    piece = [] := by
  by_contra hne
  have hpos : 0 < piece.length := List.length_pos_iff.mpr hne
  exact h.ne_bytes (h.front.eq_of_length_le (by omega))

/-- The close request answers an empty answer behind a long silence, and ends the run. -/
theorem Does.of_close (h : Does o now f s e f' s') (hclose : e.sent = Request.close.bytes) :
    f.stage = .awaiting ∧ e.received = Frame.bytes [] ∧ f'.stage = .ending .relayClosed ∧
      ∃ since, f.quietSince = some since ∧ o.drainTimeout ≤ now - since := by
  cases h with
  | exchange _ _ _ _ _ hsending =>
    simp only at hclose
    have hfront := hsending.isPrefix
    rw [hclose] at hfront
    exact absurd (List.cons_prefix_cons.mp hfront).1 (by simp [Request.tag])
  | read _ _ _ hsending =>
    simp only at hclose
    have hfront := hsending.isPrefix
    rw [hclose] at hfront
    exact absurd (List.cons_prefix_cons.mp hfront).1 (by decide)
  | close hstage _ hquiet hlate hsending =>
    cases hsending with
    | whole _ _ _ => exact ⟨hstage, rfl, rfl, _, hquiet, hlate⟩
    | cut hcut _ _ _ => exact absurd hclose hcut.ne_bytes
  | _ => exact absurd hclose (Request.bytes_ne_nil _).symm

/-- The moment from which silence is counted is set when the client is seen to have finished, moved
on by an answer with bytes, and else kept. -/
theorem Does.quiet (h : Does o now f s e f' s') :
    f.quietSince = none ∧ (∃ wake, f.stage = .choosing wake) ∧ s.uplink.bytes = [] ∧
        s.uplink.closed ∧ e = {} ∧ f'.quietSince = some now ∨
      f.stage = .awaiting ∧ (∃ data, data ≠ [] ∧ e.received = Frame.bytes data) ∧
        f'.quietSince = f.quietSince.map (fun _ => now) ∨
      f'.quietSince = f.quietSince ∧ e.received.length ≤ 4 ∧
        ((∃ wake, f.stage = .choosing wake) → f.quietSince = none →
          s.uplink.bytes ≠ [] ∨ s.uplink.closed = false) := by
  have hsending {next : Forwarder} {s₀ : Surroundings} {r : Request} {piece : Bytes}
      (hs : Sending f next s₀ r piece f' s') (hnext : next.quietSince = f.quietSince) :
      f'.quietSince = f.quietSince := by
    cases hs with
    | whole => exact hnext
    | cut => rfl
  cases h with
  | exchange _ _ hdata _ hfront hs =>
    refine .inr (.inr ⟨hsending hs rfl, Nat.zero_le _, fun _ _ => .inl ?_⟩)
    simp [hfront, hdata]
  | read _ _ hidle hs =>
    exact .inr (.inr ⟨hsending hs rfl, Nat.zero_le _, fun _ hnone => .inr (hidle hnone).2⟩)
  | halfClose hstage hnone hempty hclosed =>
    exact .inl ⟨hnone, ⟨_, hstage⟩, hempty, hclosed, rfl, rfl⟩
  | answer hstage _ hdata _ _ => exact .inr (.inl ⟨hstage, ⟨_, hdata, rfl⟩, rfl⟩)
  | close hstage _ _ _ hs =>
    exact .inr (.inr ⟨hsending hs rfl, by simp [Frame.bytes, Bytes.ofU32], by simp [hstage]⟩)
  | silence hstage _ _ =>
    exact .inr (.inr ⟨rfl, by simp [Frame.bytes, Bytes.ofU32], by simp [hstage]⟩)
  | refuse hstage _ _ _ => exact .inr (.inr ⟨rfl, by simp [Bytes.ofU32], by simp [hstage]⟩)
  | lose hstage _ _ => exact .inr (.inr ⟨rfl, Nat.zero_le _, by simp [hstage]⟩)
  | storeAll hstage => exact .inr (.inr ⟨rfl, Nat.zero_le _, by simp [hstage]⟩)
  | store hstage _ _ _ => exact .inr (.inr ⟨rfl, Nat.zero_le _, by simp [hstage]⟩)
  | spill hstage _ _ => exact .inr (.inr ⟨rfl, Nat.zero_le _, by simp [hstage]⟩)
  | announce hstage _ _ => exact .inr (.inr ⟨rfl, Nat.zero_le _, by simp [hstage]⟩)
  | leave hstage _ => exact .inr (.inr ⟨rfl, Nat.zero_le _, by simp [hstage]⟩)
  | report hstage _ _ => exact .inr (.inr ⟨rfl, Nat.zero_le _, by simp [hstage]⟩)
  | vanish hstage _ => exact .inr (.inr ⟨rfl, Nat.zero_le _, by simp [hstage]⟩)

/-- An uplink that is closed and empty stays so. -/
theorem Does.uplink_eq (h : Does o now f s e f' s') (hempty : s.uplink.bytes = []) :
    s'.uplink = s.uplink := by
  have hsame := h.changes.uplink
  rw [hsame] at hempty
  obtain ⟨htaken, -⟩ := List.append_eq_nil_iff.mp hempty
  rw [hsame, htaken, List.nil_append]

/-- A forwarder that is over sends nothing and stays over. -/
theorem Does.of_isOver (h : Does o now f s e f' s') (hover : f.stage.isOver) :
    e.sent = [] ∧ f'.stage.isOver := by
  cases hstage : f.stage with
  | ending last =>
    obtain ⟨hdone, -, -, posted, rfl, -⟩ := h.of_ending hstage
    exact ⟨rfl, hdone ▸ rfl⟩
  | done => exact absurd hstage h.ne_done
  | _ => simp [hstage] at hover

end Step

/-! ## Behind the end of the client -/

/-- The client has finished, and the forwarder has seen it or is about to. -/
structure Draining (f : Forwarder) (s : Surroundings) : Prop where
  is_closed : s.uplink.closed
  drained : s.uplink.bytes = []
  seen : f.quietSince = none → ∃ wake, f.stage = .choosing wake
  on : f.stage.isOver = false

section Draining

variable {o : ForwarderOptions} {now : Nat} {f f' : Forwarder} {s s' : Surroundings} {e : Entry}

theorem Draining.others (h : Draining f s) (m : Surroundings.Move) : Draining f (s.apply m) := by
  obtain ⟨hbytes, hstays⟩ := s.uplink_apply m
  obtain ⟨hclosed, hfed⟩ := hstays h.is_closed
  exact ⟨hclosed, by rw [hbytes, hfed, h.drained, List.append_nil], h.seen, h.on⟩

/-- A step sends a read, or it ends the run and may send the close request. -/
theorem Draining.step (h : Draining f s) (hdoes : Does o now f s e f' s') :
    Draining f' s' ∧ (e.sent = [] ∨ e.sent = Request.read.bytes) ∨
      f'.stage.isOver ∧ (e.sent = [] ∨ e.sent = Request.close.bytes) := by
  have hgoes (hquiet : f'.quietSince ≠ none) (hon : f'.stage.isOver = false) : Draining f' s' := by
    have huplink := hdoes.uplink_eq h.drained
    exact ⟨huplink ▸ h.is_closed, huplink ▸ h.drained, fun hnone => absurd hnone hquiet, hon⟩
  have hquiet (hstage : ∀ wake, f.stage ≠ .choosing wake) : f.quietSince ≠ none := fun hnone => by
    obtain ⟨wake, hchoosing⟩ := h.seen hnone
    exact hstage wake hchoosing
  cases hdoes with
  | exchange _ _ hdata _ hfront _ =>
    rw [h.drained] at hfront
    exact absurd (List.append_eq_nil_iff.mp hfront.symm).1 hdata
  | read _ _ hidle hsending =>
    have hseen : f.quietSince ≠ none := fun hnone => by
      have hopen := (hidle hnone).2
      rw [h.is_closed] at hopen
      cases hopen
    cases hsending with
    | whole => exact .inl ⟨hgoes hseen rfl, .inr rfl⟩
    | cut hcut => exact .inr ⟨rfl, .inl (hcut.eq_nil rfl)⟩
  | halfClose => exact .inl ⟨hgoes (by simp [choose]) rfl, .inl rfl⟩
  | silence hstage => exact .inl ⟨hgoes (hquiet (by simp [hstage])) rfl, .inl rfl⟩
  | close _ _ _ _ hsending =>
    cases hsending with
    | whole => exact .inr ⟨rfl, .inr rfl⟩
    | cut hcut => exact .inr ⟨rfl, .inl (hcut.eq_nil rfl)⟩
  | answer hstage =>
    refine .inl ⟨hgoes ?_ rfl, .inl rfl⟩
    simpa using hquiet (by simp [hstage])
  | refuse => exact .inr ⟨rfl, .inl rfl⟩
  | lose => exact .inr ⟨rfl, .inl rfl⟩
  | storeAll hstage => exact .inl ⟨hgoes (hquiet (by simp [hstage])) rfl, .inl rfl⟩
  | store hstage => exact .inl ⟨hgoes (hquiet (by simp [hstage])) rfl, .inl rfl⟩
  | spill => exact .inr ⟨rfl, .inl rfl⟩
  | announce hstage => exact .inl ⟨hgoes (hquiet (by simp [hstage])) rfl, .inl rfl⟩
  | leave => exact .inr ⟨rfl, .inl rfl⟩
  | report => exact .inr ⟨rfl, .inl rfl⟩
  | vanish => exact .inr ⟨rfl, .inl rfl⟩

/-- A run of a draining forwarder sends reads, and the close request at most once and last. -/
theorem Draining.sent_run (hchunk : 0 < o.maxChunk) {x : Forwarder × Surroundings}
    (hx : Draining x.1 x.2) (moves : List Move) :
    ∃ rs, OnlyReads rs ∧ (turns o x moves).sent = rs.flatMap Request.bytes := by
  have hboth : ∃ rs, (turns o x moves).sent = rs.flatMap Request.bytes ∧
      (Draining (run o x moves).1 (run o x moves).2 ∧ (∃ n, rs = List.replicate n .read) ∨
        (run o x moves).1.stage.isOver ∧ OnlyReads rs) := by
    refine run_induction (P := fun h f s => ∃ rs, h.sent = rs.flatMap Request.bytes ∧
      (Draining f s ∧ (∃ n, rs = List.replicate n .read) ∨ f.stage.isOver ∧ OnlyReads rs))
      x moves hchunk ⟨[], rfl, .inl ⟨hx, 0, rfl⟩⟩ ?_ ?_
    · rintro h t e ⟨rs, hrs, hp⟩ hdoes
      have hentry : t.entry = e := hdoes.changes.entry_eq
      have hsent : Turns.sent (h ++ [t]) = rs.flatMap Request.bytes ++ e.sent := by
        rw [Turns.sent_concat, hentry, hrs]
      have hnone (hnil : e.sent = []) : Turns.sent (h ++ [t]) = rs.flatMap Request.bytes := by
        rw [hsent, hnil, List.append_nil]
      have hone {r : Request} (hr : e.sent = r.bytes) :
          Turns.sent (h ++ [t]) = (rs ++ [r]).flatMap Request.bytes := by
        rw [hsent, hr, List.flatMap_append, List.flatMap_singleton]
      obtain ⟨hd, n, rfl⟩ | ⟨hover, hreads⟩ := hp
      · obtain ⟨hd', hnil | hread⟩ | ⟨hover, hnil | hclose⟩ := hd.step hdoes
        · exact ⟨_, hnone hnil, .inl ⟨hd', n, rfl⟩⟩
        · exact ⟨_, hone hread, .inl ⟨hd', n + 1, List.replicate_succ'.symm⟩⟩
        · exact ⟨_, hnone hnil, .inr ⟨hover, n, [], .inl rfl, (List.append_nil _).symm⟩⟩
        · exact ⟨_, hone hclose, .inr ⟨hover, n, [.close], .inr rfl, rfl⟩⟩
      · obtain ⟨hnil, hover'⟩ := hdoes.of_isOver hover
        exact ⟨rs, hnone hnil, .inr ⟨hover', hreads⟩⟩
    · rintro h f s m ⟨rs, hrs, hp⟩
      exact ⟨rs, hrs, hp.imp_left fun ⟨hd, hn⟩ => ⟨hd.others m, hn⟩⟩
  obtain ⟨rs, hrs, ⟨-, n, rfl⟩ | ⟨-, hreads⟩⟩ := hboth
  · exact ⟨_, ⟨n, [], .inl rfl, (List.append_nil _).symm⟩, hrs⟩
  · exact ⟨rs, hreads, hrs⟩

theorem OnlyReads.fits {rs : List Request} (h : OnlyReads rs) :
    ∀ r ∈ rs, r.Fits Frame.maxLength := by
  obtain ⟨n, close, hclose, rfl⟩ := h
  rintro r hr data hdata
  obtain hread | hlast := List.mem_append.mp hr
  · rw [List.eq_of_mem_replicate hread] at hdata
    cases hdata
  · obtain rfl | rfl := hclose
    · cases hlast
    · rw [List.mem_singleton.mp hlast] at hdata
      cases hdata

/-- A relay reads off the stream what a draining forwarder sends. -/
theorem Draining.requests_run (hchunk : 0 < o.maxChunk) {x : Forwarder × Surroundings}
    (hx : Draining x.1 x.2) (moves : List Move) :
    OnlyReads (turns o x moves).requests ∧
      (turns o x moves).sent = (turns o x moves).requests.flatMap Request.bytes := by
  obtain ⟨rs, hreads, hsent⟩ := hx.sent_run hchunk moves
  have hasked : Asked (Request.forwarded rs) (turns o x moves).sent rs [] [] :=
    { Asked.nothing with
      taken_eq := (List.append_nil _).symm
      sent_eq := by rw [hsent, List.append_nil]
      fits := hreads.fits }
  have hrequests : (turns o x moves).requests = rs := hasked.requests_eq
  rw [hrequests]
  exact ⟨hreads, hsent⟩

end Draining

/-! ## Since when the relay is silent -/

/-- What `quietSince` tells about the turns `h`. -/
structure Quiet (h : Turns) (f : Forwarder) (s : Surroundings) : Prop where
  unseen : f.quietSince = none → ∀ t ∈ h, t.seesEnd = false
  finished : ∀ since, f.quietSince = some since → s.uplink.closed ∧ s.uplink.bytes = []
  seen : ∀ since, f.quietSince = some since →
    ∃ t, h.find? (·.seesEnd) = some t ∧ t.now ≤ since
  silent : ∀ since, f.quietSince = some since → ∀ t ∈ h, t.Brings → t.now ≤ since

section Quiet

variable {o : ForwarderOptions} {h : Turns} {f : Forwarder} {s : Surroundings} {t : Turn}

theorem Quiet.others (hq : Quiet h f s) (m : Surroundings.Move) : Quiet h f (s.apply m) := by
  refine { hq with finished := fun since hsince => ?_ }
  obtain ⟨hclosed, hempty⟩ := hq.finished since hsince
  obtain ⟨hbytes, hstays⟩ := s.uplink_apply m
  obtain ⟨hclosed', hfed⟩ := hstays hclosed
  exact ⟨hclosed', by rw [hbytes, hfed, hempty, List.append_nil]⟩

theorem Turn.seesEnd_iff : t.seesEnd ↔
    (∃ wake, t.before.stage = .choosing wake) ∧ t.found.uplink.closed ∧
      t.found.uplink.bytes = [] := by
  unfold seesEnd
  cases hstage : t.before.stage <;> simp [Buffer.isEmpty]

/-- A short answer has no bytes. -/
theorem Turn.not_brings (hshort : t.entry.received.length ≤ 4) : ¬ t.Brings := by
  rintro ⟨data, hdata, hreceived⟩
  have hlen := congrArg List.length hreceived
  have hpos : 0 < data.length := List.length_pos_iff.mpr hdata
  simp only [Frame.bytes, Bytes.ofU32, List.length_append, List.length_cons,
    List.length_nil] at hlen
  omega

theorem Quiet.concat {e : Entry} (hq : Quiet h t.before t.found)
    (hdoes : Does o t.now t.before t.found e t.after t.left) (hclock : ∀ t' ∈ h, t'.now ≤ t.now) :
    Quiet (h ++ [t]) t.after t.left := by
  have hentry : t.entry = e := hdoes.changes.entry_eq
  have hmem {t' : Turn} (ht' : t' ∈ h ++ [t]) : t' ∈ h ∨ t' = t := by simpa using ht'
  have hfound {t' : Turn} (ht' : h.find? (·.seesEnd) = some t') :
      (h ++ [t]).find? (·.seesEnd) = some t' := by
    rw [List.find?_append, ht']
    rfl
  have hkeeps {since : Nat} (hsince : t.before.quietSince = some since) :
      t.left.uplink.closed ∧ t.left.uplink.bytes = [] := by
    obtain ⟨hclosed, hempty⟩ := hq.finished since hsince
    rw [hdoes.uplink_eq hempty]
    exact ⟨hclosed, hempty⟩
  obtain ⟨hnone, hstage, hempty, hclosed, rfl, hafter⟩ |
    ⟨hstage, ⟨data, hdata, hreceived⟩, hafter⟩ | ⟨hafter, hshort, hend⟩ := hdoes.quiet
  · refine ⟨fun hno => by simp [hafter] at hno, fun since _ => ?_, fun since hsince => ?_,
      fun since hsince t' ht' hbrings => ?_⟩
    · rw [hdoes.uplink_eq hempty]
      exact ⟨hclosed, hempty⟩
    · obtain rfl := Option.some.inj (hafter.symm.trans hsince)
      have hsees : t.seesEnd := Turn.seesEnd_iff.mpr ⟨hstage, hclosed, hempty⟩
      have hfirst : h.find? (·.seesEnd) = none :=
        List.find?_eq_none.mpr fun t' ht' => by simp [hq.unseen hnone t' ht']
      refine ⟨t, ?_, Nat.le_refl _⟩
      rw [List.find?_append, hfirst, List.find?_singleton, if_pos hsees]
      rfl
    · obtain rfl := Option.some.inj (hafter.symm.trans hsince)
      obtain hold | rfl := hmem ht'
      · exact hclock t' hold
      · exact Nat.le_refl _
  · have hsees : t.seesEnd = false := by simp [Turn.seesEnd, hstage]
    refine ⟨fun hno t' ht' => ?_, fun since hsince => ?_, fun since hsince => ?_,
      fun since hsince t' ht' _ => ?_⟩
    · rw [hafter, Option.map_eq_none_iff] at hno
      exact (hmem ht').elim (hq.unseen hno t') (fun heq => heq ▸ hsees)
    all_goals
      rw [hafter, Option.map_eq_some_iff] at hsince
      obtain ⟨before, hbefore, rfl⟩ := hsince
    · exact hkeeps hbefore
    · obtain ⟨t', ht', -⟩ := hq.seen before hbefore
      exact ⟨t', hfound ht', hclock t' (List.mem_of_find?_eq_some ht')⟩
    · exact (hmem ht').elim (hclock t') (fun heq => heq ▸ Nat.le_refl _)
  · refine ⟨fun hno t' ht' => ?_, fun since hsince => ?_, fun since hsince => ?_,
      fun since hsince t' ht' hbrings => ?_⟩
    all_goals rw [hafter] at *
    · obtain hold | rfl := hmem ht'
      · exact hq.unseen hno t' hold
      · refine Bool.eq_false_iff.mpr fun hsees => ?_
        obtain ⟨hstage, hclosed, hempty⟩ := Turn.seesEnd_iff.mp hsees
        obtain hsome | hopen := hend hstage hno
        · exact hsome hempty
        · cases hopen.symm.trans hclosed
    · exact hkeeps hsince
    · obtain ⟨t', ht', hle⟩ := hq.seen since hsince
      exact ⟨t', hfound ht', hle⟩
    · obtain hold | rfl := hmem ht'
      · exact hq.silent since hsince t' hold hbrings
      · exact absurd hbrings (Turn.not_brings (hentry ▸ hshort))

end Quiet

/-! ## Runs -/

theorem Reports.cases {m : Mailbox} {result : Except RelayError Unit} {stage : Stage}
    {last : List Event} (hr : Reports m result stage last) :
    stage = .ending (lastEvent result) ∧ last = [] ∨ stage = .done := by
  cases hr <;> simp

section Run

variable {o : ForwarderOptions} (hchunk : 0 < o.maxChunk) (x : Forwarder × Surroundings)
  (moves : List Move)

include hchunk

/-- What was ever in the uplink was taken out of it or is still there. -/
theorem uplink_conserved :
    x.2.uplink.bytes ++ fed o x moves =
      (turns o x moves).taken ++ (run o x moves).2.uplink.bytes := by
  induction moves generalizing x with
  | nil => simp [fed, turns, Turns.taken, run]
  | cons m moves ih =>
    have hrun : run o x (m :: moves) = run o (act o x m) moves := rfl
    have hih := ih (act o x m)
    cases m with
    | others m =>
      have hbytes : (act o x (.others m)).2.uplink.bytes = x.2.uplink.bytes ++ x.2.fed m :=
        (x.2.uplink_apply m).1
      rw [hrun, fed, ← List.append_assoc, ← hbytes, hih]
      rfl
    | step now =>
      rw [hrun, fed]
      cases hstep : x.1.step o now x.2 with
      | none =>
        have hact : act o x (.step now) = x := by simp [act, hstep]
        rw [hact] at hih ⊢
        simpa [turns, turn?, hstep, hact] using hih
      | some next =>
        obtain ⟨e, hdoes⟩ := step_does hchunk hstep
        have hact : act o x (.step now) = next := by simp [act, hstep]
        have hentry : Turn.entry ⟨now, x.1, next.1, x.2, next.2⟩ = e :=
          Changes.entry_eq (t := ⟨now, x.1, next.1, x.2, next.2⟩) hdoes.changes
        rw [hact] at hih ⊢
        have htaken : x.2.uplink.bytes = e.taken ++ next.2.uplink.bytes := by
          rw [hdoes.changes.uplink]
        rw [htaken, List.append_assoc, hih, turns, turn?, hstep, hact]
        simp [Turns.taken, hentry]

theorem account_run (now : Nat) (s : Surroundings) :
    Running o (turns o (start now, s) moves) (run o (start now, s) moves).1 ∨
      Over o (turns o (start now, s) moves) (run o (start now, s) moves).1
        (run o (start now, s) moves).2 := by
  refine run_induction (P := fun h f s => Running o h f ∨ Over o h f s) _ moves hchunk
    (.inl (.start o now)) ?_ ?_
  · rintro h t e (hr | ho) hdoes
    · exact hr.step hdoes rfl rfl hdoes.changes.entry_eq
    · exact .inr (ho.step hdoes).1
  · exact fun h f s m ha => ha.imp_right fun ho => ho.others (s.closed_apply m) (s.deaf_apply m)

theorem quiet_run (now : Nat) (s : Surroundings)
    (clock : (turns o (start now, s) moves).InTime) :
    Quiet (turns o (start now, s) moves) (run o (start now, s) moves).1
      (run o (start now, s) moves).2 := by
  refine run_induction (P := fun h f s => h.InTime → Quiet h f s) _ moves hchunk ?_ ?_ ?_ clock
  · exact fun _ => ⟨by simp, by rintro _ ⟨⟩, by rintro _ ⟨⟩, by simp⟩
  · intro h t e hq hdoes hclock
    obtain ⟨hold, -, hlast⟩ := List.pairwise_append.mp hclock
    exact (hq hold).concat hdoes fun t' ht' => hlast t' ht' t List.mem_cons_self
  · exact fun h f s m hq hclock => (hq hclock).others m

/-- Behind the close request a forwarder only reports its end. -/
theorem parts_run (hx : x.1.stage = .ending .relayClosed) :
    Parts o (turns o x moves) (run o x moves).1 (run o x moves).2 := by
  have hrun : (turns o x moves).sent = [] ∧
      Reports (run o x moves).2.mailbox (.ok ()) (run o x moves).1.stage
        (turns o x moves).posted := by
    refine run_induction (P := fun h f s => h.sent = [] ∧
      Reports s.mailbox (.ok ()) f.stage h.posted) x moves hchunk ⟨rfl, hx ▸ .ending⟩ ?_ ?_
    · rintro h t e ⟨hsent, hreports⟩ hdoes
      have hentry : t.entry = e := hdoes.changes.entry_eq
      have hstage : t.before.stage = .ending (lastEvent (.ok ())) :=
        (hreports.cases.resolve_right hdoes.ne_done).1
      obtain ⟨hdone, -, hmailbox, posted, rfl, hposted⟩ := hdoes.of_ending hstage
      rw [hstage] at hreports
      rw [Turns.sent_concat, Turns.posted_concat, hentry, hsent, hdone]
      refine ⟨rfl, (hreports.report hposted).mono ?_⟩
      rw [hmailbox]
      exact id
    · rintro h f s m ⟨hsent, hreports⟩
      exact ⟨hsent, hreports.mono (s.deaf_apply m)⟩
  refine ⟨hrun.1, hrun.2, fun now hwaits => ?_⟩
  obtain ⟨hstage, -⟩ | hdone := hrun.2.cases
  · cases step_waits hchunk hwaits with
    | ending _ hheard hfull => exact .inr ⟨hheard, hfull⟩
    | _ => simp_all only [reduceCtorEq]
  · exact .inl hdone

end Run

section Turn

variable {o : ForwarderOptions} {h : Turns} {t : Turn} {e : Entry}

/-- A run that goes on has handed on all that was answered, when it waits for the next answer. -/
theorem Running.delivered (hr : Running o h t.before) (hstage : t.before.stage = .awaiting) :
    h.Delivered o.maxFrameLength := by
  have hstored := hr.stored
  obtain ⟨n, hposted, hcount⟩ := hr.posted
  rw [hstage] at hstored hcount
  refine ⟨?_, ?_⟩
  · rw [hstored]
    exact (List.append_nil _).symm
  · rw [hposted, ← hcount]
    rfl

theorem Over.isOver {f : Forwarder} {s : Surroundings} (ho : Over o h f s) : f.stage.isOver := by
  obtain ⟨_, _, _, _, _, _, _, _, hreports⟩ := ho.posted
  obtain ⟨hstage, -⟩ | hstage := hreports.cases <;> rw [hstage] <;> rfl

theorem ClosesLate.of_does {held : Bytes}
    (haccount : Running o h t.before ∨ Over o h t.before t.found)
    (hquiet : Quiet h t.before t.found) (hclock : ∀ t' ∈ h, t'.now ≤ t.now)
    (hheld : held = h.taken ++ t.found.uplink.bytes)
    (hdoes : Does o t.now t.before t.found e t.after t.left) (hcloses : t.Closes) :
    ClosesLate o held h t := by
  have hentry : t.entry = e := hdoes.changes.entry_eq
  obtain ⟨hstage, hreceived, -, since, hsince, hlate⟩ := hdoes.of_close (hentry ▸ hcloses)
  have hr : Running o h t.before :=
    haccount.resolve_right fun ho => by simpa [hstage] using ho.isOver
  obtain ⟨hclosed, hempty⟩ := hquiet.finished since hsince
  obtain ⟨t', hfirst, hbefore⟩ := hquiet.seen since hsince
  have hle (t' : Turn) (ht' : t' ∈ h) (hbefore : t'.now ≤ since) :
      t'.now + o.drainTimeout ≤ t.now := by
    have hnow := hclock t' ht'
    omega
  exact {
    finished := ⟨hclosed, hempty⟩
    carried := by rw [hheld, hempty, List.append_nil, hr.asked.taken_eq, List.append_nil]
    asks := hr.asks
    answered := hentry ▸ hreceived
    silent_since_end := ⟨t', hfirst, hle t' (List.mem_of_find?_eq_some hfirst) hbefore⟩
    silent_since_answer := fun t' ht' hbrings =>
      hle t' ht' (hquiet.silent since hsince t' ht' hbrings)
    delivered := hr.delivered hstage }

/-- The last event is reported in a run that is over, and all is handed on if the downlink is still
open. -/
theorem delivered_of_reported {now : Nat} {f f' : Forwarder} {s s' : Surroundings}
    (haccount : Running o h f ∨ Over o h f s) (hdoes : Does o now f s e f' s')
    (hposted : .relayClosed ∈ e.posted) (hopen : s.downlink.closed = false) :
    h.Delivered o.maxFrameLength := by
  cases hdoes with
  | announce => simp at hposted
  | report hstage hheard _ =>
    have ho : Over o h f s := haccount.resolve_left fun hr => by simpa [hstage] using hr.on
    obtain ⟨n, last, hlast, hcount, _, _, _, _, hreports⟩ := ho.posted
    obtain ⟨rest, hflat, hrest⟩ := ho.stored
    obtain ⟨-, rfl⟩ := hreports.cases.resolve_right (by simp [hstage])
    refine ⟨?_, ?_⟩
    · rw [hflat, hrest.resolve_right (by simp [hopen]), List.append_nil]
    · rw [hlast, List.append_nil, hcount.resolve_right (by simp [hopen, hheard])]
  | _ => simp at hposted

theorem turn?_of_isSome {x : Forwarder × Surroundings} {now : Nat}
    (h : (x.1.step o now x.2).isSome) :
    x.1.turn? o x.2 (.step now) =
      some ⟨now, x.1, (act o x (.step now)).1, x.2, (act o x (.step now)).2⟩ := by
  obtain ⟨next, hnext⟩ := Option.isSome_iff_exists.mp h
  simp [turn?, act, hnext]

/-- The turn of a step, and the turns of a run that begins with it. -/
theorem turn?_eq_some {f : Forwarder} {s : Surroundings} {now : Nat} (hchunk : 0 < o.maxChunk)
    (h : f.turn? o s (.step now) = some t) :
    t.before = f ∧ t.found = s ∧ (∃ e, Does o t.now t.before t.found e t.after t.left) ∧
      ∀ moves, turns o (f, s) (.step now :: moves) = t :: turns o (t.after, t.left) moves := by
  obtain ⟨next, hstep, rfl⟩ := Option.map_eq_some_iff.mp h
  refine ⟨rfl, rfl, step_does hchunk hstep, fun moves => ?_⟩
  rw [turns, h, act, hstep]
  rfl

end Turn

/-- In any run by a clock that does not go back, and for the turn `t` of any step of it: once the
client is seen to have finished there are only reads and then at most one close request; this comes
behind all bytes of the client and a silence as long as the drain timeout, when all answers are
handed on; and behind it there is nothing but the report that the relay is done. -/
theorem drained_run (o : ForwarderOptions) (hchunk : 0 < o.maxChunk) (now₀ : Nat) (s : Surroundings)
    (before after : List Move) (now : Nat) (t : Turn)
    (turn : (run o (start now₀, s) before).1.turn? o (run o (start now₀, s) before).2 (.step now) =
      some t)
    (clock : Turns.InTime (turns o (start now₀, s) before ++ [t])) :
    Drained o (s.uplink.bytes ++ fed o (start now₀, s) before) (turns o (start now₀, s) before) t
      (turns o (t.after, t.left) after) (run o (t.after, t.left) after).1
      (run o (t.after, t.left) after).2 := by
  obtain ⟨hbefore, hfound, ⟨e, hdoes⟩, hturns⟩ := turn?_eq_some hchunk turn
  have hentry : t.entry = e := hdoes.changes.entry_eq
  obtain ⟨hclock, -, hlast⟩ := List.pairwise_append.mp clock
  have haccount := account_run hchunk before now₀ s
  have hquiet := quiet_run hchunk before now₀ s hclock
  have hheld := uplink_conserved hchunk (start now₀, s) before
  rw [← hbefore, ← hfound] at haccount hquiet
  rw [← hfound] at hheld
  exact {
    only_reads := by
      intro hsees
      obtain ⟨⟨wake, hstage⟩, hclosed, hempty⟩ := Turn.seesEnd_iff.mp hsees
      have hdraining : Draining t.before t.found :=
        ⟨hclosed, hempty, fun _ => ⟨wake, hstage⟩, by simp [hstage]⟩
      rw [← hturns after]
      rw [hbefore, hfound] at hdraining
      exact hdraining.requests_run hchunk (.step now :: after)
    closes := ClosesLate.of_does haccount hquiet (fun t' ht' => hlast t' ht' t List.mem_cons_self)
      hheld hdoes
    parts := by
      intro hcloses
      obtain ⟨-, -, hends, -⟩ := hdoes.of_close (hentry ▸ hcloses)
      exact parts_run hchunk (t.after, t.left) after hends
    reported := fun hposted hopen =>
      delivered_of_reported haccount hdoes (hentry ▸ hposted) hopen }

/-- The client has finished, and the relay replies late: the silence is counted anew. -/
theorem drained_lateReply :
    let o : ForwarderOptions :=
      { pollInterval := 1000, maxFrameLength := 16, maxChunk := 2, drainTimeout := 5000 }
    let s : Surroundings :=
      { uplink := { capacity := none, bytes := [1], closed := true }
        downlink := { capacity := some 8 }
        mailbox := { capacity := 4 }
        link := {} }
    let before : List Move :=
      [.step 0, .others (.deliver [0, 0, 0, 0]), .step 0, .step 0, .step 1000,
        .others (.deliver [0, 0, 0, 1, 9]), .step 2000, .step 2000, .step 2000, .step 2000,
        .step 2000, .others (.deliver [0, 0, 0, 0]), .step 6000, .step 7000,
        .others (.deliver [0, 0, 0, 0])]
    let x := run o (start 0, s) before
    let h := turns o (start 0, s) before
    let t : Turn := ⟨7000, x.1, (act o x (.step 7000)).1, x.2, (act o x (.step 7000)).2⟩
    let h' := turns o (t.after, t.left) [.step 7000]
    0 < o.maxChunk ∧ x.1.turn? o x.2 (.step 7000) = some t ∧ Turns.InTime (h ++ [t]) ∧
      Drained o (s.uplink.bytes ++ fed o (start 0, s) before) h t h'
        (run o (t.after, t.left) [.step 7000]).1 (run o (t.after, t.left) [.step 7000]).2 ∧
      t.Closes ∧ h.stored = [9] ∧ h.posted = [.relayData] ∧ h'.posted = [.relayClosed] := by
  intro o s before x h t h'
  have hturn : x.1.turn? o x.2 (.step 7000) = some t := turn?_of_isSome (by decide +kernel)
  have hclock : Turns.InTime (h ++ [t]) := by
    unfold Turns.InTime
    decide +kernel
  refine ⟨by decide, hturn, hclock, ?_, ?_, ?_, ?_, ?_⟩
  · exact drained_run o (by decide) 0 s before [.step 7000] 7000 t hturn hclock
  · unfold Turn.Closes
    decide +kernel
  · decide +kernel
  · decide +kernel
  · decide +kernel

end Forwarder

end TcpGateway
