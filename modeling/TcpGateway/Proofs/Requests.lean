import TcpGateway.Proofs.Framing

/-!
# A reader of requests takes exactly what is written for requests

`Proofs/Framing.lean` reads written requests back.  Here nothing is known of the bytes: they may
be cut short anywhere, changed, or no requests at all.  `Request.Begins` lists the ways in which
bytes can begin, with the answer that each of them calls for, and `Request.next_eq_iff` says that
the reader gives that answer and no other.  A request is then read exactly where its encoding
stands at the front, and whatever is wrong is told apart (`Request.Answers`).

Over a whole stream, the requests read before the first error take up exactly the bytes that they
are written as (`Request.readAll_split`).  Because no request is written as the beginning of
another, a stream that is cut short gives no request that the whole stream would not have given.
-/

namespace TcpGateway

namespace Frame

/-- The length that four bytes announce. -/
def announced (data : Bytes) : Nat := (data.u32At 0).toNat

theorem announced_ofU32 {length : Nat} (h : length ≤ maxLength) (rest : Bytes) :
    announced (Bytes.ofU32 (UInt32.ofNat length) ++ rest) = length := by
  have hread : (Bytes.ofU32 (UInt32.ofNat length) ++ rest).u32At 0 = UInt32.ofNat length :=
    Bytes.toU32_ofU32 _
  rw [announced, hread, UInt32.toNat_ofNat']
  simp only [maxLength] at h
  omega

theorem length_ofU32_append (word : UInt32) (rest : Bytes) :
    (Bytes.ofU32 word ++ rest).length = 4 + rest.length := by
  rw [List.length_append]
  rfl

/-- Bytes that are too few for the frame at their front. -/
def Short (limit : Nat) (data : Bytes) : Prop :=
  data.length < 4 ∨ announced data ≤ limit ∧ data.length < 4 + announced data

theorem read_of_short {limit : Nat} {data : Bytes} (h : Short limit data) :
    read limit data = .cut := by
  by_cases hfour : data.length < 4
  · exact read_of_length_lt hfour
  · obtain ⟨length, rest, hlength, rfl⟩ := exists_length (Nat.le_of_not_lt hfour)
    rcases h with h | ⟨hlimit, hshort⟩
    · exact absurd h hfour
    · rw [announced_ofU32 hlength] at hlimit hshort
      rw [length_ofU32_append] at hshort
      rw [read_ofU32 limit hlength, if_neg (by omega), if_pos (by omega)]

theorem short_of_read {limit : Nat} {data : Bytes} (h : read limit data = .cut) :
    Short limit data := by
  by_cases hfour : data.length < 4
  · exact .inl hfour
  · obtain ⟨length, rest, hlength, rfl⟩ := exists_length (Nat.le_of_not_lt hfour)
    rw [read_ofU32 limit hlength] at h
    split at h
    · cases h
    · split at h
      · rw [Short, announced_ofU32 hlength, length_ofU32_append]
        omega
      · cases h

end Frame

namespace Request

/-! ## How bytes can begin -/

/-- The requests that begin with this byte carry data. -/
def Carries (tag : UInt8) : Prop := tag = 1 ∨ tag = 3

/-- How the bytes of a stream that has ended can begin, and what is to be answered: what comes
next, and the bytes that are left. -/
inductive Begins (limit : Nat) : Bytes → Except RelayError (Option Request) × Bytes → Prop
  | ended : Begins limit [] (.ok none, [])
  | request {r : Request} (rest : Bytes) (hlimit : r.Fits limit) (hmax : r.Fits Frame.maxLength) :
      Begins limit (r.bytes ++ rest) (.ok (some r), rest)
  | unknown {tag : UInt8} (rest : Bytes) (htag : tag ∉ [1, 2, 3, 4]) :
      Begins limit (tag :: rest)
        (.error (.protocol s!"unknown request discriminator {tag.toNat}"), rest)
  | large {tag : UInt8} {length : Nat} (rest : Bytes) (htag : Carries tag)
      (hlimit : limit < length) (hmax : length ≤ Frame.maxLength) :
      Begins limit (tag :: (Bytes.ofU32 (UInt32.ofNat length) ++ rest))
        (.error (.frameTooLarge length limit), rest)
  | short {tag : UInt8} {data : Bytes} (htag : Carries tag) (hshort : Frame.Short limit data) :
      Begins limit (tag :: data) (.error (.io .eof), [])

/-- The requests that carry data are read alike: a byte and then a frame. -/
theorem readTagged_of_carries {tag : UInt8} (h : Carries tag) :
    ∃ carry : Bytes → Request, (∀ payload, (carry payload).bytes = tag :: Frame.bytes payload ∧
        (carry payload).payload? = some payload) ∧
      ∀ limit data, readTagged limit tag data = (Frame.read limit data).map carry := by
  rcases h with rfl | rfl
  · exact ⟨.write, fun _ => ⟨rfl, rfl⟩, fun _ _ => rfl⟩
  · exact ⟨.exchange, fun _ => ⟨rfl, rfl⟩, fun _ _ => rfl⟩

theorem readTagged_of_unknown {tag : UInt8} (h : tag ∉ [1, 2, 3, 4]) (limit : Nat)
    (data : Bytes) : readTagged limit tag data =
      .bad (.protocol s!"unknown request discriminator {tag.toNat}") data := by
  simp only [List.mem_cons, List.not_mem_nil, or_false, not_or, ← UInt8.toNat_inj] at h
  unfold readTagged
  split
  · exact absurd ‹_› h.1
  · exact absurd ‹_› h.2.1
  · exact absurd ‹_› h.2.2.1
  · exact absurd ‹_› h.2.2.2
  · rfl

theorem fits_of_payload? {r : Request} {payload : Bytes} (h : r.payload? = some payload)
    {limit : Nat} (hlimit : payload.length ≤ limit) : r.Fits limit := by
  intro data hdata
  rw [h] at hdata
  cases hdata
  exact hlimit

theorem fits_of_payload?_none {r : Request} (h : r.payload? = none) (limit : Nat) :
    r.Fits limit := by
  intro data hdata
  rw [h] at hdata
  cases hdata

/-- A byte before a frame begins in one of three ways, as the frame does. -/
theorem begins_of_carries (limit : Nat) {tag : UInt8} (htag : Carries tag) (data : Bytes) :
    Begins limit (tag :: data) (next limit (tag :: data)) := by
  obtain ⟨carry, hcarry, hread⟩ := readTagged_of_carries htag
  rw [next_eq_read? (List.cons_ne_nil _ _), read?, hread]
  cases hframe : Frame.read limit data with
  | whole payload rest =>
    obtain ⟨rfl, hlimit, hmax⟩ := Frame.read_eq_whole hframe
    obtain ⟨hbytes, hpayload⟩ := hcarry payload
    have hbegins := Begins.request rest (fits_of_payload? hpayload hlimit)
      (fits_of_payload? hpayload hmax)
    rwa [hbytes] at hbegins
  | cut => exact .short htag (Frame.short_of_read hframe)
  | bad fault rest =>
    obtain ⟨length, hlimit, hmax, rfl, rfl⟩ := Frame.read_eq_bad hframe
    exact .large rest htag hlimit hmax

theorem begins_next (limit : Nat) (data : Bytes) : Begins limit data (next limit data) := by
  cases data with
  | nil => exact .ended
  | cons tag data =>
    by_cases hcarries : Carries tag
    · exact begins_of_carries limit hcarries data
    · by_cases hread : tag = 2
      · subst hread
        exact .request data (r := .read) (fits_of_payload?_none rfl _)
          (fits_of_payload?_none rfl _)
      · by_cases hclose : tag = 4
        · subst hclose
          exact .request data (r := .close) (fits_of_payload?_none rfl _)
            (fits_of_payload?_none rfl _)
        · have hunknown : tag ∉ [1, 2, 3, 4] := by
            simp only [Carries, not_or] at hcarries
            simp [hcarries, hread, hclose]
          rw [next_eq_read? (List.cons_ne_nil _ _), read?, readTagged_of_unknown hunknown]
          exact .unknown data hunknown

theorem Begins.next_eq {limit : Nat} {data : Bytes}
    {answer : Except RelayError (Option Request) × Bytes} (h : Begins limit data answer) :
    next limit data = answer := by
  cases h with
  | ended => rfl
  | request rest hlimit hmax => exact next_bytes hlimit hmax rest
  | unknown rest htag =>
    rw [next_eq_read? (List.cons_ne_nil _ _), read?, readTagged_of_unknown htag]
  | large rest htag hlimit hmax =>
    obtain ⟨carry, -, hread⟩ := readTagged_of_carries htag
    rw [next_eq_read? (List.cons_ne_nil _ _), read?, hread, Frame.read_ofU32 limit hmax,
      if_pos hlimit]
    rfl
  | short htag hshort =>
    obtain ⟨carry, -, hread⟩ := readTagged_of_carries htag
    rw [next_eq_read? (List.cons_ne_nil _ _), read?, hread, Frame.read_of_short hshort]
    rfl

theorem next_eq_iff {limit : Nat} {data : Bytes}
    {answer : Except RelayError (Option Request) × Bytes} :
    next limit data = answer ↔ Begins limit data answer :=
  ⟨fun h => h ▸ begins_next limit data, Begins.next_eq⟩

/-! ## When each answer is given -/

theorem encode_eq_ok_iff {r : Request} {data : Bytes} :
    r.encode = .ok data ↔ r.Fits Frame.maxLength ∧ data = r.bytes := by
  constructor
  · intro h
    rcases encode_cases r with ⟨hfits, hok⟩ | ⟨_, _, _, herror⟩
    · rw [hok] at h
      cases h
      exact ⟨hfits, rfl⟩
    · rw [herror] at h
      cases h
  · rintro ⟨hfits, rfl⟩
    exact encode_eq_ok hfits

/-- The answers of the reader on `data`, and when each of them is given. -/
structure Answers (limit : Nat) (data : Bytes) : Prop where
  /-- A request, if its encoding stands in front; all of that is taken and no more. -/
  request : ∀ (r : Request) (rest : Bytes), next limit data = (.ok (some r), rest) ↔
    ∃ taken, r.encode = .ok taken ∧ 1 ≤ taken.length ∧ data = taken ++ rest ∧ r.Fits limit
  ended : (next limit data).1 = .ok none ↔ data = []
  /-- One byte is taken. -/
  unknown : ∀ reason rest, next limit data = (.error (.protocol reason), rest) ↔
    ∃ tag, tag ∉ [1, 2, 3, 4] ∧ data = tag :: rest ∧
      reason = s!"unknown request discriminator {tag.toNat}"
  /-- Nothing is taken of the payload that is announced. -/
  large : ∀ length bound rest, next limit data = (.error (.frameTooLarge length bound), rest) ↔
    bound = limit ∧ ∃ tag frame, Carries tag ∧ data = tag :: frame ∧ 4 ≤ frame.length ∧
      Frame.announced frame = length ∧ limit < length ∧ rest = frame.drop 4
  short : (next limit data).1 = .error (.io .eof) ↔
    ∃ tag frame, Carries tag ∧ data = tag :: frame ∧
      (frame.length < 4 ∨
        Frame.announced frame ≤ limit ∧ frame.length < 4 + Frame.announced frame)
  /-- Bytes that are only the beginning of a request are too few. -/
  cut : ∀ (r : Request) (whole : Bytes), r.encode = .ok whole → r.Fits limit →
    data <+: whole → data ≠ [] → data ≠ whole → next limit data = (.error (.io .eof), [])

theorem answers (limit : Nat) (data : Bytes) : Answers limit data where
  request r rest := by
    rw [next_eq_iff]
    constructor
    · intro h
      cases h with
      | request _ hlimit hmax =>
        exact ⟨r.bytes, encode_eq_ok hmax, List.length_pos_iff.mpr r.bytes_ne_nil, rfl, hlimit⟩
    · rintro ⟨taken, hencode, -, rfl, hlimit⟩
      obtain ⟨hmax, rfl⟩ := encode_eq_ok_iff.mp hencode
      exact .request rest hlimit hmax
  ended := by
    constructor
    · intro h
      have hbegins := begins_next limit data
      generalize next limit data = answer at h hbegins
      cases hbegins with
      | ended => rfl
      | request | unknown | large | short => cases h
    · rintro rfl
      rfl
  unknown reason rest := by
    rw [next_eq_iff]
    constructor
    · intro h
      cases h with
      | unknown _ htag => exact ⟨_, htag, rfl, rfl⟩
    · rintro ⟨tag, htag, rfl, rfl⟩
      exact .unknown rest htag
  large length bound rest := by
    rw [next_eq_iff]
    constructor
    · intro h
      cases h with
      | large _ htag hlimit hmax =>
        refine ⟨rfl, _, _, htag, rfl, ?_, Frame.announced_ofU32 hmax rest, hlimit, rfl⟩
        rw [Frame.length_ofU32_append]
        omega
    · rintro ⟨rfl, tag, frame, htag, rfl, hfour, rfl, hlimit, rfl⟩
      obtain ⟨length, rest, hmax, rfl⟩ := Frame.exists_length hfour
      rw [Frame.announced_ofU32 hmax] at hlimit ⊢
      exact .large rest htag hlimit hmax
  short := by
    constructor
    · intro h
      have hbegins := begins_next limit data
      generalize next limit data = answer at h hbegins
      cases hbegins with
      | short htag hshort => exact ⟨_, _, htag, rfl, hshort⟩
      | ended | request | unknown | large => cases h
    · rintro ⟨tag, frame, htag, rfl, hshort⟩
      rw [(Begins.short htag hshort).next_eq]
  cut r whole hencode hlimit hfront hne hwhole := by
    obtain ⟨hmax, rfl⟩ := encode_eq_ok_iff.mp hencode
    rw [next_eq_read? hne, read?_cut hlimit hmax hfront hwhole]

/-! ## Whole streams -/

theorem fits_of_mapM_encode {rs : List Request} {encoded : List Bytes}
    (h : rs.mapM encode = .ok encoded) : ∀ r ∈ rs, r.Fits Frame.maxLength := by
  induction rs generalizing encoded with
  | nil => exact fun r hr => absurd hr List.not_mem_nil
  | cons r rs ih =>
    rw [List.mapM_cons] at h
    cases hfirst : r.encode with
    | error =>
      rw [hfirst] at h
      cases h
    | ok first =>
      cases hothers : rs.mapM encode with
      | error =>
        rw [hfirst, hothers] at h
        cases h
      | ok others =>
        exact List.forall_mem_cons.mpr ⟨(encode_eq_ok_iff.mp hfirst).1, ih hothers⟩

/-- What is written for a list of requests is what is written for each of them. -/
theorem encodeAll_eq_ok_iff {rs : List Request} {stream : Bytes} :
    encodeAll rs = .ok stream ↔
      (∀ r ∈ rs, r.Fits Frame.maxLength) ∧ stream = rs.flatMap bytes := by
  have hwritten : (∀ r ∈ rs, r.Fits Frame.maxLength) → encodeAll rs = .ok (rs.flatMap bytes) :=
    fun hfits => Frame.mapM_eq_ok fun r hr => encode_eq_ok (hfits r hr)
  constructor
  · intro h
    cases hencoded : rs.mapM encode with
    | error =>
      rw [encodeAll, hencoded] at h
      cases h
    | ok encoded =>
      have hfits := fits_of_mapM_encode hencoded
      rw [hwritten hfits] at h
      cases h
      exact ⟨hfits, rfl⟩
  · rintro ⟨hfits, rfl⟩
    exact hwritten hfits

/-- A stream is the requests read on it, as they are written, and a rest that gives no request. -/
theorem readAll_split {limit : Nat} {data left : Bytes} {rs : List Request}
    {fault? : Option RelayError} (h : readAll limit data = (rs, fault?, left)) :
    ∃ rest, (∀ r ∈ rs, r.Fits limit ∧ r.Fits Frame.maxLength) ∧
      data = rs.flatMap bytes ++ rest ∧
        next limit rest = (fault?.elim (.ok none) .error, left) := by
  induction data using readAll.induct limit generalizing rs with
  | case1 data fault rest hnext =>
    rw [readAll_of_next_error hnext] at h
    cases h
    exact ⟨data, by simp, rfl, hnext⟩
  | case2 data rest hnext =>
    have hdata := (answers limit data).ended.mp (by rw [hnext])
    subst hdata
    rw [readAll_nil] at h
    cases h
    exact ⟨[], by simp, rfl, rfl⟩
  | case3 data r rest hnext _ others _ _ hothers ih =>
    obtain ⟨taken, hencode, -, rfl, hlimit⟩ := ((answers limit data).request r rest).mp hnext
    obtain ⟨hmax, rfl⟩ := encode_eq_ok_iff.mp hencode
    rw [readAll_of_next_some hnext, hothers] at h
    cases h
    obtain ⟨behind, hfits, hrest, hend⟩ := ih hothers
    refine ⟨behind, List.forall_mem_cons.mpr ⟨⟨hlimit, hmax⟩, hfits⟩, ?_, hend⟩
    rw [List.flatMap_cons, List.append_assoc, ← hrest]

/-- A stream that is cut short gives no request that the whole stream does not give. -/
theorem readAll_front_prefix (limit : Nat) {front data : Bytes} (h : front <+: data) :
    (readAll limit front).1 <+: (readAll limit data).1 := by
  obtain ⟨more, rfl⟩ := h
  obtain ⟨rest, hfits, hfront, -⟩ := readAll_split (rfl : readAll limit front = (_, _, _))
  have hdata : front ++ more = (readAll limit front).1.flatMap bytes ++ (rest ++ more) := by
    rw [← List.append_assoc, ← hfront]
  rw [hdata, readAll_flatMap hfits]
  exact List.prefix_append _ _

/-- Nor does it give a request that was not written, whatever the limit. -/
theorem readAll_prefix_of_written (limit : Nat) {rs : List Request} {front : Bytes}
    (hfits : ∀ r ∈ rs, r.Fits Frame.maxLength) (hfront : front <+: rs.flatMap bytes) :
    (readAll limit front).1 <+: rs := by
  -- Both lists stand at the front of one stream, which is read without a limit.
  obtain ⟨more, hmore⟩ := hfront
  obtain ⟨rest, hread, hsplit, -⟩ := readAll_split (rfl : readAll limit front = (_, _, _))
  have hboth :
      (readAll limit front).1.flatMap bytes ++ (rest ++ more) = rs.flatMap bytes ++ [] := by
    rw [← List.append_assoc, ← hsplit, hmore, List.append_nil]
  have hread' : ∀ r ∈ (readAll limit front).1, r.Fits Frame.maxLength ∧ r.Fits Frame.maxLength :=
    fun r hr => ⟨(hread r hr).2, (hread r hr).2⟩
  have hone := readAll_flatMap hread' (rest ++ more)
  have hother := readAll_flatMap (fun r hr => ⟨hfits r hr, hfits r hr⟩) []
  rw [hboth, hother, readAll_nil, List.append_nil] at hone
  exact ⟨_, (congrArg Prod.fst hone).symm⟩

/-- At the front of a stream of requests there is nothing, too little, or a request. -/
theorem next_of_front {limit : Nat} {rs : List Request} {front : Bytes}
    (hfits : ∀ r ∈ rs, r.Fits limit ∧ r.Fits Frame.maxLength)
    (hfront : front <+: rs.flatMap bytes) :
    next limit front = (.ok none, []) ∨ next limit front = (.error (.io .eof), []) ∨
      ∃ r rest, next limit front = (.ok (some r), rest) := by
  by_cases hne : front = []
  · subst hne
    exact .inl rfl
  · cases rs with
    | nil => exact absurd (List.prefix_nil.mp hfront) hne
    | cons r rs =>
      obtain ⟨hlimit, hmax⟩ := hfits r List.mem_cons_self
      rw [List.flatMap_cons] at hfront
      rcases List.prefix_or_prefix_of_prefix hfront (List.prefix_append _ _) with hcut | hwhole
      · by_cases heq : front = r.bytes
        · refine .inr (.inr ⟨r, [], ?_⟩)
          have hnext := next_bytes hlimit hmax []
          rwa [List.append_nil, ← heq] at hnext
        · refine .inr (.inl ?_)
          rw [next_eq_read? hne, read?_cut hlimit hmax hcut heq]
      · obtain ⟨rest, rfl⟩ := hwhole
        exact .inr (.inr ⟨r, rest, next_bytes hlimit hmax rest⟩)

/-- Where a stream of requests was cut short, the reader finds the end of it or too few bytes. -/
theorem readAll_end_of_written {limit : Nat} {rs : List Request} {front : Bytes}
    (hfits : ∀ r ∈ rs, r.Fits limit ∧ r.Fits Frame.maxLength)
    (hfront : front <+: rs.flatMap bytes) :
    (readAll limit front).2 = (none, []) ∨ (readAll limit front).2 = (some (.io .eof), []) := by
  obtain ⟨others, hothers⟩ :=
    readAll_prefix_of_written limit (fun r hr => (hfits r hr).2) hfront
  cases hread : readAll limit front with
  | mk read ending =>
    obtain ⟨fault?, left⟩ := ending
    obtain ⟨rest, -, hsplit, hend⟩ := readAll_split hread
    have hrest : rest <+: others.flatMap bytes := by
      rw [← hothers, hread, hsplit, List.flatMap_append] at hfront
      exact (List.prefix_append_right_inj _).mp hfront
    have hremaining : ∀ r ∈ others, r.Fits limit ∧ r.Fits Frame.maxLength :=
      fun r hr => hfits r (hothers ▸ List.mem_append_right _ hr)
    rcases next_of_front hremaining hrest with hnext | hnext | ⟨r, rest', hnext⟩
    · rw [hnext] at hend
      cases fault? <;> cases hend
      exact .inl rfl
    · rw [hnext] at hend
      cases fault? <;> cases hend
      exact .inr rfl
    · rw [hnext] at hend
      cases fault? <;> cases hend

/-- The reader takes exactly what is written for requests and says what is wrong with anything
else; what it reads on a stream is what was written there, and on a stream that was cut short it
reads nothing else. -/
theorem reading_exact (limit : Nat) (data : Bytes) :
    Answers limit data ∧
      (∀ rs fault? left, readAll limit data = (rs, fault?, left) → ∃ taken rest,
        encodeAll rs = .ok taken ∧ data = taken ++ rest ∧
          next limit rest = (fault?.elim (.ok none) .error, left)) ∧
      (∀ front, front <+: data → (readAll limit front).1 <+: (readAll limit data).1) ∧
      ∀ rs, encodeAll rs = .ok data → ∀ front, front <+: data →
        (readAll limit front).1 <+: rs ∧ ((∀ r ∈ rs, r.Fits limit) →
          (readAll limit front).2 = (none, []) ∨
            (readAll limit front).2 = (some (.io .eof), [])) := by
  refine ⟨answers limit data, ?_, fun front hfront => readAll_front_prefix limit hfront, ?_⟩
  · intro rs fault? left hread
    obtain ⟨rest, hfits, hsplit, hend⟩ := readAll_split hread
    exact ⟨rs.flatMap bytes, rest,
      encodeAll_eq_ok_iff.mpr ⟨fun r hr => (hfits r hr).2, rfl⟩, hsplit, hend⟩
  · intro rs hencoded front hfront
    obtain ⟨hmax, rfl⟩ := encodeAll_eq_ok_iff.mp hencoded
    exact ⟨readAll_prefix_of_written limit hmax hfront,
      fun hlimit => readAll_end_of_written (fun r hr => ⟨hlimit r hr, hmax r hr⟩) hfront⟩

/-- Two requests, and a third one that announces more than the limit. -/
theorem reading_exact_oversized :
    readAll 3 [2, 1, 0, 0, 0, 2, 7, 8, 3, 0, 0, 0, 9, 4] =
        ([.read, .write [7, 8]], some (.frameTooLarge 9 3), [4]) ∧
      ∃ taken rest, encodeAll [.read, .write [7, 8]] = .ok taken ∧
        [2, 1, 0, 0, 0, 2, 7, 8, 3, 0, 0, 0, 9, 4] = taken ++ rest ∧
        next 3 rest = (.error (.frameTooLarge 9 3), [4]) := by
  have hread : readAll 3 [2, 1, 0, 0, 0, 2, 7, 8, 3, 0, 0, 0, 9, 4] =
      ([.read, .write [7, 8]], some (.frameTooLarge 9 3), [4]) := by
    have hfirst : next 3 [2, 1, 0, 0, 0, 2, 7, 8, 3, 0, 0, 0, 9, 4] =
        (.ok (some .read), [1, 0, 0, 0, 2, 7, 8, 3, 0, 0, 0, 9, 4]) := rfl
    have hsecond : next 3 [1, 0, 0, 0, 2, 7, 8, 3, 0, 0, 0, 9, 4] =
        (.ok (some (.write [7, 8])), [3, 0, 0, 0, 9, 4]) := rfl
    have hthird : next 3 [3, 0, 0, 0, 9, 4] = (.error (.frameTooLarge 9 3), [4]) := rfl
    rw [readAll_of_next_some hfirst, readAll_of_next_some hsecond, readAll_of_next_error hthird]
  exact ⟨hread, (reading_exact 3 _).2.1 _ _ _ hread⟩

end Request

end TcpGateway
