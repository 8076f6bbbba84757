import TcpGateway.Relay.Frame

/-!
# What is framed is read back from any stream

A frame says its own length, so a reader takes exactly the frame at the front of a stream, whatever
the payload holds and whatever follows (`Frame.read_bytes`, `Request.read?_bytes`).  A whole stream
of them is then read back by one induction for both readers (`Frame.readMany_flatMap`).  A frame
that is cut short is never taken for another one (`Frame.read_cut`, `Request.read?_cut`).
-/

namespace TcpGateway

namespace Frame

/-! ## One frame -/

/-- Four bytes are those of the word that they write. -/
theorem ofU32_toU32 (b₃ b₂ b₁ b₀ : UInt8) :
    Bytes.ofU32 (Bytes.toU32 b₃ b₂ b₁ b₀) = [b₃, b₂, b₁, b₀] := by
  have h₃ := b₃.toNat_lt
  have h₂ := b₂.toNat_lt
  have h₁ := b₁.toNat_lt
  have h₀ := b₀.toNat_lt
  have hword : (Bytes.toU32 b₃ b₂ b₁ b₀).toNat =
      Bytes.wordOf b₃ b₂ * 65536 + Bytes.wordOf b₁ b₀ := by
    rw [Bytes.toU32, UInt32.toNat_ofNat']
    simp only [Bytes.wordOf]
    omega
  simp only [Bytes.ofU32, List.cons.injEq, ← UInt8.toNat_inj, UInt8.toNat_ofNat',
    UInt32.toNat_toUInt8, hword, Bytes.wordOf, and_true]
  omega

/-- The bytes of a frame whose length can be expressed. -/
def bytes (payload : Bytes) : Bytes := Bytes.ofU32 (UInt32.ofNat payload.length) ++ payload

theorem encode_eq_ok {payload : Bytes} (h : payload.length ≤ maxLength) :
    encode payload = .ok (bytes payload) :=
  if_neg (Nat.not_lt.mpr h)

/-- A reader that has the four bytes of a length sees the length. -/
theorem read_ofU32 (limit : Nat) {length : Nat} (hlength : length ≤ maxLength) (data : Bytes) :
    read limit (Bytes.ofU32 (UInt32.ofNat length) ++ data) =
      if limit < length then .bad (.frameTooLarge length limit) data
      else if data.length < length then .cut
      else .whole (data.take length) (data.drop length) := by
  have hword : (UInt32.ofNat length).toNat = length := by
    rw [UInt32.toNat_ofNat']
    simp only [maxLength] at hlength
    omega
  simp only [Bytes.ofU32, List.cons_append, List.nil_append, read, Bytes.toU32_ofU32]
  have hshort : min length data.length < length ↔ data.length < length := by omega
  simp only [hword, List.length_take, hshort]

/-- The frame at the front of a stream is read whole, and what follows it is left. -/
theorem read_bytes {limit : Nat} {payload : Bytes} (hlimit : payload.length ≤ limit)
    (hmax : payload.length ≤ maxLength) (rest : Bytes) :
    read limit (bytes payload ++ rest) = .whole payload rest := by
  rw [bytes, List.append_assoc, read_ofU32 limit hmax, if_neg (by omega),
    if_neg (by rw [List.length_append]; omega), List.take_left, List.drop_left]

/-- Without the four bytes of a length nothing can be said. -/
theorem read_of_length_lt {limit : Nat} {data : Bytes} (h : data.length < 4) :
    read limit data = .cut := by
  match data with
  | [] | [_] | [_, _] | [_, _, _] => rfl
  | _ :: _ :: _ :: _ :: _ =>
    simp only [List.length_cons] at h
    omega

/-- Four bytes are always those of a length. -/
theorem exists_length {data : Bytes} (h : 4 ≤ data.length) :
    ∃ length rest, length ≤ maxLength ∧ data = Bytes.ofU32 (UInt32.ofNat length) ++ rest := by
  match data with
  | b₃ :: b₂ :: b₁ :: b₀ :: rest =>
    have hlt := (Bytes.toU32 b₃ b₂ b₁ b₀).toNat_lt
    refine ⟨(Bytes.toU32 b₃ b₂ b₁ b₀).toNat, rest, ?_, ?_⟩
    · simp only [maxLength]
      omega
    · rw [UInt32.ofNat_toNat, ofU32_toU32]
      rfl

/-- What is read whole is a frame at the front of what is there. -/
theorem read_eq_whole {limit : Nat} {data payload rest : Bytes}
    (h : read limit data = .whole payload rest) :
    data = bytes payload ++ rest ∧ payload.length ≤ limit ∧ payload.length ≤ maxLength := by
  by_cases hshort : data.length < 4
  · rw [read_of_length_lt hshort] at h
    cases h
  · obtain ⟨length, data, hlength, rfl⟩ := exists_length (Nat.le_of_not_lt hshort)
    rw [read_ofU32 limit hlength] at h
    split at h
    · cases h
    · split at h
      · cases h
      · rename_i hlimit hcut
        cases h
        have htake : (data.take length).length = length := by
          rw [List.length_take]
          omega
        refine ⟨?_, by omega, by omega⟩
        rw [bytes, htake, List.append_assoc, List.take_append_drop]

/-- What is refused announces more than the limit. -/
theorem read_eq_bad {limit : Nat} {data rest : Bytes} {fault : RelayError}
    (h : read limit data = .bad fault rest) :
    ∃ length, limit < length ∧ length ≤ maxLength ∧ fault = .frameTooLarge length limit ∧
      data = Bytes.ofU32 (UInt32.ofNat length) ++ rest := by
  by_cases hshort : data.length < 4
  · rw [read_of_length_lt hshort] at h
    cases h
  · obtain ⟨length, data, hlength, rfl⟩ := exists_length (Nat.le_of_not_lt hshort)
    rw [read_ofU32 limit hlength] at h
    split at h
    · rename_i hlimit
      cases h
      exact ⟨length, hlimit, hlength, rfl, rfl⟩
    · split at h <;> cases h

/-- A front of a frame is not taken for a frame. -/
theorem read_cut {limit : Nat} {payload front : Bytes} (hlimit : payload.length ≤ limit)
    (hmax : payload.length ≤ maxLength) (hfront : front <+: bytes payload)
    (hne : front ≠ bytes payload) : read limit front = .cut := by
  by_cases hshort : front.length < 4
  · exact read_of_length_lt hshort
  · have hlength : Bytes.ofU32 (UInt32.ofNat payload.length) <+: front :=
      List.prefix_of_prefix_length_le (List.prefix_append _ payload) hfront
        (Nat.le_of_not_lt hshort)
    obtain ⟨data, rfl⟩ := hlength
    have hdata : data <+: payload := (List.prefix_append_right_inj _).mp hfront
    have hlt : data.length < payload.length :=
      Nat.lt_of_not_le fun hge => hne (congrArg (_ ++ ·) (hdata.eq_of_length_le hge))
    rw [read_ofU32 limit hmax, if_neg (by omega), if_pos hlt]

theorem next_bytes {limit : Nat} {payload : Bytes} (hlimit : payload.length ≤ limit)
    (hmax : payload.length ≤ maxLength) (rest : Bytes) :
    next limit (bytes payload ++ rest) = (.ok payload, rest) := by
  rw [next, read_bytes hlimit hmax]

theorem next_nil (limit : Nat) : next limit [] = (.error (.io .eof), []) := rfl

end Frame

namespace Request

/-! ## One request -/

/-- The payload of the request, if it has one, has at most `limit` bytes. -/
def Fits (limit : Nat) (r : Request) : Prop := ∀ data, r.payload? = some data → data.length ≤ limit

/-- The bytes of a request whose length can be expressed. -/
def bytes (r : Request) : Bytes := r.tag :: (r.payload?.map Frame.bytes).getD []

theorem bytes_ne_nil (r : Request) : r.bytes ≠ [] := List.cons_ne_nil _ _

theorem encode_eq_ok {r : Request} (h : r.Fits Frame.maxLength) : r.encode = .ok r.bytes := by
  unfold encode bytes
  cases hp : r.payload? with
  | none => rfl
  | some data =>
    simp only [Frame.encode_eq_ok (h data hp)]
    rfl

/-- A request is encoded as its bytes, or it has too many of them. -/
theorem encode_cases (r : Request) :
    r.Fits Frame.maxLength ∧ r.encode = .ok r.bytes ∨
      ∃ data, r.payload? = some data ∧ Frame.maxLength < data.length ∧
        r.encode = .error (.frameTooLarge data.length Frame.maxLength) := by
  cases hp : r.payload? with
  | none =>
    have hfits : r.Fits Frame.maxLength := fun data hdata => by cases hp.symm.trans hdata
    exact .inl ⟨hfits, encode_eq_ok hfits⟩
  | some data =>
    by_cases hlarge : Frame.maxLength < data.length
    · refine .inr ⟨data, rfl, hlarge, ?_⟩
      simp only [encode, hp, Frame.encode, if_pos hlarge]
      rfl
    · have hfits : r.Fits Frame.maxLength := fun data' hdata => by
        cases hp.symm.trans hdata
        exact Nat.le_of_not_lt hlarge
      exact .inl ⟨hfits, encode_eq_ok hfits⟩

/-- The request at the front of a stream is read whole, and what follows it is left. -/
theorem read?_bytes {limit : Nat} {r : Request} (hlimit : r.Fits limit)
    (hmax : r.Fits Frame.maxLength) (rest : Bytes) :
    read? limit (r.bytes ++ rest) = .whole r rest := by
  cases r with
  | write data =>
    show (Frame.read limit (Frame.bytes data ++ rest)).map Request.write = _
    rw [Frame.read_bytes (hlimit data rfl) (hmax data rfl)]
    rfl
  | read => rfl
  | exchange data =>
    show (Frame.read limit (Frame.bytes data ++ rest)).map Request.exchange = _
    rw [Frame.read_bytes (hlimit data rfl) (hmax data rfl)]
    rfl
  | close => rfl

/-- A front of a request is not taken for a request. -/
theorem read?_cut {limit : Nat} {r : Request} {front : Bytes} (hlimit : r.Fits limit)
    (hmax : r.Fits Frame.maxLength) (hfront : front <+: r.bytes) (hne : front ≠ r.bytes) :
    read? limit front = .cut := by
  cases front with
  | nil => rfl
  | cons tag front =>
    obtain ⟨rfl, hrest⟩ := List.cons_prefix_cons.mp hfront
    have hrestne : front ≠ (r.payload?.map Frame.bytes).getD [] :=
      fun heq => hne (congrArg (_ :: ·) heq)
    cases r with
    | write data =>
      show (Frame.read limit front).map Request.write = _
      rw [Frame.read_cut (hlimit data rfl) (hmax data rfl) hrest hrestne]
      rfl
    | read => exact absurd (List.prefix_nil.mp hrest) hrestne
    | exchange data =>
      show (Frame.read limit front).map Request.exchange = _
      rw [Frame.read_cut (hlimit data rfl) (hmax data rfl) hrest hrestne]
      rfl
    | close => exact absurd (List.prefix_nil.mp hrest) hrestne

/-- As long as there are bytes, the next request is the one in front. -/
theorem next_eq_read? {limit : Nat} {data : Bytes} (h : data ≠ []) :
    next limit data =
      match read? limit data with
      | .whole r rest => (.ok (some r), rest)
      | .cut => (.error (.io .eof), [])
      | .bad fault rest => (.error fault, rest) := by
  cases data with
  | nil => exact absurd rfl h
  | cons tag data => rfl

theorem next_bytes {limit : Nat} {r : Request} (hlimit : r.Fits limit)
    (hmax : r.Fits Frame.maxLength) (rest : Bytes) :
    next limit (r.bytes ++ rest) = (.ok (some r), rest) := by
  rw [next_eq_read? (by simp [bytes]), read?_bytes hlimit hmax]

theorem next_nil (limit : Nat) : next limit [] = (.ok none, []) := rfl

end Request

/-! ## Whole streams -/

/-- If each value is read back from the front of any stream, then so is a list of values. -/
theorem Frame.readMany_flatMap {α β : Type} {next : Bytes → Except RelayError β × Bytes}
    {bytes : α → Bytes} {f : α → β} {values : List α}
    (h : ∀ x ∈ values, ∀ rest, next (bytes x ++ rest) = (.ok (f x), rest)) (rest : Bytes) :
    readMany next values.length (values.flatMap bytes ++ rest) = (.ok (values.map f), rest) := by
  induction values with
  | nil => rfl
  | cons x values ih =>
    have hx := h x List.mem_cons_self
    have hvalues := ih fun y hy => h y (List.mem_cons_of_mem _ hy)
    rw [List.length_cons, List.flatMap_cons, List.append_assoc, readMany, hx]
    simp only [hvalues]
    rfl

/-- If all values can be encoded, their encodings are written one after the other. -/
theorem Frame.mapM_eq_ok {α : Type} {encode : α → Except RelayError Bytes} {bytes : α → Bytes}
    {values : List α} (h : ∀ x ∈ values, encode x = .ok (bytes x)) :
    (values.mapM encode).map List.flatten = .ok (values.flatMap bytes) := by
  suffices hall : values.mapM encode = .ok (values.map bytes) by
    rw [hall]
    exact congrArg Except.ok List.flatMap_def.symm
  induction values with
  | nil => rfl
  | cons x values ih =>
    have hx := h x List.mem_cons_self
    have hvalues := ih fun y hy => h y (List.mem_cons_of_mem _ hy)
    rw [List.mapM_cons, hx, hvalues]
    rfl

theorem Frame.readAll_of_next_ok {limit : Nat} {data payload rest : Bytes}
    (h : next limit data = (.ok payload, rest)) :
    readAll limit data = (payload :: (readAll limit rest).1, (readAll limit rest).2) := by
  rw [readAll]
  split
  · rename_i herror
    cases h.symm.trans herror
  · rename_i hok
    cases h.symm.trans hok
    rfl

theorem Frame.readAll_of_next_error {limit : Nat} {data rest : Bytes} {fault : RelayError}
    (h : next limit data = (.error fault, rest)) : readAll limit data = ([], fault, rest) := by
  rw [readAll]
  split
  · rename_i herror
    cases h.symm.trans herror
    rfl
  · rename_i hok
    cases h.symm.trans hok

/-- Reading a stream of frames to its end gives their payloads, and goes on with what follows. -/
theorem Frame.readAll_flatMap {limit : Nat} {payloads : List Bytes}
    (h : ∀ x ∈ payloads, x.length ≤ limit ∧ x.length ≤ maxLength) (rest : Bytes) :
    readAll limit (payloads.flatMap bytes ++ rest) =
      (payloads ++ (readAll limit rest).1, (readAll limit rest).2) := by
  induction payloads with
  | nil => rfl
  | cons x payloads ih =>
    obtain ⟨hlimit, hmax⟩ := h x List.mem_cons_self
    have hpayloads := ih fun y hy => h y (List.mem_cons_of_mem _ hy)
    rw [List.flatMap_cons, List.append_assoc, readAll_of_next_ok (next_bytes hlimit hmax _),
      hpayloads]
    rfl

theorem Request.readAll_of_next_some {limit : Nat} {data rest : Bytes} {r : Request}
    (h : next limit data = (.ok (some r), rest)) :
    readAll limit data = (r :: (readAll limit rest).1, (readAll limit rest).2) := by
  rw [readAll]
  split
  · rename_i herror
    cases h.symm.trans herror
  · rename_i hnone
    cases h.symm.trans hnone
  · rename_i hsome
    cases h.symm.trans hsome
    rfl

theorem Request.readAll_nil (limit : Nat) : readAll limit [] = ([], none, []) := by
  rw [readAll]
  rfl

theorem Request.readAll_of_next_error {limit : Nat} {data rest : Bytes} {fault : RelayError}
    (h : next limit data = (.error fault, rest)) : readAll limit data = ([], some fault, rest) := by
  rw [readAll]
  split
  · rename_i herror
    cases h.symm.trans herror
    rfl
  · rename_i hnone
    cases h.symm.trans hnone
  · rename_i hsome
    cases h.symm.trans hsome

/-- Reading a stream of requests to its end gives them back, and goes on with what follows. -/
theorem Request.readAll_flatMap {limit : Nat} {rs : List Request}
    (h : ∀ r ∈ rs, r.Fits limit ∧ r.Fits Frame.maxLength) (rest : Bytes) :
    readAll limit (rs.flatMap bytes ++ rest) =
      (rs ++ (readAll limit rest).1, (readAll limit rest).2) := by
  induction rs with
  | nil => rfl
  | cons r rs ih =>
    obtain ⟨hlimit, hmax⟩ := h r List.mem_cons_self
    have hrs := ih fun y hy => h y (List.mem_cons_of_mem _ hy)
    rw [List.flatMap_cons, List.append_assoc, readAll_of_next_some (next_bytes hlimit hmax _), hrs]
    rfl

/-- What was written on a stream, requests or answers, is read back in order, each as it was given,
and what follows on the stream is left. -/
theorem framing_roundTrip (limit : Nat) (rs : List Request) (answers : List Bytes) (rest : Bytes)
    (hrs : ∀ r ∈ rs, ∀ data, r.payload? = some data →
      data.length ≤ limit ∧ data.length ≤ Frame.maxLength)
    (hanswers : ∀ data ∈ answers, data.length ≤ limit ∧ data.length ≤ Frame.maxLength) :
    (∃ stream, Request.encodeAll rs = .ok stream ∧
      Frame.readMany (Request.next limit) rs.length (stream ++ rest) = (.ok (rs.map some), rest) ∧
      Request.next limit [] = (.ok none, []) ∧ Request.readAll limit stream = (rs, none, [])) ∧
    ∃ stream, Frame.encodeAll answers = .ok stream ∧
      Frame.readMany (Frame.next limit) answers.length (stream ++ rest) = (.ok answers, rest) ∧
      Frame.next limit [] = (.error (.io .eof), []) ∧
      Frame.readAll limit stream = (answers, .io .eof, []) := by
  have hfits : ∀ r ∈ rs, r.Fits limit ∧ r.Fits Frame.maxLength := fun r hr =>
    ⟨fun data hdata => (hrs r hr data hdata).1, fun data hdata => (hrs r hr data hdata).2⟩
  constructor
  · refine ⟨rs.flatMap Request.bytes, ?_, ?_, Request.next_nil limit, ?_⟩
    · exact Frame.mapM_eq_ok fun r hr => Request.encode_eq_ok (hfits r hr).2
    · exact Frame.readMany_flatMap (fun r hr => Request.next_bytes (hfits r hr).1 (hfits r hr).2) _
    · have hall := Request.readAll_flatMap hfits []
      rwa [List.append_nil, Request.readAll_nil, List.append_nil] at hall
  · refine ⟨answers.flatMap Frame.bytes, ?_, ?_, Frame.next_nil limit, ?_⟩
    · exact Frame.mapM_eq_ok fun data hdata => Frame.encode_eq_ok (hanswers data hdata).2
    · have hmany := Frame.readMany_flatMap (f := id)
        (fun x hx => Frame.next_bytes (hanswers x hx).1 (hanswers x hx).2) rest
      rwa [List.map_id] at hmany
    · have hall := Frame.readAll_flatMap hanswers []
      rwa [List.append_nil, Frame.readAll_of_next_error (Frame.next_nil limit), List.append_nil]
        at hall

/-- Two requests and an answer, the payload of the first request looking like a request itself. -/
theorem framing_roundTrip_nested :
    (∃ stream, Request.encodeAll [.exchange [3, 0, 0, 0, 1, 9], .write []] = .ok stream ∧
      Frame.readMany (Request.next 6) 2 (stream ++ [7]) =
        (.ok [some (.exchange [3, 0, 0, 0, 1, 9]), some (.write [])], [7]) ∧
      Request.next 6 [] = (.ok none, []) ∧
      Request.readAll 6 stream = ([.exchange [3, 0, 0, 0, 1, 9], .write []], none, [])) ∧
    ∃ stream, Frame.encodeAll [[], [0, 0, 0, 0]] = .ok stream ∧
      Frame.readMany (Frame.next 6) 2 (stream ++ [7]) = (.ok [[], [0, 0, 0, 0]], [7]) ∧
      Frame.next 6 [] = (.error (.io .eof), []) ∧
      Frame.readAll 6 stream = ([[], [0, 0, 0, 0]], .io .eof, []) :=
  framing_roundTrip 6 [.exchange [3, 0, 0, 0, 1, 9], .write []] [[], [0, 0, 0, 0]] [7]
    (by simp [Request.payload?, Frame.maxLength]) (by simp [Frame.maxLength])

end TcpGateway
