import TcpGateway.Bytes
import TcpGateway.Relay.Error

/-!
# Frames and requests

A frame is a 32-bit length followed by so many bytes.  The gateway sends requests, each a byte
that says which, followed by a frame if it carries data; the relay answers with bare frames.
Each reader works on the bytes received so far and says what stands at their front (`read`,
`read?`).  On a stream that has ended it can be said what comes next (`next`) and what is read
altogether (`readAll`).
-/

namespace TcpGateway

namespace Frame

/-- The largest length that a frame can express. -/
def maxLength : Nat := 4294967295

def encode (payload : Bytes) : Except RelayError Bytes :=
  if maxLength < payload.length then .error (.frameTooLarge payload.length maxLength)
  else .ok (Bytes.ofU32 (UInt32.ofNat payload.length) ++ payload)

/-- What stands at the front of a byte string. -/
inductive Front (α : Type) where
  | whole (value : α) (rest : Bytes)
  /-- More bytes are needed. -/
  | cut
  | bad (fault : RelayError) (rest : Bytes)

def Front.map {α β : Type} (f : α → β) : Front α → Front β
  | whole value rest => .whole (f value) rest
  | cut => .cut
  | bad fault rest => .bad fault rest

theorem Front.map_eq_whole {α β : Type} {f : α → β} {x : Front α} {b : β} {rest : Bytes} :
    x.map f = .whole b rest ↔ ∃ a, x = .whole a rest ∧ f a = b := by
  cases x with
  | whole value _ =>
    simp only [Front.map, Front.whole.injEq]
    exact ⟨fun h => ⟨value, ⟨rfl, h.2⟩, h.1⟩, fun ⟨_, ⟨hv, hr⟩, hb⟩ => ⟨hv ▸ hb, hr⟩⟩
  | cut => simp [Front.map]
  | bad => simp [Front.map]

/-- The frame at the front of `data`, refused as soon as its length is seen to be above
`limit`. -/
def read (limit : Nat) (data : Bytes) : Front Bytes :=
  match data with
  | b₃ :: b₂ :: b₁ :: b₀ :: rest =>
    let length := (Bytes.toU32 b₃ b₂ b₁ b₀).toNat
    if limit < length then .bad (.frameTooLarge length limit) rest
    else
      let payload := rest.take length
      if payload.length < length then .cut else .whole payload (rest.drop length)
  | _ => .cut

end Frame

/-- A request to the relay. -/
inductive Request where
  /-- Forward these bytes. -/
  | write (data : Bytes)
  /-- Answer with what there is. -/
  | read
  /-- Forward these bytes and answer with what there is. -/
  | exchange (data : Bytes)
  /-- The client has finished. -/
  | close
deriving DecidableEq, Repr

namespace Request

/-- The byte a request begins with. -/
def tag : Request → UInt8
  | write _ => 1
  | read => 2
  | exchange _ => 3
  | close => 4

/-- Whether the relay answers with a frame. -/
def expectsAnswer : Request → Bool
  | read | exchange _ => true
  | write _ | close => false

def payload? : Request → Option Bytes
  | write data | exchange data => some data
  | read | close => none

def encode (r : Request) : Except RelayError Bytes :=
  match r.payload? with
  | none => .ok [r.tag]
  | some data => (Frame.encode data).map (r.tag :: ·)

/-- The request that begins with the byte `tag` and goes on with `data`. -/
def readTagged (limit : Nat) (tag : UInt8) (data : Bytes) : Frame.Front Request :=
  match tag.toNat with
  | 1 => (Frame.read limit data).map .write
  | 2 => .whole .read data
  | 3 => (Frame.read limit data).map .exchange
  | 4 => .whole .close data
  | other => .bad (.protocol s!"unknown request discriminator {other}") data

/-- The request at the front of `data`. -/
def read? (limit : Nat) (data : Bytes) : Frame.Front Request :=
  match data with
  | [] => .cut
  | tag :: rest => readTagged limit tag rest

end Request

/-! ## Streams that have ended -/

namespace Frame

/-- The next answer of a stream that ends with `data`, and what is left; a frame cut short uses
up all that is there. -/
def next (limit : Nat) (data : Bytes) : Except RelayError Bytes × Bytes :=
  match read limit data with
  | .whole payload rest => (.ok payload, rest)
  | .cut => (.error (.io .eof), [])
  | .bad fault rest => (.error fault, rest)

/-- A frame takes up at least one byte. -/
theorem length_lt_of_read {limit : Nat} {data payload rest : Bytes}
    (h : read limit data = .whole payload rest) : rest.length < data.length := by
  unfold read at h
  split at h
  · dsimp only at h
    split at h
    · cases h
    · split at h
      · cases h
      · cases h
        simp only [List.length_drop, List.length_cons]
        omega
  · cases h

theorem length_lt_of_next {limit : Nat} {data payload rest : Bytes}
    (h : next limit data = (.ok payload, rest)) : rest.length < data.length := by
  unfold next at h
  split at h <;> cases h
  exact length_lt_of_read ‹_›

/-- The answers of a stream that ends with `data`, the error that ends them, and what is left. -/
def readAll (limit : Nat) (data : Bytes) : List Bytes × RelayError × Bytes :=
  match h : next limit data with
  | (.error fault, rest) => ([], fault, rest)
  | (.ok payload, rest) =>
    have := length_lt_of_next h
    let (others, fault, left) := readAll limit rest
    (payload :: others, fault, left)
termination_by data.length

end Frame

namespace Request

/-- The next request of a stream that ends with `data`, none at its end, and what is left. -/
def next (limit : Nat) (data : Bytes) : Except RelayError (Option Request) × Bytes :=
  match data with
  | [] => (.ok none, [])
  | _ =>
    match read? limit data with
    | .whole r rest => (.ok (some r), rest)
    | .cut => (.error (.io .eof), [])
    | .bad fault rest => (.error fault, rest)

/-- A request takes up at least one byte. -/
theorem length_lt_of_read? {limit : Nat} {data rest : Bytes} {r : Request}
    (h : read? limit data = .whole r rest) : rest.length < data.length := by
  unfold read? at h
  split at h
  · cases h
  · unfold readTagged at h
    split at h
    · obtain ⟨_, h, _⟩ := Frame.Front.map_eq_whole.mp h
      exact Nat.lt_succ_of_lt (Frame.length_lt_of_read h)
    · cases h; simp
    · obtain ⟨_, h, _⟩ := Frame.Front.map_eq_whole.mp h
      exact Nat.lt_succ_of_lt (Frame.length_lt_of_read h)
    · cases h; simp
    · cases h

theorem length_lt_of_next {limit : Nat} {data rest : Bytes} {r : Request}
    (h : next limit data = (.ok (some r), rest)) : rest.length < data.length := by
  unfold next at h
  split at h
  · cases h
  · split at h <;> cases h
    exact length_lt_of_read? ‹_›

/-- The requests of a stream that ends with `data`, the error that ends them if it is not the
end of the stream, and what is left. -/
def readAll (limit : Nat) (data : Bytes) : List Request × Option RelayError × Bytes :=
  match h : next limit data with
  | (.error fault, rest) => ([], some fault, rest)
  | (.ok none, rest) => ([], none, rest)
  | (.ok (some r), rest) =>
    have := length_lt_of_next h
    let (others, fault, left) := readAll limit rest
    (r :: others, fault, left)
termination_by data.length

end Request

/-! ## Many values on one stream -/

/-- The stream on which `payloads` are written one after the other. -/
def Frame.encodeAll (payloads : List Bytes) : Except RelayError Bytes :=
  (payloads.mapM encode).map List.flatten

/-- The stream on which `rs` are written one after the other. -/
def Request.encodeAll (rs : List Request) : Except RelayError Bytes :=
  (rs.mapM encode).map List.flatten

/-- What `count` readings by `next` give, up to the first that fails, and what they leave. -/
def Frame.readMany {α : Type} (next : Bytes → Except RelayError α × Bytes) (count : Nat)
    (data : Bytes) : Except RelayError (List α) × Bytes :=
  match count with
  | 0 => (.ok [], data)
  | count + 1 =>
    match next data with
    | (.error fault, rest) => (.error fault, rest)
    | (.ok value, rest) =>
      let (values, left) := readMany next count rest
      (values.map (value :: ·), left)

end TcpGateway
