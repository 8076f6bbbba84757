import TcpGateway.Json.Token

/-!
# JSON values

Tokens are put together by a machine that keeps the containers it is inside of on a stack, so a
text may be nested to any depth.
-/

namespace TcpGateway.Json

inductive Value where
  | null
  | bool (b : Bool)
  /-- A number, with its value if it is a plain natural number. -/
  | number (natural : Option Nat)
  /-- A string, with its characters if they are text. -/
  | string (text : Option String)
  | array (items : List Value)
  | object (members : List (Option String × Value))

namespace Value

/-- A container that is not closed yet; what it holds stands in reverse. -/
inductive Partial where
  | array (items : List Value)
  | object (members : List (Option String × Value))
  /-- An object whose last key waits for its value. -/
  | member (members : List (Option String × Value)) (key : Option String)

/-- What may come next. -/
inductive Expect where
  | value
  /-- In a fresh array: a value or its end. -/
  | firstItem
  /-- In a fresh object: a key or its end. -/
  | firstKey
  | key
  | colon
  /-- After a value in a container. -/
  | separator
  | finished (v : Value)

/-- The containers around the next token, innermost first, and what that token may be. -/
structure Builder where
  stack : List Partial := []
  expect : Expect := .value

namespace Builder

/-- Puts a complete value into the innermost container. -/
def put (b : Builder) (v : Value) : Option Builder :=
  match b.stack with
  | [] => some ⟨[], .finished v⟩
  | .array items :: rest => some ⟨.array (v :: items) :: rest, .separator⟩
  | .member members key :: rest => some ⟨.object ((key, v) :: members) :: rest, .separator⟩
  | .object _ :: _ => none

/-- Closes the innermost container, an array or an object as `brace` says. -/
def close (b : Builder) (brace : Bool) : Option Builder :=
  match b.stack, brace with
  | .array items :: rest, false => put ⟨rest, .value⟩ (.array items.reverse)
  | .object members :: rest, true => put ⟨rest, .value⟩ (.object members.reverse)
  | _, _ => none

/-- Begins a value. -/
def value (b : Builder) (t : Token) : Option Builder :=
  match t with
  | .openBracket => some ⟨.array [] :: b.stack, .firstItem⟩
  | .openBrace => some ⟨.object [] :: b.stack, .firstKey⟩
  | .null => b.put .null
  | .bool x => b.put (.bool x)
  | .number n => b.put (.number n)
  | .string s => b.put (.string s)
  | _ => none

def key (b : Builder) (t : Token) : Option Builder :=
  match t, b.stack with
  | .string s, .object members :: rest => some ⟨.member members s :: rest, .colon⟩
  | _, _ => none

/-- Takes one token; `none` if it may not stand here. -/
def step (b : Builder) (t : Token) : Option Builder :=
  match b.expect with
  | .value => b.value t
  | .firstItem => if t = .closeBracket then b.close false else b.value t
  | .firstKey => if t = .closeBrace then b.close true else b.key t
  | .key => b.key t
  | .colon => if t = .colon then some { b with expect := .value } else none
  | .separator =>
    match t, b.stack with
    | .closeBracket, _ => b.close false
    | .closeBrace, _ => b.close true
    | .comma, .array _ :: _ => some { b with expect := .value }
    | .comma, .object _ :: _ => some { b with expect := .key }
    | _, _ => none
  | .finished _ => none

end Builder

/-- The value that tokens make up, if they make up just one. -/
def ofTokens? (tokens : List Token) : Option Value :=
  match tokens.foldlM Builder.step {} with
  | some ⟨_, .finished v⟩ => some v
  | _ => none

/-- The value that a text denotes. -/
def ofText? (text : String) : Option Value := (tokens? text).bind ofTokens?

/-! ## Reading values of known form -/

/-- A natural number up to `limit`. -/
def nat? (limit : Nat) : Value → Option Nat
  | .number (some n) => if n ≤ limit then some n else none
  | _ => none

def string? : Value → Option String
  | .string s => s
  | _ => none

/-- A field of a record: its name, and how its value changes the record. -/
structure Field (σ : Type) where
  name : String
  set : σ → Value → Option σ

/-- Reads a record that starts out as `initial`.  An object sets fields by name, each at most
once, and other names are skipped; an array sets them in order, from the first on. -/
def record? {σ : Type} (fields : List (Field σ)) (initial : σ) : Value → Option σ
  | .array items =>
    if items.length ≤ fields.length then
      (fields.zip items).foldlM (fun r (field, v) => field.set r v) initial
    else none
  | .object members => do
    let named ← members.mapM fun (key, v) => key.map (·, v)
    let known := named.filterMap fun (key, v) =>
      (fields.find? (·.name == key)).map (key, ·, v)
    if (known.map (·.1)).Nodup then
      known.foldlM (fun r (_, field, v) => field.set r v) initial
    else none
  | _ => none

end Value

end TcpGateway.Json
