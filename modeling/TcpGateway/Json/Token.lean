/-!
# JSON tokens

Text is cut into tokens by a machine that reads one character at a time (`Lexer.step`).  A
string keeps its characters only if its escapes spell text, that is if surrogates come in pairs;
a number keeps its value only if it is a plain natural number.  All else about numbers and all
words but three is checked and forgotten.
-/

namespace TcpGateway.Json

inductive Token where
  | openBrace
  | closeBrace
  | openBracket
  | closeBracket
  | comma
  | colon
  | null
  | bool (b : Bool)
  /-- A number, with its value if it is written by digits alone. -/
  | number (natural : Option Nat)
  /-- A string, with its characters if they are text. -/
  | string (text : Option String)
deriving DecidableEq, Repr

/-! ## Strings -/

/-- The characters of a string so far. -/
structure Spelling where
  text : String := ""
  /-- A high surrogate whose other half has to come next. -/
  high : Option Nat := none
  isText : Bool := true
deriving DecidableEq, Repr

namespace Spelling

def push (s : Spelling) (c : Char) : Spelling :=
  { text := s.text.push c, high := none, isText := s.isText && s.high.isNone }

/-- Adds an escaped 16-bit unit. -/
def pushUnit (s : Spelling) (unit : Nat) : Spelling :=
  if 0xD800 ≤ unit ∧ unit < 0xDC00 then
    { s with high := some unit, isText := s.isText && s.high.isNone }
  else if 0xDC00 ≤ unit ∧ unit < 0xE000 then
    match s.high with
    | some high =>
      { s with
        text := s.text.push (Char.ofNat (0x10000 + (high - 0xD800) * 0x400 + (unit - 0xDC00)))
        high := none }
    | none => { s with isText := false }
  else s.push (Char.ofNat unit)

def token (s : Spelling) : Token :=
  .string (if s.isText && s.high.isNone then some s.text else none)

end Spelling

/-- The character that a one-letter escape stands for. -/
def escape? : Char → Option Char
  | '"' => some '"'
  | '\\' => some '\\'
  | '/' => some '/'
  | 'b' => some '\x08'
  | 'f' => some '\x0c'
  | 'n' => some '\n'
  | 'r' => some '\r'
  | 't' => some '\t'
  | _ => none

def hexDigit? (c : Char) : Option Nat :=
  if '0' ≤ c ∧ c ≤ '9' then some (c.toNat - 48)
  else if 'a' ≤ c ∧ c ≤ 'f' then some (c.toNat - 87)
  else if 'A' ≤ c ∧ c ≤ 'F' then some (c.toNat - 55)
  else none

/-! ## The machine -/

/-- How much of a number has been read. -/
inductive Numeral where
  | minus
  | zero (negative : Bool)
  | digits (negative : Bool) (value : Nat)
  | point
  | fraction
  | exponent
  | exponentSign
  | exponentDigits
deriving DecidableEq, Repr

namespace Numeral

/-- The numeral with one more character; `none` if that character is not part of it. -/
def next? (n : Numeral) (c : Char) : Option Numeral :=
  let fractionOrExponent : Option Numeral :=
    if c = '.' then some .point else if c = 'e' ∨ c = 'E' then some .exponent else none
  match n with
  | .minus =>
    if c = '0' then some (.zero true)
    else if c.isDigit then some (.digits true (c.toNat - 48)) else none
  | .zero _ => fractionOrExponent
  | .digits negative value =>
    if c.isDigit then some (.digits negative (value * 10 + (c.toNat - 48)))
    else fractionOrExponent
  | .point => if c.isDigit then some .fraction else none
  | .fraction =>
    if c.isDigit then some .fraction else if c = 'e' ∨ c = 'E' then some .exponent else none
  | .exponent =>
    if c.isDigit then some .exponentDigits
    else if c = '+' ∨ c = '-' then some .exponentSign else none
  | .exponentSign | .exponentDigits => if c.isDigit then some .exponentDigits else none

/-- The token of a numeral that may end here. -/
def token? : Numeral → Option Token
  | .zero negative => some (.number (if negative then none else some 0))
  | .digits negative value => some (.number (if negative then none else some value))
  | .fraction | .exponentDigits => some (.number none)
  | _ => none

end Numeral

/-- What the lexer is in the middle of. -/
inductive Lexer where
  | between
  | string (s : Spelling)
  | escape (s : Spelling)
  /-- In a `\u` escape: digits to come and the value so far. -/
  | unit (s : Spelling) (left value : Nat)
  | number (n : Numeral)
  | word (rest : List Char) (token : Token)
deriving Repr

namespace Lexer

/-- Reads a character outside of any token. -/
def start (c : Char) : Option (Lexer × List Token) :=
  if c = ' ' ∨ c = '\n' ∨ c = '\t' ∨ c = '\r' then some (.between, [])
  else
    match c with
    | '\x7b' => some (.between, [.openBrace])
    | '\x7d' => some (.between, [.closeBrace])
    | '[' => some (.between, [.openBracket])
    | ']' => some (.between, [.closeBracket])
    | ',' => some (.between, [.comma])
    | ':' => some (.between, [.colon])
    | '"' => some (.string {}, [])
    | '-' => some (.number .minus, [])
    | '0' => some (.number (.zero false), [])
    | 't' => some (.word ['r', 'u', 'e'] (.bool true), [])
    | 'f' => some (.word ['a', 'l', 's', 'e'] (.bool false), [])
    | 'n' => some (.word ['u', 'l', 'l'] .null, [])
    | c => if c.isDigit then some (.number (.digits false (c.toNat - 48)), []) else none

/-- Reads one character: the next state and the tokens that it ends; `none` if no JSON text goes
on like this. -/
def step (l : Lexer) (c : Char) : Option (Lexer × List Token) :=
  match l with
  | .between => start c
  | .string s =>
    if c = '"' then some (.between, [s.token])
    else if c = '\\' then some (.escape s, [])
    else if c.toNat < 32 then none
    else some (.string (s.push c), [])
  | .escape s =>
    if c = 'u' then some (.unit s 3 0, [])
    else (escape? c).map fun x => (.string (s.push x), [])
  | .unit s left value =>
    match hexDigit? c, left with
    | none, _ => none
    | some d, 0 => some (.string (s.pushUnit (value * 16 + d)), [])
    | some d, left + 1 => some (.unit s left (value * 16 + d), [])
  | .number n =>
    match n.next? c with
    | some n => some (.number n, [])
    | none =>
      match n.token?, start c with
      | some token, some (l, tokens) => some (l, token :: tokens)
      | _, _ => none
  | .word rest token =>
    match rest with
    | [] => none
    | [x] => if c = x then some (.between, [token]) else none
    | x :: rest => if c = x then some (.word rest token, []) else none

/-- The tokens that the end of the text ends. -/
def finish : Lexer → Option (List Token)
  | .between => some []
  | .number n => n.token?.map fun token => [token]
  | _ => none

end Lexer

/-- The tokens of a text, or `none` if it holds something that is none. -/
def tokens? (text : String) : Option (List Token) := do
  let (l, reversed) ← text.toList.foldlM
    (fun ((l, reversed) : Lexer × List Token) c =>
      (l.step c).map fun (l, tokens) => (l, tokens.reverse ++ reversed))
    (Lexer.between, [])
  let last ← l.finish
  pure (reversed.reverse ++ last)

end TcpGateway.Json
