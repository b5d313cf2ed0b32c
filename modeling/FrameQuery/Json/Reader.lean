import FrameQuery.Json.Value
import FrameQuery.Number.Reading

/-!
# Reading JSON

Strict JSON text (RFC 8259): the text is cut into tokens, blanks between them dropped, and the
tokens are read as one value with nothing after it. Control characters in strings, leading zeros and
any other notation are refused. A surrogate without its partner is no fault of the text, though no
value is made of what it stands in.
-/

namespace FrameQuery.Json

/-- A token of JSON text. -/
inductive Token where
  | openBrace
  | closeBrace
  | openBracket
  | closeBracket
  | colon
  | comma
  /-- A string, a number or a word. -/
  | scalar (value : Json)
  deriving Repr

namespace Token

/-- The blanks of JSON text. -/
def isBlank (c : Char) : Bool := c == ' ' || c == '\t' || c == '\n' || c == '\r'

/-- The value of a hexadecimal digit. -/
def hexDigit (c : Char) : Option Nat :=
  if c.isDigit then some (c.toNat - '0'.toNat)
  else if 'a' ≤ c ∧ c ≤ 'f' then some (c.toNat - 'a'.toNat + 10)
  else if 'A' ≤ c ∧ c ≤ 'F' then some (c.toNat - 'A'.toNat + 10)
  else none

/-- The number written by four hexadecimal digits. -/
def hexNumber (a b c d : Char) : Option Nat := do
  return (((← hexDigit a) * 16 + (← hexDigit b)) * 16 + (← hexDigit c)) * 16 + (← hexDigit d)

/-- The character a short escape stands for. -/
def shortEscape (c : Char) : Option Char :=
  match c with
  | '"' => some '"'
  | '\\' => some '\\'
  | '/' => some '/'
  | 'b' => some '\x08'
  | 'f' => some '\x0c'
  | 'n' => some '\n'
  | 'r' => some '\r'
  | 't' => some '\t'
  | _ => none

/-- The character that two surrogates stand for. -/
def surrogatePair (high low : Nat) : Char :=
  Char.ofNat (0x10000 + (high - 0xD800) * 0x400 + (low - 0xDC00))

/-- The characters of a string, the last one first, unless it holds a surrogate without its partner;
`pending` is a high surrogate that is still without one. -/
def settled (pending : Option Nat) (read : Option (List Char)) : Option (List Char) :=
  if pending.isSome then none else read

/-- Reads a string from behind its opening quote. -/
def string : List Char → Option Nat → Option (List Char) → Option (Json × List Char)
  | '"' :: rest, pending, read =>
    match settled pending read with
    | some read => some (.string (String.ofList read.reverse), rest)
    | none => some (.unpaired, rest)
  | '\\' :: 'u' :: a :: b :: c :: d :: rest, pending, read =>
    match hexNumber a b c d with
    | none => none
    | some n =>
      if n < 0xD800 ∨ 0xE000 ≤ n then
        string rest none ((settled pending read).map (Char.ofNat n :: ·))
      else if n < 0xDC00 then string rest (some n) (settled pending read)
      else match pending with
        | some high => string rest none (read.map (surrogatePair high n :: ·))
        | none => string rest none none
  | '\\' :: c :: rest, pending, read =>
    match shortEscape c with
    | some c => string rest none ((settled pending read).map (c :: ·))
    | none => none
  | c :: rest, pending, read =>
    if c.toNat < 32 then none else string rest none ((settled pending read).map (c :: ·))
  | [], _, _ => none

/-- The digits of a whole number without a superfluous zero in front. -/
def isWhole : List Char → Bool
  | [] => false
  | ['0'] => true
  | c :: _ => c != '0'

/-- Reads a number. Digits have to stand on both sides of a point and after the sign of a power. -/
def number (s : List Char) : Option (Json × List Char) :=
  let (negative, s) := match s with
    | '-' :: rest => (true, rest)
    | s => (false, s)
  let whole := s.takeWhile Char.isDigit
  let s := s.dropWhile Char.isDigit
  let (hasPoint, places, s) := match s with
    | '.' :: rest => (true, rest.takeWhile Char.isDigit, rest.dropWhile Char.isDigit)
    | s => (false, [], s)
  let (hasPower, lowered, power, s) := match s with
    | c :: rest =>
      if c = 'e' ∨ c = 'E' then
        let (lowered, rest) := Reading.sign rest
        (true, lowered, rest.takeWhile Char.isDigit, rest.dropWhile Char.isDigit)
      else (false, false, [], s)
    | [] => (false, false, [], s)
  if !isWhole whole || (hasPoint && places.isEmpty) || (hasPower && power.isEmpty) then none
  else if hasPoint || hasPower then
    let power : Int := Reading.digitsValue power
    some (.decimal negative (Reading.digitsValue (whole ++ places))
      ((if lowered then -power else power) - places.length), s)
  else
    let value := Reading.digitsValue whole
    if negative ∧ value = 0 then some (.decimal true 0 0, s)
    else some (.integer (if negative then -(value : Int) else value), s)

/-- Reads the first token of a text without blanks in front, and what follows it. -/
def first : List Char → Option (Token × List Char)
  | '\x7b' :: rest => some (.openBrace, rest)
  | '\x7d' :: rest => some (.closeBrace, rest)
  | '[' :: rest => some (.openBracket, rest)
  | ']' :: rest => some (.closeBracket, rest)
  | ':' :: rest => some (.colon, rest)
  | ',' :: rest => some (.comma, rest)
  | '"' :: rest => (string rest none (some [])).map fun (s, rest) ↦ (.scalar s, rest)
  | 'n' :: 'u' :: 'l' :: 'l' :: rest => some (.scalar .null, rest)
  | 't' :: 'r' :: 'u' :: 'e' :: rest => some (.scalar (.boolean true), rest)
  | 'f' :: 'a' :: 'l' :: 's' :: 'e' :: rest => some (.scalar (.boolean false), rest)
  | s => (number s).map fun (n, rest) ↦ (.scalar n, rest)

/-- The key that a token is, if it is a string; one that is no text has no name. -/
def key? : Token → Option (Option String)
  | .scalar (.string key) => some (some key)
  | .scalar .unpaired => some none
  | _ => none

/-- Cuts a text into tokens, at most `fuel` of them and of the blanks between them. -/
def cut : Nat → List Char → Option (List Token)
  | 0, s => if s = [] then some [] else none
  | _ + 1, [] => some []
  | fuel + 1, c :: rest =>
    if isBlank c then cut fuel rest
    else match first (c :: rest) with
      | none => none
      | some (token, rest) => (cut fuel rest).map (token :: ·)

end Token

/-- The object with these members, if all their keys are texts. -/
def ofMembers (members : List (Option String × Json)) : Json :=
  match members.mapM fun (key, value) ↦ key.map (·, value) with
  | some members => .object members
  | none => .unpaired

mutual

/-- Reads one value, nesting at most `fuel` steps of reading. -/
def value : Nat → List Token → Option (Json × List Token)
  | 0, _ => none
  | fuel + 1, tokens =>
    match tokens with
    | .scalar v :: rest => some (v, rest)
    | .openBracket :: .closeBracket :: rest => some (.array [], rest)
    | .openBracket :: rest => (items fuel rest).map fun (vs, rest) ↦ (.array vs, rest)
    | .openBrace :: .closeBrace :: rest => some (.object [], rest)
    | .openBrace :: rest => (members fuel rest).map fun (ms, rest) ↦ (ofMembers ms, rest)
    | _ => none

/-- Reads the items of an array up to its closing bracket. -/
def items : Nat → List Token → Option (List Json × List Token)
  | 0, _ => none
  | fuel + 1, tokens =>
    match value fuel tokens with
    | some (v, .comma :: rest) => (items fuel rest).map fun (vs, rest) ↦ (v :: vs, rest)
    | some (v, .closeBracket :: rest) => some ([v], rest)
    | _ => none

/-- Reads the members of an object up to its closing brace. -/
def members : Nat → List Token → Option (List (Option String × Json) × List Token)
  | 0, _ => none
  | fuel + 1, tokens =>
    match tokens with
    | token :: .colon :: rest =>
      match token.key?, value fuel rest with
      | some key, some (v, .comma :: rest) =>
        (members fuel rest).map fun (ms, rest) ↦ ((key, v) :: ms, rest)
      | some key, some (v, .closeBrace :: rest) => some ([(key, v)], rest)
      | _, _ => none
    | _ => none

end

/-- Reads a text that holds one value and blanks around it. Every step of reading takes a token or
goes one level down, so that twice the number of tokens bounds them. -/
def ofText? (s : String) : Option Json := do
  let chars := s.toList
  let tokens ← Token.cut chars.length chars
  match value (2 * tokens.length + 1) tokens with
  | some (v, []) => some v
  | _ => none

end FrameQuery.Json
