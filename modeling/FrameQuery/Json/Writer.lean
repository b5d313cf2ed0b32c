import FrameQuery.Json.Value

/-!
# Writing JSON

Compact JSON text. Strings escape quotes, backslashes and control characters only.
-/

namespace FrameQuery.Json

/-- A digit of a four digit escape. -/
def hexDigits (n : Nat) : List Char :=
  let digits := Nat.toDigits 16 n
  List.replicate (4 - digits.length) '0' ++ digits

/-- One character of a string. -/
def escape (c : Char) : List Char :=
  if c = '"' then ['\\', '"']
  else if c = '\\' then ['\\', '\\']
  else if c = '\n' then ['\\', 'n']
  else if c.toNat < 32 then '\\' :: 'u' :: hexDigits c.toNat
  else [c]

/-- A string with its quotes. -/
def quoted (s : String) : String := String.ofList ('"' :: (s.toList.flatMap escape ++ ['"']))

/-- A number with a power of ten. -/
def decimalText (negative : Bool) (digits : Nat) (exponent : Int) : String :=
  (if negative then "-" else "") ++ toString digits ++ "e" ++ toString exponent

mutual

/-- The text of a value. -/
def write : Json → String
  | .null => "null"
  | .boolean value => if value then "true" else "false"
  | .integer value => toString value
  | .decimal negative digits exponent => decimalText negative digits exponent
  | .string value => quoted value
  | .unpaired => "\"\\ud800\""
  | .array items => "[" ++ ",".intercalate (writeItems items) ++ "]"
  | .object members => "\x7b" ++ ",".intercalate (writeMembers members) ++ "\x7d"

/-- The texts of the items of an array. -/
def writeItems : List Json → List String
  | [] => []
  | item :: rest => item.write :: writeItems rest

/-- The texts of the members of an object. -/
def writeMembers : List (String × Json) → List String
  | [] => []
  | (key, value) :: rest => (quoted key ++ ":" ++ value.write) :: writeMembers rest

end

end FrameQuery.Json
