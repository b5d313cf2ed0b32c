import FrameQuery.Error
import FrameQuery.Number.Reading
import FrameQuery.Text.Blank

/-!
# Reading precise types

A precise type is read from its name, with its numbers in parentheses behind it. Blanks around the
name and around each number are left out of account.
-/

namespace FrameQuery.PreciseType

/-- A decimal type has at least as many digits as decimal places. -/
def ofNumeric (precision scale : UInt32) : Outcome PreciseType := do
  require (scale ≤ precision) (.numericScale precision scale)
  return .numeric precision scale

/-- The parts of a text between commas. -/
def splitCommas : List Char → List (List Char)
  | [] => [[]]
  | c :: rest =>
    if c = ',' then [] :: splitCommas rest
    else match splitCommas rest with
      | [] => [[c]]
      | part :: parts => (c :: part) :: parts

/-- The numbers between parentheses, from behind the opening one. -/
def numbers (s : List Char) : Option (List UInt32) :=
  if s.getLast? = some ')' then
    (splitCommas s.dropLast).mapM fun part ↦ Reading.uint32 (Blank.trim part)
  else none

/-- The name before the first parenthesis and the numbers behind it. -/
def parts (s : List Char) : Option (String × List UInt32) :=
  let name := String.ofList (Blank.trim (s.takeWhile (· != '(')))
  match s.dropWhile (· != '(') with
  | [] => some (name, [])
  | _ :: rest => (numbers rest).map (name, ·)

/-- The precise type that is named without numbers. -/
def ofName? : String → Option PreciseType
  | "TinyInt" => some .tinyInt
  | "UTinyInt" => some .uTinyInt
  | "SmallInt" => some .smallInt
  | "USmallInt" => some .uSmallInt
  | "Int" => some .int
  | "UInt" => some .uInt
  | "BigInt" => some .bigInt
  | "UBigInt" => some .uBigInt
  | "Varchar" => some (.varchar none)
  | "Timestamp" => some .timestamp
  | "Float4" => some .float4
  | "Double" => some .double
  | _ => none

/-- The precise type a text names. -/
def ofText (text : String) : Outcome PreciseType :=
  match parts text.toList with
  | some (name, []) =>
    match ofName? name with
    | some type => .ok type
    | none => fail (.preciseType text)
  | some ("Varchar", [length]) => .ok (.varchar (some length))
  | some ("Numeric", [precision, scale]) => ofNumeric precision scale
  | _ => fail (.preciseType text)

end FrameQuery.PreciseType
