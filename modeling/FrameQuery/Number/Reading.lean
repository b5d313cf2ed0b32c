import FrameQuery.Number.Double

/-!
# Reading numbers

Unsigned numbers are decimal digits with an optional plus sign. Floating point numbers are digits
with an optional point, sign and power of ten, or the words for infinity and for no number in any
case.
-/

namespace FrameQuery.Reading

/-- The value of a digit. -/
def digit (c : Char) : Nat := c.toNat - '0'.toNat

/-- The number that decimal digits write. -/
def digitsValue (digits : List Char) : Nat := digits.foldl (fun n c ↦ 10 * n + digit c) 0

/-- Reads one or more digits as a number. -/
def natural (s : List Char) : Option Nat :=
  if s ≠ [] ∧ s.all Char.isDigit then some (digitsValue s) else none

/-- Splits a sign off; true for a minus. -/
def sign : List Char → Bool × List Char
  | '-' :: rest => (true, rest)
  | '+' :: rest => (false, rest)
  | s => (false, s)

/-- Reads an unsigned number of 32 bits. -/
def uint32 (s : List Char) : Option UInt32 :=
  let digits := match s with
    | '+' :: rest => rest
    | s => s
  match natural digits with
  | some n => if n < UInt32.size then some (.ofNat n) else none
  | none => none

/-- Reads an optional power of ten. -/
def power : List Char → Option Int
  | [] => some 0
  | c :: rest =>
    if c = 'e' ∨ c = 'E' then
      let (negative, digits) := sign rest
      (natural digits).map fun n ↦ if negative then -(n : Int) else n
    else none

/-- Reads digits with an optional point and power of ten, after the sign. -/
def unsignedDouble (negative : Bool) (s : List Char) : Option Double :=
  let whole := s.takeWhile Char.isDigit
  let rest := s.dropWhile Char.isDigit
  let (places, rest) := match rest with
    | '.' :: rest => (rest.takeWhile Char.isDigit, rest.dropWhile Char.isDigit)
    | rest => ([], rest)
  if whole = [] ∧ places = [] then none
  else (power rest).map fun e ↦
    .ofDecimal negative (digitsValue (whole ++ places)) (e - places.length)

/-- Reads a double. -/
def double (s : String) : Option Double :=
  let (negative, rest) := sign s.toList
  let word := String.ofList (rest.map Char.toLower)
  if word = "inf" ∨ word = "infinity" then some (.infinity negative)
  else if word = "nan" then some (.nan negative)
  else unsignedDouble negative rest

end FrameQuery.Reading
