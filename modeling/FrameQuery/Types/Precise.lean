import FrameQuery.Types.Primitive

/-!
# Precise types

Storage refinements of the primitive types, and the text of each. A column with a precise type
behaves in expressions as one of the type it refines.
-/

namespace FrameQuery

/-- How values of a primitive type are stored. -/
inductive PreciseType where
  | tinyInt
  | uTinyInt
  | smallInt
  | uSmallInt
  | int
  | uInt
  | bigInt
  | uBigInt
  /-- Texts, up to a length if one is given. -/
  | varchar (length : Option UInt32)
  | timestamp
  | float4
  | double
  /-- Decimal numbers of `precision` digits, `scale` of them behind the point. -/
  | numeric (precision scale : UInt32)
  deriving DecidableEq, Repr

namespace PreciseType

/-- The name of a type without its numbers. -/
def head : PreciseType → String
  | .tinyInt => "TinyInt"
  | .uTinyInt => "UTinyInt"
  | .smallInt => "SmallInt"
  | .uSmallInt => "USmallInt"
  | .int => "Int"
  | .uInt => "UInt"
  | .bigInt => "BigInt"
  | .uBigInt => "UBigInt"
  | .varchar _ => "Varchar"
  | .timestamp => "Timestamp"
  | .float4 => "Float4"
  | .double => "Double"
  | .numeric _ _ => "Numeric"

/-- The numbers of a type that are written. -/
def arguments : PreciseType → List UInt32
  | .varchar (some length) => [length]
  | .numeric precision scale => [precision, scale]
  | _ => []

/-- The text of a number of 32 bits. -/
def numberText (n : UInt32) : List Char := Nat.toDigits 10 n.toNat

/-- The name of a type, with its numbers in parentheses if it has any. -/
def toText (type : PreciseType) : String :=
  if type.arguments.isEmpty then type.head
  else type.head ++ String.ofList
    ('(' :: ([',', ' '].intercalate (type.arguments.map numberText) ++ [')']))

/-- The primitive type that is refined. -/
def base : PreciseType → PrimitiveType
  | .tinyInt | .uTinyInt | .smallInt | .uSmallInt | .int | .uInt | .bigInt | .uBigInt => .integer
  | .varchar _ => .string
  | .timestamp => .dateTime
  | .float4 | .double => .float
  | .numeric _ _ => .decimal

end PreciseType

end FrameQuery
