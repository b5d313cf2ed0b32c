import FrameQuery.Named

/-!
# Primitive types

The types of columns and expressions. Numbers of any type compare with each other, and so do dates.
-/

namespace FrameQuery

/-- The type of a column or an expression. -/
inductive PrimitiveType where
  | boolean
  | string
  | number
  | integer
  | float
  | decimal
  | date
  | dateTime
  | strictDate
  deriving DecidableEq, Repr

instance : Named PrimitiveType where
  values := [.boolean, .string, .number, .integer, .float, .decimal, .date, .dateTime, .strictDate]
  name
    | .boolean => "Boolean"
    | .string => "String"
    | .number => "Number"
    | .integer => "Integer"
    | .float => "Float"
    | .decimal => "Decimal"
    | .date => "Date"
    | .dateTime => "DateTime"
    | .strictDate => "StrictDate"

namespace PrimitiveType

/-- The name of a type. -/
def name (type : PrimitiveType) : String := Named.name type

/-- Types of numbers. -/
def isNumeric : PrimitiveType → Bool
  | .number | .integer | .float | .decimal => true
  | _ => false

/-- Types of dates, with or without a time of day. -/
def isDate : PrimitiveType → Bool
  | .date | .dateTime | .strictDate => true
  | _ => false

/-- Whether values of the two types can be compared with each other. -/
def isComparable (left right : PrimitiveType) : Bool :=
  (left.isNumeric && right.isNumeric) || (left.isDate && right.isDate) || left == right

/-- The type of a sum, difference or product of two numbers. -/
def arithmeticResult : PrimitiveType → PrimitiveType → PrimitiveType
  | .integer, .integer => .integer
  | .float, _ | _, .float => .float
  | .decimal, .decimal | .decimal, .integer | .integer, .decimal => .decimal
  | _, _ => .number

/-- The nearest type that takes values of both. -/
def common? (left right : PrimitiveType) : Option PrimitiveType :=
  if left = right then some left
  else if left.isNumeric && right.isNumeric then some .number
  else if left.isDate && right.isDate then some .date
  else none

/-- Whether a value of type `actual` can be read where `expected` is asked for. -/
def isReadableAs (actual expected : PrimitiveType) : Bool :=
  actual == expected || (expected == .number && actual.isNumeric) ||
    (expected == .date && actual.isDate)

end PrimitiveType

end FrameQuery
