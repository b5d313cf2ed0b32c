import FrameQuery.Calendar
import FrameQuery.Number.Double
import FrameQuery.Sql.Vocabulary

/-!
# Expressions over rows

What closures over rows compute. A column is read from one of the rows a closure was given, the left
or the right one; where there is a single row it is the right one. An aggregate holds the expression
whose values it reduces. Each operator has the number of operands it takes, so that every expression
can be rendered.
-/

namespace FrameQuery

/-- The rows a closure may be given. -/
inductive RowVar where
  | left
  | right
  deriving DecidableEq, Repr

/-- The name of a row inside a closure. -/
def RowVar.name : RowVar → String
  | .left => "l"
  | .right => "r"

/-- Where in a window the row stands that a column is read from. -/
inductive RowAccessor where
  | lead
  | lag
  | first
  | last
  | nth (n : Int64)
  deriving DecidableEq, Repr

/-- A constant value. -/
inductive Constant where
  | boolean (value : Bool)
  | integer (value : Int64)
  | float (value : Double)
  | string (value : String)
  | strictDate (value : Date)
  | dateTime (value : DateTime)
  deriving DecidableEq, Repr

/-- Where a text is looked for in another one. -/
inductive LikeKind where
  | startsWith
  | endsWith
  | contains
  deriving DecidableEq, Repr

/-- What a text is read as. -/
inductive ParseTarget where
  | integer
  | float
  | boolean
  | dateTime
  deriving DecidableEq, Repr

/-- Functions of the position of a row in its window. -/
inductive RankFunction where
  | rowNumber
  | rank
  | denseRank
  | percentRank
  | cumeDist
  | ntile (buckets : Int64)
  deriving DecidableEq, Repr

/-- Operators without operands. -/
inductive NullaryOperator where
  | currentUser
  | today
  | now
  | rank (function : RankFunction)
  deriving DecidableEq, Repr

/-- Operators with one operand; further parameters are constants. -/
inductive UnaryOperator where
  | negate
  | math (function : Sql.MathFunction)
  | round
  | roundTo (scale : Int64)
  | not
  | isEmpty
  | isNotEmpty
  | length
  | like (kind : LikeKind) (text : String)
  | upper
  | lower
  | trim (kind : Sql.TrimKind)
  | parse (target : ParseTarget)
  | dateTrunc (part : Sql.DateTruncPart)
  | datePart (field : Sql.DatePartField)
  | dateOnly
  | adjust (amount : Int64) (unit : Sql.DurationUnit)
  deriving DecidableEq, Repr

/-- Operators with two operands. -/
inductive BinaryOperator where
  | add
  | subtract
  | multiply
  | divide
  | modulo
  | power
  | remainder
  | arcTan2
  | compare (operator : Sql.ComparisonOperator)
  | and
  | or
  | indexOf
  | concat
  deriving DecidableEq, Repr

/-- An expression over rows. -/
inductive Expr where
  | column (row : RowVar) (name : String) (accessor : Option RowAccessor)
  | constant (value : Constant)
  | nullary (operator : NullaryOperator)
  | unary (operator : UnaryOperator) (operand : Expr)
  | binary (operator : BinaryOperator) (left right : Expr)
  | inList (value : Expr) (items : List Expr)
  | ifElse (condition result otherwise : Expr)
  /-- A reduction of the values of an expression. -/
  | aggregate (function : Sql.AggregateFunction) (values : Expr)
  /-- The texts of an expression, one after the other. -/
  | joinStrings (values : Expr) (separator : String)
  deriving Repr

namespace Expr

/-- The column an expression reads from the row itself, if it does nothing else. -/
def columnName? : Expr → Option String
  | .column _ name none => some name
  | _ => none

end Expr

end FrameQuery
