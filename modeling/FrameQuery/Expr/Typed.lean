import FrameQuery.Error
import FrameQuery.Expr.Basic

/-!
# Typed expressions

An expression with its type. Every operation checks the types of its operands, from left to right,
and fails instead of building an expression that has none.
-/

namespace FrameQuery

/-- A typed expression. -/
structure TypedExpr where
  type : PrimitiveType
  expr : Expr
  deriving Repr

/-- The type of a constant. -/
def Constant.type : Constant → PrimitiveType
  | .boolean _ => .boolean
  | .integer _ => .integer
  | .float _ => .float
  | .string _ => .string
  | .strictDate _ => .strictDate
  | .dateTime _ => .dateTime

namespace TypedExpr

/-- A constant. -/
def constant (value : Constant) : TypedExpr := ⟨value.type, .constant value⟩

/-- A truth value. -/
def boolean (value : Bool) : TypedExpr := constant (.boolean value)

/-- An integer. -/
def integer (value : Int64) : TypedExpr := constant (.integer value)

/-- A text. -/
def string (value : String) : TypedExpr := constant (.string value)

/-- The user on whose behalf a query runs. -/
def currentUser : TypedExpr := ⟨.string, .nullary .currentUser⟩

/-- The current day. -/
def today : TypedExpr := ⟨.strictDate, .nullary .today⟩

/-- The current time. -/
def now : TypedExpr := ⟨.dateTime, .nullary .now⟩

/-- Checks the type of an operand. -/
def expect (p : TypedExpr) (expected : Expectation) (operation : String) : Outcome Unit :=
  require (expected.isMetBy p.type) (.operandType operation expected p.type)

/-- Applies an operator to an operand that meets an expectation. -/
def apply (p : TypedExpr) (expected : Expectation) (operation : String) (operator : UnaryOperator)
    (type : PrimitiveType) : Outcome TypedExpr := do
  p.expect expected operation
  return ⟨type, .unary operator p.expr⟩

/-- Applies an operator to two operands that both meet an expectation. -/
def combine (p q : TypedExpr) (expected : Expectation) (operation : String)
    (operator : BinaryOperator) (type : PrimitiveType) : Outcome TypedExpr := do
  p.expect expected operation
  q.expect expected operation
  return ⟨type, .binary operator p.expr q.expr⟩

/-- The sum of two numbers, or one text after the other. -/
def add (p q : TypedExpr) : Outcome TypedExpr :=
  if p.type = .string ∧ q.type = .string then .ok ⟨.string, .binary .concat p.expr q.expr⟩
  else p.combine q .numeric "'+'" .add (p.type.arithmeticResult q.type)

/-- The difference of two numbers. -/
def sub (p q : TypedExpr) : Outcome TypedExpr :=
  p.combine q .numeric "'-'" .subtract (p.type.arithmeticResult q.type)

/-- The product of two numbers. -/
def mul (p q : TypedExpr) : Outcome TypedExpr :=
  p.combine q .numeric "'*'" .multiply (p.type.arithmeticResult q.type)

/-- The quotient of two numbers, never rounded to an integer. -/
def div (p q : TypedExpr) : Outcome TypedExpr := p.combine q .numeric "'/'" .divide .number

/-- The remainder of two integers. -/
def modulo (p q : TypedExpr) : Outcome TypedExpr := p.combine q .integer "'%'" .modulo .integer

/-- The negative of a number. -/
def neg (p : TypedExpr) : Outcome TypedExpr := p.apply .numeric "negation" .negate p.type

/-- The type of a function of one number. -/
def mathType (function : Sql.MathFunction) (operand : PrimitiveType) : PrimitiveType :=
  match function with
  | .abs => operand
  | .ceil | .floor => .integer
  | _ => .float

/-- A function of one number. -/
def math (p : TypedExpr) (function : Sql.MathFunction) : Outcome TypedExpr :=
  p.apply .numeric function.function (.math function) (mathType function p.type)

/-- The angle of a point. -/
def atan2 (p q : TypedExpr) : Outcome TypedExpr := p.combine q .numeric "atan2" .arcTan2 .float

/-- A power. -/
def pow (p q : TypedExpr) : Outcome TypedExpr := p.combine q .numeric "pow" .power .number

/-- The remainder of two numbers. -/
def rem (p q : TypedExpr) : Outcome TypedExpr :=
  p.combine q .numeric "rem" .remainder (p.type.arithmeticResult q.type)

/-- The nearest integer, or the nearest number with `scale` decimal places. -/
def round (p : TypedExpr) (scale : Option Int64) : Outcome TypedExpr :=
  match scale with
  | none => p.apply .numeric "round" .round .integer
  | some scale => p.apply .numeric "round" (.roundTo scale) .float

/-- Compares two values of comparable types. -/
def compare (p q : TypedExpr) (operator : Sql.ComparisonOperator) : Outcome TypedExpr := do
  require (p.type.isComparable q.type) (.incomparable p.type q.type operator)
  return ⟨.boolean, .binary (.compare operator) p.expr q.expr⟩

/-- Whether both conditions hold. -/
def and (p q : TypedExpr) : Outcome TypedExpr := p.combine q .boolean "'&&'" .and .boolean

/-- Whether one of the conditions holds. -/
def or (p q : TypedExpr) : Outcome TypedExpr := p.combine q .boolean "'||'" .or .boolean

/-- Whether a condition does not hold. -/
def not (p : TypedExpr) : Outcome TypedExpr := p.apply .boolean "not" .not .boolean

/-- Whether there is no value. -/
def isEmpty (p : TypedExpr) : TypedExpr := ⟨.boolean, .unary .isEmpty p.expr⟩

/-- Whether there is a value. -/
def isNotEmpty (p : TypedExpr) : TypedExpr := ⟨.boolean, .unary .isNotEmpty p.expr⟩

/-- Whether a value is one of at least one item, all of comparable types. -/
def inList (p : TypedExpr) (items : List TypedExpr) : Outcome TypedExpr := do
  require (!items.isEmpty) .emptyList
  match items.find? fun item ↦ !p.type.isComparable item.type with
  | some item => fail (.listItemType p.type item.type)
  | none => return ⟨.boolean, .inList p.expr (items.map (·.expr))⟩

/-- One of two values of a common type, as a condition holds or not. -/
def ifElse (p result otherwise : TypedExpr) : Outcome TypedExpr := do
  p.expect .boolean "if_else"
  match result.type.common? otherwise.type with
  | some type => return ⟨type, .ifElse p.expr result.expr otherwise.expr⟩
  | none => fail (.branchTypes result.type otherwise.type)

/-- The number of characters of a text. -/
def length (p : TypedExpr) : Outcome TypedExpr := p.apply .string "length" .length .integer

/-- Whether a text starts with, ends with or contains another one. -/
def like (p : TypedExpr) (kind : LikeKind) (text : String) : Outcome TypedExpr :=
  let operation := match kind with
    | .startsWith => "starts_with"
    | .endsWith => "ends_with"
    | .contains => "contains"
  p.apply .string operation (.like kind text) .boolean

/-- A text in capital letters. -/
def upper (p : TypedExpr) : Outcome TypedExpr := p.apply .string "upper" .upper .string

/-- A text in small letters. -/
def lower (p : TypedExpr) : Outcome TypedExpr := p.apply .string "lower" .lower .string

/-- A text without the blanks at its ends. -/
def trim (p : TypedExpr) (kind : Sql.TrimKind) : Outcome TypedExpr :=
  let operation := match kind with
    | .left => "ltrim"
    | .right => "rtrim"
    | .both => "trim"
  p.apply .string operation (.trim kind) .string

/-- The position of one text in another. -/
def indexOf (p q : TypedExpr) : Outcome TypedExpr :=
  p.combine q .string "index_of" .indexOf .integer

/-- One text after the other. -/
def concat (p q : TypedExpr) : Outcome TypedExpr := p.combine q .string "concat" .concat .string

/-- The value a text is the writing of. -/
def parse (p : TypedExpr) (target : ParseTarget) : Outcome TypedExpr :=
  let (operation, type) : String × PrimitiveType := match target with
    | .integer => ("parse_int", .integer)
    | .float => ("parse_float", .float)
    | .boolean => ("parse_boolean", .boolean)
    | .dateTime => ("parse_datetime", .dateTime)
  p.apply .string operation (.parse target) type

/-- The type of a boundary: days are dates, times of day are not. -/
def dateTruncType : Sql.DateTruncPart → PrimitiveType
  | .firstDayOfYear | .firstDayOfQuarter | .firstDayOfMonth | .firstDayOfWeek => .date
  | .firstHourOfDay | .firstMinuteOfHour | .firstSecondOfMinute | .firstMillisecondOfSecond =>
    .dateTime

/-- The boundary at or before a date. -/
def dateTrunc (p : TypedExpr) (part : Sql.DateTruncPart) : Outcome TypedExpr :=
  p.apply .date (Named.name part) (.dateTrunc part) (dateTruncType part)

/-- A part of a date. -/
def datePart (p : TypedExpr) (field : Sql.DatePartField) : Outcome TypedExpr :=
  p.apply .date (Named.name field) (.datePart field) .integer

/-- A date without its time of day. -/
def dateOnly (p : TypedExpr) : Outcome TypedExpr := p.apply .date "date_part" .dateOnly .strictDate

/-- Units of whole days. -/
def isWholeDays : Sql.DurationUnit → Bool
  | .year | .month | .week | .day => true
  | _ => false

/-- The type of a date moved by a span: a time of day once there is one or the span has one. -/
def adjustType (type : PrimitiveType) (unit : Sql.DurationUnit) : PrimitiveType :=
  if type = .strictDate ∧ isWholeDays unit then .strictDate
  else if type = .dateTime ∨ !isWholeDays unit then .dateTime
  else .date

/-- A date moved by a span of time. -/
def adjust (p : TypedExpr) (amount : Int64) (unit : Sql.DurationUnit) : Outcome TypedExpr :=
  p.apply .date "adjust" (.adjust amount unit) (adjustType p.type unit)

end TypedExpr

end FrameQuery
