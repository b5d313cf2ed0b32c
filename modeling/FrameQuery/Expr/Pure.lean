import FrameQuery.Expr.Row
import FrameQuery.Expr.Window
import FrameQuery.Text.Identifier
import FrameQuery.Text.Parens
import FrameQuery.Text.Quoted

/-!
# Expressions in PURE

PURE writes most operations as calls behind an arrow, `receiver->function(arguments)`. Values that
may be absent are marked with `toOne` where an operation asks for exactly one value. A receiver
keeps its parentheses; arguments, bodies of lambdas and branches lose their outer ones.
-/

namespace FrameQuery.PureText

/-- Drops one pair of outer parentheses. -/
def strip (doc : Doc) : Doc := Doc.stripOuterParens [] doc

/-- A call with its arguments in parentheses. -/
def call (function : String) (arguments : List Doc) : Doc :=
  Doc.text function ++ "(" ++ Doc.commaSep (arguments.map strip) ++ ")"

/-- A call behind an arrow. -/
def arrow (receiver : Doc) (function : String) (arguments : List Doc) : Doc :=
  receiver ++ "->" ++ call function arguments

/-- Two operands with a symbol between them, in parentheses. -/
def operation (symbol : String) (left right : Doc) : Doc :=
  "(" ++ left ++ " " ++ symbol ++ " " ++ right ++ ")"

/-- A function with named parameters. -/
def lambda (parameters : String) (body : Doc) : Doc :=
  "\x7b" ++ Doc.text parameters ++ " | " ++ strip body ++ "\x7d"

/-- Marks a value as present. -/
def toOne (doc : Doc) : Doc := call "toOne" [doc]

/-- A text as a constant. -/
def stringText (s : String) : String := Quoted.backslashed '\'' s

/-- A column name, between quotes unless it is an identifier. -/
def columnName (name : String) : String :=
  if Identifier.isIdentifier name then name else stringText name

/-- The decimal text of an integer. -/
def intText (n : Int64) : String := toString n.toInt

/-- A unit of time. -/
def unitText (unit : Sql.DurationUnit) : String := "DurationUnit." ++ unit.keyword ++ "S"

end FrameQuery.PureText

namespace FrameQuery

open PureText

/-- A constant in PURE. -/
def Constant.toPure : Constant → Doc
  | .boolean value => if value then "true" else "false"
  | .integer value => intText value
  | .float value => value.toText
  | .string value => stringText value
  | .strictDate value => "%" ++ Doc.text value.toText
  | .dateTime value => "%" ++ Doc.text value.toText

/-- The row a column is read from. -/
def RowAccessor.toPure (accessor : Option RowAccessor) (row : RowVar) : String :=
  let row := "$" ++ row.name
  match accessor with
  | none => row
  | some .lead => "$p->lead(" ++ row ++ ")"
  | some .lag => "$p->lag(" ++ row ++ ")"
  | some .first => "$p->first($w, " ++ row ++ ")"
  | some .last => "$p->last($w, " ++ row ++ ")"
  | some (.nth n) => "$p->nth($w, " ++ row ++ ", " ++ intText n ++ ")"

/-- A ranking in PURE. -/
def RankFunction.toPure : RankFunction → String
  | .rowNumber => "$p->rowNumber($r)"
  | .rank => "$p->rank($w, $r)"
  | .denseRank => "$p->denseRank($w, $r)"
  | .percentRank => "$p->percentRank($w, $r)"
  | .cumeDist => "$p->cumulativeDistribution($w, $r)"
  | .ntile buckets => "$p->ntile($r, " ++ intText buckets ++ ")"

/-- A comparison in PURE. -/
def comparisonSymbol : Sql.ComparisonOperator → String
  | .equal => "=="
  | .notEqual => "!="
  | .lessThan => "<"
  | .lessThanOrEqual => "<="
  | .greaterThan => ">"
  | .greaterThanOrEqual => ">="

/-- A function of one number in PURE. -/
def mathName : Sql.MathFunction → String
  | .abs => "abs"
  | .ceil => "ceiling"
  | .floor => "floor"
  | .sqrt => "sqrt"
  | .cbrt => "cbrt"
  | .exp => "exp"
  | .log => "log"
  | .sin => "sin"
  | .asin => "asin"
  | .cos => "cos"
  | .acos => "acos"
  | .tan => "tan"
  | .atan => "atan"
  | .cot => "cot"

/-- A boundary of dates in PURE. -/
def dateTruncName : Sql.DateTruncPart → String
  | .firstDayOfYear => "firstDayOfYear"
  | .firstDayOfQuarter => "firstDayOfQuarter"
  | .firstDayOfMonth => "firstDayOfMonth"
  | .firstDayOfWeek => "firstDayOfWeek"
  | .firstHourOfDay => "firstHourOfDay"
  | .firstMinuteOfHour => "firstMinuteOfHour"
  | .firstSecondOfMinute => "firstSecondOfMinute"
  | .firstMillisecondOfSecond => "firstMillisecondOfSecond"

/-- A part of dates in PURE. -/
def datePartName : Sql.DatePartField → String
  | .year => "year"
  | .quarter => "quarter"
  | .month => "month"
  | .weekOfYear => "weekOfYear"
  | .dayOfYear => "dayOfYear"
  | .dayOfMonth => "dayOfMonth"
  | .dayOfWeek => "dayOfWeekNumber"
  | .hour => "hour"
  | .minute => "minute"
  | .second => "second"
  | .epoch => "toEpochValue"

/-- An aggregate in PURE; distinct values are counted after a step that makes them distinct. -/
def aggregateName : Sql.AggregateFunction → String
  | .count => "count"
  | .distinctCount => "distinct()->count"
  | .average => "average"
  | .max => "max"
  | .min => "min"
  | .sum => "sum"
  | .stdDevSample => "stdDevSample"
  | .stdDevPopulation => "stdDevPopulation"
  | .varianceSample => "varianceSample"
  | .variancePopulation => "variancePopulation"

/-- An operator without operands in PURE. -/
def NullaryOperator.toPure : NullaryOperator → Doc
  | .currentUser => "currentUserId()"
  | .today => "today()"
  | .now => "now()"
  | .rank function => function.toPure

/-- An operator applied to its operand in PURE. -/
def UnaryOperator.toPure (operator : UnaryOperator) (value : Doc) : Doc :=
  match operator with
  | .negate => arrow value "minus" []
  | .math function => arrow value (mathName function) []
  | .round => arrow value "round" []
  | .roundTo scale =>
    arrow ("cast(" ++ strip value ++ ", @Float)") "round" [Doc.text (intText scale)]
  | .not => arrow value "not" []
  | .isEmpty => arrow value "isEmpty" []
  | .isNotEmpty => arrow value "isNotEmpty" []
  | .length => arrow value "length" []
  | .like .startsWith text => arrow value "startsWith" [Doc.text (stringText text)]
  | .like .endsWith text => arrow value "endsWith" [Doc.text (stringText text)]
  | .like .contains text => arrow value "contains" [Doc.text (stringText text)]
  | .upper => arrow value "toUpper" []
  | .lower => arrow value "toLower" []
  | .trim .left => arrow value "ltrim" []
  | .trim .right => arrow value "rtrim" []
  | .trim .both => arrow value "trim" []
  | .parse .integer => arrow value "parseInteger" []
  | .parse .float => arrow value "parseFloat" []
  | .parse .boolean => arrow value "parseBoolean" []
  | .parse .dateTime => arrow value "parseDate" []
  | .dateTrunc part => arrow value (dateTruncName part) []
  | .datePart field => arrow value (datePartName field) []
  | .dateOnly => arrow value "datePart" []
  | .adjust amount unit =>
    arrow value "adjust" [Doc.text (intText amount), Doc.text (unitText unit)]

/-- An operator applied to its operands in PURE. -/
def BinaryOperator.toPure (operator : BinaryOperator) (left right : Doc) : Doc :=
  match operator with
  | .add | .concat => operation "+" left right
  | .subtract => operation "-" left right
  | .multiply => operation "*" left right
  | .divide => operation "/" left right
  | .modulo => arrow left "mod" [right]
  | .power => arrow left "pow" [right]
  | .remainder => arrow left "rem" [right]
  | .arcTan2 => arrow left "atan2" [right]
  | .compare operator => operation (comparisonSymbol operator) left right
  | .and => operation "&&" left right
  | .or => operation "||" left right
  | .indexOf => arrow left "indexOf" [right]

namespace UnaryOperator

/-- Whether the operand has to be present. -/
def needsOne : UnaryOperator → Bool
  | .isEmpty | .isNotEmpty | .like _ _ => false
  | _ => true

/-- Whether the result is always present. -/
def givesOne : UnaryOperator → Bool
  | .like _ _ => false
  | _ => true

end UnaryOperator

/-- Whether the operands have to be present. -/
def BinaryOperator.needsOne : BinaryOperator → Bool
  | .compare _ => false
  | _ => true

/-- Whether the result is always present. -/
def NullaryOperator.givesOne : NullaryOperator → Bool
  | .rank _ => false
  | _ => true

namespace Expr

/-- Whether the value is known to be present. -/
def isPresent : Expr → Bool
  | .constant _ => true
  | .column _ _ _ => false
  | .nullary operator => operator.givesOne
  | .unary operator _ => operator.givesOne
  | .binary _ _ _ => true
  | .inList _ _ => true
  | .ifElse _ _ _ => false
  | .aggregate _ _ => false
  | .joinStrings _ _ => false

/-- An operand, marked as present where that is asked for and not known. -/
def operandDoc (needed : Bool) (e : Expr) (doc : Doc) : Doc :=
  if needed && !e.isPresent then toOne doc else doc

mutual

/-- An expression in PURE. -/
def toPure : Expr → Doc
  | .column row name accessor =>
    Doc.text (RowAccessor.toPure accessor row) ++ "." ++ columnName name
  | .constant value => value.toPure
  | .nullary operator => operator.toPure
  | .unary operator operand => operator.toPure (operandDoc operator.needsOne operand operand.toPure)
  | .binary operator left right =>
    operator.toPure (operandDoc operator.needsOne left left.toPure)
      (operandDoc operator.needsOne right right.toPure)
  | .inList value items =>
    operandDoc true value value.toPure ++ "->in([" ++ Doc.commaSep (itemsToPure items) ++ "])"
  | .ifElse condition result otherwise =>
    call "if" [operandDoc true condition condition.toPure, "|" ++ strip result.toPure,
      "|" ++ strip otherwise.toPure]
  | .aggregate function _ => "$c->" ++ Doc.text (aggregateName function) ++ "()"
  | .joinStrings _ separator => arrow "$c" "joinStrings" [Doc.text (stringText separator)]

/-- The items of a list in PURE. -/
def itemsToPure : List Expr → List Doc
  | [] => []
  | item :: rest => item.toPure :: itemsToPure rest

end

end Expr

/-- An expression in PURE; it has no breaks, so that it is the same in every layout. -/
def TypedExpr.toPure (p : TypedExpr) : Doc := p.expr.toPure

/-- A sort key in PURE. -/
def SortKey.toPure (key : SortKey) : Doc :=
  let function := match key.direction with
    | .ascending => "ascending"
    | .descending => "descending"
  Doc.text function ++ "(~" ++ columnName key.column ++ ")"

/-- One end of a window frame in PURE. -/
def Bound.toPure : Bound → Doc
  | .unbounded => "unbounded()"
  | .offset value none => intText value
  | .offset value (some unit) => Doc.text (intText value) ++ ", " ++ unitText unit

/-- A window frame in PURE. -/
def FrameSpec.toPure (frame : FrameSpec) : Doc :=
  let function := match frame.mode with
    | .rows => "rows"
    | .range => "_range"
  Doc.text function ++ "(" ++ frame.start.toPure ++ ", " ++ frame.stop.toPure ++ ")"

/-- A window in PURE. -/
def WindowSpec.toPure (window : WindowSpec) : Doc :=
  let partitions : Doc :=
    if window.partitionBy.isEmpty then "[]"
    else "~[" ++ Doc.commaSep (window.partitionBy.map fun c ↦ Doc.text (columnName c)) ++ "]"
  let order : Doc := "[" ++ Doc.commaSep (window.orderBy.map (·.toPure)) ++ "]"
  let frame : List Doc := match window.frame with
    | none => []
    | some frame => [frame.toPure]
  "over(" ++ Doc.commaSep ([partitions, order] ++ frame) ++ ")"

end FrameQuery
