import FrameQuery.Named

/-!
# The words of SQL

The closed sets of words that statements are built from: kinds of joins, operators, functions,
parts of dates, units of time and window bounds. Each has a name, by which documents refer to it,
and where it is a word of SQL, the text it is written as.
-/

namespace FrameQuery.Sql

/-- Kinds of joins. -/
inductive JoinType where
  | cross
  | inner
  | left
  | right
  | full
  deriving DecidableEq, Repr

instance : Named JoinType where
  values := [.cross, .inner, .left, .right, .full]
  name
    | .cross => "Cross"
    | .inner => "Inner"
    | .left => "Left"
    | .right => "Right"
    | .full => "Full"

/-- A join as it is written between its sides. -/
def JoinType.keyword : JoinType → String
  | .cross => "CROSS JOIN"
  | .inner => "INNER JOIN"
  | .left => "LEFT OUTER JOIN"
  | .right => "RIGHT OUTER JOIN"
  | .full => "FULL OUTER JOIN"

/-- Directions of a sort key. -/
inductive SortOrdering where
  | ascending
  | descending
  deriving DecidableEq, Repr

instance : Named SortOrdering where
  values := [.ascending, .descending]
  name
    | .ascending => "Ascending"
    | .descending => "Descending"

/-- Where a sort key puts nulls. -/
inductive NullOrdering where
  | undefined
  | first
  | last
  deriving DecidableEq, Repr

instance : Named NullOrdering where
  values := [.undefined, .first, .last]
  name
    | .undefined => "Undefined"
    | .first => "First"
    | .last => "Last"

/-- Units of time. -/
inductive DurationUnit where
  | year
  | month
  | week
  | day
  | hour
  | minute
  | second
  | millisecond
  | microsecond
  | nanosecond
  deriving DecidableEq, Repr

instance : Named DurationUnit where
  values := [.year, .month, .week, .day, .hour, .minute, .second, .millisecond, .microsecond,
    .nanosecond]
  name
    | .year => "Year"
    | .month => "Month"
    | .week => "Week"
    | .day => "Day"
    | .hour => "Hour"
    | .minute => "Minute"
    | .second => "Second"
    | .millisecond => "Millisecond"
    | .microsecond => "Microsecond"
    | .nanosecond => "Nanosecond"

/-- A unit as it is written in an interval. -/
def DurationUnit.keyword : DurationUnit → String
  | .year => "YEAR"
  | .month => "MONTH"
  | .week => "WEEK"
  | .day => "DAY"
  | .hour => "HOUR"
  | .minute => "MINUTE"
  | .second => "SECOND"
  | .millisecond => "MILLISECOND"
  | .microsecond => "MICROSECOND"
  | .nanosecond => "NANOSECOND"

/-- The unit with a keyword, if there is one. -/
def DurationUnit.ofKeyword? (s : String) : Option DurationUnit :=
  (Named.values : List DurationUnit).find? fun u ↦ u.keyword == s

/-- Comparisons of two values. -/
inductive ComparisonOperator where
  | equal
  | notEqual
  | lessThan
  | lessThanOrEqual
  | greaterThan
  | greaterThanOrEqual
  deriving DecidableEq, Repr

instance : Named ComparisonOperator where
  values := [.equal, .notEqual, .lessThan, .lessThanOrEqual, .greaterThan, .greaterThanOrEqual]
  name
    | .equal => "Equal"
    | .notEqual => "NotEqual"
    | .lessThan => "LessThan"
    | .lessThanOrEqual => "LessThanOrEqual"
    | .greaterThan => "GreaterThan"
    | .greaterThanOrEqual => "GreaterThanOrEqual"

/-- A comparison as it is written between its operands. -/
def ComparisonOperator.symbol : ComparisonOperator → String
  | .equal => "="
  | .notEqual => "<>"
  | .lessThan => "<"
  | .lessThanOrEqual => "<="
  | .greaterThan => ">"
  | .greaterThanOrEqual => ">="

/-- Connectives of two conditions. -/
inductive LogicalOperator where
  | and
  | or
  deriving DecidableEq, Repr

instance : Named LogicalOperator where
  values := [.and, .or]
  name
    | .and => "And"
    | .or => "Or"

/-- A connective as it is written between its operands. -/
def LogicalOperator.keyword : LogicalOperator → String
  | .and => "AND"
  | .or => "OR"

/-- Arithmetic on two numbers. -/
inductive ArithmeticOperator where
  | add
  | subtract
  | multiply
  | divide
  | modulus
  deriving DecidableEq, Repr

instance : Named ArithmeticOperator where
  values := [.add, .subtract, .multiply, .divide, .modulus]
  name
    | .add => "Add"
    | .subtract => "Subtract"
    | .multiply => "Multiply"
    | .divide => "Divide"
    | .modulus => "Modulus"

/-- Readings of the current time. -/
inductive CurrentTimeKind where
  | date
  | time
  | timestamp
  deriving DecidableEq, Repr

instance : Named CurrentTimeKind where
  values := [.date, .time, .timestamp]
  name
    | .date => "Date"
    | .time => "Time"
    | .timestamp => "Timestamp"

/-- Fields that can be extracted from a date. -/
inductive ExtractField where
  | century
  | year
  | quarter
  | month
  | week
  | day
  | dayOfMonth
  | dayOfWeek
  | dow
  | dayOfYear
  | doy
  | hour
  | minute
  | second
  | epoch
  deriving DecidableEq, Repr

instance : Named ExtractField where
  values := [.century, .year, .quarter, .month, .week, .day, .dayOfMonth, .dayOfWeek, .dow,
    .dayOfYear, .doy, .hour, .minute, .second, .epoch]
  name
    | .century => "Century"
    | .year => "Year"
    | .quarter => "Quarter"
    | .month => "Month"
    | .week => "Week"
    | .day => "Day"
    | .dayOfMonth => "DayOfMonth"
    | .dayOfWeek => "DayOfWeek"
    | .dow => "Dow"
    | .dayOfYear => "DayOfYear"
    | .doy => "Doy"
    | .hour => "Hour"
    | .minute => "Minute"
    | .second => "Second"
    | .epoch => "Epoch"

/-- A field as it is written in an extraction. -/
def ExtractField.keyword : ExtractField → String
  | .century => "CENTURY"
  | .year => "YEAR"
  | .quarter => "QUARTER"
  | .month => "MONTH"
  | .week => "WEEK"
  | .day => "DAY"
  | .dayOfMonth => "DAY_OF_MONTH"
  | .dayOfWeek => "DAY_OF_WEEK"
  | .dow => "DOW"
  | .dayOfYear => "DAY_OF_YEAR"
  | .doy => "DOY"
  | .hour => "HOUR"
  | .minute => "MINUTE"
  | .second => "SECOND"
  | .epoch => "EPOCH"

/-- What the bounds of a window frame count. -/
inductive WindowFrameMode where
  | rows
  | range
  deriving DecidableEq, Repr

instance : Named WindowFrameMode where
  values := [.rows, .range]
  name
    | .rows => "Rows"
    | .range => "Range"

/-- A mode as it is written before the bounds. -/
def WindowFrameMode.keyword : WindowFrameMode → String
  | .rows => "ROWS"
  | .range => "RANGE"

/-- Kinds of window bounds. -/
inductive FrameBoundType where
  | unboundedPreceding
  | preceding
  | currentRow
  | following
  | unboundedFollowing
  deriving DecidableEq, Repr

instance : Named FrameBoundType where
  values := [.unboundedPreceding, .preceding, .currentRow, .following, .unboundedFollowing]
  name
    | .unboundedPreceding => "UnboundedPreceding"
    | .preceding => "Preceding"
    | .currentRow => "CurrentRow"
    | .following => "Following"
    | .unboundedFollowing => "UnboundedFollowing"

/-- Ends of a text that can be trimmed. -/
inductive TrimKind where
  | left
  | right
  | both
  deriving DecidableEq, Repr

instance : Named TrimKind where
  values := [.left, .right, .both]
  name
    | .left => "Left"
    | .right => "Right"
    | .both => "Both"

/-- The function that trims an end. -/
def TrimKind.function : TrimKind → String
  | .left => "LTRIM"
  | .right => "RTRIM"
  | .both => "BTRIM"

/-- Functions of one number. -/
inductive MathFunction where
  | abs
  | ceil
  | floor
  | sqrt
  | cbrt
  | exp
  | log
  | sin
  | asin
  | cos
  | acos
  | tan
  | atan
  | cot
  deriving DecidableEq, Repr

instance : Named MathFunction where
  values := [.abs, .ceil, .floor, .sqrt, .cbrt, .exp, .log, .sin, .asin, .cos, .acos, .tan, .atan,
    .cot]
  name
    | .abs => "Abs"
    | .ceil => "Ceil"
    | .floor => "Floor"
    | .sqrt => "Sqrt"
    | .cbrt => "Cbrt"
    | .exp => "Exp"
    | .log => "Log"
    | .sin => "Sin"
    | .asin => "Asin"
    | .cos => "Cos"
    | .acos => "Acos"
    | .tan => "Tan"
    | .atan => "Atan"
    | .cot => "Cot"

/-- A function of one number as it is called; the logarithm is the natural one. -/
def MathFunction.function : MathFunction → String
  | .abs => "ABS"
  | .ceil => "CEIL"
  | .floor => "FLOOR"
  | .sqrt => "SQRT"
  | .cbrt => "CBRT"
  | .exp => "EXP"
  | .log => "LN"
  | .sin => "SIN"
  | .asin => "ASIN"
  | .cos => "COS"
  | .acos => "ACOS"
  | .tan => "TAN"
  | .atan => "ATAN"
  | .cot => "COT"

/-- Functions of the values of a group. -/
inductive AggregateFunction where
  | count
  | distinctCount
  | average
  | max
  | min
  | sum
  | stdDevSample
  | stdDevPopulation
  | varianceSample
  | variancePopulation
  deriving DecidableEq, Repr

instance : Named AggregateFunction where
  values := [.count, .distinctCount, .average, .max, .min, .sum, .stdDevSample, .stdDevPopulation,
    .varianceSample, .variancePopulation]
  name
    | .count => "Count"
    | .distinctCount => "DistinctCount"
    | .average => "Average"
    | .max => "Max"
    | .min => "Min"
    | .sum => "Sum"
    | .stdDevSample => "StdDevSample"
    | .stdDevPopulation => "StdDevPopulation"
    | .varianceSample => "VarianceSample"
    | .variancePopulation => "VariancePopulation"

/-- An aggregate as it is called. -/
def AggregateFunction.function : AggregateFunction → String
  | .count => "COUNT"
  | .distinctCount => "COUNT"
  | .average => "AVG"
  | .max => "MAX"
  | .min => "MIN"
  | .sum => "SUM"
  | .stdDevSample => "STDDEV_SAMP"
  | .stdDevPopulation => "STDDEV_POP"
  | .varianceSample => "VAR_SAMP"
  | .variancePopulation => "VAR_POP"

/-- Boundaries that a date can be moved back to. -/
inductive DateTruncPart where
  | firstDayOfYear
  | firstDayOfQuarter
  | firstDayOfMonth
  | firstDayOfWeek
  | firstHourOfDay
  | firstMinuteOfHour
  | firstSecondOfMinute
  | firstMillisecondOfSecond
  deriving DecidableEq, Repr

instance : Named DateTruncPart where
  values := [.firstDayOfYear, .firstDayOfQuarter, .firstDayOfMonth, .firstDayOfWeek,
    .firstHourOfDay, .firstMinuteOfHour, .firstSecondOfMinute, .firstMillisecondOfSecond]
  name
    | .firstDayOfYear => "FirstDayOfYear"
    | .firstDayOfQuarter => "FirstDayOfQuarter"
    | .firstDayOfMonth => "FirstDayOfMonth"
    | .firstDayOfWeek => "FirstDayOfWeek"
    | .firstHourOfDay => "FirstHourOfDay"
    | .firstMinuteOfHour => "FirstMinuteOfHour"
    | .firstSecondOfMinute => "FirstSecondOfMinute"
    | .firstMillisecondOfSecond => "FirstMillisecondOfSecond"

/-- The unit whose start a boundary is. -/
def DateTruncPart.unit : DateTruncPart → String
  | .firstDayOfYear => "year"
  | .firstDayOfQuarter => "quarter"
  | .firstDayOfMonth => "month"
  | .firstDayOfWeek => "week"
  | .firstHourOfDay => "day"
  | .firstMinuteOfHour => "hour"
  | .firstSecondOfMinute => "minute"
  | .firstMillisecondOfSecond => "second"

/-- Parts of a date that can be read as numbers. -/
inductive DatePartField where
  | year
  | quarter
  | month
  | weekOfYear
  | dayOfYear
  | dayOfMonth
  | dayOfWeek
  | hour
  | minute
  | second
  | epoch
  deriving DecidableEq, Repr

instance : Named DatePartField where
  values := [.year, .quarter, .month, .weekOfYear, .dayOfYear, .dayOfMonth, .dayOfWeek, .hour,
    .minute, .second, .epoch]
  name
    | .year => "Year"
    | .quarter => "Quarter"
    | .month => "Month"
    | .weekOfYear => "WeekOfYear"
    | .dayOfYear => "DayOfYear"
    | .dayOfMonth => "DayOfMonth"
    | .dayOfWeek => "DayOfWeek"
    | .hour => "Hour"
    | .minute => "Minute"
    | .second => "Second"
    | .epoch => "Epoch"

/-- The unit a part is read in. -/
def DatePartField.unit : DatePartField → String
  | .year => "year"
  | .quarter => "quarter"
  | .month => "month"
  | .weekOfYear => "week"
  | .dayOfYear => "doy"
  | .dayOfMonth => "day"
  | .dayOfWeek => "dow"
  | .hour => "hour"
  | .minute => "minute"
  | .second => "second"
  | .epoch => "epoch"

end FrameQuery.Sql
