import FrameQuery.Expr.Row
import FrameQuery.Expr.Window
import FrameQuery.Sql.Dialect

/-!
# Expressions in SQL

A column of a row becomes whatever the query of that row selects under the column's quoted name. A
collection becomes the expression whose values it holds, so that an aggregate is a call over that
expression.
-/

namespace FrameQuery

/-- The queries whose rows closures were given, and the dialect names are quoted for. -/
structure Scope where
  dialect : Sql.Dialect
  queries : List (RowVar × Sql.QuerySpecification)

namespace Scope

/-- The scope of closures over the rows of one query. -/
def single (dialect : Sql.Dialect) (query : Sql.QuerySpecification) : Scope :=
  ⟨dialect, [(.right, query)]⟩

/-- The scope of closures over rows of two queries. -/
def pair (dialect : Sql.Dialect) (left right : Sql.QuerySpecification) : Scope :=
  ⟨dialect, [(.left, left), (.right, right)]⟩

/-- What a column of a row is. -/
def resolve (scope : Scope) (row : RowVar) (column : String) : Outcome Sql.Expression :=
  match scope.queries.lookup row with
  | none => fail (.unboundRow row.name)
  | some query =>
    match query.findColumn? (scope.dialect.quoted column) with
    | some expression => .ok expression
    | none => fail (.missingColumn column)

/-- What several columns of a row are. -/
def resolveAll (scope : Scope) (row : RowVar) : List String → Outcome (List Sql.Expression)
  | [] => .ok []
  | column :: rest => do
    let expression ← scope.resolve row column
    return expression :: (← scope.resolveAll row rest)

end Scope

/-- A text cast to a type. -/
def textCast (text type : String) : Sql.Expression := .cast (.string text) ⟨type, []⟩

/-- A constant in SQL. Dates are texts cast to their types. -/
def Constant.toSql : Constant → Sql.Expression
  | .boolean value => .boolean value
  | .integer value => .integer value
  | .float value => .literal (.double value)
  | .string value => .string value
  | .strictDate value => textCast value.toText "DATE"
  | .dateTime value => textCast value.toText "TIMESTAMP"

namespace LikeKind

/-- A text with a backslash before the characters that patterns give a meaning to. -/
def escape (text : List Char) : List Char :=
  text.flatMap fun c ↦ if c = '_' ∨ c = '%' then ['\\', c] else [c]

/-- The pattern of the texts that start with, end with or contain a text. -/
def pattern (kind : LikeKind) (text : String) : String :=
  let escaped := escape text.toList
  match kind with
  | .startsWith => String.ofList (escaped ++ ['%'])
  | .endsWith => String.ofList ('%' :: escaped)
  | .contains => String.ofList ('%' :: (escaped ++ ['%']))

end LikeKind

/-- The type a text is cast to when it is read. -/
def ParseTarget.sqlType : ParseTarget → String
  | .integer => "INTEGER"
  | .float => "DOUBLE PRECISION"
  | .boolean => "BOOLEAN"
  | .dateTime => "TIMESTAMP WITH TIME ZONE"

/-- A column at another row of the window. -/
def RowAccessor.toSql (accessor : RowAccessor) (value : Sql.Expression) : Sql.Expression :=
  .call <| match accessor with
    | .lead => .simple "lead" [value]
    | .lag => .simple "lag" [value]
    | .first => .simple "first_value" [value]
    | .last => .simple "last_value" [value]
    | .nth n => .simple "nth_value" [value, .integer n]

/-- A ranking as it is called. -/
def RankFunction.toSql (function : RankFunction) : Sql.Expression :=
  .call <| match function with
    | .rowNumber => .simple "row_number" []
    | .rank => .simple "rank" []
    | .denseRank => .simple "dense_rank" []
    | .percentRank => .simple "percent_rank" []
    | .cumeDist => .simple "cume_dist" []
    | .ntile buckets => .simple "ntile" [.integer buckets]

/-- An operator without operands. -/
def NullaryOperator.toSql : NullaryOperator → Sql.Expression
  | .currentUser => .constant "CURRENT_USER"
  | .today => .currentTime .date none
  | .now => .currentTime .timestamp none
  | .rank function => function.toSql

/-- An operator applied to its operand. -/
def UnaryOperator.toSql (operator : UnaryOperator) (value : Sql.Expression) : Sql.Expression :=
  match operator with
  | .negate => .negative value
  | .math function => .extension (.math function value)
  | .round => .extension (.round value none)
  | .roundTo scale => .extension (.round value (some (.integer scale)))
  | .not => .not value
  | .isEmpty => .isNull value
  | .isNotEmpty => .isNotNull value
  | .length => .extension (.stringLength value)
  | .like kind text => .extension (.stringLike value (.string (kind.pattern text)))
  | .upper => .extension (.stringUpper value)
  | .lower => .extension (.stringLower value)
  | .trim kind => .extension (.stringTrim value kind)
  | .parse target => .cast value ⟨target.sqlType, []⟩
  | .dateTrunc part => .extension (.dateTrunc part value)
  | .datePart field => .extension (.datePart field value)
  | .dateOnly => .cast value ⟨"DATE", []⟩
  | .adjust amount unit => .extension (.dateAdjust value ⟨amount, unit⟩)

/-- An operator applied to its operands. -/
def BinaryOperator.toSql (operator : BinaryOperator) (left right : Sql.Expression) :
    Sql.Expression :=
  match operator with
  | .add => .arithmetic .add left right
  | .subtract => .arithmetic .subtract left right
  | .multiply => .arithmetic .multiply left right
  | .divide => .arithmetic .divide left right
  | .modulo => .arithmetic .modulus left right
  | .power => .extension (.power left right)
  | .remainder => .extension (.remainder left right)
  | .arcTan2 => .extension (.arcTan2 left right)
  | .compare operator => .comparison operator left right
  | .and => .logical .and left right
  | .or => .logical .or left right
  | .indexOf => .extension (.stringPos left right)
  | .concat => .extension (.stringConcat left right)

namespace Expr

mutual

/-- An expression in SQL. -/
def toSql (scope : Scope) : Expr → Outcome Sql.Expression
  | .column row name accessor => do
    let value ← scope.resolve row name
    return match accessor with
      | none => value
      | some accessor => accessor.toSql value
  | .constant value => .ok value.toSql
  | .nullary operator => .ok operator.toSql
  | .unary operator operand => do
    let operand ← operand.toSql scope
    return operator.toSql operand
  | .binary operator left right => do
    let left ← left.toSql scope
    let right ← right.toSql scope
    return operator.toSql left right
  | .inList value items => do
    let value ← value.toSql scope
    let items ← itemsToSql scope items
    return .inPredicate value (.list items)
  | .ifElse condition result otherwise => do
    let condition ← condition.toSql scope
    let result ← result.toSql scope
    let otherwise ← otherwise.toSql scope
    return .searchedCase [⟨condition, result⟩] (some otherwise)
  | .aggregate function values => do
    let values ← values.toSql scope
    return .extension (.aggregate function values)
  | .joinStrings values separator => do
    let values ← values.toSql scope
    return .extension (.joinStrings values (.string separator))

/-- The items of a list in SQL. -/
def itemsToSql (scope : Scope) : List Expr → Outcome (List Sql.Expression)
  | [] => .ok []
  | item :: rest => do
    let item ← item.toSql scope
    return item :: (← itemsToSql scope rest)

end

end Expr

/-- A sort key in SQL; nulls are left where the database puts them. -/
def SortKey.toSql (scope : Scope) (key : SortKey) : Outcome Sql.SortItem := do
  let expression ← scope.resolve .right key.column
  let ordering : Sql.SortOrdering := match key.direction with
    | .ascending => .ascending
    | .descending => .descending
  return ⟨expression, ordering, .undefined⟩

/-- Sort keys in SQL. -/
def SortKey.allToSql (scope : Scope) : List SortKey → Outcome (List Sql.SortItem)
  | [] => .ok []
  | key :: rest => do
    let item ← key.toSql scope
    return item :: (← SortKey.allToSql scope rest)

/-- One end of a window frame in SQL. The sign of an offset becomes the side of the row it is on. -/
def Bound.toSql (bound : Bound) (isStart : Bool) : Sql.FrameBound :=
  match bound with
  | .unbounded => ⟨if isStart then .unboundedPreceding else .unboundedFollowing, none, none⟩
  | .offset value unit =>
    if value = 0 then ⟨.currentRow, none, unit⟩
    else ⟨if value < 0 then .preceding else .following, some (.integer value.abs), unit⟩

/-- A window frame in SQL. -/
def FrameSpec.toSql (frame : FrameSpec) : Sql.WindowFrame :=
  ⟨frame.mode, frame.start.toSql true, some (frame.stop.toSql false)⟩

/-- A window in SQL. -/
def WindowSpec.toSql (scope : Scope) (window : WindowSpec) : Outcome Sql.Window := do
  let partitions ← scope.resolveAll .right window.partitionBy
  let keys ← SortKey.allToSql scope window.orderBy
  return ⟨none, partitions, keys, window.frame.map (·.toSql)⟩

end FrameQuery
