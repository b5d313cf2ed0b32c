import FrameQuery.Number.Double
import FrameQuery.Sql.Vocabulary

/-!
# The SQL metamodel

Relations, queries and expressions as trees. Labels of columns and relations and the parts of
column references are stored as they will be written, quotes included, so that finding the column a
name refers to compares texts and nothing else.
-/

namespace FrameQuery.Sql

/-- A name of one or more parts. -/
structure QualifiedName where
  parts : List String
  deriving DecidableEq, Repr

/-- A span of time. -/
structure IntervalLiteral where
  amount : Int64
  unit : DurationUnit
  deriving DecidableEq, Repr

/-- Constants. -/
inductive Literal where
  | boolean (value : Bool)
  | integer (value : Int64)
  | double (value : Double)
  /-- A text; one that already has its quotes is written as it stands. -/
  | string (value : String) (quoted : Bool)
  | null
  | interval (interval : IntervalLiteral)
  deriving DecidableEq, Repr

/-- The type that a cast leads to. -/
structure ColumnType where
  name : String
  parameters : List Int64 := []
  deriving DecidableEq, Repr

mutual

/-- What rows are read from. -/
inductive Relation where
  | table (name : QualifiedName)
  /-- A relation under a name of its own, with the columns it has under that name. -/
  | aliased (relation : Relation) (correlation : String) (columnNames : List String)
  | subquery (query : Query)
  | join (kind : JoinType) (left right : Relation) (criteria : Option JoinCriteria)
  | function (call : FunctionCall)
  | union (left right : Relation) (distinct : Bool)
  | specification (query : QuerySpecification)

/-- Which rows of two relations a join pairs. -/
inductive JoinCriteria where
  | condition (condition : Expression)
  | columns (columns : List String)

/-- A relation with an order and a range of rows of its own. -/
structure Query where
  body : Relation
  orderBy : List SortItem
  limit : Option Expression
  offset : Option Expression

/-- A query block. -/
structure QuerySpecification where
  select : Select
  sources : List Relation
  filter : Option Expression
  groupBy : List Expression
  having : Option Expression
  orderBy : List SortItem
  limit : Option Expression
  offset : Option Expression

/-- The select list. -/
structure Select where
  distinct : Bool
  items : List SelectItem

/-- An entry of the select list. -/
inductive SelectItem where
  /-- All columns, or those of one relation. -/
  | allColumns (relation : Option String)
  | column (label : Option String) (expression : Expression)

/-- A sort key. -/
structure SortItem where
  key : Expression
  ordering : SortOrdering
  nulls : NullOrdering

/-- Values computed from a row. -/
inductive Expression where
  | literal (literal : Literal)
  | reference (name : QualifiedName)
  | comparison (operator : ComparisonOperator) (left right : Expression)
  | logical (operator : LogicalOperator) (left right : Expression)
  | not (value : Expression)
  | arithmetic (operator : ArithmeticOperator) (left right : Expression)
  | negative (value : Expression)
  | cast (value : Expression) (columnType : ColumnType)
  | list (items : List Expression)
  | inPredicate (value list : Expression)
  | isNull (value : Expression)
  | isNotNull (value : Expression)
  | currentTime (kind : CurrentTimeKind) (precision : Option UInt32)
  | extract (field : ExtractField) (value : Expression)
  | call (call : FunctionCall)
  | namedArgument (name : String) (value : Expression)
  | searchedCase (whenClauses : List WhenClause) (otherwise : Option Expression)
  | window (nested : Expression) (window : Window)
  | subquery (query : Query)
  /-- A token that is written as it stands. -/
  | constant (token : String)
  | extension (extension : Extension)

/-- A call of a function by name. -/
structure FunctionCall where
  name : QualifiedName
  distinct : Bool
  arguments : List Expression
  filter : Option Expression
  window : Option Window

/-- One branch of a case distinction. -/
structure WhenClause where
  operand : Expression
  result : Expression

/-- The rows around a row that a window function sees. -/
structure Window where
  /-- The name of a window that is defined elsewhere. -/
  reference : Option String
  partitions : List Expression
  orderBy : List SortItem
  frame : Option WindowFrame

/-- The part of a partition that counts, from one bound to another or to the current row. -/
structure WindowFrame where
  mode : WindowFrameMode
  start : FrameBound
  stop : Option FrameBound

/-- A bound of a window frame. -/
structure FrameBound where
  kind : FrameBoundType
  value : Option Expression
  unit : Option DurationUnit

/-- Functions of this domain, which a dialect may write in its own way. -/
inductive Extension where
  | stringLength (value : Expression)
  | stringLike (value pattern : Expression)
  | stringUpper (value : Expression)
  | stringLower (value : Expression)
  | stringTrim (value : Expression) (kind : TrimKind)
  | stringPos (value other : Expression)
  | stringConcat (first second : Expression)
  | math (function : MathFunction) (value : Expression)
  | power (first second : Expression)
  | remainder (first second : Expression)
  | round (value : Expression) (scale : Option Expression)
  | arcTan2 (first second : Expression)
  | aggregate (function : AggregateFunction) (value : Expression)
  | joinStrings (value separator : Expression)
  | dateTrunc (part : DateTruncPart) (value : Expression)
  | datePart (field : DatePartField) (value : Expression)
  /-- A date moved by a fixed span of time. -/
  | dateAdjust (value : Expression) (interval : IntervalLiteral)

end

namespace Expression

/-- An integer constant. -/
def integer (value : Int64) : Expression := .literal (.integer value)

/-- A text constant that is still to be quoted. -/
def string (value : String) : Expression := .literal (.string value false)

/-- A truth value. -/
def boolean (value : Bool) : Expression := .literal (.boolean value)

/-- A reference to a column by the parts of its name. -/
def column (parts : List String) : Expression := .reference ⟨parts⟩

/-- Whether an expression is a constant. -/
def isLiteral : Expression → Bool
  | .literal _ => true
  | _ => false

/-- Whether an expression is a window function call. -/
def isWindow : Expression → Bool
  | .window _ _ => true
  | _ => false

end Expression

/-- A plain call of a function with one name part. -/
def FunctionCall.simple (name : String) (arguments : List Expression) : FunctionCall :=
  ⟨⟨[name]⟩, false, arguments, none, none⟩

/-- The window of all rows. -/
def Window.whole : Window := ⟨none, [], [], none⟩

/-- A relation as a query without order and range. -/
def Query.plain (body : Relation) : Query := ⟨body, [], none, none⟩

/-- A query block of a select list and sources only. -/
def QuerySpecification.plain (items : List SelectItem) (sources : List Relation) :
    QuerySpecification :=
  ⟨⟨false, items⟩, sources, none, [], none, [], none, none⟩

namespace SelectItem

/-- The label of a column that has one. -/
def label? : SelectItem → Option String
  | .column label _ => label
  | .allColumns _ => none

/-- The expression of a column labelled `name`. -/
def labelled? (name : String) : SelectItem → Option Expression
  | .column (some label) expression => if label = name then some expression else none
  | _ => none

end SelectItem

namespace QuerySpecification

/-- The entries of the select list. -/
def items (query : QuerySpecification) : List SelectItem := query.select.items

/-- The query with another select list. -/
def withItems (query : QuerySpecification) (items : List SelectItem) : QuerySpecification :=
  { query with select := { query.select with items := items } }

/-- The expression selected under a label, the first one if several have it. -/
def findColumn? (query : QuerySpecification) (label : String) : Option Expression :=
  query.items.findSome? (·.labelled? label)

end QuerySpecification

end FrameQuery.Sql
