import FrameQuery.Expr.Typed

/-!
# Rows and collections

What closures are given: a row of a frame, from which columns are read with their types, for windows
also the rows around it, and for aggregations the values that another closure computes.
-/

namespace FrameQuery

/-- A row of a frame as a closure sees it. -/
structure Row where
  var : RowVar
  columns : List Column
  /-- Where in the window the row stands, if it is not the row itself. -/
  accessor : Option RowAccessor := none
  deriving Repr

namespace Row

/-- The value of a column. -/
def get (row : Row) (name : String) : Outcome TypedExpr :=
  match Column.find? row.columns name with
  | some column => .ok ⟨column.type, .column row.var name row.accessor⟩
  | none => fail (.rowColumn name (Column.names row.columns))

/-- The value of a column that can be read as a type. -/
def getAs (row : Row) (name : String) (expected : PrimitiveType) : Outcome TypedExpr := do
  let value ← row.get name
  require (value.type.isReadableAs expected) (.columnType name value.type expected)
  return value

end Row

/-- A row and the rest of its window as a closure sees them. -/
structure PartialFrame where
  row : Row
  deriving Repr

namespace PartialFrame

/-- Another row of the window. -/
def moved (p : PartialFrame) (accessor : RowAccessor) : Row :=
  { p.row with accessor := some accessor }

/-- The type of a ranking. -/
def rankType : RankFunction → PrimitiveType
  | .percentRank | .cumeDist => .float
  | _ => .integer

/-- The rank of the row in its window. Rows are dealt into at least one bucket. -/
def rank (_ : PartialFrame) (function : RankFunction) : Outcome TypedExpr := do
  match function with
  | .ntile buckets => require (1 ≤ buckets) (.bucketCount buckets)
  | _ => pure ()
  return ⟨rankType function, .nullary (.rank function)⟩

end PartialFrame

/-- The values that an expression has on the rows of a group. -/
structure Collection where
  mapped : TypedExpr
  deriving Repr

namespace Collection

/-- The type of the values. -/
def type (c : Collection) : PrimitiveType := c.mapped.type

/-- Whether an aggregate takes values of a type, and otherwise what kind of values it takes. -/
def wanted (function : Sql.AggregateFunction) (type : PrimitiveType) : Option String :=
  match function with
  | .count | .distinctCount => none
  | .max | .min => if type = .boolean then some "ordered" else none
  | _ => if type.isNumeric then none else some "numeric"

/-- The type of an aggregate. -/
def resultType (function : Sql.AggregateFunction) (type : PrimitiveType) : PrimitiveType :=
  match function with
  | .count | .distinctCount => .integer
  | .sum | .max | .min => type
  | _ => .float

/-- An aggregate of the values. -/
def aggregate (c : Collection) (function : Sql.AggregateFunction) : Outcome TypedExpr :=
  match wanted function c.type with
  | some kind => fail (.aggregateType function kind c.type)
  | none => .ok ⟨resultType function c.type, .aggregate function c.mapped.expr⟩

/-- The texts one after the other with a separator between them. -/
def joinStrings (c : Collection) (separator : String) : Outcome TypedExpr := do
  require (c.type == .string) (.joinedType c.type)
  return ⟨.string, .joinStrings c.mapped.expr separator⟩

end Collection

end FrameQuery
