import FrameQuery.Error
import FrameQuery.Sql.Dialect

/-!
# Sub-queries

A query block is wrapped as a sub-query under a name when another clause is to apply to its rows
rather than to the rows it reads. Only blocks whose select list is made of labelled columns can be
wrapped; the sub-query then has exactly those labels as its columns.
-/

namespace FrameQuery.Sql

/-- Clauses of a query block that a later clause may not be evaluated together with. -/
inductive Clause where
  | groupBy
  | orderBy
  | having
  | distinct
  | limit
  | offset
  deriving DecidableEq, Repr

instance : Named Clause where
  values := [.groupBy, .orderBy, .having, .distinct, .limit, .offset]
  name
    | .groupBy => "GroupBy"
    | .orderBy => "OrderBy"
    | .having => "Having"
    | .distinct => "Distinct"
    | .limit => "Limit"
    | .offset => "Offset"

namespace QuerySpecification

/-- Whether a query block has a clause. -/
def has (query : QuerySpecification) : Clause → Bool
  | .groupBy => !query.groupBy.isEmpty
  | .orderBy => !query.orderBy.isEmpty
  | .having => query.having.isSome
  | .distinct => query.select.distinct
  | .limit => query.limit.isSome
  | .offset => query.offset.isSome

/-- Whether a query block has one of several clauses. -/
def hasAny (query : QuerySpecification) (clauses : List Clause) : Bool := clauses.any query.has

/-- Whether the select list holds a window function call. -/
def selectsWindow (query : QuerySpecification) : Bool :=
  query.items.any fun
    | .column _ expression => expression.isWindow
    | .allColumns _ => false

end QuerySpecification

/-- The label of an entry of a select list that is to become a column. -/
def SelectItem.requiredLabel : SelectItem → Outcome String
  | .column (some label) _ => .ok label
  | .column none _ => fail .unlabelledColumn
  | .allColumns _ => fail .allColumns

/-- The labels of a select list that is to be wrapped. -/
def requiredLabels : List SelectItem → Outcome (List String)
  | [] => .ok []
  | item :: rest => do
    let label ← item.requiredLabel
    return label :: (← requiredLabels rest)

/-- A column of a relation, selected under its own name. -/
def SelectItem.passing (correlation column : String) : SelectItem :=
  .column (some column) (.column [correlation, column])

/-- A query block under a name. -/
structure SubQuery where
  query : QuerySpecification
  correlation : String
  columns : List String

namespace SubQuery

/-- The query block as a relation with a name. -/
def relation (sub : SubQuery) : Relation :=
  .aliased (.subquery (.plain (.specification sub.query))) sub.correlation sub.columns

/-- Columns of a sub-query, selected under their own names. -/
def items (sub : SubQuery) (columns : List String) : List SelectItem :=
  columns.map (.passing sub.correlation)

/-- All columns and rows of a sub-query. -/
def all (sub : SubQuery) : QuerySpecification := .plain (sub.items sub.columns) [sub.relation]

end SubQuery

namespace QuerySpecification

/-- The columns a sub-query made of this query block has. -/
def columns (query : QuerySpecification) : Outcome (List String) := requiredLabels query.items

/-- A query block under a quoted name. -/
def named (query : QuerySpecification) (d : Dialect) (name : String) : Outcome SubQuery := do
  let columns ← query.columns
  return ⟨query, d.quoted name, columns⟩

/-- A query block wrapped as a sub-query under the quoted `name`. All its columns are selected, or
those of a non-empty list `retain` that it has, in the order of that list. -/
def wrapped (query : QuerySpecification) (d : Dialect) (name : String)
    (retain : Option (List String)) : Outcome QuerySpecification := do
  let sub ← query.named d name
  let columns := match retain with
    | some (first :: rest) => (first :: rest).filter sub.columns.contains
    | _ => sub.columns
  return .plain (sub.items columns) [sub.relation]

end QuerySpecification

end FrameQuery.Sql
