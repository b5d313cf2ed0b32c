import FrameQuery.Expr.Typed

/-!
# Sort keys and windows

A window partitions and orders rows by columns, and may frame the rows that count around each row.
The bounds of a frame are offsets from the current row: negative before it, zero the row itself,
positive behind it.
-/

namespace FrameQuery

/-- Directions of a sort key. -/
inductive SortDirection where
  | ascending
  | descending
  deriving DecidableEq, Repr

instance : Named SortDirection where
  values := [.ascending, .descending]
  name
    | .ascending => "Ascending"
    | .descending => "Descending"

/-- A column to sort by. -/
structure SortKey where
  column : String
  direction : SortDirection
  deriving DecidableEq, Repr

/-- The sort key of an expression that is a column of the row itself. -/
def TypedExpr.sortKey (p : TypedExpr) (direction : SortDirection) : Outcome SortKey :=
  match p.expr.columnName? with
  | some column => .ok ⟨column, direction⟩
  | none => fail .sortTarget

/-- One end of a window frame. -/
inductive Bound where
  | unbounded
  /-- An offset in rows, or in the units of a range. -/
  | offset (value : Int64) (unit : Option Sql.DurationUnit)
  deriving DecidableEq, Repr

/-- The rows around a row that count. -/
structure FrameSpec where
  mode : Sql.WindowFrameMode
  start : Bound
  stop : Bound
  deriving DecidableEq, Repr

/-- Partitions, order and frame of a window. -/
structure WindowSpec where
  partitionBy : List String := []
  orderBy : List SortKey := []
  frame : Option FrameSpec := none
  deriving DecidableEq, Repr

/-- The columns a window reads. -/
def WindowSpec.columns (window : WindowSpec) : List String :=
  window.partitionBy ++ window.orderBy.map (·.column)

end FrameQuery
