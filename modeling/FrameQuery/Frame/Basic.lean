import FrameQuery.Expr.Row
import FrameQuery.Expr.Window

/-!
# Frames

A frame is a table or what a transformation made of other frames. Closures are evaluated when a
transformation is applied, so that a frame holds their results. Frames are built by the functions of
`FrameQuery.Frame.Transformation`, which check their arguments; the columns of a frame are those the
checks were made against.
-/

namespace FrameQuery

/-- Which unmatched rows a join keeps. -/
inductive JoinKind where
  | inner
  | leftOuter
  | rightOuter
  deriving DecidableEq, Repr

instance : Named JoinKind where
  values := [.inner, .leftOuter, .rightOuter]
  name
    | .inner => "Inner"
    | .leftOuter => "LeftOuter"
    | .rightOuter => "RightOuter"

instance : Inhabited JoinKind := ⟨.leftOuter⟩

/-- The kind of join a text names, in any case of letters. -/
def JoinKind.ofText (text : String) : Outcome JoinKind :=
  match text.toLower with
  | "inner" => .ok .inner
  | "left_outer" | "leftouter" => .ok .leftOuter
  | "right_outer" | "rightouter" => .ok .rightOuter
  | _ => fail (.joinKind text)

/-- A column whose closures have been evaluated: a value of each row, and what the values of a group
are reduced to if the column is an aggregate. -/
structure ComputedColumn where
  name : String
  map : TypedExpr
  aggregate : Option TypedExpr
  deriving Repr

namespace ComputedColumn

/-- What the column holds. -/
def value (c : ComputedColumn) : TypedExpr := c.aggregate.getD c.map

/-- Name and type of the column. -/
def column (c : ComputedColumn) : Column := { name := c.name, type := c.value.type }

end ComputedColumn

/-- The number under which a program knows an execution service. -/
abbrev ServiceId := Nat

/-- A frame. -/
inductive Frame where
  | table (parts : List String) (columns : List Column)
  | filtered (base : Frame) (condition : TypedExpr)
  | selected (base : Frame) (names : List String)
  /-- Distinct rows, of some columns if they are named. -/
  | distinct (base : Frame) (names : Option (List String))
  | extended (base : Frame) (new : List ComputedColumn)
  | windowExtended (base : Frame) (window : WindowSpec) (new : List ComputedColumn)
  | projected (base : Frame) (new : List ComputedColumn)
  /-- Columns renamed from the first to the second name of each pair. -/
  | renamed (base : Frame) (pairs : List (String × String))
  | grouped (base : Frame) (grouping : List String) (aggregates : List ComputedColumn)
  | sorted (base : Frame) (keys : List SortKey)
  | sliced (base : Frame) (start stop : Int64)
  | limited (base : Frame) (count : Int64)
  | dropped (base : Frame) (count : Int64)
  | joined (base other : Frame) (condition : TypedExpr) (kind : JoinKind)
  | asOfJoined (base other : Frame) (matching : TypedExpr) (condition : Option TypedExpr)
  | concatenated (base other : Frame)
  /-- The same frame, executed by a service. -/
  | served (frame : Frame) (service : ServiceId)
  deriving Repr

namespace Frame

/-- The columns with these names, in their order; names of no column are passed over. -/
def pick (columns : List Column) (names : List String) : List Column :=
  names.filterMap (Column.find? columns)

/-- The new name of a column. -/
def relabelled (pairs : List (String × String)) (column : Column) : Column :=
  match pairs.lookup column.name with
  | some name => column.renamed name
  | none => column

/-- The columns of a frame. -/
def columns : Frame → List Column
  | table _ columns => columns
  | filtered base _ => base.columns
  | selected base names => pick base.columns names
  | distinct base none => base.columns
  | distinct base (some names) => pick base.columns names
  | extended base new => base.columns ++ new.map (·.column)
  | windowExtended base _ new => base.columns ++ new.map (·.column)
  | projected _ new => new.map (·.column)
  | renamed base pairs => base.columns.map (relabelled pairs)
  | grouped base grouping aggregates =>
    pick base.columns grouping ++ aggregates.map (·.column)
  | sorted base _ => base.columns
  | sliced base _ _ => base.columns
  | limited base _ => base.columns
  | dropped base _ => base.columns
  | joined base other _ _ => base.columns ++ other.columns
  | asOfJoined base other _ _ => base.columns ++ other.columns
  | concatenated base _ => base.columns
  | served frame _ => frame.columns

/-- The names of a frame's columns. -/
def columnNames (frame : Frame) : List String := Column.names frame.columns

/-- The frame that a frame was derived from; none for a table. -/
def base? : Frame → Option Frame
  | table _ _ => none
  | filtered base _ | selected base _ | distinct base _ | extended base _
  | windowExtended base _ _ | projected base _ | renamed base _ | grouped base _ _
  | sorted base _ | sliced base _ _ | limited base _ | dropped base _ | joined base _ _ _
  | asOfJoined base _ _ _ | concatenated base _ => some base
  | served frame _ => frame.base?

/-- The frames read besides the one a frame was derived from. -/
def parameters : Frame → List Frame
  | joined _ other _ _ | asOfJoined _ other _ _ | concatenated _ other => [other]
  | served frame _ => frame.parameters
  | _ => []

/-- The service that executes a frame: its own, or the one of the frame it was derived from. -/
def service? : Frame → Option ServiceId
  | served _ service => some service
  | table _ _ => none
  | filtered base _ | selected base _ | distinct base _ | extended base _
  | windowExtended base _ _ | projected base _ | renamed base _ | grouped base _ _
  | sorted base _ | sliced base _ _ | limited base _ | dropped base _ | joined base _ _ _
  | asOfJoined base _ _ _ | concatenated base _ => base.service?

end Frame

end FrameQuery
