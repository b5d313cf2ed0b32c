import FrameQuery.Frame.Basic

/-!
# Transformations of frames

Every transformation checks its arguments against the columns of the frame it is applied to and
evaluates its closures, in a fixed order; the first failure is the outcome. A failure inside a
closure gets a hint that names the closure.
-/

namespace FrameQuery

/-- A column to be computed from each row, and perhaps from a group of rows. -/
structure NewColumn where
  name : String
  map : Row → Outcome TypedExpr
  aggregate : Option (Collection → Outcome TypedExpr) := none

/-- A column to be computed from each row and its window. -/
structure WindowColumn where
  name : String
  map : PartialFrame → Outcome TypedExpr
  aggregate : Option (Collection → Outcome TypedExpr) := none

/-- Evaluates the aggregation of a column, if it has one. -/
def evaluateAggregate (function name : String) (map : TypedExpr) :
    Option (Collection → Outcome TypedExpr) → Outcome (Option TypedExpr)
  | none => .ok none
  | some aggregate =>
    (hinting ("error occurred while evaluating the '" ++ function ++
      "' aggregation lambda of column '" ++ name ++ "'") (aggregate ⟨map⟩)).map some

/-- Hints at the closure of a column. -/
def hintingColumn {α : Type} (function name : String) : Outcome α → Outcome α :=
  hinting ("error occurred while evaluating the '" ++ function ++ "' lambda of column '" ++ name ++
    "'")

namespace NewColumn

/-- Evaluates a column for a row. -/
def evaluate (new : NewColumn) (row : Row) (function : String) : Outcome ComputedColumn := do
  let map ← hintingColumn function new.name (new.map row)
  let aggregate ← evaluateAggregate function new.name map new.aggregate
  return ⟨new.name, map, aggregate⟩

/-- Evaluates columns for a row, one after the other. -/
def evaluateAll (row : Row) (function : String) : List NewColumn → Outcome (List ComputedColumn)
  | [] => .ok []
  | new :: rest => do
    let computed ← new.evaluate row function
    return computed :: (← evaluateAll row function rest)

end NewColumn

namespace WindowColumn

/-- Evaluates a column for a row and its window. -/
def evaluate (new : WindowColumn) (row : Row) : Outcome ComputedColumn := do
  let map ← hintingColumn "window_extend" new.name (new.map ⟨row⟩)
  let aggregate ← evaluateAggregate "window_extend" new.name map new.aggregate
  return ⟨new.name, map, aggregate⟩

/-- Evaluates columns for a row and its window, one after the other. -/
def evaluateAll (row : Row) : List WindowColumn → Outcome (List ComputedColumn)
  | [] => .ok []
  | new :: rest => do
    let computed ← new.evaluate row
    return computed :: (← evaluateAll row rest)

end WindowColumn

/-- Whether a name occurs twice. -/
def hasDuplicates : List String → Bool
  | [] => false
  | name :: rest => rest.contains name || hasDuplicates rest

namespace Frame

/-- The row that closures over a single frame are given. -/
def row (frame : Frame) : Row := { var := .right, columns := frame.columns }

/-- Checks that names are names of columns. -/
def checkColumns (frame : Frame) (context : String) (names : List String) : Outcome Unit :=
  match names.find? fun name ↦ !frame.columnNames.contains name with
  | some name => fail (.listedColumn name context frame.columnNames)
  | none => .ok ()

/-- Checks that new columns have names of their own. -/
def checkNewNames (frame : Frame) (names : List String) : Outcome Unit := do
  require (!hasDuplicates names) (.newDuplicates names)
  match names.find? frame.columnNames.contains with
  | some name => fail (.newShadows name)
  | none => return

/-- Checks that a condition is one. -/
def checkCondition (value : TypedExpr) (function : String) : Outcome Unit :=
  require (value.type == .boolean) (.conditionType function value.type)

/-- Checks a list of columns that rows are to be restricted to. -/
def checkSelection (frame : Frame) (names : List String) (context : String) : Outcome Unit := do
  require (!names.isEmpty) (.withoutColumns context)
  frame.checkColumns context names
  require (!hasDuplicates names) (.listDuplicates context names)

/-- All columns and rows of a table. -/
def ofTable (parts : List String) (columns : List Column) : Outcome Frame := do
  require (!(parts.isEmpty || parts.contains "")) (.tableParts parts)
  require (!columns.isEmpty) (.tableWithoutColumns parts)
  let names := Column.names columns
  require (!hasDuplicates names) (.tableDuplicates parts names)
  return table parts columns

/-- The rows for which a condition holds. -/
def filter (frame : Frame) (condition : Row → Outcome TypedExpr) : Outcome Frame := do
  let value ← hinting "error occurred while evaluating the filter function" (condition frame.row)
  checkCondition value "Filter"
  return filtered frame value

/-- The rows restricted to columns, in the order given. -/
def select (frame : Frame) (names : List String) : Outcome Frame := do
  frame.checkSelection names "select"
  return selected frame names

/-- Each row once. -/
def distinctRows (frame : Frame) : Frame := distinct frame none

/-- Each row restricted to columns once. -/
def distinctBy (frame : Frame) (names : List String) : Outcome Frame := do
  frame.checkSelection names "distinct"
  return distinct frame (some names)

/-- The rows with further columns. -/
def extend (frame : Frame) (new : List NewColumn) : Outcome Frame := do
  frame.checkNewNames (new.map (·.name))
  let computed ← NewColumn.evaluateAll frame.row "extend" new
  return extended frame computed

/-- The rows with further columns computed over a window. -/
def windowExtend (frame : Frame) (window : WindowSpec) (new : List WindowColumn) :
    Outcome Frame := do
  frame.checkNewNames (new.map (·.name))
  frame.checkColumns "window" window.columns
  let computed ← WindowColumn.evaluateAll frame.row new
  return windowExtended frame window computed

/-- The rows with computed columns only. -/
def project (frame : Frame) (new : List NewColumn) : Outcome Frame := do
  require (!new.isEmpty) (.withoutColumns "project")
  let names := new.map (·.name)
  require (!hasDuplicates names) (.projectDuplicates names)
  match new.find? (·.aggregate.isSome) with
  | some column => fail (.projectAggregate column.name)
  | none => pure ()
  let computed ← NewColumn.evaluateAll frame.row "project" new
  return projected frame computed

/-- The rows with columns renamed, all at once. -/
def rename (frame : Frame) (pairs : List (String × String)) : Outcome Frame := do
  let old := pairs.map (·.1)
  let new := pairs.map (·.2)
  frame.checkColumns "rename" old
  require (!hasDuplicates old) (.renameOldDuplicates old)
  require (!hasDuplicates new) (.renameNewDuplicates new)
  match new.find? fun name ↦ frame.columnNames.contains name && !old.contains name with
  | some name => fail (.renameShadows name frame.columnNames)
  | none => return renamed frame pairs

/-- One row for each group of rows that agree on columns, with aggregates of the group. -/
def groupBy (frame : Frame) (grouping : List String) (aggregates : List NewColumn) :
    Outcome Frame := do
  frame.checkColumns "group_by" grouping
  let names := aggregates.map (·.name)
  require (!(grouping ++ names).isEmpty) .withoutGroups
  require (!hasDuplicates (grouping ++ names)) (.groupDuplicates grouping names)
  match aggregates.find? (·.aggregate.isNone) with
  | some column => fail (.groupPlain column.name)
  | none => pure ()
  let computed ← NewColumn.evaluateAll frame.row "group_by" aggregates
  return grouped frame grouping computed

/-- The rows in another order. -/
def sort (frame : Frame) (keys : List SortKey) : Outcome Frame := do
  require (!keys.isEmpty) .withoutSortKeys
  frame.checkColumns "sort" (keys.map (·.column))
  return sorted frame keys

/-- The rows from one position up to, but not including, another. -/
def slice (frame : Frame) (start stop : Int64) : Outcome Frame := do
  require (0 ≤ start) (.negativeStart start)
  require (start < stop) (.emptySlice start stop)
  return sliced frame start stop

/-- The first rows. -/
def limit (frame : Frame) (count : Int64) : Outcome Frame := do
  require (0 ≤ count) (.negativeCount "limit" count)
  return limited frame count

/-- The first rows, by another name. -/
def head (frame : Frame) (count : Int64) : Outcome Frame := frame.limit count

/-- All but the first rows. -/
def drop (frame : Frame) (count : Int64) : Outcome Frame := do
  require (0 ≤ count) (.negativeCount "drop" count)
  return dropped frame count

/-- Evaluates a condition over rows of two frames. It is called `what` in a hint and `title` in a
message. -/
def condition (frame other : Frame) (what title : String)
    (closure : Row → Row → Outcome TypedExpr) : Outcome TypedExpr := do
  let value ← hinting ("error occurred while evaluating the " ++ what ++ " function")
    (closure { var := .left, columns := frame.columns } { var := .right, columns := other.columns })
  checkCondition value title
  return value

/-- Checks that two frames share no column name. -/
def checkDisjoint (frame other : Frame) : Outcome Unit :=
  require (!frame.columnNames.any other.columnNames.contains)
    (.joinDuplicates frame.columnNames other.columnNames)

/-- Pairs of rows of two frames for which a condition holds. -/
def join (frame other : Frame) (closure : Row → Row → Outcome TypedExpr) (kind : JoinKind) :
    Outcome Frame := do
  let value ← frame.condition other "join condition" "Join condition" closure
  frame.checkDisjoint other
  return joined frame other value kind

/-- Each row with the closest row of another frame that matches it, among those for which a
condition holds if there is one. -/
def asOfJoin (frame other : Frame) (matching : Row → Row → Outcome TypedExpr)
    (closure : Option (Row → Row → Outcome TypedExpr)) : Outcome Frame := do
  let match_ ← frame.condition other "asOfJoin match" "AsOfJoin match" matching
  let value ← match closure with
    | none => pure none
    | some closure =>
      (frame.condition other "asOfJoin join condition" "AsOfJoin join condition" closure).map some
  frame.checkDisjoint other
  return asOfJoined frame other match_ value

/-- The first pair of columns that differ in name or type, with its position. -/
def firstMismatch : Nat → List Column → List Column → Option (Nat × Column × Column)
  | index, left :: lefts, right :: rights =>
    if left.name = right.name ∧ left.type = right.type then firstMismatch (index + 1) lefts rights
    else some (index, left, right)
  | _, _, _ => none

/-- The rows of one frame followed by those of another with the same columns. -/
def concatenate (frame other : Frame) : Outcome Frame := do
  require (frame.columns.length == other.columns.length)
    (.columnCounts frame.columns other.columns)
  match firstMismatch 0 frame.columns other.columns with
  | some (index, left, right) => fail (.columnMismatch index left right)
  | none => return concatenated frame other

/-- The same frame, executed by a service. -/
def withService (frame : Frame) (service : ServiceId) : Frame := served frame service

end Frame

end FrameQuery
