import FrameQuery.Expr.Sql
import FrameQuery.Frame.Basic
import FrameQuery.Sql.SubQuery

/-!
# Frames in SQL

A transformation adds its clauses to the query of the frame it is applied to, unless a clause of that
query would change what they mean; then that query is wrapped as a sub-query named `root` first. Each
transformation is a function on queries of its own, and the query of a frame is found by applying
them from the table on.
-/

namespace FrameQuery

open Sql (Dialect QuerySpecification SelectItem SubQuery)

namespace QueryStep

/-- A computed column of a select list. -/
def item (d : Dialect) (name : String) (expression : Sql.Expression) : SelectItem :=
  .column (some (d.quoted name)) expression

/-- The query, wrapped as `root` if that is needed. -/
def wrapIf (d : Dialect) (needed : Bool) (query : QuerySpecification) :
    Outcome QuerySpecification :=
  if needed then query.wrapped d "root" none else .ok query

/-- All rows of a table. -/
def table (d : Dialect) (parts : List String) (names : List String) : QuerySpecification :=
  let root := d.quoted "root"
  .plain (names.map fun name ↦ .passing root (d.quoted name)) [.aliased (.table ⟨parts⟩) root []]

/-- The rows for which a condition holds. Grouping, ranges and windows come after `WHERE`, so they
are wrapped first; the condition `true` changes nothing. -/
def filtered (d : Dialect) (condition : Expr) (query : QuerySpecification) :
    Outcome QuerySpecification :=
  match condition with
  | .constant (.boolean true) => .ok query
  | condition => do
    let query ← wrapIf d (query.hasAny [.groupBy, .offset, .limit] || query.selectsWindow) query
    let condition ← condition.toSql (.single d query)
    let filter := match query.filter with
      | some earlier => .logical .and earlier condition
      | none => condition
    return { query with filter := some filter }

/-- Takes the first entry labelled `label` out of a list; the last entry fills its place. -/
def takeLabelled? (label : String) (items : List SelectItem) :
    Option (SelectItem × List SelectItem) :=
  match items.findIdx? fun item ↦ item.label? == some label with
  | none => none
  | some i =>
    match items[i]?, items.getLast? with
    | some item, some last => some (item, (items.set i last).dropLast)
    | _, _ => none

/-- The entries labelled with the quoted names, in the order of the names, taken out of a list one
after the other. -/
def takeColumns (d : Dialect) : List String → List SelectItem → Outcome (List SelectItem)
  | [], _ => .ok []
  | name :: rest, items =>
    match takeLabelled? (d.quoted name) items with
    | none => fail (.missingColumn name)
    | some (item, items) => do
      return item :: (← takeColumns d rest items)

/-- The query with only the named columns in its select list, in the order of the names. -/
def retain (d : Dialect) (names : List String) (query : QuerySpecification) :
    Outcome QuerySpecification := do
  let items ← takeColumns d names query.items
  return query.withItems items

/-- Whether the select list has exactly these labels. -/
def selectsExactly (query : QuerySpecification) (labels : List String) : Bool :=
  query.items.map (·.label?) == labels.map some

/-- The rows restricted to the named columns. Clauses that speak of other columns keep them in a
sub-query. -/
def selected (d : Dialect) (names : List String) (query : QuerySpecification) :
    Outcome QuerySpecification :=
  let labels := names.map d.quoted
  if selectsExactly query labels then .ok query
  else if query.hasAny [.groupBy, .orderBy, .having, .distinct] then
    query.wrapped d "root" (some labels)
  else retain d names query

/-- Each row once, restricted to columns if they are named. -/
def distinct (d : Dialect) (names : Option (List String)) (query : QuerySpecification) :
    Outcome QuerySpecification := do
  let query ← match names with
    | none => pure query
    | some names => selected d names query
  let query ← wrapIf d (query.hasAny [.offset, .limit]) query
  return { query with select := { query.select with distinct := true } }

/-- A plain column of an extension; an aggregate is computed over all rows. -/
def newItem (scope : Scope) (new : ComputedColumn) : Outcome SelectItem := do
  match new.aggregate with
  | none => return item scope.dialect new.name (← new.map.expr.toSql scope)
  | some aggregate =>
    return item scope.dialect new.name (.window (← aggregate.expr.toSql scope) .whole)

/-- A column computed over a window. -/
def windowItem (scope : Scope) (window : Sql.Window) (new : ComputedColumn) :
    Outcome SelectItem := do
  return item scope.dialect new.name (.window (← new.value.expr.toSql scope) window)

/-- A column that holds its value. -/
def valueItem (scope : Scope) (new : ComputedColumn) : Outcome SelectItem := do
  return item scope.dialect new.name (← new.value.expr.toSql scope)

/-- The entries of several new columns. -/
def newItems (toItem : ComputedColumn → Outcome SelectItem) :
    List ComputedColumn → Outcome (List SelectItem)
  | [] => .ok []
  | new :: rest => do
    let item ← toItem new
    return item :: (← newItems toItem rest)

/-- The rows with further columns. -/
def extended (d : Dialect) (new : List ComputedColumn) (query : QuerySpecification) :
    Outcome QuerySpecification := do
  let query ← wrapIf d (query.has .groupBy) query
  let items ← newItems (newItem (.single d query)) new
  return query.withItems (query.items ++ items)

/-- The rows with further columns computed over a window. -/
def windowExtended (d : Dialect) (window : WindowSpec) (new : List ComputedColumn)
    (query : QuerySpecification) : Outcome QuerySpecification := do
  let query ← query.wrapped d "root" none
  let scope := Scope.single d query
  let window ← window.toSql scope
  let items ← newItems (windowItem scope window) new
  return query.withItems (query.items ++ items)

/-- The rows with computed columns only. -/
def projected (d : Dialect) (new : List ComputedColumn) (query : QuerySpecification) :
    Outcome QuerySpecification := do
  let query ← query.wrapped d "root" none
  let items ← newItems (fun new ↦ valueItem (.single d query) { new with aggregate := none }) new
  return query.withItems items

/-- An entry under the new name of its label. -/
def renamedItem (pairs : List (String × String)) : SelectItem → Outcome SelectItem
  | .allColumns _ => fail .renamedAllColumns
  | .column label expression =>
    .ok (.column (label.map fun l ↦ (pairs.lookup l).getD l) expression)

/-- Several entries under the new names of their labels. -/
def renamedItems (pairs : List (String × String)) : List SelectItem → Outcome (List SelectItem)
  | [] => .ok []
  | item :: rest => do
    let item ← renamedItem pairs item
    return item :: (← renamedItems pairs rest)

/-- The rows with columns renamed, all at once. -/
def renamed (d : Dialect) (pairs : List (String × String)) (query : QuerySpecification) :
    Outcome QuerySpecification := do
  let quoted := pairs.map fun (old, new) ↦ (d.quoted old, d.quoted new)
  let items ← renamedItems quoted query.items
  return query.withItems items

/-- One row for each group. Grouping comes before ranges, distinct rows and windows, and is not
done twice in one query, so all of them are wrapped first. -/
def grouped (d : Dialect) (grouping : List String) (aggregates : List ComputedColumn)
    (query : QuerySpecification) : Outcome QuerySpecification := do
  let query ← wrapIf d
    (query.hasAny [.groupBy, .distinct, .offset, .limit] || query.selectsWindow) query
  let scope := Scope.single d query
  let items ← newItems (valueItem scope) aggregates
  let keys ← scope.resolveAll .right grouping
  let query ← retain d grouping query
  return { query.withItems (query.items ++ items) with groupBy := keys }

/-- The rows in another order; rows that a range has picked are not picked again. -/
def sorted (d : Dialect) (keys : List SortKey) (query : QuerySpecification) :
    Outcome QuerySpecification := do
  let query ← wrapIf d (query.hasAny [.offset, .limit]) query
  let keys ← SortKey.allToSql (.single d query) keys
  return { query with orderBy := keys }

/-- The rows from one position up to another. -/
def sliced (d : Dialect) (start stop : Int64) (query : QuerySpecification) :
    Outcome QuerySpecification := do
  let query ← wrapIf d (query.hasAny [.offset, .limit]) query
  return { query with offset := some (.integer start), limit := some (.integer (stop - start)) }

/-- The first rows. A limit comes after an offset, so that rows may have been skipped before. -/
def limited (d : Dialect) (count : Int64) (query : QuerySpecification) :
    Outcome QuerySpecification := do
  let query ← wrapIf d (query.has .limit) query
  return { query with limit := some (.integer count) }

/-- All but the first rows. -/
def dropped (d : Dialect) (count : Int64) (query : QuerySpecification) :
    Outcome QuerySpecification := do
  let query ← wrapIf d (query.hasAny [.offset, .limit]) query
  return { query with offset := some (.integer count) }

/-- The kind of a join in SQL. -/
def joinType : JoinKind → Sql.JoinType
  | .inner => .inner
  | .leftOuter => .left
  | .rightOuter => .right

/-- Pairs of rows of two sub-queries for which a condition holds, wrapped in turn. -/
def joined (d : Dialect) (condition : Expr) (kind : JoinKind) (left right : SubQuery) :
    Outcome QuerySpecification := do
  let condition ← condition.toSql (.pair d left.all right.all)
  let pairs := Sql.Relation.join (joinType kind) left.relation right.relation
    (some (.condition condition))
  (QuerySpecification.plain (left.all.items ++ right.all.items) [pairs]).wrapped d "root" none

/-- The rows of two sub-queries one after the other, under the columns of the first. -/
def concatenated (d : Dialect) (left right : SubQuery) : QuerySpecification :=
  let root := d.quoted "root"
  let union := Sql.Relation.union (.specification left.all) (.specification right.all) false
  .plain (left.columns.map (.passing root))
    [.aliased (.subquery (.plain union)) root left.columns]

end QueryStep

namespace Frame

/-- The query of a frame. -/
def toSql (d : Dialect) : Frame → Outcome QuerySpecification
  | table parts columns => .ok (QueryStep.table d parts (Column.names columns))
  | filtered base condition => do QueryStep.filtered d condition.expr (← base.toSql d)
  | selected base names => do QueryStep.selected d names (← base.toSql d)
  | distinct base names => do QueryStep.distinct d names (← base.toSql d)
  | extended base new => do QueryStep.extended d new (← base.toSql d)
  | windowExtended base window new => do QueryStep.windowExtended d window new (← base.toSql d)
  | projected base new => do QueryStep.projected d new (← base.toSql d)
  | renamed base pairs => do QueryStep.renamed d pairs (← base.toSql d)
  | grouped base grouping aggregates => do
    QueryStep.grouped d grouping aggregates (← base.toSql d)
  | sorted base keys => do QueryStep.sorted d keys (← base.toSql d)
  | sliced base start stop => do QueryStep.sliced d start stop (← base.toSql d)
  | limited base count => do QueryStep.limited d count (← base.toSql d)
  | dropped base count => do QueryStep.dropped d count (← base.toSql d)
  | joined base other condition kind => do
    let left ← (← base.toSql d).named d "left"
    let right ← (← other.toSql d).named d "right"
    QueryStep.joined d condition.expr kind left right
  | asOfJoined _ _ _ _ => fail .asOfJoin
  | concatenated base other => do
    let left ← (← base.toSql d).named d "left"
    let right ← (← other.toSql d).named d "right"
    return QueryStep.concatenated d left right
  | served frame _ => frame.toSql d

end Frame

end FrameQuery
