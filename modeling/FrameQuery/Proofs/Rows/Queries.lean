import FrameQuery.Proofs.Rows.Evaluation

/-!
# Rows of queries

A query is read clause by clause, in the order in which SQL applies them: the rows of its sources,
the condition, the groups, the condition on groups, the select list with the calls over windows in
it, distinct rows, the order and the range. A block that selects an aggregate without saying how
rows are grouped has one group, even where it has no rows; to sort by an aggregate makes no groups.
The rows of a sub-query keep their order.
-/

namespace FrameQuery.Sql

variable {V : Type}

/-! ### Tables -/

namespace Table

/-- A row with the names of its columns. -/
def env (t : Table V) (row : List V) : Env V := t.columns.zip row

/-- All rows with the names of their columns. -/
def envs (t : Table V) : List (Env V) := t.rows.map t.env

/-- The same rows with columns that belong to a relation. -/
def under (t : Table V) (relation : List String) : Table V :=
  { t with columns := t.columns.map fun column ↦ relation ++ column.getLast?.toList }

/-- The same rows under other names, if there are any. -/
def renamed (t : Table V) (names : List String) : Table V :=
  { t with columns := if names.isEmpty then t.columns else names.map ([·]) }

/-- A single row without columns. -/
def unit : Table V := ⟨[], [[]]⟩

/-- Every row of one table with every row of another one. -/
def product (left right : Table V) : Table V :=
  ⟨left.columns ++ right.columns,
    left.rows.flatMap fun a ↦ right.rows.map fun b ↦ a ++ b⟩

/-- The rows of one table followed by those of another one. -/
def append (left right : Table V) : Table V := ⟨left.columns, left.rows ++ right.rows⟩

/-- Each row once. -/
def distinct [DecidableEq V] (t : Table V) : Table V := { t with rows := t.rows.eraseDups }

/-- Pairs of rows that match each other. Rows without a match are paired with nulls where the kind
of the join keeps them. -/
def join (null : V) (kind : JoinType) (left right : Table V) (matched : List V → List V → Bool) :
    Table V :=
  let pairs := left.rows.flatMap fun a ↦ (right.rows.filter (matched a)).map fun b ↦ a ++ b
  let lefts := (left.rows.filter fun a ↦ !right.rows.any (matched a)).map fun a ↦
    a ++ List.replicate right.columns.length null
  let rights := (right.rows.filter fun b ↦ !left.rows.any (matched · b)).map fun b ↦
    List.replicate left.columns.length null ++ b
  ⟨left.columns ++ right.columns,
    pairs ++ (if kind = .left ∨ kind = .full then lefts else []) ++
      if kind = .right ∨ kind = .full then rights else []⟩

end Table

/-- Whether a column is selected by the name of a relation, or without one. -/
def coversColumn (relation : Option String) (column : List String) : Bool :=
  relation.all fun name ↦ [name].isSuffixOf column.dropLast

/-- The names of the columns that an entry of a select list makes, which belong to no relation. A
column without a label has no name. -/
def SelectItem.columns (columns : List (List String)) : SelectItem → List (List String)
  | .allColumns relation =>
    (columns.filter (coversColumn relation)).map fun column ↦ column.getLast?.toList
  | .column label _ => [label.toList]

variable [DecidableEq V] (engine : Engine V)

/-- The values of the columns that an entry of a select list makes. -/
def SelectItem.values (place : Place V) : SelectItem → List V
  | .allColumns relation =>
    (place.env.filter fun column ↦ coversColumn relation column.1).map (·.2)
  | .column _ expression => [expression.value engine place]

/-- The values of sort keys. -/
def SortItem.values (items : List SortItem) (place : Place V) : List V :=
  items.map (·.key.value engine place)

/-- Rows with their sort keys in order, from an offset on up to a limit. -/
def Engine.arranged (orderBy : List SortItem) (limit offset : Option Expression)
    (rows : List (List V × List V)) : List (List V) :=
  let count (x : Expression) := engine.count (x.value engine (.row []))
  let sorted := (engine.sorted (SortItem.orderings orderBy) (·.2) rows).map (·.1)
  let rest := sorted.drop (offset.elim 0 count)
  limit.elim rest fun x ↦ rest.take (count x)

/-- Whether rows match each other by the criteria of a join. -/
def JoinCriteria.matched (left right : Table V) (criteria : Option JoinCriteria) (a b : List V) :
    Bool :=
  match criteria with
  | none => true
  | some (.condition holds) =>
    engine.holds (holds.value engine (.row ((left.columns ++ right.columns).zip (a ++ b))))
  | some (.columns names) => names.all fun name ↦ engine.holds (engine.scalar
      (.comparison .equal .hole .hole)
      [engine.read (left.env a) [name], engine.read (right.env b) [name]])

/-! ### Query blocks -/

namespace QuerySpecification

/-- Whether a query block makes one row of each group of rows. -/
def isGrouped (query : QuerySpecification) : Bool :=
  !query.groupBy.isEmpty || query.having.isSome ||
    (query.items.filterMap (·.expression?)).any (·.reduces)

/-- A block makes groups if it has grouping keys or a condition on groups, or if it selects something
that reduces rows. -/
theorem isGrouped_iff {query : QuerySpecification} : query.isGrouped = true ↔
    query.groupBy ≠ [] ∨ query.having.isSome = true ∨
      ∃ i ∈ query.items, ∃ x, i.expression? = some x ∧ x.reduces = true := by
  have selected : (query.items.filterMap (·.expression?)).any (·.reduces) = true ↔
      ∃ i ∈ query.items, ∃ x, i.expression? = some x ∧ x.reduces = true := by
    simp only [List.any_eq_true, List.mem_filterMap]
    exact ⟨fun ⟨x, ⟨i, hi, he⟩, h⟩ ↦ ⟨i, hi, x, he, h⟩,
      fun ⟨i, hi, x, he, h⟩ ↦ ⟨x, ⟨i, hi, he⟩, h⟩⟩
  rw [isGrouped, Bool.or_eq_true, Bool.or_eq_true, or_assoc, selected, Bool.not_eq_true',
    List.isEmpty_eq_false_iff]

/-- The rows that a query block picks. -/
def picked (query : QuerySpecification) (rows : List (Env V)) : List (Env V) :=
  rows.filter fun env ↦ query.filter.all fun x ↦ engine.holds (x.value engine (.row env))

/-- The values by which a query block groups a row. -/
def groupKeys (query : QuerySpecification) (env : Env V) : List V :=
  query.groupBy.map (·.value engine (.row env))

/-- The groups of a query block, in the order of their first rows. -/
def groups (query : QuerySpecification) (rows : List (Env V)) : List (List (Env V)) :=
  if !query.groupBy.isEmpty then
    (rows.map (query.groupKeys engine)).eraseDups.map fun key ↦
      rows.filter fun env ↦ query.groupKeys engine env = key
  -- Without a grouping key there is a group even if there are no rows.
  else if query.isGrouped then [rows]
  else rows.map ([·])

/-- The groups that a query block keeps. -/
def keptGroups (query : QuerySpecification) (rows : List (Env V)) : List (List (Env V)) :=
  (query.groups engine rows).filter fun group ↦
    query.having.all fun x ↦ engine.holds (x.value engine ⟨[group], 0⟩)

/-- What a query block selects at a place, and the values of its sort keys there. -/
def output (query : QuerySpecification) (place : Place V) : List V × List V :=
  (query.items.flatMap (·.values engine place), SortItem.values engine query.orderBy place)

/-- What a query block selects, each row once if the rows are to be distinct. -/
def outputRows (query : QuerySpecification) (rows : List (Env V)) : List (List V × List V) :=
  let outputs := (Place.all (query.keptGroups engine rows)).map (query.output engine)
  if query.select.distinct then outputs.eraseDupsBy fun a b ↦ a.1 == b.1 else outputs

/-- The rows that a query block makes of the rows of its sources. -/
def contentsOf (query : QuerySpecification) (source : Table V) : Table V :=
  ⟨query.items.flatMap (·.columns source.columns),
    engine.arranged query.orderBy query.limit query.offset
      (query.outputRows engine (query.picked engine source.envs))⟩

end QuerySpecification

/-! ### Queries and relations -/

mutual

/-- The rows of a relation. -/
def Relation.contents (engine : Engine V) : Relation → Table V
  | .table name => (engine.table name).under name.parts
  | .aliased relation correlation names =>
    ((relation.contents engine).renamed names).under [correlation]
  | .subquery query => query.contents engine
  | .join kind left right criteria =>
    let lefts := left.contents engine
    let rights := right.contents engine
    lefts.join engine.null kind rights (JoinCriteria.matched engine lefts rights criteria)
  | .function call => engine.tableFunction call
  | .union left right distinct =>
    let rows := (left.contents engine).append (right.contents engine)
    if distinct then rows.distinct else rows
  | .specification query => query.contents engine

/-- The rows of a query. -/
def Query.contents (engine : Engine V) : Query → Table V
  | ⟨body, orderBy, limit, offset⟩ =>
    let rows := body.contents engine
    { rows with
      rows := engine.arranged orderBy limit offset (rows.rows.map fun row ↦
        (row, SortItem.values engine orderBy (.row (rows.env row)))) }

/-- The rows of a query block. -/
def QuerySpecification.contents (engine : Engine V) (query : QuerySpecification) : Table V :=
  query.contentsOf engine <| match query with
    | ⟨_, sources, _, _, _, _, _, _⟩ => Relation.product engine sources

/-- Every row of a relation with every row of the other ones. -/
def Relation.product (engine : Engine V) : List Relation → Table V
  | [] => .unit
  | relation :: rest => (relation.contents engine).product (Relation.product engine rest)

end

/-- The rows of a query block are made of those of its sources. -/
theorem QuerySpecification.contents_eq (query : QuerySpecification) :
    query.contents engine = query.contentsOf engine (Relation.product engine query.sources) := by
  obtain ⟨select, sources, filter, groupBy, having, orderBy, limit, offset⟩ := query
  rw [contents]

/-- The rows of a query block, without the names of their columns. -/
def QuerySpecification.rows (query : QuerySpecification) : List (List V) :=
  (query.contents engine).rows

end FrameQuery.Sql
