import FrameQuery.Sql.Metamodel
import Mathlib.Data.List.Basic

/-!
# Walks through queries

A walk visits everything in a query, at every depth, and gathers something at references, window
calls, arguments of aggregates, relations and query blocks. Walks differ only in what they gather.
-/

namespace FrameQuery.Sql

/-- What a walk gathers where. -/
structure Walk (α : Type) where
  reference : QualifiedName → List α := fun _ ↦ []
  window : Expression → Window → List α := fun _ _ ↦ []
  /-- At an argument of an aggregate. -/
  reduced : Expression → List α := fun _ ↦ []
  relation : Relation → List α := fun _ ↦ []
  block : QuerySpecification → List α := fun _ ↦ []

variable {α : Type}

mutual

/-- A walk through a relation. -/
def Relation.walk (w : Walk α) (relation : Relation) : List α :=
  w.relation relation ++ match relation with
    | .table _ => []
    | .aliased inner _ _ => inner.walk w
    | .subquery query => query.walk w
    | .join _ left right criteria =>
      left.walk w ++ right.walk w ++ JoinCriteria.optionWalk w criteria
    | .function call => call.walk w
    | .union left right _ => left.walk w ++ right.walk w
    | .specification query => query.walk w

/-- A walk through the criteria of a join. -/
def JoinCriteria.walk (w : Walk α) : JoinCriteria → List α
  | .condition holds => holds.walk w
  | .columns _ => []

/-- A walk through a query. -/
def Query.walk (w : Walk α) : Query → List α
  | ⟨body, orderBy, limit, offset⟩ =>
    body.walk w ++ SortItem.walkAll w orderBy ++ Expression.optionWalk w limit ++
      Expression.optionWalk w offset

/-- A walk through a query block. -/
def QuerySpecification.walk (w : Walk α) (query : QuerySpecification) : List α :=
  w.block query ++ match query with
    | ⟨⟨_, items⟩, sources, filter, groupBy, having, orderBy, limit, offset⟩ =>
      Relation.walkAll w sources ++ (SelectItem.walkAll w items ++ SortItem.walkAll w orderBy ++
        (Expression.optionWalk w filter ++ Expression.walkAll w groupBy ++
          Expression.optionWalk w having ++ Expression.optionWalk w limit ++
          Expression.optionWalk w offset))

/-- A walk through an entry of a select list. -/
def SelectItem.walk (w : Walk α) : SelectItem → List α
  | .allColumns _ => []
  | .column _ expression => expression.walk w

/-- A walk through a sort key. -/
def SortItem.walk (w : Walk α) : SortItem → List α
  | ⟨key, _, _⟩ => key.walk w

/-- A walk through an expression. -/
def Expression.walk (w : Walk α) : Expression → List α
  | .reference name => w.reference name
  | .literal _ | .currentTime _ _ | .constant _ => []
  | .comparison _ left right | .logical _ left right | .arithmetic _ left right
  | .inPredicate left right => left.walk w ++ right.walk w
  | .not value | .negative value | .cast value _ | .isNull value | .isNotNull value
  | .extract _ value | .namedArgument _ value => value.walk w
  | .list items => Expression.walkAll w items
  | .call function => function.walk w
  | .searchedCase clauses otherwise =>
    WhenClause.walkAll w clauses ++ Expression.optionWalk w otherwise
  | .window nested window => w.window nested window ++ (nested.walk w ++ window.walk w)
  | .subquery query => query.walk w
  | .extension function => function.walk w

/-- A walk through a function call. -/
def FunctionCall.walk (w : Walk α) : FunctionCall → List α
  | ⟨_, _, arguments, filter, window⟩ =>
    Expression.walkAll w arguments ++ Expression.optionWalk w filter ++ Window.optionWalk w window

/-- A walk through a branch of a case distinction. -/
def WhenClause.walk (w : Walk α) : WhenClause → List α
  | ⟨operand, result⟩ => operand.walk w ++ result.walk w

/-- A walk through a window. -/
def Window.walk (w : Walk α) : Window → List α
  | ⟨_, partitions, orderBy, frame⟩ =>
    Expression.walkAll w partitions ++ SortItem.walkAll w orderBy ++ WindowFrame.optionWalk w frame

/-- A walk through a window frame. -/
def WindowFrame.walk (w : Walk α) : WindowFrame → List α
  | ⟨_, start, stop⟩ => start.walk w ++ FrameBound.optionWalk w stop

/-- A walk through a bound of a window frame. -/
def FrameBound.walk (w : Walk α) : FrameBound → List α
  | ⟨_, value, _⟩ => Expression.optionWalk w value

/-- A walk through a domain function. -/
def Extension.walk (w : Walk α) : Extension → List α
  | .stringLength value | .stringUpper value | .stringLower value | .stringTrim value _
  | .math _ value | .dateTrunc _ value | .datePart _ value | .dateAdjust value _ => value.walk w
  | .stringLike first second | .stringPos first second | .stringConcat first second
  | .power first second | .remainder first second | .arcTan2 first second =>
    first.walk w ++ second.walk w
  | .round value scale => value.walk w ++ Expression.optionWalk w scale
  | .aggregate _ value => w.reduced value ++ value.walk w
  | .joinStrings value separator =>
    w.reduced value ++ w.reduced separator ++ (value.walk w ++ separator.walk w)

/-- A walk through relations, one after the other. -/
def Relation.walkAll (w : Walk α) : List Relation → List α
  | [] => []
  | relation :: rest => relation.walk w ++ Relation.walkAll w rest

/-- A walk through the entries of a select list. -/
def SelectItem.walkAll (w : Walk α) : List SelectItem → List α
  | [] => []
  | item :: rest => item.walk w ++ SelectItem.walkAll w rest

/-- A walk through sort keys. -/
def SortItem.walkAll (w : Walk α) : List SortItem → List α
  | [] => []
  | item :: rest => item.walk w ++ SortItem.walkAll w rest

/-- A walk through expressions. -/
def Expression.walkAll (w : Walk α) : List Expression → List α
  | [] => []
  | expression :: rest => expression.walk w ++ Expression.walkAll w rest

/-- A walk through branches. -/
def WhenClause.walkAll (w : Walk α) : List WhenClause → List α
  | [] => []
  | clause :: rest => clause.walk w ++ WhenClause.walkAll w rest

/-- A walk through an optional expression. -/
def Expression.optionWalk (w : Walk α) : Option Expression → List α
  | none => []
  | some expression => expression.walk w

/-- A walk through optional criteria. -/
def JoinCriteria.optionWalk (w : Walk α) : Option JoinCriteria → List α
  | none => []
  | some criteria => criteria.walk w

/-- A walk through an optional window. -/
def Window.optionWalk (w : Walk α) : Option Window → List α
  | none => []
  | some window => window.walk w

/-- A walk through an optional window frame. -/
def WindowFrame.optionWalk (w : Walk α) : Option WindowFrame → List α
  | none => []
  | some frame => frame.walk w

/-- A walk through an optional bound. -/
def FrameBound.optionWalk (w : Walk α) : Option FrameBound → List α
  | none => []
  | some bound => bound.walk w

end

/-! ### Lists and options -/

/-- Relations are walked through one after the other. -/
theorem Relation.walkAll_eq_flatMap {w : Walk α} {relations : List Relation} :
    Relation.walkAll w relations = relations.flatMap (·.walk w) := by
  induction relations with
  | nil => rfl
  | cons relation rest ih => rw [Relation.walkAll, ih, List.flatMap_cons]

/-- Expressions are walked through one after the other. -/
theorem Expression.walkAll_eq_flatMap {w : Walk α} {expressions : List Expression} :
    Expression.walkAll w expressions = expressions.flatMap (·.walk w) := by
  induction expressions with
  | nil => rfl
  | cons expression rest ih => rw [Expression.walkAll, ih, List.flatMap_cons]

/-- An optional expression is walked through if it is there. -/
theorem Expression.optionWalk_eq_flatMap {w : Walk α} {expression : Option Expression} :
    Expression.optionWalk w expression = expression.toList.flatMap (·.walk w) := by
  cases expression with
  | none => rfl
  | some expression => rw [Expression.optionWalk]; simp

/-- What an entry of a select list computes. -/
def SelectItem.expression? : SelectItem → Option Expression
  | .allColumns _ => none
  | .column _ expression => some expression

/-- A walk through a select list is one through what its entries compute. -/
theorem SelectItem.walkAll_eq_flatMap {w : Walk α} {items : List SelectItem} :
    SelectItem.walkAll w items = (items.filterMap (·.expression?)).flatMap (·.walk w) := by
  induction items with
  | nil => rfl
  | cons item rest ih =>
    rw [SelectItem.walkAll, ih]
    cases item with
    | allColumns relation => rfl
    | column label expression => rfl

/-- A walk through sort keys is one through what they sort by. -/
theorem SortItem.walkAll_eq_flatMap {w : Walk α} {items : List SortItem} :
    SortItem.walkAll w items = (items.map (·.key)).flatMap (·.walk w) := by
  induction items with
  | nil => rfl
  | cons item rest ih =>
    obtain ⟨key, ordering, nulls⟩ := item
    rw [SortItem.walkAll, ih, SortItem.walk, List.map_cons, List.flatMap_cons]

/-! ### Query blocks -/

namespace QuerySpecification

/-- What a query block selects and sorts by. -/
def outputs (query : QuerySpecification) : List Expression :=
  query.items.filterMap (·.expression?) ++ query.orderBy.map (·.key)

/-- What a query block picks and groups its rows by. -/
def clauses (query : QuerySpecification) : List Expression :=
  query.filter.toList ++ query.groupBy ++ query.having.toList ++ query.limit.toList ++
    query.offset.toList

/-- The expressions of a query block itself, not those of the relations it reads from. -/
def expressions (query : QuerySpecification) : List Expression := query.outputs ++ query.clauses

variable {query : QuerySpecification} {x : Expression}

/-- An output of a block is one that it selects or sorts by. -/
theorem mem_outputs :
    x ∈ query.outputs ↔
      (∃ i ∈ query.items, i.expression? = some x) ∨ ∃ k ∈ query.orderBy, k.key = x := by
  simp only [outputs, List.mem_append, List.mem_filterMap, List.mem_map]

/-- An expression in a clause of a block is a condition, a key or a bound. -/
theorem mem_clauses :
    x ∈ query.clauses ↔ query.filter = some x ∨ x ∈ query.groupBy ∨ query.having = some x ∨
      query.limit = some x ∨ query.offset = some x := by
  simp only [clauses, List.mem_append, Option.mem_toList, or_assoc]

/-- An expression of a block is one that it selects, sorts by, or has in a clause. -/
theorem mem_expressions :
    x ∈ query.expressions ↔
      (∃ i ∈ query.items, i.expression? = some x) ∨ (∃ k ∈ query.orderBy, k.key = x) ∨
        query.filter = some x ∨ x ∈ query.groupBy ∨ query.having = some x ∨
          query.limit = some x ∨ query.offset = some x := by
  rw [expressions, List.mem_append, mem_outputs, mem_clauses, or_assoc]

/-- Something holds of all expressions of a block exactly if it holds of what each part has. -/
theorem forall_mem_expressions {P : Expression → Prop} :
    (∀ x ∈ query.expressions, P x) ↔
      (∀ i ∈ query.items, ∀ x, i.expression? = some x → P x) ∧ (∀ k ∈ query.orderBy, P k.key) ∧
        (∀ x, query.filter = some x → P x) ∧ (∀ x ∈ query.groupBy, P x) ∧
          (∀ x, query.having = some x → P x) ∧ (∀ x, query.limit = some x → P x) ∧
            ∀ x, query.offset = some x → P x := by
  simp only [mem_expressions, or_imp, forall_and, forall_exists_index, and_imp,
    forall_apply_eq_imp_iff₂]
  exact and_congr_left' ⟨fun h i hi x he ↦ h x i hi he, fun h x i hi he ↦ h i hi x he⟩

/-- A walk through a query block visits the block, what it reads from and its expressions. -/
theorem walk_eq {w : Walk α} :
    query.walk w = w.block query ++ (query.sources.flatMap (·.walk w) ++
      query.expressions.flatMap (·.walk w)) := by
  obtain ⟨⟨distinct, items⟩, sources, filter, groupBy, having, orderBy, limit, offset⟩ := query
  simp only [walk, expressions, outputs, clauses, QuerySpecification.items,
    Relation.walkAll_eq_flatMap, SelectItem.walkAll_eq_flatMap, SortItem.walkAll_eq_flatMap,
    Expression.walkAll_eq_flatMap, Expression.optionWalk_eq_flatMap, List.flatMap_append]

end QuerySpecification

/-! ### What is gathered -/

/-- A walk that gathers references to columns. -/
def Walk.ofReferences : Walk QualifiedName where
  reference name := [name]

/-- A walk that gathers window calls. -/
def Walk.ofWindows : Walk (Expression × Window) where
  window nested window := [(nested, window)]

/-- The names of all columns that an expression refers to. -/
def Expression.references (expression : Expression) : List QualifiedName :=
  expression.walk .ofReferences

/-- All window calls of an expression. -/
def Expression.windows (expression : Expression) : List (Expression × Window) :=
  expression.walk .ofWindows

/-- A walk that gathers the window calls in arguments of aggregates and in other window calls. -/
def Walk.ofBuriedWindows : Walk (Expression × Window) where
  window nested window := nested.windows ++ window.walk .ofWindows
  reduced := Expression.windows

/-- The window calls of an expression that stand in an argument of an aggregate or in another window
call. -/
def Expression.buriedWindows (expression : Expression) : List (Expression × Window) :=
  expression.walk .ofBuriedWindows

/-- A walk that gathers relations. -/
def Walk.ofRelations : Walk Relation where
  relation relation := [relation]

/-- A walk that gathers query blocks. -/
def Walk.ofBlocks : Walk QuerySpecification where
  block query := [query]

@[simp] theorem Walk.ofRelations_relation (relation : Relation) :
    Walk.ofRelations.relation relation = [relation] := rfl

@[simp] theorem Walk.ofRelations_block (query : QuerySpecification) :
    Walk.ofRelations.block query = [] := rfl

@[simp] theorem Walk.ofBlocks_relation (relation : Relation) :
    Walk.ofBlocks.relation relation = [] := rfl

@[simp] theorem Walk.ofBlocks_block (query : QuerySpecification) :
    Walk.ofBlocks.block query = [query] := rfl

/-- All relations of a query block, at every depth. -/
def QuerySpecification.relations (query : QuerySpecification) : List Relation :=
  query.walk .ofRelations

/-- A query block and all blocks nested in it, at every depth. -/
def QuerySpecification.blocks (query : QuerySpecification) : List QuerySpecification :=
  query.walk .ofBlocks

end FrameQuery.Sql
