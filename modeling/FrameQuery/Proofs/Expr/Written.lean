import FrameQuery.Expr.Sql
import FrameQuery.Proofs.Outcome

/-!
# When expressions are written

For columns, expressions, sort keys and windows the exact condition under which they can be written
in a scope, and what is written then.
-/

namespace FrameQuery

namespace Scope

/-- In the scope of one query a column of its row is what the query selects under the name. -/
theorem resolve_single {d : Sql.Dialect} {query : Sql.QuerySpecification} {row : RowVar}
    {column : String} {expression : Sql.Expression} :
    (single d query).resolve row column = .ok expression ↔
      row = .right ∧ query.findColumn? (d.quoted column) = some expression := by
  cases row with
  | left =>
    have hl : [(RowVar.right, query)].lookup .left = none := rfl
    simp [resolve, single, hl, fail]
  | right =>
    simp only [resolve, single, List.lookup_cons_self, true_and]
    cases query.findColumn? (d.quoted column) <;> simp [fail]

/-- In the scope of two queries a column of a row is what the query of that row selects. -/
theorem resolve_pair {d : Sql.Dialect} {left right : Sql.QuerySpecification} {row : RowVar}
    {column : String} {expression : Sql.Expression} :
    (pair d left right).resolve row column = .ok expression ↔
      (row = .left ∧ left.findColumn? (d.quoted column) = some expression) ∨
        (row = .right ∧ right.findColumn? (d.quoted column) = some expression) := by
  cases row with
  | left =>
    simp only [resolve, pair, List.lookup_cons_self, true_and, reduceCtorEq, false_and, or_false]
    cases left.findColumn? (d.quoted column) <;> simp [fail]
  | right =>
    have hl : [(RowVar.left, left), (RowVar.right, right)].lookup .right = some right := rfl
    simp only [resolve, pair, hl, true_and, reduceCtorEq, false_and, false_or]
    cases right.findColumn? (d.quoted column) <;> simp [fail]

/-- Columns are resolved one by one. -/
theorem resolveAll_eq_ok {scope : Scope} {row : RowVar} {columns : List String}
    {expressions : List Sql.Expression} :
    scope.resolveAll row columns = .ok expressions ↔
      List.Forall₂ (fun c e ↦ scope.resolve row c = .ok e) columns expressions := by
  have he : scope.resolveAll row columns = columns.mapM (scope.resolve row) := by
    induction columns with
    | nil => rfl
    | cons c rest ih => rw [resolveAll, ih, List.mapM_cons]
  rw [he, Outcome.mapM_eq_ok]

end Scope

/-- The order that a direction is written as. -/
def SortDirection.ordering : SortDirection → Sql.SortOrdering
  | .ascending => .ascending
  | .descending => .descending

/-- A sort key sorts by what its column is. -/
theorem SortKey.toSql_eq_ok {scope : Scope} {key : SortKey} {item : Sql.SortItem} :
    key.toSql scope = .ok item ↔
      ∃ expression, scope.resolve .right key.column = .ok expression ∧
        item = ⟨expression, key.direction.ordering, .undefined⟩ := by
  unfold SortKey.toSql
  simp only [Outcome.bind_eq_ok, Outcome.pure_eq_ok, eq_comm (b := item)]
  cases key.direction <;> rfl

/-- Sort keys are written one by one. -/
theorem SortKey.allToSql_eq_ok {scope : Scope} {keys : List SortKey} {items : List Sql.SortItem} :
    SortKey.allToSql scope keys = .ok items ↔
      List.Forall₂ (fun k i ↦ k.toSql scope = .ok i) keys items := by
  have he : SortKey.allToSql scope keys = keys.mapM (·.toSql scope) := by
    induction keys with
    | nil => rfl
    | cons k rest ih => rw [SortKey.allToSql, ih, List.mapM_cons]
  rw [he, Outcome.mapM_eq_ok]

/-- A window has what its columns are as partitions and keys, and the bounds of its frame. -/
theorem WindowSpec.toSql_eq_ok {scope : Scope} {window : WindowSpec} {result : Sql.Window} :
    window.toSql scope = .ok result ↔
      ∃ partitions keys,
        List.Forall₂ (fun c e ↦ scope.resolve .right c = .ok e) window.partitionBy partitions ∧
        List.Forall₂ (fun k i ↦ k.toSql scope = .ok i) window.orderBy keys ∧
        result = ⟨none, partitions, keys, window.frame.map (·.toSql)⟩ := by
  unfold WindowSpec.toSql
  simp only [Outcome.bind_eq_ok, Outcome.pure_eq_ok, eq_comm (b := result), exists_and_left,
    Scope.resolveAll_eq_ok, SortKey.allToSql_eq_ok]

namespace Expr

/-- Induction along an expression, with the items of a list taken together. -/
@[elab_as_elim, induction_eliminator]
theorem induct {motive : Expr → Prop}
    (column : ∀ row name accessor, motive (.column row name accessor))
    (constant : ∀ value, motive (.constant value))
    (nullary : ∀ operator, motive (.nullary operator))
    (unary : ∀ operator operand, motive operand → motive (.unary operator operand))
    (binary : ∀ operator left right, motive left → motive right →
      motive (.binary operator left right))
    (inList : ∀ value items, motive value → (∀ item ∈ items, motive item) →
      motive (.inList value items))
    (ifElse : ∀ condition result otherwise, motive condition → motive result →
      motive otherwise → motive (.ifElse condition result otherwise))
    (aggregate : ∀ function values, motive values → motive (.aggregate function values))
    (joinStrings : ∀ values separator, motive values → motive (.joinStrings values separator))
    (e : Expr) : motive e := by
  refine Expr.rec column constant nullary unary binary inList ifElse aggregate joinStrings ?_ ?_ e
  · intro item hm
    cases hm
  · intro item rest hi hr other hm
    rcases List.mem_cons.mp hm with rfl | hm
    · exact hi
    · exact hr other hm

variable {scope : Scope} {x : Sql.Expression}

/-- A column is what its row's query selects, perhaps at another row of the window. -/
theorem toSql_column_eq_ok {row : RowVar} {name : String} {accessor : Option RowAccessor} :
    (column row name accessor).toSql scope = .ok x ↔
      ∃ value, scope.resolve row name = .ok value ∧
        x = accessor.elim value (·.toSql value) := by
  refine Outcome.bind_eq_ok.trans ?_
  simp only [Outcome.pure_eq_ok, eq_comm (b := x)]
  cases accessor <;> rfl

/-- An operator is applied to its operand as it is written. -/
theorem toSql_unary_eq_ok {operator : UnaryOperator} {operand : Expr} :
    (unary operator operand).toSql scope = .ok x ↔
      ∃ value, operand.toSql scope = .ok value ∧ x = operator.toSql value := by
  refine Outcome.bind_eq_ok.trans ?_
  simp only [Outcome.pure_eq_ok, eq_comm (b := x)]

/-- An operator is applied to its operands as they are written. -/
theorem toSql_binary_eq_ok {operator : BinaryOperator} {left right : Expr} :
    (binary operator left right).toSql scope = .ok x ↔
      ∃ first second, left.toSql scope = .ok first ∧ right.toSql scope = .ok second ∧
        x = operator.toSql first second := by
  refine Outcome.bind_eq_ok.trans ?_
  simp only [Outcome.bind_eq_ok, Outcome.pure_eq_ok, eq_comm (b := x), exists_and_left]

/-- Items of a list are written one by one. -/
theorem itemsToSql_eq_ok {items : List Expr} {xs : List Sql.Expression} :
    itemsToSql scope items = .ok xs ↔
      List.Forall₂ (fun i y ↦ i.toSql scope = .ok y) items xs := by
  have he : itemsToSql scope items = items.mapM (toSql scope) := by
    induction items with
    | nil => rfl
    | cons item rest ih => rw [itemsToSql, ih, List.mapM_cons]
  rw [he, Outcome.mapM_eq_ok]

/-- Membership is written with its value and the items of its list. -/
theorem toSql_inList_eq_ok {value : Expr} {items : List Expr} :
    (inList value items).toSql scope = .ok x ↔
      ∃ y ys, value.toSql scope = .ok y ∧
        List.Forall₂ (fun i y ↦ i.toSql scope = .ok y) items ys ∧
        x = .inPredicate y (.list ys) := by
  refine Outcome.bind_eq_ok.trans ?_
  simp only [Outcome.bind_eq_ok, Outcome.pure_eq_ok, eq_comm (b := x), itemsToSql_eq_ok,
    exists_and_left]

/-- A case distinction is written with its condition and both of its values. -/
theorem toSql_ifElse_eq_ok {condition result otherwise : Expr} :
    (ifElse condition result otherwise).toSql scope = .ok x ↔
      ∃ c r o, condition.toSql scope = .ok c ∧ result.toSql scope = .ok r ∧
        otherwise.toSql scope = .ok o ∧ x = .searchedCase [⟨c, r⟩] (some o) := by
  refine Outcome.bind_eq_ok.trans ?_
  simp only [Outcome.bind_eq_ok, Outcome.pure_eq_ok, eq_comm (b := x), exists_and_left]

/-- An aggregate is a call over its values. -/
theorem toSql_aggregate_eq_ok {function : Sql.AggregateFunction} {values : Expr} :
    (aggregate function values).toSql scope = .ok x ↔
      ∃ y, values.toSql scope = .ok y ∧ x = .extension (.aggregate function y) := by
  refine Outcome.bind_eq_ok.trans ?_
  simp only [Outcome.pure_eq_ok, eq_comm (b := x)]

/-- Texts one after the other are a call over the texts. -/
theorem toSql_joinStrings_eq_ok {values : Expr} {separator : String} :
    (joinStrings values separator).toSql scope = .ok x ↔
      ∃ y, values.toSql scope = .ok y ∧
        x = .extension (.joinStrings y (.string separator)) := by
  refine Outcome.bind_eq_ok.trans ?_
  simp only [Outcome.pure_eq_ok, eq_comm (b := x)]

end Expr

end FrameQuery
