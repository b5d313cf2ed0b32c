import FrameQuery.Proofs.Expr.Written
import FrameQuery.Proofs.Sql.Traversal

/-!
# What expressions read

Writing an expression puts what a query selects in place of each column that is read, and adds
operators around it. Operators refer to no column and call no window function, so that everything a
walk finds in the written expression was found in one of the columns or stands in an aggregate.
-/

namespace FrameQuery

namespace Expr

mutual

/-- The columns that an expression reads, each with the row it is read from. -/
def reads : Expr → List (RowVar × String)
  | .column row name _ => [(row, name)]
  | .constant _ | .nullary _ => []
  | .unary _ operand => operand.reads
  | .binary _ left right => left.reads ++ right.reads
  | .inList value items => value.reads ++ itemReads items
  | .ifElse condition result otherwise => condition.reads ++ (result.reads ++ otherwise.reads)
  | .aggregate _ values | .joinStrings values _ => values.reads

/-- The columns that items of a list read. -/
def itemReads : List Expr → List (RowVar × String)
  | [] => []
  | item :: rest => item.reads ++ itemReads rest

end

mutual

/-- The expressions whose values an expression reduces, at every depth. -/
def aggregated : Expr → List Expr
  | .column _ _ _ | .constant _ | .nullary _ => []
  | .unary _ operand => operand.aggregated
  | .binary _ left right => left.aggregated ++ right.aggregated
  | .inList value items => value.aggregated ++ itemAggregated items
  | .ifElse condition result otherwise =>
    condition.aggregated ++ (result.aggregated ++ otherwise.aggregated)
  | .aggregate _ values | .joinStrings values _ => values :: values.aggregated

/-- The expressions whose values items of a list reduce. -/
def itemAggregated : List Expr → List Expr
  | [] => []
  | item :: rest => item.aggregated ++ itemAggregated rest

end

/-- The reads of a list are those of its items. -/
theorem itemReads_eq_flatMap {items : List Expr} : itemReads items = items.flatMap reads := by
  induction items with
  | nil => rfl
  | cons item rest ih => rw [itemReads, ih, List.flatMap_cons]

/-- What a list reduces is what its items reduce. -/
theorem itemAggregated_eq_flatMap {items : List Expr} :
    itemAggregated items = items.flatMap aggregated := by
  induction items with
  | nil => rfl
  | cons item rest ih => rw [itemAggregated, ih, List.flatMap_cons]

end Expr

/-! ### What a walk finds in a written expression -/

variable {α : Type} {w : Sql.Walk α}

/-- Nothing is found in a written constant. -/
theorem Constant.walk_toSql (value : Constant) : value.toSql.walk w = [] := by
  cases value <;>
    simp [Constant.toSql, textCast, Sql.Expression.boolean, Sql.Expression.integer,
      Sql.Expression.string, Sql.Expression.walk]

/-- Nothing is found in an operator without operands. -/
theorem NullaryOperator.walk_toSql (operator : NullaryOperator) : operator.toSql.walk w = [] := by
  cases operator with
  | rank function =>
    cases function <;>
      simp [NullaryOperator.toSql, RankFunction.toSql, Sql.FunctionCall.simple,
        Sql.Expression.integer, Sql.Expression.walk, Sql.FunctionCall.walk,
        Sql.Expression.walkAll, Sql.Expression.optionWalk, Sql.Window.optionWalk]
  | _ => simp [NullaryOperator.toSql, Sql.Expression.walk]

/-- In an operator with one operand is found what is found in the operand. -/
theorem UnaryOperator.walk_toSql (operator : UnaryOperator) (value : Sql.Expression) :
    (operator.toSql value).walk w = value.walk w := by
  cases operator <;>
    simp [UnaryOperator.toSql, Sql.Expression.integer, Sql.Expression.string, Sql.Expression.walk,
      Sql.Extension.walk, Sql.Expression.optionWalk]

/-- In an operator with two operands is found what is found in them. -/
theorem BinaryOperator.walk_toSql (operator : BinaryOperator) (left right : Sql.Expression) :
    (operator.toSql left right).walk w = left.walk w ++ right.walk w := by
  cases operator <;> simp [BinaryOperator.toSql, Sql.Expression.walk, Sql.Extension.walk]

/-- In a column at another row is found what is found in the column. -/
theorem RowAccessor.walk_toSql (accessor : RowAccessor) (value : Sql.Expression) :
    (accessor.toSql value).walk w = value.walk w := by
  cases accessor <;>
    simp [RowAccessor.toSql, Sql.FunctionCall.simple, Sql.Expression.integer, Sql.Expression.walk,
      Sql.FunctionCall.walk, Sql.Expression.walkAll, Sql.Expression.optionWalk,
      Sql.Window.optionWalk]

namespace Expr

variable {scope : Scope} {x : Sql.Expression} {y : α}

/-- A walk finds something in what one of the columns is that are read. -/
def Finds (scope : Scope) (w : Sql.Walk α) (y : α) (reads : List (RowVar × String)) : Prop :=
  ∃ read ∈ reads, ∃ value, scope.resolve read.1 read.2 = .ok value ∧ y ∈ value.walk w

/-- A walk gathers something at one of the values that are reduced. -/
def FindsReduced (scope : Scope) (w : Sql.Walk α) (y : α) (aggregated : List Expr) : Prop :=
  ∃ values ∈ aggregated, ∃ value, values.toSql scope = .ok value ∧ y ∈ w.reduced value

/-- Something is found in columns of two lists exactly when it is found in one of them. -/
theorem finds_append (first second : List (RowVar × String)) :
    Finds scope w y (first ++ second) ↔ Finds scope w y first ∨ Finds scope w y second := by
  simp only [Finds, List.mem_append, or_and_right, exists_or]

private theorem findsReduced_append (first second : List Expr) :
    FindsReduced scope w y (first ++ second) ↔
      FindsReduced scope w y first ∨ FindsReduced scope w y second := by
  simp only [FindsReduced, List.mem_append, or_and_right, exists_or]

private theorem findsReduced_cons {values : Expr} {value : Sql.Expression}
    {aggregated : List Expr} (made : values.toSql scope = .ok value) :
    FindsReduced scope w y (values :: aggregated) ↔
      y ∈ w.reduced value ∨ FindsReduced scope w y aggregated := by
  simp [FindsReduced, made]

/-- A walk finds in a written expression what it finds in the columns that are read and what it
gathers at the values that are reduced. -/
theorem mem_walk_toSql {e : Expr} (literal : ∀ l, w.reduced (.literal l) = [])
    (made : e.toSql scope = .ok x) :
    y ∈ x.walk w ↔ Finds scope w y e.reads ∨ FindsReduced scope w y e.aggregated := by
  induction e generalizing x with
  | column row name accessor =>
    obtain ⟨value, hv, rfl⟩ := toSql_column_eq_ok.mp made
    have he : (accessor.elim value (·.toSql value)).walk w = value.walk w := by
      cases accessor with
      | none => rfl
      | some accessor => exact accessor.walk_toSql value
    rw [he]
    simp [Finds, FindsReduced, reads, aggregated, hv]
  | constant value =>
    rw [← Except.ok.inj made, value.walk_toSql]
    simp [Finds, FindsReduced, reads, aggregated]
  | nullary operator =>
    rw [← Except.ok.inj made, operator.walk_toSql]
    simp [Finds, FindsReduced, reads, aggregated]
  | unary operator operand ih =>
    obtain ⟨value, hv, rfl⟩ := toSql_unary_eq_ok.mp made
    rw [operator.walk_toSql, ih hv, reads, aggregated]
  | binary operator left right ihl ihr =>
    obtain ⟨first, second, hf, hs, rfl⟩ := toSql_binary_eq_ok.mp made
    rw [operator.walk_toSql, List.mem_append, ihl hf, ihr hs, reads, aggregated, finds_append,
      findsReduced_append, or_or_or_comm]
  | inList value items ihv ihi =>
    obtain ⟨v, vs, hv, hvs, rfl⟩ := toSql_inList_eq_ok.mp made
    have hi : y ∈ Sql.Expression.walkAll w vs ↔
        Finds scope w y (itemReads items) ∨ FindsReduced scope w y (itemAggregated items) := by
      clear made
      induction hvs with
      | nil => simp [Finds, FindsReduced, itemReads, itemAggregated, Sql.Expression.walkAll]
      | @cons i z is zs hz _ ih =>
        rw [Sql.Expression.walkAll, List.mem_append, ihi i List.mem_cons_self hz,
          ih fun j hj ↦ ihi j (List.mem_cons_of_mem _ hj), itemReads, itemAggregated, finds_append,
          findsReduced_append, or_or_or_comm]
    rw [Sql.Expression.walk, Sql.Expression.walk, List.mem_append, ihv hv, hi, reads, aggregated,
      finds_append, findsReduced_append, or_or_or_comm]
  | ifElse condition result otherwise ihc ihr iho =>
    obtain ⟨c, r, o, hc, hr, ho, rfl⟩ := toSql_ifElse_eq_ok.mp made
    have he : (Sql.Expression.searchedCase [⟨c, r⟩] (some o)).walk w =
        c.walk w ++ (r.walk w ++ o.walk w) := by
      simp [Sql.Expression.walk, Sql.WhenClause.walkAll, Sql.WhenClause.walk,
        Sql.Expression.optionWalk]
    have hro : y ∈ r.walk w ++ o.walk w ↔ Finds scope w y (result.reads ++ otherwise.reads) ∨
        FindsReduced scope w y (result.aggregated ++ otherwise.aggregated) := by
      rw [List.mem_append, ihr hr, iho ho, finds_append, findsReduced_append, or_or_or_comm]
    rw [he, List.mem_append, ihc hc, hro, reads, aggregated, finds_append condition.reads,
      findsReduced_append condition.aggregated, or_or_or_comm]
  | aggregate function values ih =>
    obtain ⟨value, hv, rfl⟩ := toSql_aggregate_eq_ok.mp made
    rw [Sql.Expression.walk, Sql.Extension.walk, List.mem_append, ih hv, reads, aggregated,
      findsReduced_cons hv, or_left_comm]
  | joinStrings values separator ih =>
    obtain ⟨value, hv, rfl⟩ := toSql_joinStrings_eq_ok.mp made
    rw [Sql.Expression.walk, Sql.Extension.walk, Sql.Expression.string, literal,
      Sql.Expression.walk, List.append_nil, List.append_nil, List.mem_append, ih hv, reads,
      aggregated, findsReduced_cons hv, or_left_comm]

/-- In resolved columns is found what is found in the columns. -/
theorem mem_walk_resolved {columns : List String} {xs : List Sql.Expression}
    (made : List.Forall₂ (fun c x ↦ scope.resolve .right c = .ok x) columns xs) :
    y ∈ xs.flatMap (·.walk w) ↔ Finds scope w y (columns.map (RowVar.right, ·)) := by
  induction made with
  | nil => simp [Finds]
  | cons hx _ ih =>
    rw [List.flatMap_cons, List.mem_append, ih, List.map_cons]
    simp [Finds, hx]

/-- What is reduced in an expression reads columns that the expression reads, and it is written with
the expression. -/
theorem toSql_of_aggregated {e values : Expr} (reduced : values ∈ e.aggregated)
    (made : e.toSql scope = .ok x) :
    values.reads ⊆ e.reads ∧ ∃ value, values.toSql scope = .ok value := by
  induction e generalizing x with
  | column | constant | nullary => cases reduced
  | unary operator operand ih =>
    obtain ⟨value, hv, -⟩ := toSql_unary_eq_ok.mp made
    exact ih reduced hv
  | binary operator left right ihl ihr =>
    obtain ⟨first, second, hf, hs, -⟩ := toSql_binary_eq_ok.mp made
    rcases List.mem_append.mp reduced with reduced | reduced
    · exact (ihl reduced hf).imp_left (List.subset_append_of_subset_left _)
    · exact (ihr reduced hs).imp_left (List.subset_append_of_subset_right _)
  | inList value items ihv ihi =>
    obtain ⟨v, vs, hv, hvs, -⟩ := toSql_inList_eq_ok.mp made
    rcases List.mem_append.mp reduced with reduced | reduced
    · exact (ihv reduced hv).imp_left (List.subset_append_of_subset_left _)
    · obtain ⟨item, hi, reduced⟩ := List.mem_flatMap.mp (itemAggregated_eq_flatMap ▸ reduced)
      obtain ⟨z, -, hz⟩ := Outcome.exists_of_mem_right hvs.flip hi
      refine (ihi item hi reduced hz).imp_left fun known read hr ↦ ?_
      rw [reads, itemReads_eq_flatMap]
      exact List.mem_append_right _ (List.mem_flatMap.mpr ⟨item, hi, known hr⟩)
  | ifElse condition result otherwise ihc ihr iho =>
    obtain ⟨c, r, o, hc, hr, ho, -⟩ := toSql_ifElse_eq_ok.mp made
    rcases List.mem_append.mp reduced with reduced | reduced
    · exact (ihc reduced hc).imp_left (List.subset_append_of_subset_left _)
    · rcases List.mem_append.mp reduced with reduced | reduced
      · exact (ihr reduced hr).imp_left fun known ↦ List.subset_append_of_subset_right _
          (List.subset_append_of_subset_left _ known)
      · exact (iho reduced ho).imp_left fun known ↦ List.subset_append_of_subset_right _
          (List.subset_append_of_subset_right _ known)
  | aggregate function operand ih =>
    obtain ⟨value, hv, -⟩ := toSql_aggregate_eq_ok.mp made
    rcases List.mem_cons.mp reduced with rfl | reduced
    · exact ⟨List.Subset.refl _, value, hv⟩
    · exact ih reduced hv
  | joinStrings operand separator ih =>
    obtain ⟨value, hv, -⟩ := toSql_joinStrings_eq_ok.mp made
    rcases List.mem_cons.mp reduced with rfl | reduced
    · exact ⟨List.Subset.refl _, value, hv⟩
    · exact ih reduced hv

end Expr

/-- Sort keys sort by the columns they name. -/
theorem SortKey.resolved {scope : Scope} {keys : List SortKey} {items : List Sql.SortItem}
    (made : List.Forall₂ (fun k i ↦ k.toSql scope = .ok i) keys items) :
    List.Forall₂ (fun c x ↦ scope.resolve .right c = .ok x) (keys.map (·.column))
      (items.map (·.key)) := by
  induction made with
  | nil => exact .nil
  | cons hi _ ih =>
    obtain ⟨x, hx, rfl⟩ := SortKey.toSql_eq_ok.mp hi
    exact .cons hx ih

/-- Nothing is found in a written bound. -/
theorem Bound.walk_toSql (bound : Bound) (isStart : Bool) :
    (bound.toSql isStart).walk w = [] := by
  cases bound with
  | unbounded => rfl
  | offset value unit =>
    rw [Bound.toSql]
    split
    · rfl
    · rfl

/-- A walk finds in a written window what it finds in the columns of the window. -/
theorem WindowSpec.mem_walk_toSql {scope : Scope} {window : WindowSpec} {result : Sql.Window}
    {y : α} (made : window.toSql scope = .ok result) :
    y ∈ result.walk w ↔ Expr.Finds scope w y (window.columns.map (RowVar.right, ·)) := by
  obtain ⟨partitions, keys, hp, hk, rfl⟩ := WindowSpec.toSql_eq_ok.mp made
  have hf : Sql.WindowFrame.optionWalk w (window.frame.map (·.toSql)) = [] := by
    cases window.frame with
    | none => rfl
    | some frame =>
      rw [Option.map_some, Sql.WindowFrame.optionWalk, FrameSpec.toSql, Sql.WindowFrame.walk,
        Sql.FrameBound.optionWalk, Bound.walk_toSql, Bound.walk_toSql, List.append_nil]
  rw [Sql.Window.walk, hf, List.append_nil, Sql.Expression.walkAll_eq_flatMap,
    Sql.SortItem.walkAll_eq_flatMap, List.mem_append, Expr.mem_walk_resolved hp,
    Expr.mem_walk_resolved (SortKey.resolved hk), WindowSpec.columns, List.map_append,
    Expr.finds_append]

end FrameQuery
