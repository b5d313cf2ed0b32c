import FrameQuery.Proofs.Frame.Assembly

/-!
# What is nested in assembled queries

The expressions of an assembled query hold no queries, so that everything nested in the query is
nested in the relations it reads from. The blocks nested there are assembled themselves.
-/

namespace FrameQuery

open Sql (Dialect QuerySpecification SelectItem SubQuery Expression Relation Walk)

variable {α : Type} {w : Walk α} {d : Dialect} {tables : List (List String × List String)}
  {query : QuerySpecification} {x : Expression} {y : α}

namespace Sql

/-- A walk that gathers nothing at window calls and at arguments of aggregates. -/
structure Walk.IgnoresCalls (w : Walk α) : Prop where
  window : ∀ nested window, w.window nested window = []
  reduced : ∀ value, w.reduced value = []

/-- A walk that gathers nothing in expressions without sub-queries. -/
structure Walk.IgnoresExpressions (w : Walk α) : Prop extends w.IgnoresCalls where
  reference : ∀ name, w.reference name = []

/-- References are gathered at references only. -/
theorem Walk.ignoresCalls_ofReferences : Walk.ofReferences.IgnoresCalls :=
  ⟨fun _ _ ↦ rfl, fun _ ↦ rfl⟩

/-- Window calls are not gathered once more for standing in an aggregate. -/
theorem Walk.ignoresExpressions_ofRelations : Walk.ofRelations.IgnoresExpressions :=
  ⟨⟨fun _ _ ↦ rfl, fun _ ↦ rfl⟩, fun _ ↦ rfl⟩

/-- Query blocks are gathered at query blocks only. -/
theorem Walk.ignoresExpressions_ofBlocks : Walk.ofBlocks.IgnoresExpressions :=
  ⟨⟨fun _ _ ↦ rfl, fun _ ↦ rfl⟩, fun _ ↦ rfl⟩

namespace QuerySpecification

/-- A plain block has the expressions that it selects. -/
theorem mem_expressions_plain {items : List SelectItem} {sources : List Relation} :
    x ∈ (plain items sources).expressions ↔ ∃ i ∈ items, i.expression? = some x := by
  rw [mem_expressions]
  simp [plain, QuerySpecification.items]

end QuerySpecification

/-- A walk through a query that is only a relation is one through the relation. -/
theorem Query.walk_plain (w : Walk α) (body : Relation) :
    (Query.plain body).walk w = body.walk w := by
  simp [Query.plain, Query.walk, SortItem.walkAll, Expression.optionWalk]

/-- A walk through a sub-query visits the relation, what it wraps, and the query. -/
theorem SubQuery.walk_relation (w : Walk α) (sub : SubQuery) :
    sub.relation.walk w = w.relation sub.relation ++
      (w.relation (.subquery (.plain (.specification sub.query))) ++
        (w.relation (.specification sub.query) ++ sub.query.walk w)) := by
  rw [SubQuery.relation, Relation.walk, Relation.walk, Query.walk_plain, Relation.walk]

/-- Columns selected under their own names refer to their relation. -/
theorem SubQuery.mem_expressions_items {sub : SubQuery} {columns : List String} :
    (∃ i ∈ sub.items columns, i.expression? = some x) ↔
      ∃ c ∈ columns, x = .column [sub.correlation, c] := by
  simp [SubQuery.items, SelectItem.passing, SelectItem.expression?, eq_comm]

/-- All columns of a sub-query are references to it. -/
theorem SubQuery.mem_expressions_all {sub : SubQuery} :
    x ∈ sub.all.expressions ↔ ∃ c ∈ sub.columns, x = .column [sub.correlation, c] := by
  rw [SubQuery.all, QuerySpecification.mem_expressions_plain, SubQuery.mem_expressions_items]

end Sql

/-- What is found in an expression over one query is found in the expressions of the query. -/
theorem Expr.finds_of_mem_walk {e : Expr} {scope : Scope} (hw : w.IgnoresCalls)
    (made : e.toSql scope = .ok x) (h : y ∈ x.walk w) : Expr.Finds scope w y e.reads := by
  rcases (Expr.mem_walk_toSql (fun _ ↦ hw.reduced _) made).mp h with h | ⟨_, _, _, _, h⟩
  · exact h
  · rw [hw.reduced] at h
    cases h

/-- What is found in the columns of a query is found in its expressions. -/
theorem Expr.Finds.single {reads : List (RowVar × String)}
    (h : Expr.Finds (.single d query) w y reads) : ∃ z ∈ query.expressions, y ∈ z.walk w := by
  obtain ⟨read, -, z, hz, hy⟩ := h
  exact ⟨z, Scope.expressions_of_resolve hz, hy⟩

/-- What is found in the columns of two queries is found in the expressions of one of them. -/
theorem Expr.Finds.pair {left right : QuerySpecification} {reads : List (RowVar × String)}
    (h : Expr.Finds (.pair d left right) w y reads) :
    (∃ z ∈ left.expressions, y ∈ z.walk w) ∨ ∃ z ∈ right.expressions, y ∈ z.walk w := by
  obtain ⟨read, -, z, hz, hy⟩ := h
  rcases Scope.resolve_pair.mp hz with ⟨-, hz⟩ | ⟨-, hz⟩
  · exact .inl ⟨z, QuerySpecification.expressions_of_findColumn? hz, hy⟩
  · exact .inr ⟨z, QuerySpecification.expressions_of_findColumn? hz, hy⟩

/-- What is found in a derived expression is found in one of those it was derived from. -/
theorem Derived.mem_walk (hw : w.IgnoresCalls) (derived : Derived d query x) (h : y ∈ x.walk w) :
    ∃ z ∈ query.expressions, y ∈ z.walk w := by
  cases derived with
  | own hx => exact ⟨x, hx, h⟩
  | computed made => exact (Expr.finds_of_mem_walk hw made h).single
  | windowed made window =>
    rw [Sql.Expression.walk, hw.window, List.nil_append, List.mem_append] at h
    rcases h with h | h
    · exact (Expr.finds_of_mem_walk hw made h).single
    · exact ((WindowSpec.mem_walk_toSql window).mp h).single
  | @both e earlier x hf made =>
    rw [Sql.Expression.walk, List.mem_append] at h
    rcases h with h | h
    · have hm := QuerySpecification.mem_expressions.mpr (.inr (.inr (.inl hf)))
      exact ⟨earlier, hm, h⟩
    · exact (Expr.finds_of_mem_walk hw made h).single
  | integer value => cases h

namespace Assembled

/-- Nothing is found in the expressions of an assembled query: they hold no queries. -/
theorem not_mem_walk (hw : w.IgnoresExpressions) (assembled : Assembled d tables query)
    (hx : x ∈ query.expressions) : y ∉ x.walk w := by
  have passing (parts : List String) : y ∉ (Expression.column parts).walk w := by
    rw [Expression.column, Sql.Expression.walk, hw.reference]
    exact List.not_mem_nil
  induction assembled generalizing x with
  | table =>
    obtain ⟨i, hi, he⟩ := QuerySpecification.mem_expressions_plain.mp hx
    obtain ⟨name, -, rfl⟩ := List.mem_map.mp hi
    rw [← Option.some.inj he]
    exact passing _
  | wrapped =>
    obtain ⟨c, -, rfl⟩ := SubQuery.mem_expressions_items.mp
      (QuerySpecification.mem_expressions_plain.mp hx)
    exact passing _
  | derived _ _ derived ih =>
    intro hy
    obtain ⟨z, hz, hyz⟩ := (derived x hx).mem_walk hw.toIgnoresCalls hy
    exact ih hz hyz
  | paired =>
    obtain ⟨i, hi, he⟩ := QuerySpecification.mem_expressions_plain.mp hx
    rcases List.mem_append.mp hi with hi | hi
    · obtain ⟨c, -, rfl⟩ := SubQuery.mem_expressions_items.mp ⟨i, hi, he⟩
      exact passing _
    · obtain ⟨c, -, rfl⟩ := SubQuery.mem_expressions_items.mp ⟨i, hi, he⟩
      exact passing _
  | concatenated =>
    obtain ⟨i, hi, he⟩ := QuerySpecification.mem_expressions_plain.mp hx
    obtain ⟨name, -, rfl⟩ := List.mem_map.mp hi
    rw [← Option.some.inj he]
    exact passing _

/-- Everything nested in an assembled query is nested in the relations it reads from. -/
theorem mem_walk_iff (hw : w.IgnoresExpressions) (assembled : Assembled d tables query) :
    y ∈ query.walk w ↔ y ∈ w.block query ∨ ∃ r ∈ query.sources, y ∈ r.walk w := by
  rw [QuerySpecification.walk_eq, List.mem_append, List.mem_append, List.mem_flatMap,
    List.mem_flatMap]
  refine or_congr_right (or_iff_left ?_)
  rintro ⟨x, hx, hy⟩
  exact assembled.not_mem_walk hw hx hy

/-- Nothing is found in the condition of a join of assembled queries. -/
theorem not_mem_walk_holds (hw : w.IgnoresExpressions) {left right : QuerySpecification} {e : Expr}
    (hl : Assembled d tables left) (hr : Assembled d tables right)
    (made : e.toSql (.pair d left right) = .ok x) : y ∉ x.walk w := by
  intro hy
  rcases (Expr.finds_of_mem_walk hw.toIgnoresCalls made hy).pair with ⟨z, hz, hyz⟩ | ⟨z, hz, hyz⟩
  · exact hl.not_mem_walk hw hz hyz
  · exact hr.not_mem_walk hw hz hyz

end Assembled

/-! ### Nested blocks -/

namespace Sql.SubQuery

/-- The blocks nested in a sub-query are those of its query. -/
theorem blocks_relation (sub : SubQuery) : sub.relation.walk .ofBlocks = sub.query.blocks := by
  rw [walk_relation]
  rfl

/-- The blocks of all columns of a sub-query are the selecting block and those of the query. -/
theorem mem_blocks_all {sub : SubQuery} {name : String} (inner : Assembled d tables query)
    (made : query.named d name = .ok sub) {b : QuerySpecification} :
    b ∈ sub.all.blocks ↔ b = sub.all ∨ b ∈ query.blocks := by
  have hq : sub.query = query := by rw [(QuerySpecification.named_eq_ok.mp made).2]
  rw [← hq, ← blocks_relation, QuerySpecification.blocks,
    (inner.all made).mem_walk_iff Walk.ignoresExpressions_ofBlocks]
  simp [Walk.ofBlocks, SubQuery.all, QuerySpecification.plain]

end Sql.SubQuery

namespace Assembled

/-- The blocks of a block that reads from the same relations as an assembled one. -/
theorem mem_blocks_derived {result : QuerySpecification} (inner : Assembled d tables query)
    (sources : result.sources = query.sources)
    (derived : ∀ x ∈ result.expressions, Derived d query x) {b : QuerySpecification}
    (hb : b ∈ result.blocks) : b = result ∨ b ∈ query.blocks := by
  have assembled := Assembled.derived inner sources derived
  rw [QuerySpecification.blocks, assembled.mem_walk_iff Walk.ignoresExpressions_ofBlocks,
    sources] at hb
  refine hb.imp List.mem_singleton.mp fun h ↦ ?_
  exact (inner.mem_walk_iff Walk.ignoresExpressions_ofBlocks).mpr (.inr h)

variable {lefts rights : QuerySpecification} {left right : SubQuery}

/-- The blocks of a join are its own one and those of both of its queries. -/
theorem mem_blocks_paired {kind : JoinKind} {e : Expr} {holds : Expression}
    (hl : Assembled d tables lefts) (hr : Assembled d tables rights)
    (left_named : lefts.named d "left" = .ok left)
    (right_named : rights.named d "right" = .ok right)
    (made : e.toSql (.pair d left.all right.all) = .ok holds) {b : QuerySpecification} :
    b ∈ (QueryStep.paired kind left right holds).blocks ↔
      b = QueryStep.paired kind left right holds ∨ b ∈ lefts.blocks ∨ b ∈ rights.blocks := by
  have assembled : Assembled d tables (QueryStep.paired kind left right holds) :=
    .paired hl hr left_named right_named made
  have hlq : left.query = lefts := by rw [(QuerySpecification.named_eq_ok.mp left_named).2]
  have hrq : right.query = rights := by rw [(QuerySpecification.named_eq_ok.mp right_named).2]
  have hn : b ∉ holds.walk .ofBlocks := not_mem_walk_holds Walk.ignoresExpressions_ofBlocks
    (hl.all left_named) (hr.all right_named) made
  rw [QuerySpecification.blocks, assembled.mem_walk_iff Walk.ignoresExpressions_ofBlocks]
  simp [QueryStep.paired, QuerySpecification.plain, Relation.walk, Sql.JoinCriteria.optionWalk,
    Sql.JoinCriteria.walk, Sql.SubQuery.blocks_relation, hlq, hrq, hn]

/-- The blocks of two queries one after the other are their own one and those of both queries. -/
theorem mem_blocks_concatenated (hl : Assembled d tables lefts) (hr : Assembled d tables rights)
    (left_named : lefts.named d "left" = .ok left)
    (right_named : rights.named d "right" = .ok right) (columns : left.columns = right.columns)
    {b : QuerySpecification} :
    b ∈ (QueryStep.concatenated d left right).blocks ↔
      b = QueryStep.concatenated d left right ∨ (b = left.all ∨ b ∈ lefts.blocks) ∨
        b = right.all ∨ b ∈ rights.blocks := by
  have assembled := Assembled.concatenated hl hr left_named right_named columns
  rw [← Sql.SubQuery.mem_blocks_all hl left_named, ← Sql.SubQuery.mem_blocks_all hr right_named,
    QuerySpecification.blocks, assembled.mem_walk_iff Walk.ignoresExpressions_ofBlocks]
  simp [QueryStep.concatenated, QuerySpecification.plain, Relation.walk, Sql.Query.walk_plain,
    QuerySpecification.blocks]

/-- Every block nested in an assembled query is assembled. -/
theorem nested (assembled : Assembled d tables query) {b : QuerySpecification}
    (hb : b ∈ query.blocks) : Assembled d tables b := by
  induction assembled with
  | @table parts names known =>
    have table := Assembled.table (d := d) known
    rw [QuerySpecification.blocks, table.mem_walk_iff Walk.ignoresExpressions_ofBlocks] at hb
    rcases hb with hb | ⟨r, hr, hb⟩
    · rwa [List.mem_singleton.mp hb]
    · rw [List.mem_singleton.mp hr] at hb
      cases hb
  | @wrapped query sub name columns inner made known ih =>
    have wrapped := Assembled.wrapped inner made known
    rw [QuerySpecification.blocks, wrapped.mem_walk_iff Walk.ignoresExpressions_ofBlocks] at hb
    rcases hb with hb | ⟨r, hr, hb⟩
    · rwa [List.mem_singleton.mp hb]
    · rw [List.mem_singleton.mp hr, Sql.SubQuery.blocks_relation,
        (QuerySpecification.named_eq_ok.mp made).2] at hb
      exact ih hb
  | derived inner sources derived ih =>
    rcases inner.mem_blocks_derived sources derived hb with rfl | hb
    · exact .derived inner sources derived
    · exact ih hb
  | paired hl hr left_named right_named made ihl ihr =>
    rcases (mem_blocks_paired hl hr left_named right_named made).mp hb with rfl | hb | hb
    · exact .paired hl hr left_named right_named made
    · exact ihl hb
    · exact ihr hb
  | concatenated hl hr left_named right_named columns ihl ihr =>
    rcases (mem_blocks_concatenated hl hr left_named right_named columns).mp hb with
      rfl | (rfl | hb) | rfl | hb
    · exact .concatenated hl hr left_named right_named columns
    · exact hl.all left_named
    · exact ihl hb
    · exact hr.all right_named
    · exact ihr hb

end Assembled

end FrameQuery
