import FrameQuery.Proofs.Frame.Nesting

/-!
# Stray window calls

A window call may stand in a select item or in a sort key, but in no argument of an aggregate and in
no other window call there. A column that is or contains a window call is read by putting the call
in place of the column, so that an expression is written without window calls exactly if the columns
it reads hold none. Columns of wrapped queries never do.
-/

namespace FrameQuery

open Sql (Dialect QuerySpecification SelectItem SubQuery Expression Relation Walk)

variable {d : Dialect} {tables : List (List String × List String)}
  {query inner result : QuerySpecification} {sub : SubQuery} {x : Expression}

/-! ### Stray window calls -/

namespace Sql

/-- The window calls in the condition of a join. -/
def Relation.conditionWindows : Relation → List (Expression × Window)
  | .join _ _ _ (some (.condition holds)) => holds.windows
  | _ => []

/-- The window calls of a block that stand neither in its select items nor in its sort keys, and
those that stand there in an argument of an aggregate or in another window call. -/
def QuerySpecification.ownStrays (query : QuerySpecification) : List (Expression × Window) :=
  query.clauses.flatMap (·.windows) ++ query.outputs.flatMap (·.buriedWindows)

/-- A walk that gathers stray window calls. -/
def Walk.ofStrays : Walk (Expression × Window) where
  relation := Relation.conditionWindows
  block := QuerySpecification.ownStrays

/-- The window calls of a query, at every depth, that stand in a condition, a grouping key or a
range, in an argument of an aggregate, or in another window call. -/
def QuerySpecification.strayWindows (query : QuerySpecification) : List (Expression × Window) :=
  query.walk .ofStrays

/-- A block has no stray window calls of its own exactly when its clauses hold no window calls and
its outputs no buried ones. -/
theorem QuerySpecification.ownStrays_eq_nil {query : QuerySpecification} :
    query.ownStrays = [] ↔
      (∀ x ∈ query.clauses, x.windows = []) ∧ ∀ x ∈ query.outputs, x.buriedWindows = [] := by
  rw [ownStrays, List.append_eq_nil_iff, List.flatMap_eq_nil_iff, List.flatMap_eq_nil_iff]

/-- Stray window calls are gathered at blocks and at joins. -/
theorem Walk.ignoresExpressions_ofStrays : Walk.ofStrays.IgnoresExpressions :=
  ⟨⟨fun _ _ ↦ rfl, fun _ ↦ rfl⟩, fun _ ↦ rfl⟩

/-- A column of a relation is no window call. -/
@[simp] theorem Expression.windows_column (parts : List String) :
    (Expression.column parts).windows = [] := by
  rw [windows, Expression.column, walk, Walk.ofWindows]

/-- A column of a relation contains no window call. -/
@[simp] theorem Expression.buriedWindows_column (parts : List String) :
    (Expression.column parts).buriedWindows = [] := by
  rw [buriedWindows, Expression.column, walk, Walk.ofBuriedWindows]

/-- The stray window calls nested in a sub-query are those of its query. -/
theorem SubQuery.strayWindows_relation (sub : SubQuery) :
    sub.relation.walk .ofStrays = sub.query.strayWindows := by
  rw [walk_relation]
  rfl

end Sql

namespace Assembled

/-- An assembled query has no stray window calls exactly when neither its block nor what it reads
from has any. -/
theorem strayWindows_eq_nil (assembled : Assembled d tables query) :
    query.strayWindows = [] ↔
      query.ownStrays = [] ∧ ∀ r ∈ query.sources, r.walk .ofStrays = [] := by
  simp only [List.eq_nil_iff_forall_not_mem, QuerySpecification.strayWindows,
    assembled.mem_walk_iff Walk.ignoresExpressions_ofStrays, not_or, not_exists, not_and,
    forall_and]
  exact and_congr_right' ⟨fun h r hr y ↦ h y r hr, fun h y r hr ↦ h r hr y⟩

end Assembled

/-- An assembled query without stray window calls. -/
structure Clean (d : Dialect) (tables : List (List String × List String))
    (query : QuerySpecification) : Prop where
  assembled : Assembled d tables query
  none : query.strayWindows = []

namespace Clean

/-- The block of a query without stray window calls has none of its own. -/
theorem own (clean : Clean d tables query) : query.ownStrays = [] :=
  (clean.assembled.strayWindows_eq_nil.mp clean.none).1

/-- The clauses of a query without stray window calls hold none. -/
theorem clauses (clean : Clean d tables query) : ∀ x ∈ query.clauses, x.windows = [] :=
  (QuerySpecification.ownStrays_eq_nil.mp clean.own).1

/-- The outputs of a query without stray window calls hold no buried ones. -/
theorem outputs (clean : Clean d tables query) : ∀ x ∈ query.outputs, x.buriedWindows = [] :=
  (QuerySpecification.ownStrays_eq_nil.mp clean.own).2

/-- A block that reads from the relations of a query without stray window calls has none exactly
when it has none of its own. -/
theorem strayWindows_iff (clean : Clean d tables query) (assembled : Assembled d tables result)
    (sources : result.sources = query.sources) :
    result.strayWindows = [] ↔ result.ownStrays = [] := by
  rw [assembled.strayWindows_eq_nil, sources]
  exact and_iff_left (clean.assembled.strayWindows_eq_nil.mp clean.none).2

end Clean

/-- Columns selected under their own names hold no window calls. -/
theorem ownStrays_plain {sources : List Relation} {items : List SelectItem}
    (columns : ∀ i ∈ items, ∃ label parts, i = .column label (.column parts)) :
    (QuerySpecification.plain items sources).ownStrays = [] := by
  refine QuerySpecification.ownStrays_eq_nil.mpr ⟨fun x hx ↦ (nomatch hx), fun x hx ↦ ?_⟩
  rcases QuerySpecification.mem_outputs.mp hx with ⟨i, hi, he⟩ | ⟨k, hk, -⟩
  · obtain ⟨label, parts, rfl⟩ := columns i hi
    rw [← Option.some.inj he, Expression.buriedWindows_column]
  · cases hk

/-! ### Columns without window calls -/

namespace Sql.QuerySpecification

/-- What a query selects as the columns that are read holds no window calls. -/
def Windowless (d : Dialect) (query : QuerySpecification) (reads : List (RowVar × String)) : Prop :=
  ∀ read ∈ reads, ∀ x, (Scope.single d query).resolve read.1 read.2 = .ok x → x.windows = []

/-- No window call is found in columns exactly if they hold none. -/
theorem windowless_iff {reads : List (RowVar × String)} :
    query.Windowless d reads ↔ ∀ y, ¬ Expr.Finds (.single d query) .ofWindows y reads := by
  simp only [Windowless, Expr.Finds, not_exists, not_and, List.eq_nil_iff_forall_not_mem,
    Expression.windows]
  exact ⟨fun h y read hr x hx ↦ h read hr x hx y, fun h read hr x hx y ↦ h y read hr x hx⟩

end Sql.QuerySpecification

open Sql.QuerySpecification (Windowless windowless_iff mem_outputs mem_clauses ownStrays_eq_nil)

/-- Columns of a sub-query hold no window calls. -/
theorem Sql.SubQuery.windowless_all {reads : List (RowVar × String)} :
    sub.all.Windowless d reads := by
  intro read _ x hx
  obtain ⟨c, -, rfl⟩ := SubQuery.mem_expressions_all.mp (Scope.expressions_of_resolve hx)
  exact Expression.windows_column _

/-- Columns of a query that is wrapped if need be hold no window calls exactly if it was wrapped or
they held none before. -/
theorem windowless_wrapIf {needed : Bool} {reads : List (RowVar × String)}
    (made : QueryStep.wrapIf d needed query = .ok inner) :
    inner.Windowless d reads ↔ needed = true ∨ query.Windowless d reads := by
  rcases QueryStep.wrapIf_eq_ok.mp made with ⟨rfl, sub, -, rfl⟩ | ⟨rfl, rfl⟩
  · exact iff_of_true SubQuery.windowless_all (.inl rfl)
  · simp

namespace Expr

/-- An expression is written without window calls exactly if the columns it reads hold none. -/
theorem windows_eq_nil {e : Expr} (made : e.toSql (.single d query) = .ok x) :
    x.windows = [] ↔ query.Windowless d e.reads := by
  rw [windowless_iff, List.eq_nil_iff_forall_not_mem]
  refine forall_congr' fun y ↦ not_congr ?_
  rw [Expression.windows, mem_walk_toSql (fun _ ↦ rfl) made]
  exact or_iff_left fun ⟨_, _, _, _, h⟩ ↦ (nomatch h)

/-- In the columns of a query without buried window calls none is found. -/
theorem not_finds_buried (outputs : ∀ z ∈ query.outputs, z.buriedWindows = [])
    (reads : List (RowVar × String)) (y : Expression × Sql.Window) :
    ¬ Finds (.single d query) .ofBuriedWindows y reads := by
  rintro ⟨read, -, z, hz, hy⟩
  exact List.eq_nil_iff_forall_not_mem.mp (outputs z (Scope.outputs_of_resolve hz)) y hy

/-- An expression over a query without buried window calls is written without them exactly if the
columns read in its aggregates hold no window calls. -/
theorem buriedWindows_eq_nil {e : Expr} (outputs : ∀ z ∈ query.outputs, z.buriedWindows = [])
    (made : e.toSql (.single d query) = .ok x) :
    x.buriedWindows = [] ↔ query.Windowless d (e.aggregated.flatMap reads) := by
  have reduced : x.buriedWindows = [] ↔ ∀ values ∈ e.aggregated, ∀ value,
      values.toSql (.single d query) = .ok value → value.windows = [] := by
    simp only [List.eq_nil_iff_forall_not_mem, Expression.buriedWindows,
      mem_walk_toSql (w := .ofBuriedWindows) (fun _ ↦ rfl) made, not_finds_buried outputs,
      false_or, FindsReduced, not_exists, not_and]
    exact ⟨fun h values hm value hv y ↦ h y values hm value hv,
      fun h y values hm value hv ↦ h values hm value hv y⟩
  rw [reduced]
  constructor
  · intro h read hr
    obtain ⟨values, hm, hr⟩ := List.mem_flatMap.mp hr
    obtain ⟨-, value, hv⟩ := toSql_of_aggregated hm made
    exact (windows_eq_nil hv).mp (h values hm value hv) read hr
  · intro h values hm value hv
    exact (windows_eq_nil hv).mpr fun read hr ↦ h read (List.mem_flatMap.mpr ⟨values, hm, hr⟩)

end Expr

/-- A window is written without window calls exactly if its columns hold none. -/
theorem WindowSpec.windows_eq_nil {window : WindowSpec} {clause : Sql.Window}
    (made : window.toSql (.single d query) = .ok clause) :
    clause.walk .ofWindows = [] ↔ query.Windowless d (window.columns.map (RowVar.right, ·)) := by
  rw [windowless_iff, List.eq_nil_iff_forall_not_mem]
  exact forall_congr' fun y ↦ not_congr (WindowSpec.mem_walk_toSql made)

/-- A window call over a query without buried window calls has none exactly if the columns hold none
that are read in it. -/
theorem buriedWindows_window_eq_nil {e : Expr} {window : WindowSpec} {clause : Sql.Window}
    (outputs : ∀ z ∈ query.outputs, z.buriedWindows = [])
    (made : e.toSql (.single d query) = .ok x)
    (written : window.toSql (.single d query) = .ok clause) :
    (Expression.window x clause).buriedWindows = [] ↔
      query.Windowless d e.reads ∧ query.Windowless d (window.columns.map (RowVar.right, ·)) := by
  rw [← Expr.windows_eq_nil made, ← WindowSpec.windows_eq_nil written, Expression.buriedWindows,
    Sql.Expression.walk, List.append_eq_nil_iff, List.append_eq_nil_iff]
  change ((x.windows ++ clause.walk .ofWindows = []) ∧ x.buriedWindows = [] ∧
    clause.walk .ofBuriedWindows = []) ↔ _
  rw [List.append_eq_nil_iff]
  refine and_iff_left_of_imp fun h ↦ ⟨?_, ?_⟩
  · refine (Expr.buriedWindows_eq_nil outputs made).mpr fun read hr ↦ ?_
    obtain ⟨values, hm, hr⟩ := List.mem_flatMap.mp hr
    exact (Expr.windows_eq_nil made).mp h.1 read ((Expr.toSql_of_aggregated hm made).1 hr)
  · refine List.eq_nil_iff_forall_not_mem.mpr fun y hy ↦ ?_
    exact Expr.not_finds_buried outputs _ y ((WindowSpec.mem_walk_toSql written).mp hy)

/-! ### Queries without stray window calls -/

namespace Clean

/-- A wrapped query has no stray window calls if the query has none. -/
theorem wrapped {name : String} {columns : List String} (clean : Clean d tables query)
    (made : query.named d name = .ok sub) (known : columns ⊆ sub.columns) :
    Clean d tables (.plain (sub.items columns) [sub.relation]) := by
  have assembled := Assembled.wrapped clean.assembled made known
  refine ⟨assembled, assembled.strayWindows_eq_nil.mpr ⟨?_, ?_⟩⟩
  · refine ownStrays_plain fun i hi ↦ ?_
    obtain ⟨c, -, rfl⟩ := List.mem_map.mp hi
    exact ⟨_, _, rfl⟩
  · refine List.forall_mem_singleton.mpr ?_
    rw [SubQuery.strayWindows_relation, (QuerySpecification.named_eq_ok.mp made).2]
    exact clean.none

/-- All columns of a query without stray window calls. -/
theorem all {name : String} (clean : Clean d tables query)
    (made : query.named d name = .ok sub) : Clean d tables sub.all :=
  clean.wrapped made (List.Subset.refl _)

/-- A query that is wrapped if need be has no stray window calls if the query has none. -/
theorem wrapIf {needed : Bool} (clean : Clean d tables query)
    (made : QueryStep.wrapIf d needed query = .ok inner) : Clean d tables inner := by
  rcases QueryStep.wrapIf_eq_ok.mp made with ⟨-, sub, hs, rfl⟩ | ⟨-, rfl⟩
  · exact clean.all hs
  · exact clean

/-- The entries of a block without stray window calls hold no buried ones. -/
theorem items (clean : Clean d tables query) {i : SelectItem} (hi : i ∈ query.items)
    (he : i.expression? = some x) : x.buriedWindows = [] :=
  clean.outputs x (mem_outputs.mpr (.inl ⟨i, hi, he⟩))

/-- A block without stray window calls whose select list is replaced has none exactly if the new
entries hold no buried window calls. -/
theorem withItems {items : List SelectItem} (clean : Clean d tables query)
    (assembled : Assembled d tables (query.withItems items)) :
    (query.withItems items).strayWindows = [] ↔
      ∀ i ∈ items, ∀ x, i.expression? = some x → x.buriedWindows = [] := by
  rw [clean.strayWindows_iff assembled rfl, ownStrays_eq_nil]
  constructor
  · rintro ⟨-, h⟩ i hi x he
    exact h x (mem_outputs.mpr (.inl ⟨i, hi, he⟩))
  · intro h
    refine ⟨clean.clauses, fun x hx ↦ ?_⟩
    rcases mem_outputs.mp hx with ⟨i, hi, he⟩ | hx
    · exact h i hi x he
    · exact clean.outputs x (mem_outputs.mpr (.inr hx))

/-- A block without stray window calls has none in another range. -/
theorem range {limit offset : Option Expression} (clean : Clean d tables query)
    (assembled : Assembled d tables { query with limit := limit, offset := offset })
    (hl : ∀ x, limit = some x → x.windows = []) (ho : ∀ x, offset = some x → x.windows = []) :
    { query with limit := limit, offset := offset }.strayWindows = [] := by
  rw [clean.strayWindows_iff assembled rfl, ownStrays_eq_nil]
  refine ⟨fun x hx ↦ ?_, clean.outputs⟩
  rcases mem_clauses.mp hx with hx | hx | hx | hx | hx
  · exact clean.clauses x (mem_clauses.mpr (.inl hx))
  · exact clean.clauses x (mem_clauses.mpr (.inr (.inl hx)))
  · exact clean.clauses x (mem_clauses.mpr (.inr (.inr (.inl hx))))
  · exact hl x hx
  · exact ho x hx

end Clean

end FrameQuery
