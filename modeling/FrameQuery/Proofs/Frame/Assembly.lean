import FrameQuery.Proofs.Expr.Reads
import FrameQuery.Proofs.Frame.SelectList

/-!
# How queries are assembled

Every query of a frame is assembled from five kinds of blocks: all rows of a table, a wrapped query,
the pairs of a join, two queries one after the other, and a block that reads from the same relations
as an assembled one and whose expressions are derived from those of that one. What holds of
assembled queries holds of the queries of all frames, at every depth, because the blocks nested in
an assembled query are assembled.
-/

namespace FrameQuery

open Sql (Dialect QuerySpecification SelectItem SubQuery Expression Relation Walk)

namespace Frame

/-- The tables that a frame reads, with the names of their columns. -/
def tables : Frame → List (List String × List String)
  | table parts columns => [(parts, Column.names columns)]
  | filtered base _ | selected base _ | distinct base _ | extended base _
  | windowExtended base _ _ | projected base _ | renamed base _ | grouped base _ _
  | sorted base _ | sliced base _ _ | limited base _ | dropped base _ | served base _ =>
    base.tables
  | joined base other _ _ | asOfJoined base other _ _ | concatenated base other =>
    base.tables ++ other.tables

end Frame

/-- The expressions that a step can make of those of a query block: its own, what closures compute
from what it selects, such values over a window, a further condition, and constant bounds. -/
inductive Derived (d : Dialect) (query : QuerySpecification) : Expression → Prop
  | own {x : Expression} : x ∈ query.expressions → Derived d query x
  | computed {e : Expr} {x : Expression} : e.toSql (.single d query) = .ok x → Derived d query x
  | windowed {e : Expr} {window : WindowSpec} {x : Expression} {result : Sql.Window} :
    e.toSql (.single d query) = .ok x → window.toSql (.single d query) = .ok result →
      Derived d query (.window x result)
  | both {e : Expr} {earlier x : Expression} : query.filter = some earlier →
    e.toSql (.single d query) = .ok x → Derived d query (.logical .and earlier x)
  | integer (value : Int64) : Derived d query (.integer value)

/-- The queries that frames over given tables are written as. -/
inductive Assembled (d : Dialect) (tables : List (List String × List String)) :
    QuerySpecification → Prop
  | table {parts names : List String} : (parts, names) ∈ tables →
    Assembled d tables (QueryStep.table d parts names)
  | wrapped {query : QuerySpecification} {sub : SubQuery} {name : String} {columns : List String} :
    Assembled d tables query → query.named d name = .ok sub → columns ⊆ sub.columns →
      Assembled d tables (.plain (sub.items columns) [sub.relation])
  | derived {query result : QuerySpecification} : Assembled d tables query →
    result.sources = query.sources → (∀ x ∈ result.expressions, Derived d query x) →
      Assembled d tables result
  | paired {lefts rights : QuerySpecification} {left right : SubQuery} {kind : JoinKind} {e : Expr}
      {holds : Expression} : Assembled d tables lefts → Assembled d tables rights →
    lefts.named d "left" = .ok left → rights.named d "right" = .ok right →
      e.toSql (.pair d left.all right.all) = .ok holds →
        Assembled d tables (QueryStep.paired kind left right holds)
  | concatenated {lefts rights : QuerySpecification} {left right : SubQuery} :
    Assembled d tables lefts → Assembled d tables rights → lefts.named d "left" = .ok left →
      rights.named d "right" = .ok right → left.columns = right.columns →
        Assembled d tables (QueryStep.concatenated d left right)

variable {d : Dialect} {tables : List (List String × List String)}
  {query result : QuerySpecification}

/-! ### The expressions of a block -/

namespace Sql.QuerySpecification

/-- What a block selects under a label is one of its expressions. -/
theorem expressions_of_findColumn? {query : QuerySpecification} {label : String} {x : Expression}
    (h : query.findColumn? label = some x) : x ∈ query.expressions :=
  mem_expressions.mpr (.inl ⟨_, mem_items_of_findColumn? h, rfl⟩)

end Sql.QuerySpecification

/-- What a column of a query is, is one of the outputs of the query. -/
theorem Scope.outputs_of_resolve {row : RowVar} {column : String} {x : Expression}
    (h : (single d query).resolve row column = .ok x) : x ∈ query.outputs :=
  Sql.QuerySpecification.mem_outputs.mpr
    (.inl ⟨_, QuerySpecification.mem_items_of_findColumn? (resolve_single.mp h).2, rfl⟩)

/-- What a column of a query is, is one of the expressions of the query. -/
theorem Scope.expressions_of_resolve {row : RowVar} {column : String} {x : Expression}
    (h : (single d query).resolve row column = .ok x) : x ∈ query.expressions :=
  QuerySpecification.expressions_of_findColumn? (resolve_single.mp h).2

namespace Assembled

/-- All columns of a wrapped query make an assembled query. -/
theorem all {sub : SubQuery} {name : String} (inner : Assembled d tables query)
    (made : query.named d name = .ok sub) : Assembled d tables sub.all :=
  .wrapped inner made (List.Subset.refl _)

/-- A query that is wrapped if need be is assembled. -/
theorem wrapIf {needed : Bool} (inner : Assembled d tables query)
    (made : QueryStep.wrapIf d needed query = .ok result) : Assembled d tables result := by
  rcases QueryStep.wrapIf_eq_ok.mp made with ⟨-, sub, hs, rfl⟩ | ⟨-, rfl⟩
  · exact inner.all hs
  · exact inner

end Assembled

/-! ### What each step assembles -/

namespace QueryStep

open Sql.QuerySpecification (mem_expressions)

/-- A select list of derived expressions in place of the one of an assembled query. -/
private theorem assembled_withItems {items : List SelectItem} (inner : Assembled d tables query)
    (derived : ∀ i ∈ items, ∀ x, i.expression? = some x → Derived d query x) :
    Assembled d tables (query.withItems items) := by
  refine .derived inner rfl fun x hx ↦ ?_
  rcases mem_expressions.mp hx with ⟨i, hi, he⟩ | hx
  · exact derived i hi x he
  · exact .own (mem_expressions.mpr (.inr hx))

private theorem derived_of_item {i : SelectItem} (hi : i ∈ query.items) {x : Expression}
    (he : i.expression? = some x) : Derived d query x :=
  .own (mem_expressions.mpr (.inl ⟨i, hi, he⟩))

/-- A filter assembles a query. -/
theorem filtered_assembled {condition : Expr} (inner : Assembled d tables query)
    (made : filtered d condition query = .ok result) : Assembled d tables result := by
  rcases filtered_eq_ok.mp made with ⟨-, rfl⟩ | ⟨-, wrapped, expression, hw, he, rfl⟩
  · exact inner
  · refine .derived (inner.wrapIf hw) rfl fun x hx ↦ ?_
    rcases mem_expressions.mp hx with hx | hx | hx | hx
    · exact .own (mem_expressions.mpr (.inl hx))
    · exact .own (mem_expressions.mpr (.inr (.inl hx)))
    · rw [← Option.some.inj hx]
      cases hf : wrapped.filter with
      | none => exact .computed he
      | some earlier => exact .both hf he
    · exact .own (mem_expressions.mpr (.inr (.inr (.inr hx))))

/-- A selection assembles a query. -/
theorem selected_assembled {names : List String} (inner : Assembled d tables query)
    (ne : names ≠ []) (made : selected d names query = .ok result) :
    Assembled d tables result := by
  rcases selected_eq_ok.mp made with ⟨-, rfl⟩ | ⟨-, -, hw⟩ | ⟨-, -, hr⟩
  · exact inner
  · obtain ⟨sub, hs, rfl⟩ := (QuerySpecification.wrapped_some_eq_ok (by simpa using ne)).mp hw
    refine .wrapped inner hs fun label hl ↦ ?_
    simpa using (List.mem_filter.mp hl).2
  · obtain ⟨kept, ht, rfl⟩ := retain_eq_ok.mp hr
    exact assembled_withItems inner fun i hi x he ↦
      derived_of_item ((takeColumns_eq_ok ht).2 hi) he

/-- Distinct rows assemble a query. -/
theorem distinct_assembled {names : Option (List String)} (inner : Assembled d tables query)
    (ne : names ≠ some []) (made : distinct d names query = .ok result) :
    Assembled d tables result := by
  obtain ⟨restricted, wrapped, hr, hw, rfl⟩ := distinct_eq_ok.mp made
  have hi : Assembled d tables restricted := by
    cases names with
    | none => rwa [hr]
    | some names => exact selected_assembled inner (by simpa using ne) hr
  exact .derived (hi.wrapIf hw) rfl fun x hx ↦ .own hx

private theorem derived_of_newItem {new : ComputedColumn} {i : SelectItem}
    (made : newItem (.single d query) new = .ok i) {x : Expression}
    (he : i.expression? = some x) : Derived d query x := by
  rcases newItem_eq_ok.mp made with ⟨-, value, hv, rfl⟩ | ⟨_, -, value, hv, rfl⟩
  · rw [← Option.some.inj he]
    exact .computed hv
  · rw [← Option.some.inj he]
    have whole : WindowSpec.toSql (.single d query) {} = .ok .whole := rfl
    exact .windowed hv whole

private theorem derived_of_windowItem {window : WindowSpec} {clause : Sql.Window}
    (hw : window.toSql (.single d query) = .ok clause) {new : ComputedColumn} {i : SelectItem}
    (made : windowItem (.single d query) clause new = .ok i) {x : Expression}
    (he : i.expression? = some x) : Derived d query x := by
  obtain ⟨value, hv, rfl⟩ := windowItem_eq_ok.mp made
  rw [← Option.some.inj he]
  exact .windowed hv hw

private theorem derived_of_valueItem {new : ComputedColumn} {i : SelectItem}
    (made : valueItem (.single d query) new = .ok i) {x : Expression}
    (he : i.expression? = some x) : Derived d query x := by
  obtain ⟨value, hv, rfl⟩ := valueItem_eq_ok.mp made
  rw [← Option.some.inj he]
  exact .computed hv

/-- A resolved column is computed from the query. -/
private theorem derived_of_resolve {column : String} {x : Expression}
    (made : (Scope.single d query).resolve .right column = .ok x) : Derived d query x :=
  .own (Scope.expressions_of_resolve made)

/-- An extension assembles a query. -/
theorem extended_assembled {new : List ComputedColumn} (inner : Assembled d tables query)
    (made : extended d new query = .ok result) : Assembled d tables result := by
  obtain ⟨wrapped, items, hw, hi, rfl⟩ := extended_eq_ok.mp made
  refine assembled_withItems (inner.wrapIf hw) fun i hm x he ↦ ?_
  rcases List.mem_append.mp hm with hm | hm
  · exact derived_of_item hm he
  · obtain ⟨n, -, hn⟩ := Outcome.exists_of_mem_right hi hm
    exact derived_of_newItem hn he

/-- A window extension assembles a query. -/
theorem windowExtended_assembled {window : WindowSpec} {new : List ComputedColumn}
    (inner : Assembled d tables query) (made : windowExtended d window new query = .ok result) :
    Assembled d tables result := by
  obtain ⟨sub, clause, items, hs, ho, hi, rfl⟩ := windowExtended_eq_ok.mp made
  refine assembled_withItems (inner.all hs) fun i hm x he ↦ ?_
  rcases List.mem_append.mp hm with hm | hm
  · exact derived_of_item hm he
  · obtain ⟨n, -, hn⟩ := Outcome.exists_of_mem_right hi hm
    exact derived_of_windowItem ho hn he

/-- A projection assembles a query. -/
theorem projected_assembled {new : List ComputedColumn} (inner : Assembled d tables query)
    (made : projected d new query = .ok result) : Assembled d tables result := by
  obtain ⟨sub, items, hs, hi, rfl⟩ := projected_eq_ok.mp made
  refine assembled_withItems (inner.all hs) fun i hm x he ↦ ?_
  obtain ⟨n, -, hn⟩ := Outcome.exists_of_mem_right hi hm
  exact derived_of_valueItem hn he

/-- A renaming assembles a query. -/
theorem renamed_assembled {pairs : List (String × String)} (inner : Assembled d tables query)
    (made : renamed d pairs query = .ok result) : Assembled d tables result := by
  obtain ⟨items, hi, rfl⟩ := renamed_eq_ok.mp made
  refine assembled_withItems inner fun i hm x he ↦ ?_
  obtain ⟨earlier, hn, hr⟩ := Outcome.exists_of_mem_right hi hm
  cases earlier with
  | allColumns relation => exact absurd hr Outcome.fail_ne_ok
  | column label expression =>
    rw [← Except.ok.inj hr] at he
    exact derived_of_item hn he

/-- A grouping assembles a query. -/
theorem grouped_assembled {grouping : List String} {aggregates : List ComputedColumn}
    (inner : Assembled d tables query) (made : grouped d grouping aggregates query = .ok result) :
    Assembled d tables result := by
  obtain ⟨wrapped, items, keys, kept, hw, hi, hk, ht, rfl⟩ := grouped_eq_ok.mp made
  refine .derived (inner.wrapIf hw) rfl fun x hx ↦ ?_
  rcases mem_expressions.mp hx with ⟨i, hm, he⟩ | hx | hx | hx | hx
  · rcases List.mem_append.mp hm with hm | hm
    · exact derived_of_item ((takeColumns_eq_ok ht).2 hm) he
    · obtain ⟨n, -, hn⟩ := Outcome.exists_of_mem_right hi hm
      exact derived_of_valueItem hn he
  · exact .own (mem_expressions.mpr (.inr (.inl hx)))
  · exact .own (mem_expressions.mpr (.inr (.inr (.inl hx))))
  · obtain ⟨column, -, hc⟩ :=
      Outcome.exists_of_mem_right (Scope.resolveAll_eq_ok.mp hk) hx
    exact derived_of_resolve hc
  · exact .own (mem_expressions.mpr (.inr (.inr (.inr (.inr hx)))))

/-- A sorting assembles a query. -/
theorem sorted_assembled {keys : List SortKey} (inner : Assembled d tables query)
    (made : sorted d keys query = .ok result) : Assembled d tables result := by
  obtain ⟨wrapped, items, hw, hk, rfl⟩ := sorted_eq_ok.mp made
  refine .derived (inner.wrapIf hw) rfl fun x hx ↦ ?_
  rcases mem_expressions.mp hx with hx | ⟨i, hm, rfl⟩ | hx
  · exact .own (mem_expressions.mpr (.inl hx))
  · obtain ⟨key, -, hi⟩ := Outcome.exists_of_mem_right hk hm
    obtain ⟨value, hv, rfl⟩ := SortKey.toSql_eq_ok.mp hi
    exact derived_of_resolve hv
  · exact .own (mem_expressions.mpr (.inr (.inr hx)))

/-- A range of rows assembles a query. -/
private theorem assembled_range {limit offset : Option Expression}
    (inner : Assembled d tables query) (hl : ∀ x, limit = some x → Derived d query x)
    (ho : ∀ x, offset = some x → Derived d query x) :
    Assembled d tables { query with limit := limit, offset := offset } := by
  refine .derived inner rfl fun x hx ↦ ?_
  rcases mem_expressions.mp hx with hx | hx | hx | hx | hx | hx | hx
  · exact .own (mem_expressions.mpr (.inl hx))
  · exact .own (mem_expressions.mpr (.inr (.inl hx)))
  · exact .own (mem_expressions.mpr (.inr (.inr (.inl hx))))
  · exact .own (mem_expressions.mpr (.inr (.inr (.inr (.inl hx)))))
  · exact .own (mem_expressions.mpr (.inr (.inr (.inr (.inr (.inl hx))))))
  · exact hl x hx
  · exact ho x hx

private theorem derived_of_limit {x : Expression} (h : query.limit = some x) :
    Derived d query x :=
  .own (mem_expressions.mpr (.inr (.inr (.inr (.inr (.inr (.inl h)))))))

private theorem derived_of_offset {x : Expression} (h : query.offset = some x) :
    Derived d query x :=
  .own (mem_expressions.mpr (.inr (.inr (.inr (.inr (.inr (.inr h)))))))

private theorem derived_of_integer {value : Int64} {x : Expression}
    (h : some (Expression.integer value) = some x) : Derived d query x :=
  Option.some.inj h ▸ .integer value

/-- A slice assembles a query. -/
theorem sliced_assembled {start stop : Int64} (inner : Assembled d tables query)
    (made : sliced d start stop query = .ok result) : Assembled d tables result := by
  obtain ⟨wrapped, hw, rfl⟩ := sliced_eq_ok.mp made
  exact assembled_range (inner.wrapIf hw) (fun _ ↦ derived_of_integer) fun _ ↦ derived_of_integer

/-- A limit assembles a query. -/
theorem limited_assembled {count : Int64} (inner : Assembled d tables query)
    (made : limited d count query = .ok result) : Assembled d tables result := by
  obtain ⟨wrapped, hw, rfl⟩ := limited_eq_ok.mp made
  exact assembled_range (inner.wrapIf hw) (fun _ ↦ derived_of_integer) fun _ ↦ derived_of_offset

/-- Dropping rows assembles a query. -/
theorem dropped_assembled {count : Int64} (inner : Assembled d tables query)
    (made : dropped d count query = .ok result) : Assembled d tables result := by
  obtain ⟨wrapped, hw, rfl⟩ := dropped_eq_ok.mp made
  exact assembled_range (inner.wrapIf hw) (fun _ ↦ derived_of_limit) fun _ ↦ derived_of_integer

/-- A join assembles a query. -/
theorem joined_assembled {condition : Expr} {kind : JoinKind} {lefts rights : QuerySpecification}
    {left right : SubQuery} (hl : Assembled d tables lefts) (hr : Assembled d tables rights)
    (left_named : lefts.named d "left" = .ok left)
    (right_named : rights.named d "right" = .ok right)
    (made : joined d condition kind left right = .ok result) : Assembled d tables result := by
  obtain ⟨holds, sub, he, hs, rfl⟩ := joined_eq_ok.mp made
  exact (Assembled.paired hl hr left_named right_named he).all hs

end QueryStep

/-- Two checked frames with the same columns make sub-queries with the same columns. -/
theorem Frame.Checked.columns_agree {base other : Frame} {lefts rights : QuerySpecification}
    {left right : SubQuery} (left_checked : Checked base) (right_checked : Checked other)
    (agree : base.columns.map (fun c ↦ (c.name, c.type)) =
      other.columns.map fun c ↦ (c.name, c.type))
    (hl : base.toSql d = .ok lefts) (hr : other.toSql d = .ok rights)
    (left_named : lefts.named d "left" = .ok left)
    (right_named : rights.named d "right" = .ok right) : left.columns = right.columns := by
  rw [(left_checked.selects hl).named_columns left_named,
    (right_checked.selects hr).named_columns right_named, columnNames_eq_of_agree agree]

/-- The query of every checked frame is assembled from the tables that the frame reads. -/
theorem Frame.Checked.assembled {frame : Frame} (checked : Checked frame)
    (known : frame.tables ⊆ tables) (made : frame.toSql d = .ok query) :
    Assembled d tables query := by
  induction checked generalizing query with
  | table =>
    rw [← Except.ok.inj made]
    exact .table (known List.mem_cons_self)
  | filtered _ _ ih =>
    obtain ⟨inner, hi, hs⟩ := Outcome.bind_eq_ok.mp made
    exact QueryStep.filtered_assembled (ih known hi) hs
  | selected _ ne _ _ ih =>
    obtain ⟨inner, hi, hs⟩ := Outcome.bind_eq_ok.mp made
    exact QueryStep.selected_assembled (ih known hi) ne hs
  | distinct _ ih =>
    obtain ⟨inner, hi, hs⟩ := Outcome.bind_eq_ok.mp made
    exact QueryStep.distinct_assembled (ih known hi) (by simp) hs
  | distinctBy _ ne _ _ ih =>
    obtain ⟨inner, hi, hs⟩ := Outcome.bind_eq_ok.mp made
    exact QueryStep.distinct_assembled (ih known hi) (by simpa using ne) hs
  | extended _ _ _ ih =>
    obtain ⟨inner, hi, hs⟩ := Outcome.bind_eq_ok.mp made
    exact QueryStep.extended_assembled (ih known hi) hs
  | windowExtended _ _ _ _ ih =>
    obtain ⟨inner, hi, hs⟩ := Outcome.bind_eq_ok.mp made
    exact QueryStep.windowExtended_assembled (ih known hi) hs
  | projected _ _ _ _ ih =>
    obtain ⟨inner, hi, hs⟩ := Outcome.bind_eq_ok.mp made
    exact QueryStep.projected_assembled (ih known hi) hs
  | renamed _ _ _ _ _ ih =>
    obtain ⟨inner, hi, hs⟩ := Outcome.bind_eq_ok.mp made
    exact QueryStep.renamed_assembled (ih known hi) hs
  | grouped _ _ _ _ _ ih =>
    obtain ⟨inner, hi, hs⟩ := Outcome.bind_eq_ok.mp made
    exact QueryStep.grouped_assembled (ih known hi) hs
  | sorted _ _ _ ih =>
    obtain ⟨inner, hi, hs⟩ := Outcome.bind_eq_ok.mp made
    exact QueryStep.sorted_assembled (ih known hi) hs
  | sliced _ _ _ ih =>
    obtain ⟨inner, hi, hs⟩ := Outcome.bind_eq_ok.mp made
    exact QueryStep.sliced_assembled (ih known hi) hs
  | limited _ _ ih =>
    obtain ⟨inner, hi, hs⟩ := Outcome.bind_eq_ok.mp made
    exact QueryStep.limited_assembled (ih known hi) hs
  | dropped _ _ ih =>
    obtain ⟨inner, hi, hs⟩ := Outcome.bind_eq_ok.mp made
    exact QueryStep.dropped_assembled (ih known hi) hs
  | joined _ _ _ _ ihl ihr =>
    obtain ⟨lefts, left, rights, right, hl, hln, hr, hrn, made⟩ :=
      toSql_pair_eq_ok.mp made
    obtain ⟨left_known, right_known⟩ := List.append_subset.mp known
    exact QueryStep.joined_assembled (ihl left_known hl) (ihr right_known hr) hln hrn made
  | asOfJoined => exact absurd made Outcome.fail_ne_ok
  | @concatenated base other left_checked right_checked agree ihl ihr =>
    obtain ⟨lefts, left, rights, right, hl, hln, hr, hrn, made⟩ :=
      toSql_pair_eq_ok.mp made
    obtain ⟨left_known, right_known⟩ := List.append_subset.mp known
    have columns := left_checked.columns_agree right_checked agree hl hr hln hrn
    rw [← Outcome.pure_eq_ok.mp made]
    exact .concatenated (ihl left_known hl) (ihr right_known hr) hln hrn columns
  | served _ ih => exact ih known made

end FrameQuery
