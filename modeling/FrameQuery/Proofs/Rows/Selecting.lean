import FrameQuery.Proofs.Frame.Success
import FrameQuery.Proofs.Rows.Fields
import FrameQuery.Proofs.Rows.Filtering

/-!
# Rows with fewer columns

A selection keeps entries of the select list, in place or around a sub-query. A block with fewer
entries makes its rows at the same places if it still makes groups, or made none. A block without
grouping keys makes its one group only because it selects an aggregate; if a selection in place
keeps no aggregate, there is a row for each row that the block picks.
-/

namespace FrameQuery

open Sql (Dialect Engine Expression Place QuerySpecification Relation SelectItem SubQuery)

variable {V : Type} [DecidableEq V] {engine : Engine V} {d : Dialect}
  {query result : QuerySpecification} {names retained : List String}

/-! ### What is computed without aggregates -/

namespace Sql.Expression

variable {atom : Expression → Prop} {columns other : List (List String)} {x : Expression}

/-- What does not reduce rows is composed of expressions that do not. -/
theorem Composed.of_reduces_eq_false (h : Composed atom x) (none : x.reduces = false) :
    Composed (fun y ↦ atom y ∧ y.reduces = false) x := by
  induction h with
  | atom h => exact .atom ⟨h, none⟩
  | operator operator _ ih =>
    rw [reduces_operator operator, List.any_eq_false] at none
    exact .operator operator fun y hy ↦ ih y hy (eq_false_of_ne_true (none y hy))

/-- Without grouping keys and aggregates only constants are computed of a group. -/
theorem GroupLevel.rowLevel (h : x.GroupLevel columns []) (none : x.reduces = false) :
    x.RowLevel other := by
  refine (Composed.of_reduces_eq_false h none).bind fun y ⟨level, none⟩ ↦ ?_
  rcases level with key | ⟨aggregate, -⟩
  · cases key
  · rw [reduces_eq, aggregate] at none
    cases none

/-- What is selected of a group without grouping keys may be selected of each row if it holds no
aggregates. -/
theorem OutputLevel.of_reduces_eq_false (h : x.OutputLevel (GroupLevel columns []))
    (none : x.reduces = false) : x.OutputLevel (RowLevel other) := by
  refine (Composed.of_reduces_eq_false h none).bind fun y ⟨level, none⟩ ↦ .atom ?_
  rcases level with level | ⟨nested, w, rfl, called, unnamed, operands, keys⟩
  · exact .inl (level.rowLevel none)
  · rw [reduces_eq, Bool.or_eq_false_iff, List.any_eq_false] at none
    have parts (z : Expression) (hz : z ∈ nested.operands ∨ z ∈ w.operands) : z.reduces = false :=
      eq_false_of_ne_true (none.2 z (List.mem_append.mpr hz))
    exact .inr ⟨nested, w, rfl, called, unnamed,
      fun z hz ↦ (operands z hz).rowLevel (parts z (.inl hz)),
      fun z hz ↦ (keys z hz).rowLevel (parts z (.inr hz))⟩

end Sql.Expression

/-! ### Blocks with fewer entries -/

namespace Sql.QuerySpecification

variable {kept : List SelectItem}

omit [DecidableEq V] in
/-- A block with fewer entries has fewer outputs. -/
private theorem outputs_subset (fewer : kept ⊆ query.items) :
    (query.withItems kept).outputs ⊆ query.outputs := by
  intro x hx
  rcases mem_outputs.mp hx with ⟨i, hi, he⟩ | sorts
  · exact mem_outputs.mpr (.inl ⟨i, fewer hi, he⟩)
  · exact mem_outputs.mpr (.inr sorts)

omit [DecidableEq V] in
/-- A block that makes groups with fewer entries makes groups. -/
theorem isGrouped_of_subset (fewer : kept ⊆ query.items)
    (grouped : (query.withItems kept).isGrouped = true) : query.isGrouped = true :=
  isGrouped_iff.mpr <| (isGrouped_iff.mp grouped).imp_right <| Or.imp_right
    fun ⟨i, hi, reducing⟩ ↦ ⟨i, fewer hi, reducing⟩

/-- A valid block without grouping keys, an order and distinct rows stays valid with fewer
entries. -/
theorem Valid.restrict (valid : query.Valid engine) (keys : query.groupBy = [])
    (orderBy : query.orderBy = []) (distinct : query.select.distinct = false)
    (fewer : kept ⊆ query.items) : (query.withItems kept).Valid engine := by
  obtain ⟨legal, sources⟩ := valid_iff.mp valid
  refine valid_iff.mpr ⟨⟨legal.filter, legal.groupBy, legal.having, fun x hx ↦ ?_,
    fun grouped relation hm ↦ legal.listed (isGrouped_of_subset fewer grouped) relation (fewer hm),
    fun h ↦ ?_, legal.limit, legal.offset⟩, sources⟩
  · have output := legal.outputs x (outputs_subset fewer hx)
    rw [Level] at output ⊢
    cases grouped : (query.withItems kept).isGrouped with
    | true =>
      rw [isGrouped_of_subset fewer grouped] at output
      exact output
    | false =>
      obtain ⟨i, hi, he⟩ | ⟨k, hk, -⟩ := mem_outputs.mp hx
      swap
      · exact absurd (orderBy ▸ hk) List.not_mem_nil
      have none : x.reduces = false :=
        eq_false_of_ne_true fun reduces ↦ Bool.false_ne_true
          (grouped.symm.trans (isGrouped_iff.mpr (.inr (.inr ⟨i, hi, x, he, reduces⟩))))
      split at output
      · rw [keys] at output
        exact output.of_reduces_eq_false none
      · exact output
  · rw [show (query.withItems kept).select.distinct = query.select.distinct from rfl, distinct] at h
    cases h

/-- A block with fewer entries that makes the same groups has its rows restricted to the columns of
these entries. -/
theorem rows_restrict (selects : query.Selects d names) (nodup : names.Nodup)
    (distinct : query.select.distinct = false)
    (grouped : (query.withItems kept).isGrouped = query.isGrouped) (fewer : kept ⊆ query.items)
    (labelled : kept.map (·.label?) = (retained.map d.quoted).map some) :
    (query.withItems kept).rows engine =
      (query.rows engine).map fun row ↦ retained.map (rowReader engine names row .right) := by
  have places : (query.withItems kept).places engine = query.places engine :=
    places_congr rfl rfl rfl rfl grouped
  refine rows_map places rfl rfl rfl rfl (fun h ↦ ?_) fun p _ ↦ ?_
  · rw [distinct] at h
    cases h
  · exact selects.values_of_subset nodup fewer labelled

/-- A block without groups and order, which does not keep rows once, has a row for each row that it
picks, in the same range. -/
theorem length_rows_of_ungrouped (ungrouped : query.isGrouped = false)
    (distinct : query.select.distinct = false) (orderBy : query.orderBy = []) :
    (query.rows engine).length = (engine.ranged query.limit query.offset
      (query.picked engine (Relation.product engine query.sources).envs)).length := by
  rw [rows_eq_ranged_selections orderBy, selections, distinct, if_neg Bool.false_ne_true, seen,
    ← map_env_places ungrouped, ← engine.map_ranged, ← engine.map_ranged, List.length_map,
    List.length_map]

end Sql.QuerySpecification

/-! ### Selections of queries -/

namespace QueryStep

/-- A selection drops the aggregates of a query if it is made in place and keeps none of the
aggregates for which the query makes its group. -/
def DropsAggregates (d : Dialect) (query : QuerySpecification) (retained : List String) : Prop :=
  wrapsForSelection query = false ∧ query.isGrouped = true ∧
    ∀ name ∈ retained, ∀ x, query.findColumn? (d.quoted name) = some x → x.reduces = false

omit [DecidableEq V] in
/-- A query that need not be wrapped before columns are dropped has no order and no distinct rows,
and makes groups only for what it selects. -/
private theorem clauses_of_inPlace (query : QuerySpecification)
    (inPlace : wrapsForSelection query = false) :
    query.groupBy = [] ∧ query.orderBy = [] ∧ query.having = none ∧
      query.select.distinct = false := by
  simpa [wrapsForSelection, QuerySpecification.hasAny, QuerySpecification.has] using inPlace

omit [DecidableEq V] in
/-- A query that need not be wrapped before columns are dropped makes groups exactly if one of its
entries reduces rows. -/
private theorem isGrouped_iff_of_inPlace (query : QuerySpecification)
    (inPlace : wrapsForSelection query = false) :
    query.isGrouped = true ↔
      ∃ i ∈ query.items, ∃ x, i.expression? = some x ∧ x.reduces = true := by
  obtain ⟨keys, -, groups, -⟩ := clauses_of_inPlace query inPlace
  rw [QuerySpecification.isGrouped_iff, groups, or_iff_right (not_not.mpr keys),
    Option.isSome_none, or_iff_right Bool.false_ne_true]

variable (engine) (selects : query.Selects d names) (nodup : names.Nodup)

include selects nodup

omit [DecidableEq V] in
/-- What some entries of a query select is what the query selects under their names. -/
private theorem exists_kept_iff {kept : List SelectItem} {p : Expression → Prop}
    (fewer : kept ⊆ query.items)
    (labelled : kept.map (·.label?) = (retained.map d.quoted).map some) :
    (∃ i ∈ kept, ∃ x, i.expression? = some x ∧ p x) ↔
      ∃ name ∈ retained, ∃ x, query.findColumn? (d.quoted name) = some x ∧ p x := by
  have found {name : String} (i : SelectItem) (hi : i ∈ kept)
      (hl : i.label? = some (d.quoted name)) :
      query.findColumn? (d.quoted name) = i.expression? := by
    obtain ⟨x, rfl⟩ := SelectItem.eq_column_of_label? hl
    exact QuerySpecification.findColumn?_of_mem (selects.nodup_labels nodup) (fewer hi)
  constructor
  · rintro ⟨i, hi, x, hx, holds⟩
    have label : i.label? ∈ (retained.map d.quoted).map some :=
      labelled ▸ List.mem_map_of_mem hi
    obtain ⟨_, hm, hl⟩ := List.mem_map.mp label
    obtain ⟨name, hn, rfl⟩ := List.mem_map.mp hm
    exact ⟨name, hn, x, (found i hi hl.symm).trans hx, holds⟩
  · rintro ⟨name, hn, x, hx, holds⟩
    have label : some (d.quoted name) ∈ kept.map (·.label?) :=
      labelled ▸ List.mem_map_of_mem (List.mem_map_of_mem hn)
    obtain ⟨i, hi, hl⟩ := List.mem_map.mp label
    exact ⟨i, hi, x, (found i hi hl).symm.trans hx, holds⟩

/-- A query that is restricted to columns in place has its rows restricted to the columns, unless
that drops the aggregates of the query; then it has a row for each row that the query picks. -/
private theorem restricted_rows {kept : List SelectItem} (inPlace : wrapsForSelection query = false)
    (fewer : kept ⊆ query.items)
    (labelled : kept.map (·.label?) = (retained.map d.quoted).map some) :
    (¬DropsAggregates d query retained → (query.withItems kept).rows engine =
        (query.rows engine).map fun row ↦ retained.map (rowReader engine names row .right)) ∧
      (DropsAggregates d query retained → ((query.withItems kept).rows engine).length =
        (engine.ranged query.limit query.offset (query.picked engine
          (Relation.product engine query.sources).envs)).length) := by
  obtain ⟨-, orderBy, -, distinct⟩ := clauses_of_inPlace query inPlace
  have reduces := (isGrouped_iff_of_inPlace (query.withItems kept) inPlace).trans
    (exists_kept_iff selects nodup fewer labelled)
  refine ⟨fun keeps ↦ ?_, fun ⟨_, _, plain⟩ ↦ ?_⟩
  · refine QuerySpecification.rows_restrict selects nodup distinct ?_ fewer labelled
    refine Bool.eq_iff_iff.mpr ⟨QuerySpecification.isGrouped_of_subset fewer, fun grouped ↦ ?_⟩
    refine reduces.mpr (by_contra fun none ↦ keeps ⟨inPlace, grouped, fun name hn x hx ↦ ?_⟩)
    exact eq_false_of_ne_true fun h ↦ none ⟨name, hn, x, hx, h⟩
  · have ungrouped : (query.withItems kept).isGrouped = false := by
      refine eq_false_of_ne_true fun grouped ↦ ?_
      obtain ⟨name, hn, x, hx, h⟩ := reduces.mp grouped
      rw [plain name hn x hx] at h
      cases h
    exact QuerySpecification.length_rows_of_ungrouped ungrouped distinct orderBy

/-- A selection of a query has the rows of the query, restricted to the columns, unless it drops the
aggregates of the query; then it has a row for each row that the query picks. -/
theorem selected_rows (ne : retained ≠ []) (known : retained ⊆ names)
    (made : selected d retained query = .ok result) :
    (query.Valid engine → result.Valid engine) ∧
      (¬DropsAggregates d query retained → result.rows engine =
        (query.rows engine).map fun row ↦ retained.map (rowReader engine names row .right)) ∧
      (DropsAggregates d query retained → (result.rows engine).length =
        (engine.ranged query.limit query.offset (query.picked engine
          (Relation.product engine query.sources).envs)).length) := by
  rcases selected_eq_ok.mp made with ⟨exact, rfl⟩ | ⟨-, wraps, hw⟩ | ⟨-, inPlace, hr⟩
  · have labelled := beq_iff_eq.mp exact
    have same : retained = names :=
      List.map_injective_iff.mpr (fun _ _ ↦ Dialect.quoted_inj.mp) <|
        List.map_injective_iff.mpr (Option.some_injective _) (labelled.symm.trans selects)
    refine ⟨id, fun _ ↦ ?_, fun drops ↦ ?_⟩
    · rw [same]
      refine ((List.map_congr_left fun row hr ↦ ?_).trans (List.map_id _)).symm
      have width := QuerySpecification.length_of_mem_rows selects hr
      rw [List.length_map] at width
      exact map_rowReader nodup width
    · have restricted := (restricted_rows engine selects nodup drops.1
        (List.Subset.refl result.items) labelled).2 drops
      rwa [QuerySpecification.withItems_items] at restricted
  · obtain ⟨sub, hs, rfl⟩ := (QuerySpecification.wrapped_some_eq_ok (by simpa using ne)).mp hw
    obtain ⟨rows, keeps, rowWise⟩ := wrapped_rows engine selects nodup hs
    have labels : (retained.map d.quoted).filter sub.columns.contains = retained.map d.quoted := by
      rw [List.filter_eq_self, selects.named_columns hs]
      intro label hl
      simpa using List.map_subset d.quoted known hl
    have fewer : sub.items (retained.map d.quoted) ⊆ sub.all.items := by
      refine List.map_subset _ ?_
      rw [selects.named_columns hs]
      exact List.map_subset _ known
    -- A sub-query makes no groups, so that it has no aggregates to drop.
    have keepsAll : ¬DropsAggregates d sub.all retained := fun drops ↦
      Bool.false_ne_true (rowWise.isGrouped.symm.trans drops.2.1)
    have restricted := (restricted_rows engine (selects.all hs) nodup rfl fewer
      (sub.map_label?_items _)).1 keepsAll
    rw [rows] at restricted
    rw [labels]
    refine ⟨fun valid ↦ (keeps valid).restrict rfl rfl rfl fewer, fun _ ↦ restricted, fun drops ↦ ?_⟩
    rw [drops.1] at wraps
    cases wraps
  · obtain ⟨kept, ht, rfl⟩ := retain_eq_ok.mp hr
    obtain ⟨labelled, fewer⟩ := takeColumns_eq_ok ht
    obtain ⟨keys, orderBy, -, distinct⟩ := clauses_of_inPlace query inPlace
    exact ⟨fun valid ↦ valid.restrict keys orderBy distinct fewer,
      restricted_rows engine selects nodup inPlace fewer labelled⟩

end QueryStep

/-! ### Selections of frames -/

namespace Frame

open QueryStep (DropsAggregates)

/-- If the query of a reachable frame is valid, every selection of columns of the frame that is
accepted has a valid query. Its rows are those of the query of the frame, in their order and number,
each restricted to the columns in the order given, unless the selection drops the aggregates of the
query; then there is a row for each row of the sources that the query picks, in the same range. -/
theorem Reachable.select_rows {base frame : Frame} (reachable : Reachable base)
    (made : base.toSql d = .ok query) (valid : query.Valid engine)
    (accepted : base.select retained = .ok frame) :
    ∃ result, frame.toSql d = .ok result ∧ result.Valid engine ∧
      (¬DropsAggregates d query retained → result.rows engine = (query.rows engine).map fun row ↦
        retained.map (rowReader engine base.columnNames row .right)) ∧
      (DropsAggregates d query retained → (result.rows engine).length =
        (engine.ranged query.limit query.offset (query.picked engine
          (Relation.product engine query.sources).envs)).length) := by
  obtain ⟨_, hs, h⟩ := Outcome.bind_eq_ok.mp accepted
  obtain ⟨ne, known, distinct⟩ := checkSelection_eq_ok.mp hs
  have checked := reachable.checked
  have selects := checked.selects made
  obtain ⟨result, hr⟩ := QueryStep.succeeds_selected selects ne known distinct
  obtain ⟨keeps, rows⟩ := QueryStep.selected_rows engine selects
    checked.columnNames_nodup ne known hr
  refine ⟨result, ?_, keeps valid, rows⟩
  rw [← Outcome.pure_eq_ok.mp h]
  exact Outcome.bind_eq_ok.mpr ⟨query, made, hr⟩

/-- The number one, next to the sum of all numbers of a table. -/
private def totalAndOne : Frame :=
  .extended (.grouped amounts [] [amountsTotal]) [⟨"one", .integer 1, none⟩]

private theorem totalAndOne_reachable : Reachable totalAndOne := by
  have summed : amounts.groupBy [] [⟨"total", (·.get "c1"), some (·.aggregate .sum)⟩] =
      .ok (.grouped amounts [] [amountsTotal]) := rfl
  have extended : (Frame.grouped amounts [] [amountsTotal]).extend
      [⟨"one", fun _ ↦ .ok (.integer 1), none⟩] = .ok totalAndOne := rfl
  exact .extend (.groupBy (.table amounts_made) summed) extended

/-- The query of the sum and the number. -/
private def totalAndOneQuery : QuerySpecification :=
  amountsQuery [.column (some "\"total\"") amountSum, .column (some "\"one\"") (.integer 1)] none

private theorem toSql_totalAndOne : totalAndOne.toSql {} = .ok totalAndOneQuery := rfl

private theorem totalAndOneQuery_valid : totalAndOneQuery.Valid amountsEngine :=
  amountsQuery_valid_of_sum (by simp) List.mem_cons_self <| List.forall_mem_cons.mpr
    ⟨amountSum_groupLevel, List.forall_mem_singleton.mpr (Expression.composed_literal _)⟩

/-- The sum of all numbers of a table, without the number next to it. -/
theorem Reachable.select_rows_of_total :
    ∃ (engine : Engine Int) (base frame : Frame) (query result : QuerySpecification),
      Reachable base ∧ base.toSql {} = .ok query ∧ query.Valid engine ∧
      base.select ["total"] = .ok frame ∧ frame.toSql {} = .ok result ∧ result.Valid engine ∧
      result.rows engine = (query.rows engine).map fun row ↦
        [rowReader engine ["total", "one"] row .right "total"] := by
  have selected : totalAndOne.select ["total"] = .ok (.selected totalAndOne ["total"]) := rfl
  obtain ⟨result, hr, hv, rows, -⟩ :=
    totalAndOne_reachable.select_rows toSql_totalAndOne totalAndOneQuery_valid selected
  refine ⟨amountsEngine, _, _, _, result, totalAndOne_reachable, toSql_totalAndOne,
    totalAndOneQuery_valid, selected, hr, hv, rows fun ⟨_, _, drops⟩ ↦ ?_⟩
  have plain := drops "total" List.mem_cons_self amountSum rfl
  rw [amountSum, Expression.reduces_eq] at plain
  cases plain

/-- The number one, without the sum next to it: the query of both has one row, and without the sum
there is a row for each row of the table. -/
theorem Reachable.exists_select_with_further_rows :
    ∃ (engine : Engine Int) (base frame : Frame) (query result : QuerySpecification),
      Reachable base ∧ base.toSql {} = .ok query ∧ query.Valid engine ∧
      base.select ["one"] = .ok frame ∧ frame.toSql {} = .ok result ∧
      (query.rows engine).length = 1 ∧ (result.rows engine).length = 3 := by
  have one : (totalAndOneQuery.rows amountsEngine).length = 1 :=
    QuerySpecification.length_rows_of_one_group rfl
      (amountsQuery_isGrouped_of_sum List.mem_cons_self) rfl rfl rfl
  have ungrouped : (amountsQuery [.column (some "\"one\"") (.integer 1)] none).isGrouped = false :=
    amountsQuery_isGrouped (List.forall_mem_singleton.mpr (Expression.rowLevel_literal _))
  have three : ((amountsQuery [.column (some "\"one\"") (.integer 1)] none).rows
      amountsEngine).length = 3 :=
    QuerySpecification.length_rows_of_ungrouped ungrouped rfl rfl
  exact ⟨amountsEngine, _, _, _, _, totalAndOne_reachable, toSql_totalAndOne,
    totalAndOneQuery_valid, rfl, rfl, one, three⟩

end Frame

end FrameQuery
