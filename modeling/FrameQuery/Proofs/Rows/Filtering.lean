import FrameQuery.Proofs.Frame.Success
import FrameQuery.Proofs.Rows.Conditions
import FrameQuery.Proofs.Rows.Wrapping

/-!
# Rows for which a condition holds

A filter puts its condition into the query of a frame, next to the condition that is there already,
unless the query is grouped, has a range, or has a window call as an entry of its select list; then
the query is wrapped first. In a query that is wrapped, and in one that computes all it selects row
by row, the condition picks exactly the rows of the query for which it holds. But a query that
computes something from several rows need not be wrapped: it may reduce all rows without a grouping
key, and a window call may stand below an operator. A condition that reads such a column puts an
aggregate or a window call where none may stand.
-/

namespace FrameQuery

open Sql (Dialect Engine Expression Place QuerySpecification Relation SelectItem SubQuery)

variable {V : Type} [DecidableEq V] {engine : Engine V} {d : Dialect}
  {query inner result : QuerySpecification} {names : List String}

/-! ### Conditions of blocks -/

/-- A condition in addition to earlier ones holds where it and these hold. -/
theorem QueryStep.holds_conjoined {earlier : Option Expression} {x : Expression} (place : Place V) :
    engine.holds ((QueryStep.conjoined earlier x).value engine place) =
      (earlier.all (fun y ↦ engine.holds (y.value engine place)) &&
        engine.holds (x.value engine place)) := by
  cases earlier with
  | none => simp [QueryStep.conjoined]
  | some y =>
    rw [QueryStep.conjoined, Sql.Expression.value_operator rfl]
    exact engine.holds_and _ _

/-- A condition in addition to earlier ones is one over columns of a row if it and these are. -/
theorem QueryStep.rowLevel_conjoined {earlier : Option Expression} {x : Expression}
    {columns : List (List String)} :
    (QueryStep.conjoined earlier x).RowLevel columns ↔
      (∀ y, earlier = some y → y.RowLevel columns) ∧ x.RowLevel columns := by
  cases earlier with
  | none => simp [QueryStep.conjoined]
  | some y =>
    rw [QueryStep.conjoined, Sql.Expression.rowLevel_operator rfl]
    simp [Sql.Expression.operands]

namespace Sql.QuerySpecification

/-- A valid block stays valid with a further condition exactly if that is one over columns of a
row. -/
theorem Valid.filter_iff {x : Expression} (valid : query.Valid engine) :
    Valid engine { query with filter := some (QueryStep.conjoined query.filter x) } ↔
      x.RowLevel (Relation.product engine query.sources).columns := by
  obtain ⟨legal, sources⟩ := valid_iff.mp valid
  rw [valid_iff, and_iff_left sources]
  constructor
  · intro narrowed
    exact (QueryStep.rowLevel_conjoined.mp (narrowed.filter _ rfl)).2
  · intro level
    have both := QueryStep.rowLevel_conjoined.mpr ⟨legal.filter, level⟩
    exact ⟨fun y hy ↦ Option.some.inj hy ▸ both, legal.groupBy, legal.having, legal.outputs,
      legal.listed, legal.distinct, legal.limit, legal.offset⟩

end Sql.QuerySpecification

/-! ### Filters -/

/-- Whether a condition of a closure holds for a row of a query. -/
def Expr.holdsFor (engine : Engine V) (d : Dialect) (query : QuerySpecification) (e : Expr)
    (row : List V) : Bool :=
  engine.holds (e.value engine fun _ name ↦ query.readRow engine row (d.quoted name))

/-- A query computes row by row what an expression reads. -/
def Expr.ReadsRowLevel (engine : Engine V) (d : Dialect) (query : QuerySpecification) (e : Expr) :
    Prop :=
  ∀ column ∈ e.reads, ∀ x, (Scope.single d query).resolve column.1 column.2 = .ok x →
    x.RowLevel (Relation.product engine query.sources).columns

namespace QueryStep

/-- A query that is not wrapped has no grouping keys and no range. -/
private theorem clauses_of_separate (separate : wrapsForFilter query = false) :
    query.groupBy = [] ∧ query.offset = none ∧ query.limit = none := by
  have clauses : (query.groupBy = [] ∧ query.offset = none ∧ query.limit = none) ∧
      query.selectsWindow = false := by
    simpa [wrapsForFilter, QuerySpecification.hasAny, QuerySpecification.has] using separate
  exact clauses.1

variable (selects : query.Selects d names)

include selects

/-- A condition that is put into a block that computes row by row picks the rows for which it
holds. -/
private theorem rows_conjoined
    (rowWise : query.RowWise (Relation.product engine query.sources).columns) {e : Expr}
    {x : Expression} (plain : e.OfRows) (made : e.toSql (.single d query) = .ok x) :
    QuerySpecification.rows engine { query with filter := some (conjoined query.filter x) } =
      (query.rows engine).filter (e.holdsFor engine d query) := by
  refine rowWise.rows_of_filter fun env ↦ ?_
  rw [Option.all_some, holds_conjoined]
  refine congrArg (_ && engine.holds ·) (Expr.value_toSql made plain fun column _ z hz ↦ ?_)
  exact (QuerySpecification.readRow_output selects (Scope.resolve_single.mp hz).2 _).symm

/-- Every condition holds for the same rows of two queries with the same columns. -/
private theorem holdsFor_congr (other : inner.Selects d names) (e : Expr) :
    e.holdsFor engine d inner = e.holdsFor engine d query := by
  funext row
  simp only [Expr.holdsFor, QuerySpecification.readRow, Sql.Table.env,
    QuerySpecification.columns_of_labels selects, QuerySpecification.columns_of_labels other]

variable (nodup : names.Nodup)

include nodup

variable (engine) in
/-- A query that is wrapped has the same rows, is still valid, and computes row by row. -/
theorem wrapped_rows {sub : SubQuery} {name : String} (made : query.named d name = .ok sub) :
    sub.all.rows engine = query.rows engine ∧
      (query.Valid engine → sub.all.Valid engine) ∧
        sub.all.RowWise (Relation.product engine sub.all.sources).columns := by
  obtain ⟨rfl, labelled, labels⟩ := selects.labelled_named nodup made
  exact ⟨SubQuery.rows_all labelled labels, SubQuery.valid_all labelled labels,
    SubQuery.rowWise_all labelled labels⟩

/-- A filter of a valid query is valid exactly if its condition always holds, or is computed from
rows alone and from columns that a query that is not wrapped computes row by row. -/
theorem filtered_valid_iff {condition : Expr} (valid : query.Valid engine)
    (made : filtered d condition query = .ok result) :
    result.Valid engine ↔ condition = .constant (.boolean true) ∨
      condition.OfRows ∧
        (wrapsForFilter query = true ∨ condition.ReadsRowLevel engine d query) := by
  rcases filtered_eq_ok.mp made with ⟨hc, rfl⟩ | ⟨hc, inner, x, hw, hx, rfl⟩
  · exact iff_of_true valid (.inl hc)
  · rw [or_iff_right hc]
    rcases wrapIf_eq_ok.mp hw with ⟨wraps, sub, hs, rfl⟩ | ⟨wraps, rfl⟩
    · obtain ⟨-, keeps, rowWise⟩ := wrapped_rows engine selects nodup hs
      rw [(keeps valid).filter_iff, Expr.rowLevel_toSql hx]
      -- Whatever the condition reads is a column of the sub-query.
      refine and_congr_right' (iff_of_true (fun column _ z hz ↦ ?_) (.inl wraps))
      exact rowWise.outputs z (Scope.outputs_of_resolve hz)
    · rw [valid.filter_iff, Expr.rowLevel_toSql hx, wraps]
      exact and_congr_right' (or_iff_right Bool.false_ne_true).symm

/-- A filter whose condition is computed from rows alone picks the rows of the query for which the
condition holds, if the query is wrapped or computes row by row all that it selects and sorts by. -/
theorem filtered_rows {condition : Expr} (plain : condition.OfRows)
    (groups : query.having = none)
    (separate : wrapsForFilter query = true ∨
      ∀ x ∈ query.outputs, x.RowLevel (Relation.product engine query.sources).columns)
    (made : filtered d condition query = .ok result) :
    result.rows engine = (query.rows engine).filter (condition.holdsFor engine d query) := by
  rcases filtered_eq_ok.mp made with ⟨rfl, rfl⟩ | ⟨hc, inner, x, hw, hx, rfl⟩
  · refine (List.filter_eq_self.mpr fun row _ ↦ ?_).symm
    rw [Expr.holdsFor, Expr.value, Constant.value, Constant.toSql, Expression.boolean,
      Expression.value_literal]
    exact engine.holds_true
  · rcases wrapIf_eq_ok.mp hw with ⟨wraps, sub, hs, rfl⟩ | ⟨wraps, rfl⟩
    · obtain ⟨rows, -, rowWise⟩ := wrapped_rows engine selects nodup hs
      have other := selects.all hs
      rw [rows_conjoined other rowWise plain hx, rows, holdsFor_congr selects other]
    · have level := separate.resolve_left (by simp [wraps])
      obtain ⟨ungrouped, unskipped, unlimited⟩ := clauses_of_separate wraps
      have rowWise : inner.RowWise (Relation.product engine inner.sources).columns :=
        ⟨ungrouped, groups, unlimited, unskipped, level⟩
      exact rows_conjoined selects rowWise plain hx

end QueryStep

/-! ### Conditions on groups -/

namespace QueryStep

omit [DecidableEq V]

/-- Wrapping adds no condition on groups. -/
private theorem wrapIf_having {needed : Bool} (none : query.having = none)
    (made : wrapIf d needed query = .ok result) : result.having = .none := by
  rcases wrapIf_eq_ok.mp made with ⟨-, sub, -, rfl⟩ | ⟨-, rfl⟩
  · rfl
  · exact none

/-- A selection adds no condition on groups. -/
private theorem selected_having {retained : List String} (none : query.having = none)
    (made : selected d retained query = .ok result) : result.having = .none := by
  rcases selected_eq_ok.mp made with ⟨-, rfl⟩ | ⟨-, -, hw⟩ | ⟨-, -, hr⟩
  · exact none
  · obtain ⟨sub, -, hp⟩ := Outcome.bind_eq_ok.mp hw
    rw [← Outcome.pure_eq_ok.mp hp]
    rfl
  · obtain ⟨kept, -, rfl⟩ := retain_eq_ok.mp hr
    exact none

end QueryStep

namespace Frame

/-- No frame has a condition on groups in its query. -/
theorem toSql_having {frame : Frame} (made : frame.toSql d = .ok query) : query.having = none := by
  induction frame generalizing query with
  | table parts columns => rw [← Except.ok.inj made]; rfl
  | filtered base condition ih =>
    obtain ⟨inner, hi, hs⟩ := Outcome.bind_eq_ok.mp made
    rcases QueryStep.filtered_eq_ok.mp hs with ⟨-, rfl⟩ | ⟨-, wrapped, x, hw, -, rfl⟩
    · exact ih hi
    · exact (QueryStep.wrapIf_having (ih hi) hw :)
  | selected base retained ih =>
    obtain ⟨inner, hi, hs⟩ := Outcome.bind_eq_ok.mp made
    exact QueryStep.selected_having (ih hi) hs
  | distinct base retained ih =>
    obtain ⟨inner, hi, hs⟩ := Outcome.bind_eq_ok.mp made
    obtain ⟨restricted, wrapped, hr, hw, rfl⟩ := QueryStep.distinct_eq_ok.mp hs
    have first : restricted.having = none := by
      cases retained with
      | none => exact hr ▸ ih hi
      | some retained => exact QueryStep.selected_having (ih hi) hr
    exact (QueryStep.wrapIf_having first hw :)
  | extended base new ih =>
    obtain ⟨inner, hi, hs⟩ := Outcome.bind_eq_ok.mp made
    obtain ⟨wrapped, items, hw, -, rfl⟩ := QueryStep.extended_eq_ok.mp hs
    exact (QueryStep.wrapIf_having (ih hi) hw :)
  | windowExtended base window new ih =>
    obtain ⟨inner, hi, hs⟩ := Outcome.bind_eq_ok.mp made
    obtain ⟨sub, clause, items, -, -, -, rfl⟩ := QueryStep.windowExtended_eq_ok.mp hs
    rfl
  | projected base new ih =>
    obtain ⟨inner, hi, hs⟩ := Outcome.bind_eq_ok.mp made
    obtain ⟨sub, items, -, -, rfl⟩ := QueryStep.projected_eq_ok.mp hs
    rfl
  | renamed base pairs ih =>
    obtain ⟨inner, hi, hs⟩ := Outcome.bind_eq_ok.mp made
    obtain ⟨items, -, rfl⟩ := QueryStep.renamed_eq_ok.mp hs
    exact (ih hi :)
  | grouped base grouping aggregates ih =>
    obtain ⟨inner, hi, hs⟩ := Outcome.bind_eq_ok.mp made
    obtain ⟨wrapped, items, keys, kept, hw, -, -, -, rfl⟩ := QueryStep.grouped_eq_ok.mp hs
    exact (QueryStep.wrapIf_having (ih hi) hw :)
  | sorted base keys ih =>
    obtain ⟨inner, hi, hs⟩ := Outcome.bind_eq_ok.mp made
    obtain ⟨wrapped, items, hw, -, rfl⟩ := QueryStep.sorted_eq_ok.mp hs
    exact (QueryStep.wrapIf_having (ih hi) hw :)
  | sliced base start stop ih =>
    obtain ⟨inner, hi, hs⟩ := Outcome.bind_eq_ok.mp made
    obtain ⟨wrapped, hw, rfl⟩ := QueryStep.sliced_eq_ok.mp hs
    exact (QueryStep.wrapIf_having (ih hi) hw :)
  | limited base count ih =>
    obtain ⟨inner, hi, hs⟩ := Outcome.bind_eq_ok.mp made
    obtain ⟨wrapped, hw, rfl⟩ := QueryStep.limited_eq_ok.mp hs
    exact (QueryStep.wrapIf_having (ih hi) hw :)
  | dropped base count ih =>
    obtain ⟨inner, hi, hs⟩ := Outcome.bind_eq_ok.mp made
    obtain ⟨wrapped, hw, rfl⟩ := QueryStep.dropped_eq_ok.mp hs
    exact (QueryStep.wrapIf_having (ih hi) hw :)
  | joined base other condition kind =>
    obtain ⟨lefts, left, rights, right, -, -, -, -, hs⟩ := toSql_pair_eq_ok.mp made
    obtain ⟨holds, sub, -, -, rfl⟩ := QueryStep.joined_eq_ok.mp hs
    rfl
  | asOfJoined => exact absurd made Outcome.fail_ne_ok
  | concatenated base other =>
    obtain ⟨lefts, left, rights, right, -, -, -, -, hs⟩ := toSql_pair_eq_ok.mp made
    rw [← Outcome.pure_eq_ok.mp hs]
    rfl
  | served frame service ih => exact ih made

/-! ### Filters of frames -/

/-- A filter that is accepted has the condition that its closure computes. -/
private theorem filter_eq_ok {base frame : Frame} {condition : Row → Outcome TypedExpr}
    {value : TypedExpr} (evaluated : condition base.row = .ok value)
    (accepted : base.filter condition = .ok frame) : frame = .filtered base value := by
  obtain ⟨found, hf, rest⟩ := Outcome.bind_eq_ok.mp accepted
  obtain ⟨_, -, made⟩ := Outcome.bind_eq_ok.mp rest
  rw [evaluated] at hf
  rw [Except.ok.inj hf]
  exact (Outcome.pure_eq_ok.mp made).symm

/-- If the query of a reachable frame is valid, every filter of the frame that is accepted and reads
columns of the frame has a query. It is valid exactly if the condition always holds, or is computed
from the row alone and, unless the query of the frame is wrapped, from columns that are computed row
by row. Its rows are those of the query of the frame for which the condition holds, if the condition
is computed from the row alone and the query of the frame is wrapped or computes all it selects and
sorts by row by row. -/
theorem Reachable.filter_rows {base frame : Frame} {condition : Row → Outcome TypedExpr}
    {value : TypedExpr} (reachable : Reachable base) (made : base.toSql d = .ok query)
    (valid : query.Valid engine) (evaluated : condition base.row = .ok value)
    (accepted : base.filter condition = .ok frame)
    (reads : value.expr.ReadsFrom [(.right, base.columnNames)]) :
    ∃ result, frame.toSql d = .ok result ∧
      (result.Valid engine ↔ value.expr = .constant (.boolean true) ∨
        value.expr.OfRows ∧ (QueryStep.wrapsForFilter query = true ∨
          value.expr.ReadsRowLevel engine d query)) ∧
      (value.expr.OfRows →
        (QueryStep.wrapsForFilter query = true ∨
          ∀ x ∈ query.outputs, x.RowLevel (Relation.product engine query.sources).columns) →
        result.rows engine = (query.rows engine).filter (value.expr.holdsFor engine d query)) := by
  have checked := reachable.checked
  have selects := checked.selects made
  have nodup := checked.columnNames_nodup
  obtain ⟨result, hr⟩ := QueryStep.succeeds_filtered selects reads
  refine ⟨result, ?_, ?_, fun plain separate ↦ ?_⟩
  · rw [filter_eq_ok evaluated accepted]
    exact Outcome.bind_eq_ok.mpr ⟨query, made, hr⟩
  · exact QueryStep.filtered_valid_iff selects nodup valid hr
  · exact QueryStep.filtered_rows selects nodup plain (toSql_having made) separate hr

/-- A table with a column of numbers. -/
def amounts : Frame := .table ["t"] [⟨"c1", .integer, none, none⟩]

theorem amounts_made : ofTable ["t"] [⟨"c1", .integer, none, none⟩] = .ok amounts := rfl

/-- A database in which the table has three rows. -/
def amountsEngine : Engine Int := .integers ["\"c1\""] [[1], [2], [3]]

/-- The column of numbers, as queries write it. -/
def amount : Expression := .column ["\"root\"", "\"c1\""]

/-- A query of the table, with a limit if there is one. -/
def amountsQuery (items : List SelectItem) (limit : Option Expression) :
    QuerySpecification :=
  { QuerySpecification.plain items [.aliased (.table ⟨["t"]⟩) "\"root\"" []] with limit := limit }

/-- A query of the table is valid if its outputs are legal and its limit is constant. -/
theorem amountsQuery_valid {items : List SelectItem} {limit : Option Expression}
    (listed : ∀ relation, SelectItem.allColumns relation ∉ items)
    (constant : ∀ x, limit = some x → x.RowLevel [])
    (outputs : ∀ x ∈ (amountsQuery items limit).outputs,
      x.OutputLevel ((amountsQuery items limit).Level [["\"root\"", "\"c1\""]])) :
    (amountsQuery items limit).Valid amountsEngine := by
  refine QuerySpecification.valid_iff.mpr
    ⟨⟨?_, ?_, ?_, outputs, fun _ ↦ listed, ?_, constant, ?_⟩, ⟨trivial, ?_⟩, trivial⟩
  · exact fun x h ↦ nomatch h
  · exact fun x h ↦ nomatch h
  · exact fun x h ↦ nomatch h
  · exact fun h ↦ nomatch h
  · exact fun x h ↦ nomatch h
  · exact fun h ↦ absurd rfl h

/-- The column of numbers is a column of the table. -/
theorem amount_rowLevel : amount.RowLevel [["\"root\"", "\"c1\""]] :=
  .atom ⟨_, rfl, by decide⟩

/-- The sum of the numbers. -/
def amountsTotal : ComputedColumn :=
  ⟨"total", ⟨.integer, .column .right "c1" none⟩,
    some ⟨.integer, .aggregate .sum (.column .right "c1" none)⟩⟩

/-- A closure that asks whether the number of a row is larger than one. -/
private def amountIsLarge (row : Row) : Outcome TypedExpr := do
  (← row.get "c1").compare (.integer 1) .greaterThan

/-- What that closure computes. -/
private def largeAmount : Expr :=
  .binary (.compare .greaterThan) (.column .right "c1" none) (.constant (.integer 1))

/-- A block of the table whose expressions are all over columns of a row makes no groups. -/
theorem amountsQuery_isGrouped {items : List SelectItem} {limit : Option Expression}
    (outputs : ∀ x ∈ (amountsQuery items limit).outputs, x.RowLevel [["\"root\"", "\"c1\""]]) :
    (amountsQuery items limit).isGrouped = false := by
  have rowWise : QuerySpecification.RowWise { amountsQuery items limit with limit := none }
      [["\"root\"", "\"c1\""]] := ⟨rfl, rfl, rfl, rfl, outputs⟩
  exact rowWise.isGrouped

/-- What such a block selects is legal. -/
theorem amountsQuery_level {items : List SelectItem} {limit : Option Expression}
    (outputs : ∀ x ∈ (amountsQuery items limit).outputs, x.RowLevel [["\"root\"", "\"c1\""]]) :
    ∀ x ∈ (amountsQuery items limit).outputs,
      x.OutputLevel ((amountsQuery items limit).Level [["\"root\"", "\"c1\""]]) := by
  rw [QuerySpecification.Level, amountsQuery_isGrouped outputs]
  exact fun x hx ↦ .atom (.inl (outputs x hx))

/-- A query of the table that selects its column under a label makes no groups. -/
theorem amountsQuery_isGrouped_of_column (label : String) (limit : Option Expression) :
    (amountsQuery [.column (some label) amount] limit).isGrouped = false :=
  amountsQuery_isGrouped (List.forall_mem_singleton.mpr amount_rowLevel)

/-- A query of the table that selects its column under a label is valid. -/
theorem amountsQuery_valid_of_column (label : String) {limit : Option Expression}
    (constant : ∀ x, limit = some x → x.RowLevel []) :
    (amountsQuery [.column (some label) amount] limit).Valid amountsEngine :=
  amountsQuery_valid (by simp) constant
    (amountsQuery_level (List.forall_mem_singleton.mpr amount_rowLevel))

/-- The query of the first two numbers. -/
def firstAmountsQuery : QuerySpecification :=
  amountsQuery [.column (some "\"c1\"") amount] (some (.integer 2))

/-- The first two numbers can be taken of the table. -/
theorem Reachable.firstAmounts : Reachable (.limited amounts 2) := by
  have limited : amounts.limit 2 = .ok (.limited amounts 2) := rfl
  exact .limit (.table amounts_made) limited

/-- Their query is valid, because its limit is a constant. -/
theorem firstAmountsQuery_valid : firstAmountsQuery.Valid amountsEngine :=
  amountsQuery_valid_of_column _ fun _ hx ↦ Option.some.inj hx ▸ Expression.rowLevel_literal _

/-- The sum of the numbers, as queries write it. -/
def amountSum : Expression := .extension (.aggregate .sum amount)

/-- The sum of the numbers is computed of the group of all rows. -/
theorem amountSum_groupLevel : amountSum.GroupLevel [["\"root\"", "\"c1\""]] [] :=
  .atom (.inr ⟨rfl, List.forall_mem_singleton.mpr amount_rowLevel⟩)

/-- A block of the table that selects the sum makes one group of all rows. -/
theorem amountsQuery_isGrouped_of_sum {items : List SelectItem} {limit : Option Expression}
    (sums : amountSum ∈ items.filterMap (·.expression?)) :
    (amountsQuery items limit).isGrouped = true := by
  have reduces : ((amountsQuery items limit).items.filterMap (·.expression?)).any (·.reduces) =
      true := List.any_eq_true.mpr ⟨amountSum, sums, Expression.reduces_eq _⟩
  rw [QuerySpecification.isGrouped, reduces, Bool.or_true]

/-- Such a block is valid if all that it selects is computed of the group of all rows. -/
theorem amountsQuery_valid_of_sum {items : List SelectItem}
    (listed : ∀ relation, SelectItem.allColumns relation ∉ items)
    (sums : amountSum ∈ items.filterMap (·.expression?))
    (outputs : ∀ x ∈ (amountsQuery items none).outputs,
      x.GroupLevel [["\"root\"", "\"c1\""]] []) :
    (amountsQuery items none).Valid amountsEngine := by
  refine amountsQuery_valid listed nofun fun x hx ↦ ?_
  rw [QuerySpecification.Level, amountsQuery_isGrouped_of_sum sums]
  exact .atom (.inl (outputs x hx))

/-- Of the first two numbers those that are larger than one are picked, because a query with a limit
is wrapped. -/
theorem Reachable.filter_rows_of_limited :
    ∃ (engine : Engine Int) (base frame : Frame) (query result : QuerySpecification),
      Reachable base ∧ base.toSql {} = .ok query ∧ query.Valid engine ∧
      base.filter amountIsLarge = .ok frame ∧ frame.toSql {} = .ok result ∧
      result.Valid engine ∧
      result.rows engine = (query.rows engine).filter (largeAmount.holdsFor engine {} query) := by
  have large : Frame.filter (.limited amounts 2) amountIsLarge = .ok (.filtered _ _) := rfl
  have made : (Frame.limited amounts 2).toSql {} = .ok firstAmountsQuery := rfl
  have evaluated : amountIsLarge (Frame.limited amounts 2).row = .ok ⟨.boolean, largeAmount⟩ := rfl
  have plain : largeAmount.OfRows := ⟨rfl, rfl⟩
  have reads : largeAmount.ReadsFrom [(.right, ["c1"])] :=
    List.forall_mem_singleton.mpr ⟨["c1"], List.mem_cons_self, List.mem_cons_self⟩
  obtain ⟨result, hr, hv, rows⟩ :=
    Reachable.firstAmounts.filter_rows made firstAmountsQuery_valid evaluated large reads
  exact ⟨amountsEngine, _, _, _, result, .firstAmounts, made, firstAmountsQuery_valid, large, hr,
    hv.mpr (.inr ⟨plain, .inl rfl⟩), rows plain (.inl rfl)⟩

/-- The sum of all numbers is computed without a grouping key, so that a condition on the sum is put
next to it instead of around it: into a place where no aggregate may stand. -/
theorem Reachable.exists_filter_not_valid :
    ∃ (engine : Engine Int) (base frame : Frame) (query result : QuerySpecification),
      Reachable base ∧ base.toSql {} = .ok query ∧ query.Valid engine ∧
      base.filter (fun row ↦ do (← row.get "total").compare (.integer 2) .greaterThan) =
        .ok frame ∧
      frame.toSql {} = .ok result ∧ ¬result.Valid engine := by
  have summed : amounts.groupBy [] [⟨"total", (·.get "c1"), some (·.aggregate .sum)⟩] =
      .ok (.grouped amounts [] [amountsTotal]) := rfl
  have large : Frame.filter (.grouped amounts [] [amountsTotal])
      (fun row ↦ do (← row.get "total").compare (.integer 2) .greaterThan) =
        .ok (.filtered _ _) := rfl
  have total : (amountsQuery [.column (some "\"total\"") amountSum] none).Valid amountsEngine :=
    amountsQuery_valid_of_sum (by simp) List.mem_cons_self
      (List.forall_mem_singleton.mpr amountSum_groupLevel)
  refine ⟨amountsEngine, _, _, _, _, .groupBy (.table amounts_made) summed, rfl, total, large, rfl,
    fun valid ↦ ?_⟩
  -- The condition compares the sum itself.
  have level := (QuerySpecification.valid_iff.mp valid).1.filter _ rfl
  have operands := (Expression.rowLevel_operator rfl).mp level
  exact Expression.not_rowLevel_of_isAggregate rfl (operands _ List.mem_cons_self)

end Frame

end FrameQuery
