import FrameQuery.Proofs.Frame.Success
import FrameQuery.Proofs.Rows.Extending
import FrameQuery.Proofs.Rows.Filtering
import FrameQuery.Proofs.Rows.Groups

/-!
# Grouped frames

A grouping puts its keys into the query of a frame, in place unless that has grouping keys, distinct
rows, a range or calls over windows in its select list. What is grouped in place has to be computed
row by row, and what it is sorted by has to be computed of groups. Then there is one row for each
tuple of values of the keys among the rows of the frame.
-/

namespace FrameQuery

open Sql (Dialect Engine Expression Place QuerySpecification Relation SelectItem)
open Sql.Expression (GroupLevel RowLevel)

variable {V : Type} [DecidableEq V] {engine : Engine V} {d : Dialect}
  {query result : QuerySpecification} {names grouping : List String}
  {aggregates : List ComputedColumn}

/-! ### Written aggregates -/

namespace QueryStep

variable {c : ComputedColumn} {item : SelectItem}

omit [DecidableEq V] in
/-- A written aggregate is a call over what is written of its closure, and over constants. -/
private theorem exists_of_valueItem (once : c.AggregatesOnce)
    (aggregates : c.aggregate.isSome = true) (made : valueItem (.single d query) c = .ok item) :
    ∃ (x z : Expression) (constants : List Sql.Literal),
      item = .column (some (d.quoted c.name)) x ∧ c.value.expr.IsCallOver c.map.expr ∧
      c.value.expr.toSql (.single d query) = .ok x ∧ c.map.expr.toSql (.single d query) = .ok z ∧
      x.isAggregate = true ∧ x.operands = z :: constants.map .literal := by
  obtain ⟨aggregate, ha⟩ := Option.isSome_iff_exists.mp aggregates
  have value : c.value = aggregate := by rw [ComputedColumn.value, ha]; rfl
  obtain ⟨x, hx, rfl⟩ := valueItem_eq_ok.mp made
  have call := once aggregate ha
  rw [← value] at call
  obtain ⟨z, constants, hz, reduces, -, operands⟩ := call.toSql_eq_ok hx
  exact ⟨x, z, constants, rfl, call, hx, hz, reduces, operands⟩

variable {columns : List (List String)}

omit [DecidableEq V] in
/-- A written aggregate is computed of groups with keys over columns exactly if its closure reads
columns that are computed row by row. -/
private theorem groupLevel_valueItem {keys : List Expression}
    (level : ∀ key ∈ keys, key.RowLevel columns) (plain : c.map.expr.OfRows)
    (once : c.AggregatesOnce) (aggregates : c.aggregate.isSome = true)
    (made : valueItem (.single d query) c = .ok item) :
    c.map.expr.ReadsAt d query (RowLevel columns) ↔
      ∀ x, item.expression? = some x → x.GroupLevel columns keys := by
  obtain ⟨x, z, constants, rfl, -, -, hz, reduces, operands⟩ :=
    exists_of_valueItem once aggregates made
  have closure : z.RowLevel columns ↔ c.map.expr.ReadsAt d query (RowLevel columns) :=
    Expr.composed_toSql (Expression.atomic_isColumn columns) hz plain
  have each : (∀ y ∈ x.operands, y.RowLevel columns) ↔ z.RowLevel columns := by
    rw [operands, List.forall_mem_cons]
    exact and_iff_left (List.forall_mem_map.mpr fun value _ ↦ Expression.rowLevel_literal value)
  rw [← closure, ← each, ← Expression.groupLevel_iff_of_isAggregate level reduces]
  simp [SelectItem.expression?]

/-! ### Rows of groups -/

/-- At a place whose group has the rows of some places of a query, a written aggregate reduces what
the query selects at these. -/
private theorem values_valueItem (selects : query.Selects d names) (plain : c.map.expr.OfRows)
    (once : c.AggregatesOnce) (aggregates : c.aggregate.isSome = true)
    (reads : c.map.expr.ReadsAt d query (RowLevel columns))
    (made : valueItem (.single d query) c = .ok item) {place : Place V} {members : List (Place V)}
    (same : place.group = members.map Place.env) (row : List V) :
    item.values engine place =
      [c.valueOver engine names (members.map fun p ↦ (query.output engine p).1) row] := by
  obtain ⟨x, z, constants, rfl, call, hx, hz, reduces, operands⟩ :=
    exists_of_valueItem once aggregates made
  have level : ∀ y ∈ x.operands, y.RowLevel columns := by
    rw [operands, List.forall_mem_cons]
    exact ⟨(Expr.composed_toSql (Expression.atomic_isColumn columns) hz plain).mpr reads,
      List.forall_mem_map.mpr fun value _ ↦ Expression.rowLevel_literal value⟩
  have rows (p : Place V) :
      x.operands.map (·.value engine (.row p.env)) = x.operands.map (·.value engine p) :=
    List.map_congr_left fun y hy ↦ (level y hy).value_congr rfl
  have values (p : Place V) : z.value engine p =
      c.map.expr.value engine (rowReader engine names (query.output engine p).1) :=
    selects.value_toSql plain hz
  have reduced := call.value_toSql hx hz (rowReader engine names row)
    fun p (_ : p ∈ members) ↦ values p
  rw [SelectItem.values, Expression.value_aggregate reduces, same, List.map_map,
    ComputedColumn.valueOver, List.map_map]
  refine congrArg ([·]) (Eq.trans (congrArg _ ?_) reduced)
  exact List.map_congr_left fun p _ ↦ rows p

section

variable {keys : List Expression} {kept items : List SelectItem}
  (selects : query.Selects d names) (nodup : names.Nodup)
  (resolved : List.Forall₂ (fun n x ↦ query.findColumn? (d.quoted n) = some x) grouping keys)
  (level : ∀ x ∈ keys, x.RowLevel columns)

include selects resolved level

/-- At a place that has the row of a place of a query, keys over columns have the values that are
read of what the query selects there. -/
private theorem values_keys {place p : Place V} (same : place.env = p.env) :
    keys.map (·.value engine place) =
      grouping.map (rowReader engine names (query.output engine p).1 .right) := by
  induction resolved with
  | nil => rfl
  | cons found _ ih =>
    obtain ⟨first, others⟩ := List.forall_mem_cons.mp level
    rw [List.map_cons, List.map_cons, ih others, first.value_congr same, selects.value_eq found]

variable (plain : ∀ c ∈ aggregates, c.map.expr.OfRows) (once : ∀ c ∈ aggregates, c.AggregatesOnce)
  (aggregated : ∀ c ∈ aggregates, c.aggregate.isSome = true)
  (reads : ∀ c ∈ aggregates, c.map.expr.ReadsAt d query (RowLevel columns))
  (made : List.Forall₂ (fun c i ↦ valueItem (.single d query) c = .ok i) aggregates items)
  (selected : kept.map (·.expression?) = keys.map some)

include plain once aggregated reads made selected

omit resolved level in
/-- At a place whose group has the rows of some places of a query, the grouped query selects the
values of its keys and the aggregates of what the query selects at these. -/
private theorem output_groupedBy {place : Place V} {members : List (Place V)}
    (same : place.group = members.map Place.env) (row : List V) :
    ((query.groupedBy keys (kept ++ items)).output engine place).1 =
      keys.map (·.value engine place) ++ aggregates.map fun c ↦
        c.valueOver engine names (members.map fun p ↦ (query.output engine p).1) row := by
  rw [← QuerySpecification.flatMap_values made fun c hc i hi ↦ values_valueItem selects (plain c hc)
    (once c hc) (aggregated c hc) (reads c hc) hi same row,
    ← QuerySpecification.values_of_expressions selected]
  exact List.flatMap_append

/-- A query that makes no groups, grouped in place, selects for each group its keys and the
aggregates of the rows of the query in it. -/
private theorem seen_groupedBy (ungrouped : query.isGrouped = false)
    (grouped : (query.groupedBy keys (kept ++ items)).isGrouped = true) :
    (query.groupedBy keys (kept ++ items)).seen engine =
      groupRows engine names grouping aggregates (query.seen engine) := by
  rw [QuerySpecification.seen, QuerySpecification.places_groupedBy ungrouped,
    QuerySpecification.seen]
  by_cases keyless : grouping = []
  · obtain rfl : keys = [] := by
      rw [keyless] at resolved
      exact List.forall₂_nil_left_iff.mp resolved
    rw [keyless, groupRows_nil, QuerySpecification.groups_of_nil grouped]
    have all : (Place.mk [(query.places engine).map Place.env] 0).group =
        (query.places engine).map Place.env := rfl
    exact congrArg ([·]) (output_groupedBy selects plain once aggregated reads made selected all _)
  · have keyed : keys ≠ [] := by
      rintro rfl
      exact keyless (List.forall₂_nil_right_iff.mp resolved)
    rw [groupRows_of_ne_nil keyless, List.map_map, QuerySpecification.groups_of_ne_nil keyed
      fun p _ ↦ values_keys selects resolved level (Place.env_row p.env)]
    refine Place.map_all rfl fun values hv place same ↦ ?_
    obtain ⟨first, rest, members, key⟩ := exists_first_of_group hv
    have env : place.env = first.env := by
      rw [Place.env, same]
      exact congrArg (fun ps ↦ ((List.map Place.env ps).head?).getD []) members
    rw [List.filter_map, output_groupedBy selects plain once aggregated reads made selected same _,
      values_keys selects resolved level env]
    -- The rows of the group agree on the keys, so that its first row has them.
    exact congrArg (· ++ _) key

end

/-! ### Groupings of queries -/

omit [DecidableEq V] in
/-- A query that has none of these clauses has no grouping keys, no distinct rows and no range. -/
private theorem clauses_of_hasAny
    (clauses : query.hasAny [.groupBy, .distinct, .offset, .limit] = false) :
    query.groupBy = [] ∧ query.select.distinct = false ∧ query.offset = none ∧
      query.limit = none := by
  simpa [QuerySpecification.hasAny, QuerySpecification.has] using clauses

/-- What can be grouped in place: the columns to group by and what is aggregated are computed row by
row, and everything that is sorted by is computed of groups. -/
structure Groupable (engine : Engine V) (d : Dialect) (query : QuerySpecification)
    (grouping : List String) (aggregates : List ComputedColumn) : Prop where
  keys : ∀ name ∈ grouping, ∀ x, query.findColumn? (d.quoted name) = some x →
    x.RowLevel (Relation.product engine query.sources).columns
  reads : ∀ c ∈ aggregates, c.map.expr.ReadsAt d query
    (RowLevel (Relation.product engine query.sources).columns)
  order : ∀ keys,
    List.Forall₂ (fun n x ↦ query.findColumn? (d.quoted n) = some x) grouping keys →
      ∀ k ∈ query.orderBy, k.key.GroupLevel (Relation.product engine query.sources).columns keys

section

variable {keys : List Expression} {kept items : List SelectItem}
  (selects : query.Selects d names) (nodup : names.Nodup)
  (clauses : query.hasAny [.groupBy, .distinct, .offset, .limit] = false)
  (plain : ∀ c ∈ aggregates, c.map.expr.OfRows) (once : ∀ c ∈ aggregates, c.AggregatesOnce)
  (aggregated : ∀ c ∈ aggregates, c.aggregate.isSome = true) (ne : aggregates ≠ [])
  (made : List.Forall₂ (fun c i ↦ valueItem (.single d query) c = .ok i) aggregates items)
  (resolved : List.Forall₂ (fun n x ↦ query.findColumn? (d.quoted n) = some x) grouping keys)
  (fewer : kept ⊆ query.items)
  (labelled : kept.map (·.label?) = (grouping.map d.quoted).map some)

include selects nodup clauses plain once aggregated ne made resolved fewer labelled

omit [DecidableEq V] nodup clauses selects plain resolved fewer labelled in
/-- A written aggregate reduces rows. -/
private theorem exists_reducing :
    ∃ i ∈ items, ∃ x, i.expression? = some x ∧ x.reduces = true := by
  cases made with
  | nil => exact absurd rfl ne
  | @cons c i _ _ hi _ =>
    obtain ⟨x, -, -, rfl, -, -, -, reduces, -⟩ := exists_of_valueItem
      (once c List.mem_cons_self) (aggregated c List.mem_cons_self) hi
    refine ⟨_, List.mem_cons_self, x, rfl, ?_⟩
    rw [Expression.reduces_eq, reduces]
    rfl

/-- A valid query without groups, distinct rows and a range, grouped in place, is valid and computed
of groups exactly if it can be grouped in place. -/
private theorem groupedBy_valid_iff (valid : query.Valid engine) :
    (query.groupedBy keys (kept ++ items)).ValidOverGroups engine ↔
      Groupable engine d query grouping aggregates := by
  have selected := selects.expressions_of_keys nodup resolved fewer labelled
  have listed (relation : Option String) : SelectItem.allColumns relation ∉ items := by
    intro hm
    obtain ⟨c, hc, hi⟩ := Outcome.exists_of_mem_right made hm
    obtain ⟨_, _, _, he, -⟩ := exists_of_valueItem (once c hc) (aggregated c hc) hi
    cases he
  have key := Outcome.forall_iff_of_mem resolved fun n _ x found ↦
    (by simp [found] : (∀ y, query.findColumn? (d.quoted n) = some y →
      y.RowLevel (Relation.product engine query.sources).columns) ↔
        x.RowLevel (Relation.product engine query.sources).columns)
  have entry (level : ∀ x ∈ keys, x.RowLevel (Relation.product engine query.sources).columns) :=
    Outcome.forall_iff_of_mem made fun c hc i hi ↦
      groupLevel_valueItem level (plain c hc) (once c hc) (aggregated c hc) hi
  rw [QuerySpecification.validOverGroups_iff valid (clauses_of_hasAny clauses).1
    (clauses_of_hasAny clauses).2.1 selected listed (exists_reducing once aggregated ne made),
    ← key]
  constructor
  · rintro ⟨level, items, order⟩
    refine ⟨level, (entry (key.mp level)).mpr items, fun others same ↦ ?_⟩
    obtain rfl : keys = others := List.right_unique_forall₂'
      (fun _ _ _ h g ↦ Option.some.inj (h.symm.trans g)) resolved same
    exact order
  · rintro ⟨level, reads, order⟩
    exact ⟨level, (entry (key.mp level)).mp reads, order keys resolved⟩

/-- A query without groups, distinct rows and a range, grouped in place, has a row for each group of
its rows, if it can be grouped in place. -/
private theorem groupedBy_rows (ungrouped : query.isGrouped = false)
    (groupable : Groupable engine d query grouping aggregates) :
    ((query.groupedBy keys (kept ++ items)).rows engine).Perm
      (groupRows engine names grouping aggregates (query.seen engine)) ∧
    (query.seen engine).Perm (query.rows engine) := by
  obtain ⟨-, distinct, unskipped, unlimited⟩ := clauses_of_hasAny clauses
  have selected := selects.expressions_of_keys nodup resolved fewer labelled
  have level (x : Expression) (hx : x ∈ keys) :
      x.RowLevel (Relation.product engine query.sources).columns := by
    obtain ⟨name, hn, found⟩ := Outcome.exists_of_mem_right resolved hx
    exact groupable.keys name hn x found
  have grouped : (query.groupedBy keys (kept ++ items)).isGrouped = true := by
    obtain ⟨i, hi, reducing⟩ := exists_reducing once aggregated ne made
    exact QuerySpecification.isGrouped_iff.mpr
      (.inr (.inr ⟨i, List.mem_append_right _ hi, reducing⟩))
  have seen : (query.groupedBy keys (kept ++ items)).seen engine =
      groupRows engine names grouping aggregates (query.seen engine) :=
    seen_groupedBy selects resolved level plain once aggregated groupable.reads made selected
      ungrouped grouped
  have perm : (query.rows engine).Perm (query.selections engine) :=
    QuerySpecification.perm_selections unlimited unskipped
  have groups : ((query.groupedBy keys (kept ++ items)).rows engine).Perm
      ((query.groupedBy keys (kept ++ items)).selections engine) :=
    QuerySpecification.perm_selections unlimited unskipped
  have once : (query.groupedBy keys (kept ++ items)).select.distinct = false := distinct
  rw [QuerySpecification.selections, once, seen] at groups
  rw [QuerySpecification.selections, distinct] at perm
  exact ⟨groups, perm.symm⟩

end

/-- If a query is valid, a grouping of it by its columns is valid and computed of groups exactly if
the query is wrapped or can be grouped in place. If so, and the query is wrapped or makes no groups,
there is a row for each group of the rows of the query. -/
theorem grouped_rows (selects : query.Selects d names) (nodup : names.Nodup)
    (plain : ∀ c ∈ aggregates, c.map.expr.OfRows) (once : ∀ c ∈ aggregates, c.AggregatesOnce)
    (aggregated : ∀ c ∈ aggregates, c.aggregate.isSome = true) (ne : aggregates ≠ [])
    (valid : query.Valid engine) (made : grouped d grouping aggregates query = .ok result) :
    (result.ValidOverGroups engine ↔
      wrapsForGrouping query = true ∨ Groupable engine d query grouping aggregates) ∧
    (result.ValidOverGroups engine → wrapsForGrouping query = true ∨ query.isGrouped = false →
      ∃ seen : List (List V), seen.Perm (query.rows engine) ∧
        (result.rows engine).Perm (groupRows engine names grouping aggregates seen)) := by
  obtain ⟨inner, items, keys, kept, hw, hi, hk, ht, rfl⟩ := grouped_eq_ok.mp made
  obtain ⟨labelled, fewer⟩ := takeColumns_eq_ok ht
  have resolved : List.Forall₂ (fun n x ↦ inner.findColumn? (d.quoted n) = some x) grouping keys :=
    (Scope.resolveAll_eq_ok.mp hk).imp fun _ _ h ↦ (Scope.resolve_single.mp h).2
  change (QuerySpecification.ValidOverGroups engine (inner.groupedBy keys (kept ++ items)) ↔ _) ∧
    (QuerySpecification.ValidOverGroups engine (inner.groupedBy keys (kept ++ items)) → _)
  rcases wrapIf_eq_ok.mp hw with ⟨wraps, sub, hs, rfl⟩ | ⟨wraps, rfl⟩
  · obtain ⟨rows, keeps, rowWise⟩ := wrapped_rows engine selects nodup hs
    have all := selects.all hs
    have level {name : String} {x : Expression}
        (found : sub.all.findColumn? (d.quoted name) = some x) :
        x.RowLevel (Relation.product engine sub.all.sources).columns := by
      have item := QuerySpecification.mem_items_of_findColumn? found
      exact rowWise.outputs x (Sql.QuerySpecification.mem_outputs.mpr (.inl ⟨_, item, rfl⟩))
    have groupable : Groupable engine d sub.all grouping aggregates :=
      ⟨fun _ _ _ found ↦ level found,
        fun _ _ _ _ _ read ↦ level (Scope.resolve_single.mp read).2,
        fun _ _ _ hk ↦ absurd hk List.not_mem_nil⟩
    have grouped := groupedBy_rows all nodup rfl plain once aggregated ne hi resolved fewer labelled
      rowWise.isGrouped groupable
    rw [groupedBy_valid_iff all nodup rfl plain once aggregated ne hi resolved fewer labelled
      (keeps valid), ← rows]
    exact ⟨iff_of_true groupable (.inl wraps), fun _ _ ↦ ⟨_, grouped.2, grouped.1⟩⟩
  · have clauses := (Bool.or_eq_false_iff.mp wraps).1
    rw [groupedBy_valid_iff selects nodup clauses plain once aggregated ne hi resolved fewer
      labelled valid, wraps]
    refine ⟨(or_iff_right Bool.false_ne_true).symm, fun groupable separate ↦ ?_⟩
    have grouped := groupedBy_rows selects nodup clauses plain once aggregated ne hi resolved fewer
      labelled (separate.resolve_left Bool.false_ne_true) groupable
    exact ⟨_, grouped.2, grouped.1⟩

end QueryStep

/-! ### Groupings of frames -/

namespace Frame

open QueryStep (Groupable wrapsForGrouping)

/-- A grouping that is accepted has the aggregates that its closures compute. -/
private theorem groupBy_eq_ok {base frame : Frame} {new : List NewColumn}
    (evaluated : NewColumn.evaluateAll base.row "group_by" new = .ok aggregates)
    (accepted : base.groupBy grouping new = .ok frame) :
    frame = .grouped base grouping aggregates := by
  obtain ⟨_, -, rest⟩ := Outcome.bind_eq_ok.mp accepted
  obtain ⟨_, -, rest⟩ := Outcome.bind_eq_ok.mp rest
  obtain ⟨_, -, rest⟩ := Outcome.bind_eq_ok.mp rest
  cases hf : new.find? (·.aggregate.isNone) with
  | some column => simp [hf, fail, bind, Except.bind] at rest
  | none =>
    rw [hf] at rest
    obtain ⟨found, hc, made⟩ := Outcome.bind_eq_ok.mp rest
    rw [evaluated] at hc
    rw [Except.ok.inj hc]
    exact (Outcome.pure_eq_ok.mp made).symm

/-- If the query of a reachable frame is valid, every grouping of the frame that is accepted, reads
columns of the frame, and has aggregates, each a single call over what is computed of each row, has
a query. The query is valid and computed of its groups exactly if the query of the frame is wrapped
or can be grouped in place. If so, and the query of the frame is wrapped or makes no groups itself,
there is a row for each tuple of values of the grouping columns among the rows of the query of the
frame, with the aggregates of the rows that have it; without grouping columns there is one row. -/
theorem Reachable.groupBy_rows {base frame : Frame} {new : List NewColumn}
    (reachable : Reachable base) (made : base.toSql d = .ok query) (valid : query.Valid engine)
    (evaluated : NewColumn.evaluateAll base.row "group_by" new = .ok aggregates)
    (accepted : base.groupBy grouping new = .ok frame) (ne : aggregates ≠ [])
    (reads : ∀ c ∈ aggregates, c.ReadsFrom base.columnNames)
    (plain : ∀ c ∈ aggregates, c.map.expr.OfRows) (once : ∀ c ∈ aggregates, c.AggregatesOnce) :
    ∃ result, frame.toSql d = .ok result ∧
      (result.ValidOverGroups engine ↔
        wrapsForGrouping query = true ∨ Groupable engine d query grouping aggregates) ∧
      (result.ValidOverGroups engine → wrapsForGrouping query = true ∨ query.isGrouped = false →
        ∃ seen : List (List V), seen.Perm (query.rows engine) ∧
          (result.rows engine).Perm
            (groupRows engine base.columnNames grouping aggregates seen)) := by
  obtain rfl := groupBy_eq_ok evaluated accepted
  have checked := reachable.checked
  have selects := checked.selects made
  obtain ⟨known, nodup, aggregated⟩ : grouping ⊆ base.columnNames ∧ grouping.Nodup ∧
      ∀ c ∈ aggregates, c.aggregate.isSome = true := by
    cases (Reachable.groupBy reachable accepted).checked with
    | grouped _ known _ nodup aggregated =>
      exact ⟨known, (List.nodup_append.mp nodup).1, aggregated⟩
  obtain ⟨result, hr⟩ := QueryStep.succeeds_grouped selects known nodup reads
  exact ⟨result, Outcome.bind_eq_ok.mpr ⟨query, made, hr⟩, QueryStep.grouped_rows selects
    checked.columnNames_nodup plain once aggregated ne valid hr⟩

/-- The different numbers of a table, each with the sum of the numbers that are the same. -/
theorem Reachable.groupBy_rows_of_table :
    ∃ (engine : Engine Int) (base frame : Frame) (query result : QuerySpecification)
      (seen : List (List Int)),
      Reachable base ∧ base.toSql {} = .ok query ∧ query.Valid engine ∧
      base.groupBy ["c1"] [totalOfAmounts] = .ok frame ∧ frame.toSql {} = .ok result ∧
      result.ValidOverGroups engine ∧ seen.Perm (query.rows engine) ∧
      (result.rows engine).Perm (groupRows engine ["c1"] ["c1"] [amountsTotal] seen) := by
  have grouped : amounts.groupBy ["c1"] [totalOfAmounts] =
      .ok (.grouped amounts ["c1"] [amountsTotal]) := rfl
  have evaluated : NewColumn.evaluateAll amounts.row "group_by" [totalOfAmounts] =
      .ok [amountsTotal] := rfl
  have reachable := Reachable.table amounts_made
  have made : amounts.toSql {} =
      .ok (amountsQuery [.column (some "\"c1\"") amount] none) := rfl
  have valid : (amountsQuery [.column (some "\"c1\"") amount] none).Valid amountsEngine :=
    amountsQuery_valid_of_column _ nofun
  have groupable : Groupable amountsEngine {} (amountsQuery [.column (some "\"c1\"") amount] none)
      ["c1"] [amountsTotal] := by
    refine ⟨List.forall_mem_singleton.mpr fun x hx ↦ ?_, List.forall_mem_singleton.mpr <|
      List.forall_mem_singleton.mpr fun x hx ↦ ?_, fun _ _ _ hk ↦ absurd hk List.not_mem_nil⟩
    · rw [← Option.some.inj hx]
      exact amount_rowLevel
    · rw [← Except.ok.inj hx]
      exact amount_rowLevel
  obtain ⟨result, hr, hv, rows⟩ := reachable.groupBy_rows made valid evaluated grouped
    (List.cons_ne_nil _ _) amountsTotal_reads amountsTotal_plain amountsTotal_once
  have legal := hv.mpr (.inr groupable)
  obtain ⟨seen, perm, groups⟩ := rows legal (.inr (amountsQuery_isGrouped_of_column _ _))
  exact ⟨amountsEngine, _, _, _, result, seen, reachable, made, valid, grouped, hr, legal, perm,
    groups⟩

/-- The sum of all numbers is computed without a grouping key, so that what is grouped by the sum
and counts the sums is put next to it instead of around it: the sum is aggregated again. -/
theorem Reachable.exists_groupBy_not_valid :
    ∃ (engine : Engine Int) (base frame : Frame) (query result : QuerySpecification),
      Reachable base ∧ base.toSql {} = .ok query ∧ query.Valid engine ∧
      base.groupBy ["total"] [⟨"n", (·.get "total"), some (·.aggregate .count)⟩] = .ok frame ∧
      frame.toSql {} = .ok result ∧ ∃ x ∈ result.outputs,
        ¬x.GroupLevel (Relation.product engine result.sources).columns result.groupBy := by
  have summed : amounts.groupBy [] [totalOfAmounts] =
      .ok (.grouped amounts [] [amountsTotal]) := rfl
  have total : (amountsQuery [.column (some "\"total\"") amountSum] none).Valid amountsEngine :=
    amountsQuery_valid_of_sum (by simp) List.mem_cons_self
      (List.forall_mem_singleton.mpr amountSum_groupLevel)
  refine ⟨amountsEngine, _, _, _, _, .groupBy (.table amounts_made) summed, rfl, total, rfl, rfl,
    .extension (.aggregate .count amountSum), List.mem_cons_of_mem _ List.mem_cons_self,
    fun level ↦ ?_⟩
  rcases level.of_not_operator rfl with key | ⟨-, operands⟩
  · exact absurd (List.mem_singleton.mp key) nofun
  · exact Expression.not_rowLevel_of_isAggregate rfl (operands amountSum List.mem_cons_self)

end Frame

end FrameQuery
