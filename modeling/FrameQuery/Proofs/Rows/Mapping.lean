import FrameQuery.Proofs.Frame.Renaming
import FrameQuery.Proofs.Rows.Extending

/-!
# Rows computed one by one

Projections, extensions with plain columns and renamings make one row of each row, in the same order
and number. A projection selects from the wrapped query, so that each row is computed from one row
of that; an extension computes its columns where the rows of the query are made, and a renaming
changes labels alone. Either way an expression that a closure computes has the value that it has on
the row when the columns are read from that row.
-/

namespace FrameQuery

open Sql (Dialect Engine Expression Place QuerySpecification Relation SelectItem SortItem SubQuery)

variable {V : Type} [DecidableEq V] {engine : Engine V} {d : Dialect}
  {query inner result : QuerySpecification} {names : List String}

/-! ### Blocks with another select list -/

namespace Sql.QuerySpecification

variable {items : List SelectItem} {columns : List (List String)}

/-- A query that selects names has rows under these names. -/
theorem Selects.contents_eq (selects : query.Selects d names) :
    query.contents engine = ⟨names.map ([d.quoted ·]), query.rows engine⟩ := by
  have columns : (query.contents engine).columns = (names.map d.quoted).map ([·]) :=
    columns_of_labels selects
  rw [List.map_map] at columns
  exact congrArg₂ Table.mk columns rfl

/-- Entries that are listed select the values of their expressions. -/
theorem values_of_listed (listed : ∀ relation, SelectItem.allColumns relation ∉ items)
    (place : Place V) : items.flatMap (·.values engine place) =
      (items.filterMap (·.expression?)).map (·.value engine place) := by
  refine values_of_expressions ?_
  rw [List.map_filterMap_some_eq_filter_map_isSome, eq_comm, List.filter_eq_self]
  refine List.forall_mem_map.mpr fun item hm ↦ ?_
  cases item with
  | allColumns relation => exact absurd hm (listed relation)
  | column label x => rfl

section

variable (same : items.filterMap (·.expression?) = query.items.filterMap (·.expression?))
  (listed : ∀ relation, SelectItem.allColumns relation ∉ items)

include same

omit [DecidableEq V] in
/-- A block with other labels for its expressions computes the same. -/
private theorem outputs_relabelled : (query.withItems items).outputs = query.outputs :=
  congrArg (· ++ query.orderBy.map (·.key)) same

omit [DecidableEq V] in
/-- It makes groups if the block does. -/
private theorem isGrouped_relabelled : (query.withItems items).isGrouped = query.isGrouped := by
  rw [isGrouped, isGrouped, ← same]
  rfl

include listed

/-- A valid block stays valid with other labels for its expressions. -/
theorem Valid.relabelled (valid : query.Valid engine) : (query.withItems items).Valid engine := by
  obtain ⟨legal, sources⟩ := valid_iff.mp valid
  have level : (query.withItems items).Level = query.Level := by
    funext columns
    rw [Level, Level, isGrouped_relabelled same]
    rfl
  refine valid_iff.mpr ⟨⟨legal.filter, legal.groupBy, legal.having, fun x hx ↦ ?_, fun _ ↦ listed,
    fun h k hk ↦ ?_, legal.limit, legal.offset⟩, sources⟩
  · rw [outputs_relabelled same] at hx
    rw [level]
    exact legal.outputs x hx
  · have selected : k.key ∈ query.items.filterMap (·.expression?) :=
      List.mem_filterMap.mpr (legal.distinct h k hk)
    rw [← same] at selected
    exact List.mem_filterMap.mp selected

/-- A block has the same rows with other labels for its expressions. -/
theorem rows_relabelled (known : ∀ relation, SelectItem.allColumns relation ∉ query.items) :
    (query.withItems items).rows engine = query.rows engine := by
  have places : (query.withItems items).places engine = query.places engine :=
    places_congr rfl rfl rfl rfl (isGrouped_relabelled same)
  refine (rows_map (f := id) places rfl rfl rfl rfl (fun _ ↦ Function.injective_id)
    fun p _ ↦ ?_).trans (List.map_id _)
  change items.flatMap _ = query.items.flatMap _
  rw [values_of_listed listed, values_of_listed known, same]

end

/-- A block that computes row by row does so with any select list over its columns. -/
theorem RowWise.withItems (rowWise : query.RowWise columns)
    (level : ∀ i ∈ items, ∀ x, i.expression? = some x → x.RowLevel columns) :
    (query.withItems items).RowWise columns where
  groupBy := rowWise.groupBy
  having := rowWise.having
  limit := rowWise.limit
  offset := rowWise.offset
  outputs x hx := by
    rcases mem_outputs.mp hx with ⟨i, hi, he⟩ | sorted
    · exact level i hi x he
    · exact rowWise.outputs x (mem_outputs.mpr (.inr sorted))

/-- If such a block is valid and keeps all of its rows, it is valid with any select list over its
columns. -/
theorem Valid.withItems (valid : query.Valid engine)
    (rowWise : query.RowWise (Relation.product engine query.sources).columns)
    (all : query.select.distinct = false)
    (level : ∀ i ∈ items, ∀ x, i.expression? = some x →
      x.RowLevel (Relation.product engine query.sources).columns) :
    (query.withItems items).Valid engine := by
  obtain ⟨legal, sources⟩ := valid_iff.mp valid
  have other := rowWise.withItems level
  refine valid_iff.mpr ⟨⟨legal.filter, legal.groupBy, legal.having, fun x hx ↦ ?_, fun h ↦ ?_,
    fun h ↦ ?_, legal.limit, legal.offset⟩, sources⟩
  · rw [Level, other.isGrouped]
    exact .atom (.inl (other.outputs x hx))
  · rw [other.isGrouped] at h
    cases h
  · exact absurd (all.symm.trans h) Bool.false_ne_true

end Sql.QuerySpecification

/-! ### Steps -/

/-- The value of a plain column on a row, which is read under names. -/
def ComputedColumn.valueOn (engine : Engine V) (names : List String) (row : List V)
    (c : ComputedColumn) : V :=
  c.map.expr.value engine (rowReader engine names row)

namespace QueryStep

variable {new : List ComputedColumn} {pairs : List (String × String)}

/-- A projection of a valid query is valid and has, for each row of the query, the values of its
columns on the row. -/
theorem projected_rows (plain : ∀ c ∈ new, c.map.expr.OfRows) (selects : query.Selects d names)
    (nodup : names.Nodup) (valid : query.Valid engine) (made : projected d new query = .ok result) :
    result.Valid engine ∧ result.rows engine = (query.rows engine).map fun row ↦
      new.map (·.valueOn engine names row) := by
  obtain ⟨sub, items, hs, hi, rfl⟩ := projected_eq_ok.mp made
  obtain ⟨rows, keeps, rowWise⟩ := wrapped_rows engine selects nodup hs
  have written (c : ComputedColumn) (i : SelectItem)
      (h : valueItem (.single d sub.all) { c with aggregate := none } = .ok i) :
      ∃ x, c.map.expr.toSql (.single d sub.all) = .ok x ∧ i = item d c.name x :=
    valueItem_eq_ok.mp h
  have level : ∀ i ∈ items, ∀ x, i.expression? = some x →
      x.RowLevel (Relation.product engine sub.all.sources).columns := by
    intro i hm x hx
    obtain ⟨c, hc, h⟩ := Outcome.exists_of_mem_right hi hm
    obtain ⟨y, hy, rfl⟩ := written c i h
    rw [← Option.some.inj hx, Expr.rowLevel_toSql hy]
    exact ⟨plain c hc, fun column _ z hz ↦ rowWise.outputs z (Scope.outputs_of_resolve hz)⟩
  have other := rowWise.withItems level
  refine ⟨(keeps valid).withItems rowWise rfl level, ?_⟩
  have places : (sub.all.withItems items).places engine = sub.all.places engine :=
    QuerySpecification.places_congr rfl rfl rfl rfl (other.isGrouped.trans rowWise.isGrouped.symm)
  rw [← rows]
  refine QuerySpecification.rows_map places rfl rfl rfl rfl nofun fun p _ ↦ ?_
  refine QuerySpecification.flatMap_values hi fun c hc i h ↦ ?_
  obtain ⟨y, hy, rfl⟩ := written c i h
  exact congrArg ([·]) ((selects.all hs).value_toSql (plain c hc) hy)

/-- A renamed entry has the expression of the entry. -/
theorem renamedItem_expression? {i r : SelectItem}
    (made : renamedItem pairs i = .ok r) : i.expression? = r.expression? ∧
      (∀ relation, i ≠ .allColumns relation) ∧ ∀ relation, r ≠ .allColumns relation := by
  cases i with
  | allColumns relation => exact absurd made Outcome.fail_ne_ok
  | column label x =>
    rw [← Except.ok.inj made]
    exact ⟨rfl, nofun, nofun⟩

/-- Renamed entries have the expressions of the entries. -/
theorem expressions_renamed {before after : List SelectItem}
    (made : List.Forall₂ (fun i r ↦ renamedItem pairs i = .ok r) before after) :
    after.filterMap (·.expression?) = before.filterMap (·.expression?) := by
  induction made with
  | nil => rfl
  | cons h _ ih => rw [List.filterMap_cons, List.filterMap_cons, (renamedItem_expression? h).1, ih]

/-- A renaming of a valid query is valid and has the rows of the query. -/
theorem renamed_rows (valid : query.Valid engine) (made : renamed d pairs query = .ok result) :
    result.Valid engine ∧ result.rows engine = query.rows engine := by
  obtain ⟨items, hi, rfl⟩ := renamed_eq_ok.mp made
  have same := expressions_renamed hi
  have known (relation : Option String) : SelectItem.allColumns relation ∉ query.items := by
    intro hm
    obtain ⟨r, -, h⟩ := Outcome.exists_of_mem_right hi.flip hm
    exact (renamedItem_expression? h).2.1 relation rfl
  have listed (relation : Option String) : SelectItem.allColumns relation ∉ items := by
    intro hm
    obtain ⟨i, -, h⟩ := Outcome.exists_of_mem_right hi hm
    exact (renamedItem_expression? h).2.2 relation rfl
  exact ⟨valid.relabelled same listed, QuerySpecification.rows_relabelled same listed known⟩

/-- An extension of a valid query with plain columns is valid and has, behind each row of the query,
the values of its columns on the row. -/
theorem extended_rows_of_plain (plain : ∀ c ∈ new, c.map.expr.OfRows)
    (alone : ∀ c ∈ new, c.aggregate = none) (selects : query.Selects d names)
    (nodup : names.Nodup) (valid : query.Valid engine) (made : extended d new query = .ok result) :
    result.Valid engine ∧ result.rows engine = (query.rows engine).map fun row ↦
      row ++ new.map (·.valueOn engine names row) := by
  have once : ∀ c ∈ new, c.AggregatesOnce := by
    intro c hc aggregate ha
    rw [alone c hc] at ha
    cases ha
  obtain ⟨seen, legal, rows, -⟩ := extended_rows plain once selects nodup valid made
  refine ⟨legal.mpr (.inr fun c hc aggregated ↦ ?_), ?_⟩
  · rw [alone c hc] at aggregated
    cases aggregated
  · rw [rows]
    refine List.map_congr_left fun row _ ↦ congrArg (row ++ ·) (List.map_congr_left fun c hc ↦ ?_)
    have value : c.value = c.map := by
      rw [ComputedColumn.value, alone c hc]
      rfl
    rw [ComputedColumn.valueOver, ComputedColumn.valueOn, value]
    exact Expr.valueOver_of_ofRows (plain c hc) _ _

end QueryStep

/-! ### Frames -/

namespace Frame

/-- A frame has a valid query, which yields some rows under names. -/
def Yields (engine : Engine V) (d : Dialect) (frame : Frame) (names : List String)
    (rows : List (List V)) : Prop :=
  ∃ query : QuerySpecification, frame.toSql d = .ok query ∧ query.Valid engine ∧
    query.contents engine = ⟨names.map ([d.quoted ·]), rows⟩

/-- A projection that is accepted has the columns that its closures compute. -/
private theorem project_eq_ok {base frame : Frame} {new : List NewColumn}
    {columns : List ComputedColumn}
    (evaluated : NewColumn.evaluateAll base.row "project" new = .ok columns)
    (accepted : base.project new = .ok frame) : frame = .projected base columns := by
  obtain ⟨_, -, rest⟩ := Outcome.bind_eq_ok.mp accepted
  obtain ⟨_, -, rest⟩ := Outcome.bind_eq_ok.mp rest
  split at rest
  · exact absurd rest Outcome.fail_ne_ok
  · obtain ⟨found, hf, made⟩ := Outcome.bind_eq_ok.mp rest
    rw [evaluated] at hf
    rw [Except.ok.inj hf]
    exact (Outcome.pure_eq_ok.mp made).symm

/-- What a frame yields under its columns. -/
theorem Checked.yields {frame : Frame} {rows : List (List V)} (checked : Checked frame)
    (made : frame.toSql d = .ok query) (valid : query.Valid engine)
    (same : query.rows engine = rows) : frame.Yields engine d frame.columnNames rows :=
  ⟨query, made, valid, same ▸ (checked.selects made).contents_eq⟩

/-- If the query of a reachable frame is valid, it yields its rows under the names of the columns of
the frame. Every projection, every extension with plain columns and every renaming of the frame that
is accepted has a valid query, if it reads columns of the frame and is computed from the row alone.
For each of these rows, in the same order and number, a projection yields the values of its columns
on the row, an extension the row with these values behind it, and a renaming the row under the new
names. -/
theorem Reachable.yields_row_by_row {base : Frame} (reachable : Reachable base)
    (made : base.toSql d = .ok query) (valid : query.Valid engine) :
    base.Yields engine d base.columnNames (query.rows engine) ∧
      (∀ (new : List NewColumn) (columns : List ComputedColumn) (frame : Frame),
        NewColumn.evaluateAll base.row "project" new = .ok columns →
        base.project new = .ok frame → (∀ c ∈ columns, c.ReadsFrom base.columnNames) →
        (∀ c ∈ columns, c.map.expr.OfRows) →
        frame.Yields engine d (new.map (·.name)) ((query.rows engine).map fun row ↦
          columns.map (·.valueOn engine base.columnNames row))) ∧
      (∀ (new : List NewColumn) (columns : List ComputedColumn) (frame : Frame),
        NewColumn.evaluateAll base.row "extend" new = .ok columns →
        base.extend new = .ok frame → (∀ n ∈ new, n.aggregate = none) →
        (∀ c ∈ columns, c.ReadsFrom base.columnNames) → (∀ c ∈ columns, c.map.expr.OfRows) →
        frame.Yields engine d (base.columnNames ++ new.map (·.name))
          ((query.rows engine).map fun row ↦
            row ++ columns.map (·.valueOn engine base.columnNames row))) ∧
      ∀ (pairs : List (String × String)) (frame : Frame), base.rename pairs = .ok frame →
        frame.Yields engine d (base.columnNames.map (substituted pairs)) (query.rows engine) := by
  have checked := reachable.checked
  have selects := checked.selects made
  have nodup := checked.columnNames_nodup
  refine ⟨checked.yields made valid rfl, ?_, ?_, ?_⟩
  · intro new columns frame evaluated accepted reads plain
    obtain ⟨result, hr⟩ := QueryStep.succeeds_projected selects reads
    obtain ⟨legal, rows⟩ := QueryStep.projected_rows plain selects nodup valid hr
    have names := computed_names (NewColumn.evaluateAll_eq_ok evaluated)
    obtain rfl := project_eq_ok evaluated accepted
    have yields := (checked_project checked accepted).yields
      (Outcome.bind_eq_ok.mpr ⟨query, made, hr⟩) legal rows
    rwa [columnNames_projected, names] at yields
  · intro new columns frame evaluated accepted alone reads plain
    have each : ∀ c ∈ columns, c.aggregate = none := by
      intro c hc
      obtain ⟨n, hn, same⟩ := computed_aggregates (NewColumn.evaluateAll_eq_ok evaluated) hc
      rw [alone n hn] at same
      exact Option.isNone_iff_eq_none.mp (Option.isSome_eq_false_iff.mp same)
    obtain ⟨result, hr⟩ := QueryStep.succeeds_extended selects reads
    obtain ⟨legal, rows⟩ := QueryStep.extended_rows_of_plain plain each selects nodup valid hr
    have names := computed_names (NewColumn.evaluateAll_eq_ok evaluated)
    obtain rfl := extend_eq_ok evaluated accepted
    have yields := (checked_extend checked accepted).yields
      (Outcome.bind_eq_ok.mpr ⟨query, made, hr⟩) legal rows
    rwa [columnNames_extended, names] at yields
  · intro pairs frame accepted
    obtain ⟨result, hr⟩ := QueryStep.succeeds_renamed selects pairs
    obtain ⟨legal, rows⟩ := QueryStep.renamed_rows valid hr
    obtain rfl := rename_eq_ok accepted
    have yields := (checked_rename checked accepted).yields
      (Outcome.bind_eq_ok.mpr ⟨query, made, hr⟩) legal rows
    rwa [columnNames_renamed] at yields

/-- The number behind another one is larger by one. -/
private theorem amountsNext_valueOn (n : Int) :
    amountsNext.valueOn amountsEngine ["c1"] [n] = n + 1 := by
  have one : (Constant.integer 1).value amountsEngine = 1 := Expression.value_literal _
  show BinaryOperator.add.value amountsEngine n ((Constant.integer 1).value amountsEngine) = _
  rw [one]
  rfl

/-- The first two of three numbers: the numbers behind them alone, with them, and under another
name. The limit is applied first. -/
theorem Reachable.yields_row_by_row_of_limited :
    ∃ (engine : Engine Int) (base projected extended renamed : Frame),
      Reachable base ∧ base.Yields engine {} ["c1"] [[1], [2]] ∧
      base.project [nextAmount] = .ok projected ∧ projected.Yields engine {} ["x"] [[2], [3]] ∧
      base.extend [nextAmount] = .ok extended ∧
      extended.Yields engine {} ["c1", "x"] [[1, 2], [2, 3]] ∧
      base.rename [("c1", "n")] = .ok renamed ∧ renamed.Yields engine {} ["n"] [[1], [2]] := by
  have made : (Frame.limited amounts 2).toSql {} = .ok firstAmountsQuery := rfl
  have evaluated (function : String) :
      NewColumn.evaluateAll (Frame.limited amounts 2).row function [nextAmount] =
        .ok [amountsNext] := rfl
  have projected : (Frame.limited amounts 2).project [nextAmount] =
      .ok (.projected (.limited amounts 2) [amountsNext]) := rfl
  have extended : (Frame.limited amounts 2).extend [nextAmount] =
      .ok (.extended (.limited amounts 2) [amountsNext]) := rfl
  have renamed : (Frame.limited amounts 2).rename [("c1", "n")] =
      .ok (.renamed (.limited amounts 2) [("c1", "n")]) := rfl
  have column : Expr.ReadsFrom [(.right, ["c1"])] amountsNext.map.expr :=
    List.forall_mem_singleton.mpr ⟨["c1"], List.mem_cons_self, List.mem_cons_self⟩
  have reads : ∀ c ∈ [amountsNext], c.ReadsFrom ["c1"] :=
    List.forall_mem_singleton.mpr ⟨column, nofun⟩
  have plain : ∀ c ∈ [amountsNext], c.map.expr.OfRows := List.forall_mem_singleton.mpr ⟨rfl, rfl⟩
  obtain ⟨all, projections, extensions, renamings⟩ :=
    firstAmounts.yields_row_by_row made firstAmountsQuery_valid
  have alone := projections _ _ _ (evaluated "project") projected reads plain
  have behind := extensions _ _ _ (evaluated "extend") extended
    (List.forall_mem_singleton.mpr rfl) reads plain
  have names := renamings _ _ renamed
  rw [firstAmountsQuery_rows] at all alone behind names
  let next (n : Int) : Int := amountsNext.valueOn amountsEngine ["c1"] [n]
  have first : next 1 = 2 := amountsNext_valueOn 1
  have second : next 2 = 3 := amountsNext_valueOn 2
  have nexts : [[next 1], [next 2]] = [[2], [3]] ∧
      [[1, next 1], [2, next 2]] = [[1, 2], [2, 3]] := by
    rw [first, second]
    exact ⟨rfl, rfl⟩
  refine ⟨amountsEngine, _, _, _, _, firstAmounts, all, projected, ?_, extended, ?_, renamed, names⟩
  · rw [← nexts.1]
    exact alone
  · rw [← nexts.2]
    exact behind

end Frame

end FrameQuery
