import FrameQuery.Proofs.Frame.Success
import FrameQuery.Proofs.Rows.Aggregates
import FrameQuery.Proofs.Rows.Paging

/-!
# Rows with further columns

An extension puts its columns behind those of the query of a frame, which is wrapped first only if
it has grouping keys. An aggregate among the columns is called over the window of all rows. Windows
are computed before rows are kept once and cut to a range, so that the aggregate of a query that is
not wrapped is one of the rows that the query has without these clauses.
-/

namespace FrameQuery

open Sql (Dialect Engine Expression Place QuerySpecification Relation SelectItem SortItem SubQuery)

variable {V : Type} [DecidableEq V] {engine : Engine V} {d : Dialect}
  {query inner result : QuerySpecification} {names : List String}

/-! ### Blocks with further columns -/

namespace Sql.QuerySpecification

/-- A block without the clauses that come after windows are computed, apart from its order. -/
def unclipped (query : QuerySpecification) : QuerySpecification :=
  { query with select := { query.select with distinct := false }, limit := none, offset := none }

variable {items : List SelectItem}

omit [DecidableEq V] in
/-- What a block with further entries selects and sorts by. -/
private theorem mem_outputs_append {x : Expression} :
    x ∈ (query.withItems (query.items ++ items)).outputs ↔
      x ∈ query.outputs ∨ ∃ i ∈ items, i.expression? = some x := by
  have all : (query.withItems (query.items ++ items)).items = query.items ++ items := rfl
  rw [mem_outputs, mem_outputs, all]
  simp only [List.mem_append, or_and_right, exists_or]
  exact or_right_comm

omit [DecidableEq V] in
/-- Entries that do not reduce rows leave a block that makes no groups as it is. -/
theorem isGrouped_append (none : query.isGrouped = false →
      ∀ i ∈ items, ∀ x, i.expression? = some x → x.reduces = false) :
    (query.withItems (query.items ++ items)).isGrouped = query.isGrouped := by
  rw [Bool.eq_iff_iff, isGrouped_iff]
  constructor
  · rintro (keys | groups | ⟨i, hi, x, hx, reduces⟩)
    · exact isGrouped_iff.mpr (.inl keys)
    · exact isGrouped_iff.mpr (.inr (.inl groups))
    · rcases List.mem_append.mp hi with hi | hi
      · exact isGrouped_iff.mpr (.inr (.inr ⟨i, hi, x, hx, reduces⟩))
      · refine eq_true_of_ne_false fun ungrouped ↦ ?_
        rw [none ungrouped i hi x hx] at reduces
        cases reduces
  · intro grouped
    refine (isGrouped_iff.mp grouped).imp_right (.imp_right ?_)
    rintro ⟨i, hi, reducing⟩
    exact ⟨i, List.mem_append_left _ hi, reducing⟩

/-- A valid block stays valid with further entries exactly if these may be selected. -/
theorem Valid.append_iff (valid : query.Valid engine)
    (grouped : (query.withItems (query.items ++ items)).isGrouped = query.isGrouped)
    (listed : ∀ relation, SelectItem.allColumns relation ∉ items) :
    (query.withItems (query.items ++ items)).Valid engine ↔
      ∀ i ∈ items, ∀ x, i.expression? = some x →
        x.OutputLevel (query.Level (Relation.product engine query.sources).columns) := by
  obtain ⟨legal, sources⟩ := valid_iff.mp valid
  have level : (query.withItems (query.items ++ items)).Level = query.Level := by
    funext columns
    rw [Level, Level, grouped]
    rfl
  refine valid_iff.trans ((and_iff_left sources).trans ?_)
  constructor
  · intro extended i hi x hx
    rw [← level]
    exact extended.outputs x (mem_outputs_append.mpr (.inr ⟨i, hi, hx⟩))
  · intro each
    refine ⟨legal.filter, legal.groupBy, legal.having, fun x hx ↦ ?_, fun h relation hm ↦ ?_,
      fun h k hk ↦ ?_, legal.limit, legal.offset⟩
    · rw [level]
      rcases mem_outputs_append.mp hx with known | ⟨i, hi, he⟩
      · exact legal.outputs x known
      · exact each i hi x he
    · rcases List.mem_append.mp hm with hm | hm
      · exact legal.listed (grouped ▸ h) relation hm
      · exact listed relation hm
    · obtain ⟨i, hi, he⟩ := legal.distinct h k hk
      exact ⟨i, List.mem_append_left _ hi, he⟩

end Sql.QuerySpecification

/-! ### Written columns -/

namespace QueryStep

variable {c : ComputedColumn} {item : SelectItem}

/-- What is written as an expression over rows reduces rows only if the query does. -/
private theorem reduces_toSql {e : Expr} {x : Expression} (plain : e.OfRows)
    (made : e.toSql (.single d query) = .ok x) (ungrouped : query.isGrouped = false) :
    x.reduces = false := by
  refine Expression.reduces_eq_false_iff.mpr
    ((Expr.composed_toSql (fun y hy ↦ hy.1) made plain).mpr fun column _ z hz ↦ ?_)
  refine Expression.reduces_eq_false_iff.mp (eq_false_of_ne_true fun reduces ↦ ?_)
  have item := QuerySpecification.mem_items_of_findColumn? (Scope.resolve_single.mp hz).2
  rw [QuerySpecification.isGrouped_iff.mpr (.inr (.inr ⟨_, item, z, rfl, reduces⟩))] at ungrouped
  cases ungrouped

section

variable (plain : c.map.expr.OfRows) (once : c.AggregatesOnce)
  (made : newItem (.single d query) c = .ok item)

include plain once made

omit [DecidableEq V] in
/-- A written column reduces rows only if the query does. -/
private theorem reduces_newItem (ungrouped : query.isGrouped = false) (x : Expression)
    (hx : item.expression? = some x) : x.reduces = false := by
  rcases newItem_eq_ok.mp made with ⟨-, y, hy, rfl⟩ | ⟨aggregate, ha, y, hy, rfl⟩
  · rw [← Option.some.inj hx]
    exact reduces_toSql plain hy ungrouped
  · obtain ⟨z, constants, hz, -, -, operands⟩ := (once aggregate ha).toSql_eq_ok hy
    have parts : (Expression.window y .whole).parts = z :: constants.map .literal := by
      rw [Expression.parts, operands]
      exact List.append_nil _
    rw [← Option.some.inj hx, Expression.reduces_eq, parts]
    have literals : (constants.map Expression.literal).any (·.reduces) = false := by
      rw [List.any_map, List.any_eq_false]
      intro value _
      have level : (Expression.literal value).RowLevel [] := Expression.rowLevel_literal value
      exact ne_true_of_eq_false level.reduces_eq_false
    rw [List.any_cons, reduces_toSql plain hz ungrouped, literals]
    rfl

omit [DecidableEq V] in
/-- A written column of a query without grouping keys may be selected exactly if it is no aggregate,
or aggregates what is computed before functions are called over windows. -/
private theorem outputLevel_newItem {columns : List (List String)} (keys : query.groupBy = [])
    (outputs : ∀ x ∈ query.outputs, x.OutputLevel (query.Level columns)) :
    (∀ x, item.expression? = some x → x.OutputLevel (query.Level columns)) ↔
      (c.aggregate.isSome = true → c.map.expr.ReadsAt d query (query.Level columns)) := by
  obtain ⟨atomic, windowless⟩ := query.levelAtom_plain columns
  have level := query.level_eq keys columns
  rw [level] at outputs ⊢
  rcases newItem_eq_ok.mp made with ⟨none, y, hy, rfl⟩ | ⟨aggregate, ha, y, hy, rfl⟩
  · refine iff_of_true (fun x hx ↦ ?_) (fun some ↦ ?_)
    · rw [← Option.some.inj hx]
      refine Expression.outputLevel_composed.mpr ((Expr.composed_toSql
        (Expression.atomic_output atomic) hy plain).mpr fun column _ z hz ↦ ?_)
      exact Expression.outputLevel_composed.mp (outputs z (Scope.outputs_of_resolve hz))
    · rw [none] at some
      cases some
  · obtain ⟨z, constants, hz, -, called, operands⟩ := (once aggregate ha).toSql_eq_ok hy
    have item : (∀ x, (QueryStep.item (Scope.single d query).dialect c.name
        (.window y .whole)).expression? = some x →
          x.OutputLevel (Expression.Composed (query.IsLevelAtom columns))) ↔
        (Expression.window y .whole).OutputLevel
          (Expression.Composed (query.IsLevelAtom columns)) := by
      simp [QueryStep.item, SelectItem.expression?]
    rw [item, Expression.outputLevel_whole windowless called, operands, List.forall_mem_cons,
      Expr.composed_toSql atomic hz plain, ha]
    simp [Expr.ReadsAt, Expression.composed_literal]

/-- At a place of a query a written column has its value on the row there, and reduces what the
query selects at all of its places. -/
private theorem values_newItem (selects : query.Selects d names) {place : Place V}
    (known : place ∈ query.places engine) :
    item.values engine place =
      [c.valueOver engine names (query.seen engine) (query.output engine place).1] := by
  have values (p : Place V) {x : Expression} (hx : c.map.expr.toSql (.single d query) = .ok x) :
      x.value engine p =
        c.map.expr.value engine (rowReader engine names (query.output engine p).1) :=
    selects.value_toSql plain hx
  rcases newItem_eq_ok.mp made with ⟨none, y, hy, rfl⟩ | ⟨aggregate, ha, y, hy, rfl⟩
  · have value : c.value = c.map := by rw [ComputedColumn.value, none]; rfl
    rw [ComputedColumn.valueOver, value, Expr.valueOver_of_ofRows plain, ← values place hy]
    rfl
  · have value : c.value = aggregate := by rw [ComputedColumn.value, ha]; rfl
    obtain ⟨z, constants, hz, reduces, -, -⟩ := (once aggregate ha).toSql_eq_ok hy
    have reduced := (once aggregate ha).value_toSql hy hz
      (rowReader engine names (query.output engine place).1)
      fun p (_ : p ∈ query.places engine) ↦ values p hz
    have all : Place.all place.groups = query.places engine :=
      congrArg Place.all (Place.groups_of_mem_all known)
    rw [ComputedColumn.valueOver, value, QuerySpecification.seen, List.map_map]
    refine congrArg ([·]) (Eq.trans (Expression.value_whole reduces place) ?_)
    rw [all, reduced]
    rfl

end

section

variable {new : List ComputedColumn} {items : List SelectItem}
  (plain : ∀ c ∈ new, c.map.expr.OfRows) (once : ∀ c ∈ new, c.AggregatesOnce)
  (made : List.Forall₂ (fun n i ↦ newItem (.single d query) n = .ok i) new items)

include plain once made

omit [DecidableEq V] in
/-- Written columns leave the groups of a query as they are. -/
private theorem isGrouped_newItems :
    (query.withItems (query.items ++ items)).isGrouped = query.isGrouped := by
  refine QuerySpecification.isGrouped_append fun ungrouped i hi x hx ↦ ?_
  obtain ⟨c, hc, written⟩ := Outcome.exists_of_mem_right made hi
  exact reduces_newItem (plain c hc) (once c hc) written ungrouped x hx

/-- A valid query without grouping keys stays valid with further columns exactly if aggregates among
them are of what is computed before functions are called over windows. -/
private theorem appended_valid_iff (valid : query.Valid engine) (keys : query.groupBy = []) :
    (query.withItems (query.items ++ items)).Valid engine ↔
      ∀ c ∈ new, c.aggregate.isSome = true →
        c.map.expr.ReadsAt d query
          (query.Level (Relation.product engine query.sources).columns) := by
  have listed (relation : Option String) : SelectItem.allColumns relation ∉ items := by
    intro hm
    obtain ⟨c, -, written⟩ := Outcome.exists_of_mem_right made hm
    rcases newItem_eq_ok.mp written with ⟨-, y, -, he⟩ | ⟨aggregate, -, y, -, he⟩ <;> cases he
  rw [valid.append_iff (isGrouped_newItems plain once made) listed]
  refine (Outcome.forall_iff_of_mem made fun c hc i written ↦ ?_).symm
  exact (outputLevel_newItem (plain c hc) (once c hc) written keys
    (QuerySpecification.valid_iff.mp valid).1.outputs).symm

variable (engine) in
/-- Further columns are put behind each row of a query; aggregates among them reduce what the query
selects at all of its places. -/
private theorem appended_rows (selects : query.Selects d names) :
    (query.withItems (query.items ++ items)).rows engine = (query.rows engine).map fun row ↦
      row ++ new.map (·.valueOver engine names (query.seen engine) row) := by
  have places : (query.withItems (query.items ++ items)).places engine = query.places engine :=
    QuerySpecification.places_congr rfl rfl rfl rfl (isGrouped_newItems plain once made)
  refine QuerySpecification.rows_map places rfl rfl rfl rfl (fun _ a b same ↦ ?_) fun p hp ↦ ?_
  · exact (List.append_inj' same (by simp)).1
  · have further := QuerySpecification.flatMap_values made fun c hc i written ↦
      values_newItem (plain c hc) (once c hc) written selects hp
    rw [← further]
    exact List.flatMap_append

omit made

/-- If a query is valid, an extension of it is valid exactly if it is wrapped or aggregates what is
computed before functions are called over windows. It has the rows of the query with the further
columns; aggregates among these reduce the rows of the query, if the query is wrapped or neither
keeps rows once nor has a range, and otherwise the rows that it has without these clauses. -/
theorem extended_rows (selects : query.Selects d names) (nodup : names.Nodup)
    (valid : query.Valid engine) (written : extended d new query = .ok result) :
    ∃ seen : List (List V),
      (result.Valid engine ↔ query.has .groupBy = true ∨
        ∀ c ∈ new, c.aggregate.isSome = true → c.map.expr.ReadsAt d query
          (query.Level (Relation.product engine query.sources).columns)) ∧
      result.rows engine = ((query.rows engine).map fun row ↦
        row ++ new.map (·.valueOver engine names seen row)) ∧
      (query.has .groupBy = true ∨ query.hasAny [.distinct, .offset, .limit] = false →
        seen.Perm (query.rows engine)) ∧
      (query.has .groupBy = false → seen.Perm (query.unclipped.rows engine)) := by
  obtain ⟨inner, items, hw, made, rfl⟩ := extended_eq_ok.mp written
  rcases wrapIf_eq_ok.mp hw with ⟨wraps, sub, hs, rfl⟩ | ⟨wraps, rfl⟩
  · obtain ⟨rows, keeps, rowWise⟩ := wrapped_rows engine selects nodup hs
    have all : sub.all.seen engine = query.rows engine := by
      rw [← rows]
      exact (QuerySpecification.rows_eq_seen rfl rfl rfl rfl).symm
    refine ⟨sub.all.seen engine, ?_, ?_, fun _ ↦ .of_eq all, fun h ↦ ?_⟩
    · refine iff_of_true ((appended_valid_iff plain once made (keeps valid) rfl).mpr
        fun c _ _ column _ z hz ↦ ?_) (.inl wraps)
      rw [QuerySpecification.Level, rowWise.isGrouped]
      exact rowWise.outputs z (Scope.outputs_of_resolve hz)
    · rw [appended_rows engine plain once made (selects.all hs), rows]
    · rw [wraps] at h
      cases h
  · have keys : inner.groupBy = [] := by simpa [QuerySpecification.has] using wraps
    refine ⟨inner.seen engine, ?_, appended_rows engine plain once made selects, fun h ↦ ?_,
      fun _ ↦ ?_⟩
    · rw [appended_valid_iff plain once made valid keys, or_iff_right (by simp [wraps])]
    · have clauses := h.resolve_left (by simp [wraps])
      have none : inner.select.distinct = false ∧ inner.offset = none ∧ inner.limit = none := by
        simpa [QuerySpecification.hasAny, QuerySpecification.has] using clauses
      have perm : (inner.rows engine).Perm (inner.selections engine) :=
        QuerySpecification.perm_selections none.2.2 none.2.1
      rw [QuerySpecification.selections, none.1] at perm
      exact perm.symm
    · have perm : (inner.unclipped.rows engine).Perm (inner.unclipped.selections engine) :=
        QuerySpecification.perm_selections rfl rfl
      exact perm.symm

end

end QueryStep

/-! ### Extensions of frames -/

namespace Frame

/-- An extension that is accepted has the columns that its closures compute. -/
theorem extend_eq_ok {base frame : Frame} {new : List NewColumn}
    {columns : List ComputedColumn}
    (evaluated : NewColumn.evaluateAll base.row "extend" new = .ok columns)
    (accepted : base.extend new = .ok frame) : frame = .extended base columns := by
  obtain ⟨_, -, rest⟩ := Outcome.bind_eq_ok.mp accepted
  obtain ⟨found, hf, made⟩ := Outcome.bind_eq_ok.mp rest
  rw [evaluated] at hf
  rw [Except.ok.inj hf]
  exact (Outcome.pure_eq_ok.mp made).symm

/-- If the query of a reachable frame is valid, every extension of the frame that is accepted and
reads columns of the frame, and whose aggregates are single calls over what is computed of each row,
has a query. It is valid exactly if the query of the frame is wrapped, because it has grouping keys,
or aggregates are of what is computed before functions are called over windows. Its rows are those
of the query of the frame, in their order, with the further columns. An aggregate is one of the rows
of the query of the frame if that is wrapped, or neither keeps rows once nor has a range. Otherwise
it is one of the rows that the query of the frame has without these clauses. -/
theorem Reachable.extend_rows {base frame : Frame} {new : List NewColumn}
    {columns : List ComputedColumn} (reachable : Reachable base)
    (made : base.toSql d = .ok query) (valid : query.Valid engine)
    (evaluated : NewColumn.evaluateAll base.row "extend" new = .ok columns)
    (accepted : base.extend new = .ok frame)
    (reads : ∀ c ∈ columns, c.ReadsFrom base.columnNames)
    (plain : ∀ c ∈ columns, c.map.expr.OfRows) (once : ∀ c ∈ columns, c.AggregatesOnce) :
    ∃ (result : QuerySpecification) (seen : List (List V)), frame.toSql d = .ok result ∧
      (result.Valid engine ↔ query.has .groupBy = true ∨
        ∀ c ∈ columns, c.aggregate.isSome = true → c.map.expr.ReadsAt d query
          (query.Level (Relation.product engine query.sources).columns)) ∧
      result.rows engine = ((query.rows engine).map fun row ↦
        row ++ columns.map (·.valueOver engine base.columnNames seen row)) ∧
      (query.has .groupBy = true ∨ query.hasAny [.distinct, .offset, .limit] = false →
        seen.Perm (query.rows engine)) ∧
      (query.has .groupBy = false → seen.Perm (query.unclipped.rows engine)) := by
  have checked := reachable.checked
  have selects := checked.selects made
  obtain ⟨result, hr⟩ := QueryStep.succeeds_extended selects reads
  obtain ⟨seen, rows⟩ :=
    QueryStep.extended_rows plain once selects checked.columnNames_nodup valid hr
  refine ⟨result, seen, ?_, rows⟩
  rw [extend_eq_ok evaluated accepted]
  exact Outcome.bind_eq_ok.mpr ⟨query, made, hr⟩

/-- The sum of all numbers, as a program asks for it. -/
def totalOfAmounts : NewColumn := ⟨"total", (·.get "c1"), some (·.aggregate .sum)⟩

/-- The sum of all numbers is computed of what closures compute of each row. -/
theorem amountsTotal_plain : ∀ c ∈ [amountsTotal], c.map.expr.OfRows :=
  List.forall_mem_singleton.mpr ⟨rfl, rfl⟩

/-- The sum of all numbers is a single call. -/
theorem amountsTotal_once : ∀ c ∈ [amountsTotal], c.AggregatesOnce := by
  refine List.forall_mem_singleton.mpr fun aggregate ha ↦ .inl ⟨.sum, ?_⟩
  rw [← Option.some.inj ha]
  rfl

/-- The sum of all numbers reads the column of numbers. -/
theorem amountsTotal_reads : ∀ c ∈ [amountsTotal], c.ReadsFrom amounts.columnNames := by
  have column : Expr.ReadsFrom [(.right, ["c1"])] (.column .right "c1" none) :=
    List.forall_mem_singleton.mpr ⟨["c1"], List.mem_cons_self, List.mem_cons_self⟩
  refine List.forall_mem_singleton.mpr ⟨column, fun aggregate ha ↦ ?_⟩
  rw [← Option.some.inj ha]
  exact column

/-- The number behind that of a row, as a program asks for it. -/
def nextAmount : NewColumn := ⟨"x", fun row ↦ do (← row.get "c1").add (.integer 1), none⟩

/-- What closures compute for it. -/
def amountsNext : ComputedColumn :=
  ⟨"x", ⟨.integer, .binary .add (.column .right "c1" none) (.constant (.integer 1))⟩, none⟩

/-- The numbers of a table, each with the sum of all of them. -/
theorem Reachable.extend_rows_of_table :
    ∃ (engine : Engine Int) (base frame : Frame) (query result : QuerySpecification)
      (seen : List (List Int)),
      Reachable base ∧ base.toSql {} = .ok query ∧ query.Valid engine ∧
      base.extend [totalOfAmounts] = .ok frame ∧ frame.toSql {} = .ok result ∧
      result.Valid engine ∧ seen.Perm (query.rows engine) ∧
      result.rows engine = (query.rows engine).map fun row ↦
        row ++ [amountsTotal.valueOver engine ["c1"] seen row] := by
  have extended : amounts.extend [totalOfAmounts] = .ok (.extended amounts [amountsTotal]) := rfl
  have reachable := Reachable.table amounts_made
  have made : amounts.toSql {} =
      .ok (amountsQuery [.column (some "\"c1\"") amount] none) := rfl
  have valid : (amountsQuery [.column (some "\"c1\"") amount] none).Valid amountsEngine :=
    amountsQuery_valid_of_column _ nofun
  have evaluated : NewColumn.evaluateAll amounts.row "extend" [totalOfAmounts] =
      .ok [amountsTotal] := rfl
  obtain ⟨result, seen, hr, hv, rows, all, -⟩ := reachable.extend_rows made valid evaluated extended
    amountsTotal_reads amountsTotal_plain amountsTotal_once
  refine ⟨amountsEngine, _, _, _, result, seen, reachable, made, valid, extended, hr, ?_,
    all (.inr rfl), rows⟩
  refine hv.mpr (.inr (List.forall_mem_singleton.mpr fun _ ↦ List.forall_mem_singleton.mpr ?_))
  intro x hx
  rw [← Except.ok.inj hx, QuerySpecification.Level, amountsQuery_isGrouped_of_column]
  exact amount_rowLevel

/-- The numbers of the table are what a query of the table that selects them sees, whatever its
limit. -/
private theorem amountsQuery_seen (limit : Option Expression) :
    (amountsQuery [.column (some "\"c1\"") amount] limit).seen amountsEngine =
      [[1], [2], [3]] := by
  have places : (amountsQuery [.column (some "\"c1\"") amount] limit).places amountsEngine =
      Place.all ([1, 2, 3].map fun n ↦ [[(["\"root\"", "\"c1\""], n)]]) := by
    rw [QuerySpecification.places, QuerySpecification.keptGroups, QuerySpecification.groups,
      amountsQuery_isGrouped_of_column]
    rfl
  have output (p : Place Int) : (QuerySpecification.output amountsEngine
      (amountsQuery [.column (some "\"c1\"") amount] limit) p).1 =
        [amountsEngine.read p.env ["\"root\"", "\"c1\""]] := by
    show [amount.value amountsEngine p] = _
    rw [amount, Expression.column, Expression.value_reference]
  rw [QuerySpecification.seen, places]
  simp only [output]
  decide

/-- The first two numbers of the table. -/
theorem firstAmountsQuery_rows : firstAmountsQuery.rows amountsEngine = [[1], [2]] := by
  have all : (amountsQuery [.column (some "\"c1\"") amount] none).rows amountsEngine =
      [[1], [2], [3]] :=
    (QuerySpecification.rows_eq_selections rfl rfl rfl).trans (amountsQuery_seen none)
  have unlimited : (amountsQuery [.column (some "\"c1\"") amount] none).limit = none := rfl
  refine (QuerySpecification.rows_limit unlimited 2).trans ?_
  rw [all]
  rfl

/-- The sum of some numbers does not depend on their order. -/
private theorem amountsTotal_congr {seen rows : List (List Int)} (h : seen.Perm rows)
    (row : List Int) : amountsTotal.valueOver amountsEngine ["c1"] seen row =
      amountsTotal.valueOver amountsEngine ["c1"] rows row :=
  ((h.map _).map _).flatten.foldr_eq 0

/-- The first two of three numbers, each with their sum: the sum is that of all three, because the
limit is applied after the window is computed. -/
theorem Reachable.exists_extend_over_dropped_rows :
    ∃ (engine : Engine Int) (base frame : Frame) (query result : QuerySpecification),
      Reachable base ∧ base.toSql {} = .ok query ∧ query.Valid engine ∧
      base.extend [totalOfAmounts] = .ok frame ∧ frame = .extended base [amountsTotal] ∧
      amountsTotal.AggregatesOnce ∧ frame.toSql {} = .ok result ∧
      ∀ seen : List (List Int), seen.Perm (query.rows engine) →
        result.rows engine ≠ (query.rows engine).map fun row ↦
          row ++ [amountsTotal.valueOver engine ["c1"] seen row] := by
  have extended : (Frame.limited amounts 2).extend [totalOfAmounts] =
      .ok (.extended (.limited amounts 2) [amountsTotal]) := rfl
  have made : (Frame.limited amounts 2).toSql {} = .ok firstAmountsQuery := rfl
  have written : (Frame.extended (.limited amounts 2) [amountsTotal]).toSql {} = .ok _ := rfl
  have sees : firstAmountsQuery.seen amountsEngine = [[1], [2], [3]] := amountsQuery_seen _
  refine ⟨amountsEngine, _, _, _, _, .firstAmounts, made, firstAmountsQuery_valid, extended, rfl,
    amountsTotal_once _ List.mem_cons_self, written, fun seen perm same ↦ ?_⟩
  have appended := QueryStep.appended_rows amountsEngine amountsTotal_plain
    (List.forall_mem_singleton.mpr (amountsTotal_once _ List.mem_cons_self)) (.cons rfl .nil)
    (Reachable.firstAmounts.checked.selects made)
  have totals := appended.symm.trans same
  rw [firstAmountsQuery_rows] at perm totals
  simp only [sees, amountsTotal_congr perm] at totals
  revert totals
  decide

end Frame

end FrameQuery
