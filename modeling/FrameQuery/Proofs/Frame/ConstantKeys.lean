import FrameQuery.Proofs.Frame.Faults

/-!
# Constant keys

A sort key or a grouping key is whatever the query selects as the key column. If that is a constant,
the key says nothing about the rows: SQL takes it for a position in the select list or rejects it.
Columns passed on by a sub-query are never constants, but sorting and grouping wrap a query for
other reasons only, so that a column defined as a constant becomes a constant key. The condition
under which none does is exact.
-/

namespace FrameQuery

open Sql (Dialect QuerySpecification SelectItem SubQuery Expression Relation Walk)

variable {d : Dialect} {tables : List (List String × List String)}
  {query inner result : QuerySpecification} {sub : SubQuery} {x : Expression}

namespace Sql

/-- Whether an expression is a literal, or one with a sign before it. -/
def Expression.isConstant : Expression → Bool
  | .literal _ | .negative (.literal _) => true
  | _ => false

namespace QuerySpecification

/-- What a block sorts and groups by. -/
def keys (query : QuerySpecification) : List Expression :=
  query.orderBy.map (·.key) ++ query.groupBy

/-- The keys of a block that are constants. -/
def ownConstantKeys (query : QuerySpecification) : List Expression :=
  query.keys.filter (·.isConstant)

end QuerySpecification

/-- A walk that gathers constant keys. -/
def Walk.ofConstantKeys : Walk Expression where
  block := QuerySpecification.ownConstantKeys

/-- The sort keys and grouping keys of a query, at every depth, that are constants. -/
def QuerySpecification.constantKeys (query : QuerySpecification) : List Expression :=
  query.walk .ofConstantKeys

namespace QuerySpecification

/-- No key of a block is constant exactly if neither a sort key nor a grouping key is. -/
theorem ownConstantKeys_eq_nil :
    query.ownConstantKeys = [] ↔
      (∀ k ∈ query.orderBy, k.key.isConstant = false) ∧
        ∀ x ∈ query.groupBy, x.isConstant = false := by
  simp only [ownConstantKeys, keys, List.filter_eq_nil_iff, List.forall_mem_append,
    List.forall_mem_map, Bool.not_eq_true]

/-- A block has the constant keys of one with the same order and grouping. -/
theorem ownConstantKeys_congr (order : result.orderBy = query.orderBy)
    (grouping : result.groupBy = query.groupBy) :
    result.ownConstantKeys = query.ownConstantKeys := by
  simp only [ownConstantKeys, keys, order, grouping]

end QuerySpecification

/-- Constant keys are found at blocks with an order or a grouping. -/
theorem Walk.findsFaults_ofConstantKeys : Walk.ofConstantKeys.FindsFaults where
  window _ _ := rfl
  reduced _ := rfl
  reference _ := rfl
  passing _ _ _ := rfl
  fewer _ _ _ h := h
  table _ := rfl
  aliased _ _ _ := rfl
  subquery _ := rfl
  union _ _ _ := rfl
  specification _ := rfl

end Sql

open Sql.Walk (findsFaults_ofConstantKeys)

open Sql.QuerySpecification (ownConstantKeys_eq_nil ownConstantKeys_congr)

/-! ### Columns that are constants -/

namespace Sql.QuerySpecification

/-- What a query selects as the columns is no constant. -/
def Varies (d : Dialect) (query : QuerySpecification) (columns : List String) : Prop :=
  ∀ c ∈ columns, ∀ x, (Scope.single d query).resolve .right c = .ok x → x.isConstant = false

end Sql.QuerySpecification

/-- Columns of a sub-query are no constants. -/
theorem Sql.SubQuery.varies_all {columns : List String} : sub.all.Varies d columns := by
  intro c _ x hx
  obtain ⟨c, -, rfl⟩ := SubQuery.mem_expressions_all.mp (Scope.expressions_of_resolve hx)
  rfl

/-- Columns of a query that is wrapped if need be are no constants exactly if it was wrapped or they
were none before. -/
theorem varies_wrapIf {needed : Bool} {columns : List String}
    (made : QueryStep.wrapIf d needed query = .ok inner) :
    inner.Varies d columns ↔ needed = true ∨ query.Varies d columns := by
  rcases QueryStep.wrapIf_eq_ok.mp made with ⟨rfl, sub, -, rfl⟩ | ⟨rfl, rfl⟩
  · exact iff_of_true Sql.SubQuery.varies_all (.inl rfl)
  · simp

/-- Sort keys are no constants exactly if their columns are none. -/
theorem varies_iff_sortKeys {keys : List SortKey} {items : List Sql.SortItem}
    (made : List.Forall₂ (fun k i ↦ k.toSql (.single d query) = .ok i) keys items) :
    query.Varies d (keys.map (·.column)) ↔ ∀ i ∈ items, i.key.isConstant = false := by
  refine List.forall_mem_map.trans (Outcome.forall_mem_iff made fun k i hi ↦ ?_)
  obtain ⟨x, hx, rfl⟩ := SortKey.toSql_eq_ok.mp hi
  simp only [hx, Except.ok.injEq, forall_eq']

/-- Grouping keys are no constants exactly if their columns are none. -/
theorem varies_iff_resolved {columns : List String} {keys : List Expression}
    (made : (Scope.single d query).resolveAll .right columns = .ok keys) :
    query.Varies d columns ↔ ∀ x ∈ keys, x.isConstant = false := by
  refine Outcome.forall_mem_iff (Scope.resolveAll_eq_ok.mp made) fun c x hx ↦ ?_
  simp only [hx, Except.ok.injEq, forall_eq']

/-! ### What each step does to keys -/

namespace QueryStep

/-- A block has no constant keys if it has the order and the grouping of a query without any. -/
private theorem keys_kept (earlier : Faultless d tables .ofConstantKeys inner)
    (order : result.orderBy = inner.orderBy) (grouping : result.groupBy = inner.groupBy) :
    result.ownConstantKeys = [] :=
  (ownConstantKeys_congr order grouping).trans (earlier.block findsFaults_ofConstantKeys)

variable (faultless : Faultless d tables .ofConstantKeys query)

include faultless

/-- A filter changes no key. -/
theorem filtered_constantKeys {condition : Expr} (made : filtered d condition query = .ok result) :
    result.constantKeys = [] := by
  refine (filtered_faults findsFaults_ofConstantKeys faultless made).mpr ?_
  rcases filtered_eq_ok.mp made with ⟨-, rfl⟩ | ⟨-, inner, x, hi, -, rfl⟩
  · exact keys_kept faultless rfl rfl
  · exact keys_kept (faultless.wrapIf findsFaults_ofConstantKeys hi) rfl rfl

/-- Distinct rows have the keys of the query that is restricted to their columns. -/
theorem distinct_constantKeys {names : Option (List String)} (ne : names ≠ some [])
    (made : distinct d names query = .ok result) : result.constantKeys = [] := by
  refine (distinct_faults findsFaults_ofConstantKeys faultless ne made).mpr ?_
  obtain ⟨restricted, inner, hr, hi, rfl⟩ := distinct_eq_ok.mp made
  have first : Faultless d tables .ofConstantKeys restricted := by
    cases names with
    | none =>
      rw [hr]
      exact faultless
    | some names =>
      exact selected_faultless findsFaults_ofConstantKeys faultless (by simpa using ne) hr
  exact keys_kept (first.wrapIf findsFaults_ofConstantKeys hi) rfl rfl

/-- An extension changes no key. -/
theorem extended_constantKeys {new : List ComputedColumn}
    (made : extended d new query = .ok result) : result.constantKeys = [] := by
  refine (extended_faults findsFaults_ofConstantKeys faultless made).mpr ?_
  obtain ⟨inner, items, hi, -, rfl⟩ := extended_eq_ok.mp made
  exact keys_kept (faultless.wrapIf findsFaults_ofConstantKeys hi) rfl rfl

/-- An extension over a window has no keys. -/
theorem windowExtended_constantKeys {window : WindowSpec} {new : List ComputedColumn}
    (made : windowExtended d window new query = .ok result) : result.constantKeys = [] := by
  refine (windowExtended_faults findsFaults_ofConstantKeys faultless made).mpr ?_
  obtain ⟨sub, clause, items, -, -, -, rfl⟩ := windowExtended_eq_ok.mp made
  rfl

/-- A projection has no keys. -/
theorem projected_constantKeys {new : List ComputedColumn}
    (made : projected d new query = .ok result) : result.constantKeys = [] := by
  refine (projected_faults findsFaults_ofConstantKeys faultless made).mpr ?_
  obtain ⟨sub, items, -, -, rfl⟩ := projected_eq_ok.mp made
  rfl

/-- A renaming changes no key. -/
theorem renamed_constantKeys {pairs : List (String × String)}
    (made : renamed d pairs query = .ok result) : result.constantKeys = [] := by
  refine (renamed_faults findsFaults_ofConstantKeys faultless made).mpr ?_
  obtain ⟨items, -, rfl⟩ := renamed_eq_ok.mp made
  exact keys_kept faultless rfl rfl

/-- A grouping has a constant key exactly if the query is not wrapped and selects a constant as one
of the grouping columns. -/
theorem grouped_constantKeys {grouping : List String} {aggregates : List ComputedColumn}
    (made : grouped d grouping aggregates query = .ok result) :
    result.constantKeys = [] ↔ wrapsForGrouping query = true ∨ query.Varies d grouping := by
  refine (grouped_faults findsFaults_ofConstantKeys faultless made).trans ?_
  obtain ⟨inner, items, keys, kept, hi, -, hk, -, rfl⟩ := grouped_eq_ok.mp made
  have earlier := (faultless.wrapIf findsFaults_ofConstantKeys hi).block findsFaults_ofConstantKeys
  rw [← varies_wrapIf hi, varies_iff_resolved hk]
  refine ownConstantKeys_eq_nil.trans (and_iff_right ?_)
  exact (ownConstantKeys_eq_nil.mp earlier).1

/-- A sorting has a constant key exactly if the query is not wrapped and selects a constant as one
of the key columns. -/
theorem sorted_constantKeys {keys : List SortKey} (made : sorted d keys query = .ok result) :
    result.constantKeys = [] ↔
      query.hasAny [.offset, .limit] = true ∨ query.Varies d (keys.map (·.column)) := by
  refine (sorted_faults findsFaults_ofConstantKeys faultless made).trans ?_
  obtain ⟨inner, items, hi, hk, rfl⟩ := sorted_eq_ok.mp made
  have earlier := (faultless.wrapIf findsFaults_ofConstantKeys hi).block findsFaults_ofConstantKeys
  rw [← varies_wrapIf hi, varies_iff_sortKeys hk]
  refine ownConstantKeys_eq_nil.trans (and_iff_left ?_)
  exact (ownConstantKeys_eq_nil.mp earlier).2

/-- A slice changes no key. -/
theorem sliced_constantKeys {start stop : Int64} (made : sliced d start stop query = .ok result) :
    result.constantKeys = [] := by
  refine (sliced_faults findsFaults_ofConstantKeys faultless made).mpr ?_
  obtain ⟨inner, hi, rfl⟩ := sliced_eq_ok.mp made
  exact keys_kept (faultless.wrapIf findsFaults_ofConstantKeys hi) rfl rfl

/-- A limit changes no key. -/
theorem limited_constantKeys {count : Int64} (made : limited d count query = .ok result) :
    result.constantKeys = [] := by
  refine (limited_faults findsFaults_ofConstantKeys faultless made).mpr ?_
  obtain ⟨inner, hi, rfl⟩ := limited_eq_ok.mp made
  exact keys_kept (faultless.wrapIf findsFaults_ofConstantKeys hi) rfl rfl

/-- Dropping rows changes no key. -/
theorem dropped_constantKeys {count : Int64} (made : dropped d count query = .ok result) :
    result.constantKeys = [] := by
  refine (dropped_faults findsFaults_ofConstantKeys faultless made).mpr ?_
  obtain ⟨inner, hi, rfl⟩ := dropped_eq_ok.mp made
  exact keys_kept (faultless.wrapIf findsFaults_ofConstantKeys hi) rfl rfl

end QueryStep

/-! ### Frames whose keys vary -/

namespace Frame

/-- The last step of a frame sorts and groups by no constant: if it does not wrap the query of the
frame before, that query selects no constant as one of its key columns. -/
def KeysVary (d : Dialect) : Frame → Prop
  | grouped base grouping _ => ∀ query, base.toSql d = .ok query →
    QueryStep.wrapsForGrouping query = true ∨ query.Varies d grouping
  | sorted base keys => ∀ query, base.toSql d = .ok query →
    query.hasAny [.offset, .limit] = true ∨ query.Varies d (keys.map (·.column))
  | served frame _ => frame.KeysVary d
  | _ => True

/-- The query of a frame has no constant as a key. -/
def KeyedByColumns (d : Dialect) (frame : Frame) : Prop :=
  ∀ query, frame.toSql d = .ok query → query.constantKeys = []

/-- Only sorting and grouping make constant keys. -/
theorem stepFaults_ofConstantKeys : StepFaults d .ofConstantKeys (KeysVary d) where
  finds := findsFaults_ofConstantKeys
  table _ _ := trivial
  filtered _ _ := .always (QueryStep.filtered_constantKeys ·) trivial
  selected _ _ := trivial
  distinct _ _ ne := .always (QueryStep.distinct_constantKeys · ne) trivial
  extended _ _ := .always (QueryStep.extended_constantKeys ·) trivial
  windowExtended _ _ _ := .always (QueryStep.windowExtended_constantKeys ·) trivial
  projected _ _ := .always (QueryStep.projected_constantKeys ·) trivial
  renamed _ _ := .always (QueryStep.renamed_constantKeys ·) trivial
  grouped _ _ _ := .depending (QueryStep.grouped_constantKeys ·)
  sorted _ _ := .depending (QueryStep.sorted_constantKeys ·)
  sliced _ _ _ := .always (QueryStep.sliced_constantKeys ·) trivial
  limited _ _ := .always (QueryStep.limited_constantKeys ·) trivial
  dropped _ _ := .always (QueryStep.dropped_constantKeys ·) trivial
  joined _ _ _ _ _ _ _ _ := iff_of_true rfl trivial
  concatenated _ _ := trivial
  served _ _ := Iff.rfl

/-- A reachable frame and all frames it was made of have queries without constant keys, at every
depth, exactly if no step without wrapping sorts or groups by a column that is selected as a
constant. -/
theorem Reachable.keyedByColumns_iff {frame : Frame} (reachable : Reachable frame)
    (made : frame.toSql d = .ok query) :
    (∀ g, Within g frame → g.KeyedByColumns d) ↔ ∀ g, Within g frame → g.KeysVary d :=
  stepFaults_ofConstantKeys.within_iff reachable.checked made

/-- A column of numbers. -/
private def counts : Frame := .table ["t"] [⟨"c1", .integer, none, none⟩]

/-- A column that is one in every row. -/
private def one : ComputedColumn := ⟨"x", ⟨.integer, .constant (.integer 1)⟩, none⟩

private theorem counts_made : ofTable ["t"] [⟨"c1", .integer, none, none⟩] = .ok counts :=
  rfl

private theorem one_added :
    counts.extend [⟨"x", fun _ ↦ .ok ⟨.integer, .constant (.integer 1)⟩, none⟩] =
      .ok (.extended counts [one]) :=
  rfl

/-- A limit is wrapped before its rows are sorted, so that a constant column of them is a column of
the sub-query. -/
theorem Reachable.keyed_behind_limit :
    ∃ frame, Reachable frame ∧ (∃ query, frame.toSql {} = .ok query) ∧
      ∀ g, Within g frame → g.KeyedByColumns {} := by
  have first : Frame.limit (.extended counts [one]) 5 = .ok (.limited _ _) := rfl
  have ordered : Frame.sort (.limited (.extended counts [one]) 5) [⟨"x", .ascending⟩] =
      .ok (.sorted _ _) := rfl
  have reachable := Reachable.sort (.limit (.extend (.table counts_made) one_added) first) ordered
  refine ⟨_, reachable, ⟨_, rfl⟩, (reachable.keyedByColumns_iff rfl).mpr ?_⟩
  rw [forall_within_base rfl rfl, forall_within_base rfl rfl, forall_within_base rfl rfl,
    forall_within_source rfl rfl]
  refine ⟨fun query hq ↦ .inl ?_, trivial, trivial, trivial⟩
  rw [← Except.ok.inj hq]
  rfl

/-- A column that is one in every row is sorted by as one, which is the position of another
column. -/
theorem Reachable.exists_constant_key :
    ∃ frame, Reachable frame ∧ ∃ query, frame.toSql {} = .ok query ∧
      query.constantKeys = [.integer 1] := by
  have ordered : Frame.sort (.extended counts [one]) [⟨"x", .ascending⟩] = .ok (.sorted _ _) := rfl
  exact ⟨_, .sort (.extend (.table counts_made) one_added) ordered, _, rfl, rfl⟩

end Frame

end FrameQuery
