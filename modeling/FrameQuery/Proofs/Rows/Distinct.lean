import FrameQuery.Proofs.Rows.Extending

/-!
# Rows kept once

Keeping rows once comes after everything that a query block computes and before its range, so that
a query is wrapped first only if it has a range. Whatever else a block has is evaluated before, and
its rows are kept once whether or not they have been kept once already. But distinct rows can only
be sorted by what is selected: a query that groups its rows in an order of another expression stays
as it is, and is not valid any more.
-/

namespace FrameQuery

open Sql (Dialect Engine Expression Place QuerySpecification Relation SelectItem SortItem SubQuery)

variable {V : Type} [DecidableEq V] {engine : Engine V} {d : Dialect}
  {query inner result : QuerySpecification} {names : List String}

/-! ### Blocks whose rows are distinct -/

namespace Sql.QuerySpecification

/-- A block with each of its rows once. -/
def once (query : QuerySpecification) : QuerySpecification :=
  { query with select := { query.select with distinct := true } }

/-- A valid block stays valid with each of its rows once exactly if it sorts them by what it
selects. -/
theorem Valid.once_iff (valid : query.Valid engine) :
    query.once.Valid engine ↔ query.SortsBySelection := by
  obtain ⟨legal, sources⟩ := valid_iff.mp valid
  constructor
  · intro kept
    exact (valid_iff.mp kept).1.distinct rfl
  · intro sorts
    exact valid_iff.mpr ⟨⟨legal.filter, legal.groupBy, legal.having, legal.outputs, legal.listed,
      fun _ ↦ sorts, legal.limit, legal.offset⟩, sources⟩

/-- A block has each row once that it selects somewhere, if it has no range. -/
theorem perm_eraseDups_seen (limit : query.limit = none) (offset : query.offset = none) :
    (query.once.rows engine).Perm (query.seen engine).eraseDups := by
  have perm : (query.once.rows engine).Perm (query.once.selections engine) :=
    perm_selections limit offset
  exact perm

/-- A block without a range has the rows that it selects somewhere. -/
theorem mem_rows_iff (limit : query.limit = none) (offset : query.offset = none) {row : List V} :
    row ∈ query.rows engine ↔ row ∈ query.seen engine := by
  rw [(perm_selections limit offset).mem_iff, selections]
  split
  · exact List.mem_eraseDups
  · exact Iff.rfl

end Sql.QuerySpecification

namespace QueryStep

omit [DecidableEq V] in
/-- A query whose rows are distinct is wrapped first exactly if it has a range. -/
theorem distinct_none_eq_ok : distinct d none query = .ok result ↔
    ∃ inner, wrapIf d (query.hasAny [.offset, .limit]) query = .ok inner ∧ result = inner.once := by
  simp only [distinct_eq_ok, exists_and_left, exists_eq_left]
  rfl

/-- Keeping rows once leaves each row of a query, and no other. -/
theorem distinct_none_rows (selects : query.Selects d names) (nodup : names.Nodup)
    (valid : query.Valid engine) (made : distinct d none query = .ok result) :
    (result.Valid engine ↔ query.hasAny [.offset, .limit] = true ∨ query.SortsBySelection) ∧
      (result.rows engine).Nodup ∧ ∀ row, row ∈ result.rows engine ↔ row ∈ query.rows engine := by
  obtain ⟨inner, hw, rfl⟩ := distinct_none_eq_ok.mp made
  obtain ⟨rows, keeps⟩ := wrapIf_rows engine selects nodup hw
  obtain ⟨unlimited, unskipped⟩ := wrapIf_range hw
  have once : (inner.once.rows engine).Perm (inner.seen engine).eraseDups :=
    QuerySpecification.perm_eraseDups_seen unlimited unskipped
  refine ⟨?_, once.nodup_iff.mpr (Sql.nodup_eraseDups _), fun row ↦ ?_⟩
  · rw [(keeps valid).once_iff]
    rcases wrapIf_eq_ok.mp hw with ⟨wraps, sub, -, rfl⟩ | ⟨wraps, rfl⟩
    · -- A sub-query is selected from without an order.
      exact iff_of_true nofun (.inl wraps)
    · rw [wraps, or_iff_right Bool.false_ne_true]
  · rw [once.mem_iff, List.mem_eraseDups, ← QuerySpecification.mem_rows_iff unlimited unskipped,
      rows]

omit [DecidableEq V] in
/-- A query whose rows are distinct already is not changed. -/
theorem distinct_distinct (made : distinct d none query = .ok result) :
    distinct d none result = .ok result := by
  obtain ⟨inner, hw, rfl⟩ := distinct_none_eq_ok.mp made
  obtain ⟨unlimited, unskipped⟩ := wrapIf_range hw
  have whole : inner.once.hasAny [.offset, .limit] = false := by
    simp [QuerySpecification.hasAny, QuerySpecification.has, QuerySpecification.once, unlimited,
      unskipped]
  exact distinct_none_eq_ok.mpr ⟨inner.once, wrapIf_eq_ok.mpr (.inr ⟨whole, rfl⟩), rfl⟩

end QueryStep

/-! ### Distinct rows of frames -/

namespace Frame

/-- If the query of a reachable frame is valid, the distinct rows of the frame have a query. It is
valid exactly if the query of the frame is wrapped, because it has a range, or sorts its rows by
what it selects. It has the same columns, each row of the query of the frame once, and no other
row. Whatever the query of the frame is, asking for distinct rows twice writes the same as asking
for them once. -/
theorem Reachable.distinct_rows {base : Frame} (reachable : Reachable base) (engine : Engine V)
    (d : Dialect) :
    (∀ query, base.toSql d = .ok query → query.Valid engine →
      ∃ result, base.distinctRows.toSql d = .ok result ∧
        (result.Valid engine ↔
          query.hasAny [.offset, .limit] = true ∨ query.SortsBySelection) ∧
        (result.contents engine).columns = (query.contents engine).columns ∧
        (result.rows engine).Nodup ∧
        ∀ row, row ∈ result.rows engine ↔ row ∈ query.rows engine) ∧
      base.distinctRows.distinctRows.toSql d = base.distinctRows.toSql d := by
  have checked := reachable.checked
  refine ⟨fun query made valid ↦ ?_, ?_⟩
  · have selects := checked.selects made
    obtain ⟨result, hr⟩ := QueryStep.succeeds_distinct selects
    obtain ⟨legal, once, same⟩ :=
      QueryStep.distinct_none_rows selects checked.columnNames_nodup valid hr
    refine ⟨result, Outcome.bind_eq_ok.mpr ⟨query, made, hr⟩, legal, ?_, once, same⟩
    rw [QuerySpecification.columns_of_labels selects,
      QuerySpecification.columns_of_labels (QueryStep.distinct_selects selects hr)]
  · have twice : base.distinctRows.distinctRows.toSql d =
        base.distinctRows.toSql d >>= QueryStep.distinct d none := rfl
    rw [twice]
    cases made : base.distinctRows.toSql d with
    | error e => rfl
    | ok result =>
      obtain ⟨query, -, hr⟩ := Outcome.bind_eq_ok.mp made
      exact QueryStep.distinct_distinct hr

/-- The first two numbers of a table, each once: their query is wrapped, so that rows are kept once
after the limit. -/
theorem Reachable.distinct_rows_of_limited :
    ∃ (engine : Engine Int) (base : Frame) (query result : QuerySpecification),
      Reachable base ∧ base.toSql {} = .ok query ∧ query.Valid engine ∧
      base.distinctRows.toSql {} = .ok result ∧ result.Valid engine ∧
      (result.rows engine).Nodup ∧
      (∀ row, row ∈ result.rows engine ↔ row ∈ query.rows engine) ∧
      base.distinctRows.distinctRows.toSql {} = .ok result := by
  have made : (Frame.limited amounts 2).toSql {} = .ok firstAmountsQuery := rfl
  obtain ⟨rows, twice⟩ := firstAmounts.distinct_rows amountsEngine {}
  obtain ⟨result, hr, legal, -, once, same⟩ := rows _ made firstAmountsQuery_valid
  exact ⟨amountsEngine, _, _, result, firstAmounts, made, firstAmountsQuery_valid, hr,
    legal.mpr (.inl rfl), once, same, twice.trans hr⟩

/-- The numbers of the table, grouped in the order of the numbers behind them. -/
private def bySuccessor : Frame :=
  .grouped (.sorted (.extended amounts [amountsNext]) [⟨"x", .ascending⟩]) ["c1"] []

private theorem reachable_bySuccessor : Reachable bySuccessor := by
  have extended : amounts.extend [nextAmount] = .ok (.extended amounts [amountsNext]) := rfl
  have sorted : (Frame.extended amounts [amountsNext]).sort [⟨"x", .ascending⟩] =
      .ok (.sorted (.extended amounts [amountsNext]) [⟨"x", .ascending⟩]) := rfl
  have grouped : (Frame.sorted (.extended amounts [amountsNext]) [⟨"x", .ascending⟩]).groupBy
      ["c1"] [] = .ok bySuccessor := rfl
  exact .groupBy (.sort (.extend (.table amounts_made) extended) sorted) grouped

/-- The query of these numbers. -/
private def bySuccessorQuery : QuerySpecification :=
  { amountsQuery [.column (some "\"c1\"") amount] none with
    groupBy := [amount]
    orderBy := [⟨.arithmetic .add amount (.integer 1), .ascending, .undefined⟩] }

/-- Their order is computed of the grouping key. -/
private theorem bySuccessorQuery_valid : bySuccessorQuery.Valid amountsEngine := by
  have key : amount.GroupLevel [["\"root\"", "\"c1\""]] [amount] :=
    .atom (.inl List.mem_cons_self)
  have level : bySuccessorQuery.Level [["\"root\"", "\"c1\""]] =
      Expression.GroupLevel [["\"root\"", "\"c1\""]] [amount] := if_pos rfl
  have outputs (x : Expression) (hx : x ∈ bySuccessorQuery.outputs) :
      x.GroupLevel [["\"root\"", "\"c1\""]] [amount] := by
    rcases QuerySpecification.mem_outputs.mp hx with ⟨i, hi, he⟩ | ⟨k, hk, rfl⟩
    · rw [List.mem_singleton.mp hi] at he
      exact Option.some.inj he ▸ key
    · rw [List.mem_singleton.mp hk]
      refine .operator rfl fun y hy ↦ ?_
      rcases List.mem_pair.mp hy with rfl | rfl
      · exact key
      · exact Expression.composed_literal _
  refine QuerySpecification.valid_iff.mpr ⟨⟨nofun, ?_, nofun, fun x hx ↦ ?_, ?_, nofun, nofun,
    nofun⟩, ⟨trivial, nofun⟩, trivial⟩
  · exact List.forall_mem_singleton.mpr amount_rowLevel
  · change x.OutputLevel (bySuccessorQuery.Level [["\"root\"", "\"c1\""]])
    rw [level]
    exact .atom (.inl (outputs x hx))
  · intro _ relation listed
    cases List.mem_singleton.mp listed

/-- Numbers that are sorted by the numbers behind them and grouped by themselves stay in this order,
because it is computed of the grouping key. Kept once, they would have to be sorted by what is
selected. -/
theorem Reachable.exists_distinct_not_valid :
    ∃ (engine : Engine Int) (base : Frame) (query result : QuerySpecification),
      Reachable base ∧ base.toSql {} = .ok query ∧ query.Valid engine ∧
      base.distinctRows.toSql {} = .ok result ∧ ¬result.Valid engine := by
  have made : bySuccessor.toSql {} = .ok bySuccessorQuery := rfl
  refine ⟨amountsEngine, _, _, _, reachable_bySuccessor, made, bySuccessorQuery_valid, rfl,
    fun valid ↦ ?_⟩
  obtain ⟨i, hi, he⟩ :=
    (QuerySpecification.valid_iff.mp valid).1.distinct rfl _ List.mem_cons_self
  rw [List.mem_singleton.mp hi] at he
  cases he

end Frame

end FrameQuery
