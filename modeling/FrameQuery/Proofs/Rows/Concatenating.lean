import FrameQuery.Proofs.Rows.Fields
import FrameQuery.Proofs.Rows.Filtering

/-!
# Rows of one frame behind those of another

A concatenation reads the rows of two sub-queries one after the other, under the columns of the
first. Whatever clauses the two queries have stay inside the sub-queries and apply to their own
rows. SQL puts columns together by position, while closures read them by name; frames are only
concatenated if they have the same names in the same order, so that both come to the same.
-/

namespace FrameQuery

open Sql (Dialect Engine Query QuerySpecification Relation SelectItem SubQuery qualified)

variable {V : Type} [DecidableEq V] {engine : Engine V} {d : Dialect}
  {lefts rights : QuerySpecification} {left right : SubQuery} {names : List String}

namespace QueryStep

/-- The rows of two sub-queries one after the other. -/
def appended (left right : SubQuery) : Relation :=
  .subquery (.plain (.union (.specification left.all) (.specification right.all) false))

/-- The same rows under the columns of the first sub-query. -/
def chained (d : Dialect) (left right : SubQuery) : Relation :=
  .aliased (appended left right) (d.quoted "root") left.columns

/-- A concatenation selects all columns of the rows of its sub-queries. -/
theorem concatenated_eq_allOf (d : Dialect) (left right : SubQuery) :
    concatenated d left right =
      .allOf (left.columns.map (d.quoted "root", ·)) (chained d left right) := by
  rw [concatenated, QuerySpecification.allOf, List.map_map]
  rfl

variable (first : lefts.Selects d names) (second : rights.Selects d names) (nodup : names.Nodup)
  (left_named : lefts.named d "left" = .ok left) (right_named : rights.named d "right" = .ok right)

include first second nodup left_named right_named

variable (engine) in
/-- Both sub-queries have the rows of their queries. -/
private theorem contents_appended : (appended left right).contents engine =
    ⟨left.columns.map ([·]), lefts.rows engine ++ rights.rows engine⟩ := by
  obtain ⟨leftRows, -, -⟩ := wrapped_rows engine first nodup left_named
  obtain ⟨rightRows, -, -⟩ := wrapped_rows engine second nodup right_named
  have columns : (left.all.contents engine).columns = left.columns.map ([·]) := by
    rw [first.named_columns left_named]
    exact QuerySpecification.columns_of_labels (first.all left_named)
  rw [appended, Relation.contents, Query.contents_plain, Relation.contents,
    if_neg Bool.false_ne_true, Relation.contents, Relation.contents, Sql.Table.append, columns,
    ← leftRows, ← rightRows]
  rfl

variable (engine) in
/-- The rows of a concatenation have a value for each column of the first query. -/
private theorem chained_hasColumns : (chained d left right).HasColumns engine
    (left.columns.map (d.quoted "root", ·)) ∧
      ((chained d left right).contents engine).rows = lefts.rows engine ++ rights.rows engine := by
  have appends := contents_appended engine first second nodup left_named right_named
  have contents : (chained d left right).contents engine =
      ⟨(left.columns.map (d.quoted "root", ·)).map qualified,
        lefts.rows engine ++ rights.rows engine⟩ := by
    rw [chained, Relation.contents, appends]
    exact Sql.Table.under_renamed rfl (d.quoted "root")
  rw [contents]
  refine ⟨⟨by rw [contents], ?_, fun row hr ↦ ?_⟩, rfl⟩
  · rw [first.named_columns left_named]
    exact (nodup.map fun _ _ ↦ Dialect.quoted_inj.mp).map fun _ _ h ↦ (Prod.mk.inj h).2
  · rw [contents] at hr
    rw [first.named_columns left_named, List.length_map]
    rcases List.mem_append.mp hr with hr | hr
    · exact QuerySpecification.length_of_mem_rows first hr
    · exact QuerySpecification.length_of_mem_rows second hr

/-- A concatenation of two queries with the same names has the rows of the first one and then those
of the second one. -/
theorem concatenated_rows : (concatenated d left right).rows engine =
    lefts.rows engine ++ rights.rows engine := by
  obtain ⟨has, rows⟩ := chained_hasColumns engine first second nodup left_named right_named
  rw [concatenated_eq_allOf, has.rows_allOf, rows]

/-- A concatenation of two valid queries with the same names is valid. -/
theorem concatenated_valid (leftValid : lefts.Valid engine) (rightValid : rights.Valid engine) :
    (concatenated d left right).Valid engine := by
  obtain ⟨-, keepsLeft, -⟩ := wrapped_rows engine first nodup left_named
  obtain ⟨-, keepsRight, -⟩ := wrapped_rows engine second nodup right_named
  obtain ⟨has, -⟩ := chained_hasColumns engine first second nodup left_named right_named
  rw [concatenated_eq_allOf]
  refine has.valid_allOf ⟨⟨⟨keepsLeft leftValid, keepsRight rightValid, ?_⟩,
    List.forall_mem_nil _, nofun, nofun⟩, fun _ ↦ ?_⟩
  · rw [Relation.contents, Relation.contents, QuerySpecification.columns_of_labels
      (first.all left_named), QuerySpecification.columns_of_labels (second.all right_named)]
  · rw [contents_appended engine first second nodup left_named right_named, List.length_map]

end QueryStep

namespace Frame

/-- A concatenation that is accepted is one of frames with the same names. -/
private theorem concatenate_eq_ok {base other frame : Frame} (left : Reachable base)
    (right : Reachable other) (accepted : base.concatenate other = .ok frame) :
    frame = .concatenated base other ∧ other.columnNames = base.columnNames := by
  have made : frame = .concatenated base other := by
    obtain ⟨_, -, rest⟩ := Outcome.bind_eq_ok.mp accepted
    split at rest
    · exact absurd rest Outcome.fail_ne_ok
    · exact (Outcome.pure_eq_ok.mp rest).symm
  refine ⟨made, ?_⟩
  rw [made] at accepted
  cases (Reachable.concatenate left right accepted).checked with
  | concatenated _ _ agree => exact (columnNames_eq_of_agree agree).symm

/-- If the queries of two reachable frames are valid, every concatenation of the frames that is
accepted has a valid query. Its rows are all rows of the query of the first frame and then all rows
of the query of the second one, each with the same values under the names of the columns. -/
theorem Reachable.concatenate_rows {base other frame : Frame} (left : Reachable base)
    (right : Reachable other) (leftMade : base.toSql d = .ok lefts)
    (rightMade : other.toSql d = .ok rights) (leftValid : lefts.Valid engine)
    (rightValid : rights.Valid engine) (accepted : base.concatenate other = .ok frame) :
    ∃ result, frame.toSql d = .ok result ∧ result.Valid engine ∧
      result.rows engine = lefts.rows engine ++ rights.rows engine ∧
      result.Selects d frame.columnNames ∧
      ∀ (row : List V) (name : String),
        result.readRow engine row (d.quoted name) = lefts.readRow engine row (d.quoted name) ∧
        result.readRow engine row (d.quoted name) = rights.readRow engine row (d.quoted name) := by
  obtain ⟨rfl, same⟩ := concatenate_eq_ok left right accepted
  have first := left.checked.selects leftMade
  have second := right.checked.selects rightMade
  rw [same] at second
  have nodup := left.checked.columnNames_nodup
  have leftNamed := first.named "left"
  have rightNamed := second.named "right"
  have made : (concatenated base other).toSql d = .ok (QueryStep.concatenated d _ _) :=
    toSql_pair_eq_ok.mpr ⟨_, _, _, _, leftMade, leftNamed, rightMade, rightNamed, rfl⟩
  have selects := (Reachable.concatenate left right accepted).checked.selects made
  refine ⟨_, made, QueryStep.concatenated_valid first second nodup leftNamed rightNamed leftValid
    rightValid, QueryStep.concatenated_rows first second nodup leftNamed rightNamed, selects,
    fun row name ↦ ?_⟩
  have read {query : QuerySpecification} (h : query.Selects d base.columnNames) :
      query.readRow engine row (d.quoted name) =
        rowReader engine base.columnNames row .right name := h.readRow_eq row name
  exact ⟨(read selects).trans (read first).symm, (read selects).trans (read second).symm⟩

/-- The first two numbers are followed by all three, because the limit stays in its sub-query. -/
theorem Reachable.concatenate_rows_of_limited :
    ∃ (engine : Engine Int) (base frame : Frame) (lefts rights result : QuerySpecification),
      Reachable base ∧ base.toSql {} = .ok lefts ∧ lefts.Valid engine ∧
      amounts.toSql {} = .ok rights ∧ rights.Valid engine ∧
      base.concatenate amounts = .ok frame ∧ frame.toSql {} = .ok result ∧ result.Valid engine ∧
      result.rows engine = lefts.rows engine ++ rights.rows engine := by
  have leftMade : (Frame.limited amounts 2).toSql {} = .ok firstAmountsQuery := rfl
  have rightMade : amounts.toSql {} =
      .ok (amountsQuery [.column (some "\"c1\"") amount] none) := rfl
  have rightValid : (amountsQuery [.column (some "\"c1\"") amount] none).Valid amountsEngine :=
    amountsQuery_valid_of_column _ nofun
  have accepted : (Frame.limited amounts 2).concatenate amounts = .ok (.concatenated _ _) := rfl
  obtain ⟨result, made, valid, rows, -⟩ := Reachable.firstAmounts.concatenate_rows
    (.table amounts_made) leftMade rightMade firstAmountsQuery_valid rightValid accepted
  exact ⟨amountsEngine, _, _, _, _, result, .firstAmounts, leftMade, firstAmountsQuery_valid,
    rightMade, rightValid, accepted, made, valid, rows⟩

end Frame

end FrameQuery
