import FrameQuery.Proofs.Rows.Fields
import FrameQuery.Proofs.Rows.Filtering
import Mathlib.Data.Multiset.Bind

/-!
# Pairs of rows

A join reads two sub-queries under names of their own. Its condition is written over both of them:
a column of either row is read under the name of its sub-query, so that it has the value that the
closure reads. The pairs, and the rows without a match that the kind of the join keeps, are wrapped
once more. As bags the rows of a join are therefore those of the two queries paired by the
condition, whatever clauses the queries have.
-/

namespace FrameQuery

open Sql (Dialect Engine Expression JoinCriteria QuerySpecification Relation SubQuery Table
  qualified)

variable {V : Type}

/-! ### Bags of pairs -/

namespace JoinKind

/-- The pairs of rows that match each other, and the rows without a match that a join keeps, next to
nulls. -/
def pairs (kind : JoinKind) (left right : Table V) (null : V) (matched : List V → List V → Bool) :
    Multiset (List V) :=
  let lefts : Multiset (List V) := left.rows
  let rights : Multiset (List V) := right.rows
  ((lefts ×ˢ rights).filter fun p ↦ matched p.1 p.2 = true).map (fun p ↦ p.1 ++ p.2) +
    (if kind = .leftOuter then
      (lefts.filter fun a ↦ ∀ b ∈ rights, matched a b = false).map fun a ↦
        a ++ List.replicate right.columns.length null
    else 0) +
    if kind = .rightOuter then
      (rights.filter fun b ↦ ∀ a ∈ lefts, matched a b = false).map fun b ↦
        List.replicate left.columns.length null ++ b
    else 0

variable {left right : Table V} {null : V} {matched : List V → List V → Bool}

/-- Rows that are paired one by one are the pairs that match. -/
private theorem flatMap_filter_eq (lefts rights : List (List V)) :
    (lefts.flatMap fun a ↦ (rights.filter (matched a)).map fun b ↦ a ++ b) =
      ((lefts ×ˢ rights).filter fun p ↦ matched p.1 p.2).map fun p ↦ p.1 ++ p.2 := by
  change _ = ((lefts.flatMap fun a ↦ rights.map (Prod.mk a)).filter _).map _
  rw [List.filter_flatMap, List.map_flatMap]
  refine List.flatMap_congr fun a _ ↦ ?_
  rw [List.filter_map, List.map_map]
  rfl

/-- A row has no match if none of the rows matches it. -/
private theorem not_any_eq_decide (rows : List (List V)) (p : List V → Bool) :
    (!rows.any p) = decide (∀ b ∈ (rows : Multiset (List V)), p b = false) := by
  rw [Bool.eq_iff_iff]
  simp

/-- As a bag the rows of a join are its pairs. -/
theorem coe_rows_join (kind : JoinKind) :
    ((left.join null (QueryStep.joinType kind) right matched).rows : Multiset (List V)) =
      kind.pairs left right null matched := by
  cases kind <;> simp [Table.join, pairs, QueryStep.joinType, flatMap_filter_eq, not_any_eq_decide]

/-- The pairs of rows depend on the rows, on the number of columns and on which rows match. -/
theorem pairs_congr {left' right' : Table V} {matched' : List V → List V → Bool} (kind : JoinKind)
    (lefts : left.rows = left'.rows) (rights : right.rows = right'.rows)
    (leftWidth : left.columns.length = left'.columns.length)
    (rightWidth : right.columns.length = right'.columns.length)
    (agree : ∀ a ∈ left.rows, ∀ b ∈ right.rows, matched a b = matched' a b) :
    kind.pairs left right null matched = kind.pairs left' right' null matched' := by
  rw [pairs, pairs, ← lefts, ← rights, leftWidth, rightWidth]
  refine congrArg₂ (· + ·) (congrArg₂ (· + ·) (congrArg (Multiset.map _) ?_) ?_) ?_
  · refine Multiset.filter_congr fun p hp ↦ ?_
    obtain ⟨ha, hb⟩ := Multiset.mem_product.mp hp
    rw [agree p.1 ha p.2 hb]
  · refine if_congr Iff.rfl (congrArg (Multiset.map _) ?_) rfl
    exact Multiset.filter_congr fun a ha ↦ forall₂_congr fun b hb ↦ by rw [agree a ha b hb]
  · refine if_congr Iff.rfl (congrArg (Multiset.map _) ?_) rfl
    exact Multiset.filter_congr fun b hb ↦ forall₂_congr fun a ha ↦ by rw [agree a ha b hb]

end JoinKind

/-! ### Two relations side by side -/

namespace Sql

/-- Each row of a join is made of a row of either table, or of nulls in its place. -/
theorem Table.exists_append_of_mem_join {left right : Table V} {null : V} {kind : JoinType}
    {matched : List V → List V → Bool} {row : List V}
    (h : row ∈ (left.join null kind right matched).rows) : ∃ a b, row = a ++ b ∧
      (a ∈ left.rows ∨ a = List.replicate left.columns.length null) ∧
      (b ∈ right.rows ∨ b = List.replicate right.columns.length null) := by
  rw [join, List.mem_append, List.mem_append] at h
  rcases h with (paired | kept) | kept
  · obtain ⟨a, ha, hr⟩ := List.mem_flatMap.mp paired
    obtain ⟨b, hb, rfl⟩ := List.mem_map.mp hr
    exact ⟨a, b, rfl, .inl ha, .inl (List.mem_of_mem_filter hb)⟩
  · obtain ⟨a, ha, rfl⟩ := List.mem_map.mp (List.mem_ite_nil_right.mp kept).2
    exact ⟨a, _, rfl, .inl (List.mem_of_mem_filter ha), .inr rfl⟩
  · obtain ⟨b, hb, rfl⟩ := List.mem_map.mp (List.mem_ite_nil_right.mp kept).2
    exact ⟨_, b, rfl, .inr rfl, .inl (List.mem_of_mem_filter hb)⟩

variable [DecidableEq V] {engine : Engine V}

/-- A join is valid if both of its relations are and its criteria are legal over them. -/
theorem Relation.valid_join {kind : JoinType} {left right : Relation}
    {criteria : Option JoinCriteria} : (Relation.join kind left right criteria).Valid engine ↔
      left.Valid engine ∧ right.Valid engine ∧
        JoinCriteria.Legal (left.contents engine) (right.contents engine) criteria :=
  Iff.rfl

/-- A relation has a null for each of its columns. -/
private theorem Relation.HasColumns.length_nulls {relation : Relation}
    {columns : List (String × String)} (has : relation.HasColumns engine columns) :
    (List.replicate (relation.contents engine).columns.length engine.null).length =
      columns.length := by
  rw [List.length_replicate, has.columns_eq, List.length_map]

/-- A join has the columns of both of its relations, if they are different. -/
theorem Relation.HasColumns.join {left right : Relation} {lefts rights : List (String × String)}
    (first : left.HasColumns engine lefts) (second : right.HasColumns engine rights)
    (nodup : (lefts ++ rights).Nodup) (kind : JoinType) (criteria : Option JoinCriteria) :
    (Relation.join kind left right criteria).HasColumns engine (lefts ++ rights) where
  columns_eq := by
    rw [contents, Table.join, first.columns_eq, second.columns_eq, List.map_append]
  nodup := nodup
  width row hr := by
    rw [contents] at hr
    obtain ⟨a, b, rfl, ha, hb⟩ := Table.exists_append_of_mem_join hr
    have leftWidth : a.length = lefts.length :=
      ha.elim (first.width a) fun nulls ↦ nulls ▸ first.length_nulls
    have rightWidth : b.length = rights.length :=
      hb.elim (second.width b) fun nulls ↦ nulls ▸ second.length_nulls
    rw [List.length_append, List.length_append, leftWidth, rightWidth]

end Sql

/-! ### Conditions over two rows -/

/-- What closures read of a row of each of two frames. -/
def pairReader (engine : Engine V) (lefts rights : List String) (a b : List V) :
    RowVar → String → V
  | .left => rowReader engine lefts a .left
  | .right => rowReader engine rights b .right

variable [DecidableEq V] {engine : Engine V} {d : Dialect}

/-- Whether a condition of a closure holds for a row of each of two frames. -/
def Expr.holdsForPair (engine : Engine V) (lefts rights : List String) (e : Expr) (a b : List V) :
    Bool :=
  engine.holds (e.value engine (pairReader engine lefts rights a b))

namespace QueryStep

/-- The name under which a join reads the rows of a frame. -/
def side : RowVar → String
  | .left => "left"
  | .right => "right"

/-- Columns of the sub-query that has the rows of a frame. -/
def sideColumns (d : Dialect) (row : RowVar) (names : List String) : List (String × String) :=
  names.map fun name ↦ (d.quoted (side row), d.quoted name)

omit [DecidableEq V]

/-- Each sub-query has its own columns only. -/
private theorem mem_sideColumns {row other : RowVar} {name : String} {names : List String} :
    (d.quoted (side other), d.quoted name) ∈ sideColumns d row names ↔
      row = other ∧ name ∈ names := by
  have sides : side row = side other ↔ row = other := by cases row <;> cases other <;> decide
  simp [sideColumns, Dialect.quoted_inj, sides, and_comm]

/-- Different names are names of different columns of a sub-query. -/
private theorem sideColumns_injective (d : Dialect) (row : RowVar) :
    Function.Injective fun name ↦ (d.quoted (side row), d.quoted name) :=
  fun _ _ same ↦ Dialect.quoted_inj.mp (Prod.mk.inj same).2

/-- The columns of a sub-query are those of its query. -/
private theorem names_named {query : QuerySpecification} {sub : SubQuery} (row : RowVar)
    {names : List String} (selects : query.Selects d names)
    (made : query.named d (side row) = .ok sub) :
    sub.correlation = d.quoted (side row) ∧ sub.names = sideColumns d row names := by
  rw [selects.named] at made
  rw [← Except.ok.inj made, SubQuery.names, List.map_map]
  exact ⟨rfl, rfl⟩

variable {ls rs : List String}

/-- The columns of two sub-queries are different if those of each of them are. -/
private theorem nodup_sideColumns (leftNodup : ls.Nodup) (rightNodup : rs.Nodup) :
    (sideColumns d .left ls ++ sideColumns d .right rs).Nodup := by
  refine List.Nodup.append (leftNodup.map (sideColumns_injective d _))
    (rightNodup.map (sideColumns_injective d _)) fun column first second ↦ ?_
  obtain ⟨name, -, rfl⟩ := List.mem_map.mp first
  exact absurd (mem_sideColumns.mp second).1 (by decide)

/-- A column of either sub-query is read of the row of its frame. -/
private theorem lookup_sideColumns {a b : List V} (width : a.length = ls.length) (row : RowVar)
    (name : String) :
    (((sideColumns d .left ls ++ sideColumns d .right rs).zip (a ++ b)).lookup
        (d.quoted (side row), d.quoted name)).getD engine.null =
      pairReader engine ls rs a b row name := by
  have sameWidth : (sideColumns d .left ls).length = a.length := by
    rw [sideColumns, List.length_map, width]
  have own (row : RowVar) (names : List String) (values : List V) :
      ((sideColumns d row names).zip values).lookup (d.quoted (side row), d.quoted name) =
        (names.zip values).lookup name :=
    Sql.lookup_zip_map (sideColumns_injective d row) names values name
  have other {row other : RowVar} (ne : row ≠ other) (names : List String) (values : List V) :
      ((sideColumns d row names).zip values).lookup (d.quoted (side other), d.quoted name) = none :=
    Sql.lookup_zip_eq_none (fun known ↦ ne (mem_sideColumns.mp known).1) values
  rw [List.zip_append sameWidth, List.lookup_append]
  cases row with
  | left =>
    rw [own, other (by decide), Option.or_none]
    rfl
  | right =>
    rw [own, other (by decide), Option.none_or]
    rfl

variable {lefts rights : QuerySpecification} {left right : SubQuery}
  (first : lefts.Selects d ls) (second : rights.Selects d rs)
  (left_named : lefts.named d "left" = .ok left) (right_named : rights.named d "right" = .ok right)

include first second left_named right_named

/-- A column of either row is one of the columns of the two sub-queries. -/
private theorem resolve_pair_named {row : RowVar} {name : String} {z : Expression}
    (found : (Scope.pair d left.all right.all).resolve row name = .ok z) :
    (d.quoted (side row), d.quoted name) ∈ left.names ++ right.names ∧
      z = .column (qualified (d.quoted (side row), d.quoted name)) := by
  obtain ⟨leftSide, -⟩ := names_named .left first left_named
  obtain ⟨rightSide, -⟩ := names_named .right second right_named
  rcases Scope.resolve_pair.mp found with ⟨rfl, selected⟩ | ⟨rfl, selected⟩
  · obtain ⟨rfl, known⟩ := SubQuery.findColumn?_all selected
    rw [leftSide] at known ⊢
    exact ⟨List.mem_append_left _ known, rfl⟩
  · obtain ⟨rfl, known⟩ := SubQuery.findColumn?_all selected
    rw [rightSide] at known ⊢
    exact ⟨List.mem_append_right _ known, rfl⟩

variable {condition : Expr} {holds : Expression}

/-- A condition over two rows, written over the two sub-queries of a join, has its value. -/
private theorem value_pair [DecidableEq V]
    (made : condition.toSql (.pair d left.all right.all) = .ok holds) (plain : condition.OfRows)
    {a b : List V} (width : a.length = ls.length) :
    holds.value engine (.row (((left.names ++ right.names).map qualified).zip (a ++ b))) =
      condition.value engine (pairReader engine ls rs a b) := by
  refine Expr.value_toSql made plain fun column _ z hz ↦ ?_
  obtain ⟨-, rfl⟩ := resolve_pair_named first second left_named right_named hz
  rw [Expression.column, Sql.Expression.value_reference, Sql.Place.env_row,
    ← lookup_sideColumns width, (names_named .left first left_named).2,
    (names_named .right second right_named).2]
  exact engine.read_qualified _ _ _

/-- It is one over columns of the sub-queries exactly if it is computed from the two rows alone. -/
private theorem rowLevel_pair (made : condition.toSql (.pair d left.all right.all) = .ok holds)
    (leftNodup : ls.Nodup) (rightNodup : rs.Nodup) :
    holds.RowLevel ((left.names ++ right.names).map qualified) ↔ condition.OfRows := by
  have nodup : (left.names ++ right.names).Nodup := by
    rw [(names_named .left first left_named).2, (names_named .right second right_named).2]
    exact nodup_sideColumns leftNodup rightNodup
  rw [Expr.rowLevel_toSql made]
  refine and_iff_left fun column _ z hz ↦ ?_
  obtain ⟨known, rfl⟩ := resolve_pair_named first second left_named right_named hz
  exact .atom (Expression.isColumn_qualified nodup known)

/-! ### Joins -/

omit first second left_named right_named in
/-- The pairs of a join are all columns of its two sub-queries side by side. -/
private theorem paired_eq_allOf (kind : JoinKind) (left right : SubQuery) (holds : Expression) :
    paired kind left right holds = .allOf (left.names ++ right.names)
      (.join (joinType kind) left.relation right.relation (some (.condition holds))) := by
  rw [paired, SubQuery.all_eq_allOf, SubQuery.all_eq_allOf]
  conv_rhs => rw [QuerySpecification.allOf, List.map_append]
  rfl

variable [DecidableEq V] (nodup : (ls ++ rs).Nodup)

include nodup

variable (engine) in
/-- The pairs of a join have the columns of both of its sub-queries. -/
private theorem join_hasColumns (kind : Sql.JoinType) (criteria : Option JoinCriteria) :
    (Relation.join kind left.relation right.relation criteria).HasColumns engine
      (left.names ++ right.names) := by
  obtain ⟨leftNodup, rightNodup, -⟩ := List.nodup_append.mp nodup
  obtain ⟨-, leftLabels, leftColumns⟩ := first.labelled_named leftNodup left_named
  obtain ⟨-, rightLabels, rightColumns⟩ := second.labelled_named rightNodup right_named
  refine (SubQuery.hasColumns leftLabels leftColumns).join
    (SubQuery.hasColumns rightLabels rightColumns) ?_ kind criteria
  rw [(names_named .left first left_named).2, (names_named .right second right_named).2]
  exact nodup_sideColumns leftNodup rightNodup

variable {kind : JoinKind} {result : QuerySpecification}
  (made : joined d condition kind left right = .ok result)

include made

variable (engine) in
/-- A join has the rows of its two sub-queries side by side, and is valid if these are. -/
private theorem joined_relation : ∃ holds,
    condition.toSql (.pair d left.all right.all) = .ok holds ∧
      let pairs := Relation.join (joinType kind) left.relation right.relation
        (some (.condition holds))
      result.rows engine = (pairs.contents engine).rows ∧
        (result.Valid engine ↔ pairs.Valid engine) := by
  obtain ⟨holds, sub, hx, hs, rfl⟩ := joined_eq_ok.mp made
  have selects := paired_selects (first.named_columns left_named)
    (second.named_columns right_named) kind holds
  obtain ⟨rows, keeps, -⟩ := wrapped_rows engine selects nodup hs
  have same := (selects.labelled_named nodup hs).1
  have has := join_hasColumns engine first second left_named right_named nodup (joinType kind)
    (some (.condition holds))
  rw [paired_eq_allOf] at rows keeps same
  refine ⟨holds, hx, rows.trans has.rows_allOf, fun valid ↦ ?_, fun valid ↦ ?_⟩
  · have pairs := SubQuery.valid_of_all valid
    rw [same] at pairs
    exact (QuerySpecification.valid_iff.mp pairs).2.1
  · exact keeps (has.valid_allOf valid)

/-- A join of two valid queries is valid exactly if its condition is computed from the two rows
alone. -/
theorem joined_valid_iff (leftValid : lefts.Valid engine) (rightValid : rights.Valid engine) :
    result.Valid engine ↔ condition.OfRows := by
  obtain ⟨holds, hx, -, valid⟩ :=
    joined_relation engine first second left_named right_named nodup made
  obtain ⟨leftNodup, rightNodup, -⟩ := List.nodup_append.mp nodup
  obtain ⟨rfl, leftLabels, -⟩ := first.labelled_named leftNodup left_named
  obtain ⟨rfl, rightLabels, -⟩ := second.labelled_named rightNodup right_named
  rw [valid, Relation.valid_join, and_iff_right (SubQuery.valid_relation leftLabels leftValid),
    and_iff_right (SubQuery.valid_relation rightLabels rightValid), JoinCriteria.Legal,
    SubQuery.contents_relation leftLabels, SubQuery.contents_relation rightLabels,
    ← List.map_append]
  exact rowLevel_pair first second left_named right_named hx leftNodup rightNodup

/-- The rows of a join whose condition is computed from the two rows alone are, as a bag, the pairs
of rows of its two queries. -/
theorem joined_rows (plain : condition.OfRows) :
    (result.rows engine : Multiset (List V)) =
      kind.pairs (lefts.contents engine) (rights.contents engine) engine.null
        (condition.holdsForPair engine ls rs) := by
  obtain ⟨holds, hx, rows, -⟩ :=
    joined_relation engine first second left_named right_named nodup made
  obtain ⟨leftNodup, rightNodup, -⟩ := List.nodup_append.mp nodup
  obtain ⟨rfl, leftLabels, -⟩ := first.labelled_named leftNodup left_named
  obtain ⟨rfl, rightLabels, -⟩ := second.labelled_named rightNodup right_named
  have width {sub : SubQuery}
      (labelled : sub.query.items.map (·.label?) = sub.columns.map some) :
      (sub.names.map qualified).length = (sub.query.contents engine).columns.length := by
    rw [QuerySpecification.columns_of_labels labelled, SubQuery.names, List.map_map,
      List.length_map, List.length_map]
  rw [rows, Relation.contents, JoinKind.coe_rows_join, SubQuery.contents_relation leftLabels,
    SubQuery.contents_relation rightLabels]
  refine JoinKind.pairs_congr kind rfl rfl (width leftLabels) (width rightLabels) fun a ha b _ ↦ ?_
  have length : a.length = ls.length :=
    (QuerySpecification.length_of_mem_rows first ha).trans (List.length_map _)
  rw [JoinCriteria.matched, ← List.map_append,
    value_pair first second left_named right_named hx plain length]
  rfl

end QueryStep

namespace Frame

variable {lefts rights : QuerySpecification}

omit [DecidableEq V] in
/-- A join that is accepted has the condition that its closure computes. -/
private theorem join_eq_ok {base other frame : Frame} {closure : Row → Row → Outcome TypedExpr}
    {kind : JoinKind} {value : TypedExpr}
    (evaluated : closure { var := .left, columns := base.columns }
      { var := .right, columns := other.columns } = .ok value)
    (accepted : base.join other closure kind = .ok frame) :
    frame = .joined base other value kind := by
  obtain ⟨found, hf, rest⟩ := Outcome.bind_eq_ok.mp accepted
  obtain ⟨_, -, rest⟩ := Outcome.bind_eq_ok.mp rest
  rw [Frame.condition, evaluated] at hf
  obtain ⟨computed, hv, checked⟩ := Outcome.bind_eq_ok.mp hf
  obtain ⟨_, -, same⟩ := Outcome.bind_eq_ok.mp checked
  rw [← Outcome.pure_eq_ok.mp rest, ← Outcome.pure_eq_ok.mp same, ← Except.ok.inj hv]

/-- If the queries of two reachable frames are valid, every join of the frames that is accepted and
reads their columns has a query, which selects the columns of the first frame and then those of the
second one. It is valid exactly if the condition is computed from the two rows alone. Then its rows
are, as a bag, the pairs of a row of either query for which the condition holds, and the rows of one
of the queries that are in no such pair, next to nulls, where the kind of the join keeps them. -/
theorem Reachable.join_rows {base other frame : Frame} {closure : Row → Row → Outcome TypedExpr}
    {kind : JoinKind} {value : TypedExpr} (left : Reachable base) (right : Reachable other)
    (leftMade : base.toSql d = .ok lefts) (rightMade : other.toSql d = .ok rights)
    (leftValid : lefts.Valid engine) (rightValid : rights.Valid engine)
    (evaluated : closure { var := .left, columns := base.columns }
      { var := .right, columns := other.columns } = .ok value)
    (accepted : base.join other closure kind = .ok frame)
    (reads : value.expr.ReadsFrom [(.left, base.columnNames), (.right, other.columnNames)]) :
    ∃ result, frame.toSql d = .ok result ∧
      result.Selects d (base.columnNames ++ other.columnNames) ∧
      (result.Valid engine ↔ value.expr.OfRows) ∧
      (value.expr.OfRows → (result.rows engine : Multiset (List V)) =
        kind.pairs (lefts.contents engine) (rights.contents engine) engine.null
          (value.expr.holdsForPair engine base.columnNames other.columnNames)) := by
  have nodup : (base.columnNames ++ other.columnNames).Nodup := by
    have names := (Reachable.join left right accepted).checked.columnNames_nodup
    rwa [join_eq_ok evaluated accepted, columnNames_joined] at names
  have first := left.checked.selects leftMade
  have second := right.checked.selects rightMade
  have leftNamed := first.named "left"
  have rightNamed := second.named "right"
  obtain ⟨result, made⟩ := QueryStep.succeeds_joined first second leftNamed rightNamed reads kind
  refine ⟨result, ?_, QueryStep.joined_selects rfl rfl made,
    QueryStep.joined_valid_iff first second leftNamed rightNamed nodup made leftValid rightValid,
    QueryStep.joined_rows first second leftNamed rightNamed nodup made⟩
  rw [join_eq_ok evaluated accepted]
  exact toSql_pair_eq_ok.mpr ⟨_, _, _, _, leftMade, leftNamed, rightMade, rightNamed, made⟩

/-- A closure that asks whether the number of one row is larger than that of another one. -/
private def amountIsLarger (left right : Row) : Outcome TypedExpr := do
  (← left.get "c1").compare (← right.get "c2") .greaterThan

/-- What that closure computes. -/
private def largerAmount : Expr :=
  .binary (.compare .greaterThan) (.column .left "c1" none) (.column .right "c2" none)

/-- Of the first two numbers each is paired with the smaller ones of all three, and the first one,
which is larger than none, with a null. The limit stays in its sub-query. -/
theorem Reachable.join_rows_of_limited :
    ∃ (engine : Engine Int) (base other frame : Frame)
      (lefts rights result : QuerySpecification), Reachable base ∧ Reachable other ∧
      base.toSql {} = .ok lefts ∧ lefts.Valid engine ∧
      other.toSql {} = .ok rights ∧ rights.Valid engine ∧
      base.join other amountIsLarger .leftOuter = .ok frame ∧ frame.toSql {} = .ok result ∧
      result.Valid engine ∧ (result.rows engine : Multiset (List Int)) =
        JoinKind.leftOuter.pairs (lefts.contents engine) (rights.contents engine) engine.null
          (largerAmount.holdsForPair engine ["c1"] ["c2"]) := by
  have renamed : amounts.rename [("c1", "c2")] = .ok (.renamed amounts [("c1", "c2")]) := rfl
  have right := Reachable.rename (.table amounts_made) renamed
  have leftMade : (Frame.limited amounts 2).toSql {} = .ok firstAmountsQuery := rfl
  have rightMade : (Frame.renamed amounts [("c1", "c2")]).toSql {} =
      .ok (amountsQuery [.column (some "\"c2\"") amount] none) := rfl
  have rightValid : (amountsQuery [.column (some "\"c2\"") amount] none).Valid amountsEngine :=
    amountsQuery_valid_of_column _ nofun
  have evaluated : amountIsLarger
      { var := .left, columns := (Frame.limited amounts 2).columns }
      { var := .right, columns := (Frame.renamed amounts [("c1", "c2")]).columns } =
        .ok ⟨.boolean, largerAmount⟩ := rfl
  have accepted : (Frame.limited amounts 2).join (.renamed amounts [("c1", "c2")]) amountIsLarger
      .leftOuter = .ok (.joined _ _ _ _) := rfl
  have reads : largerAmount.ReadsFrom [(.left, ["c1"]), (.right, ["c2"])] := by
    simp [Expr.ReadsFrom, largerAmount, Expr.reads]
  have plain : largerAmount.OfRows := ⟨rfl, rfl⟩
  obtain ⟨result, made, -, valid, rows⟩ :=
    Reachable.firstAmounts.join_rows right leftMade rightMade firstAmountsQuery_valid rightValid
      evaluated accepted reads
  exact ⟨amountsEngine, _, _, _, _, _, result, .firstAmounts, right, leftMade,
    firstAmountsQuery_valid, rightMade, rightValid, accepted, made, valid.mpr plain, rows plain⟩

end Frame

end FrameQuery
