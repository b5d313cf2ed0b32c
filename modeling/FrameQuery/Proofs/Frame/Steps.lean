import FrameQuery.Frame.Sql
import FrameQuery.Proofs.Expr.Written
import FrameQuery.Proofs.Sql.Labels

/-!
# What each step of a query does

For each step the exact condition under which it succeeds and the query it then makes, guards and
wrapping included. Properties of emitted queries are proved from these lemmas; a step is unfolded
behind this module only where its failures count as well.
-/

namespace FrameQuery

open Sql (Dialect QuerySpecification SelectItem SubQuery)

namespace QueryStep

variable {d : Dialect} {query result : QuerySpecification} {names : List String}

/-- A query is wrapped exactly if that is needed. -/
theorem wrapIf_eq_ok {needed : Bool} :
    wrapIf d needed query = .ok result ↔
      (needed = true ∧ ∃ sub, query.named d "root" = .ok sub ∧ result = sub.all) ∨
        (needed = false ∧ result = query) := by
  cases needed with
  | true => simp [wrapIf, QuerySpecification.wrapped_none_eq_ok]
  | false => simp [wrapIf, eq_comm]

/-- A condition in addition to those that hold already. -/
def conjoined (earlier : Option Sql.Expression) (condition : Sql.Expression) : Sql.Expression :=
  match earlier with
  | some earlier => .logical .and earlier condition
  | none => condition

/-- Whether a query has to be wrapped before its rows are filtered. -/
def wrapsForFilter (query : QuerySpecification) : Bool :=
  query.hasAny [.groupBy, .offset, .limit] || query.selectsWindow

/-- A filter changes nothing if it always holds; otherwise its condition is added to a query that is
wrapped if need be. -/
theorem filtered_eq_ok {condition : Expr} :
    filtered d condition query = .ok result ↔
      (condition = .constant (.boolean true) ∧ result = query) ∨
        (condition ≠ .constant (.boolean true) ∧ ∃ inner expression,
          wrapIf d (wrapsForFilter query) query = .ok inner ∧
          condition.toSql (.single d inner) = .ok expression ∧
          result = { inner with filter := some (conjoined inner.filter expression) }) := by
  by_cases hc : condition = .constant (.boolean true)
  · rw [hc]
    simp [filtered, eq_comm]
  · have he : filtered d condition query = (do
        let inner ← wrapIf d (wrapsForFilter query) query
        let expression ← condition.toSql (.single d inner)
        return { inner with filter := some (conjoined inner.filter expression) }) := by
      unfold filtered
      split
      · exact absurd rfl hc
      · rfl
    rw [he]
    simp only [hc, false_and, false_or, ne_eq, not_false_eq_true, true_and, Outcome.bind_eq_ok,
      Outcome.pure_eq_ok, eq_comm (b := result), exists_and_left]

/-- Columns are kept exactly if all of them can be taken out of the select list. -/
theorem retain_eq_ok :
    retain d names query = .ok result ↔
      ∃ items, takeColumns d names query.items = .ok items ∧ result = query.withItems items := by
  unfold retain
  simp only [Outcome.bind_eq_ok, Outcome.pure_eq_ok, eq_comm (b := result)]

/-- Whether a query has to be wrapped before columns are dropped. -/
def wrapsForSelection (query : QuerySpecification) : Bool :=
  query.hasAny [.groupBy, .orderBy, .having, .distinct]

/-- A selection changes nothing if the columns are selected already; otherwise it keeps them in a
sub-query or in place. -/
theorem selected_eq_ok :
    selected d names query = .ok result ↔
      (selectsExactly query (names.map d.quoted) = true ∧ result = query) ∨
        (selectsExactly query (names.map d.quoted) = false ∧ wrapsForSelection query = true ∧
          query.wrapped d "root" (some (names.map d.quoted)) = .ok result) ∨
        (selectsExactly query (names.map d.quoted) = false ∧ wrapsForSelection query = false ∧
          retain d names query = .ok result) := by
  unfold selected
  change (if selectsExactly query (names.map d.quoted) then _ else
    if wrapsForSelection query then _ else _) = _ ↔ _
  cases selectsExactly query (names.map d.quoted) with
  | true =>
    simp only [if_true, Except.ok.injEq, eq_comm (b := result), true_and, reduceCtorEq, false_and,
      or_false]
  | false =>
    cases wrapsForSelection query with
    | true =>
      simp only [Bool.false_eq_true, if_false, if_true, true_and, reduceCtorEq, false_and,
        false_or, or_false]
    | false =>
      simp only [Bool.false_eq_true, if_false, true_and, false_and, false_or]

/-- A query whose rows are made distinct is restricted to columns first and then wrapped if it has a
range. -/
theorem distinct_eq_ok {columns : Option (List String)} :
    distinct d columns query = .ok result ↔
      ∃ restricted inner,
        (match columns with
          | none => restricted = query
          | some names => selected d names query = .ok restricted) ∧
        wrapIf d (restricted.hasAny [.offset, .limit]) restricted = .ok inner ∧
        result = { inner with select := { inner.select with distinct := true } } := by
  unfold distinct
  cases columns <;>
    simp only [Outcome.bind_eq_ok, Outcome.pure_eq_ok, eq_comm (b := result), eq_comm (a := query),
      exists_and_left]

/-- New columns are written one by one. -/
theorem newItems_eq_ok {toItem : ComputedColumn → Outcome SelectItem} {new : List ComputedColumn}
    {items : List SelectItem} :
    newItems toItem new = .ok items ↔ List.Forall₂ (fun n i ↦ toItem n = .ok i) new items := by
  have he : newItems toItem new = new.mapM toItem := by
    induction new with
    | nil => rfl
    | cons n rest ih => rw [newItems, ih, List.mapM_cons]
  rw [he, Outcome.mapM_eq_ok]

/-- A column of an extension is its value, or an aggregate over all rows. -/
theorem newItem_eq_ok {scope : Scope} {new : ComputedColumn} {result : SelectItem} :
    newItem scope new = .ok result ↔
      (new.aggregate = none ∧ ∃ expression, new.map.expr.toSql scope = .ok expression ∧
        result = item scope.dialect new.name expression) ∨
      ∃ aggregate, new.aggregate = some aggregate ∧ ∃ expression,
        aggregate.expr.toSql scope = .ok expression ∧
          result = item scope.dialect new.name (.window expression .whole) := by
  unfold newItem
  cases new.aggregate with
  | none =>
    simp only [Outcome.bind_eq_ok, Outcome.pure_eq_ok, eq_comm (b := result), true_and,
      reduceCtorEq, false_and, exists_false, or_false]
  | some aggregate =>
    simp only [Outcome.bind_eq_ok, Outcome.pure_eq_ok, eq_comm (b := result), reduceCtorEq,
      false_and, false_or, Option.some.injEq, exists_eq_left']

/-- A column of a window extension is its value over the window. -/
theorem windowItem_eq_ok {scope : Scope} {window : Sql.Window} {new : ComputedColumn}
    {result : SelectItem} :
    windowItem scope window new = .ok result ↔
      ∃ expression, new.value.expr.toSql scope = .ok expression ∧
        result = item scope.dialect new.name (.window expression window) := by
  unfold windowItem
  simp only [Outcome.bind_eq_ok, Outcome.pure_eq_ok, eq_comm (b := result)]

/-- A column of a projection or a grouping is its value. -/
theorem valueItem_eq_ok {scope : Scope} {new : ComputedColumn} {result : SelectItem} :
    valueItem scope new = .ok result ↔
      ∃ expression, new.value.expr.toSql scope = .ok expression ∧
        result = item scope.dialect new.name expression := by
  unfold valueItem
  simp only [Outcome.bind_eq_ok, Outcome.pure_eq_ok, eq_comm (b := result)]

/-- An extension puts its columns behind those of a query that is wrapped if it is grouped. -/
theorem extended_eq_ok {new : List ComputedColumn} :
    extended d new query = .ok result ↔
      ∃ inner items, wrapIf d (query.has .groupBy) query = .ok inner ∧
        List.Forall₂ (fun n i ↦ newItem (.single d inner) n = .ok i) new items ∧
        result = inner.withItems (inner.items ++ items) := by
  unfold extended
  simp only [Outcome.bind_eq_ok, Outcome.pure_eq_ok, eq_comm (b := result), newItems_eq_ok,
    exists_and_left]

/-- A window extension puts its columns behind those of the wrapped query. -/
theorem windowExtended_eq_ok {window : WindowSpec} {new : List ComputedColumn} :
    windowExtended d window new query = .ok result ↔
      ∃ sub clause items, query.named d "root" = .ok sub ∧
        window.toSql (.single d sub.all) = .ok clause ∧
        List.Forall₂ (fun n i ↦ windowItem (.single d sub.all) clause n = .ok i) new items ∧
        result = sub.all.withItems (sub.all.items ++ items) := by
  unfold windowExtended
  simp only [Outcome.bind_eq_ok, Outcome.pure_eq_ok, eq_comm (b := result), newItems_eq_ok,
    QuerySpecification.wrapped_none_eq_ok]
  constructor
  · rintro ⟨_, ⟨sub, hs, rfl⟩, clause, ho, items, hi, hr⟩
    exact ⟨sub, clause, items, hs, ho, hi, hr⟩
  · rintro ⟨sub, clause, items, hs, ho, hi, hr⟩
    exact ⟨_, ⟨sub, hs, rfl⟩, clause, ho, items, hi, hr⟩

/-- A projection has its columns in place of those of the wrapped query. -/
theorem projected_eq_ok {new : List ComputedColumn} :
    projected d new query = .ok result ↔
      ∃ sub items, query.named d "root" = .ok sub ∧
        List.Forall₂ (fun n i ↦ valueItem (.single d sub.all) { n with aggregate := none } = .ok i)
          new items ∧
        result = sub.all.withItems items := by
  unfold projected
  simp only [Outcome.bind_eq_ok, Outcome.pure_eq_ok, eq_comm (b := result), newItems_eq_ok,
    QuerySpecification.wrapped_none_eq_ok]
  constructor
  · rintro ⟨_, ⟨sub, hs, rfl⟩, items, hi, hr⟩
    exact ⟨sub, items, hs, hi, hr⟩
  · rintro ⟨sub, items, hs, hi, hr⟩
    exact ⟨_, ⟨sub, hs, rfl⟩, items, hi, hr⟩

/-- Pairs of names between quotes. -/
def quotedPairs (d : Dialect) (pairs : List (String × String)) : List (String × String) :=
  pairs.map fun (old, new) ↦ (d.quoted old, d.quoted new)

/-- A renaming renames the entries of the select list one by one. -/
theorem renamed_eq_ok {pairs : List (String × String)} :
    renamed d pairs query = .ok result ↔
      ∃ items, List.Forall₂ (fun i r ↦ renamedItem (quotedPairs d pairs) i = .ok r) query.items
        items ∧ result = query.withItems items := by
  have he (quoted : List (String × String)) (items : List SelectItem) :
      renamedItems quoted items = items.mapM (renamedItem quoted) := by
    induction items with
    | nil => rfl
    | cons i rest ih => rw [renamedItems, ih, List.mapM_cons]
  unfold renamed
  simp only [Outcome.bind_eq_ok, Outcome.pure_eq_ok, eq_comm (b := result), he,
    Outcome.mapM_eq_ok]
  rfl

/-- Whether a query has to be wrapped before its rows are grouped. -/
def wrapsForGrouping (query : QuerySpecification) : Bool :=
  query.hasAny [.groupBy, .distinct, .offset, .limit] || query.selectsWindow

/-- A grouping keeps its keys and puts its aggregates behind them, in a query that is wrapped if
need be. -/
theorem grouped_eq_ok {grouping : List String} {aggregates : List ComputedColumn} :
    grouped d grouping aggregates query = .ok result ↔
      ∃ inner items keys kept, wrapIf d (wrapsForGrouping query) query = .ok inner ∧
        List.Forall₂ (fun n i ↦ valueItem (.single d inner) n = .ok i) aggregates items ∧
        (Scope.single d inner).resolveAll .right grouping = .ok keys ∧
        takeColumns d grouping inner.items = .ok kept ∧
        result = { inner.withItems (kept ++ items) with groupBy := keys } := by
  unfold grouped
  simp only [Outcome.bind_eq_ok, Outcome.pure_eq_ok, newItems_eq_ok, retain_eq_ok,
    eq_comm (b := result), exists_and_left]
  constructor
  · rintro ⟨inner, hw, items, hi, keys, hk, _, ⟨kept, ht, rfl⟩, hr⟩
    exact ⟨inner, hw, items, hi, keys, hk, kept, ht, hr⟩
  · rintro ⟨inner, hw, items, hi, keys, hk, kept, ht, hr⟩
    exact ⟨inner, hw, items, hi, keys, hk, _, ⟨kept, ht, rfl⟩, hr⟩

/-- A sorting replaces the order of a query that is wrapped if it has a range. -/
theorem sorted_eq_ok {keys : List SortKey} :
    sorted d keys query = .ok result ↔
      ∃ inner items, wrapIf d (query.hasAny [.offset, .limit]) query = .ok inner ∧
        List.Forall₂ (fun k i ↦ k.toSql (.single d inner) = .ok i) keys items ∧
        result = { inner with orderBy := items } := by
  unfold sorted
  simp only [Outcome.bind_eq_ok, Outcome.pure_eq_ok, SortKey.allToSql_eq_ok, eq_comm (b := result),
    exists_and_left]

/-- A slice sets both ends of the range of a query that is wrapped if it has one. -/
theorem sliced_eq_ok {start stop : Int64} :
    sliced d start stop query = .ok result ↔
      ∃ inner, wrapIf d (query.hasAny [.offset, .limit]) query = .ok inner ∧
        result = { inner with
          offset := some (.integer start), limit := some (.integer (stop - start)) } := by
  unfold sliced
  simp only [Outcome.bind_eq_ok, Outcome.pure_eq_ok, eq_comm (b := result)]

/-- A limit sets the end of the range of a query that is wrapped if it has one. -/
theorem limited_eq_ok {count : Int64} :
    limited d count query = .ok result ↔
      ∃ inner, wrapIf d (query.has .limit) query = .ok inner ∧
        result = { inner with limit := some (.integer count) } := by
  unfold limited
  simp only [Outcome.bind_eq_ok, Outcome.pure_eq_ok, eq_comm (b := result)]

/-- Dropping rows sets the start of the range of a query that is wrapped if it has a range. -/
theorem dropped_eq_ok {count : Int64} :
    dropped d count query = .ok result ↔
      ∃ inner, wrapIf d (query.hasAny [.offset, .limit]) query = .ok inner ∧
        result = { inner with offset := some (.integer count) } := by
  unfold dropped
  simp only [Outcome.bind_eq_ok, Outcome.pure_eq_ok, eq_comm (b := result)]

/-- The pairs of rows of two sub-queries for which an expression holds. -/
def paired (kind : JoinKind) (left right : SubQuery) (holds : Sql.Expression) :
    QuerySpecification :=
  .plain (left.all.items ++ right.all.items)
    [.join (joinType kind) left.relation right.relation (some (.condition holds))]

/-- A join wraps the pairs of rows of its two sub-queries. -/
theorem joined_eq_ok {condition : Expr} {kind : JoinKind} {left right : SubQuery} :
    joined d condition kind left right = .ok result ↔
      ∃ holds sub, condition.toSql (.pair d left.all right.all) = .ok holds ∧
        (paired kind left right holds).named d "root" = .ok sub ∧ result = sub.all := by
  unfold joined
  simp only [Outcome.bind_eq_ok, QuerySpecification.wrapped_none_eq_ok, exists_and_left]
  rfl

end QueryStep

/-- A frame made of two frames is written from a sub-query for each of them. -/
theorem Frame.toSql_pair_eq_ok {d : Dialect} {base other : Frame} {query : QuerySpecification}
    {step : SubQuery → SubQuery → Outcome QuerySpecification} :
    (do
      let left ← (← base.toSql d).named d "left"
      let right ← (← other.toSql d).named d "right"
      step left right) = .ok query ↔
      ∃ lefts left rights right, base.toSql d = .ok lefts ∧ lefts.named d "left" = .ok left ∧
        other.toSql d = .ok rights ∧ rights.named d "right" = .ok right ∧
        step left right = .ok query := by
  simp only [Outcome.bind_eq_ok, exists_and_left]

end FrameQuery
