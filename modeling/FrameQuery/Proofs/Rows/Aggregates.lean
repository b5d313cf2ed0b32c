import FrameQuery.Frame.Basic
import FrameQuery.Proofs.Rows.Fields

/-!
# Aggregates over rows

An aggregate that a closure computes is a single call over what the closure computes of each row.
Written over a query it reduces the values of the rows of a group; called over the window of all
rows it reduces those of all places of the block, whatever the block makes of these afterwards. A
block without grouping keys computes everything from columns, or from aggregates alone, so that what
it computes of the values of its own columns is of the same kind.
-/

namespace FrameQuery

open Sql (Dialect Engine Expression Place QuerySpecification Relation SelectItem SortItem Window)
open Sql.Expression (Atomic Composed GroupLevel IsColumn IsWindowCall OutputLevel RowLevel hole
  atomic_isColumn composed_literal)

variable {V : Type} [DecidableEq V] {engine : Engine V}

/-! ### What closures aggregate -/

namespace Expr

/-- Whether an expression is a single call of an aggregate over some values. -/
def IsCallOver (e values : Expr) : Prop :=
  (∃ function, e = .aggregate function values) ∨ ∃ separator, e = .joinStrings values separator

/-- The value of an expression at a row among some rows, each given by what is read of it: an
aggregate reduces its values on all of the rows. -/
def valueOver (engine : Engine V) (rows : List (RowVar → String → V))
    (row : RowVar → String → V) : Expr → V
  | .aggregate function values =>
    engine.aggregate (.extension (.aggregate function hole))
      (rows.map fun read ↦ [values.value engine read])
  | .joinStrings values separator =>
    engine.aggregate (.extension (.joinStrings hole hole))
      (rows.map fun read ↦ [values.value engine read, (Constant.string separator).value engine])
  | e => e.value engine row

/-- What is computed from rows alone has the value that it has on the row. -/
theorem valueOver_of_ofRows {e : Expr} (plain : e.OfRows) (rows : List (RowVar → String → V))
    (row : RowVar → String → V) : e.valueOver engine rows row = e.value engine row := by
  cases e with
  | aggregate | joinStrings => cases plain.2
  | _ => rfl

variable {e values : Expr} {scope : Scope} {x y : Expression}

omit [DecidableEq V] in
/-- A single aggregate call is written as one. Besides what it is called over it has constants. -/
theorem IsCallOver.toSql_eq_ok (call : e.IsCallOver values) (made : e.toSql scope = .ok x) :
    ∃ (y : Expression) (constants : List Sql.Literal), values.toSql scope = .ok y ∧
      x.isAggregate = true ∧ x.takesOver = true ∧ x.operands = y :: constants.map .literal := by
  rcases call with ⟨function, rfl⟩ | ⟨separator, rfl⟩
  · obtain ⟨y, hy, rfl⟩ := toSql_aggregate_eq_ok.mp made
    exact ⟨y, [], hy, rfl, rfl, rfl⟩
  · obtain ⟨y, hy, rfl⟩ := toSql_joinStrings_eq_ok.mp made
    exact ⟨y, [.string separator false], hy, rfl, rfl, rfl⟩

/-- A written aggregate call reduces the values of what it is called over, wherever these are
computed. -/
theorem IsCallOver.value_toSql (call : e.IsCallOver values) (made : e.toSql scope = .ok x)
    (written : values.toSql scope = .ok y) {places : List (Place V)}
    {read : Place V → RowVar → String → V} (row : RowVar → String → V)
    (same : ∀ p ∈ places, y.value engine p = values.value engine (read p)) :
    engine.aggregate x.head (places.map fun p ↦ x.operands.map (·.value engine p)) =
      e.valueOver engine (places.map read) row := by
  rcases call with ⟨function, rfl⟩ | ⟨separator, rfl⟩
  · obtain ⟨z, hz, rfl⟩ := toSql_aggregate_eq_ok.mp made
    rw [written] at hz
    rw [valueOver, List.map_map, ← Except.ok.inj hz]
    exact congrArg _ (List.map_congr_left fun p hp ↦ congrArg ([·]) (same p hp))
  · obtain ⟨z, hz, rfl⟩ := toSql_joinStrings_eq_ok.mp made
    rw [written] at hz
    rw [valueOver, List.map_map, ← Except.ok.inj hz]
    refine congrArg _ (List.map_congr_left fun p hp ↦ ?_)
    have constant : ((Constant.string separator).toSql).value engine p =
        (Constant.string separator).value engine := Constant.value_toSql _
    exact congrArg₂ (fun a b ↦ [a, b]) (same p hp) constant

end Expr

/-! ### What columns read and aggregate -/

/-- What an expression reads of a query is of some level. -/
def Expr.ReadsAt (d : Dialect) (query : QuerySpecification) (level : Expression → Prop)
    (e : Expr) : Prop :=
  ∀ column ∈ e.reads, ∀ x, (Scope.single d query).resolve column.1 column.2 = .ok x → level x

/-- If a column is an aggregate, it is a single call over the value that it has on each row. -/
def ComputedColumn.AggregatesOnce (c : ComputedColumn) : Prop :=
  ∀ aggregate, c.aggregate = some aggregate → aggregate.expr.IsCallOver c.map.expr

/-- The value of a column on a row among some rows, which are read under names. -/
def ComputedColumn.valueOver (engine : Engine V) (names : List String) (rows : List (List V))
    (row : List V) (c : ComputedColumn) : V :=
  c.value.expr.valueOver engine (rows.map (rowReader engine names)) (rowReader engine names row)

namespace Sql

/-! ### Aggregates over all rows -/

omit [DecidableEq V] in
/-- The places of a block see the same groups. -/
theorem Place.groups_of_mem_all {groups : List (List (Env V))} {p : Place V}
    (h : p ∈ Place.all groups) : p.groups = groups := by
  obtain ⟨i, -, rfl⟩ := List.mem_map.mp h
  rfl

/-- An aggregate over the window of all rows reduces the values of its operands at all places. -/
theorem Expression.value_whole {x : Expression} (aggregate : x.isAggregate = true)
    (place : Place V) :
    (window x .whole).value engine place =
      engine.aggregate x.head ((Place.all place.groups).map fun p ↦
        x.operands.map (·.value engine p)) := by
  have partition : place.partition (fun _ ↦ ([] : List V)) = Place.all place.groups :=
    List.filter_eq_self.mpr fun _ _ ↦ decide_eq_true rfl
  rw [value_window]
  simp only [Window.whole, SortItem.orderings, List.map_nil, partition, engine.sorted_nil]
  rw [engine.windowed_aggregate _ _ _ (isAggregate_head.trans aggregate), List.map_map]
  rfl

/-! ### Blocks without grouping keys -/

namespace Expression

variable {atom : Expression → Prop} {x : Expression}

/-- What calls over windows of compositions are composed with is composed of the same expressions
and of such calls. -/
theorem outputLevel_composed :
    OutputLevel (Composed atom) x ↔
      Composed (fun y ↦ atom y ∨ y.IsWindowCall (Composed atom)) x := by
  constructor
  · intro h
    refine h.bind fun y hy ↦ ?_
    rcases hy with composed | call
    · exact composed.bind fun z hz ↦ .atom (.inl hz)
    · exact .atom (.inr call)
  · intro h
    refine h.bind fun y hy ↦ .atom ?_
    exact hy.imp_left .atom

/-- Calls over windows are no operators. -/
theorem atomic_output (atomic : Atomic atom) :
    Atomic fun y ↦ atom y ∨ y.IsWindowCall (Composed atom) := by
  rintro y (h | ⟨nested, w, rfl, -⟩)
  · exact atomic y h
  · rfl

/-- A call over the window of all rows may be selected exactly if its operands may be computed
before functions are called over windows. -/
theorem outputLevel_whole (plain : ∀ y, atom y → y.isWindow = false)
    (called : x.takesOver = true) :
    OutputLevel (Composed atom) (window x .whole) ↔ ∀ y ∈ x.operands, Composed atom y := by
  rw [outputLevel_composed]
  constructor
  · intro h
    rcases h.of_not_operator rfl with h | ⟨nested, w, he, -, -, operands, -⟩
    · cases plain _ h
    · cases he
      exact operands
  · intro operands
    exact .atom (.inr ⟨x, .whole, rfl, called, rfl, operands, List.forall_mem_nil _⟩)

end Expression

namespace QuerySpecification

variable {query : QuerySpecification} {columns : List (List String)}

/-- What a block without grouping keys computes everything from: aggregates, or columns if it makes
no groups. -/
def IsLevelAtom (query : QuerySpecification) (columns : List (List String)) (x : Expression) :
    Prop :=
  if query.isGrouped then x.isAggregate = true ∧ ∀ y ∈ x.operands, y.RowLevel columns
  else x.IsColumn columns

/-- A block without grouping keys composes what it computes of aggregates or columns. -/
theorem level_eq (groupBy : query.groupBy = []) (columns : List (List String)) :
    query.Level columns = Composed (query.IsLevelAtom columns) := by
  rw [Level, groupBy]
  cases h : query.isGrouped with
  | true =>
    have atoms : query.IsLevelAtom columns = fun x ↦
        x ∈ [] ∨ x.isAggregate = true ∧ ∀ y ∈ x.operands, y.RowLevel columns := by
      funext x
      simp [IsLevelAtom, h]
    rw [atoms]
    rfl
  | false =>
    have atoms : query.IsLevelAtom columns = IsColumn columns := by
      funext x
      simp [IsLevelAtom, h]
    rw [atoms]
    rfl

/-- Aggregates and columns are neither operators nor calls over windows. -/
theorem levelAtom_plain (query : QuerySpecification) (columns : List (List String)) :
    Atomic (query.IsLevelAtom columns) ∧
    ∀ y, query.IsLevelAtom columns y → y.isWindow = false := by
  have each (y : Expression) (h : query.IsLevelAtom columns y) :
      y.isOperator = false ∧ y.isWindow = false := by
    rw [IsLevelAtom] at h
    split at h
    · cases y with
      | extension function => exact ⟨by simp [Expression.isOperator, h.1], rfl⟩
      | _ => cases h.1
    · obtain ⟨name, rfl, -⟩ := h
      exact ⟨rfl, rfl⟩
  exact ⟨fun y h ↦ (each y h).1, fun y h ↦ (each y h).2⟩

end QuerySpecification

end Sql

end FrameQuery
