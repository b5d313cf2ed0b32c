import FrameQuery.Proofs.Rows.Validity

/-!
# Values of what closures compute

A closure over rows computes an expression, which has a value on a row: columns are read from the
row, and operators are those of the database. Written over a query, the expression has that value
wherever the query has the values of the row under its labels. It is one over columns of the sources
of the query exactly if it calls no function of the position of a row and no aggregate, and the
columns it reads are such expressions.
-/

namespace FrameQuery

open Sql (Engine Place)

open Sql.Expression (Atomic Composed RowLevel atomic_isColumn composed_literal hole
  rowLevel_literal value_operator)

variable {V : Type} [DecidableEq V] (engine : Engine V)

/-! ### Values on rows -/

/-- The value of a constant. -/
def Constant.value (constant : Constant) : V := constant.toSql.value engine (.row [])

/-- The value of an operator without operands. -/
def NullaryOperator.value (operator : NullaryOperator) : V :=
  operator.toSql.value engine (.row [])

/-- The value of an operator from that of its operand. Its other operands are constants. -/
def UnaryOperator.value (operator : UnaryOperator) (operand : V) : V :=
  let call := operator.toSql hole
  engine.scalar call.head (operand :: call.operands.tail.map (·.value engine (.row [])))

/-- The value of an operator from those of its operands. -/
def BinaryOperator.value (operator : BinaryOperator) (left right : V) : V :=
  engine.scalar (operator.toSql hole hole).head [left, right]

namespace Expr

mutual

/-- The value of an expression over rows whose columns are read by `read`. An aggregate reduces
these rows alone. -/
def value (read : RowVar → String → V) : Expr → V
  | .column row name _ => read row name
  | .constant known => known.value engine
  | .nullary operator => operator.value engine
  | .unary operator operand => operator.value engine (operand.value read)
  | .binary operator left right => operator.value engine (left.value read) (right.value read)
  | .inList value items =>
    let list := engine.scalar (.list (items.map fun _ ↦ hole)) (itemValues read items)
    engine.scalar (.inPredicate hole hole) [value.value read, list]
  | .ifElse condition result otherwise =>
    engine.scalar (.searchedCase [⟨hole, hole⟩] (some hole))
      [condition.value read, result.value read, otherwise.value read]
  | .aggregate function values =>
    engine.aggregate (.extension (.aggregate function hole)) [[values.value read]]
  | .joinStrings values separator =>
    engine.aggregate (.extension (.joinStrings hole hole))
      [[values.value read, (Constant.string separator).value engine]]

/-- The values of the items of a list. -/
def itemValues (read : RowVar → String → V) : List Expr → List V
  | [] => []
  | item :: rest => item.value read :: itemValues read rest

end

/-- The values of a list are those of its items. -/
theorem itemValues_eq_map {read : RowVar → String → V} {items : List Expr} :
    itemValues engine read items = items.map (value engine read) := by
  induction items with
  | nil => rfl
  | cons item rest ih => rw [itemValues, ih, List.map_cons]

/-- An expression that is computed from rows alone, as closures over rows compute it: it calls no
function of the position of a row and no aggregate. -/
def OfRows (e : Expr) : Prop := e.ranks = false ∧ e.aggregated = []

end Expr

/-! ### Operators as they are written -/

variable {engine} {place : Place V} {columns : List (List String)}
  {atom : Sql.Expression → Prop}

/-- A literal has the same value everywhere. -/
theorem Sql.Expression.value_literal (value : Sql.Literal) :
    (Sql.Expression.literal value).value engine place = engine.scalar (.literal value) [] :=
  value_operator rfl

/-- A written constant has its value everywhere. -/
theorem Constant.value_toSql (constant : Constant) :
    constant.toSql.value engine place = constant.value engine := by
  have literal (value : Sql.Literal) : (Sql.Expression.literal value).value engine place =
      (Sql.Expression.literal value).value engine (.row []) := by
    rw [Sql.Expression.value_literal, Sql.Expression.value_literal]
  cases constant with
  | strictDate | dateTime =>
    refine (value_operator rfl).trans (Eq.trans ?_ (value_operator rfl).symm)
    exact congrArg (engine.scalar _) (congrArg ([·]) (literal _))
  | _ => exact literal _

/-- A written constant reads nothing. -/
theorem Constant.composed_toSql (constant : Constant) : Composed atom constant.toSql := by
  cases constant with
  | strictDate | dateTime =>
    exact .operator rfl (List.forall_mem_singleton.mpr (composed_literal _))
  | _ => exact composed_literal _

/-- An operator without operands that is no ranking has its value everywhere. -/
theorem NullaryOperator.value_toSql {operator : NullaryOperator} (plain : operator.isRank = false) :
    operator.toSql.value engine place = operator.value engine := by
  have known (p : Place V) : operator.toSql.value engine p =
      engine.scalar operator.toSql.head [] := by
    cases operator with
    | rank function => cases plain
    | _ => exact value_operator rfl
  exact (known place).trans (known (.row [])).symm

/-- A function of the position of a row is computed from no columns. -/
theorem Sql.Expression.not_rowLevel_of_isWindowFunction {x : Sql.Expression}
    (h : x.isWindowFunction = true) : ¬x.RowLevel columns := by
  intro level
  have other : x.isOperator = false := by
    cases x with
    | call function => simp [isOperator, h]
    | _ => cases h
  obtain ⟨name, rfl, -⟩ := level.isColumn other
  cases h

/-- An aggregate is computed from no columns of one row. -/
theorem Sql.Expression.not_rowLevel_of_isAggregate {x : Sql.Expression}
    (h : x.isAggregate = true) : ¬x.RowLevel columns := by
  intro level
  have reduced := level.reduces_eq_false
  rw [reduces_eq, h] at reduced
  cases reduced

/-- A written operator without operands that is no ranking reads nothing. -/
theorem NullaryOperator.composed_toSql {operator : NullaryOperator}
    (plain : operator.isRank = false) : Composed atom operator.toSql := by
  cases operator with
  | rank function => cases plain
  | _ => exact .operator rfl (List.forall_mem_nil _)

/-- A written operator without operands that reads columns of a row is no ranking. -/
theorem NullaryOperator.isRank_of_rowLevel {operator : NullaryOperator}
    (level : operator.toSql.RowLevel columns) : operator.isRank = false := by
  cases operator with
  | rank function =>
    exact absurd level
      (Sql.Expression.not_rowLevel_of_isWindowFunction function.isWindowFunction_toSql)
  | _ => rfl

namespace UnaryOperator

variable (operator : UnaryOperator) (operand : Sql.Expression)

/-- An operator is written as one. -/
theorem isOperator_toSql : (operator.toSql operand).isOperator = true := by
  cases operator <;> rfl

/-- Behind its operand an operator has constants. -/
theorem operands_toSql : ∃ constants : List Sql.Literal,
    (operator.toSql operand).operands = operand :: constants.map .literal ∧
      (operator.toSql hole).operands = hole :: constants.map .literal := by
  cases operator with
  | roundTo scale => exact ⟨[.integer scale], rfl, rfl⟩
  | like kind text => exact ⟨[.string (kind.pattern text) false], rfl, rfl⟩
  | _ => exact ⟨[], rfl, rfl⟩

/-- A written operator has its value from that of its operand. -/
theorem value_toSql : (operator.toSql operand).value engine place =
    operator.value engine (operand.value engine place) := by
  have head : (operator.toSql operand).head = (operator.toSql hole).head := by
    cases operator <;> rfl
  obtain ⟨constants, ho, hh⟩ := operator.operands_toSql operand
  rw [value_operator (operator.isOperator_toSql operand), value, head, ho, hh]
  simp only [List.map_cons, List.tail_cons, List.map_map, Function.comp_def,
    Sql.Expression.value_literal]

/-- A written operator is composed of something exactly if its operand is. -/
theorem composed_toSql (atomic : Atomic atom) :
    Composed atom (operator.toSql operand) ↔ Composed atom operand := by
  obtain ⟨constants, ho, -⟩ := operator.operands_toSql operand
  rw [atomic.composed_operator (operator.isOperator_toSql operand), ho, List.forall_mem_cons,
    List.forall_mem_map]
  exact and_iff_left fun value _ ↦ composed_literal value

end UnaryOperator

namespace BinaryOperator

variable (operator : BinaryOperator) (left right : Sql.Expression)

/-- An operator is written as one, and only on its operands. -/
theorem operands_toSql : (operator.toSql left right).isOperator = true ∧
    (operator.toSql left right).operands = [left, right] := by
  cases operator <;> exact ⟨rfl, rfl⟩

/-- A written operator has its value from those of its operands. -/
theorem value_toSql : (operator.toSql left right).value engine place =
    operator.value engine (left.value engine place) (right.value engine place) := by
  have head : (operator.toSql left right).head = (operator.toSql hole hole).head := by
    cases operator <;> rfl
  rw [value_operator (operator.operands_toSql left right).1, value, head,
    (operator.operands_toSql left right).2]
  rfl

/-- A written operator is composed of something exactly if its operands are. -/
theorem composed_toSql (atomic : Atomic atom) : Composed atom (operator.toSql left right) ↔
    Composed atom left ∧ Composed atom right := by
  rw [atomic.composed_operator (operator.operands_toSql left right).1,
    (operator.operands_toSql left right).2]
  simp

end BinaryOperator

/-- A column at another row is computed from no columns of one row. -/
theorem RowAccessor.not_rowLevel_toSql (accessor : RowAccessor) (value : Sql.Expression) :
    ¬(accessor.toSql value).RowLevel columns :=
  Sql.Expression.not_rowLevel_of_isWindowFunction (accessor.isWindowFunction_toSql value)

/-! ### Expressions as they are written -/

namespace Expr

/-- Two operands are computed from rows alone if each of them is. -/
theorem ofRows_binary {operator : BinaryOperator} {left right : Expr} :
    (binary operator left right).OfRows ↔ left.OfRows ∧ right.OfRows := by
  simp only [OfRows, ranks, aggregated, Bool.or_eq_false_iff, List.append_eq_nil_iff]
  exact and_and_and_comm

/-- Membership is computed from rows alone if the value and all items of the list are. -/
theorem ofRows_inList {v : Expr} {items : List Expr} :
    (inList v items).OfRows ↔ v.OfRows ∧ ∀ item ∈ items, item.OfRows := by
  simp only [OfRows, ranks, aggregated, Bool.or_eq_false_iff, List.append_eq_nil_iff,
    itemsRank_eq_false, itemAggregated_eq_flatMap, List.flatMap_eq_nil_iff, forall_and]
  exact and_and_and_comm

/-- A case distinction is computed from rows alone if its condition and both of its values are. -/
theorem ofRows_ifElse {condition result otherwise : Expr} :
    (ifElse condition result otherwise).OfRows ↔
      condition.OfRows ∧ result.OfRows ∧ otherwise.OfRows := by
  simp only [OfRows, ranks, aggregated, Bool.or_eq_false_iff, List.append_eq_nil_iff]
  tauto

variable {scope : Scope} {e : Expr} {x : Sql.Expression}

/-- An expression over rows, written over queries that have the values of these rows under their
labels, has its value. -/
theorem value_toSql {read : RowVar → String → V} (made : e.toSql scope = .ok x) (plain : e.OfRows)
    (columns : ∀ column ∈ e.reads, ∀ z, scope.resolve column.1 column.2 = .ok z →
      z.value engine place = read column.1 column.2) :
    x.value engine place = e.value engine read := by
  induction e generalizing x with
  | column row name accessor =>
    obtain ⟨z, hz, rfl⟩ := toSql_column_eq_ok.mp made
    cases accessor with
    | none => exact columns (row, name) List.mem_cons_self z hz
    -- What is read at another row of a window is not computed from the row alone.
    | some accessor => cases plain.1
  | constant known =>
    rw [← Except.ok.inj made]
    exact known.value_toSql
  | nullary operator =>
    rw [← Except.ok.inj made]
    exact operator.value_toSql plain.1
  | unary operator operand ih =>
    obtain ⟨y, hy, rfl⟩ := toSql_unary_eq_ok.mp made
    rw [operator.value_toSql, ih hy plain columns, value]
  | binary operator left right ihl ihr =>
    obtain ⟨l, r, hl, hr, rfl⟩ := toSql_binary_eq_ok.mp made
    obtain ⟨pl, pr⟩ := ofRows_binary.mp plain
    obtain ⟨cl, cr⟩ := List.forall_mem_append.mp columns
    rw [operator.value_toSql, ihl hl pl cl, ihr hr pr cr, value]
  | inList v items ihv ihi =>
    obtain ⟨y, ys, hy, hys, rfl⟩ := toSql_inList_eq_ok.mp made
    obtain ⟨pv, pi⟩ := ofRows_inList.mp plain
    obtain ⟨cv, ci⟩ := List.forall_mem_append.mp columns
    have each : List.Forall₂ (fun i y ↦ value engine read i = y.value engine place) items ys := by
      refine ((List.forall₂_and_left items ys).mpr ⟨fun _ hi ↦ hi, hys⟩).imp fun item y h ↦ ?_
      refine (ihi item h.1 h.2 (pi item h.1) fun column hc ↦ ci column ?_).symm
      exact itemReads_eq_flatMap ▸ List.mem_flatMap.mpr ⟨item, h.1, hc⟩
    have values : items.map (value engine read) = ys.map (·.value engine place) := by
      rwa [← List.forall₂_eq_eq_eq, List.forall₂_map_left_iff, List.forall₂_map_right_iff]
    have list : (Sql.Expression.list ys).value engine place =
        engine.scalar (.list (items.map fun _ ↦ hole)) (itemValues engine read items) := by
      rw [value_operator rfl, itemValues_eq_map, values, List.map_const', hys.length_eq,
        ← List.map_const']
      rfl
    rw [value_operator rfl, value, ← ihv hy pv cv, ← list]
    rfl
  | ifElse condition result otherwise ihc ihr iho =>
    obtain ⟨c, r, o, hc, hr, ho, rfl⟩ := toSql_ifElse_eq_ok.mp made
    obtain ⟨pc, pr, po⟩ := ofRows_ifElse.mp plain
    obtain ⟨cc, others⟩ := List.forall_mem_append.mp columns
    obtain ⟨cr, co⟩ := List.forall_mem_append.mp others
    rw [value_operator rfl, value, ← ihc hc pc cc, ← ihr hr pr cr, ← iho ho po co]
    rfl
  | aggregate | joinStrings => cases plain.2

/-- A written case distinction is composed of something exactly if all its parts are. -/
private theorem composed_searchedCase (atomic : Atomic atom) {c r o : Sql.Expression} :
    Composed atom (.searchedCase [⟨c, r⟩] (some o)) ↔
      Composed atom c ∧ Composed atom r ∧ Composed atom o := by
  rw [atomic.composed_operator rfl]
  simp [Sql.Expression.operands]

/-- A written membership is composed of something exactly if its value and all items of the list
are. -/
private theorem composed_inPredicate (atomic : Atomic atom) {y : Sql.Expression}
    {ys : List Sql.Expression} : Composed atom (.inPredicate y (.list ys)) ↔
      Composed atom y ∧ ∀ item ∈ ys, Composed atom item := by
  have list : Composed atom (.list ys) ↔ ∀ item ∈ ys, Composed atom item :=
    atomic.composed_operator rfl
  rw [atomic.composed_operator rfl, ← list]
  simp [Sql.Expression.operands]

/-- An expression over rows, written over queries, is composed of something exactly if the columns
it reads are. -/
theorem composed_toSql (atomic : Atomic atom) (made : e.toSql scope = .ok x) (plain : e.OfRows) :
    Composed atom x ↔ ∀ column ∈ e.reads, ∀ z, scope.resolve column.1 column.2 = .ok z →
      Composed atom z := by
  induction e generalizing x with
  | column row name accessor =>
    obtain ⟨z, hz, rfl⟩ := toSql_column_eq_ok.mp made
    cases accessor with
    | none =>
      rw [reads, List.forall_mem_singleton]
      simp [hz]
    | some accessor => cases plain.1
  | constant known =>
    rw [← Except.ok.inj made]
    exact iff_of_true known.composed_toSql (List.forall_mem_nil _)
  | nullary operator =>
    rw [← Except.ok.inj made]
    exact iff_of_true (operator.composed_toSql plain.1) (List.forall_mem_nil _)
  | unary operator operand ih =>
    obtain ⟨y, hy, rfl⟩ := toSql_unary_eq_ok.mp made
    rw [operator.composed_toSql y atomic, ih hy plain]
    rfl
  | binary operator left right ihl ihr =>
    obtain ⟨l, r, hl, hr, rfl⟩ := toSql_binary_eq_ok.mp made
    obtain ⟨pl, pr⟩ := ofRows_binary.mp plain
    rw [operator.composed_toSql l r atomic, ihl hl pl, ihr hr pr, reads, List.forall_mem_append]
  | inList v items ihv ihi =>
    obtain ⟨y, ys, hy, hys, rfl⟩ := toSql_inList_eq_ok.mp made
    obtain ⟨pv, pi⟩ := ofRows_inList.mp plain
    have each := Outcome.forall_iff_of_mem hys fun item hi y hy ↦ (ihi item hi hy (pi item hi)).symm
    rw [composed_inPredicate atomic, ihv hy pv, ← each, reads, itemReads_eq_flatMap,
      List.forall_mem_append, List.forall_mem_flatMap]
  | ifElse condition result otherwise ihc ihr iho =>
    obtain ⟨c, r, o, hc, hr, ho, rfl⟩ := toSql_ifElse_eq_ok.mp made
    obtain ⟨pc, pr, po⟩ := ofRows_ifElse.mp plain
    rw [composed_searchedCase atomic, ihc hc pc, ihr hr pr, iho ho po, reads,
      List.forall_mem_append, List.forall_mem_append]
  | aggregate | joinStrings => cases plain.2

/-- What is written over queries as an expression over columns of rows is computed from rows
alone. -/
private theorem ofRows_of_rowLevel (made : e.toSql scope = .ok x) (level : x.RowLevel columns) :
    e.OfRows := by
  have atomic := atomic_isColumn columns
  induction e generalizing x with
  | column row name accessor =>
    obtain ⟨z, -, rfl⟩ := toSql_column_eq_ok.mp made
    cases accessor with
    | none => exact ⟨rfl, rfl⟩
    | some accessor => exact absurd level (accessor.not_rowLevel_toSql z)
  | constant known => exact ⟨rfl, rfl⟩
  | nullary operator =>
    rw [← Except.ok.inj made] at level
    exact ⟨NullaryOperator.isRank_of_rowLevel level, rfl⟩
  | unary operator operand ih =>
    obtain ⟨y, hy, rfl⟩ := toSql_unary_eq_ok.mp made
    exact (ih hy ((operator.composed_toSql y atomic).mp level) :)
  | binary operator left right ihl ihr =>
    obtain ⟨l, r, hl, hr, rfl⟩ := toSql_binary_eq_ok.mp made
    obtain ⟨ll, lr⟩ := (operator.composed_toSql l r atomic).mp level
    exact ofRows_binary.mpr ⟨ihl hl ll, ihr hr lr⟩
  | inList v items ihv ihi =>
    obtain ⟨y, ys, hy, hys, rfl⟩ := toSql_inList_eq_ok.mp made
    obtain ⟨lv, li⟩ := (composed_inPredicate atomic).mp level
    refine ofRows_inList.mpr ⟨ihv hy lv, fun item hi ↦ ?_⟩
    obtain ⟨z, hz, written⟩ := Outcome.exists_of_mem_right hys.flip hi
    exact ihi item hi written (li z hz)
  | ifElse condition result otherwise ihc ihr iho =>
    obtain ⟨c, r, o, hc, hr, ho, rfl⟩ := toSql_ifElse_eq_ok.mp made
    obtain ⟨lc, lr, lo⟩ := (composed_searchedCase atomic).mp level
    exact ofRows_ifElse.mpr ⟨ihc hc lc, ihr hr lr, iho ho lo⟩
  | aggregate function values ih =>
    obtain ⟨y, -, rfl⟩ := toSql_aggregate_eq_ok.mp made
    exact absurd level (Sql.Expression.not_rowLevel_of_isAggregate rfl)
  | joinStrings values separator ih =>
    obtain ⟨y, -, rfl⟩ := toSql_joinStrings_eq_ok.mp made
    exact absurd level (Sql.Expression.not_rowLevel_of_isAggregate rfl)

/-- An expression, written over queries, is one over columns of rows exactly if it is computed from
rows alone and the columns it reads are such expressions. -/
theorem rowLevel_toSql (made : e.toSql scope = .ok x) :
    x.RowLevel columns ↔ e.OfRows ∧ ∀ column ∈ e.reads, ∀ z,
      scope.resolve column.1 column.2 = .ok z → z.RowLevel columns := by
  have atomic := atomic_isColumn columns
  constructor
  · intro level
    have plain := ofRows_of_rowLevel made level
    exact ⟨plain, (composed_toSql atomic made plain).mp level⟩
  · rintro ⟨plain, reads⟩
    exact (composed_toSql atomic made plain).mpr reads

end Expr

end FrameQuery
