import FrameQuery.Expr.Sql
import FrameQuery.Proofs.Expr.Written
import FrameQuery.Proofs.Sql.Relabeling

/-!
# Names in written expressions

Scopes are twins if every column is resolved alike in both of them, but for the spelling of names.
Expressions, sort keys and windows are then written alike in both, or fail with the same error:
nothing but columns is looked up in a scope.
-/

namespace FrameQuery

open Sql (Dialect QuerySpecification Respells)

variable {f : String → String}

namespace Scope

/-- Every column is resolved in both scopes alike, but for the spelling of names. -/
def Twin (f : String → String) (scope other : Scope) : Prop :=
  ∀ row column, other.resolve row column = (scope.resolve row column).map (·.relabel f)

variable {d e : Dialect} {query left right : QuerySpecification}

/-- The scopes of a query and of the respelled query are twins. -/
theorem twin_single (spell : Respells d e f) (labelled : query.Labelled d) :
    Twin f (single d query) (single e (query.relabel f)) := by
  intro row column
  cases row with
  | left => rfl
  | right =>
    simp only [resolve, single, List.lookup_cons_self,
      query.findColumn?_relabel spell labelled]
    cases query.findColumn? (d.quoted column) <;> rfl

/-- The scopes of two queries and of the respelled queries are twins. -/
theorem twin_pair (spell : Respells d e f) (lefts : left.Labelled d) (rights : right.Labelled d) :
    Twin f (pair d left right) (pair e (left.relabel f) (right.relabel f)) := by
  have second {first second : QuerySpecification} :
      [(RowVar.left, first), (RowVar.right, second)].lookup .right = some second := rfl
  intro row column
  cases row with
  | left =>
    simp only [resolve, pair, List.lookup_cons_self, left.findColumn?_relabel spell lefts]
    cases left.findColumn? (d.quoted column) <;> rfl
  | right =>
    simp only [resolve, pair, second, right.findColumn?_relabel spell rights]
    cases right.findColumn? (d.quoted column) <;> rfl

end Scope

/-! ### Operators -/

/-- No name stands in a constant. -/
theorem Constant.relabel_toSql (value : Constant) : value.toSql.relabel f = value.toSql := by
  cases value <;> rfl

/-- No name stands in an operator without operands. -/
theorem NullaryOperator.relabel_toSql (operator : NullaryOperator) :
    operator.toSql.relabel f = operator.toSql := by
  cases operator with
  | rank function => cases function <;> rfl
  | _ => rfl

/-- In a column at another row, names stand in the column. -/
theorem RowAccessor.relabel_toSql (accessor : RowAccessor) (value : Sql.Expression) :
    (accessor.toSql value).relabel f = accessor.toSql (value.relabel f) := by
  cases accessor <;> rfl

/-- In an operation, names stand in the operand. -/
theorem UnaryOperator.relabel_toSql (operator : UnaryOperator) (value : Sql.Expression) :
    (operator.toSql value).relabel f = operator.toSql (value.relabel f) := by
  cases operator <;> rfl

/-- In an operation, names stand in the operands. -/
theorem BinaryOperator.relabel_toSql (operator : BinaryOperator) (left right : Sql.Expression) :
    (operator.toSql left right).relabel f =
      operator.toSql (left.relabel f) (right.relabel f) := by
  cases operator <;> rfl

/-- No name stands in a window frame. -/
theorem FrameSpec.relabel_toSql (frame : FrameSpec) : frame.toSql.relabel f = frame.toSql := by
  have bound (b : Bound) (isStart : Bool) : (b.toSql isStart).relabel f = b.toSql isStart := by
    cases b with
    | unbounded => rfl
    | offset value unit =>
      rw [Bound.toSql]
      split <;> rfl
  rw [FrameSpec.toSql, Sql.WindowFrame.relabel, bound, Sql.FrameBound.optionRelabel, bound]

/-! ### What is written in twin scopes -/

namespace Scope.Twin

variable {scope other : Scope} (twin : Twin f scope other)
include twin

/-- Several columns are resolved alike. -/
theorem resolveAll (row : RowVar) (columns : List String) :
    other.resolveAll row columns = (scope.resolveAll row columns).map (List.map (·.relabel f)) := by
  induction columns with
  | nil => rfl
  | cons column rest ih =>
    rw [Scope.resolveAll, Scope.resolveAll, twin row column, ih]
    exact Outcome.map_bind_eq fun _ _ ↦ Outcome.map_bind_eq fun _ _ ↦ rfl

/-- Expressions are written alike. -/
theorem toSql (expr : Expr) : expr.toSql other = (expr.toSql scope).map (·.relabel f) := by
  induction expr with
  | column row name accessor =>
    rw [Expr.toSql, Expr.toSql, twin row name]
    refine Outcome.map_bind_eq fun value _ ↦ ?_
    cases accessor with
    | none => rfl
    | some accessor => exact congrArg Except.ok (accessor.relabel_toSql value).symm
  | constant value =>
    rw [Expr.toSql, Expr.toSql]
    exact congrArg Except.ok value.relabel_toSql.symm
  | nullary operator =>
    rw [Expr.toSql, Expr.toSql]
    exact congrArg Except.ok operator.relabel_toSql.symm
  | unary operator operand ih =>
    rw [Expr.toSql, Expr.toSql, ih]
    exact Outcome.map_bind_eq fun value _ ↦ congrArg Except.ok (operator.relabel_toSql value).symm
  | binary operator left right ihl ihr =>
    rw [Expr.toSql, Expr.toSql, ihl, ihr]
    exact Outcome.map_bind_eq fun x _ ↦ Outcome.map_bind_eq fun y _ ↦
      congrArg Except.ok (operator.relabel_toSql x y).symm
  | inList value items ihv ihi =>
    have alike : Expr.itemsToSql other items =
        (Expr.itemsToSql scope items).map (List.map (·.relabel f)) := by
      induction items with
      | nil => rfl
      | cons item rest ih =>
        obtain ⟨first, others⟩ := List.forall_mem_cons.mp ihi
        rw [Expr.itemsToSql, Expr.itemsToSql, first, ih others]
        exact Outcome.map_bind_eq fun _ _ ↦ Outcome.map_bind_eq fun _ _ ↦ rfl
    rw [Expr.toSql, Expr.toSql, ihv, alike]
    refine Outcome.map_bind_eq fun x _ ↦ Outcome.map_bind_eq fun xs _ ↦ congrArg Except.ok ?_
    simp only [Sql.Expression.relabel, Sql.Expression.relabelAll_eq_map]
  | ifElse condition result otherwise ihc ihr iho =>
    rw [Expr.toSql, Expr.toSql, ihc, ihr, iho]
    exact Outcome.map_bind_eq fun _ _ ↦ Outcome.map_bind_eq fun _ _ ↦
      Outcome.map_bind_eq fun _ _ ↦ rfl
  | aggregate function values ih =>
    rw [Expr.toSql, Expr.toSql, ih]
    exact Outcome.map_bind_eq fun _ _ ↦ rfl
  | joinStrings values separator ih =>
    rw [Expr.toSql, Expr.toSql, ih]
    exact Outcome.map_bind_eq fun _ _ ↦ rfl

/-- Sort keys are written alike. -/
theorem keysToSql (keys : List SortKey) :
    SortKey.allToSql other keys = (SortKey.allToSql scope keys).map (List.map (·.relabel f)) := by
  induction keys with
  | nil => rfl
  | cons key rest ih =>
    have first : key.toSql other = (key.toSql scope).map (·.relabel f) := by
      rw [SortKey.toSql, SortKey.toSql, twin .right key.column]
      exact Outcome.map_bind_eq fun _ _ ↦ rfl
    rw [SortKey.allToSql, SortKey.allToSql, first, ih]
    exact Outcome.map_bind_eq fun _ _ ↦ Outcome.map_bind_eq fun _ _ ↦ rfl

/-- Windows are written alike. -/
theorem windowToSql (window : WindowSpec) :
    window.toSql other = (window.toSql scope).map (·.relabel f) := by
  rw [WindowSpec.toSql, WindowSpec.toSql, twin.resolveAll, twin.keysToSql]
  refine Outcome.map_bind_eq fun partitions _ ↦ Outcome.map_bind_eq fun keys _ ↦
    congrArg Except.ok ?_
  simp only [Sql.Window.relabel, Sql.Expression.relabelAll_eq_map, Sql.SortItem.relabelAll_eq_map]
  cases window.frame with
  | none => rfl
  | some frame =>
    exact congrArg (Sql.Window.mk none _ _) (congrArg some frame.relabel_toSql.symm)

end Scope.Twin

end FrameQuery
