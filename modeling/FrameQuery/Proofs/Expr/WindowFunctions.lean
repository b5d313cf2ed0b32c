import FrameQuery.Proofs.Expr.Reads
import FrameQuery.Proofs.Sql.Terms

/-!
# Window functions

`OVER` stands behind a call: of an aggregate, of a function of the position of a row, or of another
function. A function of the position of a row stands nowhere else. An expression over rows calls
such a function for a ranking and for a column at another row, whatever is around it.
-/

namespace FrameQuery

namespace Sql

/-- The functions of the position of a row in its window. -/
def windowFunctions : List String :=
  ["row_number", "rank", "dense_rank", "percent_rank", "cume_dist", "ntile", "lead", "lag",
    "first_value", "last_value", "nth_value"]

namespace Expression

/-- Whether an expression calls a function of the position of a row. -/
def isWindowFunction : Expression → Bool
  | .call ⟨⟨[name]⟩, _, _, _, _⟩ => windowFunctions.contains name
  | _ => false

/-- Whether an expression is a call that may stand before `OVER`. -/
def takesOver : Expression → Bool
  | .call _ | .extension (.aggregate _ _) | .extension (.joinStrings _ _) => true
  | _ => false

/-- The operands of an expression that are misplaced: before `OVER` what is no call, elsewhere the
functions of the position of a row. -/
def misplacedOperands : Expression → List Expression
  | .window nested w =>
    [nested].filter (!·.takesOver) ++ w.operands.filter (·.isWindowFunction)
  | x => x.operands.filter (·.isWindowFunction)

/-- What is misplaced below an expression, at every depth. -/
def misplacedBelow (x : Expression) : List Expression := x.terms.flatMap misplacedOperands

/-- What is misplaced in an expression that stands alone, at every depth. -/
def misplaced (x : Expression) : List Expression :=
  [x].filter (·.isWindowFunction) ++ x.misplacedBelow

variable {x nested : Expression} {w : Window}

/-- Nothing is misplaced below an expression exactly if its operands are not and nothing is below
them. -/
private theorem misplacedBelow_eq_nil :
    x.misplacedBelow = [] ↔ x.misplacedOperands = [] ∧ ∀ y ∈ x.operands, y.misplacedBelow = [] := by
  rw [misplacedBelow, terms_eq, List.flatMap_cons, List.append_eq_nil_iff, List.flatMap_assoc,
    List.flatMap_eq_nil_iff]
  rfl

/-- Nothing is misplaced in an expression that stands alone exactly if it is no function of the
position of a row and nothing is misplaced below it. -/
private theorem misplaced_eq_nil :
    x.misplaced = [] ↔ x.isWindowFunction = false ∧ x.misplacedBelow = [] := by
  simp [misplaced]

/-- Nothing is misplaced in some expressions that stand alone exactly if none of them is a function
of the position of a row and nothing is misplaced below them. -/
private theorem forall_misplaced_eq_nil (xs : List Expression) :
    (∀ y ∈ xs, y.misplaced = []) ↔
      xs.filter (·.isWindowFunction) = [] ∧ ∀ y ∈ xs, y.misplacedBelow = [] := by
  simp only [misplaced_eq_nil, List.filter_eq_nil_iff, Bool.not_eq_true, forall_and]

/-- Nothing is misplaced below an expression that is no window call exactly if nothing is misplaced
in its operands. -/
private theorem misplacedBelow_of_no_window (plain : x.isWindow = false) :
    x.misplacedBelow = [] ↔ ∀ y ∈ x.operands, y.misplaced = [] := by
  have own : x.misplacedOperands = x.operands.filter (·.isWindowFunction) := by
    cases x with
    | window => cases plain
    | _ => rfl
  rw [misplacedBelow_eq_nil, own, forall_misplaced_eq_nil]

/-- Nothing is misplaced in an expression that is no window call and no function of the position of
a row exactly if nothing is misplaced in its operands. -/
theorem misplaced_of_operands (plain : x.isWindow = false) (alone : x.isWindowFunction = false) :
    x.misplaced = [] ↔ ∀ y ∈ x.operands, y.misplaced = [] := by
  rw [misplaced_eq_nil, misplacedBelow_of_no_window plain, and_iff_right alone]

/-- A function of the position of a row is misplaced where it stands alone. -/
theorem misplaced_of_isWindowFunction (h : x.isWindowFunction = true) : x.misplaced ≠ [] := by
  simp [misplaced, h]

/-- What may stand before `OVER` is no window call itself. -/
private theorem isWindow_of_takesOver (called : x.takesOver = true) : x.isWindow = false := by
  cases x with
  | window => cases called
  | _ => rfl

/-- Nothing is misplaced in the operands of a call in which nothing is misplaced. -/
theorem misplaced_operands (called : x.takesOver = true) (none : x.misplaced = []) :
    ∀ y ∈ x.operands, y.misplaced = [] :=
  (misplacedBelow_of_no_window (isWindow_of_takesOver called)).mp (misplaced_eq_nil.mp none).2

/-- Nothing is misplaced in a window call exactly if it is the call of something that may stand
before `OVER`, and nothing is misplaced in the operands of that and in the window. -/
theorem misplaced_window :
    (Expression.window nested w).misplaced = [] ↔
      nested.takesOver = true ∧ (∀ y ∈ nested.operands, y.misplaced = []) ∧
        ∀ y ∈ w.operands, y.misplaced = [] := by
  have alone : (Expression.window nested w).isWindowFunction = false := rfl
  rw [misplaced_eq_nil, and_iff_right alone, misplacedBelow_eq_nil, misplacedOperands, operands,
    List.append_eq_nil_iff, List.forall_mem_cons, forall_misplaced_eq_nil w.operands]
  have over_call : [nested].filter (!·.takesOver) = [] ↔ nested.takesOver = true := by simp
  rw [over_call]
  constructor
  · rintro ⟨⟨ht, ho⟩, hn, hb⟩
    exact ⟨ht, (misplacedBelow_of_no_window (isWindow_of_takesOver ht)).mp hn, ho, hb⟩
  · rintro ⟨ht, hn, ho, hb⟩
    exact ⟨⟨ht, ho⟩, (misplacedBelow_of_no_window (isWindow_of_takesOver ht)).mpr hn, hb⟩

/-- Nothing is misplaced in an expression without operands. -/
theorem misplaced_of_no_operands (plain : x.isWindow = false) (alone : x.isWindowFunction = false)
    (none : x.operands = []) : x.misplaced = [] := by
  rw [misplaced_of_operands plain alone, none]
  exact List.forall_mem_nil _

/-- Nothing is misplaced in a literal. -/
@[simp] theorem misplaced_literal (value : Literal) : (Expression.literal value).misplaced = [] :=
  misplaced_of_no_operands rfl rfl rfl

/-- Nothing is misplaced in a column. -/
@[simp] theorem misplaced_column (parts : List String) : (Expression.column parts).misplaced = [] :=
  misplaced_of_no_operands rfl rfl rfl

end Expression

end Sql

open Sql.Expression (misplaced_of_operands misplaced_of_no_operands misplaced_window)

/-! ### Written operators -/

/-- Nothing is misplaced in a written constant. -/
theorem Constant.misplaced_toSql (value : Constant) : value.toSql.misplaced = [] := by
  cases value with
  | strictDate | dateTime => exact (misplaced_of_operands rfl rfl).mpr (by
      simp [toSql, textCast, Sql.Expression.operands, Sql.Expression.string])
  | _ => exact Sql.Expression.misplaced_literal _

/-- Whether an operator without operands is a ranking. -/
def NullaryOperator.isRank : NullaryOperator → Bool
  | .rank _ => true
  | _ => false

/-- A ranking calls a function of the position of a row. -/
theorem RankFunction.isWindowFunction_toSql (function : RankFunction) :
    function.toSql.isWindowFunction = true := by
  cases function <;> rfl

/-- Nothing is misplaced in the operands of a ranking. -/
theorem RankFunction.misplaced_operands (function : RankFunction) :
    ∀ y ∈ function.toSql.operands, y.misplaced = [] := by
  cases function <;>
    simp [toSql, Sql.FunctionCall.simple, Sql.Expression.operands, Sql.FunctionCall.operands,
      Sql.Expression.integer]

/-- An operator without operands is misplaced exactly if it is a ranking. -/
theorem NullaryOperator.misplaced_toSql (operator : NullaryOperator) :
    operator.toSql.misplaced = [] ↔ operator.isRank = false := by
  cases operator with
  | rank function =>
    refine iff_of_false (Sql.Expression.misplaced_of_isWindowFunction ?_) (by simp [isRank])
    exact function.isWindowFunction_toSql
  | _ => exact iff_of_true (misplaced_of_no_operands rfl rfl rfl) rfl

/-- A column at another row calls a function of the position of a row. -/
theorem RowAccessor.isWindowFunction_toSql (accessor : RowAccessor) (value : Sql.Expression) :
    (accessor.toSql value).isWindowFunction = true := by
  cases accessor <;> rfl

/-- Nothing is misplaced in the operands of a column at another row exactly if nothing is in the
column. -/
theorem RowAccessor.misplaced_operands (accessor : RowAccessor) (value : Sql.Expression) :
    (∀ y ∈ (accessor.toSql value).operands, y.misplaced = []) ↔ value.misplaced = [] := by
  cases accessor <;>
    simp [toSql, Sql.FunctionCall.simple, Sql.Expression.operands, Sql.FunctionCall.operands,
      Sql.Expression.integer]

/-- Nothing is misplaced in an operator with one operand exactly if nothing is in the operand. -/
theorem UnaryOperator.misplaced_toSql (operator : UnaryOperator) (value : Sql.Expression) :
    (operator.toSql value).misplaced = [] ↔ value.misplaced = [] := by
  have plain : (operator.toSql value).isWindow = false := by cases operator <;> rfl
  have alone : (operator.toSql value).isWindowFunction = false := by cases operator <;> rfl
  rw [misplaced_of_operands plain alone]
  cases operator <;>
    simp [toSql, Sql.Expression.operands, Sql.Extension.operands, Sql.Expression.integer,
      Sql.Expression.string]

/-- Nothing is misplaced in an operator with two operands exactly if nothing is in the operands. -/
theorem BinaryOperator.misplaced_toSql (operator : BinaryOperator) (left right : Sql.Expression) :
    (operator.toSql left right).misplaced = [] ↔ left.misplaced = [] ∧ right.misplaced = [] := by
  have plain : (operator.toSql left right).isWindow = false := by cases operator <;> rfl
  have alone : (operator.toSql left right).isWindowFunction = false := by cases operator <;> rfl
  rw [misplaced_of_operands plain alone]
  cases operator <;> simp [toSql, Sql.Expression.operands, Sql.Extension.operands]

namespace Expr

mutual

/-- Whether an expression calls a function of the position of a row, at any depth. -/
def ranks : Expr → Bool
  | .column _ _ accessor => accessor.isSome
  | .constant _ => false
  | .nullary operator => operator.isRank
  | .unary _ operand => operand.ranks
  | .binary _ left right => left.ranks || right.ranks
  | .inList value items => value.ranks || itemsRank items
  | .ifElse condition result otherwise => condition.ranks || result.ranks || otherwise.ranks
  | .aggregate _ values | .joinStrings values _ => values.ranks

/-- Whether an item of a list calls a function of the position of a row, at any depth. -/
def itemsRank : List Expr → Bool
  | [] => false
  | item :: rest => item.ranks || itemsRank rest

end

/-- Items of a list do not rank exactly if none of them does. -/
theorem itemsRank_eq_false {items : List Expr} :
    itemsRank items = false ↔ ∀ item ∈ items, item.ranks = false := by
  induction items with
  | nil => simp [itemsRank]
  | cons item rest ih => rw [itemsRank, Bool.or_eq_false_iff, ih, List.forall_mem_cons]

variable {scope : Scope} {x : Sql.Expression}

/-- Nothing is misplaced in what the columns are. -/
def PlacedColumns (scope : Scope) : Prop :=
  ∀ row name z, scope.resolve row name = .ok z → z.misplaced = []

/-- Over columns in which nothing is misplaced, nothing is misplaced in a written expression exactly
if it calls no function of the position of a row. -/
theorem misplaced_eq_nil {e : Expr} (columns : PlacedColumns scope) (made : e.toSql scope = .ok x) :
    x.misplaced = [] ↔ e.ranks = false := by
  induction e generalizing x with
  | column row name accessor =>
    obtain ⟨value, hv, rfl⟩ := toSql_column_eq_ok.mp made
    cases accessor with
    | none => exact iff_of_true (columns row name value hv) rfl
    | some accessor =>
      refine iff_of_false (Sql.Expression.misplaced_of_isWindowFunction ?_) (by simp [ranks])
      exact accessor.isWindowFunction_toSql value
  | constant value =>
    rw [← Except.ok.inj made]
    exact iff_of_true value.misplaced_toSql rfl
  | nullary operator =>
    rw [← Except.ok.inj made]
    exact operator.misplaced_toSql
  | unary operator operand ih =>
    obtain ⟨y, hy, rfl⟩ := toSql_unary_eq_ok.mp made
    rw [operator.misplaced_toSql, ih hy, ranks]
  | binary operator left right ihl ihr =>
    obtain ⟨l, r, hl, hr, rfl⟩ := toSql_binary_eq_ok.mp made
    rw [operator.misplaced_toSql, ihl hl, ihr hr, ranks, Bool.or_eq_false_iff]
  | inList value items ihv ihi =>
    obtain ⟨y, ys, hy, hys, rfl⟩ := toSql_inList_eq_ok.mp made
    have list : (Sql.Expression.list ys).misplaced = [] ↔ ∀ item ∈ items, item.ranks = false := by
      rw [misplaced_of_operands rfl rfl]
      exact (Outcome.forall_iff_of_mem hys fun item hi y hy ↦ (ihi item hi hy).symm).symm
    rw [misplaced_of_operands rfl rfl, ranks, Bool.or_eq_false_iff, ← ihv hy, itemsRank_eq_false,
      ← list]
    simp [Sql.Expression.operands]
  | ifElse condition result otherwise ihc ihr iho =>
    obtain ⟨c, r, o, hc, hr, ho, rfl⟩ := toSql_ifElse_eq_ok.mp made
    rw [misplaced_of_operands rfl rfl, ranks, Bool.or_eq_false_iff, Bool.or_eq_false_iff, ← ihc hc,
      ← ihr hr, ← iho ho]
    simp [Sql.Expression.operands, and_assoc]
  | aggregate function values ih =>
    obtain ⟨y, hy, rfl⟩ := toSql_aggregate_eq_ok.mp made
    rw [misplaced_of_operands rfl rfl, ranks, ← ih hy]
    exact List.forall_mem_singleton
  | joinStrings values separator ih =>
    obtain ⟨y, hy, rfl⟩ := toSql_joinStrings_eq_ok.mp made
    rw [misplaced_of_operands rfl rfl, ranks, ← ih hy]
    simp [Sql.Expression.operands, Sql.Extension.operands, Sql.Expression.string]

/-- Whether a written expression may stand before `OVER`, where it is known which columns may. In
the arguments of an aggregate no function of the position of a row may be called. -/
def CallsOver (callable : String → Prop) : Expr → Prop
  | .column _ name none => callable name
  | .column _ _ (some _) => True
  | .nullary operator => operator.isRank = true
  | .aggregate _ values | .joinStrings values _ => values.ranks = false
  | _ => False

/-- Over columns in which nothing is misplaced, nothing is misplaced in an expression over a window
exactly if the expression may stand before `OVER` and nothing is misplaced in the window. -/
theorem misplaced_window_eq_nil {e : Expr} {w : Sql.Window} {callable : String → Prop}
    (columns : PlacedColumns scope)
    (known : ∀ row name z, scope.resolve row name = .ok z → (callable name ↔ z.takesOver = true))
    (window : ∀ y ∈ w.operands, y.misplaced = []) (made : e.toSql scope = .ok x) :
    (Sql.Expression.window x w).misplaced = [] ↔ e.CallsOver callable := by
  rw [misplaced_window, and_iff_left window]
  cases e with
  | column row name accessor =>
    obtain ⟨value, hv, rfl⟩ := toSql_column_eq_ok.mp made
    cases accessor with
    | none =>
      rw [CallsOver, known row name value hv]
      exact and_iff_left_of_imp fun called ↦
        Sql.Expression.misplaced_operands called (columns row name value hv)
    | some accessor =>
      refine iff_of_true ⟨?_, (accessor.misplaced_operands value).mpr (columns row name value hv)⟩
        trivial
      cases accessor <;> rfl
  | nullary operator =>
    rw [← Except.ok.inj made]
    cases operator with
    | rank function =>
      refine iff_of_true ⟨?_, function.misplaced_operands⟩ rfl
      cases function <;> rfl
    | _ => exact iff_of_false (Bool.false_ne_true ·.1) Bool.false_ne_true
  | aggregate function values =>
    obtain ⟨y, hy, rfl⟩ := toSql_aggregate_eq_ok.mp made
    rw [CallsOver, ← misplaced_eq_nil columns hy]
    exact (and_iff_right rfl).trans List.forall_mem_singleton
  | joinStrings values separator =>
    obtain ⟨y, hy, rfl⟩ := toSql_joinStrings_eq_ok.mp made
    rw [CallsOver, ← misplaced_eq_nil columns hy]
    refine (and_iff_right rfl).trans ?_
    simp [Sql.Expression.operands, Sql.Extension.operands, Sql.Expression.string]
  | constant value =>
    rw [← Except.ok.inj made]
    have plain : value.toSql.takesOver = false := by cases value <;> rfl
    exact iff_of_false (fun h ↦ Bool.false_ne_true (plain.symm.trans h.1)) id
  | unary operator operand =>
    obtain ⟨y, hy, rfl⟩ := toSql_unary_eq_ok.mp made
    have plain : (operator.toSql y).takesOver = false := by cases operator <;> rfl
    exact iff_of_false (fun h ↦ Bool.false_ne_true (plain.symm.trans h.1)) id
  | binary operator left right =>
    obtain ⟨l, r, hl, hr, rfl⟩ := toSql_binary_eq_ok.mp made
    have plain : (operator.toSql l r).takesOver = false := by cases operator <;> rfl
    exact iff_of_false (fun h ↦ Bool.false_ne_true (plain.symm.trans h.1)) id
  | inList value items =>
    obtain ⟨y, ys, hy, hys, rfl⟩ := toSql_inList_eq_ok.mp made
    exact iff_of_false (Bool.false_ne_true ·.1) id
  | ifElse condition result otherwise =>
    obtain ⟨c, r, o, hc, hr, ho, rfl⟩ := toSql_ifElse_eq_ok.mp made
    exact iff_of_false (Bool.false_ne_true ·.1) id

end Expr

end FrameQuery
