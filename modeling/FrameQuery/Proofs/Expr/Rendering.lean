import FrameQuery.Proofs.Expr.Reads
import FrameQuery.Proofs.Sql.Rendering

/-!
# When written expressions have a text

Operators are written so that they can be rendered: patterns and scales are constants, and a bound
of a window has an offset wherever one is needed. An expression is therefore rendered if the columns
are that it reads, and it can be written if these columns can be resolved.
-/

namespace FrameQuery

open Outcome (Succeeds succeeds_ok)

variable {d : Sql.Dialect} {scope : Scope} {x : Sql.Expression}

/-! ### Operators -/

/-- Written constants are rendered. -/
theorem Constant.renders_toSql (value : Constant) : value.toSql.Renders d := by
  intro depth
  cases value with
  | boolean | integer | float | string => exact succeeds_ok _
  | strictDate | dateTime => exact (succeeds_ok _).bind_ok _

/-- Operators without operands are rendered. -/
theorem NullaryOperator.renders_toSql (operator : NullaryOperator) : operator.toSql.Renders d := by
  intro depth
  cases operator with
  | rank function => cases function <;> exact succeeds_ok _
  | _ => exact succeeds_ok _

/-- An operator with one operand is rendered if the operand is. -/
theorem UnaryOperator.renders_toSql (operator : UnaryOperator) {value : Sql.Expression}
    (h : value.Renders d) : (operator.toSql value).Renders d := by
  intro depth
  cases operator with
  | like kind text => exact (h depth).bind fun _ ↦ (succeeds_ok _).bind_ok _
  | roundTo scale =>
    simp only [UnaryOperator.toSql, Sql.Expression.doc, Sql.Extension.doc, Sql.Expression.integer]
    split
    · exact (h depth).bind_ok _
    · exact (h depth).bind_ok _
    · exact (h depth).bind_ok _
    · next hn he => exact absurd (Option.some.inj he).symm (hn scale)
  | _ => exact (h depth).bind_ok _

/-- An operator with two operands is rendered if they are. -/
theorem BinaryOperator.renders_toSql (operator : BinaryOperator) {left right : Sql.Expression}
    (hl : left.Renders d) (hr : right.Renders d) : (operator.toSql left right).Renders d := by
  intro depth
  cases operator with
  | indexOf =>
    rw [BinaryOperator.toSql, Sql.Expression.doc, Sql.Extension.doc]
    split
    · exact (hr depth).bind fun _ ↦ (hl depth).bind_ok _
    · exact (hl depth).bind fun _ ↦ (hr depth).bind_ok _
  | _ => exact (hl depth).bind fun _ ↦ (hr depth).bind_ok _

/-- A call of a function with one name part is rendered if its arguments are. -/
theorem renders_simple {function : String} {arguments : List Sql.Expression}
    (h : ∀ a ∈ arguments, a.Renders d) :
    (Sql.Expression.call (.simple function arguments)).Renders d :=
  fun depth ↦ (Sql.Expression.succeeds_docs h depth).bind fun _ ↦
    (succeeds_ok _).bind fun _ ↦ (succeeds_ok _).bind_ok _

/-- A column at another row is rendered if the column is. -/
theorem RowAccessor.renders_toSql (accessor : RowAccessor) {value : Sql.Expression}
    (h : value.Renders d) : (accessor.toSql value).Renders d := by
  have one : ∀ a ∈ [value], a.Renders d := List.forall_mem_singleton.mpr h
  cases accessor with
  | nth n =>
    exact renders_simple (List.forall_mem_cons.mpr ⟨h, List.forall_mem_singleton.mpr
      (Sql.Expression.renders_literal _)⟩)
  | _ => exact renders_simple one

namespace Expr

/-! ### Expressions -/

/-- A written expression is rendered if every column is. -/
theorem renders_toSql {e : Expr}
    (columns : ∀ row name value, scope.resolve row name = .ok value → value.Renders d)
    (made : e.toSql scope = .ok x) : x.Renders d := by
  induction e generalizing x with
  | column row name accessor =>
    obtain ⟨value, hv, rfl⟩ := toSql_column_eq_ok.mp made
    cases accessor with
    | none => exact columns row name value hv
    | some accessor => exact accessor.renders_toSql (columns row name value hv)
  | constant value =>
    rw [← Except.ok.inj made]
    exact value.renders_toSql
  | nullary operator =>
    rw [← Except.ok.inj made]
    exact operator.renders_toSql
  | unary operator operand ih =>
    obtain ⟨value, hv, rfl⟩ := toSql_unary_eq_ok.mp made
    exact operator.renders_toSql (ih hv)
  | binary operator left right ihl ihr =>
    obtain ⟨first, second, hf, hs, rfl⟩ := toSql_binary_eq_ok.mp made
    exact operator.renders_toSql (ihl hf) (ihr hs)
  | inList value items ihv ihi =>
    obtain ⟨v, vs, hv, hvs, rfl⟩ := toSql_inList_eq_ok.mp made
    refine (ihv hv).inPredicate fun y hy ↦ ?_
    obtain ⟨item, hm, hi⟩ := Outcome.exists_of_mem_right hvs hy
    exact ihi item hm hi
  | ifElse condition result otherwise ihc ihr iho =>
    obtain ⟨c, r, o, hc, hr, ho, rfl⟩ := toSql_ifElse_eq_ok.mp made
    exact (ihc hc).searchedCase (ihr hr) (iho ho)
  | aggregate function values ih =>
    obtain ⟨value, hv, rfl⟩ := toSql_aggregate_eq_ok.mp made
    cases function <;> exact fun depth ↦ (ih hv depth).bind_ok _
  | joinStrings values separator ih =>
    obtain ⟨value, hv, rfl⟩ := toSql_joinStrings_eq_ok.mp made
    exact fun depth ↦ (ih hv depth).bind fun _ ↦ (succeeds_ok _).bind_ok _

/-- An expression can be written if the columns that it reads can be resolved. -/
theorem succeeds_toSql {e : Expr}
    (columns : ∀ read ∈ e.reads, Succeeds (scope.resolve read.1 read.2)) :
    Succeeds (e.toSql scope) := by
  induction e with
  | column row name accessor =>
    obtain ⟨value, hv⟩ := columns (row, name) (by simp [reads])
    exact ⟨_, toSql_column_eq_ok.mpr ⟨value, hv, rfl⟩⟩
  | constant value => exact succeeds_ok _
  | nullary operator => exact succeeds_ok _
  | unary operator operand ih => exact (ih columns).bind_ok _
  | binary operator left right ihl ihr =>
    rw [reads, List.forall_mem_append] at columns
    exact (ihl columns.1).bind fun _ ↦ (ihr columns.2).bind_ok _
  | inList value items ihv ihi =>
    rw [reads, List.forall_mem_append, itemReads_eq_flatMap] at columns
    have all : Succeeds (itemsToSql scope items) := by
      have found : ∀ item ∈ items, Succeeds (item.toSql scope) := fun item hm ↦
        ihi item hm fun read hr ↦ columns.2 read (List.mem_flatMap.mpr ⟨item, hm, hr⟩)
      clear ihi columns
      induction items with
      | nil => exact succeeds_ok _
      | cons item rest ih =>
        obtain ⟨first, others⟩ := List.forall_mem_cons.mp found
        exact first.bind fun _ ↦ (ih others).bind_ok _
    exact (ihv columns.1).bind fun _ ↦ all.bind_ok _
  | ifElse condition result otherwise ihc ihr iho =>
    rw [reads, List.forall_mem_append, List.forall_mem_append] at columns
    exact (ihc columns.1).bind fun _ ↦ (ihr columns.2.1).bind fun _ ↦ (iho columns.2.2).bind_ok _
  | aggregate function values ih => exact (ih columns).bind_ok _
  | joinStrings values separator ih => exact (ih columns).bind_ok _

end Expr

/-! ### Windows -/

/-- A written bound is rendered: it has an offset unless it needs none. -/
theorem Bound.succeeds_doc (bound : Bound) (isStart : Bool) (depth : Nat) :
    Succeeds ((bound.toSql isStart).doc d depth) := by
  cases bound with
  | unbounded => cases isStart <;> exact succeeds_ok _
  | offset value unit =>
    rw [Bound.toSql]
    split
    · exact succeeds_ok _
    · split
      · cases unit <;> exact (succeeds_ok _).map _
      · cases unit <;> exact (succeeds_ok _).map _

/-- A written window frame is rendered. -/
theorem FrameSpec.succeeds_doc (frame : FrameSpec) (depth : Nat) :
    Succeeds (frame.toSql.doc d depth) :=
  (frame.start.succeeds_doc true depth).bind fun _ ↦
    (frame.stop.succeeds_doc false depth).bind_ok _

/-- A call over a written window is rendered if its value and every column are. -/
theorem WindowSpec.renders_toSql {window : WindowSpec} {result : Sql.Window}
    (columns : ∀ name value, scope.resolve .right name = .ok value → value.Renders d)
    (made : window.toSql scope = .ok result) (hx : x.Renders d) :
    (Sql.Expression.window x result).Renders d := by
  obtain ⟨partitions, keys, hp, hk, rfl⟩ := WindowSpec.toSql_eq_ok.mp made
  have resolved {names : List String} {xs : List Sql.Expression}
      (h : List.Forall₂ (fun c x ↦ scope.resolve .right c = .ok x) names xs) :
      ∀ x ∈ xs, x.Renders d := by
    intro y hy
    obtain ⟨c, -, hc⟩ := Outcome.exists_of_mem_right h hy
    exact columns c y hc
  have sorting : ∀ k ∈ keys, k.key.Renders d := fun k hm ↦
    resolved (SortKey.resolved hk) k.key (List.mem_map_of_mem hm)
  intro depth
  have clause : Succeeds (Sql.Window.doc d
      ⟨none, partitions, keys, window.frame.map (·.toSql)⟩ depth) := by
    refine (Sql.Expression.succeeds_docs (resolved hp) depth).bind fun _ ↦ ?_
    refine (Sql.SortItem.succeeds_docs sorting depth).bind fun _ ↦ ?_
    cases window.frame with
    | none => exact (succeeds_ok _).bind_ok _
    | some frame => exact ((frame.succeeds_doc depth).map _).bind_ok _
  exact (hx depth).bind fun _ ↦ clause.bind_ok _

end FrameQuery
