import FrameQuery.Proofs.Outcome
import FrameQuery.Proofs.Sql.Traversal
import FrameQuery.Sql.Rendering

/-!
# When queries have a text

An expression has a text if it is rendered at every depth. A relation has one if it has one inside
and outside of parentheses, and a block if everything in it has one: no clause fails by itself.
-/

namespace FrameQuery.Sql

open Outcome (Succeeds succeeds_ok)

variable {d : Dialect}

/-- An expression is rendered at every depth. -/
def Expression.Renders (d : Dialect) (x : Expression) : Prop := ∀ depth, Succeeds (x.doc d depth)

/-- A relation is rendered at every depth, nested in another query or not. -/
def Relation.Renders (d : Dialect) (r : Relation) : Prop :=
  ∀ nested depth, Succeeds (r.doc d nested depth)

/-- A query block is rendered at every depth. -/
def QuerySpecification.Renders (d : Dialect) (query : QuerySpecification) : Prop :=
  ∀ depth, Succeeds (query.doc d depth)

/-! ### Expressions -/

namespace Expression

/-- Constants are rendered. -/
theorem renders_literal (value : Literal) : (literal value).Renders d :=
  fun _ ↦ succeeds_ok _

/-- References are rendered. -/
theorem renders_column (parts : List String) : (column parts).Renders d :=
  fun _ ↦ succeeds_ok _

/-- Expressions are rendered one after the other. -/
theorem succeeds_docs {xs : List Expression} (h : ∀ x ∈ xs, x.Renders d) (depth : Nat) :
    Succeeds (docs d xs depth) := by
  induction xs with
  | nil => exact succeeds_ok _
  | cons x rest ih =>
    refine (h x List.mem_cons_self depth).bind fun _ ↦ ?_
    exact (ih fun y hy ↦ h y (List.mem_cons_of_mem _ hy)).bind_ok _

/-- Two conditions are rendered if both of them are. -/
theorem Renders.logical {left right : Expression} (operator : LogicalOperator)
    (hl : left.Renders d) (hr : right.Renders d) : (logical operator left right).Renders d :=
  fun depth ↦ (hl depth).bind fun _ ↦ (hr depth).bind_ok _

/-- Membership in a list is rendered if the value and the items are. -/
theorem Renders.inPredicate {value : Expression} {items : List Expression} (hv : value.Renders d)
    (hi : ∀ x ∈ items, x.Renders d) : (inPredicate value (list items)).Renders d :=
  fun depth ↦ (hv depth).bind fun _ ↦ ((succeeds_docs hi depth).bind_ok _).bind_ok _

/-- A case distinction with one branch is rendered if its condition and its values are. -/
theorem Renders.searchedCase {condition result otherwise : Expression}
    (hc : condition.Renders d) (hr : result.Renders d) (ho : otherwise.Renders d) :
    (searchedCase [⟨condition, result⟩] (some otherwise)).Renders d := by
  intro depth
  have branch : Succeeds (WhenClause.doc d ⟨condition, result⟩ depth) :=
    (hc _).bind fun _ ↦ (hr _).bind_ok _
  have branches : Succeeds (WhenClause.docs d [⟨condition, result⟩] depth) :=
    branch.bind fun _ ↦ (succeeds_ok _).bind_ok _
  exact branches.bind fun _ ↦ ((ho _).map _).bind_ok _

end Expression

/-- Sort keys are rendered if what they sort by is. -/
theorem SortItem.succeeds_docs {items : List SortItem} (h : ∀ i ∈ items, i.key.Renders d)
    (depth : Nat) : Succeeds (SortItem.docs d items depth) := by
  induction items with
  | nil => exact succeeds_ok _
  | cons item rest ih =>
    have first : Succeeds (item.doc d depth) := by
      obtain ⟨key, ordering, nulls⟩ := item
      exact (h _ List.mem_cons_self (depth + 1)).bind_ok _
    exact first.bind fun _ ↦ (ih fun i hi ↦ h i (List.mem_cons_of_mem _ hi)).bind_ok _

/-- A select list is rendered if what its entries compute is. -/
theorem SelectItem.succeeds_docs {items : List SelectItem}
    (h : ∀ i ∈ items, ∀ x, i.expression? = some x → x.Renders d) (depth : Nat) :
    Succeeds (SelectItem.docs d items depth) := by
  induction items with
  | nil => exact succeeds_ok _
  | cons item rest ih =>
    have first : Succeeds (item.doc d depth) := by
      cases item with
      | allColumns relation =>
        cases relation with
        | none => exact succeeds_ok _
        | some relation => exact succeeds_ok _
      | column label expression => exact (h _ List.mem_cons_self _ rfl depth).bind_ok _
    exact first.bind fun _ ↦ (ih fun i hi ↦ h i (List.mem_cons_of_mem _ hi)).bind_ok _

/-- Relations are rendered one after the other. -/
theorem Relation.succeeds_docs {relations : List Relation} (h : ∀ r ∈ relations, r.Renders d)
    (depth : Nat) : Succeeds (Relation.docs d relations depth) := by
  induction relations with
  | nil => exact succeeds_ok _
  | cons relation rest ih =>
    refine (h relation List.mem_cons_self false depth).bind fun _ ↦ ?_
    exact (ih fun r hr ↦ h r (List.mem_cons_of_mem _ hr)).bind_ok _

/-! ### Clauses -/

section Clauses

variable {part limit offset : Option (Outcome Doc)}

/-- An optional part is written if it can be. -/
theorem succeeds_optionally {write : Doc → Doc} (h : ∀ p ∈ part, Succeeds p) :
    Succeeds (optionally write part) := by
  cases part with
  | none => exact succeeds_ok _
  | some p => exact (h p rfl).map write

/-- An optional expression is written if it is rendered. -/
theorem Expression.succeeds_of_mem_optionDoc {x : Option Expression}
    (h : ∀ y, x = some y → y.Renders d) (depth : Nat) :
    ∀ p ∈ Expression.optionDoc d x depth, Succeeds p := by
  intro p hp
  cases x with
  | none => cases hp
  | some y =>
    rw [← Option.some.inj hp]
    exact h y rfl depth

/-- The number of rows can be written before the select list. -/
theorem succeeds_topClause (hl : ∀ p ∈ limit, Succeeds p) :
    Succeeds (d.topClause limit offset) := by
  unfold Dialect.topClause
  split
  · next p _ => exact (hl p rfl).map _
  · exact succeeds_ok _

/-- A range of rows can be written behind everything else. -/
theorem succeeds_rangeClause {depth : Nat} (hl : ∀ p ∈ limit, Succeeds p)
    (ho : ∀ p ∈ offset, Succeeds p) : Succeeds (d.rangeClause depth limit offset) := by
  unfold Dialect.rangeClause
  split
  · exact (succeeds_optionally hl).bind fun _ ↦ (succeeds_optionally ho).bind_ok _
  · exact succeeds_ok _
  · next p _ => exact (ho p rfl).bind fun _ ↦ (succeeds_optionally hl).bind_ok _

end Clauses

/-! ### Relations and blocks -/

namespace Relation

/-- Tables are rendered. -/
theorem renders_table (name : QualifiedName) : (table name).Renders d :=
  fun _ _ ↦ succeeds_ok _

/-- A relation with a name is rendered if the relation is. -/
theorem Renders.aliased {relation : Relation} (h : relation.Renders d) (correlation : String)
    (columns : List String) : (aliased relation correlation columns).Renders d :=
  fun nested depth ↦ (h nested depth).bind_ok _

/-- A query block as a relation is rendered if the block is. -/
theorem renders_specification {query : QuerySpecification} (h : query.Renders d) :
    (specification query).Renders d := by
  intro nested depth
  rw [Relation.doc]
  cases nested with
  | true => exact (h (depth + 1)).bind_ok _
  | false => exact h depth

/-- Two relations one after the other are rendered if both of them are. -/
theorem Renders.union {left right : Relation} (hl : left.Renders d) (hr : right.Renders d)
    (distinct : Bool) : (union left right distinct).Renders d := by
  intro nested depth
  rw [Relation.doc]
  exact (hl true _).bind fun _ ↦ (hr true _).bind_ok _

/-- A query block as a sub-query is rendered if the block is. -/
theorem renders_subquery_specification {query : QuerySpecification} (h : query.Renders d) :
    (subquery (.plain (.specification query))).Renders d :=
  fun _ depth ↦ renders_specification h true depth

/-- Two query blocks as a sub-query are rendered if both of them are. -/
theorem renders_subquery_union {left right : QuerySpecification} (hl : left.Renders d)
    (hr : right.Renders d) (distinct : Bool) :
    (subquery (.plain (.union (.specification left) (.specification right) distinct))).Renders d :=
  fun _ depth ↦ (renders_specification hl).union (renders_specification hr) distinct true depth

/-- A join is rendered if its sides and its condition are. -/
theorem Renders.join {left right : Relation} {condition : Expression} (kind : JoinType)
    (hl : left.Renders d) (hr : right.Renders d) (hc : condition.Renders d) :
    (join kind left right (some (.condition condition))).Renders d := by
  intro nested depth
  have criteria : Succeeds (JoinCriteria.doc d (.condition condition) depth) := (hc depth).bind_ok _
  exact (hl false depth).bind fun _ ↦ (hr false (depth + 1)).bind fun _ ↦
    (criteria.map _).bind_ok _

end Relation

/-- A query block is rendered if what it reads from and all of its expressions are. -/
theorem QuerySpecification.renders {query : QuerySpecification}
    (sources : ∀ r ∈ query.sources, r.Renders d)
    (expressions : ∀ x ∈ query.expressions, x.Renders d) :
    query.Renders d := by
  have items : ∀ i ∈ query.items, ∀ x, i.expression? = some x → x.Renders d :=
    fun i hi x he ↦ expressions x (mem_expressions.mpr (.inl ⟨i, hi, he⟩))
  have keys : ∀ k ∈ query.orderBy, k.key.Renders d :=
    fun k hk ↦ expressions k.key (mem_expressions.mpr (.inr (.inl ⟨k, hk, rfl⟩)))
  have filter : ∀ x, query.filter = some x → x.Renders d :=
    fun x hx ↦ expressions x (mem_expressions.mpr (.inr (.inr (.inl hx))))
  have groups : ∀ x ∈ query.groupBy, x.Renders d :=
    fun x hx ↦ expressions x (mem_expressions.mpr (.inr (.inr (.inr (.inl hx)))))
  have having_ : ∀ x, query.having = some x → x.Renders d :=
    fun x hx ↦ expressions x (mem_expressions.mpr (.inr (.inr (.inr (.inr (.inl hx))))))
  have limit : ∀ x, query.limit = some x → x.Renders d :=
    fun x hx ↦ expressions x (mem_expressions.mpr (.inr (.inr (.inr (.inr (.inr (.inl hx)))))))
  have offset : ∀ x, query.offset = some x → x.Renders d :=
    fun x hx ↦ expressions x (mem_expressions.mpr (.inr (.inr (.inr (.inr (.inr (.inr hx)))))))
  intro depth
  obtain ⟨⟨_, _⟩, _, _, _, _, _, _, _⟩ := query
  rw [QuerySpecification.doc]
  have limits := Expression.succeeds_of_mem_optionDoc limit depth
  have offsets := Expression.succeeds_of_mem_optionDoc offset depth
  refine (succeeds_topClause limits).bind fun _ ↦ ?_
  refine (Expression.succeeds_docs groups _).bind fun _ ↦ ?_
  refine (SortItem.succeeds_docs keys _).bind fun _ ↦ ?_
  refine (succeeds_rangeClause limits offsets).bind fun _ ↦ ?_
  refine (SelectItem.succeeds_docs items _).bind fun _ ↦ ?_
  refine (Relation.succeeds_docs sources _).bind fun _ ↦ ?_
  refine (succeeds_optionally (Expression.succeeds_of_mem_optionDoc filter _)).bind fun _ ↦ ?_
  exact (succeeds_optionally (Expression.succeeds_of_mem_optionDoc having_ _)).bind_ok _

end FrameQuery.Sql
