import FrameQuery.Proofs.Rows.Queries

/-!
# Valid queries

Which expressions may stand where. A condition of a query block reads columns of its sources and
holds no aggregate and no call over a window. What a block selects and sorts by may call functions
over windows of its rows; where it groups them, everything is built from its grouping keys and from
aggregates. A query is valid if every block and every relation in it is legal, at every depth.
-/

namespace FrameQuery.Sql

namespace Expression

/-- What operators build from some expressions. -/
inductive Composed (atom : Expression → Prop) : Expression → Prop
  | atom {x : Expression} : atom x → Composed atom x
  | operator {x : Expression} : x.isOperator = true → (∀ y ∈ x.operands, Composed atom y) →
    Composed atom x

/-- A reference to exactly one of some columns. -/
def IsColumn (columns : List (List String)) (x : Expression) : Prop :=
  ∃ name, x = .reference name ∧ columns.countP name.parts.isSuffixOf = 1

/-- An expression over columns of a row. -/
def RowLevel (columns : List (List String)) : Expression → Prop := Composed (IsColumn columns)

/-- An expression over grouping keys and aggregates of a group. -/
def GroupLevel (columns : List (List String)) (keys : List Expression) : Expression → Prop :=
  Composed fun x ↦ x ∈ keys ∨ x.isAggregate = true ∧ ∀ y ∈ x.operands, y.RowLevel columns

/-- A call over a window whose operands and keys are of some level. -/
def IsWindowCall (level : Expression → Prop) (x : Expression) : Prop :=
  ∃ nested w, x = .window nested w ∧ nested.takesOver = true ∧ w.reference = none ∧
    (∀ y ∈ nested.operands, level y) ∧ ∀ y ∈ w.operands, level y

/-- An expression that may also hold calls over windows. -/
def OutputLevel (level : Expression → Prop) : Expression → Prop :=
  Composed fun x ↦ level x ∨ x.IsWindowCall level

variable {columns : List (List String)} {x y : Expression}

/-- Expressions none of which is an operator. -/
def Atomic (atom : Expression → Prop) : Prop := ∀ x, atom x → x.isOperator = false

/-- An operator is composed of expressions that are no operators exactly if its operands are. -/
theorem Atomic.composed_operator {atom : Expression → Prop} (atomic : Atomic atom)
    (operator : x.isOperator = true) : Composed atom x ↔ ∀ y ∈ x.operands, Composed atom y := by
  constructor
  · rintro (h | ⟨-, h⟩)
    · rw [atomic x h] at operator
      cases operator
    · exact h
  · exact .operator operator

/-- A literal is composed of anything. -/
theorem composed_literal {atom : Expression → Prop} (value : Literal) :
    Composed atom (literal value) :=
  .operator rfl (List.forall_mem_nil _)

/-- What is composed of compositions is composed of what these are composed of. -/
theorem Composed.bind {atom other : Expression → Prop} (h : Composed atom x)
    (each : ∀ y, atom y → Composed other y) : Composed other x := by
  induction h with
  | atom h => exact each _ h
  | operator operator _ ih => exact .operator operator ih

/-- What is composed and is no operator is one of the expressions that are composed. -/
theorem Composed.of_not_operator {atom : Expression → Prop} (h : Composed atom x)
    (other : x.isOperator = false) : atom x := by
  rcases h with h | ⟨operator, -⟩
  · exact h
  · rw [other] at operator
    cases operator

/-- A column is no operator. -/
theorem atomic_isColumn (columns : List (List String)) : Atomic (IsColumn columns) := by
  rintro x ⟨name, rfl, -⟩
  rfl

/-- An operator over columns is one of operands over columns. -/
theorem rowLevel_operator (operator : x.isOperator = true) :
    x.RowLevel columns ↔ ∀ y ∈ x.operands, y.RowLevel columns :=
  (atomic_isColumn columns).composed_operator operator

/-- A literal is computed from no columns. -/
theorem rowLevel_literal (value : Literal) : (literal value).RowLevel columns :=
  composed_literal value

/-- What reads columns and is no operator is a column. -/
theorem RowLevel.isColumn (h : x.RowLevel columns) (other : x.isOperator = false) :
    x.IsColumn columns :=
  h.of_not_operator other

/-! ### Reducing rows -/

/-- An operator reduces rows if one of its operands does. -/
theorem reduces_operator (operator : x.isOperator = true) :
    x.reduces = x.operands.any reduces := by
  have plain : x.isAggregate = false ∧ x.parts = x.operands := by
    cases x with
    | window => cases operator
    | extension function => exact ⟨by simpa [isOperator] using operator, rfl⟩
    | _ => exact ⟨rfl, rfl⟩
  rw [reduces_eq, plain.1, plain.2, Bool.false_or]

/-- Exactly what does not reduce rows is composed of expressions that do not and are no
operators. -/
theorem reduces_eq_false_iff :
    x.reduces = false ↔ Composed (fun y ↦ y.isOperator = false ∧ y.reduces = false) x := by
  constructor
  · intro none
    induction h : sizeOf x using Nat.strong_induction_on generalizing x with
    | _ n ih =>
      cases operator : x.isOperator with
      | false => exact .atom ⟨operator, none⟩
      | true =>
        refine .operator operator fun y hy ↦ ih _ (h ▸ sizeOf_operand_lt hy) ?_ rfl
        rw [reduces_operator operator, List.any_eq_false] at none
        exact eq_false_of_ne_true (none y hy)
  · intro composed
    induction composed with
    | atom h => exact h.2
    | operator operator _ ih =>
      rw [reduces_operator operator, List.any_eq_false]
      exact fun y hy ↦ ne_true_of_eq_false (ih y hy)

/-- A column does not reduce rows. -/
theorem IsColumn.reduces_eq_false (h : x.IsColumn columns) : x.reduces = false := by
  obtain ⟨name, rfl, -⟩ := h
  rw [reduces_eq]
  rfl

/-- An expression over columns of a row does not reduce rows. -/
theorem RowLevel.reduces_eq_false (h : x.RowLevel columns) : x.reduces = false :=
  reduces_eq_false_iff.mpr <| h.bind fun y hy ↦
    .atom ⟨atomic_isColumn columns y hy, hy.reduces_eq_false⟩

end Expression

/-! ### Blocks and relations -/

namespace QuerySpecification

/-- What a block computes from its rows before it calls functions over windows. -/
def Level (query : QuerySpecification) (columns : List (List String)) : Expression → Prop :=
  if query.isGrouped then Expression.GroupLevel columns query.groupBy
  else Expression.RowLevel columns

/-- A query block over sources with some columns. -/
structure Legal (query : QuerySpecification) (columns : List (List String)) : Prop where
  filter : ∀ x, query.filter = some x → x.RowLevel columns
  groupBy : ∀ x ∈ query.groupBy, x.RowLevel columns
  having : ∀ x, query.having = some x → x.GroupLevel columns query.groupBy
  outputs : ∀ x ∈ query.outputs, x.OutputLevel (query.Level columns)
  /-- A block that makes one row of each group selects no columns that are not listed. -/
  listed : query.isGrouped = true → ∀ relation, SelectItem.allColumns relation ∉ query.items
  /-- Distinct rows are sorted by what is selected. -/
  distinct : query.select.distinct = true →
    ∀ k ∈ query.orderBy, ∃ i ∈ query.items, i.expression? = some k.key
  limit : ∀ x, query.limit = some x → x.RowLevel []
  offset : ∀ x, query.offset = some x → x.RowLevel []

end QuerySpecification

variable {V : Type} [DecidableEq V]

/-- The criteria of a join over two tables. -/
def JoinCriteria.Legal (left right : Table V) : Option JoinCriteria → Prop
  | none => True
  | some (.condition holds) => holds.RowLevel (left.columns ++ right.columns)
  | some (.columns names) =>
    ∀ name ∈ names, Expression.IsColumn left.columns (.column [name]) ∧
      Expression.IsColumn right.columns (.column [name])

mutual

/-- A relation all of whose parts are legal. -/
def Relation.Valid (engine : Engine V) : Relation → Prop
  | .table _ | .function _ => True
  | .aliased relation _ names =>
    relation.Valid engine ∧ (names ≠ [] → names.length = (relation.contents engine).columns.length)
  | .subquery query => query.Valid engine
  | .join _ left right criteria =>
    left.Valid engine ∧ right.Valid engine ∧
      JoinCriteria.Legal (left.contents engine) (right.contents engine) criteria
  | .union left right _ =>
    left.Valid engine ∧ right.Valid engine ∧
      (left.contents engine).columns.length = (right.contents engine).columns.length
  | .specification query => query.Valid engine

/-- A query all of whose parts are legal. -/
def Query.Valid (engine : Engine V) : Query → Prop
  | ⟨body, orderBy, limit, offset⟩ =>
    body.Valid engine ∧ (∀ k ∈ orderBy, k.key.RowLevel (body.contents engine).columns) ∧
      (∀ x, limit = some x → x.RowLevel []) ∧ ∀ x, offset = some x → x.RowLevel []

/-- A query block all of whose parts are legal. -/
def QuerySpecification.Valid (engine : Engine V) (query : QuerySpecification) : Prop :=
  query.Legal (Relation.product engine query.sources).columns ∧ match query with
    | ⟨_, sources, _, _, _, _, _, _⟩ => Relation.AllValid engine sources

/-- Relations all of whose parts are legal. -/
def Relation.AllValid (engine : Engine V) : List Relation → Prop
  | [] => True
  | relation :: rest => relation.Valid engine ∧ Relation.AllValid engine rest

end

/-- A query block is valid if it is legal and all of its sources are valid. -/
theorem QuerySpecification.valid_iff {engine : Engine V} {query : QuerySpecification} :
    query.Valid engine ↔
      query.Legal (Relation.product engine query.sources).columns ∧
        Relation.AllValid engine query.sources := by
  obtain ⟨select, sources, filter, groupBy, having, orderBy, limit, offset⟩ := query
  rw [Valid]

end FrameQuery.Sql
