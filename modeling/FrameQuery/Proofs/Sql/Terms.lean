import FrameQuery.Proofs.Sql.Traversal

/-!
# Terms

The operands of an expression are the expressions directly below it, whatever kind of node it is.
The terms of an expression are the expression and everything below it, at every depth, and the terms
of a query those of all its expressions, in all its blocks and relations.
-/

namespace FrameQuery.Sql

/-- The expressions of a query around its body. -/
def Query.operands : Query → List Expression
  | ⟨_, orderBy, limit, offset⟩ => orderBy.map (·.key) ++ limit.toList ++ offset.toList

/-- The expressions of a bound. -/
def FrameBound.operands (bound : FrameBound) : List Expression := bound.value.toList

/-- The expressions of a window frame. -/
def WindowFrame.operands (frame : WindowFrame) : List Expression :=
  frame.start.operands ++ frame.stop.toList.flatMap (·.operands)

/-- The expressions of a window. -/
def Window.operands (window : Window) : List Expression :=
  window.partitions ++ window.orderBy.map (·.key) ++ window.frame.toList.flatMap (·.operands)

/-- The expressions of a function call. -/
def FunctionCall.operands (call : FunctionCall) : List Expression :=
  call.arguments ++ call.filter.toList ++ call.window.toList.flatMap (·.operands)

/-- The expressions of a domain function. -/
def Extension.operands : Extension → List Expression
  | .stringLength value | .stringUpper value | .stringLower value | .stringTrim value _
  | .math _ value | .dateTrunc _ value | .datePart _ value | .dateAdjust value _
  | .aggregate _ value => [value]
  | .stringLike first second | .stringPos first second | .stringConcat first second
  | .power first second | .remainder first second | .arcTan2 first second
  | .joinStrings first second => [first, second]
  | .round value scale => value :: scale.toList

/-- The expressions directly below an expression. -/
def Expression.operands : Expression → List Expression
  | .literal _ | .reference _ | .currentTime _ _ | .constant _ => []
  | .comparison _ left right | .logical _ left right | .arithmetic _ left right
  | .inPredicate left right => [left, right]
  | .not value | .negative value | .cast value _ | .isNull value | .isNotNull value
  | .extract _ value | .namedArgument _ value => [value]
  | .list items => items
  | .call function => function.operands
  | .searchedCase clauses otherwise =>
    clauses.flatMap (fun c ↦ [c.operand, c.result]) ++ otherwise.toList
  | .window nested w => nested :: w.operands
  | .subquery query => query.operands
  | .extension function => function.operands

/-! ### Sizes -/

/-- What is in an optional part is smaller than the part. -/
private theorem sizeOf_lt_of_option {α : Type} [SizeOf α] {part : Option α} {y : Expression}
    {f : α → List Expression} (smaller : ∀ a, y ∈ f a → sizeOf y < sizeOf a)
    (h : y ∈ part.toList.flatMap f) : sizeOf y < sizeOf part := by
  obtain ⟨a, ha, hy⟩ := List.mem_flatMap.mp h
  have := smaller a hy
  rw [Option.mem_toList.mp ha]
  simp
  omega

/-- An optional expression is smaller than the option. -/
private theorem sizeOf_lt_of_toList {part : Option Expression} {y : Expression}
    (h : y ∈ part.toList) : sizeOf y < sizeOf part := by
  rw [Option.mem_toList.mp h]
  simp

/-- Sort keys are smaller than the list of them. -/
private theorem SortItem.sizeOf_key_lt {items : List SortItem} {y : Expression}
    (h : y ∈ items.map (·.key)) : sizeOf y < sizeOf items := by
  obtain ⟨⟨key, ordering, nulls⟩, hm, rfl⟩ := List.mem_map.mp h
  have := List.sizeOf_lt_of_mem hm
  simp at this ⊢
  omega

/-- Conditions and results of branches are smaller than the list of branches. -/
private theorem WhenClause.sizeOf_part_lt {clauses : List WhenClause} {y : Expression}
    (h : y ∈ clauses.flatMap fun c ↦ [c.operand, c.result]) : sizeOf y < sizeOf clauses := by
  obtain ⟨⟨operand, result⟩, hm, hy⟩ := List.mem_flatMap.mp h
  have := List.sizeOf_lt_of_mem hm
  simp at this hy
  rcases hy with rfl | rfl <;> omega

/-- The expressions of a query are smaller than the query. -/
theorem Query.sizeOf_operand_lt {query : Query} {y : Expression} (h : y ∈ query.operands) :
    sizeOf y < sizeOf query := by
  obtain ⟨body, orderBy, limit, offset⟩ := query
  simp only [Query.operands, List.mem_append] at h
  simp only [Query.mk.sizeOf_spec]
  rcases h with (h | h) | h
  · have := SortItem.sizeOf_key_lt h
    omega
  · have := sizeOf_lt_of_toList h
    omega
  · have := sizeOf_lt_of_toList h
    omega

/-- The expressions of a window frame are smaller than the frame. -/
theorem WindowFrame.sizeOf_operand_lt {frame : WindowFrame} {y : Expression}
    (h : y ∈ frame.operands) : sizeOf y < sizeOf frame := by
  have bound (b : FrameBound) (hb : y ∈ b.operands) : sizeOf y < sizeOf b := by
    obtain ⟨kind, value, unit⟩ := b
    have := sizeOf_lt_of_toList hb
    simp at this ⊢
    omega
  obtain ⟨mode, start, stop⟩ := frame
  simp only [WindowFrame.operands, List.mem_append] at h
  simp only [WindowFrame.mk.sizeOf_spec]
  rcases h with h | h
  · have := bound start h
    omega
  · have := sizeOf_lt_of_option bound h
    omega

/-- The expressions of a window are smaller than the window. -/
theorem Window.sizeOf_operand_lt {window : Window} {y : Expression} (h : y ∈ window.operands) :
    sizeOf y < sizeOf window := by
  obtain ⟨reference, partitions, orderBy, frame⟩ := window
  simp only [Window.operands, List.mem_append] at h
  simp only [Window.mk.sizeOf_spec]
  rcases h with (h | h) | h
  · have := List.sizeOf_lt_of_mem h
    omega
  · have := SortItem.sizeOf_key_lt h
    omega
  · have := sizeOf_lt_of_option (fun f hf ↦ WindowFrame.sizeOf_operand_lt hf) h
    omega

/-- The expressions of a function call are smaller than the call. -/
theorem FunctionCall.sizeOf_operand_lt {call : FunctionCall} {y : Expression}
    (h : y ∈ call.operands) : sizeOf y < sizeOf call := by
  obtain ⟨name, distinct, arguments, filter, window⟩ := call
  simp only [FunctionCall.operands, List.mem_append] at h
  simp only [FunctionCall.mk.sizeOf_spec]
  rcases h with (h | h) | h
  · have := List.sizeOf_lt_of_mem h
    omega
  · have := sizeOf_lt_of_toList h
    omega
  · have := sizeOf_lt_of_option (fun w hw ↦ Window.sizeOf_operand_lt hw) h
    omega

/-- The expressions of a domain function are smaller than the function. -/
theorem Extension.sizeOf_operand_lt {function : Extension} {y : Expression}
    (h : y ∈ function.operands) : sizeOf y < sizeOf function := by
  cases function with
  | round value scale =>
    rcases List.mem_cons.mp h with rfl | h
    · simp
      omega
    · have := sizeOf_lt_of_toList h
      simp
      omega
  | _ =>
    simp [Extension.operands] at h
    simp
    rcases h with rfl | rfl <;> omega

namespace Expression

/-- The operands of an expression are smaller than the expression. -/
theorem sizeOf_operand_lt {x y : Expression} (h : y ∈ x.operands) : sizeOf y < sizeOf x := by
  cases x with
  | literal | reference | currentTime | constant => cases h
  | list items =>
    have : sizeOf y < sizeOf items := List.sizeOf_lt_of_mem h
    simp
    omega
  | call function =>
    have := FunctionCall.sizeOf_operand_lt h
    simp
    omega
  | subquery query =>
    have := Query.sizeOf_operand_lt h
    simp
    omega
  | extension function =>
    have := Extension.sizeOf_operand_lt h
    simp
    omega
  | searchedCase clauses otherwise =>
    rcases List.mem_append.mp h with h | h
    · have := WhenClause.sizeOf_part_lt h
      simp
      omega
    · have := sizeOf_lt_of_toList h
      simp
      omega
  | window nested w =>
    rcases List.mem_cons.mp h with rfl | h
    · simp
      omega
    · have := Window.sizeOf_operand_lt h
      simp
      omega
  | comparison | logical | arithmetic | inPredicate =>
    simp [operands] at h
    simp
    rcases h with rfl | rfl <;> omega
  | not | negative | cast | isNull | isNotNull | extract | namedArgument =>
    rw [List.mem_singleton.mp h]
    simp
    try omega

/-! ### Terms -/

/-- An expression and all expressions below it, at every depth. -/
def terms (x : Expression) : List Expression :=
  x :: x.operands.attach.flatMap fun y ↦ y.1.terms
termination_by sizeOf x
decreasing_by exact sizeOf_operand_lt y.2

/-- The terms of an expression are itself and those of its operands. -/
theorem terms_eq (x : Expression) : x.terms = x :: x.operands.flatMap terms := by
  rw [terms, ← List.flatMap_map Subtype.val terms, List.attach_map_subtype_val]

end Expression

/-- The expressions of a relation itself, not those of what it reads from. -/
def Relation.expressions : Relation → List Expression
  | .subquery query => query.operands
  | .join _ _ _ (some (.condition holds)) => [holds]
  | .function call => call.operands
  | _ => []

/-- A walk that gathers something at each expression of a block or a relation. -/
def Walk.ofExpressions {α : Type} (gather : Expression → List α) : Walk α where
  relation relation := relation.expressions.flatMap gather
  block query := query.expressions.flatMap gather

/-- Expressions are visited at the blocks and relations that they belong to. -/
theorem Walk.block_ofExpressions_eq_nil {α : Type} {gather : Expression → List α}
    {query : QuerySpecification} :
    (Walk.ofExpressions gather).block query = [] ↔ ∀ x ∈ query.expressions, gather x = [] :=
  List.flatMap_eq_nil_iff

end FrameQuery.Sql
