import FrameQuery.Proofs.Sql.Stated
import FrameQuery.Sql.Decoding

/-!
# Nodes are read back from JSON

Every node of the metamodel is read from each JSON value that states its tree. A node's decoder at
one bound on the nesting calls those of its parts at the bound below, so there is one step for each
kind of node, and an induction on the bound.
-/

namespace FrameQuery.Sql

open Json (record?)

/-! ### Parts without nodes inside -/

section Parts

variable {n : Nat}

/-- Qualified names are read. -/
theorem QualifiedName.reads : Decodes n tree ofJson? where
  solid _ := rfl
  reads name json stated shallow := by
    obtain ⟨members, rfl, bound, parts, -⟩ := stated.record (by simp) shallow
    have bound := Nat.le_of_lt bound
    rw [ofJson?]
    exact bind_of_eq rfl <| bind_of_eq (Decodes.text.list.required parts bound) rfl

/-- Intervals are read. -/
theorem IntervalLiteral.reads : Decodes n tree ofJson? where
  solid _ := rfl
  reads interval json stated shallow := by
    obtain ⟨members, rfl, bound, amount, unit, -⟩ := stated.record (by simp) shallow
    have bound := Nat.le_of_lt bound
    rw [ofJson?]
    exact bind_of_eq rfl <| bind_of_eq (Decodes.int64.required amount bound) <|
      bind_of_eq (Decodes.named.required unit bound) rfl

/-- The types of casts are read. -/
theorem ColumnType.reads : Decodes n tree ofJson? where
  solid _ := rfl
  reads type json stated shallow := by
    obtain ⟨members, rfl, bound, name, parameters, -⟩ := stated.record (by simp) shallow
    have bound := Nat.le_of_lt bound
    rw [ofJson?]
    exact bind_of_eq rfl <| bind_of_eq (Decodes.text.required name bound) <|
      bind_of_eq (Decodes.int64.list.required parameters bound) rfl

/-- Constants are read. -/
theorem Literal.reads : Decodes n tree ofJson? where
  solid value := by cases value <;> rfl
  reads value json stated shallow := by
    replace shallow : json.depth ≤ n + 1 := Nat.le_succ_of_le shallow
    cases value with
    | boolean value =>
      obtain ⟨inner, found, deep, stated⟩ := stated.wrapped rfl shallow
      rw [ofJson?]
      exact bind_of_eq found <| bind_of_eq (Decodes.boolean.reads value inner stated deep) rfl
    | integer value =>
      obtain ⟨inner, found, deep, stated⟩ := stated.wrapped rfl shallow
      rw [ofJson?]
      exact bind_of_eq found <| bind_of_eq (Decodes.int64.reads value inner stated deep) rfl
    | double value =>
      obtain ⟨inner, found, deep, stated⟩ := stated.wrapped rfl shallow
      exact stated.elim
    | string value quoted =>
      obtain ⟨members, found, bound, value, quoted, -⟩ := stated.variant (by simp) shallow
      have bound := Nat.le_of_lt bound
      rw [ofJson?]
      exact bind_of_eq found <| bind_of_eq rfl <| bind_of_eq (Decodes.text.required value bound) <|
        bind_of_eq (Decodes.boolean.required quoted bound) rfl
    | null =>
      obtain rfl : json = .string "Null" := stated
      rfl
    | interval span =>
      obtain ⟨inner, found, deep, stated⟩ := stated.wrapped rfl shallow
      rw [ofJson?]
      exact bind_of_eq found <| bind_of_eq (IntervalLiteral.reads.reads span inner stated deep) rfl

end Parts

/-! ### Lists and options of nodes -/

/-- The trees of relations, one for each. -/
@[simp] theorem Relation.trees_eq (relations : List Relation) :
    Relation.trees relations = relations.map Relation.tree := by
  induction relations with
  | nil => rfl
  | cons relation rest ih => rw [Relation.trees, List.map_cons, ih]

/-- The trees of sort keys, one for each. -/
@[simp] theorem SortItem.trees_eq (items : List SortItem) :
    SortItem.trees items = items.map SortItem.tree := by
  induction items with
  | nil => rfl
  | cons item rest ih => rw [SortItem.trees, List.map_cons, ih]

/-- The trees of entries of a select list, one for each. -/
@[simp] theorem SelectItem.trees_eq (items : List SelectItem) :
    SelectItem.trees items = items.map SelectItem.tree := by
  induction items with
  | nil => rfl
  | cons item rest ih => rw [SelectItem.trees, List.map_cons, ih]

/-- The trees of expressions, one for each. -/
@[simp] theorem Expression.trees_eq (expressions : List Expression) :
    Expression.trees expressions = expressions.map Expression.tree := by
  induction expressions with
  | nil => rfl
  | cons expression rest ih => rw [Expression.trees, List.map_cons, ih]

/-- The trees of branches, one for each. -/
@[simp] theorem WhenClause.trees_eq (clauses : List WhenClause) :
    WhenClause.trees clauses = clauses.map WhenClause.tree := by
  induction clauses with
  | nil => rfl
  | cons clause rest ih => rw [WhenClause.trees, List.map_cons, ih]

/-- The tree of an optional expression, if there is one. -/
@[simp] theorem Expression.optionTree_eq (expression : Option Expression) :
    Expression.optionTree expression = expression.map Expression.tree := by
  cases expression <;> rfl

/-- The tree of optional criteria, if there are any. -/
@[simp] theorem JoinCriteria.optionTree_eq (criteria : Option JoinCriteria) :
    JoinCriteria.optionTree criteria = criteria.map JoinCriteria.tree := by
  cases criteria <;> rfl

/-- The tree of an optional window, if there is one. -/
@[simp] theorem Window.optionTree_eq (window : Option Window) :
    Window.optionTree window = window.map Window.tree := by
  cases window <;> rfl

/-- The tree of an optional window frame, if there is one. -/
@[simp] theorem WindowFrame.optionTree_eq (frame : Option WindowFrame) :
    WindowFrame.optionTree frame = frame.map WindowFrame.tree := by
  cases frame <;> rfl

/-- The tree of an optional bound, if there is one. -/
@[simp] theorem FrameBound.optionTree_eq (bound : Option FrameBound) :
    FrameBound.optionTree bound = bound.map FrameBound.tree := by
  cases bound <;> rfl

/-! ### One step for each kind of node -/

open FrameQuery.Sql.Tree (FieldStated)

/-- Nodes of all kinds are read from values up to a depth. -/
structure NodesRead (n : Nat) : Prop where
  relation : Decodes n Relation.tree (Relation.of? n)
  criteria : Decodes n JoinCriteria.tree (JoinCriteria.of? n)
  query : Decodes n Query.tree (Query.of? n)
  specification : Decodes n QuerySpecification.tree (QuerySpecification.of? n)
  select : Decodes n Select.tree (Select.of? n)
  item : Decodes n SelectItem.tree (SelectItem.of? n)
  sortItem : Decodes n SortItem.tree (SortItem.of? n)
  expression : Decodes n Expression.tree (Expression.of? n)
  call : Decodes n FunctionCall.tree (FunctionCall.of? n)
  clause : Decodes n WhenClause.tree (WhenClause.of? n)
  window : Decodes n Window.tree (Window.of? n)
  frame : Decodes n WindowFrame.tree (WindowFrame.of? n)
  bound : Decodes n FrameBound.tree (FrameBound.of? n)
  extension : Decodes n Extension.tree (Extension.of? n)
  /-- The fields of a join, which have a decoder of their own. -/
  join {kind : JoinType} {left right : Relation} {criteria : Option JoinCriteria}
    {members : List (String × Json)} (bound : Json.membersDepth members < n)
    (hk : FieldStated "kind" (.named kind) members) (hl : FieldStated "left" left.tree members)
    (hr : FieldStated "right" right.tree members)
    (hc : FieldStated "criteria" (.optional (criteria.map JoinCriteria.tree)) members) :
    Relation.joinOf? n (.object members) = some (.join kind left right criteria)
  /-- The fields of a union, which have a decoder of their own. -/
  union {left right : Relation} {distinct : Bool} {members : List (String × Json)}
    (bound : Json.membersDepth members < n) (hl : FieldStated "left" left.tree members)
    (hr : FieldStated "right" right.tree members)
    (hd : FieldStated "distinct" (.boolean distinct) members) :
    Relation.unionOf? n (.object members) = some (.union left right distinct)
  /-- The operands of functions with two of them. -/
  pair {first second : String} {left right : Expression} {members : List (String × Json)}
    (bound : Json.membersDepth members < n) (hl : FieldStated first left.tree members)
    (hr : FieldStated second right.tree members) :
    Extension.pairOf? n first second (.object members) = some (left, right)

section Steps

variable {n : Nat}

/-- Queries are read. -/
theorem Query.reads_succ (h : NodesRead n) : Decodes (n + 1) Query.tree (Query.of? (n + 1)) where
  solid node := by cases node; rfl
  reads := by
    rintro ⟨body, orderBy, limit, offset⟩ json stated shallow
    rw [Query.tree, SortItem.trees_eq, Expression.optionTree_eq, Expression.optionTree_eq] at stated
    obtain ⟨members, rfl, bound, body, orderBy, limit, offset, -⟩ := stated.record (by simp) shallow
    have bound := Nat.le_of_lt_succ bound
    rw [Query.of?]
    exact bind_of_eq rfl <| bind_of_eq (h.relation.required body bound) <|
      bind_of_eq (h.sortItem.list.required orderBy bound) <|
      bind_of_eq (h.expression.optional limit bound) <|
      bind_of_eq (h.expression.optional offset bound) rfl

/-- Query blocks are read. -/
theorem QuerySpecification.reads_succ (h : NodesRead n) :
    Decodes (n + 1) QuerySpecification.tree (QuerySpecification.of? (n + 1)) where
  solid node := by cases node; rfl
  reads := by
    rintro ⟨select, sources, filter, groupBy, having, orderBy, limit, offset⟩ json stated shallow
    rw [QuerySpecification.tree, Relation.trees_eq, Expression.optionTree_eq, Expression.trees_eq,
      Expression.optionTree_eq, SortItem.trees_eq, Expression.optionTree_eq,
      Expression.optionTree_eq] at stated
    obtain ⟨members, rfl, bound, select, sources, filter, groupBy, having, orderBy, limit, offset,
      -⟩ := stated.record (by simp) shallow
    have bound := Nat.le_of_lt_succ bound
    rw [QuerySpecification.of?]
    exact bind_of_eq rfl <| bind_of_eq (h.select.required select bound) <|
      bind_of_eq (h.relation.list.required sources bound) <|
      bind_of_eq (h.expression.optional filter bound) <|
      bind_of_eq (h.expression.list.required groupBy bound) <|
      bind_of_eq (h.expression.optional having bound) <|
      bind_of_eq (h.sortItem.list.required orderBy bound) <|
      bind_of_eq (h.expression.optional limit bound) <|
      bind_of_eq (h.expression.optional offset bound) rfl

/-- Select lists are read. -/
theorem Select.reads_succ (h : NodesRead n) : Decodes (n + 1) Select.tree (Select.of? (n + 1)) where
  solid node := by cases node; rfl
  reads := by
    rintro ⟨distinct, items⟩ json stated shallow
    rw [Select.tree, SelectItem.trees_eq] at stated
    obtain ⟨members, rfl, bound, distinct, items, -⟩ := stated.record (by simp) shallow
    have bound := Nat.le_of_lt_succ bound
    rw [Select.of?]
    exact bind_of_eq rfl <| bind_of_eq (Decodes.boolean.required distinct bound) <|
      bind_of_eq (h.item.list.required items bound) rfl

/-- Sort keys are read. -/
theorem SortItem.reads_succ (h : NodesRead n) :
    Decodes (n + 1) SortItem.tree (SortItem.of? (n + 1)) where
  solid node := by cases node; rfl
  reads := by
    rintro ⟨key, ordering, nulls⟩ json stated shallow
    obtain ⟨members, rfl, bound, key, ordering, nulls, -⟩ := stated.record (by simp) shallow
    have bound := Nat.le_of_lt_succ bound
    rw [SortItem.of?]
    exact bind_of_eq rfl <| bind_of_eq (h.expression.required key bound) <|
      bind_of_eq (Decodes.named.required ordering bound) <|
      bind_of_eq (Decodes.named.required nulls bound) rfl

/-- Function calls are read. -/
theorem FunctionCall.reads_succ (h : NodesRead n) :
    Decodes (n + 1) FunctionCall.tree (FunctionCall.of? (n + 1)) where
  solid node := by cases node; rfl
  reads := by
    rintro ⟨name, distinct, arguments, filter, window⟩ json stated shallow
    rw [FunctionCall.tree, Expression.trees_eq, Expression.optionTree_eq,
      Window.optionTree_eq] at stated
    obtain ⟨members, rfl, bound, name, distinct, arguments, filter, window, -⟩ := stated.record
      (by simp) shallow
    have bound := Nat.le_of_lt_succ bound
    rw [FunctionCall.of?]
    exact bind_of_eq rfl <| bind_of_eq (QualifiedName.reads.required name bound) <|
      bind_of_eq (Decodes.boolean.required distinct bound) <|
      bind_of_eq (h.expression.list.required arguments bound) <|
      bind_of_eq (h.expression.optional filter bound) <|
      bind_of_eq (h.window.optional window bound) rfl

/-- Branches are read. -/
theorem WhenClause.reads_succ (h : NodesRead n) :
    Decodes (n + 1) WhenClause.tree (WhenClause.of? (n + 1)) where
  solid node := by cases node; rfl
  reads := by
    rintro ⟨operand, result⟩ json stated shallow
    obtain ⟨members, rfl, bound, operand, result, -⟩ := stated.record (by simp) shallow
    have bound := Nat.le_of_lt_succ bound
    rw [WhenClause.of?]
    exact bind_of_eq rfl <| bind_of_eq (h.expression.required operand bound) <|
      bind_of_eq (h.expression.required result bound) rfl

/-- Windows are read. -/
theorem Window.reads_succ (h : NodesRead n) : Decodes (n + 1) Window.tree (Window.of? (n + 1)) where
  solid node := by cases node; rfl
  reads := by
    rintro ⟨reference, partitions, orderBy, frame⟩ json stated shallow
    rw [Window.tree, Expression.trees_eq, SortItem.trees_eq, WindowFrame.optionTree_eq] at stated
    obtain ⟨members, rfl, bound, reference, partitions, orderBy, frame, -⟩ := stated.record
      (by simp) shallow
    have bound := Nat.le_of_lt_succ bound
    rw [Window.of?]
    exact bind_of_eq rfl <| bind_of_eq (Decodes.text.optional reference bound) <|
      bind_of_eq (h.expression.list.required partitions bound) <|
      bind_of_eq (h.sortItem.list.required orderBy bound) <|
      bind_of_eq (h.frame.optional frame bound) rfl

/-- Window frames are read. -/
theorem WindowFrame.reads_succ (h : NodesRead n) :
    Decodes (n + 1) WindowFrame.tree (WindowFrame.of? (n + 1)) where
  solid node := by cases node; rfl
  reads := by
    rintro ⟨mode, start, stop⟩ json stated shallow
    rw [WindowFrame.tree, FrameBound.optionTree_eq] at stated
    obtain ⟨members, rfl, bound, mode, start, stop, -⟩ := stated.record (by simp) shallow
    have bound := Nat.le_of_lt_succ bound
    rw [WindowFrame.of?]
    exact bind_of_eq rfl <| bind_of_eq (Decodes.named.required mode bound) <|
      bind_of_eq (h.bound.required start bound) <| bind_of_eq (h.bound.optional stop bound) rfl

/-- Bounds are read. -/
theorem FrameBound.reads_succ (h : NodesRead n) :
    Decodes (n + 1) FrameBound.tree (FrameBound.of? (n + 1)) where
  solid node := by cases node; rfl
  reads := by
    rintro ⟨kind, value, unit⟩ json stated shallow
    rw [FrameBound.tree, Expression.optionTree_eq] at stated
    obtain ⟨members, rfl, bound, kind, value, unit, -⟩ := stated.record (by simp) shallow
    have bound := Nat.le_of_lt_succ bound
    rw [FrameBound.of?]
    exact bind_of_eq rfl <| bind_of_eq (Decodes.named.required kind bound) <|
      bind_of_eq (h.expression.optional value bound) <|
      bind_of_eq (Decodes.named.optional unit bound) rfl

/-- The fields of joins are read. -/
theorem Relation.joinOf?_succ (h : NodesRead n) {kind : JoinType} {left right : Relation}
    {criteria : Option JoinCriteria} {members : List (String × Json)}
    (bound : Json.membersDepth members < n + 1) (hk : FieldStated "kind" (.named kind) members)
    (hl : FieldStated "left" left.tree members) (hr : FieldStated "right" right.tree members)
    (hc : FieldStated "criteria" (.optional (criteria.map JoinCriteria.tree)) members) :
    Relation.joinOf? (n + 1) (.object members) = some (.join kind left right criteria) := by
  have bound := Nat.le_of_lt_succ bound
  rw [Relation.joinOf?]
  exact bind_of_eq rfl <| bind_of_eq (Decodes.named.required hk bound) <|
    bind_of_eq (h.relation.required hl bound) <| bind_of_eq (h.relation.required hr bound) <|
    bind_of_eq (h.criteria.optional hc bound) rfl

/-- The fields of unions are read. -/
theorem Relation.unionOf?_succ (h : NodesRead n) {left right : Relation} {distinct : Bool}
    {members : List (String × Json)} (bound : Json.membersDepth members < n + 1)
    (hl : FieldStated "left" left.tree members) (hr : FieldStated "right" right.tree members)
    (hd : FieldStated "distinct" (.boolean distinct) members) :
    Relation.unionOf? (n + 1) (.object members) = some (.union left right distinct) := by
  have bound := Nat.le_of_lt_succ bound
  rw [Relation.unionOf?]
  exact bind_of_eq rfl <| bind_of_eq (h.relation.required hl bound) <|
    bind_of_eq (h.relation.required hr bound) <| bind_of_eq (Decodes.boolean.required hd bound) rfl

/-- The operands of functions with two of them are read. -/
theorem Extension.pairOf?_succ (h : NodesRead n) {first second : String} {left right : Expression}
    {members : List (String × Json)} (bound : Json.membersDepth members < n + 1)
    (hl : FieldStated first left.tree members) (hr : FieldStated second right.tree members) :
    Extension.pairOf? (n + 1) first second (.object members) = some (left, right) := by
  have bound := Nat.le_of_lt_succ bound
  rw [Extension.pairOf?]
  exact bind_of_eq rfl <| bind_of_eq (h.expression.required hl bound) <|
    bind_of_eq (h.expression.required hr bound) rfl

/-- Relations are read. -/
theorem Relation.reads_succ (h : NodesRead n) :
    Decodes (n + 1) Relation.tree (Relation.of? (n + 1)) where
  solid node := by cases node <;> rfl
  reads node json stated shallow := by
    cases node with
    | table name =>
      obtain ⟨inner, found, deep, stated⟩ := stated.wrapped rfl shallow
      obtain ⟨members, rfl, bound, name, -⟩ := stated.record (by simp) deep
      have bound := Nat.le_of_lt bound
      rw [Relation.of?]
      exact bind_of_eq found <| bind_of_eq rfl <| bind_of_eq rfl <|
        bind_of_eq (QualifiedName.reads.required name bound) rfl
    | aliased relation correlation columnNames =>
      obtain ⟨inner, found, deep, stated⟩ := stated.wrapped rfl shallow
      obtain ⟨members, rfl, bound, relation, correlation, columnNames, -⟩ := stated.record
        (by simp) deep
      have bound := Nat.le_of_lt bound
      rw [Relation.of?]
      exact bind_of_eq found <| bind_of_eq rfl <| bind_of_eq rfl <|
        bind_of_eq (h.relation.required relation bound) <|
        bind_of_eq (Decodes.text.required correlation bound) <|
        bind_of_eq (Decodes.text.list.required columnNames bound) rfl
    | subquery query =>
      obtain ⟨inner, found, deep, stated⟩ := stated.wrapped rfl shallow
      obtain ⟨members, rfl, bound, query, -⟩ := stated.record (by simp) deep
      have bound := Nat.le_of_lt bound
      rw [Relation.of?]
      exact bind_of_eq found <| bind_of_eq rfl <| bind_of_eq rfl <|
        bind_of_eq (h.query.required query bound) rfl
    | join kind left right criteria =>
      rw [Relation.tree, JoinCriteria.optionTree_eq] at stated
      obtain ⟨inner, found, deep, stated⟩ := stated.wrapped rfl shallow
      obtain ⟨members, rfl, bound, kind, left, right, criteria, -⟩ := stated.record (by simp) deep
      rw [Relation.of?]
      exact bind_of_eq found <| bind_of_eq rfl <| h.join bound kind left right criteria
    | function call =>
      obtain ⟨inner, found, deep, stated⟩ := stated.wrapped rfl shallow
      obtain ⟨members, rfl, bound, call, -⟩ := stated.record (by simp) deep
      have bound := Nat.le_of_lt bound
      rw [Relation.of?]
      exact bind_of_eq found <| bind_of_eq rfl <| bind_of_eq rfl <|
        bind_of_eq (h.call.required call bound) rfl
    | union left right distinct =>
      obtain ⟨inner, found, deep, stated⟩ := stated.wrapped rfl shallow
      obtain ⟨members, rfl, bound, left, right, distinct, -⟩ := stated.record (by simp) deep
      rw [Relation.of?]
      exact bind_of_eq found <| bind_of_eq rfl <| h.union bound left right distinct
    | specification query =>
      obtain ⟨inner, found, deep, stated⟩ := stated.wrapped (h.specification.solid _) shallow
      rw [Relation.of?]
      exact bind_of_eq found <| bind_of_eq rfl <|
        bind_of_eq (h.specification.reads _ _ stated deep) rfl

/-- Criteria of joins are read. -/
theorem JoinCriteria.reads_succ (h : NodesRead n) :
    Decodes (n + 1) JoinCriteria.tree (JoinCriteria.of? (n + 1)) where
  solid node := by cases node <;> rfl
  reads node json stated shallow := by
    cases node with
    | condition holds =>
      obtain ⟨inner, found, deep, stated⟩ := stated.wrapped (h.expression.solid _) shallow
      rw [JoinCriteria.of?]
      exact bind_of_eq found <| bind_of_eq (h.expression.reads _ _ stated deep) rfl
    | columns names =>
      obtain ⟨inner, found, deep, stated⟩ := stated.wrapped rfl shallow
      rw [JoinCriteria.of?]
      exact bind_of_eq found <| bind_of_eq (Decodes.text.list.reads _ _ stated deep) rfl

/-- Entries of select lists are read. -/
theorem SelectItem.reads_succ (h : NodesRead n) :
    Decodes (n + 1) SelectItem.tree (SelectItem.of? (n + 1)) where
  solid node := by cases node <;> rfl
  reads node json stated shallow := by
    cases node with
    | allColumns relation =>
      obtain ⟨members, found, bound, relation, -⟩ := stated.variant (by simp) shallow
      have bound := Nat.le_of_lt bound
      rw [SelectItem.of?]
      exact bind_of_eq found <| bind_of_eq rfl <|
        bind_of_eq (Decodes.text.optional relation bound) rfl
    | column label expression =>
      obtain ⟨inner, found, deep, stated⟩ := stated.wrapped rfl shallow
      obtain ⟨members, rfl, bound, label, expression, -⟩ := stated.record (by simp) deep
      have bound := Nat.le_of_lt bound
      rw [SelectItem.of?]
      exact bind_of_eq found <| bind_of_eq rfl <| bind_of_eq (Decodes.text.optional label bound) <|
        bind_of_eq (h.expression.required expression bound) rfl

/-- Expressions are read. -/
theorem Expression.reads_succ (h : NodesRead n) :
    Decodes (n + 1) Expression.tree (Expression.of? (n + 1)) where
  solid node := by cases node <;> rfl
  reads node json stated shallow := by
    cases node with
    | literal value =>
      obtain ⟨inner, found, deep, stated⟩ := stated.wrapped (Literal.reads.solid (n := n) value)
        shallow
      rw [Expression.of?]
      exact bind_of_eq found <| bind_of_eq rfl <|
        bind_of_eq (Literal.reads.reads _ _ stated deep) rfl
    | reference name =>
      obtain ⟨inner, found, deep, stated⟩ := stated.wrapped rfl shallow
      rw [Expression.of?]
      exact bind_of_eq found <| bind_of_eq rfl <|
        bind_of_eq (QualifiedName.reads.reads _ _ stated deep) rfl
    | comparison operator left right =>
      obtain ⟨members, found, bound, operator, left, right, -⟩ := stated.variant (by simp) shallow
      have bound := Nat.le_of_lt bound
      rw [Expression.of?]
      exact bind_of_eq found <| bind_of_eq rfl <| bind_of_eq rfl <|
        bind_of_eq (Decodes.named.required operator bound) <|
        bind_of_eq (h.expression.required left bound) <|
        bind_of_eq (h.expression.required right bound) rfl
    | logical operator left right =>
      obtain ⟨members, found, bound, operator, left, right, -⟩ := stated.variant (by simp) shallow
      have bound := Nat.le_of_lt bound
      rw [Expression.of?]
      exact bind_of_eq found <| bind_of_eq rfl <| bind_of_eq rfl <|
        bind_of_eq (Decodes.named.required operator bound) <|
        bind_of_eq (h.expression.required left bound) <|
        bind_of_eq (h.expression.required right bound) rfl
    | not value =>
      obtain ⟨inner, found, deep, stated⟩ := stated.wrapped (h.expression.solid _) shallow
      rw [Expression.of?]
      exact bind_of_eq found <| bind_of_eq rfl <|
        bind_of_eq (h.expression.reads _ _ stated deep) rfl
    | arithmetic operator left right =>
      obtain ⟨members, found, bound, operator, left, right, -⟩ := stated.variant (by simp) shallow
      have bound := Nat.le_of_lt bound
      rw [Expression.of?]
      exact bind_of_eq found <| bind_of_eq rfl <| bind_of_eq rfl <|
        bind_of_eq (Decodes.named.required operator bound) <|
        bind_of_eq (h.expression.required left bound) <|
        bind_of_eq (h.expression.required right bound) rfl
    | negative value =>
      obtain ⟨inner, found, deep, stated⟩ := stated.wrapped (h.expression.solid _) shallow
      rw [Expression.of?]
      exact bind_of_eq found <| bind_of_eq rfl <|
        bind_of_eq (h.expression.reads _ _ stated deep) rfl
    | cast value columnType =>
      obtain ⟨members, found, bound, value, columnType, -⟩ := stated.variant (by simp) shallow
      have bound := Nat.le_of_lt bound
      rw [Expression.of?]
      exact bind_of_eq found <| bind_of_eq rfl <| bind_of_eq rfl <|
        bind_of_eq (h.expression.required value bound) <|
        bind_of_eq (ColumnType.reads.required columnType bound) rfl
    | list items =>
      rw [Expression.tree, Expression.trees_eq] at stated
      obtain ⟨inner, found, deep, stated⟩ := stated.wrapped rfl shallow
      rw [Expression.of?]
      exact bind_of_eq found <| bind_of_eq rfl <|
        bind_of_eq (h.expression.list.reads _ _ stated deep) rfl
    | inPredicate value list =>
      obtain ⟨members, found, bound, value, list, -⟩ := stated.variant (by simp) shallow
      have bound := Nat.le_of_lt bound
      rw [Expression.of?]
      exact bind_of_eq found <| bind_of_eq rfl <| bind_of_eq rfl <|
        bind_of_eq (h.expression.required value bound) <|
        bind_of_eq (h.expression.required list bound) rfl
    | isNull value =>
      obtain ⟨inner, found, deep, stated⟩ := stated.wrapped (h.expression.solid _) shallow
      rw [Expression.of?]
      exact bind_of_eq found <| bind_of_eq rfl <|
        bind_of_eq (h.expression.reads _ _ stated deep) rfl
    | isNotNull value =>
      obtain ⟨inner, found, deep, stated⟩ := stated.wrapped (h.expression.solid _) shallow
      rw [Expression.of?]
      exact bind_of_eq found <| bind_of_eq rfl <|
        bind_of_eq (h.expression.reads _ _ stated deep) rfl
    | currentTime kind precision =>
      obtain ⟨members, found, bound, kind, precision, -⟩ := stated.variant (by simp) shallow
      have bound := Nat.le_of_lt bound
      rw [Expression.of?]
      exact bind_of_eq found <| bind_of_eq rfl <| bind_of_eq rfl <|
        bind_of_eq (Decodes.named.required kind bound) <|
        bind_of_eq (Decodes.uint32.optional precision bound) rfl
    | extract field value =>
      obtain ⟨members, found, bound, field, value, -⟩ := stated.variant (by simp) shallow
      have bound := Nat.le_of_lt bound
      rw [Expression.of?]
      exact bind_of_eq found <| bind_of_eq rfl <| bind_of_eq rfl <|
        bind_of_eq (Decodes.named.required field bound) <|
        bind_of_eq (h.expression.required value bound) rfl
    | call call =>
      obtain ⟨inner, found, deep, stated⟩ := stated.wrapped (h.call.solid _) shallow
      rw [Expression.of?]
      exact bind_of_eq found <| bind_of_eq rfl <| bind_of_eq (h.call.reads _ _ stated deep) rfl
    | namedArgument name value =>
      obtain ⟨members, found, bound, name, value, -⟩ := stated.variant (by simp) shallow
      have bound := Nat.le_of_lt bound
      rw [Expression.of?]
      exact bind_of_eq found <| bind_of_eq rfl <| bind_of_eq rfl <|
        bind_of_eq (Decodes.text.required name bound) <|
        bind_of_eq (h.expression.required value bound) rfl
    | searchedCase whenClauses otherwise =>
      rw [Expression.tree, WhenClause.trees_eq, Expression.optionTree_eq] at stated
      obtain ⟨members, found, bound, whenClauses, otherwise, -⟩ := stated.variant (by simp) shallow
      have bound := Nat.le_of_lt bound
      rw [Expression.of?]
      exact bind_of_eq found <| bind_of_eq rfl <| bind_of_eq rfl <|
        bind_of_eq (h.clause.list.required whenClauses bound) <|
        bind_of_eq (h.expression.optional otherwise bound) rfl
    | window nested window =>
      obtain ⟨members, found, bound, nested, window, -⟩ := stated.variant (by simp) shallow
      have bound := Nat.le_of_lt bound
      rw [Expression.of?]
      exact bind_of_eq found <| bind_of_eq rfl <| bind_of_eq rfl <|
        bind_of_eq (h.expression.required nested bound) <|
        bind_of_eq (h.window.required window bound) rfl
    | subquery query =>
      obtain ⟨inner, found, deep, stated⟩ := stated.wrapped (h.query.solid _) shallow
      rw [Expression.of?]
      exact bind_of_eq found <| bind_of_eq rfl <| bind_of_eq (h.query.reads _ _ stated deep) rfl
    | constant token =>
      obtain ⟨inner, found, deep, stated⟩ := stated.wrapped rfl shallow
      rw [Expression.of?]
      exact bind_of_eq found <| bind_of_eq rfl <|
        bind_of_eq (Decodes.text.reads _ _ stated deep) rfl
    | extension function =>
      obtain ⟨inner, found, deep, stated⟩ := stated.wrapped (h.extension.solid _) shallow
      rw [Expression.of?]
      exact bind_of_eq found <| bind_of_eq rfl <| bind_of_eq (h.extension.reads _ _ stated deep) rfl

/-- Domain functions are read. -/
theorem Extension.reads_succ (h : NodesRead n) :
    Decodes (n + 1) Extension.tree (Extension.of? (n + 1)) where
  solid node := by cases node <;> rfl
  reads node json stated shallow := by
    cases node with
    | stringLength value =>
      obtain ⟨inner, found, deep, stated⟩ := stated.wrapped (h.expression.solid _) shallow
      rw [Extension.of?]
      exact bind_of_eq found <| bind_of_eq rfl <|
        bind_of_eq (h.expression.reads _ _ stated deep) rfl
    | stringLike value pattern =>
      obtain ⟨members, found, bound, value, pattern, -⟩ := stated.variant (by simp) shallow
      rw [Extension.of?]
      exact bind_of_eq found <| bind_of_eq rfl <| bind_of_eq (h.pair bound value pattern) rfl
    | stringUpper value =>
      obtain ⟨inner, found, deep, stated⟩ := stated.wrapped (h.expression.solid _) shallow
      rw [Extension.of?]
      exact bind_of_eq found <| bind_of_eq rfl <|
        bind_of_eq (h.expression.reads _ _ stated deep) rfl
    | stringLower value =>
      obtain ⟨inner, found, deep, stated⟩ := stated.wrapped (h.expression.solid _) shallow
      rw [Extension.of?]
      exact bind_of_eq found <| bind_of_eq rfl <|
        bind_of_eq (h.expression.reads _ _ stated deep) rfl
    | stringTrim value kind =>
      obtain ⟨members, found, bound, value, kind, -⟩ := stated.variant (by simp) shallow
      have bound := Nat.le_of_lt bound
      rw [Extension.of?]
      exact bind_of_eq found <| bind_of_eq rfl <| bind_of_eq rfl <|
        bind_of_eq (h.expression.required value bound) <|
        bind_of_eq (Decodes.named.required kind bound) rfl
    | stringPos value other =>
      obtain ⟨members, found, bound, value, other, -⟩ := stated.variant (by simp) shallow
      rw [Extension.of?]
      exact bind_of_eq found <| bind_of_eq rfl <| bind_of_eq (h.pair bound value other) rfl
    | stringConcat first second =>
      obtain ⟨members, found, bound, first, second, -⟩ := stated.variant (by simp) shallow
      rw [Extension.of?]
      exact bind_of_eq found <| bind_of_eq rfl <| bind_of_eq (h.pair bound first second) rfl
    | math function value =>
      obtain ⟨members, found, bound, function, value, -⟩ := stated.variant (by simp) shallow
      have bound := Nat.le_of_lt bound
      rw [Extension.of?]
      exact bind_of_eq found <| bind_of_eq rfl <| bind_of_eq rfl <|
        bind_of_eq (Decodes.named.required function bound) <|
        bind_of_eq (h.expression.required value bound) rfl
    | power first second =>
      obtain ⟨members, found, bound, first, second, -⟩ := stated.variant (by simp) shallow
      rw [Extension.of?]
      exact bind_of_eq found <| bind_of_eq rfl <| bind_of_eq (h.pair bound first second) rfl
    | remainder first second =>
      obtain ⟨members, found, bound, first, second, -⟩ := stated.variant (by simp) shallow
      rw [Extension.of?]
      exact bind_of_eq found <| bind_of_eq rfl <| bind_of_eq (h.pair bound first second) rfl
    | round value scale =>
      rw [Extension.tree, Expression.optionTree_eq] at stated
      obtain ⟨members, found, bound, value, scale, -⟩ := stated.variant (by simp) shallow
      have bound := Nat.le_of_lt bound
      rw [Extension.of?]
      exact bind_of_eq found <| bind_of_eq rfl <| bind_of_eq rfl <|
        bind_of_eq (h.expression.required value bound) <|
        bind_of_eq (h.expression.optional scale bound) rfl
    | arcTan2 first second =>
      obtain ⟨members, found, bound, first, second, -⟩ := stated.variant (by simp) shallow
      rw [Extension.of?]
      exact bind_of_eq found <| bind_of_eq rfl <| bind_of_eq (h.pair bound first second) rfl
    | aggregate function value =>
      obtain ⟨members, found, bound, function, value, -⟩ := stated.variant (by simp) shallow
      have bound := Nat.le_of_lt bound
      rw [Extension.of?]
      exact bind_of_eq found <| bind_of_eq rfl <| bind_of_eq rfl <|
        bind_of_eq (Decodes.named.required function bound) <|
        bind_of_eq (h.expression.required value bound) rfl
    | joinStrings value separator =>
      obtain ⟨members, found, bound, value, separator, -⟩ := stated.variant (by simp) shallow
      rw [Extension.of?]
      exact bind_of_eq found <| bind_of_eq rfl <| bind_of_eq (h.pair bound value separator) rfl
    | dateTrunc part value =>
      obtain ⟨members, found, bound, part, value, -⟩ := stated.variant (by simp) shallow
      have bound := Nat.le_of_lt bound
      rw [Extension.of?]
      exact bind_of_eq found <| bind_of_eq rfl <| bind_of_eq rfl <|
        bind_of_eq (Decodes.named.required part bound) <|
        bind_of_eq (h.expression.required value bound) rfl
    | datePart field value =>
      obtain ⟨members, found, bound, field, value, -⟩ := stated.variant (by simp) shallow
      have bound := Nat.le_of_lt bound
      rw [Extension.of?]
      exact bind_of_eq found <| bind_of_eq rfl <| bind_of_eq rfl <|
        bind_of_eq (Decodes.named.required field bound) <|
        bind_of_eq (h.expression.required value bound) rfl
    | dateAdjust value interval =>
      obtain ⟨members, found, bound, value, interval, -⟩ := stated.variant (by simp) shallow
      have bound := Nat.le_of_lt bound
      rw [Extension.of?]
      exact bind_of_eq found <| bind_of_eq rfl <| bind_of_eq rfl <|
        bind_of_eq (h.expression.required value bound) <|
        bind_of_eq (IntervalLiteral.reads.required interval bound) rfl

end Steps

/-! ### All nodes -/

/-- Nodes of all kinds are read from values of any depth. -/
theorem nodesRead (n : Nat) : NodesRead n := by
  induction n with
  | zero => exact {
      relation := .zero fun node ↦ by cases node <;> rfl
      criteria := .zero fun node ↦ by cases node <;> rfl
      query := .zero fun node ↦ by cases node; rfl
      specification := .zero fun node ↦ by cases node; rfl
      select := .zero fun node ↦ by cases node; rfl
      item := .zero fun node ↦ by cases node <;> rfl
      sortItem := .zero fun node ↦ by cases node; rfl
      expression := .zero fun node ↦ by cases node <;> rfl
      call := .zero fun node ↦ by cases node; rfl
      clause := .zero fun node ↦ by cases node; rfl
      window := .zero fun node ↦ by cases node; rfl
      frame := .zero fun node ↦ by cases node; rfl
      bound := .zero fun node ↦ by cases node; rfl
      extension := .zero fun node ↦ by cases node <;> rfl
      join := nofun
      union := nofun
      pair := nofun }
  | succ n ih => exact {
      relation := Relation.reads_succ ih
      criteria := JoinCriteria.reads_succ ih
      query := Query.reads_succ ih
      specification := QuerySpecification.reads_succ ih
      select := Select.reads_succ ih
      item := SelectItem.reads_succ ih
      sortItem := SortItem.reads_succ ih
      expression := Expression.reads_succ ih
      call := FunctionCall.reads_succ ih
      clause := WhenClause.reads_succ ih
      window := Window.reads_succ ih
      frame := WindowFrame.reads_succ ih
      bound := FrameBound.reads_succ ih
      extension := Extension.reads_succ ih
      join := Relation.joinOf?_succ ih
      union := Relation.unionOf?_succ ih
      pair := Extension.pairOf?_succ ih }

/-- Nodes are read back from all JSON values that state them, their JSON form among these, so that
different nodes have different forms. Nodes with floating point numbers are left out of account. -/
structure Faithful {α : Type} (tree : α → Tree) (read : Json → Option α) : Prop where
  reads (node : α) (json : Json) : (tree node).StatedBy json → read json = some node
  states (writeDouble : Double → Json) (node : α) :
    (tree node).DoubleFree → (tree node).StatedBy ((tree node).toJson writeDouble)
  reads_toJson (writeDouble : Double → Json) (node : α) :
    (tree node).DoubleFree → read ((tree node).toJson writeDouble) = some node
  injective (writeDouble : Double → Json) (left right : α) :
    (tree left).DoubleFree → (tree right).DoubleFree →
      (tree left).toJson writeDouble = (tree right).toJson writeDouble → left = right

/-- A decoder that reads all values which state a node is faithful. -/
theorem Faithful.of_reads {α : Type} {tree : α → Tree} {read : Json → Option α}
    (reads : ∀ node json, (tree node).StatedBy json → read json = some node) :
    Faithful tree read where
  reads := reads
  states writeDouble node free := Tree.statedBy_toJson writeDouble _ free
  reads_toJson writeDouble node free := reads node _ (Tree.statedBy_toJson writeDouble _ free)
  injective writeDouble left right hl hr same := by
    have back := reads left _ (Tree.statedBy_toJson writeDouble _ hl)
    rw [same, reads right _ (Tree.statedBy_toJson writeDouble _ hr)] at back
    exact (Option.some.inj back).symm

/-- A decoder with a bound on the nesting is faithful at the depth of the value. -/
theorem Faithful.of_bounded {α : Type} {tree : α → Tree} {read : Nat → Json → Option α}
    (reads : ∀ n, Decodes n tree (read n)) : Faithful tree (readNode read) :=
  .of_reads fun node json stated ↦ (reads json.depth).reads node json stated (Nat.le_refl _)

/-- All nodes of the metamodel are read back from their JSON form, and from any value that states
them: with other members in its objects, with members in another order, and without those for absent
options. Different nodes have different forms. -/
theorem nodes_faithful :
    Faithful QuerySpecification.tree (readNode QuerySpecification.of?) ∧
    Faithful Query.tree (readNode Query.of?) ∧
    Faithful Relation.tree (readNode Relation.of?) ∧
    Faithful JoinCriteria.tree (readNode JoinCriteria.of?) ∧
    Faithful Select.tree (readNode Select.of?) ∧
    Faithful SelectItem.tree (readNode SelectItem.of?) ∧
    Faithful SortItem.tree (readNode SortItem.of?) ∧
    Faithful Expression.tree (readNode Expression.of?) ∧
    Faithful FunctionCall.tree (readNode FunctionCall.of?) ∧
    Faithful WhenClause.tree (readNode WhenClause.of?) ∧
    Faithful Window.tree (readNode Window.of?) ∧
    Faithful WindowFrame.tree (readNode WindowFrame.of?) ∧
    Faithful FrameBound.tree (readNode FrameBound.of?) ∧
    Faithful Extension.tree (readNode Extension.of?) ∧
    Faithful Literal.tree Literal.ofJson? ∧
    Faithful QualifiedName.tree QualifiedName.ofJson? ∧
    Faithful IntervalLiteral.tree IntervalLiteral.ofJson? ∧
    Faithful ColumnType.tree ColumnType.ofJson? := by
  refine ⟨.of_bounded fun n ↦ (nodesRead n).specification, .of_bounded fun n ↦ (nodesRead n).query,
    .of_bounded fun n ↦ (nodesRead n).relation, .of_bounded fun n ↦ (nodesRead n).criteria,
    .of_bounded fun n ↦ (nodesRead n).select, .of_bounded fun n ↦ (nodesRead n).item,
    .of_bounded fun n ↦ (nodesRead n).sortItem, .of_bounded fun n ↦ (nodesRead n).expression,
    .of_bounded fun n ↦ (nodesRead n).call, .of_bounded fun n ↦ (nodesRead n).clause,
    .of_bounded fun n ↦ (nodesRead n).window, .of_bounded fun n ↦ (nodesRead n).frame,
    .of_bounded fun n ↦ (nodesRead n).bound, .of_bounded fun n ↦ (nodesRead n).extension,
    .of_reads fun node json stated ↦ Literal.reads.reads node json stated (Nat.le_refl _),
    .of_reads fun node json stated ↦ QualifiedName.reads.reads node json stated (Nat.le_refl _),
    .of_reads fun node json stated ↦ IntervalLiteral.reads.reads node json stated (Nat.le_refl _),
    .of_reads fun node json stated ↦ ColumnType.reads.reads node json stated (Nat.le_refl _)⟩

/-- A query block is read back from a value with its members in another order, with one that is no
field and without those of the absent options. -/
theorem nodes_faithful_sparse :
    readNode QuerySpecification.of? (.object [("from", .array []), ("comment", .string "none"),
      ("select", .object [("select_items", .array []), ("distinct", .boolean true)]),
      ("group_by", .array []), ("order_by", .array [])]) =
      some ⟨⟨true, []⟩, [], none, [], none, [], none, none⟩ := by
  have select : (Select.tree ⟨true, []⟩).StatedBy
      (.object [("select_items", .array []), ("distinct", .boolean true)]) :=
    ⟨_, [("distinct", .boolean true), ("select_items", .array [])], rfl, .swap _ _ _,
      .inl ⟨_, _, rfl, rfl, .inl ⟨_, _, rfl, ⟨[], rfl, rfl⟩, rfl⟩⟩⟩
  apply nodes_faithful.1.reads
  refine ⟨_, [("select", .object [("select_items", .array []), ("distinct", .boolean true)]),
    ("from", .array []), ("group_by", .array []), ("order_by", .array [])], rfl, .swap _ _ _, ?_⟩
  exact .inl ⟨_, _, rfl, select, .inl ⟨_, _, rfl, ⟨[], rfl, rfl⟩, .inr ⟨rfl,
    .inl ⟨_, _, rfl, ⟨[], rfl, rfl⟩, .inr ⟨rfl, .inl ⟨_, _, rfl, ⟨[], rfl, rfl⟩,
      .inr ⟨rfl, .inr ⟨rfl, rfl⟩⟩⟩⟩⟩⟩⟩⟩

end FrameQuery.Sql
