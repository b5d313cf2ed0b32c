import FrameQuery.Proofs.Sql.Labels
import FrameQuery.Proofs.Text.Unquoting

/-!
# Names in queries

A relabeling writes the names in a query differently: labels, names of relations, columns of
sub-queries and the parts of references, at every depth. Everything else stays as it is, names of
tables and functions included. What a query selects under a name, and what wrapping makes of it, is
found by comparing labels only; so it is not affected by a relabeling that keeps different quoted
names apart.
-/

namespace FrameQuery.Sql

/-- A reference with the parts of its name written differently. -/
def QualifiedName.relabel (f : String → String) (name : QualifiedName) : QualifiedName :=
  ⟨name.parts.map f⟩

mutual

/-- A relation with the names in it written differently. -/
def Relation.relabel (f : String → String) : Relation → Relation
  | .table name => .table name
  | .aliased relation correlation columns =>
    .aliased (relation.relabel f) (f correlation) (columns.map f)
  | .subquery query => .subquery (query.relabel f)
  | .join kind left right criteria =>
    .join kind (left.relabel f) (right.relabel f) (JoinCriteria.optionRelabel f criteria)
  | .function call => .function (call.relabel f)
  | .union left right distinct => .union (left.relabel f) (right.relabel f) distinct
  | .specification query => .specification (query.relabel f)

/-- The criteria of a join with the names in them written differently. -/
def JoinCriteria.relabel (f : String → String) : JoinCriteria → JoinCriteria
  | .condition holds => .condition (holds.relabel f)
  | .columns columns => .columns (columns.map f)

/-- A query with the names in it written differently. -/
def Query.relabel (f : String → String) : Query → Query
  | ⟨body, orderBy, limit, offset⟩ =>
    ⟨body.relabel f, SortItem.relabelAll f orderBy, Expression.optionRelabel f limit,
      Expression.optionRelabel f offset⟩

/-- A query block with the names in it written differently. -/
def QuerySpecification.relabel (f : String → String) : QuerySpecification → QuerySpecification
  | ⟨⟨distinct, items⟩, sources, filter, groupBy, having, orderBy, limit, offset⟩ =>
    ⟨⟨distinct, SelectItem.relabelAll f items⟩, Relation.relabelAll f sources,
      Expression.optionRelabel f filter, Expression.relabelAll f groupBy,
      Expression.optionRelabel f having, SortItem.relabelAll f orderBy,
      Expression.optionRelabel f limit, Expression.optionRelabel f offset⟩

/-- An entry of a select list with the names in it written differently. -/
def SelectItem.relabel (f : String → String) : SelectItem → SelectItem
  | .allColumns relation => .allColumns (relation.map f)
  | .column label expression => .column (label.map f) (expression.relabel f)

/-- A sort key with the names in it written differently. -/
def SortItem.relabel (f : String → String) : SortItem → SortItem
  | ⟨key, ordering, nulls⟩ => ⟨key.relabel f, ordering, nulls⟩

/-- An expression with the names in it written differently. -/
def Expression.relabel (f : String → String) : Expression → Expression
  | .literal value => .literal value
  | .reference name => .reference (name.relabel f)
  | .comparison operator left right => .comparison operator (left.relabel f) (right.relabel f)
  | .logical operator left right => .logical operator (left.relabel f) (right.relabel f)
  | .not value => .not (value.relabel f)
  | .arithmetic operator left right => .arithmetic operator (left.relabel f) (right.relabel f)
  | .negative value => .negative (value.relabel f)
  | .cast value columnType => .cast (value.relabel f) columnType
  | .list items => .list (Expression.relabelAll f items)
  | .inPredicate value list => .inPredicate (value.relabel f) (list.relabel f)
  | .isNull value => .isNull (value.relabel f)
  | .isNotNull value => .isNotNull (value.relabel f)
  | .currentTime kind precision => .currentTime kind precision
  | .extract field value => .extract field (value.relabel f)
  | .call call => .call (call.relabel f)
  | .namedArgument name value => .namedArgument name (value.relabel f)
  | .searchedCase clauses otherwise =>
    .searchedCase (WhenClause.relabelAll f clauses) (Expression.optionRelabel f otherwise)
  | .window nested window => .window (nested.relabel f) (window.relabel f)
  | .subquery query => .subquery (query.relabel f)
  | .constant token => .constant token
  | .extension function => .extension (function.relabel f)

/-- A function call with the names in its arguments written differently. -/
def FunctionCall.relabel (f : String → String) : FunctionCall → FunctionCall
  | ⟨name, distinct, arguments, filter, window⟩ =>
    ⟨name, distinct, Expression.relabelAll f arguments, Expression.optionRelabel f filter,
      Window.optionRelabel f window⟩

/-- A branch of a case distinction with the names in it written differently. -/
def WhenClause.relabel (f : String → String) : WhenClause → WhenClause
  | ⟨operand, result⟩ => ⟨operand.relabel f, result.relabel f⟩

/-- A window with the names in it written differently. -/
def Window.relabel (f : String → String) : Window → Window
  | ⟨reference, partitions, orderBy, frame⟩ =>
    ⟨reference, Expression.relabelAll f partitions, SortItem.relabelAll f orderBy,
      WindowFrame.optionRelabel f frame⟩

/-- A window frame with the names in it written differently. -/
def WindowFrame.relabel (f : String → String) : WindowFrame → WindowFrame
  | ⟨mode, start, stop⟩ => ⟨mode, start.relabel f, FrameBound.optionRelabel f stop⟩

/-- A bound of a window frame with the names in it written differently. -/
def FrameBound.relabel (f : String → String) : FrameBound → FrameBound
  | ⟨kind, value, unit⟩ => ⟨kind, Expression.optionRelabel f value, unit⟩

/-- A domain function with the names in it written differently. -/
def Extension.relabel (f : String → String) : Extension → Extension
  | .stringLength value => .stringLength (value.relabel f)
  | .stringLike value pattern => .stringLike (value.relabel f) (pattern.relabel f)
  | .stringUpper value => .stringUpper (value.relabel f)
  | .stringLower value => .stringLower (value.relabel f)
  | .stringTrim value kind => .stringTrim (value.relabel f) kind
  | .stringPos value other => .stringPos (value.relabel f) (other.relabel f)
  | .stringConcat first second => .stringConcat (first.relabel f) (second.relabel f)
  | .math function value => .math function (value.relabel f)
  | .power first second => .power (first.relabel f) (second.relabel f)
  | .remainder first second => .remainder (first.relabel f) (second.relabel f)
  | .round value scale => .round (value.relabel f) (Expression.optionRelabel f scale)
  | .arcTan2 first second => .arcTan2 (first.relabel f) (second.relabel f)
  | .aggregate function value => .aggregate function (value.relabel f)
  | .joinStrings value separator => .joinStrings (value.relabel f) (separator.relabel f)
  | .dateTrunc part value => .dateTrunc part (value.relabel f)
  | .datePart field value => .datePart field (value.relabel f)
  | .dateAdjust value interval => .dateAdjust (value.relabel f) interval

/-- Relations with the names in them written differently. -/
def Relation.relabelAll (f : String → String) : List Relation → List Relation
  | [] => []
  | relation :: rest => relation.relabel f :: Relation.relabelAll f rest

/-- The entries of a select list with the names in them written differently. -/
def SelectItem.relabelAll (f : String → String) : List SelectItem → List SelectItem
  | [] => []
  | item :: rest => item.relabel f :: SelectItem.relabelAll f rest

/-- Sort keys with the names in them written differently. -/
def SortItem.relabelAll (f : String → String) : List SortItem → List SortItem
  | [] => []
  | item :: rest => item.relabel f :: SortItem.relabelAll f rest

/-- Expressions with the names in them written differently. -/
def Expression.relabelAll (f : String → String) : List Expression → List Expression
  | [] => []
  | expression :: rest => expression.relabel f :: Expression.relabelAll f rest

/-- Branches with the names in them written differently. -/
def WhenClause.relabelAll (f : String → String) : List WhenClause → List WhenClause
  | [] => []
  | clause :: rest => clause.relabel f :: WhenClause.relabelAll f rest

/-- An optional expression with the names in it written differently. -/
def Expression.optionRelabel (f : String → String) : Option Expression → Option Expression
  | none => none
  | some expression => some (expression.relabel f)

/-- Optional criteria with the names in them written differently. -/
def JoinCriteria.optionRelabel (f : String → String) : Option JoinCriteria → Option JoinCriteria
  | none => none
  | some criteria => some (criteria.relabel f)

/-- An optional window with the names in it written differently. -/
def Window.optionRelabel (f : String → String) : Option Window → Option Window
  | none => none
  | some window => some (window.relabel f)

/-- An optional window frame with the names in it written differently. -/
def WindowFrame.optionRelabel (f : String → String) : Option WindowFrame → Option WindowFrame
  | none => none
  | some frame => some (frame.relabel f)

/-- An optional bound with the names in it written differently. -/
def FrameBound.optionRelabel (f : String → String) : Option FrameBound → Option FrameBound
  | none => none
  | some bound => some (bound.relabel f)

end

/-! ### One relabeling after the other -/

variable {f g : String → String}

mutual

/-- Relabeling twice is relabeling once. -/
theorem Relation.relabel_relabel : ∀ relation : Relation,
    (relation.relabel f).relabel g = relation.relabel (g ∘ f)
  | .table _ => rfl
  | .aliased relation correlation columns => by
    simp only [Relation.relabel, Relation.relabel_relabel relation, List.map_map, Function.comp]
  | .subquery query => by
    simp only [Relation.relabel, Query.relabel_relabel query]
  | .join kind left right criteria => by
    simp only [Relation.relabel, Relation.relabel_relabel left, Relation.relabel_relabel right,
      JoinCriteria.optionRelabel_optionRelabel criteria]
  | .function call => by
    simp only [Relation.relabel, FunctionCall.relabel_relabel call]
  | .union left right distinct => by
    simp only [Relation.relabel, Relation.relabel_relabel left, Relation.relabel_relabel right]
  | .specification query => by
    simp only [Relation.relabel, QuerySpecification.relabel_relabel query]

/-- Relabeling criteria twice is relabeling them once. -/
theorem JoinCriteria.relabel_relabel : ∀ criteria : JoinCriteria,
    (criteria.relabel f).relabel g = criteria.relabel (g ∘ f)
  | .condition holds => by
    simp only [JoinCriteria.relabel, Expression.relabel_relabel holds]
  | .columns columns => by
    simp only [JoinCriteria.relabel, List.map_map]

/-- Relabeling a query twice is relabeling it once. -/
theorem Query.relabel_relabel : ∀ query : Query, (query.relabel f).relabel g = query.relabel (g ∘ f)
  | ⟨body, orderBy, limit, offset⟩ => by
    simp only [Query.relabel, Relation.relabel_relabel body, SortItem.relabelAll_relabelAll orderBy,
      Expression.optionRelabel_optionRelabel limit, Expression.optionRelabel_optionRelabel offset]

/-- Relabeling a query block twice is relabeling it once. -/
theorem QuerySpecification.relabel_relabel : ∀ query : QuerySpecification,
    (query.relabel f).relabel g = query.relabel (g ∘ f)
  | ⟨⟨_, items⟩, sources, filter, groupBy, having, orderBy, limit, offset⟩ => by
    simp only [QuerySpecification.relabel, SelectItem.relabelAll_relabelAll items,
      Relation.relabelAll_relabelAll sources, Expression.optionRelabel_optionRelabel filter,
      Expression.relabelAll_relabelAll groupBy, Expression.optionRelabel_optionRelabel having,
      SortItem.relabelAll_relabelAll orderBy, Expression.optionRelabel_optionRelabel limit,
      Expression.optionRelabel_optionRelabel offset]

/-- Relabeling an entry of a select list twice is relabeling it once. -/
theorem SelectItem.relabel_relabel : ∀ item : SelectItem,
    (item.relabel f).relabel g = item.relabel (g ∘ f)
  | .allColumns relation => by
    simp only [SelectItem.relabel, Option.map_map]
  | .column label expression => by
    simp only [SelectItem.relabel, Option.map_map, Expression.relabel_relabel expression]

/-- Relabeling a sort key twice is relabeling it once. -/
theorem SortItem.relabel_relabel : ∀ item : SortItem,
    (item.relabel f).relabel g = item.relabel (g ∘ f)
  | ⟨key, _, _⟩ => by
    simp only [SortItem.relabel, Expression.relabel_relabel key]

/-- Relabeling an expression twice is relabeling it once. -/
theorem Expression.relabel_relabel : ∀ x : Expression, (x.relabel f).relabel g = x.relabel (g ∘ f)
  | .literal _ | .currentTime _ _ | .constant _ => rfl
  | .reference name => by
    simp only [Expression.relabel, QualifiedName.relabel, List.map_map]
  | .comparison _ left right | .logical _ left right | .arithmetic _ left right
  | .inPredicate left right => by
    simp only [Expression.relabel, Expression.relabel_relabel left,
      Expression.relabel_relabel right]
  | .not value | .negative value | .cast value _ | .isNull value | .isNotNull value
  | .extract _ value | .namedArgument _ value => by
    simp only [Expression.relabel, Expression.relabel_relabel value]
  | .list items => by
    simp only [Expression.relabel, Expression.relabelAll_relabelAll items]
  | .call call => by
    simp only [Expression.relabel, FunctionCall.relabel_relabel call]
  | .searchedCase clauses otherwise => by
    simp only [Expression.relabel, WhenClause.relabelAll_relabelAll clauses,
      Expression.optionRelabel_optionRelabel otherwise]
  | .window nested window => by
    simp only [Expression.relabel, Expression.relabel_relabel nested, Window.relabel_relabel window]
  | .subquery query => by
    simp only [Expression.relabel, Query.relabel_relabel query]
  | .extension function => by
    simp only [Expression.relabel, Extension.relabel_relabel function]

/-- Relabeling a function call twice is relabeling it once. -/
theorem FunctionCall.relabel_relabel : ∀ call : FunctionCall,
    (call.relabel f).relabel g = call.relabel (g ∘ f)
  | ⟨_, _, arguments, filter, window⟩ => by
    simp only [FunctionCall.relabel, Expression.relabelAll_relabelAll arguments,
      Expression.optionRelabel_optionRelabel filter, Window.optionRelabel_optionRelabel window]

/-- Relabeling a branch twice is relabeling it once. -/
theorem WhenClause.relabel_relabel : ∀ clause : WhenClause,
    (clause.relabel f).relabel g = clause.relabel (g ∘ f)
  | ⟨operand, result⟩ => by
    simp only [WhenClause.relabel, Expression.relabel_relabel operand,
      Expression.relabel_relabel result]

/-- Relabeling a window twice is relabeling it once. -/
theorem Window.relabel_relabel : ∀ window : Window,
    (window.relabel f).relabel g = window.relabel (g ∘ f)
  | ⟨_, partitions, orderBy, frame⟩ => by
    simp only [Window.relabel, Expression.relabelAll_relabelAll partitions,
      SortItem.relabelAll_relabelAll orderBy, WindowFrame.optionRelabel_optionRelabel frame]

/-- Relabeling a window frame twice is relabeling it once. -/
theorem WindowFrame.relabel_relabel : ∀ frame : WindowFrame,
    (frame.relabel f).relabel g = frame.relabel (g ∘ f)
  | ⟨_, start, stop⟩ => by
    simp only [WindowFrame.relabel, FrameBound.relabel_relabel start,
      FrameBound.optionRelabel_optionRelabel stop]

/-- Relabeling a bound twice is relabeling it once. -/
theorem FrameBound.relabel_relabel : ∀ bound : FrameBound,
    (bound.relabel f).relabel g = bound.relabel (g ∘ f)
  | ⟨_, value, _⟩ => by
    simp only [FrameBound.relabel, Expression.optionRelabel_optionRelabel value]

/-- Relabeling a domain function twice is relabeling it once. -/
theorem Extension.relabel_relabel : ∀ function : Extension,
    (function.relabel f).relabel g = function.relabel (g ∘ f)
  | .stringLength value | .stringUpper value | .stringLower value | .stringTrim value _
  | .math _ value | .dateTrunc _ value | .datePart _ value | .dateAdjust value _
  | .aggregate _ value => by
    simp only [Extension.relabel, Expression.relabel_relabel value]
  | .stringLike first second | .stringPos first second | .stringConcat first second
  | .power first second | .remainder first second | .arcTan2 first second
  | .joinStrings first second => by
    simp only [Extension.relabel, Expression.relabel_relabel first,
      Expression.relabel_relabel second]
  | .round value scale => by
    simp only [Extension.relabel, Expression.relabel_relabel value,
      Expression.optionRelabel_optionRelabel scale]

/-- Relabeling relations twice is relabeling them once. -/
theorem Relation.relabelAll_relabelAll : ∀ xs : List Relation,
    Relation.relabelAll g (Relation.relabelAll f xs) = Relation.relabelAll (g ∘ f) xs
  | [] => rfl
  | relation :: rest => by
    simp only [Relation.relabelAll, Relation.relabel_relabel relation,
      Relation.relabelAll_relabelAll rest]

/-- Relabeling the entries of a select list twice is relabeling them once. -/
theorem SelectItem.relabelAll_relabelAll : ∀ xs : List SelectItem,
    SelectItem.relabelAll g (SelectItem.relabelAll f xs) = SelectItem.relabelAll (g ∘ f) xs
  | [] => rfl
  | item :: rest => by
    simp only [SelectItem.relabelAll, SelectItem.relabel_relabel item,
      SelectItem.relabelAll_relabelAll rest]

/-- Relabeling sort keys twice is relabeling them once. -/
theorem SortItem.relabelAll_relabelAll : ∀ xs : List SortItem,
    SortItem.relabelAll g (SortItem.relabelAll f xs) = SortItem.relabelAll (g ∘ f) xs
  | [] => rfl
  | item :: rest => by
    simp only [SortItem.relabelAll, SortItem.relabel_relabel item,
      SortItem.relabelAll_relabelAll rest]

/-- Relabeling expressions twice is relabeling them once. -/
theorem Expression.relabelAll_relabelAll : ∀ xs : List Expression,
    Expression.relabelAll g (Expression.relabelAll f xs) = Expression.relabelAll (g ∘ f) xs
  | [] => rfl
  | expression :: rest => by
    simp only [Expression.relabelAll, Expression.relabel_relabel expression,
      Expression.relabelAll_relabelAll rest]

/-- Relabeling branches twice is relabeling them once. -/
theorem WhenClause.relabelAll_relabelAll : ∀ xs : List WhenClause,
    WhenClause.relabelAll g (WhenClause.relabelAll f xs) = WhenClause.relabelAll (g ∘ f) xs
  | [] => rfl
  | clause :: rest => by
    simp only [WhenClause.relabelAll, WhenClause.relabel_relabel clause,
      WhenClause.relabelAll_relabelAll rest]

/-- Relabeling an optional expression twice is relabeling it once. -/
theorem Expression.optionRelabel_optionRelabel : ∀ part : Option Expression,
    Expression.optionRelabel g (Expression.optionRelabel f part) = Expression.optionRelabel (g ∘ f) part
  | none => rfl
  | some expression => by
    simp only [Expression.optionRelabel, Expression.relabel_relabel expression]

/-- Relabeling optional criteria twice is relabeling them once. -/
theorem JoinCriteria.optionRelabel_optionRelabel : ∀ part : Option JoinCriteria,
    JoinCriteria.optionRelabel g (JoinCriteria.optionRelabel f part) = JoinCriteria.optionRelabel (g ∘ f) part
  | none => rfl
  | some criteria => by
    simp only [JoinCriteria.optionRelabel, JoinCriteria.relabel_relabel criteria]

/-- Relabeling an optional window twice is relabeling it once. -/
theorem Window.optionRelabel_optionRelabel : ∀ part : Option Window,
    Window.optionRelabel g (Window.optionRelabel f part) = Window.optionRelabel (g ∘ f) part
  | none => rfl
  | some window => by simp only [Window.optionRelabel, Window.relabel_relabel window]

/-- Relabeling an optional window frame twice is relabeling it once. -/
theorem WindowFrame.optionRelabel_optionRelabel : ∀ part : Option WindowFrame,
    WindowFrame.optionRelabel g (WindowFrame.optionRelabel f part) = WindowFrame.optionRelabel (g ∘ f) part
  | none => rfl
  | some frame => by simp only [WindowFrame.optionRelabel, WindowFrame.relabel_relabel frame]

/-- Relabeling an optional bound twice is relabeling it once. -/
theorem FrameBound.optionRelabel_optionRelabel : ∀ part : Option FrameBound,
    FrameBound.optionRelabel g (FrameBound.optionRelabel f part) = FrameBound.optionRelabel (g ∘ f) part
  | none => rfl
  | some bound => by simp only [FrameBound.optionRelabel, FrameBound.relabel_relabel bound]

end

/-! ### Lists, options and query blocks -/

/-- Relations are relabeled one by one. -/
theorem Relation.relabelAll_eq_map (relations : List Relation) :
    Relation.relabelAll f relations = relations.map (·.relabel f) := by
  induction relations with
  | nil => rfl
  | cons relation rest ih => rw [Relation.relabelAll, ih, List.map_cons]

/-- Entries of a select list are relabeled one by one. -/
theorem SelectItem.relabelAll_eq_map (items : List SelectItem) :
    SelectItem.relabelAll f items = items.map (·.relabel f) := by
  induction items with
  | nil => rfl
  | cons item rest ih => rw [SelectItem.relabelAll, ih, List.map_cons]

/-- Sort keys are relabeled one by one. -/
theorem SortItem.relabelAll_eq_map (items : List SortItem) :
    SortItem.relabelAll f items = items.map (·.relabel f) := by
  induction items with
  | nil => rfl
  | cons item rest ih => rw [SortItem.relabelAll, ih, List.map_cons]

/-- Expressions are relabeled one by one. -/
theorem Expression.relabelAll_eq_map (expressions : List Expression) :
    Expression.relabelAll f expressions = expressions.map (·.relabel f) := by
  induction expressions with
  | nil => rfl
  | cons expression rest ih => rw [Expression.relabelAll, ih, List.map_cons]

/-- An optional expression is relabeled if it is there. -/
theorem Expression.optionRelabel_eq_map (expression : Option Expression) :
    Expression.optionRelabel f expression = expression.map (·.relabel f) := by
  cases expression <;> rfl

/-- A query block is relabeled clause by clause. -/
theorem QuerySpecification.relabel_eq (query : QuerySpecification) :
    query.relabel f =
      { select := ⟨query.select.distinct, query.items.map (·.relabel f)⟩
        sources := query.sources.map (·.relabel f)
        filter := query.filter.map (·.relabel f)
        groupBy := query.groupBy.map (·.relabel f)
        having := query.having.map (·.relabel f)
        orderBy := query.orderBy.map (·.relabel f)
        limit := query.limit.map (·.relabel f)
        offset := query.offset.map (·.relabel f) } := by
  obtain ⟨⟨distinct, items⟩, sources, filter, groupBy, having, orderBy, limit, offset⟩ := query
  simp only [relabel, QuerySpecification.items, SelectItem.relabelAll_eq_map,
    Relation.relabelAll_eq_map, SortItem.relabelAll_eq_map, Expression.relabelAll_eq_map,
    Expression.optionRelabel_eq_map]

/-- A query block of a select list and sources only is relabeled in both. -/
theorem QuerySpecification.relabel_plain (items : List SelectItem) (sources : List Relation) :
    (plain items sources).relabel f =
      plain (items.map (·.relabel f)) (sources.map (·.relabel f)) := by
  rw [relabel_eq]
  rfl

/-! ### Quoted names -/

/-- The name that a quoted identifier stands for; other texts stand for themselves. -/
def Dialect.unquoted (d : Dialect) (token : String) : String :=
  match Quoted.readDoubled d.quote token.toList with
  | some (name, []) => String.ofList name
  | _ => token

/-- A quoted name stands for the name. -/
theorem Dialect.unquoted_quoted (d : Dialect) (name : String) : d.unquoted (d.quoted name) = name := by
  have read : Quoted.readDoubled d.quote (d.quoted name).toList = some (name.toList, []) := by
    rw [← List.append_nil (d.quoted name).toList]
    exact Quoted.readDoubled_append_iff.mpr nofun
  rw [unquoted, read]
  exact String.ofList_toList

/-- A relabeling turns the quoted names of one dialect into those of another. -/
def Respells (d e : Dialect) (f : String → String) : Prop :=
  ∀ name, f (d.quoted name) = e.quoted name

variable {d e : Dialect}

/-- Any dialect's quoted names can be respelled as those of another. -/
theorem respells_unquoted (d e : Dialect) : Respells d e (e.quoted ∘ d.unquoted) :=
  fun name ↦ congrArg e.quoted (d.unquoted_quoted name)

namespace Respells

variable (spell : Respells d e f)
include spell

/-- Respelled names are those of the other dialect. -/
theorem map_quoted (names : List String) : (names.map d.quoted).map f = names.map e.quoted := by
  rw [List.map_map]
  exact List.map_congr_left fun name _ ↦ spell name

/-- Quoted names that are respelled are the same exactly if they were before. -/
theorem quoted_eq_iff {name other : String} :
    f (d.quoted name) = e.quoted other ↔ d.quoted name = d.quoted other := by
  rw [spell, Dialect.quoted_inj, Dialect.quoted_inj]

/-- A quoted name is one of several labels exactly if it was before they were respelled. -/
theorem mem_map_iff {name : String} {names : List String} :
    e.quoted name ∈ (names.map d.quoted).map f ↔ d.quoted name ∈ names.map d.quoted := by
  rw [spell.map_quoted, List.mem_map_of_injective Dialect.quoted_injective,
    List.mem_map_of_injective Dialect.quoted_injective]

/-- The quoted names among several labels are respelled. -/
theorem filter_contains (retained names : List String) :
    ((retained.map d.quoted).filter (names.map d.quoted).contains).map f =
      (retained.map e.quoted).filter ((names.map d.quoted).map f).contains := by
  rw [List.filter_map, spell.map_quoted, List.filter_map]
  refine congrArg _ (List.filter_congr fun name _ ↦ ?_)
  rw [Bool.eq_iff_iff, Function.comp, Function.comp, List.contains_iff_mem, List.contains_iff_mem]
  exact spell.mem_map_iff.symm

end Respells

/-! ### Labels of select lists -/

namespace SelectItem

/-- The label of an entry is relabeled. -/
theorem label?_relabel (item : SelectItem) : (item.relabel f).label? = item.label?.map f := by
  cases item <;> rfl

/-- An entry labelled with a quoted name is found under the respelled name. -/
theorem labelled?_relabel (spell : Respells d e f) {item : SelectItem} {own : String}
    (label : item.label? = some (d.quoted own)) (name : String) :
    (item.relabel f).labelled? (e.quoted name) =
      (item.labelled? (d.quoted name)).map (·.relabel f) := by
  obtain ⟨expression, rfl⟩ := eq_column_of_label? label
  rw [relabel, Option.map_some, labelled?, labelled?]
  by_cases he : d.quoted own = d.quoted name
  · rw [if_pos (spell.quoted_eq_iff.mpr he), if_pos he, Option.map_some]
  · rw [if_neg fun h ↦ he (spell.quoted_eq_iff.mp h), if_neg he, Option.map_none]

end SelectItem

/-- The labels required of a select list are relabeled. -/
theorem requiredLabels_relabel (items : List SelectItem) :
    requiredLabels (items.map (·.relabel f)) = (requiredLabels items).map (List.map f) := by
  induction items with
  | nil => rfl
  | cons item rest ih =>
    rw [List.map_cons, requiredLabels, requiredLabels, ih]
    cases item with
    | allColumns relation => rfl
    | column label expression =>
      cases label with
      | none => rfl
      | some label => cases requiredLabels rest <;> rfl

namespace SubQuery

/-- A sub-query with the names in it written differently. -/
def relabel (f : String → String) (sub : SubQuery) : SubQuery :=
  ⟨sub.query.relabel f, f sub.correlation, sub.columns.map f⟩

/-- The relation of a sub-query is relabeled with it. -/
theorem relation_relabel (sub : SubQuery) : (sub.relabel f).relation = sub.relation.relabel f := rfl

/-- Columns of a sub-query are relabeled with it. -/
theorem items_relabel (sub : SubQuery) (columns : List String) :
    (sub.relabel f).items (columns.map f) = (sub.items columns).map (·.relabel f) := by
  rw [items, items, List.map_map, List.map_map]
  rfl

/-- A selection from a sub-query is relabeled with it. -/
theorem plain_relabel (sub : SubQuery) (columns : List String) :
    QuerySpecification.plain ((sub.relabel f).items (columns.map f)) [(sub.relabel f).relation] =
      (QuerySpecification.plain (sub.items columns) [sub.relation]).relabel f := by
  rw [QuerySpecification.relabel_plain, items_relabel, relation_relabel]
  rfl

/-- All rows of a sub-query are relabeled with it. -/
theorem all_relabel (sub : SubQuery) : (sub.relabel f).all = sub.all.relabel f :=
  sub.plain_relabel sub.columns

end SubQuery

namespace QuerySpecification

variable {query : QuerySpecification}

/-- All entries of the select list are labelled with quoted names. -/
def Labelled (d : Dialect) (query : QuerySpecification) : Prop := ∃ names, query.Selects d names

/-- Every entry of a labelled select list has a quoted name as its label. -/
theorem Labelled.exists_label (labelled : query.Labelled d) {item : SelectItem}
    (h : item ∈ query.items) : ∃ name, item.label? = some (d.quoted name) := by
  obtain ⟨names, hn⟩ := labelled
  have hm : item.label? ∈ query.items.map (·.label?) := List.mem_map_of_mem h
  rw [hn, List.map_map] at hm
  obtain ⟨name, -, he⟩ := List.mem_map.mp hm
  exact ⟨name, he.symm⟩

/-- What is selected under a quoted name is selected, relabeled, under the respelled name. -/
theorem findColumn?_relabel (spell : Respells d e f) (labelled : query.Labelled d) (name : String) :
    (query.relabel f).findColumn? (e.quoted name) =
      (query.findColumn? (d.quoted name)).map (·.relabel f) := by
  have each (item : SelectItem) (h : item ∈ query.items) := labelled.exists_label h
  rw [findColumn?, findColumn?, relabel_eq]
  change (query.items.map _).findSome? _ = _
  generalize query.items = items at each ⊢
  induction items with
  | nil => rfl
  | cons item rest ih =>
    obtain ⟨⟨own, label⟩, others⟩ := List.forall_mem_cons.mp each
    rw [List.map_cons, List.findSome?_cons, List.findSome?_cons,
      SelectItem.labelled?_relabel spell label]
    cases item.labelled? (d.quoted name) with
    | some expression => rfl
    | none => exact ih others

/-- A relabeled query has the clauses it had before. -/
theorem has_relabel (query : QuerySpecification) (clause : Clause) :
    (query.relabel f).has clause = query.has clause := by
  rw [relabel_eq]
  cases clause <;> simp [has]

/-- A relabeled query has one of several clauses if it had before. -/
theorem hasAny_relabel (query : QuerySpecification) (clauses : List Clause) :
    (query.relabel f).hasAny clauses = query.hasAny clauses := by
  rw [hasAny, hasAny, funext (has_relabel query)]

/-- A relabeled query selects window calls where it did before. -/
theorem selectsWindow_relabel (query : QuerySpecification) :
    (query.relabel f).selectsWindow = query.selectsWindow := by
  rw [relabel_eq, selectsWindow, selectsWindow]
  change (query.items.map _).any _ = _
  rw [List.any_map]
  congr 1
  funext item
  cases item with
  | allColumns relation => rfl
  | column label expression => cases expression <;> rfl

/-- A relabeled query is named like the query. -/
theorem named_relabel (spell : Respells d e f) (query : QuerySpecification) (name : String) :
    (query.relabel f).named e name = (query.named d name).map (·.relabel f) := by
  have labels : (query.relabel f).columns = query.columns.map (List.map f) := by
    rw [columns, columns, relabel_eq]
    exact requiredLabels_relabel query.items
  rw [named, named, labels, ← spell name]
  cases query.columns <;> rfl

/-- A relabeled query is wrapped like the query. -/
theorem wrapped_none_relabel (spell : Respells d e f) (query : QuerySpecification)
    (name : String) :
    (query.relabel f).wrapped e name none = (query.wrapped d name none).map (·.relabel f) := by
  rw [wrapped, wrapped, named_relabel spell]
  cases query.named d name with
  | error cause => rfl
  | ok sub => exact congrArg Except.ok sub.all_relabel

/-- A relabeled query is wrapped to retain columns like the query. -/
theorem wrapped_some_relabel (spell : Respells d e f) (labelled : query.Labelled d)
    (name : String) (retained : List String) :
    (query.relabel f).wrapped e name (some (retained.map e.quoted)) =
      (query.wrapped d name (some (retained.map d.quoted))).map (·.relabel f) := by
  obtain ⟨names, hn⟩ := labelled
  rw [wrapped, wrapped, named_relabel spell, hn.named name]
  cases retained with
  | nil => exact congrArg Except.ok (SubQuery.all_relabel _)
  | cons first rest =>
    refine congrArg Except.ok ?_
    change plain (SubQuery.items _ (((first :: rest).map e.quoted).filter
      ((names.map d.quoted).map f).contains)) _ = _
    rw [← spell.filter_contains]
    exact SubQuery.plain_relabel _ _

end QuerySpecification

end FrameQuery.Sql
