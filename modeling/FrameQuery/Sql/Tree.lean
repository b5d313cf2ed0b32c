import FrameQuery.Json.Value
import FrameQuery.Sql.Metamodel
import FrameQuery.Text.Shown

/-!
# The metamodel as named trees

A node of the metamodel as a tree of records and variants with the names that documents use. Such a
tree has two written forms: a JSON value, in which a record is an object, a variant an object with
one member or, without content, a string; and the form of diagnostics, in which each record and
variant is preceded by its name.
-/

namespace FrameQuery.Sql

/-- A node with the names of its parts. -/
inductive Tree where
  | text (value : String)
  | boolean (value : Bool)
  | integer (value : Int)
  | double (value : Double)
  | absent
  | present (value : Tree)
  | list (items : List Tree)
  | record (name : String) (fields : List (String × Tree))
  /-- A variant without content. -/
  | unit (name : String)
  /-- A variant with one nameless content. -/
  | wrapped (name : String) (content : Tree)
  /-- A variant with named contents. -/
  | variant (name : String) (fields : List (String × Tree))
  deriving Repr, Inhabited

namespace Tree

/-- A value of a closed list, by its name. -/
def named {α : Type} [Named α] (value : α) : Tree := .unit (Named.name value)

/-- A list of texts. -/
def texts (values : List String) : Tree := .list (values.map .text)

/-- An optional tree. -/
def optional : Option Tree → Tree
  | none => .absent
  | some value => .present value

mutual

/-- The JSON form; `writeDouble` says how floating point numbers are written. -/
def toJson (writeDouble : Double → Json) : Tree → Json
  | .text value => .string value
  | .boolean value => .boolean value
  | .integer value => .integer value
  | .double value => writeDouble value
  | .absent => .null
  | .present value => value.toJson writeDouble
  | .list items => .array (itemsToJson writeDouble items)
  | .record _ fields => .object (fieldsToJson writeDouble fields)
  | .unit name => .string name
  | .wrapped name content => .object [(name, content.toJson writeDouble)]
  | .variant name fields => .object [(name, .object (fieldsToJson writeDouble fields))]

/-- The JSON forms of a list. -/
def itemsToJson (writeDouble : Double → Json) : List Tree → List Json
  | [] => []
  | item :: rest => item.toJson writeDouble :: itemsToJson writeDouble rest

/-- The members that fields become. -/
def fieldsToJson (writeDouble : Double → Json) : List (String × Tree) → List (String × Json)
  | [] => []
  | (name, value) :: rest => (name, value.toJson writeDouble) :: fieldsToJson writeDouble rest

end

/-- Named contents behind the name of what holds them. -/
def showFields (name : String) (fields : List String) : String :=
  if fields.isEmpty then name else name ++ " \x7b " ++ ", ".intercalate fields ++ " \x7d"

mutual

/-- The form of diagnostics. -/
def shown : Tree → String
  | .text value => Shown.text value
  | .boolean value => if value then "true" else "false"
  | .integer value => toString value
  | .double value => value.toText
  | .absent => "None"
  | .present value => "Some(" ++ value.shown ++ ")"
  | .list items => "[" ++ ", ".intercalate (shownItems items) ++ "]"
  | .record name fields => showFields name (shownFields fields)
  | .unit name => name
  | .wrapped name content => name ++ "(" ++ content.shown ++ ")"
  | .variant name fields => showFields name (shownFields fields)

/-- The shown items of a list. -/
def shownItems : List Tree → List String
  | [] => []
  | item :: rest => item.shown :: shownItems rest

/-- Shown contents, each behind its name. -/
def shownFields : List (String × Tree) → List String
  | [] => []
  | (name, value) :: rest => (name ++ ": " ++ value.shown) :: shownFields rest

end

end Tree

/-- The tree of a qualified name. -/
def QualifiedName.tree (name : QualifiedName) : Tree :=
  .record "QualifiedName" [("parts", .texts name.parts)]

/-- The tree of an interval. -/
def IntervalLiteral.tree (interval : IntervalLiteral) : Tree :=
  .record "IntervalLiteral" [("amount", .integer interval.amount.toInt),
    ("unit", .named interval.unit)]

/-- The tree of a constant. -/
def Literal.tree : Literal → Tree
  | .boolean value => .wrapped "Boolean" (.boolean value)
  | .integer value => .wrapped "Integer" (.integer value.toInt)
  | .double value => .wrapped "Double" (.double value)
  | .string value quoted =>
    .variant "String" [("value", .text value), ("quoted", .boolean quoted)]
  | .null => .unit "Null"
  | .interval span => .wrapped "Interval" span.tree

/-- The tree of a cast's type. -/
def ColumnType.tree (type : ColumnType) : Tree :=
  .record "ColumnType" [("name", .text type.name),
    ("parameters", .list (type.parameters.map fun p ↦ .integer p.toInt))]

mutual

/-- The tree of a relation. -/
def Relation.tree : Relation → Tree
  | .table name => .wrapped "Table" (.record "Table" [("name", name.tree)])
  | .aliased relation correlation columnNames =>
    .wrapped "AliasedRelation" (.record "AliasedRelation" [("relation", relation.tree),
      ("alias", .text correlation), ("column_names", .texts columnNames)])
  | .subquery query =>
    .wrapped "TableSubquery" (.record "TableSubquery" [("query", query.tree)])
  | .join kind left right criteria =>
    .wrapped "Join" (.record "Join" [("kind", .named kind), ("left", left.tree),
      ("right", right.tree), ("criteria", .optional (JoinCriteria.optionTree criteria))])
  | .function call =>
    .wrapped "TableFunction" (.record "TableFunction" [("function_call", call.tree)])
  | .union left right distinct =>
    .wrapped "Union" (.record "Union" [("left", left.tree), ("right", right.tree),
      ("distinct", .boolean distinct)])
  | .specification query => .wrapped "QuerySpecification" query.tree

/-- The tree of a join's criteria. -/
def JoinCriteria.tree : JoinCriteria → Tree
  | .condition holds => .wrapped "On" holds.tree
  | .columns names => .wrapped "Using" (.texts names)

/-- The tree of a query. -/
def Query.tree : Query → Tree
  | ⟨body, orderBy, limit, offset⟩ =>
    .record "Query" [("body", body.tree), ("order_by", .list (SortItem.trees orderBy)),
      ("limit", .optional (Expression.optionTree limit)),
      ("offset", .optional (Expression.optionTree offset))]

/-- The tree of a query block. -/
def QuerySpecification.tree : QuerySpecification → Tree
  | ⟨select, sources, filter, groupBy, having, orderBy, limit, offset⟩ =>
    .record "QuerySpecification" [("select", select.tree), ("from", .list (Relation.trees sources)),
      ("where_", .optional (Expression.optionTree filter)),
      ("group_by", .list (Expression.trees groupBy)),
      ("having", .optional (Expression.optionTree having)),
      ("order_by", .list (SortItem.trees orderBy)),
      ("limit", .optional (Expression.optionTree limit)),
      ("offset", .optional (Expression.optionTree offset))]

/-- The tree of a select list. -/
def Select.tree : Select → Tree
  | ⟨distinct, items⟩ =>
    .record "Select" [("distinct", .boolean distinct),
      ("select_items", .list (SelectItem.trees items))]

/-- The tree of an entry of the select list. -/
def SelectItem.tree : SelectItem → Tree
  | .allColumns relation => .variant "AllColumns" [("prefix", .optional (relation.map .text))]
  | .column label expression =>
    .wrapped "SingleColumn" (.record "SingleColumn" [("alias", .optional (label.map .text)),
      ("expression", expression.tree)])

/-- The tree of a sort key. -/
def SortItem.tree : SortItem → Tree
  | ⟨key, ordering, nulls⟩ =>
    .record "SortItem" [("sort_key", key.tree), ("ordering", .named ordering),
      ("null_ordering", .named nulls)]

/-- The tree of an expression. -/
def Expression.tree : Expression → Tree
  | .literal value => .wrapped "Literal" value.tree
  | .reference name => .wrapped "QualifiedNameReference" name.tree
  | .comparison operator left right =>
    .variant "Comparison" [("operator", .named operator), ("left", left.tree),
      ("right", right.tree)]
  | .logical operator left right =>
    .variant "LogicalBinary" [("operator", .named operator), ("left", left.tree),
      ("right", right.tree)]
  | .not value => .wrapped "Not" value.tree
  | .arithmetic operator left right =>
    .variant "Arithmetic" [("operator", .named operator), ("left", left.tree),
      ("right", right.tree)]
  | .negative value => .wrapped "Negative" value.tree
  | .cast value columnType =>
    .variant "Cast" [("expression", value.tree), ("column_type", columnType.tree)]
  | .list items => .wrapped "InList" (.list (Expression.trees items))
  | .inPredicate value items =>
    .variant "InPredicate" [("value", value.tree), ("list", items.tree)]
  | .isNull value => .wrapped "IsNull" value.tree
  | .isNotNull value => .wrapped "IsNotNull" value.tree
  | .currentTime kind precision =>
    .variant "CurrentTime" [("kind", .named kind),
      ("precision", .optional (precision.map fun p ↦ .integer p.toNat))]
  | .extract field value =>
    .variant "Extract" [("field", .named field), ("expression", value.tree)]
  | .call function => .wrapped "FunctionCall" function.tree
  | .namedArgument name value =>
    .variant "NamedArgument" [("name", .text name), ("expression", value.tree)]
  | .searchedCase whenClauses otherwise =>
    .variant "SearchedCase" [("when_clauses", .list (WhenClause.trees whenClauses)),
      ("default", .optional (Expression.optionTree otherwise))]
  | .window nested window =>
    .variant "Window" [("nested", nested.tree), ("window", window.tree)]
  | .subquery query => .wrapped "Subquery" query.tree
  | .constant token => .wrapped "Constant" (.text token)
  | .extension function => .wrapped "Extension" function.tree

/-- The tree of a function call. -/
def FunctionCall.tree : FunctionCall → Tree
  | ⟨name, distinct, arguments, filter, window⟩ =>
    .record "FunctionCall" [("name", name.tree), ("distinct", .boolean distinct),
      ("arguments", .list (Expression.trees arguments)),
      ("filter", .optional (Expression.optionTree filter)),
      ("window", .optional (Window.optionTree window))]

/-- The tree of a branch. -/
def WhenClause.tree : WhenClause → Tree
  | ⟨operand, result⟩ =>
    .record "WhenClause" [("operand", operand.tree), ("result", result.tree)]

/-- The tree of a window. -/
def Window.tree : Window → Tree
  | ⟨reference, partitions, orderBy, frame⟩ =>
    .record "Window" [("window_ref", .optional (reference.map .text)),
      ("partitions", .list (Expression.trees partitions)),
      ("order_by", .list (SortItem.trees orderBy)),
      ("frame", .optional (WindowFrame.optionTree frame))]

/-- The tree of a window frame. -/
def WindowFrame.tree : WindowFrame → Tree
  | ⟨mode, start, stop⟩ =>
    .record "WindowFrame" [("mode", .named mode), ("start", start.tree),
      ("end", .optional (FrameBound.optionTree stop))]

/-- The tree of a bound. -/
def FrameBound.tree : FrameBound → Tree
  | ⟨kind, value, unit⟩ =>
    .record "FrameBound" [("kind", .named kind), ("value", .optional (Expression.optionTree value)),
      ("duration_unit", .optional (unit.map .named))]

/-- The tree of a domain function. -/
def Extension.tree : Extension → Tree
  | .stringLength value => .wrapped "StringLength" value.tree
  | .stringLike value pattern =>
    .variant "StringLike" [("value", value.tree), ("pattern", pattern.tree)]
  | .stringUpper value => .wrapped "StringUpper" value.tree
  | .stringLower value => .wrapped "StringLower" value.tree
  | .stringTrim value kind => .variant "StringTrim" [("value", value.tree), ("kind", .named kind)]
  | .stringPos value other => .variant "StringPos" [("value", value.tree), ("other", other.tree)]
  | .stringConcat first second =>
    .variant "StringConcat" [("first", first.tree), ("second", second.tree)]
  | .math function value =>
    .variant "Math" [("function", .named function), ("value", value.tree)]
  | .power first second => .variant "Power" [("first", first.tree), ("second", second.tree)]
  | .remainder first second =>
    .variant "Remainder" [("first", first.tree), ("second", second.tree)]
  | .round value scale =>
    .variant "Round" [("value", value.tree), ("scale", .optional (Expression.optionTree scale))]
  | .arcTan2 first second => .variant "ArcTan2" [("first", first.tree), ("second", second.tree)]
  | .aggregate function value =>
    .variant "Aggregate" [("function", .named function), ("value", value.tree)]
  | .joinStrings value separator =>
    .variant "JoinStrings" [("value", value.tree), ("separator", separator.tree)]
  | .dateTrunc part value => .variant "DateTrunc" [("part", .named part), ("value", value.tree)]
  | .datePart field value => .variant "DatePart" [("field", .named field), ("value", value.tree)]
  | .dateAdjust value interval =>
    .variant "DateAdjust" [("value", value.tree), ("interval", interval.tree)]

/-- The trees of relations. -/
def Relation.trees : List Relation → List Tree
  | [] => []
  | relation :: rest => relation.tree :: Relation.trees rest

/-- The trees of sort keys. -/
def SortItem.trees : List SortItem → List Tree
  | [] => []
  | item :: rest => item.tree :: SortItem.trees rest

/-- The trees of entries of a select list. -/
def SelectItem.trees : List SelectItem → List Tree
  | [] => []
  | item :: rest => item.tree :: SelectItem.trees rest

/-- The trees of expressions. -/
def Expression.trees : List Expression → List Tree
  | [] => []
  | expression :: rest => expression.tree :: Expression.trees rest

/-- The trees of branches. -/
def WhenClause.trees : List WhenClause → List Tree
  | [] => []
  | clause :: rest => clause.tree :: WhenClause.trees rest

/-- The tree of an optional expression. -/
def Expression.optionTree : Option Expression → Option Tree
  | none => none
  | some expression => some expression.tree

/-- The tree of optional criteria. -/
def JoinCriteria.optionTree : Option JoinCriteria → Option Tree
  | none => none
  | some criteria => some criteria.tree

/-- The tree of an optional window. -/
def Window.optionTree : Option Window → Option Tree
  | none => none
  | some window => some window.tree

/-- The tree of an optional window frame. -/
def WindowFrame.optionTree : Option WindowFrame → Option Tree
  | none => none
  | some frame => some frame.tree

/-- The tree of an optional bound. -/
def FrameBound.optionTree : Option FrameBound → Option Tree
  | none => none
  | some bound => some bound.tree

end

end FrameQuery.Sql
