import FrameQuery.Json.Decoding
import FrameQuery.Sql.Tree

/-!
# The metamodel in JSON

A node is written as the JSON form of its tree and read back from it. Every node is an array or an
object that stands inside the one of the node it belongs to, so that the depth of a JSON value bounds
the nesting of the nodes in it.
-/

namespace FrameQuery.Sql

open Json (required optional list? record? string? boolean? int64? uint32? double? named?)

/-- A qualified name. -/
def QualifiedName.ofJson? (json : Json) : Option QualifiedName := do
  return ⟨← required (list? string?) "parts" (← record? ["parts"] json)⟩

/-- An interval. -/
def IntervalLiteral.ofJson? (json : Json) : Option IntervalLiteral := do
  let m ← record? ["amount", "unit"] json
  return ⟨← required int64? "amount" m, ← required named? "unit" m⟩

/-- A constant. -/
def Literal.ofJson? (json : Json) : Option Literal := do
  match ← json.variant? with
  | ("Boolean", some content) => return .boolean (← content.boolean?)
  | ("Integer", some content) => return .integer (← content.int64?)
  | ("Double", some content) => return .double (← content.double?)
  | ("String", some content) =>
    let m ← record? ["value", "quoted"] content
    return .string (← required string? "value" m) (← required boolean? "quoted" m)
  | ("Null", none) => return .null
  | ("Interval", some content) => return .interval (← IntervalLiteral.ofJson? content)
  | _ => none

/-- The type of a cast. -/
def ColumnType.ofJson? (json : Json) : Option ColumnType := do
  let m ← record? ["name", "parameters"] json
  return ⟨← required string? "name" m, ← required (list? int64?) "parameters" m⟩

mutual

/-- The fields of a join. -/
def Relation.joinOf? : Nat → Json → Option Relation
  | 0, _ => none
  | n + 1, json => do
    let m ← record? ["kind", "left", "right", "criteria"] json
    return .join (← required named? "kind" m) (← required (Relation.of? n) "left" m)
      (← required (Relation.of? n) "right" m) (← optional (JoinCriteria.of? n) "criteria" m)

/-- The fields of a union. -/
def Relation.unionOf? : Nat → Json → Option Relation
  | 0, _ => none
  | n + 1, json => do
    let m ← record? ["left", "right", "distinct"] json
    return .union (← required (Relation.of? n) "left" m) (← required (Relation.of? n) "right" m)
      (← required boolean? "distinct" m)

/-- A relation. -/
def Relation.of? : Nat → Json → Option Relation
  | 0, _ => none
  | n + 1, json => do
    let (variant, content) ← json.variant?
    let content ← content
    match variant with
    | "Table" =>
      return .table (← required QualifiedName.ofJson? "name" (← record? ["name"] content))
    | "AliasedRelation" =>
      let m ← record? ["relation", "alias", "column_names"] content
      return .aliased (← required (Relation.of? n) "relation" m) (← required string? "alias" m)
        (← required (list? string?) "column_names" m)
    | "TableSubquery" =>
      return .subquery (← required (Query.of? n) "query" (← record? ["query"] content))
    | "Join" => Relation.joinOf? n content
    | "TableFunction" =>
      return .function
        (← required (FunctionCall.of? n) "function_call" (← record? ["function_call"] content))
    | "Union" => Relation.unionOf? n content
    | "QuerySpecification" => return .specification (← QuerySpecification.of? n content)
    | _ => none

/-- A join's criteria. -/
def JoinCriteria.of? : Nat → Json → Option JoinCriteria
  | 0, _ => none
  | n + 1, json => do
    match ← json.variant? with
    | ("On", some content) => return .condition (← Expression.of? n content)
    | ("Using", some content) => return .columns (← list? string? content)
    | _ => none

/-- A query. -/
def Query.of? : Nat → Json → Option Query
  | 0, _ => none
  | n + 1, json => do
    let m ← record? ["body", "order_by", "limit", "offset"] json
    return ⟨← required (Relation.of? n) "body" m, ← required (list? (SortItem.of? n)) "order_by" m,
      ← optional (Expression.of? n) "limit" m, ← optional (Expression.of? n) "offset" m⟩

/-- A query block. -/
def QuerySpecification.of? : Nat → Json → Option QuerySpecification
  | 0, _ => none
  | n + 1, json => do
    let m ← record?
      ["select", "from", "where_", "group_by", "having", "order_by", "limit", "offset"] json
    return ⟨← required (Select.of? n) "select" m, ← required (list? (Relation.of? n)) "from" m,
      ← optional (Expression.of? n) "where_" m,
      ← required (list? (Expression.of? n)) "group_by" m,
      ← optional (Expression.of? n) "having" m, ← required (list? (SortItem.of? n)) "order_by" m,
      ← optional (Expression.of? n) "limit" m, ← optional (Expression.of? n) "offset" m⟩

/-- A select list. -/
def Select.of? : Nat → Json → Option Select
  | 0, _ => none
  | n + 1, json => do
    let m ← record? ["distinct", "select_items"] json
    return ⟨← required boolean? "distinct" m,
      ← required (list? (SelectItem.of? n)) "select_items" m⟩

/-- An entry of a select list. -/
def SelectItem.of? : Nat → Json → Option SelectItem
  | 0, _ => none
  | n + 1, json => do
    match ← json.variant? with
    | ("AllColumns", some content) =>
      return .allColumns (← optional string? "prefix" (← record? ["prefix"] content))
    | ("SingleColumn", some content) =>
      let m ← record? ["alias", "expression"] content
      return .column (← optional string? "alias" m) (← required (Expression.of? n) "expression" m)
    | _ => none

/-- A sort key. -/
def SortItem.of? : Nat → Json → Option SortItem
  | 0, _ => none
  | n + 1, json => do
    let m ← record? ["sort_key", "ordering", "null_ordering"] json
    return ⟨← required (Expression.of? n) "sort_key" m, ← required named? "ordering" m,
      ← required named? "null_ordering" m⟩

/-- An expression. -/
def Expression.of? : Nat → Json → Option Expression
  | 0, _ => none
  | n + 1, json => do
    let (variant, content) ← json.variant?
    let content ← content
    match variant with
    | "Literal" => return .literal (← Literal.ofJson? content)
    | "QualifiedNameReference" => return .reference (← QualifiedName.ofJson? content)
    | "Comparison" =>
      let m ← record? ["operator", "left", "right"] content
      return .comparison (← required named? "operator" m) (← required (Expression.of? n) "left" m)
        (← required (Expression.of? n) "right" m)
    | "LogicalBinary" =>
      let m ← record? ["operator", "left", "right"] content
      return .logical (← required named? "operator" m) (← required (Expression.of? n) "left" m)
        (← required (Expression.of? n) "right" m)
    | "Not" => return .not (← Expression.of? n content)
    | "Arithmetic" =>
      let m ← record? ["operator", "left", "right"] content
      return .arithmetic (← required named? "operator" m) (← required (Expression.of? n) "left" m)
        (← required (Expression.of? n) "right" m)
    | "Negative" => return .negative (← Expression.of? n content)
    | "Cast" =>
      let m ← record? ["expression", "column_type"] content
      return .cast (← required (Expression.of? n) "expression" m)
        (← required ColumnType.ofJson? "column_type" m)
    | "InList" => return .list (← list? (Expression.of? n) content)
    | "InPredicate" =>
      let m ← record? ["value", "list"] content
      return .inPredicate (← required (Expression.of? n) "value" m)
        (← required (Expression.of? n) "list" m)
    | "IsNull" => return .isNull (← Expression.of? n content)
    | "IsNotNull" => return .isNotNull (← Expression.of? n content)
    | "CurrentTime" =>
      let m ← record? ["kind", "precision"] content
      return .currentTime (← required named? "kind" m) (← optional uint32? "precision" m)
    | "Extract" =>
      let m ← record? ["field", "expression"] content
      return .extract (← required named? "field" m) (← required (Expression.of? n) "expression" m)
    | "FunctionCall" => return .call (← FunctionCall.of? n content)
    | "NamedArgument" =>
      let m ← record? ["name", "expression"] content
      return .namedArgument (← required string? "name" m)
        (← required (Expression.of? n) "expression" m)
    | "SearchedCase" =>
      let m ← record? ["when_clauses", "default"] content
      return .searchedCase (← required (list? (WhenClause.of? n)) "when_clauses" m)
        (← optional (Expression.of? n) "default" m)
    | "Window" =>
      let m ← record? ["nested", "window"] content
      return .window (← required (Expression.of? n) "nested" m)
        (← required (Window.of? n) "window" m)
    | "Subquery" => return .subquery (← Query.of? n content)
    | "Constant" => return .constant (← content.string?)
    | "Extension" => return .extension (← Extension.of? n content)
    | _ => none

/-- A function call. -/
def FunctionCall.of? : Nat → Json → Option FunctionCall
  | 0, _ => none
  | n + 1, json => do
    let m ← record? ["name", "distinct", "arguments", "filter", "window"] json
    return ⟨← required QualifiedName.ofJson? "name" m, ← required boolean? "distinct" m,
      ← required (list? (Expression.of? n)) "arguments" m,
      ← optional (Expression.of? n) "filter" m, ← optional (Window.of? n) "window" m⟩

/-- A branch of a case distinction. -/
def WhenClause.of? : Nat → Json → Option WhenClause
  | 0, _ => none
  | n + 1, json => do
    let m ← record? ["operand", "result"] json
    return ⟨← required (Expression.of? n) "operand" m, ← required (Expression.of? n) "result" m⟩

/-- A window. -/
def Window.of? : Nat → Json → Option Window
  | 0, _ => none
  | n + 1, json => do
    let m ← record? ["window_ref", "partitions", "order_by", "frame"] json
    return ⟨← optional string? "window_ref" m, ← required (list? (Expression.of? n)) "partitions" m,
      ← required (list? (SortItem.of? n)) "order_by" m, ← optional (WindowFrame.of? n) "frame" m⟩

/-- A window frame. -/
def WindowFrame.of? : Nat → Json → Option WindowFrame
  | 0, _ => none
  | n + 1, json => do
    let m ← record? ["mode", "start", "end"] json
    return ⟨← required named? "mode" m, ← required (FrameBound.of? n) "start" m,
      ← optional (FrameBound.of? n) "end" m⟩

/-- A window bound. -/
def FrameBound.of? : Nat → Json → Option FrameBound
  | 0, _ => none
  | n + 1, json => do
    let m ← record? ["kind", "value", "duration_unit"] json
    return ⟨← required named? "kind" m, ← optional (Expression.of? n) "value" m,
      ← optional named? "duration_unit" m⟩

/-- The operands of a domain function, for functions with two of them. -/
def Extension.pairOf? : Nat → String → String → Json → Option (Expression × Expression)
  | 0, _, _, _ => none
  | n + 1, first, second, json => do
    let m ← record? [first, second] json
    return (← required (Expression.of? n) first m, ← required (Expression.of? n) second m)

/-- A domain function. -/
def Extension.of? : Nat → Json → Option Extension
  | 0, _ => none
  | n + 1, json => do
    let (variant, content) ← json.variant?
    let content ← content
    match variant with
    | "StringLength" => return .stringLength (← Expression.of? n content)
    | "StringLike" =>
      let (value, pattern) ← Extension.pairOf? n "value" "pattern" content
      return .stringLike value pattern
    | "StringUpper" => return .stringUpper (← Expression.of? n content)
    | "StringLower" => return .stringLower (← Expression.of? n content)
    | "StringTrim" =>
      let m ← record? ["value", "kind"] content
      return .stringTrim (← required (Expression.of? n) "value" m) (← required named? "kind" m)
    | "StringPos" =>
      let (value, other) ← Extension.pairOf? n "value" "other" content
      return .stringPos value other
    | "StringConcat" =>
      let (first, second) ← Extension.pairOf? n "first" "second" content
      return .stringConcat first second
    | "Math" =>
      let m ← record? ["function", "value"] content
      return .math (← required named? "function" m) (← required (Expression.of? n) "value" m)
    | "Power" =>
      let (first, second) ← Extension.pairOf? n "first" "second" content
      return .power first second
    | "Remainder" =>
      let (first, second) ← Extension.pairOf? n "first" "second" content
      return .remainder first second
    | "Round" =>
      let m ← record? ["value", "scale"] content
      return .round (← required (Expression.of? n) "value" m)
        (← optional (Expression.of? n) "scale" m)
    | "ArcTan2" =>
      let (first, second) ← Extension.pairOf? n "first" "second" content
      return .arcTan2 first second
    | "Aggregate" =>
      let m ← record? ["function", "value"] content
      return .aggregate (← required named? "function" m) (← required (Expression.of? n) "value" m)
    | "JoinStrings" =>
      let (value, separator) ← Extension.pairOf? n "value" "separator" content
      return .joinStrings value separator
    | "DateTrunc" =>
      let m ← record? ["part", "value"] content
      return .dateTrunc (← required named? "part" m) (← required (Expression.of? n) "value" m)
    | "DatePart" =>
      let m ← record? ["field", "value"] content
      return .datePart (← required named? "field" m) (← required (Expression.of? n) "value" m)
    | "DateAdjust" =>
      let m ← record? ["value", "interval"] content
      return .dateAdjust (← required (Expression.of? n) "value" m)
        (← required IntervalLiteral.ofJson? "interval" m)
    | _ => none

end

/-- Reads a node, with the depth of its JSON value as the bound on the nesting of nodes. -/
def readNode {α : Type} (read : Nat → Json → Option α) (json : Json) : Option α :=
  read json.depth json

end FrameQuery.Sql
