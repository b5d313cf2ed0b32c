import FrameQuery.Sql.Clause
import FrameQuery.Text.Parens

/-!
# SQL text

Every node of the metamodel as a document, for a dialect and at a depth. Rendering fails only for a
window bound that lacks its offset and for a rounding whose scale is no integer constant; of several
failures the one that comes first in the order of rendering is reported.
-/

namespace FrameQuery.Sql

/-- The document of a case distinction. -/
def caseDoc (depth : Nat) (branches : List Doc) (otherwise : Option Doc) : Doc :=
  let otherwise := match otherwise with
    | none => []
    | some value => Doc.gap (depth + 1) ++ "ELSE" ++ Doc.gap (depth + 2) ++ value
  "CASE" ++ Doc.gap (depth + 1) ++ Doc.sepBy (Doc.gap (depth + 1)) branches ++ otherwise ++
    Doc.gap depth ++ "END"

/-- The document of one branch of a case distinction. -/
def branchDoc (depth : Nat) (operand result : Doc) : Doc :=
  "WHEN" ++ Doc.gap (depth + 2) ++ operand ++ Doc.gap (depth + 1) ++ "THEN" ++
    Doc.gap (depth + 2) ++ result

/-- The document of an arithmetic operation. A quotient is one of floating point numbers whatever
its operands are. -/
def arithmeticDoc (operator : ArithmeticOperator) (left right : Doc) : Doc :=
  match operator with
  | .add => infixDoc "+" left right
  | .subtract => infixDoc "-" left right
  | .multiply => infixDoc "*" left right
  | .divide => infixDoc "/" (infixDoc "*" "1.0" left) right
  | .modulus => callDoc "MOD" [left, right]

/-- The document of the current time. A date has no precision. -/
def currentTimeDoc (kind : CurrentTimeKind) (precision : Option UInt32) : Doc :=
  let precision : Doc := match precision with
    | none => []
    | some p => Doc.text ("(" ++ toString p.toNat ++ ")")
  match kind with
  | .date => "CURRENT_DATE"
  | .time => "CURRENT_TIME" ++ precision
  | .timestamp => "CURRENT_TIMESTAMP" ++ precision

/-- The document of a cast's type. -/
def ColumnType.doc (type : ColumnType) : Doc :=
  if type.parameters.isEmpty then type.name else callDoc type.name (type.parameters.map intDoc)

/-- The words behind a sort key. -/
def sortWords (ordering : SortOrdering) (nulls : NullOrdering) : String :=
  let direction := match ordering with
    | .ascending => ""
    | .descending => " DESC"
  let nulls := match nulls with
    | .undefined => ""
    | .first => " NULLS FIRST"
    | .last => " NULLS LAST"
  direction ++ nulls

/-- The document of a window that is not defined elsewhere. -/
def overDoc (partitions orderBy : List Doc) (frame : Option Doc) : Doc :=
  let part (keyword : String) (docs : List Doc) : List Doc :=
    if docs.isEmpty then [] else [Doc.text keyword ++ Doc.commaSep docs]
  "OVER (" ++
    Doc.sepBy " " (part "PARTITION BY " partitions ++ part "ORDER BY " orderBy ++ frame.toList) ++
    ")"

/-- Whether a query is its body and nothing more. -/
def isPlain (body : Relation) (orderBy : List SortItem) (limit offset : Option Expression) : Bool :=
  (match body with
    | .specification _ | .union _ _ _ => true
    | _ => false) && orderBy.isEmpty && limit.isNone && offset.isNone

/-- Characters that start a quoted region of SQL text. -/
def quoteChars : List Char := ['\'', '"']

mutual

/-- The document of a relation, between parentheses if it is a query that stands in another one. -/
def Relation.doc (d : Dialect) : Relation → Bool → Nat → Outcome Doc
  | .table name, _, _ => .ok (d.nameDoc name)
  | .aliased relation correlation _, nested, depth => do
    let relation ← relation.doc d nested depth
    return relation ++ " AS " ++ d.identifier correlation false
  | .subquery query, _, depth => query.doc d true depth
  | .join kind left right criteria, _, depth => do
    let left ← left.doc d false depth
    let right ← right.doc d false (depth + 1)
    let criteria ← optionally (fun c ↦ Doc.gap (depth + 1) ++ c)
      (JoinCriteria.optionDoc d criteria depth)
    return left ++ Doc.gap depth ++ kind.keyword ++ Doc.gap (depth + 1) ++ right ++ criteria
  | .function call, _, depth => call.doc d depth
  | .union left right distinct, nested, depth => do
    let inside := if nested then depth + 1 else depth
    let left ← left.doc d true inside
    let right ← right.doc d true inside
    let keyword := if distinct then "UNION" else "UNION ALL"
    let union : Doc := left ++ Doc.gap inside ++ keyword ++ Doc.gap inside ++ right
    return if nested then parens depth union else union
  | .specification query, nested, depth => do
    if nested then return parens depth (← query.doc d (depth + 1)) else query.doc d depth

/-- The document of a join's criteria. A condition loses its outer parentheses to those of the
clause. -/
def JoinCriteria.doc (d : Dialect) : JoinCriteria → Nat → Outcome Doc
  | .condition holds, depth => do
    let holds ← holds.doc d depth
    return "ON (" ++ Doc.stripOuterParens quoteChars holds ++ ")"
  | .columns names, _ =>
    .ok ("USING (" ++ Doc.commaSep (names.map fun n ↦ Doc.text (d.identifier n false)) ++ ")")

/-- The document of a query. -/
def Query.doc (d : Dialect) : Query → Bool → Nat → Outcome Doc
  | ⟨body, orderBy, limit, offset⟩, nested, depth => do
    if isPlain body orderBy limit offset then body.doc d nested depth
    else
      let body ← body.doc d true (depth + 2)
      let keys ← SortItem.docs d orderBy (depth + 1)
      let page ← pageClause (depth + 1) (Expression.optionDoc d limit (depth + 1))
        (Expression.optionDoc d offset (depth + 1))
      return "(" ++ Doc.seam (depth + 1) ++ "SELECT" ++ Doc.gap (depth + 2) ++ "*" ++
        Doc.gap (depth + 1) ++ "FROM" ++ Doc.gap (depth + 2) ++ body ++
        listClause "ORDER BY" (depth + 1) keys ++ page ++ Doc.seam depth ++ ")"

/-- The document of a query block, without parentheses. -/
def QuerySpecification.doc (d : Dialect) : QuerySpecification → Nat → Outcome Doc
  | ⟨⟨distinct, items⟩, sources, filter, groupBy, having, orderBy, limit, offset⟩, depth => do
    let limit := Expression.optionDoc d limit depth
    let offset := Expression.optionDoc d offset depth
    let top ← d.topClause limit offset
    let groups ← Expression.docs d groupBy (depth + 1)
    let keys ← SortItem.docs d orderBy depth
    let range ← d.rangeClause depth limit offset
    let items ← SelectItem.docs d items (depth + 1)
    let sources ← Relation.docs d sources (depth + 1)
    let filter ← optionally (fun f ↦ entryClause "WHERE" depth (some f))
      (Expression.optionDoc d filter (depth + 1))
    let having ← optionally (fun h ↦ entryClause "HAVING" depth (some h))
      (Expression.optionDoc d having (depth + 1))
    return "SELECT" ++ Doc.text (if distinct then " DISTINCT" else "") ++ top ++
      entries depth items ++ listClause "FROM" depth sources ++ filter ++
      listClause "GROUP BY" depth groups ++ having ++ d.orderClause depth keys offset.isSome ++
      range

/-- The document of an entry of the select list. -/
def SelectItem.doc (d : Dialect) : SelectItem → Nat → Outcome Doc
  | .allColumns none, _ => .ok "*"
  | .allColumns (some relation), _ => .ok (Doc.text (d.identifier relation false) ++ ".*")
  | .column label expression, depth => do
    let expression ← expression.doc d depth
    return match label with
      | some label => expression ++ " AS " ++ d.identifier label false
      | none => expression

/-- The document of a sort key. -/
def SortItem.doc (d : Dialect) : SortItem → Nat → Outcome Doc
  | ⟨key, ordering, nulls⟩, depth => do
    let key ← key.doc d (depth + 1)
    return key ++ sortWords ordering nulls

/-- The document of an expression. -/
def Expression.doc (d : Dialect) : Expression → Nat → Outcome Doc
  | .literal value, _ => .ok (d.literalDoc value)
  | .reference name, _ => .ok (d.nameDoc name)
  | .comparison operator left right, depth => do
    let left ← left.doc d depth
    let right ← right.doc d depth
    return infixDoc operator.symbol left right
  | .logical operator left right, depth => do
    let left ← left.doc d depth
    let right ← right.doc d depth
    return infixDoc operator.keyword left right
  | .not value, depth => do
    let inner ← value.doc d depth
    return match value with
      | .comparison _ _ _ | .logical _ _ _ => "NOT" ++ inner
      | _ => callDoc "NOT" [inner]
  | .arithmetic operator left right, depth => do
    let left ← left.doc d depth
    let right ← right.doc d depth
    return arithmeticDoc operator left right
  | .negative value, depth => do
    let inner ← value.doc d depth
    return if value.isLiteral then "-" ++ inner else infixDoc "-" "0" inner
  | .cast value columnType, depth => do
    let value ← value.doc d depth
    return "CAST(" ++ value ++ " AS " ++ columnType.doc ++ ")"
  | .list items, depth => do
    let items ← Expression.docs d items depth
    return "(" ++ Doc.commaSep items ++ ")"
  | .inPredicate value items, depth => do
    let value ← value.doc d depth
    let items ← items.doc d depth
    return value ++ " IN " ++ items
  | .isNull value, depth => do
    let value ← value.doc d depth
    return "(" ++ value ++ " IS NULL)"
  | .isNotNull value, depth => do
    let value ← value.doc d depth
    return "(" ++ value ++ " IS NOT NULL)"
  | .currentTime kind precision, _ => .ok (currentTimeDoc kind precision)
  | .extract field value, depth => do
    let value ← value.doc d depth
    return "EXTRACT(" ++ Doc.text field.keyword ++ " FROM " ++ value ++ ")"
  | .call function, depth => function.doc d depth
  | .namedArgument name value, depth => do
    let value ← value.doc d depth
    return Doc.text name ++ " => " ++ value
  | .searchedCase whenClauses otherwise, depth => do
    let branches ← WhenClause.docs d whenClauses depth
    let otherwise ← match Expression.optionDoc d otherwise (depth + 2) with
      | none => .ok none
      | some value => value.map some
    return caseDoc depth branches otherwise
  | .window nested window, depth => do
    let nested ← nested.doc d depth
    let window ← window.doc d depth
    return nested ++ " " ++ window
  | .subquery query, depth => query.doc d true depth
  | .constant token, _ => .ok token
  | .extension function, depth => function.doc d depth

/-- The document of a function call. -/
def FunctionCall.doc (d : Dialect) : FunctionCall → Nat → Outcome Doc
  | ⟨name, distinct, arguments, filter, window⟩, depth => do
    let arguments ← Expression.docs d arguments depth
    let filter ← optionally (fun f ↦ " FILTER (WHERE " ++ f ++ ")")
      (Expression.optionDoc d filter depth)
    let window ← optionally (fun w ↦ " " ++ w) (Window.optionDoc d window depth)
    return d.nameDoc name ++ "(" ++ Doc.text (if distinct then "DISTINCT " else "") ++
      Doc.commaSep arguments ++ ")" ++ filter ++ window

/-- The document of a branch. -/
def WhenClause.doc (d : Dialect) : WhenClause → Nat → Outcome Doc
  | ⟨operand, result⟩, depth => do
    let operand ← operand.doc d (depth + 2)
    let result ← result.doc d (depth + 2)
    return branchDoc depth operand result

/-- The document of a window. -/
def Window.doc (d : Dialect) : Window → Nat → Outcome Doc
  | ⟨some reference, _, _, _⟩, _ => .ok reference
  | ⟨none, partitions, orderBy, frame⟩, depth => do
    let partitions ← Expression.docs d partitions depth
    let keys ← SortItem.docs d orderBy depth
    let frame ← match WindowFrame.optionDoc d frame depth with
      | none => .ok none
      | some frame => frame.map some
    return overDoc partitions keys frame

/-- The document of a window frame. -/
def WindowFrame.doc (d : Dialect) : WindowFrame → Nat → Outcome Doc
  | ⟨mode, start, stop⟩, depth => do
    let start ← start.doc d depth
    match FrameBound.optionDoc d stop depth with
    | none => return Doc.text mode.keyword ++ " " ++ start
    | some stop => return Doc.text mode.keyword ++ " BETWEEN " ++ start ++ " AND " ++ (← stop)

/-- The document of a window bound. An integer offset with a unit is an interval. -/
def FrameBound.doc (d : Dialect) : FrameBound → Nat → Outcome Doc
  | ⟨kind, value, unit⟩, depth =>
    let offset : Outcome Doc := match value with
      | none => fail .boundWithoutValue
      | some value => match value, unit with
        | .literal (.integer amount), some unit => .ok (d.intervalDoc ⟨amount, unit⟩)
        | value, _ => value.doc d depth
    match kind with
    | .unboundedPreceding => .ok "UNBOUNDED PRECEDING"
    | .preceding => offset.map fun n ↦ n ++ " PRECEDING"
    | .currentRow => .ok "CURRENT ROW"
    | .following => offset.map fun n ↦ n ++ " FOLLOWING"
    | .unboundedFollowing => .ok "UNBOUNDED FOLLOWING"

/-- The document of a domain function. -/
def Extension.doc (d : Dialect) : Extension → Nat → Outcome Doc
  | .stringLength value, depth => do
    let value ← value.doc d depth
    return callDoc (if d.family = .transact then "LEN" else "CHAR_LENGTH") [value]
  | .stringLike value pattern, depth => do
    let value ← value.doc d depth
    let pattern ← pattern.doc d depth
    return infixDoc "LIKE" value pattern
  | .stringUpper value, depth => do
    let value ← value.doc d depth
    return callDoc "UPPER" [value]
  | .stringLower value, depth => do
    let value ← value.doc d depth
    return callDoc "LOWER" [value]
  | .stringTrim value kind, depth => do
    let value ← value.doc d depth
    return callDoc kind.function [value]
  | .stringPos value other, depth =>
    if d.family = .transact then do
      let other ← other.doc d depth
      let value ← value.doc d depth
      return callDoc "CHARINDEX" [other, value]
    else do
      let value ← value.doc d depth
      let other ← other.doc d depth
      return callDoc "STRPOS" [value, other]
  | .stringConcat first second, depth => do
    let first ← first.doc d depth
    let second ← second.doc d depth
    return callDoc "CONCAT" [first, second]
  | .math function value, depth => do
    let value ← value.doc d depth
    return callDoc function.function [value]
  | .power first second, depth => do
    let first ← first.doc d depth
    let second ← second.doc d depth
    return callDoc "POWER" [first, second]
  | .remainder first second, depth => do
    let first ← first.doc d depth
    let second ← second.doc d depth
    return callDoc "MOD" [first, second]
  | .round value scale, depth => match scale with
    | none | some (.literal (.integer 0)) => do
      let value ← value.doc d depth
      return callDoc "ROUND" [value]
    | some (.literal (.integer scale)) => do
      let value ← value.doc d depth
      return callDoc "ROUND" [value, intDoc scale]
    | some scale => fail (.roundScale scale)
  | .arcTan2 first second, depth => do
    let first ← first.doc d depth
    let second ← second.doc d depth
    return callDoc "ATAN2" [first, second]
  | .aggregate .distinctCount value, depth => do
    let value ← value.doc d depth
    return callDoc "COUNT" ["DISTINCT " ++ value]
  | .aggregate function value, depth => do
    let value ← value.doc d depth
    return callDoc function.function [value]
  | .joinStrings value separator, depth => do
    let value ← value.doc d depth
    let separator ← separator.doc d depth
    return callDoc "STRING_AGG" [value, separator]
  | .dateTrunc part value, depth => do
    let value ← value.doc d depth
    return callDoc "DATE_TRUNC" [Doc.text ("'" ++ part.unit ++ "'"), value]
  | .datePart field value, depth => do
    let value ← value.doc d depth
    return if d.family = .transact then callDoc "DATEPART" [Doc.text field.unit, value]
      else callDoc "DATE_PART" [Doc.text ("'" ++ field.unit ++ "'"), value]
  | .dateAdjust value interval, depth => do
    let value ← value.doc d depth
    return if d.family = .transact then
        callDoc "DATEADD" [Doc.text interval.unit.keyword, intDoc interval.amount, value]
      else infixDoc "+" value (d.intervalDoc interval)

/-- The documents of relations that a query block reads from. -/
def Relation.docs (d : Dialect) : List Relation → Nat → Outcome (List Doc)
  | [], _ => .ok []
  | relation :: rest, depth => do
    let relation ← relation.doc d false depth
    return relation :: (← Relation.docs d rest depth)

/-- The documents of entries of a select list. -/
def SelectItem.docs (d : Dialect) : List SelectItem → Nat → Outcome (List Doc)
  | [], _ => .ok []
  | item :: rest, depth => do
    let item ← item.doc d depth
    return item :: (← SelectItem.docs d rest depth)

/-- The documents of sort keys. -/
def SortItem.docs (d : Dialect) : List SortItem → Nat → Outcome (List Doc)
  | [], _ => .ok []
  | item :: rest, depth => do
    let item ← item.doc d depth
    return item :: (← SortItem.docs d rest depth)

/-- The documents of expressions. -/
def Expression.docs (d : Dialect) : List Expression → Nat → Outcome (List Doc)
  | [], _ => .ok []
  | expression :: rest, depth => do
    let expression ← expression.doc d depth
    return expression :: (← Expression.docs d rest depth)

/-- The documents of branches. -/
def WhenClause.docs (d : Dialect) : List WhenClause → Nat → Outcome (List Doc)
  | [], _ => .ok []
  | clause :: rest, depth => do
    let clause ← clause.doc d depth
    return clause :: (← WhenClause.docs d rest depth)

/-- The document of an optional expression. -/
def Expression.optionDoc (d : Dialect) : Option Expression → Nat → Option (Outcome Doc)
  | none, _ => none
  | some expression, depth => some (expression.doc d depth)

/-- The document of optional criteria. -/
def JoinCriteria.optionDoc (d : Dialect) : Option JoinCriteria → Nat → Option (Outcome Doc)
  | none, _ => none
  | some criteria, depth => some (criteria.doc d depth)

/-- The document of an optional window. -/
def Window.optionDoc (d : Dialect) : Option Window → Nat → Option (Outcome Doc)
  | none, _ => none
  | some window, depth => some (window.doc d depth)

/-- The document of an optional window frame. -/
def WindowFrame.optionDoc (d : Dialect) : Option WindowFrame → Nat → Option (Outcome Doc)
  | none, _ => none
  | some frame, depth => some (frame.doc d depth)

/-- The document of an optional bound. -/
def FrameBound.optionDoc (d : Dialect) : Option FrameBound → Nat → Option (Outcome Doc)
  | none, _ => none
  | some bound, depth => some (bound.doc d depth)

end

/-- The select list, without `DISTINCT`. -/
def Select.doc (d : Dialect) (select : Select) (depth : Nat) : Outcome Doc :=
  (SelectItem.docs d select.items (depth + 1)).map (entries depth)

namespace QuerySpecification

/-- The number of rows, where the dialect puts it before the select list. -/
def topDoc (d : Dialect) (query : QuerySpecification) (depth : Nat) : Outcome Doc :=
  d.topClause (Expression.optionDoc d query.limit depth) (Expression.optionDoc d query.offset depth)

/-- The range of rows, where the dialect puts it at the end. -/
def limitDoc (d : Dialect) (query : QuerySpecification) (depth : Nat) : Outcome Doc :=
  d.rangeClause depth (Expression.optionDoc d query.limit depth)
    (Expression.optionDoc d query.offset depth)

/-- The grouping of rows. -/
def groupByDoc (d : Dialect) (query : QuerySpecification) (depth : Nat) : Outcome Doc :=
  (Expression.docs d query.groupBy (depth + 1)).map (listClause "GROUP BY" depth)

/-- The order of rows. -/
def orderByDoc (d : Dialect) (query : QuerySpecification) (depth : Nat) : Outcome Doc :=
  (SortItem.docs d query.orderBy depth).map fun keys ↦
    d.orderClause depth keys query.offset.isSome

/-- The text of a query block. -/
def render (query : QuerySpecification) (d : Dialect) (format : Format) : Outcome String :=
  (query.doc d 0).map format.layout.render

end QuerySpecification

end FrameQuery.Sql
