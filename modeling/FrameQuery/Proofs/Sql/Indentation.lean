import FrameQuery.Proofs.Outcome
import FrameQuery.Proofs.Text.Indentation
import FrameQuery.Sql.Rendering
import FrameQuery.Sql.Tree

/-!
# Lines of rendered statements

Line breaks get into the text of a statement at the breaks between its clauses, and from names,
tokens and texts that hold some. If no text in the tree of a node does, and the dialect does not use
line breaks as quotes, the lines of the node's document end at its breaks only. This is proved node
by node; each construct puts words and breaks around the documents of its parts.
-/

namespace FrameQuery.Sql

open Outcome (Gives)
open Doc (Lined)

/-! ### The texts of a node -/

namespace Tree

mutual

/-- Something holds of all texts in a tree. -/
def AllTexts (holds : String → Prop) : Tree → Prop
  | .text value => holds value
  | .boolean _ | .integer _ | .double _ | .absent | .unit _ => True
  | .present value => value.AllTexts holds
  | .list items => AllItemTexts holds items
  | .record _ fields => AllFieldTexts holds fields
  | .wrapped _ content => content.AllTexts holds
  | .variant _ fields => AllFieldTexts holds fields

/-- Something holds of all texts in a list of trees. -/
def AllItemTexts (holds : String → Prop) : List Tree → Prop
  | [] => True
  | item :: rest => item.AllTexts holds ∧ AllItemTexts holds rest

/-- Something holds of all texts in the fields of a record. -/
def AllFieldTexts (holds : String → Prop) : List (String × Tree) → Prop
  | [] => True
  | (_, value) :: rest => value.AllTexts holds ∧ AllFieldTexts holds rest

end

variable {holds : String → Prop}

/-- The texts of a list. -/
theorem allTexts_texts {values : List String} :
    (texts values).AllTexts holds ↔ ∀ value ∈ values, holds value := by
  rw [texts, AllTexts]
  induction values with
  | nil => simp [AllItemTexts]
  | cons value values ih =>
    rw [List.map_cons, AllItemTexts, AllTexts, ih, List.forall_mem_cons]

end Tree

variable {d : Dialect}

/-! ### Parts of statements -/

section Parts

variable {left right inner : Doc} {docs : List Doc}

/-- The decimal text of an integer. -/
theorem lined_intDoc (n : Int64) : (intDoc n).Lined := .text (Int.numeric _).oneLine

/-- A document between parentheses. -/
theorem lined_parens (depth : Nat) (h : inner.Lined) : (parens depth inner).Lined :=
  ((((Lined.seam _).before "(" (by decide)).append h).append (.seam _)).behind ")" (by decide)

/-- A call. -/
theorem lined_callDoc {function : String} (hf : OneLine function) (h : ∀ doc ∈ docs, doc.Lined) :
    (callDoc function docs).Lined :=
  (((Lined.text hf).behind "(" (by decide)).append (.commaSep h)).behind ")" (by decide)

/-- A call with one argument. -/
theorem lined_call₁ {function : String} (hf : OneLine function) (h : inner.Lined) :
    (callDoc function [inner]).Lined := lined_callDoc hf (List.forall_mem_singleton.mpr h)

/-- A call with two arguments. -/
theorem lined_call₂ {function : String} (hf : OneLine function) (hl : left.Lined)
    (hr : right.Lined) : (callDoc function [left, right]).Lined :=
  lined_callDoc hf (List.forall_mem_cons.mpr ⟨hl, List.forall_mem_singleton.mpr hr⟩)

/-- An operation in parentheses. -/
theorem lined_infixDoc {word : String} (hw : OneLine word) (hl : left.Lined) (hr : right.Lined) :
    (infixDoc word left right).Lined :=
  (((((hl.before "(" (by decide)).behind " " (by decide)).behind word hw).behind " "
    (by decide)).append hr).behind ")" (by decide)

/-- Entries of a clause. -/
theorem lined_entries (depth : Nat) (h : ∀ doc ∈ docs, doc.Lined) : (entries depth docs).Lined :=
  (Lined.gap _).append (.sepBy ((Lined.gap _).before "," (by decide)) h)

/-- A clause of entries. -/
theorem lined_listClause (keyword : String) (hk : OneLine keyword) (depth : Nat)
    (h : ∀ doc ∈ docs, doc.Lined) : (listClause keyword depth docs).Lined := by
  rw [listClause]
  split
  · exact .nil
  · exact ((Lined.gap _).behind keyword hk).append (lined_entries depth h)

/-- A clause with one entry. -/
theorem lined_entryClause {keyword : String} (hk : OneLine keyword) (depth : Nat)
    (h : inner.Lined) : (entryClause keyword depth (some inner)).Lined :=
  ((Lined.gap _).behind keyword hk).append (lined_entries depth (List.forall_mem_singleton.mpr h))

/-- A case distinction. -/
theorem lined_caseDoc (depth : Nat) {otherwise : Option Doc} (h : ∀ doc ∈ docs, doc.Lined)
    (ho : ∀ doc ∈ otherwise, doc.Lined) : (caseDoc depth docs otherwise).Lined := by
  have branches := ((Lined.gap (depth + 1)).before "CASE" (by decide)).append
    (.sepBy (.gap (depth + 1)) h)
  have last {rest : Doc} (hr : rest.Lined) :=
    ((branches.append hr).append (Lined.gap depth)).behind "END" (by decide)
  cases otherwise with
  | none => exact last .nil
  | some value =>
    exact last ((((Lined.gap _).behind "ELSE" (by decide)).append (.gap _)).append (ho value rfl))

/-- A branch of a case distinction. -/
theorem lined_branchDoc (depth : Nat) (hl : left.Lined) (hr : right.Lined) :
    (branchDoc depth left right).Lined :=
  ((((((Lined.gap _).before "WHEN" (by decide)).append hl).append (.gap _)).behind "THEN"
    (by decide)).append (.gap _)).append hr

/-- An arithmetic operation. -/
theorem lined_arithmeticDoc (operator : ArithmeticOperator) (hl : left.Lined) (hr : right.Lined) :
    (arithmeticDoc operator left right).Lined := by
  cases operator with
  | divide =>
    exact lined_infixDoc (by decide) (lined_infixDoc (by decide) (.text (by decide)) hl) hr
  | modulus =>
    exact lined_call₂ (by decide) hl hr
  | add | subtract | multiply => exact lined_infixDoc (by decide) hl hr

/-- The current time. -/
theorem lined_currentTimeDoc (kind : CurrentTimeKind) (precision : Option UInt32) :
    (currentTimeDoc kind precision).Lined := by
  have number (n : Nat) : OneLine ("(" ++ toString n ++ ")") :=
    ((by decide : OneLine "(").append (Int.numeric n).oneLine).append (by decide)
  cases kind with
  | date => exact .text (by decide)
  | time | timestamp =>
    cases precision with
    | none => exact Lined.nil.before _ (by decide)
    | some p => exact (Lined.text (number p.toNat)).before _ (by decide)

/-- A cast's type. -/
theorem ColumnType.lined_doc {type : ColumnType} (h : OneLine type.name) : type.doc.Lined := by
  rw [doc]
  split
  · exact .text h
  · exact lined_callDoc h (List.forall_mem_map.mpr fun n _ ↦ lined_intDoc n)

/-- A window that is not defined elsewhere. -/
theorem lined_overDoc {partitions orderBy : List Doc} {frame : Option Doc}
    (hp : ∀ doc ∈ partitions, doc.Lined) (ho : ∀ doc ∈ orderBy, doc.Lined)
    (hf : ∀ doc ∈ frame, doc.Lined) : (overDoc partitions orderBy frame).Lined := by
  have part {keyword : String} (hk : OneLine keyword) {docs : List Doc}
      (h : ∀ doc ∈ docs, doc.Lined) : ∀ doc ∈ (if docs.isEmpty then [] else
        [Doc.text keyword ++ Doc.commaSep docs] : List Doc), doc.Lined := by
    split
    · exact List.forall_mem_nil _
    · exact List.forall_mem_singleton.mpr ((Lined.commaSep h).before keyword hk)
  refine .behind (.before "OVER (" (by decide) (.sepBy (.text (by decide)) ?_)) ")" (by decide)
  rw [List.forall_mem_append, List.forall_mem_append]
  exact ⟨⟨part (by decide) hp, part (by decide) ho⟩, fun doc hd ↦ hf doc (by simpa using hd)⟩

/-- An optional part. -/
theorem gives_lined_optionally {write : Doc → Doc} {part : Option (Outcome Doc)}
    (h : ∀ x ∈ part, Gives x Lined) (hw : ∀ doc : Doc, doc.Lined → (write doc).Lined) :
    Gives (optionally write part) Lined := by
  cases part with
  | none => exact .ok .nil
  | some x => exact (h x rfl).map hw

/-- A construct with a part that may be absent. -/
theorem gives_lined_option {write : Option Doc → Doc} {part : Option (Outcome Doc)}
    (h : ∀ x ∈ part, Gives x Lined)
    (hw : ∀ doc : Option Doc, (∀ inner ∈ doc, inner.Lined) → (write doc).Lined) :
    Gives (match part with
      | none => Except.ok none >>= fun doc ↦ .ok (write doc)
      | some x => Except.map some x >>= fun doc ↦ .ok (write doc)) Lined := by
  cases part with
  | none => exact .ok (hw none nofun)
  | some x =>
    have present : Gives (x.map some) fun doc ↦ ∀ inner ∈ doc, Lined inner :=
      (h x rfl).map fun doc hd inner hi ↦ Option.some.inj hi ▸ hd
    exact present.bind fun doc hd ↦ .ok (hw doc hd)

/-- A range of rows as `LIMIT` and `OFFSET`. -/
theorem gives_lined_pageClause (depth : Nat) {limit offset : Option (Outcome Doc)}
    (hl : ∀ x ∈ limit, Gives x Lined) (ho : ∀ x ∈ offset, Gives x Lined) :
    Gives (pageClause depth limit offset) Lined := by
  have word {keyword : String} (hk : OneLine keyword) (doc : Doc) (h : doc.Lined) :
      (Doc.gap depth ++ Doc.text keyword ++ doc).Lined :=
    ((Lined.gap depth).behind keyword hk).append h
  refine (gives_lined_optionally hl (word (by decide))).bind fun _ hl ↦ ?_
  exact (gives_lined_optionally ho (word (by decide))).bind fun _ ho ↦ .ok (hl.append ho)

end Parts

namespace Dialect

/-- The number of rows before the select list. -/
theorem gives_lined_topClause {limit offset : Option (Outcome Doc)}
    (hl : ∀ x ∈ limit, Gives x Lined) : Gives (d.topClause limit offset) Lined := by
  rw [topClause.eq_def]
  split
  · next limit _ => exact (hl limit rfl).map fun _ h ↦ h.before " TOP " (by decide)
  · exact .ok .nil

/-- The range of rows at the end. -/
theorem gives_lined_rangeClause (depth : Nat) {limit offset : Option (Outcome Doc)}
    (hl : ∀ x ∈ limit, Gives x Lined) (ho : ∀ x ∈ offset, Gives x Lined) :
    Gives (d.rangeClause depth limit offset) Lined := by
  rw [rangeClause.eq_def]
  split
  · exact gives_lined_pageClause depth hl ho
  · exact .ok .nil
  · next offset _ =>
    refine (ho offset rfl).bind fun _ ho ↦ ?_
    have fetch (doc : Doc) (h : doc.Lined) :
        (Doc.gap depth ++ "FETCH NEXT " ++ doc ++ " ROWS ONLY" : Doc).Lined :=
      (((Lined.gap depth).behind "FETCH NEXT " (by decide)).append h).behind _ (by decide)
    refine (gives_lined_optionally hl fetch).bind fun _ hf ↦ .ok ?_
    exact ((((Lined.gap depth).behind "OFFSET " (by decide)).append ho).behind _
      (by decide)).append hf

/-- The order of rows. -/
theorem lined_orderClause (depth : Nat) {keys : List Doc} (skipping : Bool)
    (h : ∀ doc ∈ keys, doc.Lined) : (d.orderClause depth keys skipping).Lined := by
  rw [orderClause]
  split
  · exact (Lined.gap depth).behind _ (by decide)
  · exact lined_listClause _ (by decide) depth h

/-- A span of time. -/
theorem lined_intervalDoc (interval : IntervalLiteral) : (d.intervalDoc interval).Lined := by
  have unit : OneLine interval.unit.keyword := by cases interval.unit <;> decide
  have span : (intDoc interval.amount ++ " " ++ interval.unit.keyword : Doc).Lined :=
    ((lined_intDoc _).behind " " (by decide)).behind _ unit
  rw [intervalDoc]
  split
  · exact (span.before "INTERVAL '" (by decide)).behind "'" (by decide)
  · exact span.before "INTERVAL " (by decide)

/-- A constant. -/
theorem lined_literalDoc {value : Literal} (h : value.tree.AllTexts OneLine) :
    (d.literalDoc value).Lined := by
  cases value with
  | boolean value => cases value <;> exact .text (by decide)
  | integer value => exact lined_intDoc value
  | double value => exact .text value.numeric.oneLine
  | string value quoted =>
    cases quoted with
    | true => exact .text h.1
    | false => exact .text (.doubled (by decide) h.1)
  | null => exact .text (by decide)
  | interval span => exact d.lined_intervalDoc span

section

variable (hq : d.quote ≠ '\n')

include hq

/-- An identifier. -/
theorem oneLine_identifier {name : String} (h : OneLine name) (forced : Bool) :
    OneLine (d.identifier name forced) := by
  rw [identifier]
  split
  · exact .doubled hq h
  · exact h

/-- A qualified name. -/
theorem lined_nameDoc {name : QualifiedName} (h : name.tree.AllTexts OneLine) :
    (d.nameDoc name).Lined := by
  refine .sepBy (.text (by decide)) (List.forall_mem_map.mpr fun part member ↦ .text ?_)
  exact oneLine_identifier hq (Tree.allTexts_texts.mp h.1 part member) false

end

end Dialect

/-! ### Nodes -/

section Nodes

-- The dialect is used through the recursion wherever names are written.
set_option linter.unusedSectionVars false

variable (hq : d.quote ≠ '\n')

include hq

mutual

/-- A relation. -/
theorem Relation.lined_doc : ∀ (relation : Relation) (nested : Bool) (depth : Nat),
    relation.tree.AllTexts OneLine → Gives (relation.doc d nested depth) Lined
  | .table _, _, _, ⟨h, _⟩ => .ok (Dialect.lined_nameDoc hq h)
  | .aliased relation _ _, nested, depth, ⟨hr, hc, _⟩ =>
    (relation.lined_doc nested depth hr).bind fun _ hr ↦
      .ok ((hr.behind " AS " (by decide)).behind _ (Dialect.oneLine_identifier hq hc false))
  | .subquery query, _, depth, ⟨h, _⟩ => query.lined_doc true depth h
  | .join kind left right criteria, _, depth, ⟨_, hl, hr, hc, _⟩ => by
    have word : OneLine kind.keyword := by cases kind <;> decide
    refine (left.lined_doc false depth hl).bind fun _ hl ↦ ?_
    refine (right.lined_doc false (depth + 1) hr).bind fun _ hr ↦ ?_
    have sides := ((((hl.append (.gap depth)).behind _ word).append (.gap (depth + 1))).append hr)
    refine (gives_lined_optionally (JoinCriteria.lined_optionDoc criteria depth hc)
      fun _ hc ↦ (Lined.gap (depth + 1)).append hc).bind fun _ hc ↦ .ok (sides.append hc)
  | .function call, _, depth, ⟨h, _⟩ => call.lined_doc depth h
  | .union left right distinct, nested, depth, ⟨hl, hr, _⟩ => by
    have word : OneLine (if distinct then "UNION" else "UNION ALL") := by
      cases distinct <;> decide
    rw [Relation.doc]
    refine (left.lined_doc true _ hl).bind fun _ hl ↦ ?_
    refine (right.lined_doc true _ hr).bind fun _ hr ↦ .ok ?_
    have both (inside : Nat) :=
      ((((hl.append (.gap inside)).behind _ word).append (.gap inside)).append hr)
    split
    · exact lined_parens depth (both _)
    · exact both _
  | .specification query, nested, depth, h => by
    rw [Relation.doc]
    split
    · exact (query.lined_doc (depth + 1) h).bind fun _ hd ↦ .ok (lined_parens depth hd)
    · exact query.lined_doc depth h

/-- The criteria of a join. -/
theorem JoinCriteria.lined_doc : ∀ (criteria : JoinCriteria) (depth : Nat),
    criteria.tree.AllTexts OneLine → Gives (criteria.doc d depth) Lined
  | .condition holds, depth, h => (holds.lined_doc depth h).bind fun _ hd ↦
    .ok (((hd.stripOuterParens _).before "ON (" (by decide)).behind ")" (by decide))
  | .columns names, _, h => by
    have columns : ∀ doc ∈ names.map fun n ↦ Doc.text (d.identifier n false), doc.Lined :=
      List.forall_mem_map.mpr fun name member ↦ .text
        (Dialect.oneLine_identifier hq (Tree.allTexts_texts.mp h name member) false)
    exact .ok (((Lined.commaSep columns).before "USING (" (by decide)).behind ")" (by decide))

/-- A query. -/
theorem Query.lined_doc : ∀ (query : Query) (nested : Bool) (depth : Nat),
    query.tree.AllTexts OneLine → Gives (query.doc d nested depth) Lined
  | ⟨body, orderBy, limit, offset⟩, nested, depth, ⟨hb, hk, hl, ho, _⟩ => by
    rw [Query.doc]
    split
    · exact body.lined_doc nested depth hb
    · refine (body.lined_doc true (depth + 2) hb).bind fun _ hb ↦ ?_
      refine (SortItem.lined_docs orderBy (depth + 1) hk).bind fun _ hk ↦ ?_
      refine (gives_lined_pageClause (depth + 1) (Expression.lined_optionDoc limit (depth + 1) hl)
        (Expression.lined_optionDoc offset (depth + 1) ho)).bind fun _ hp ↦ .ok ?_
      have select := ((((Lined.seam (depth + 1)).before "(" (by decide)).behind "SELECT"
        (by decide)).append (.gap (depth + 2))).behind "*" (by decide)
      have from_ := (((select.append (.gap (depth + 1))).behind "FROM" (by decide)).append
        (.gap (depth + 2))).append hb
      have keys := from_.append (lined_listClause "ORDER BY" (by decide) (depth + 1) hk)
      exact ((keys.append hp).append (.seam depth)).behind ")" (by decide)

/-- A query block. -/
theorem QuerySpecification.lined_doc : ∀ (query : QuerySpecification) (depth : Nat),
    query.tree.AllTexts OneLine → Gives (query.doc d depth) Lined
  | ⟨⟨distinct, items⟩, sources, filter, groupBy, having_, orderBy, limit, offset⟩, depth,
      ⟨⟨_, hi, _⟩, hs, hf, hg, hh, hk, hl, ho, _⟩ => by
    have words : OneLine (if distinct then " DISTINCT" else "") := by cases distinct <;> decide
    have limits := Expression.lined_optionDoc limit depth hl
    have offsets := Expression.lined_optionDoc offset depth ho
    have clause {keyword : String} (hk : OneLine keyword) (doc : Doc) (h : doc.Lined) :=
      lined_entryClause hk depth h
    rw [QuerySpecification.doc]
    refine (Dialect.gives_lined_topClause limits).bind fun _ ht ↦ ?_
    refine (Expression.lined_docs groupBy (depth + 1) hg).bind fun _ hg ↦ ?_
    refine (SortItem.lined_docs orderBy depth hk).bind fun _ hk ↦ ?_
    refine (Dialect.gives_lined_rangeClause depth limits offsets).bind fun _ hr ↦ ?_
    refine (SelectItem.lined_docs items (depth + 1) hi).bind fun _ hi ↦ ?_
    refine (Relation.lined_docs sources (depth + 1) hs).bind fun _ hs ↦ ?_
    refine (gives_lined_optionally (Expression.lined_optionDoc filter (depth + 1) hf)
      (clause (by decide))).bind fun _ hf ↦ ?_
    refine (gives_lined_optionally (Expression.lined_optionDoc having_ (depth + 1) hh)
      (clause (by decide))).bind fun _ hh ↦ .ok ?_
    have select := (((Lined.text words).before "SELECT" (by decide)).append ht).append
      (lined_entries depth hi)
    have rows := (select.append (lined_listClause "FROM" (by decide) depth hs)).append hf
    have groups := (rows.append (lined_listClause "GROUP BY" (by decide) depth hg)).append hh
    exact (groups.append (Dialect.lined_orderClause depth _ hk)).append hr

/-- An entry of the select list. -/
theorem SelectItem.lined_doc : ∀ (item : SelectItem) (depth : Nat),
    item.tree.AllTexts OneLine → Gives (item.doc d depth) Lined
  | .allColumns none, _, _ => .ok (.text (by decide))
  | .allColumns (some _), _, ⟨h, _⟩ =>
    .ok ((Lined.text (Dialect.oneLine_identifier hq h false)).behind ".*" (by decide))
  | .column none expression, depth, ⟨_, hx, _⟩ =>
    (expression.lined_doc depth hx).bind fun _ hx ↦ .ok hx
  | .column (some _) expression, depth, ⟨hl, hx, _⟩ =>
    (expression.lined_doc depth hx).bind fun _ hx ↦
      .ok ((hx.behind " AS " (by decide)).behind _ (Dialect.oneLine_identifier hq hl false))

/-- A sort key. -/
theorem SortItem.lined_doc : ∀ (item : SortItem) (depth : Nat),
    item.tree.AllTexts OneLine → Gives (item.doc d depth) Lined
  | ⟨key, ordering, nulls⟩, depth, ⟨h, _⟩ => by
    have words : OneLine (sortWords ordering nulls) := by cases ordering <;> cases nulls <;> decide
    exact (key.lined_doc (depth + 1) h).bind fun _ hk ↦ .ok (hk.behind _ words)

/-- An expression. -/
theorem Expression.lined_doc : ∀ (x : Expression) (depth : Nat),
    x.tree.AllTexts OneLine → Gives (x.doc d depth) Lined
  | .literal _, _, h => .ok (Dialect.lined_literalDoc h)
  | .reference _, _, h => .ok (Dialect.lined_nameDoc hq h)
  | .comparison operator left right, depth, ⟨_, hl, hr, _⟩ => by
    have word : OneLine operator.symbol := by cases operator <;> decide
    exact (left.lined_doc depth hl).bind fun _ hl ↦ (right.lined_doc depth hr).bind fun _ hr ↦
      .ok (lined_infixDoc word hl hr)
  | .logical operator left right, depth, ⟨_, hl, hr, _⟩ => by
    have word : OneLine operator.keyword := by cases operator <;> decide
    exact (left.lined_doc depth hl).bind fun _ hl ↦ (right.lined_doc depth hr).bind fun _ hr ↦
      .ok (lined_infixDoc word hl hr)
  | .not value, depth, h => by
    rw [Expression.doc]
    refine (value.lined_doc depth h).bind fun _ hv ↦ ?_
    split
    · exact .ok (hv.before "NOT" (by decide))
    · exact .ok (hv.before "NOT" (by decide))
    · exact .ok (lined_call₁ (by decide) hv)
  | .arithmetic operator left right, depth, ⟨_, hl, hr, _⟩ =>
    (left.lined_doc depth hl).bind fun _ hl ↦ (right.lined_doc depth hr).bind fun _ hr ↦
      .ok (lined_arithmeticDoc operator hl hr)
  | .negative value, depth, h => by
    rw [Expression.doc]
    refine (value.lined_doc depth h).bind fun _ hv ↦ .ok ?_
    split
    · exact hv.before "-" (by decide)
    · exact lined_infixDoc (by decide) (.text (by decide)) hv
  | .cast value _, depth, ⟨hv, ⟨ht, _⟩, _⟩ => (value.lined_doc depth hv).bind fun _ hv ↦
    .ok ((((hv.before "CAST(" (by decide)).behind " AS " (by decide)).append
      (ColumnType.lined_doc ht)).behind ")" (by decide))
  | .list items, depth, h => (Expression.lined_docs items depth h).bind fun _ hi ↦
    .ok (((Lined.commaSep hi).before "(" (by decide)).behind ")" (by decide))
  | .inPredicate value items, depth, ⟨hv, hi, _⟩ =>
    (value.lined_doc depth hv).bind fun _ hv ↦ (items.lined_doc depth hi).bind fun _ hi ↦
      .ok ((hv.behind " IN " (by decide)).append hi)
  | .isNull value, depth, h => (value.lined_doc depth h).bind fun _ hv ↦
    .ok ((hv.before "(" (by decide)).behind " IS NULL)" (by decide))
  | .isNotNull value, depth, h => (value.lined_doc depth h).bind fun _ hv ↦
    .ok ((hv.before "(" (by decide)).behind " IS NOT NULL)" (by decide))
  | .currentTime kind precision, _, _ => .ok (lined_currentTimeDoc kind precision)
  | .extract field value, depth, ⟨_, hv, _⟩ => by
    have word : OneLine field.keyword := by cases field <;> decide
    exact (value.lined_doc depth hv).bind fun _ hv ↦
      .ok (((((Lined.text word).before "EXTRACT(" (by decide)).behind " FROM "
        (by decide)).append hv).behind ")" (by decide))
  | .call function, depth, h => function.lined_doc depth h
  | .namedArgument _ value, depth, ⟨hn, hv, _⟩ => (value.lined_doc depth hv).bind fun _ hv ↦
    .ok (((Lined.text hn).behind " => " (by decide)).append hv)
  | .searchedCase whenClauses otherwise, depth, ⟨hw, ho, _⟩ => by
    rw [Expression.doc]
    refine (WhenClause.lined_docs whenClauses depth hw).bind fun _ hw ↦ ?_
    exact gives_lined_option (Expression.lined_optionDoc otherwise (depth + 2) ho)
      fun _ ho ↦ lined_caseDoc depth hw ho
  | .window nested window, depth, ⟨hn, hw, _⟩ =>
    (nested.lined_doc depth hn).bind fun _ hn ↦ (window.lined_doc depth hw).bind fun _ hw ↦
      .ok ((hn.behind " " (by decide)).append hw)
  | .subquery query, depth, h => query.lined_doc true depth h
  | .constant _, _, h => .ok (.text h)
  | .extension function, depth, h => function.lined_doc depth h

/-- A function call. -/
theorem FunctionCall.lined_doc : ∀ (call : FunctionCall) (depth : Nat),
    call.tree.AllTexts OneLine → Gives (call.doc d depth) Lined
  | ⟨name, distinct, arguments, filter, window⟩, depth, ⟨hn, _, ha, hf, hw, _⟩ => by
    have word : OneLine (if distinct then "DISTINCT " else "") := by cases distinct <;> decide
    refine (Expression.lined_docs arguments depth ha).bind fun _ ha ↦ ?_
    refine (gives_lined_optionally (Expression.lined_optionDoc filter depth hf) fun _ h ↦
      (h.before " FILTER (WHERE " (by decide)).behind ")" (by decide)).bind fun _ hf ↦ ?_
    refine (gives_lined_optionally (Window.lined_optionDoc window depth hw) fun _ h ↦
      h.before " " (by decide)).bind fun _ hw ↦ .ok ?_
    have called := ((((Dialect.lined_nameDoc hq hn).behind "(" (by decide)).behind _ word).append
      (.commaSep ha)).behind ")" (by decide)
    exact (called.append hf).append hw

/-- A branch. -/
theorem WhenClause.lined_doc : ∀ (clause : WhenClause) (depth : Nat),
    clause.tree.AllTexts OneLine → Gives (clause.doc d depth) Lined
  | ⟨operand, result⟩, depth, ⟨ho, hr, _⟩ =>
    (operand.lined_doc (depth + 2) ho).bind fun _ ho ↦
      (result.lined_doc (depth + 2) hr).bind fun _ hr ↦ .ok (lined_branchDoc depth ho hr)

/-- A window. -/
theorem Window.lined_doc : ∀ (window : Window) (depth : Nat),
    window.tree.AllTexts OneLine → Gives (window.doc d depth) Lined
  | ⟨some _, _, _, _⟩, _, ⟨h, _⟩ => .ok (.text h)
  | ⟨none, partitions, orderBy, frame⟩, depth, ⟨_, hp, ho, hf, _⟩ => by
    rw [Window.doc]
    refine (Expression.lined_docs partitions depth hp).bind fun _ hp ↦ ?_
    refine (SortItem.lined_docs orderBy depth ho).bind fun _ ho ↦ ?_
    exact gives_lined_option (WindowFrame.lined_optionDoc frame depth hf)
      fun _ hf ↦ lined_overDoc hp ho hf

/-- A window frame. -/
theorem WindowFrame.lined_doc : ∀ (frame : WindowFrame) (depth : Nat),
    frame.tree.AllTexts OneLine → Gives (frame.doc d depth) Lined
  | ⟨mode, start, stop⟩, depth, ⟨_, hs, he, _⟩ => by
    have word : OneLine mode.keyword := by cases mode <;> decide
    rw [WindowFrame.doc]
    refine (start.lined_doc depth hs).bind fun _ hs ↦ ?_
    cases stop with
    | none => exact .ok (((Lined.text word).behind " " (by decide)).append hs)
    | some stop =>
      refine (stop.lined_doc depth he).bind fun _ he ↦ .ok ?_
      exact ((((Lined.text word).behind " BETWEEN " (by decide)).append hs).behind " AND "
        (by decide)).append he

/-- A window bound. -/
theorem FrameBound.lined_doc : ∀ (bound : FrameBound) (depth : Nat),
    bound.tree.AllTexts OneLine → Gives (bound.doc d depth) Lined
  | ⟨kind, value, unit⟩, depth, ⟨_, h, _⟩ => by
    have words : ∀ {text : String}, OneLine text → Gives (.ok (Doc.text text)) Lined :=
      fun hw ↦ .ok (.text hw)
    have offset : Gives (match value with
        | none => fail .boundWithoutValue
        | some value => match value, unit with
          | .literal (.integer amount), some unit => .ok (d.intervalDoc ⟨amount, unit⟩)
          | value, _ => value.doc d depth) Lined := by
      cases value with
      | none => exact fun _ made ↦ absurd made Outcome.fail_ne_ok
      | some value =>
        dsimp only
        split
        · exact .ok (Dialect.lined_intervalDoc _)
        · exact value.lined_doc depth h
    rw [FrameBound.doc.eq_def]
    cases kind with
    | unboundedPreceding | currentRow | unboundedFollowing => exact words (by decide)
    | preceding | following => exact offset.map fun _ ho ↦ ho.behind _ (by decide)

/-- A domain function. -/
theorem Extension.lined_doc : ∀ (function : Extension) (depth : Nat),
    function.tree.AllTexts OneLine → Gives (function.doc d depth) Lined
  | .stringLength value, depth, h => (value.lined_doc depth h).bind fun _ hv ↦ by
    have word : OneLine (if d.family = .transact then "LEN" else "CHAR_LENGTH") := by
      split <;> decide
    exact .ok (lined_call₁ word hv)
  | .stringLike value pattern, depth, ⟨hv, hp, _⟩ =>
    (value.lined_doc depth hv).bind fun _ hv ↦ (pattern.lined_doc depth hp).bind fun _ hp ↦
      .ok (lined_infixDoc (by decide) hv hp)
  | .stringUpper value, depth, h | .stringLower value, depth, h =>
    (value.lined_doc depth h).bind fun _ hv ↦ .ok (lined_call₁ (by decide) hv)
  | .stringTrim value kind, depth, ⟨hv, _⟩ => by
    have word : OneLine kind.function := by cases kind <;> decide
    exact (value.lined_doc depth hv).bind fun _ hv ↦ .ok (lined_call₁ word hv)
  | .stringPos value other, depth, ⟨hv, ho, _⟩ => by
    rw [Extension.doc]
    split
    · exact (other.lined_doc depth ho).bind fun _ ho ↦ (value.lined_doc depth hv).bind fun _ hv ↦
        .ok (lined_call₂ (by decide) ho hv)
    · exact (value.lined_doc depth hv).bind fun _ hv ↦ (other.lined_doc depth ho).bind fun _ ho ↦
        .ok (lined_call₂ (by decide) hv ho)
  | .stringConcat first second, depth, ⟨hf, hs, _⟩ | .power first second, depth, ⟨hf, hs, _⟩
  | .remainder first second, depth, ⟨hf, hs, _⟩ | .arcTan2 first second, depth, ⟨hf, hs, _⟩
  | .joinStrings first second, depth, ⟨hf, hs, _⟩ =>
    (first.lined_doc depth hf).bind fun _ hf ↦ (second.lined_doc depth hs).bind fun _ hs ↦
      .ok (lined_call₂ (by decide) hf hs)
  | .math function value, depth, ⟨_, hv, _⟩ => by
    have word : OneLine function.function := by cases function <;> decide
    exact (value.lined_doc depth hv).bind fun _ hv ↦ .ok (lined_call₁ word hv)
  | .round value scale, depth, ⟨hv, _⟩ => by
    rw [Extension.doc.eq_def]
    dsimp only
    split
    · exact (value.lined_doc depth hv).bind fun _ hv ↦ .ok (lined_call₁ (by decide) hv)
    · exact (value.lined_doc depth hv).bind fun _ hv ↦ .ok (lined_call₁ (by decide) hv)
    · exact (value.lined_doc depth hv).bind fun _ hv ↦
        .ok (lined_call₂ (by decide) hv (lined_intDoc _))
    · exact fun _ made ↦ absurd made Outcome.fail_ne_ok
  | .aggregate function value, depth, ⟨_, hv, _⟩ => by
    have inner := value.lined_doc depth hv
    cases function with
    | distinctCount =>
      exact inner.bind fun _ hv ↦ .ok (lined_call₁ (by decide) (hv.before _ (by decide)))
    | _ => exact inner.bind fun _ hv ↦ .ok (lined_call₁ (by decide) hv)
  | .dateTrunc part value, depth, ⟨_, hv, _⟩ => by
    have word : OneLine ("'" ++ part.unit ++ "'") := by cases part <;> decide
    exact (value.lined_doc depth hv).bind fun _ hv ↦ .ok (lined_call₂ (by decide) (.text word) hv)
  | .datePart field value, depth, ⟨_, hv, _⟩ => by
    have word : OneLine field.unit := by cases field <;> decide
    have quoted : OneLine ("'" ++ field.unit ++ "'") := by cases field <;> decide
    refine (value.lined_doc depth hv).bind fun _ hv ↦ .ok ?_
    split
    · exact lined_call₂ (by decide) (.text word) hv
    · exact lined_call₂ (by decide) (.text quoted) hv
  | .dateAdjust value interval, depth, ⟨hv, _⟩ => by
    have word : OneLine interval.unit.keyword := by cases interval.unit <;> decide
    refine (value.lined_doc depth hv).bind fun _ hv ↦ .ok ?_
    split
    · refine lined_callDoc (by decide) ?_
      simp only [List.forall_mem_cons]
      exact ⟨.text word, lined_intDoc _, hv, List.forall_mem_nil _⟩
    · exact lined_infixDoc (by decide) hv (Dialect.lined_intervalDoc _)

/-- Relations that a query block reads from. -/
theorem Relation.lined_docs : ∀ (relations : List Relation) (depth : Nat),
    Tree.AllItemTexts OneLine (Relation.trees relations) →
      Gives (Relation.docs d relations depth) fun docs ↦ ∀ doc ∈ docs, doc.Lined
  | [], _, _ => .ok (List.forall_mem_nil _)
  | relation :: rest, depth, ⟨h, hs⟩ => (relation.lined_doc false depth h).bind fun _ h ↦
    (Relation.lined_docs rest depth hs).bind fun _ hs ↦ .ok (List.forall_mem_cons.mpr ⟨h, hs⟩)

/-- Entries of a select list. -/
theorem SelectItem.lined_docs : ∀ (items : List SelectItem) (depth : Nat),
    Tree.AllItemTexts OneLine (SelectItem.trees items) →
      Gives (SelectItem.docs d items depth) fun docs ↦ ∀ doc ∈ docs, doc.Lined
  | [], _, _ => .ok (List.forall_mem_nil _)
  | item :: rest, depth, ⟨h, hs⟩ => (item.lined_doc depth h).bind fun _ h ↦
    (SelectItem.lined_docs rest depth hs).bind fun _ hs ↦ .ok (List.forall_mem_cons.mpr ⟨h, hs⟩)

/-- Sort keys. -/
theorem SortItem.lined_docs : ∀ (items : List SortItem) (depth : Nat),
    Tree.AllItemTexts OneLine (SortItem.trees items) →
      Gives (SortItem.docs d items depth) fun docs ↦ ∀ doc ∈ docs, doc.Lined
  | [], _, _ => .ok (List.forall_mem_nil _)
  | item :: rest, depth, ⟨h, hs⟩ => (item.lined_doc depth h).bind fun _ h ↦
    (SortItem.lined_docs rest depth hs).bind fun _ hs ↦ .ok (List.forall_mem_cons.mpr ⟨h, hs⟩)

/-- Several expressions. -/
theorem Expression.lined_docs : ∀ (xs : List Expression) (depth : Nat),
    Tree.AllItemTexts OneLine (Expression.trees xs) →
      Gives (Expression.docs d xs depth) fun docs ↦ ∀ doc ∈ docs, doc.Lined
  | [], _, _ => .ok (List.forall_mem_nil _)
  | x :: rest, depth, ⟨h, hs⟩ => (x.lined_doc depth h).bind fun _ h ↦
    (Expression.lined_docs rest depth hs).bind fun _ hs ↦ .ok (List.forall_mem_cons.mpr ⟨h, hs⟩)

/-- Branches. -/
theorem WhenClause.lined_docs : ∀ (clauses : List WhenClause) (depth : Nat),
    Tree.AllItemTexts OneLine (WhenClause.trees clauses) →
      Gives (WhenClause.docs d clauses depth) fun docs ↦ ∀ doc ∈ docs, doc.Lined
  | [], _, _ => .ok (List.forall_mem_nil _)
  | clause :: rest, depth, ⟨h, hs⟩ => (clause.lined_doc depth h).bind fun _ h ↦
    (WhenClause.lined_docs rest depth hs).bind fun _ hs ↦ .ok (List.forall_mem_cons.mpr ⟨h, hs⟩)

/-- An optional expression. -/
theorem Expression.lined_optionDoc : ∀ (x : Option Expression) (depth : Nat),
    (Tree.optional (Expression.optionTree x)).AllTexts OneLine →
      ∀ doc ∈ Expression.optionDoc d x depth, Gives doc Lined
  | none, _, _, _, member => by
    rw [Expression.optionDoc] at member
    cases member
  | some x, depth, h, _, member => by
    rw [Expression.optionDoc, Option.mem_some_iff] at member
    exact member ▸ x.lined_doc depth h

/-- Optional criteria. -/
theorem JoinCriteria.lined_optionDoc : ∀ (criteria : Option JoinCriteria) (depth : Nat),
    (Tree.optional (JoinCriteria.optionTree criteria)).AllTexts OneLine →
      ∀ doc ∈ JoinCriteria.optionDoc d criteria depth, Gives doc Lined
  | none, _, _, _, member => by
    rw [JoinCriteria.optionDoc] at member
    cases member
  | some criteria, depth, h, _, member => by
    rw [JoinCriteria.optionDoc, Option.mem_some_iff] at member
    exact member ▸ criteria.lined_doc depth h

/-- An optional window. -/
theorem Window.lined_optionDoc : ∀ (window : Option Window) (depth : Nat),
    (Tree.optional (Window.optionTree window)).AllTexts OneLine →
      ∀ doc ∈ Window.optionDoc d window depth, Gives doc Lined
  | none, _, _, _, member => by
    rw [Window.optionDoc] at member
    cases member
  | some window, depth, h, _, member => by
    rw [Window.optionDoc, Option.mem_some_iff] at member
    exact member ▸ window.lined_doc depth h

/-- An optional window frame. -/
theorem WindowFrame.lined_optionDoc : ∀ (frame : Option WindowFrame) (depth : Nat),
    (Tree.optional (WindowFrame.optionTree frame)).AllTexts OneLine →
      ∀ doc ∈ WindowFrame.optionDoc d frame depth, Gives doc Lined
  | none, _, _, _, member => by
    rw [WindowFrame.optionDoc] at member
    cases member
  | some frame, depth, h, _, member => by
    rw [WindowFrame.optionDoc, Option.mem_some_iff] at member
    exact member ▸ frame.lined_doc depth h

end

end Nodes

end FrameQuery.Sql
