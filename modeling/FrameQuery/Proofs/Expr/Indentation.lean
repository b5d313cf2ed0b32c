import FrameQuery.Proofs.Expr.Brackets
import FrameQuery.Proofs.Text.Indentation

/-!
# Lines of PURE expressions

An expression has no breaks, so that line breaks get into it only from names and texts that hold
some.
-/

namespace FrameQuery

open Doc (Lined)
open PureText (call arrow operation lambda stringText columnName intText)

/-! ### Calls and operations -/

section Parts

variable {left right inner : Doc} {docs : List Doc}

/-- Dropping outer parentheses adds no line breaks. -/
theorem lined_strip (h : inner.Lined) : (PureText.strip inner).Lined := h.stripOuterParens []

/-- A call. -/
theorem lined_call {function : String} (hf : OneLine function) (h : ∀ doc ∈ docs, doc.Lined) :
    (call function docs).Lined :=
  (((Lined.text hf).behind "(" (by decide)).append (.commaSep (List.forall_mem_map.mpr
    fun doc hd ↦ lined_strip (h doc hd)))).behind ")" (by decide)

/-- A call behind an arrow. -/
theorem lined_arrow {function : String} (hf : OneLine function) (hi : inner.Lined)
    (h : ∀ doc ∈ docs, doc.Lined) : (arrow inner function docs).Lined :=
  (hi.behind "->" (by decide)).append (lined_call hf h)

/-- An operation in parentheses. -/
theorem lined_operation {symbol : String} (hs : OneLine symbol) (hl : left.Lined)
    (hr : right.Lined) : (operation symbol left right).Lined :=
  (((((hl.before "(" (by decide)).behind " " (by decide)).behind symbol hs).behind " "
    (by decide)).append hr).behind ")" (by decide)

/-- A function with named parameters. -/
theorem lined_lambda {parameters : String} (hp : OneLine parameters) (h : inner.Lined) :
    (lambda parameters inner).Lined :=
  (((((Lined.text hp).before _ (by decide)).behind " | " (by decide)).append
    (lined_strip h))).behind _ (by decide)

/-- A text as a constant. -/
theorem oneLine_stringText {text : String} (h : OneLine text) : OneLine (stringText text) :=
  .backslashed (by decide) h

/-- A column name, between quotes or not. -/
theorem oneLine_columnName {name : String} (h : OneLine name) : OneLine (columnName name) := by
  rw [columnName]
  split
  · exact h
  · exact oneLine_stringText h

/-- The decimal text of an integer. -/
theorem oneLine_intText (n : Int64) : OneLine (intText n) := (Int.numeric _).oneLine

/-- A value that may be marked as present. -/
theorem lined_operandDoc (needed : Bool) (e : Expr) (h : inner.Lined) :
    (Expr.operandDoc needed e inner).Lined := by
  rw [Expr.operandDoc]
  split
  · exact lined_call (by decide) (List.forall_mem_singleton.mpr h)
  · exact h

end Parts

/-! ### Operators -/

/-- A constant. -/
theorem Constant.lined_toPure {constant : Constant} (h : ∀ t ∈ constant.texts, OneLine t) :
    constant.toPure.Lined := by
  cases constant with
  | boolean value => cases value <;> exact .text (by decide)
  | integer value => exact .text (oneLine_intText value)
  | float value => exact .text value.numeric.oneLine
  | string value => exact .text (oneLine_stringText (List.forall_mem_singleton.mp h))
  | strictDate value => exact (Lined.text value.numeric.oneLine).before "%" (by decide)
  | dateTime value => exact (Lined.text value.numeric.oneLine).before "%" (by decide)

/-- The row a column is read from. -/
theorem RowAccessor.oneLine_toPure (accessor : Option RowAccessor) (row : RowVar) :
    OneLine (toPure accessor row) := by
  have name : OneLine ("$" ++ row.name) := by cases row <;> decide
  cases accessor with
  | none => exact name
  | some accessor =>
    cases accessor with
    | nth n =>
      exact ((((by decide : OneLine "$p->nth($w, ").append name).append (by decide)).append
        (oneLine_intText n)).append (by decide)
    | _ => cases row <;> decide

/-- An operator without operands. -/
theorem NullaryOperator.lined_toPure (operator : NullaryOperator) : operator.toPure.Lined := by
  cases operator with
  | rank function =>
    cases function with
    | ntile buckets =>
      exact .text (((by decide : OneLine "$p->ntile($r, ").append (oneLine_intText buckets)).append
        (by decide))
    | _ => exact .text (by decide)
  | _ => exact .text (by decide)

/-- An operator with one operand. -/
theorem UnaryOperator.lined_toPure {operator : UnaryOperator} {value : Doc}
    (h : ∀ t ∈ operator.texts, OneLine t) (hv : value.Lined) : (operator.toPure value).Lined := by
  have plain {function : String} (hf : OneLine function) : (arrow value function []).Lined :=
    lined_arrow hf hv (List.forall_mem_nil _)
  have one {receiver : Doc} (hr : receiver.Lined) {function text : String}
      (hf : OneLine function) (ht : OneLine text) :
      (arrow receiver function [Doc.text text]).Lined :=
    lined_arrow hf hr (List.forall_mem_singleton.mpr (.text ht))
  cases operator with
  | math function => cases function <;> exact plain (by decide)
  | roundTo scale =>
    have cast := ((lined_strip hv).before "cast(" (by decide)).behind ", @Float)" (by decide)
    exact one cast (by decide) (oneLine_intText scale)
  | like kind text =>
    have quoted := oneLine_stringText (List.forall_mem_singleton.mp h)
    cases kind <;> exact one hv (by decide) quoted
  | trim kind => cases kind <;> exact plain (by decide)
  | parse target => cases target <;> exact plain (by decide)
  | dateTrunc part => cases part <;> exact plain (by decide)
  | datePart field => cases field <;> exact plain (by decide)
  | adjust amount unit =>
    have keyword : OneLine (PureText.unitText unit) := by cases unit <;> decide
    exact lined_arrow (by decide) hv (List.forall_mem_cons.mpr
      ⟨.text (oneLine_intText amount), List.forall_mem_singleton.mpr (.text keyword)⟩)
  | _ => exact plain (by decide)

/-- An operator with two operands. -/
theorem BinaryOperator.lined_toPure (operator : BinaryOperator) {left right : Doc}
    (hl : left.Lined) (hr : right.Lined) : (operator.toPure left right).Lined := by
  cases operator with
  | modulo | power | remainder | arcTan2 | indexOf =>
    exact lined_arrow (by decide) hl (List.forall_mem_singleton.mpr hr)
  | compare operator => cases operator <;> exact lined_operation (by decide) hl hr
  | _ => exact lined_operation (by decide) hl hr

/-! ### Expressions -/

/-- An expression. -/
theorem Expr.lined_toPure {e : Expr} (h : ∀ t ∈ e.texts, OneLine t) : e.toPure.Lined := by
  induction e with
  | column row name accessor =>
    exact ((Lined.text (RowAccessor.oneLine_toPure accessor row)).behind "." (by decide)).behind _
      (oneLine_columnName (List.forall_mem_singleton.mp h))
  | constant value => exact Constant.lined_toPure h
  | nullary operator => exact operator.lined_toPure
  | unary operator operand ih =>
    obtain ⟨own, inside⟩ := List.forall_mem_append.mp h
    exact UnaryOperator.lined_toPure own (lined_operandDoc _ _ (ih inside))
  | binary operator left right ihl ihr =>
    obtain ⟨hl, hr⟩ := List.forall_mem_append.mp h
    exact operator.lined_toPure (lined_operandDoc _ _ (ihl hl)) (lined_operandDoc _ _ (ihr hr))
  | inList value items ihv ihi =>
    obtain ⟨hv, hi⟩ := List.forall_mem_append.mp h
    rw [itemsTexts_eq] at hi
    have each : ∀ doc ∈ itemsToPure items, doc.Lined := by
      rw [itemsToPure_eq]
      exact List.forall_mem_map.mpr fun item hm ↦
        ihi item hm fun t ht ↦ hi t (List.mem_flatMap.mpr ⟨item, hm, ht⟩)
    exact (((lined_operandDoc _ _ (ihv hv)).behind "->in([" (by decide)).append
      (.commaSep each)).behind "])" (by decide)
  | ifElse condition result otherwise ihc ihr iho =>
    obtain ⟨hc, hb⟩ := List.forall_mem_append.mp h
    obtain ⟨hr, ho⟩ := List.forall_mem_append.mp hb
    have branch {e : Expr} (he : e.toPure.Lined) :
        (Doc.text "|" ++ PureText.strip e.toPure).Lined := (lined_strip he).before "|" (by decide)
    refine lined_call (by decide) ?_
    simp only [List.forall_mem_cons]
    exact ⟨lined_operandDoc _ _ (ihc hc), branch (ihr hr), branch (iho ho), List.forall_mem_nil _⟩
  | aggregate function values =>
    have name : OneLine (aggregateName function) := by cases function <;> decide
    exact ((Lined.text name).before "$c->" (by decide)).behind "()" (by decide)
  | joinStrings values separator =>
    exact lined_arrow (by decide) (.text (by decide)) (List.forall_mem_singleton.mpr
      (.text (oneLine_stringText (List.forall_mem_singleton.mp h))))

end FrameQuery
