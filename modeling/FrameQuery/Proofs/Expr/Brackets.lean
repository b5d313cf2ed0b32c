import FrameQuery.Proofs.Expr.Layout
import FrameQuery.Proofs.Text.Brackets

/-!
# Brackets of PURE expressions

An expression never tears brackets, whatever stands between its quotes: where it loses its outer
parentheses inside a call, those of the call stand around what is left. The parentheses themselves
are looked for by counting, between quotes as well, so that they may be found at both ends of an
expression whose first one is closed in its midst. Outside a call, such an expression is torn when
it loses them.
-/

namespace FrameQuery

open Doc (Pairs Enclosable Headed)

/-! ### Texts between quotes -/

/-- Texts that an operator puts between quotes. -/
def UnaryOperator.texts : UnaryOperator → List String
  | .like _ text => [text]
  | _ => []

/-- Texts that a constant puts between quotes. -/
def Constant.texts : Constant → List String
  | .string value => [value]
  | _ => []

namespace Expr

mutual

/-- The names and texts in an expression that are written between quotes, or may be. -/
def texts : Expr → List String
  | .column _ name _ => [name]
  | .constant value => value.texts
  | .nullary _ => []
  | .unary operator operand => operator.texts ++ operand.texts
  | .binary _ left right => left.texts ++ right.texts
  | .inList value items => value.texts ++ itemsTexts items
  | .ifElse condition result otherwise =>
    condition.texts ++ (result.texts ++ otherwise.texts)
  | .aggregate _ _ => []
  | .joinStrings _ separator => [separator]

/-- The names and texts in the items of a list. -/
def itemsTexts : List Expr → List String
  | [] => []
  | item :: rest => item.texts ++ itemsTexts rest

end

/-- The texts in the items of a list are those of each. -/
theorem itemsTexts_eq (items : List Expr) : itemsTexts items = items.flatMap texts := by
  induction items with
  | nil => rfl
  | cons item rest ih => rw [itemsTexts, ih, List.flatMap_cons]

end Expr

/-! ### Calls and operations -/

section Parts

variable {layout : Layout} {strict : Bool} {value left right : Doc}

/-- A call tears no brackets. -/
theorem pairs_call {function : String} {arguments : List Doc} (hf : Unmarked function)
    (h : ∀ argument ∈ arguments, (PureText.strip argument).Enclosable layout strict) :
    (PureText.call function arguments).Pairs layout strict false := by
  rw [PureText.call, List.append_assoc, List.append_assoc, ← List.append_assoc (Doc.text "(")]
  refine (Pairs.text hf).before (Enclosable.between (fun _ ↦ rfl) (fun _ ↦ rfl) (.commaSep ?_))
  exact List.forall_mem_map.mpr h

/-- A call behind an arrow tears no brackets. -/
theorem pairs_arrow {function : String} {arguments : List Doc}
    (hv : value.Pairs layout strict false) (hf : Unmarked function)
    (h : ∀ argument ∈ arguments, (PureText.strip argument).Enclosable layout strict) :
    (PureText.arrow value function arguments).Pairs layout strict false := by
  rw [PureText.arrow, List.append_assoc]
  exact hv.before (.before (.text (by decide)) (pairs_call hf h))

/-- Two operands are between the parentheses of an operation. -/
theorem operation_eq (symbol : String) (left right : Doc) :
    PureText.operation symbol left right =
      Doc.text "(" ++ (left ++ " " ++ symbol ++ " " ++ right) ++ Doc.text ")" := by
  simp only [PureText.operation, List.append_assoc]

/-- What is between the parentheses of an operation tears no brackets. -/
theorem pairs_operands {symbol : String} (hs : Unmarked symbol)
    (hl : left.Pairs layout strict false) (hr : right.Pairs layout strict false) :
    Pairs layout strict (left ++ " " ++ symbol ++ " " ++ right) false :=
  (((hl.before (.text (by decide))).before (.text hs)).before (.text (by decide))).before hr

/-- An operation tears no brackets. -/
theorem pairs_operation {symbol : String} (hs : Unmarked symbol)
    (hl : left.Pairs layout strict false) (hr : right.Pairs layout strict false) :
    (PureText.operation symbol left right).Pairs layout strict false := by
  rw [operation_eq]
  exact .between [')'] (fun _ ↦ rfl) (fun _ ↦ rfl) (pairs_operands hs hl hr)

/-- A text between quotes tears no brackets. -/
theorem pairs_stringText {text : String} (h : Quotable strict text) :
    (Doc.text (PureText.stringText text)).Pairs layout strict false := .backslashed h

/-- A column name tears no brackets. -/
theorem pairs_columnName {name : String} (h : Quotable strict name) :
    (Doc.text (PureText.columnName name)).Pairs layout strict false := by
  rw [PureText.columnName]
  split
  · next identifier => exact .text (Identifier.unmarked identifier)
  · exact pairs_stringText h

/-- An integer tears no brackets. -/
theorem pairs_intText (n : Int64) : (Doc.text (PureText.intText n)).Pairs layout strict false :=
  .text (Int.numeric _).unmarked

/-- A single argument. -/
private theorem enclosable_singleton (h : value.Pairs layout strict false) :
    ∀ argument ∈ [value], (PureText.strip argument).Enclosable layout strict :=
  List.forall_mem_singleton.mpr h.strip

/-- A value that is marked as present tears no brackets. -/
theorem pairs_operandDoc (needed : Bool) (e : Expr) (h : value.Pairs layout strict false) :
    (Expr.operandDoc needed e value).Pairs layout strict false := by
  rw [Expr.operandDoc]
  split
  · exact pairs_call (by decide) (enclosable_singleton h)
  · exact h

end Parts

/-! ### Operators -/

section Operators

variable {layout : Layout} {strict : Bool} {value left right : Doc}

/-- A constant tears no brackets. -/
theorem Constant.pairs_toPure {constant : Constant} (h : ∀ t ∈ constant.texts, Quotable strict t) :
    constant.toPure.Pairs layout strict false := by
  cases constant with
  | boolean value => cases value <;> exact .text (by decide)
  | integer value => exact pairs_intText value
  | float value => exact .text value.numeric.unmarked
  | string value => exact pairs_stringText (List.forall_mem_singleton.mp h)
  | strictDate value => exact .before (.text (by decide)) (.text value.numeric.unmarked)
  | dateTime value => exact .before (.text (by decide)) (.text value.numeric.unmarked)

/-- A row counted from the start of its window. -/
theorem RowAccessor.toPure_nth (n : Int64) (row : RowVar) :
    Doc.text (RowAccessor.toPure (some (.nth n)) row) = Doc.text "$p->nth($w, " ++
      (Doc.text ("$" ++ row.name) ++ Doc.text ", " ++ Doc.text (PureText.intText n)) ++
      Doc.text ")" := by
  change Doc.text ("$p->nth($w, " ++ ("$" ++ row.name) ++ ", " ++ PureText.intText n ++ ")") = _
  simp only [Doc.text_append, List.append_assoc]

/-- The row that a column is read from tears no brackets. -/
theorem RowAccessor.pairs_toPure (accessor : Option RowAccessor) (row : RowVar) :
    (Doc.text (RowAccessor.toPure accessor row)).Pairs layout strict false := by
  cases accessor with
  | none => cases row <;> exact .text (by decide)
  | some accessor =>
    cases accessor with
    | nth n =>
      rw [RowAccessor.toPure_nth]
      refine .between [')'] (fun _ ↦ rfl) (fun _ ↦ rfl)
        (.before (.before (.text ?_) (.text (by decide))) (pairs_intText n))
      cases row <;> decide
    | _ => cases row <;> exact .of_steady fun _ ↦ rfl

/-- Numbered buckets. -/
theorem NullaryOperator.toPure_ntile (buckets : Int64) :
    (NullaryOperator.rank (.ntile buckets)).toPure = Doc.text "$p->ntile($r, " ++
      Doc.text (PureText.intText buckets) ++ Doc.text ")" := by
  change Doc.text ("$p->ntile($r, " ++ PureText.intText buckets ++ ")") = _
  simp only [Doc.text_append]

/-- An operator without operands tears no brackets. -/
theorem NullaryOperator.pairs_toPure (operator : NullaryOperator) :
    operator.toPure.Pairs layout strict false := by
  cases operator with
  | rank function =>
    cases function with
    | ntile buckets =>
      rw [NullaryOperator.toPure_ntile]
      exact .between [')'] (fun _ ↦ rfl) (fun _ ↦ rfl) (pairs_intText buckets)
    | _ => exact .of_steady fun _ ↦ rfl
  | _ => exact .of_steady fun _ ↦ rfl

/-- An operator tears no brackets if its operand tears none. -/
theorem UnaryOperator.pairs_toPure {operator : UnaryOperator}
    (h : ∀ t ∈ operator.texts, Quotable strict t) (hv : value.Pairs layout strict false) :
    (operator.toPure value).Pairs layout strict false := by
  have plain {function : String} (hf : Unmarked function) :
      (PureText.arrow value function []).Pairs layout strict false := pairs_arrow hv hf nofun
  cases operator with
  | math function => cases function <;> exact plain (by decide)
  | roundTo scale =>
    have cast : Pairs layout strict
        (Doc.text "cast(" ++ PureText.strip value ++ Doc.text ", @Float)") false :=
      Enclosable.between (fun _ ↦ rfl) (fun _ ↦ rfl) hv.strip
    exact pairs_arrow cast (by decide) (enclosable_singleton (pairs_intText scale))
  | like kind text =>
    have quoted : (Doc.text (PureText.stringText text)).Pairs layout strict false :=
      pairs_stringText (List.forall_mem_singleton.mp h)
    cases kind <;> exact pairs_arrow hv (by decide) (enclosable_singleton quoted)
  | trim kind => cases kind <;> exact plain (by decide)
  | parse target => cases target <;> exact plain (by decide)
  | dateTrunc part => cases part <;> exact plain (by decide)
  | datePart field => cases field <;> exact plain (by decide)
  | adjust amount unit =>
    have keyword : (Doc.text (PureText.unitText unit)).Pairs layout strict false := by
      cases unit <;> exact .text (by decide)
    exact pairs_arrow hv (by decide) (List.forall_mem_cons.mpr
      ⟨(pairs_intText amount).strip, enclosable_singleton keyword⟩)
  | _ => exact plain (by decide)

/-- An operator tears no brackets if its operands tear none. -/
theorem BinaryOperator.pairs_toPure (operator : BinaryOperator)
    (hl : left.Pairs layout strict false) (hr : right.Pairs layout strict false) :
    (operator.toPure left right).Pairs layout strict false := by
  cases operator with
  | modulo | power | remainder | arcTan2 | indexOf =>
    exact pairs_arrow hl (by decide) (enclosable_singleton hr)
  | compare operator => cases operator <;> exact pairs_operation (by decide) hl hr
  | _ => exact pairs_operation (by decide) hl hr

end Operators

/-! ### Expressions -/

namespace Expr

variable {layout : Layout} {strict : Bool}

/-- An expression tears no brackets. -/
theorem pairs_toPure {e : Expr} (h : ∀ t ∈ e.texts, Quotable strict t) :
    e.toPure.Pairs layout strict false := by
  induction e with
  | column row name accessor =>
    exact ((RowAccessor.pairs_toPure accessor row).before (.text (by decide))).before
      (pairs_columnName (List.forall_mem_singleton.mp h))
  | constant value => exact Constant.pairs_toPure h
  | nullary operator => exact operator.pairs_toPure
  | unary operator operand ih =>
    obtain ⟨own, inside⟩ := List.forall_mem_append.mp h
    exact UnaryOperator.pairs_toPure own (pairs_operandDoc _ _ (ih inside))
  | binary operator left right ihl ihr =>
    obtain ⟨hl, hr⟩ := List.forall_mem_append.mp h
    exact operator.pairs_toPure (pairs_operandDoc _ _ (ihl hl)) (pairs_operandDoc _ _ (ihr hr))
  | inList value items ihv ihi =>
    obtain ⟨hv, hi⟩ := List.forall_mem_append.mp h
    rw [itemsTexts_eq] at hi
    rw [toPure, itemsToPure_eq, List.append_assoc, List.append_assoc,
      ← List.append_assoc (Doc.text "->in([")]
    refine (pairs_operandDoc _ _ (ihv hv)).before
      (.between [']', ')'] (fun _ ↦ rfl) (fun _ ↦ rfl) (.commaSep (List.forall_mem_map.mpr ?_)))
    exact fun item hm ↦ ihi item hm fun t ht ↦ hi t (List.mem_flatMap.mpr ⟨item, hm, ht⟩)
  | ifElse condition result otherwise ihc ihr iho =>
    obtain ⟨hc, hb⟩ := List.forall_mem_append.mp h
    obtain ⟨hr, ho⟩ := List.forall_mem_append.mp hb
    have branch {e : Expr} (he : e.toPure.Pairs layout strict false) :
        (PureText.strip (Doc.text "|" ++ PureText.strip e.toPure)).Enclosable layout strict := by
      rw [PureText.strip, Doc.strip_of_head (by simp [Doc.text])]
      exact (Pairs.text (by decide)).enclosable.append he.strip
    refine pairs_call (by decide) ?_
    simp only [List.forall_mem_cons]
    exact ⟨(pairs_operandDoc _ _ (ihc hc)).strip, branch (ihr hr), branch (iho ho),
      List.forall_mem_nil _⟩
  | aggregate function values =>
    have name : (Doc.text (aggregateName function)).Pairs layout strict false := by
      cases function <;> exact .of_steady fun _ ↦ rfl
    exact ((Pairs.text (by decide)).before name).before (.of_steady fun _ ↦ rfl)
  | joinStrings values separator =>
    exact pairs_arrow (.text (by decide)) (by decide)
      (enclosable_singleton (pairs_stringText (List.forall_mem_singleton.mp h)))

end Expr

/-! ### Outer parentheses of expressions -/

/-- Whether an operator is written between its operands, with parentheses around them. -/
def BinaryOperator.isInfix : BinaryOperator → Bool
  | .modulo | .power | .remainder | .arcTan2 | .indexOf => false
  | _ => true

namespace Expr

/-- Whether an expression is an operation in parentheses. -/
def isOperation : Expr → Bool
  | .binary operator _ _ => operator.isInfix
  | _ => false

/-- Whether parentheses are found at both ends of an expression that do not belong together. -/
def mispaired (e : Expr) : Bool := Doc.hasOuterParens [] e.toPure && !e.isOperation

/-- What is known of an operand is known of the marked operand. -/
private theorem headed_operandDoc {value : Doc} {p : Bool} (needed : Bool) (e : Expr)
    (h : Headed layout strict value p) :
    ∃ q, Headed layout strict (operandDoc needed e value) q := by
  rw [operandDoc]
  split
  · exact ⟨false, .of_head 't' rfl (by decide)⟩
  · exact ⟨p, h⟩

end Expr

section Heads

variable {layout : Layout} {strict : Bool} {value left right : Doc} {p : Bool}

/-- A row starts with a dollar sign. -/
private theorem RowAccessor.head_toPure (accessor : Option RowAccessor) (row : RowVar) :
    (Doc.text (RowAccessor.toPure accessor row)).head? = some (.char '$') := by
  cases accessor with
  | none => cases row <;> rfl
  | some accessor =>
    cases accessor with
    | nth n =>
      rw [RowAccessor.toPure_nth]
      rfl
    | _ => cases row <;> rfl

/-- Operators without operands start with no parenthesis. -/
private theorem NullaryOperator.headed_toPure (operator : NullaryOperator) :
    Headed layout strict operator.toPure false := by
  cases operator with
  | rank function =>
    refine .of_head '$' ?_ (by decide)
    cases function with
    | ntile buckets =>
      rw [NullaryOperator.toPure_ntile]
      rfl
    | _ => rfl
  | currentUser => exact .of_head 'c' rfl (by decide)
  | today => exact .of_head 't' rfl (by decide)
  | now => exact .of_head 'n' rfl (by decide)

/-- Constants start with no parenthesis. -/
private theorem Constant.headed_toPure (value : Constant) :
    Headed layout strict value.toPure false := by
  cases value with
  | boolean value => cases value <;> exact .text (by decide)
  | integer value => exact .text (Int.numeric _).unmarked
  | float value => exact .text value.numeric.unmarked
  | string value =>
    refine .of_head '\'' ?_ (by decide)
    rw [Constant.toPure, PureText.stringText, Quoted.backslashed, Doc.text, String.toList_ofList]
    rfl
  | strictDate value => exact .of_head '%' rfl (by decide)
  | dateTime value => exact .of_head '%' rfl (by decide)

/-- A call behind an arrow starts as its receiver does, and goes on behind it. -/
theorem headed_arrow (h : Headed layout strict value p) (function : String)
    (arguments : List Doc) :
    Headed layout strict (PureText.arrow value function arguments) false := by
  rw [PureText.arrow, List.append_assoc]
  exact h.append '-' rfl (by decide)

/-- An operator with an operand is no operation in parentheses. -/
theorem UnaryOperator.headed_toPure (operator : UnaryOperator) (h : Headed layout strict value p) :
    Headed layout strict (operator.toPure value) false := by
  cases operator with
  | roundTo scale =>
    exact headed_arrow (.of_head 'c' rfl (by decide) : Headed layout strict _ false) _ _
  | like kind text => cases kind <;> exact headed_arrow h _ _
  | trim kind => cases kind <;> exact headed_arrow h _ _
  | parse target => cases target <;> exact headed_arrow h _ _
  | _ => exact headed_arrow h _ _

/-- An operator with two operands is an operation in parentheses exactly if it is written between
them. -/
theorem BinaryOperator.headed_toPure (operator : BinaryOperator) (h : Headed layout strict left p)
    (hl : left.Pairs layout strict false) (hr : right.Pairs layout strict false) :
    Headed layout strict (operator.toPure left right) operator.isInfix := by
  have operation {symbol : String} (hs : Unmarked symbol) :
      Headed layout strict (PureText.operation symbol left right) true := by
    have whole : Headed layout strict (Doc.text "(" ++ _ ++ Doc.text ")" ++ []) true :=
      .parens true (pairs_operands hs hl hr) (by simp)
    rwa [List.append_nil, ← operation_eq] at whole
  cases operator with
  | modulo | power | remainder | arcTan2 | indexOf => exact headed_arrow h _ _
  | compare operator => cases operator <;> exact operation (by decide)
  | _ => exact operation (by decide)

end Heads

namespace Expr

variable {layout : Layout} {strict : Bool}

/-- An expression starts with a parenthesis that its end closes only if it is an operation. -/
theorem headed_toPure {e : Expr} (h : ∀ t ∈ e.texts, Quotable strict t) :
    Headed layout strict e.toPure e.isOperation := by
  induction e with
  | column row name accessor =>
    rw [toPure, List.append_assoc]
    exact (Headed.of_head '$' (RowAccessor.head_toPure accessor row) (by decide)).append '.' rfl
      (by decide)
  | constant value => exact value.headed_toPure
  | nullary operator => exact operator.headed_toPure
  | unary operator operand ih =>
    obtain ⟨-, inside⟩ := List.forall_mem_append.mp h
    obtain ⟨q, hq⟩ := headed_operandDoc operator.needsOne operand (ih inside)
    exact operator.headed_toPure hq
  | binary operator left right ihl ihr =>
    obtain ⟨hl, hr⟩ := List.forall_mem_append.mp h
    obtain ⟨q, hq⟩ := headed_operandDoc operator.needsOne left (ihl hl)
    exact operator.headed_toPure hq (pairs_operandDoc _ _ (pairs_toPure hl))
      (pairs_operandDoc _ _ (pairs_toPure hr))
  | inList value items ihv =>
    obtain ⟨hv, -⟩ := List.forall_mem_append.mp h
    obtain ⟨q, hq⟩ := headed_operandDoc true value (ihv hv)
    rw [toPure, List.append_assoc, List.append_assoc]
    exact hq.append '-' rfl (by decide)
  | ifElse condition result otherwise => exact .of_head 'i' rfl (by decide)
  | aggregate function values => exact .of_head '$' rfl (by decide)
  | joinStrings values separator => exact .of_head '$' rfl (by decide)

/-- Outside parentheses, what is left of an expression without its outer parentheses tears brackets
exactly if these do not belong together. -/
theorem run_strip {e : Expr} (h : ∀ t ∈ e.texts, Quotable strict t) {due : List Char}
    (hd : due.head? ≠ some ')') :
    (Bracketing.outside due).run strict (layout.chars (PureText.strip e.toPure)) =
      if e.mispaired then .torn else .outside due :=
  (headed_toPure h).run_strip (pairs_toPure h) hd

/-- Where no parentheses stand between quotes, those at both ends of an expression belong
together. -/
theorem mispaired_eq_false {e : Expr} (h : ∀ t ∈ e.texts, Quotable true t) :
    e.mispaired = false := by
  rw [mispaired]
  cases operation : e.isOperation with
  | true => exact Bool.and_false _
  | false =>
    have headed : Headed ⟨false, 2, 0⟩ true e.toPure false := operation ▸ headed_toPure h
    rw [headed.hasOuterParens_eq_false, Bool.false_and]

end Expr

end FrameQuery
