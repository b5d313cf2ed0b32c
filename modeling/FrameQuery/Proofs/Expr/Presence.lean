import FrameQuery.Proofs.Expr.Brackets
import FrameQuery.Proofs.Text.Occurrences
import Mathlib.Algebra.GroupWithZero.Nat

/-!
# Operands that have to be present

Operations that ask for exactly one value get it by a mark around each operand that may be absent.
A mark is put nowhere else and never twice: the marks in the text of an expression are as many as
the operands that need one, whatever parentheses the text loses. Reductions start afresh, as what
they reduce is not written.
-/

namespace FrameQuery

open PureText (call arrow operation stringText columnName intText)

namespace Expr

mutual

/-- The operands of all operations in an expression, outside what it reduces, each with whether it
has to be present. -/
def operands : Expr → List (Bool × Expr)
  | .column _ _ _ | .constant _ | .nullary _ => []
  | .unary operator operand => (operator.needsOne, operand) :: operand.operands
  | .binary operator left right =>
    (operator.needsOne, left) :: (operator.needsOne, right) :: (left.operands ++ right.operands)
  | .inList value items => (true, value) :: (value.operands ++ itemOperands items)
  | .ifElse condition result otherwise =>
    (true, condition) :: (false, result) :: (false, otherwise) ::
      (condition.operands ++ (result.operands ++ otherwise.operands))
  | .aggregate _ _ | .joinStrings _ _ => []

/-- The items of a list, which may be absent, and their operands. -/
def itemOperands : List Expr → List (Bool × Expr)
  | [] => []
  | item :: rest => (false, item) :: (item.operands ++ itemOperands rest)

end

/-- Whether an operand has to be present and is not known to be. -/
def needsToOne : Bool × Expr → Bool
  | (needed, operand) => needed && !operand.isPresent

/-- An operand that may be absent needs no mark. -/
private theorem countP_optional (e : Expr) (operands : List (Bool × Expr)) :
    ((false, e) :: operands).countP needsToOne = operands.countP needsToOne :=
  List.countP_cons_of_neg Bool.false_ne_true

/-- The operands of the items of a list are those of each. -/
theorem itemOperands_eq (items : List Expr) :
    itemOperands items = items.flatMap fun item ↦ (false, item) :: item.operands := by
  induction items with
  | nil => rfl
  | cons item rest ih => rw [itemOperands, ih, List.flatMap_cons, List.cons_append]

end Expr

/-! ### Marks -/

/-- What a value that is marked as present starts with. -/
def toOneCall : List Char := "toOne(".toList

/-- A text that does not hold the name of the function that marks values. -/
def LacksToOne (text : String) : Prop := ¬"toOne".toList <:+: text.toList

instance (text : String) : Decidable (LacksToOne text) :=
  inferInstanceAs (Decidable ¬"toOne".toList <:+: text.toList)

/-- A text without the name of the function holds no marks. -/
theorem LacksToOne.occurrences_eq_zero {text : String} (h : LacksToOne text) :
    occurrences toOneCall text.toList = 0 :=
  occurrences_eq_zero_iff.mpr fun part ↦
    h (List.IsInfix.trans ⟨[], "(".toList, rfl⟩ part)

/-- Nor does it between quotes. -/
theorem LacksToOne.occurrences_stringText {text : String} (h : LacksToOne text) :
    occurrences toOneCall (stringText text).toList = 0 := by
  rw [stringText, occurrences_backslashed (by decide) (by decide) (by decide),
    h.occurrences_eq_zero]

/-- A column name without the name of the function holds no marks. -/
theorem LacksToOne.occurrences_columnName {name : String} (h : LacksToOne name) :
    occurrences toOneCall (columnName name).toList = 0 := by
  rw [columnName]
  split
  · exact h.occurrences_eq_zero
  · exact h.occurrences_stringText

/-- Numbers are written without one of the letters of the function. -/
private theorem Numeric.not_mem {text : String} (h : Numeric text) : 'O' ∉ text.toList :=
  fun member ↦ absurd (h _ member) (by decide)

/-- Numbers hold no marks. -/
theorem Numeric.occurrences_eq_zero {text : String} (h : Numeric text) :
    occurrences toOneCall text.toList = 0 :=
  occurrences_eq_zero_of_not_mem (by decide) h.not_mem

/-- Nor does the decimal text of an integer. -/
theorem occurrences_intText (n : Int64) : occurrences toOneCall (intText n).toList = 0 :=
  (Int.numeric _).occurrences_eq_zero

/-- How many marks there are in what a document is written as. -/
def Layout.toOneCalls (layout : Layout) (doc : Doc) : Nat :=
  occurrences toOneCall (layout.chars doc)

section Parts

variable {layout : Layout} {doc first second value left right : Doc} {docs : List Doc}
  {word function symbol : String}

/-- The marks in a text. -/
theorem toOneCalls_text (layout : Layout) (text : String) :
    layout.toOneCalls (Doc.text text) = occurrences toOneCall text.toList := by
  rw [Layout.toOneCalls, Layout.chars_text]

/-- A word before a document, behind which no mark goes on. -/
theorem toOneCalls_before (ends : endsApart toOneCall word.toList = true) :
    layout.toOneCalls (Doc.text word ++ doc) =
      occurrences toOneCall word.toList + layout.toOneCalls doc := by
  rw [Layout.toOneCalls, Layout.toOneCalls, Layout.chars_append, Layout.chars_text]
  exact occurrences_append (by decide) (.of_last ends (List.suffix_refl _))

/-- A word behind a document that goes on no mark. -/
theorem toOneCalls_behind (starts : startsApart toOneCall word.toList = true) :
    layout.toOneCalls (doc ++ Doc.text word) =
      layout.toOneCalls doc + occurrences toOneCall word.toList := by
  rw [Layout.toOneCalls, Layout.toOneCalls, Layout.chars_append, Layout.chars_text]
  exact occurrences_append (by decide) (.of_head starts)

/-- A word between documents that goes on no mark and behind which none goes on. -/
theorem toOneCalls_around (starts : startsApart toOneCall word.toList = true)
    (ends : endsApart toOneCall word.toList = true) :
    layout.toOneCalls (first ++ Doc.text word ++ second) =
      layout.toOneCalls first + occurrences toOneCall word.toList + layout.toOneCalls second := by
  rw [← toOneCalls_behind starts, Layout.toOneCalls, Layout.toOneCalls, Layout.toOneCalls,
    Layout.chars_append, Layout.chars_append, Layout.chars_text]
  exact occurrences_append (by decide) (.of_last ends (List.suffix_append _ _))

/-- A document in parentheses holds the marks of the document. -/
theorem toOneCalls_parens (layout : Layout) (doc : Doc) :
    layout.toOneCalls (Doc.text "(" ++ doc ++ Doc.text ")") = layout.toOneCalls doc := by
  rw [toOneCalls_behind (by decide), toOneCalls_before (by decide)]
  exact Nat.zero_add _

/-- Dropping outer parentheses drops no marks. -/
theorem toOneCalls_strip (layout : Layout) (doc : Doc) :
    layout.toOneCalls (PureText.strip doc) = layout.toOneCalls doc := by
  by_cases outer : doc.hasOuterParens [] = true
  · conv_rhs => rw [Doc.eq_of_hasOuterParens outer, toOneCalls_parens]
    rfl
  · rw [PureText.strip, Doc.stripOuterParens, if_neg outer]

/-- Documents with commas between them hold the marks of each. -/
theorem toOneCalls_commaSep (layout : Layout) (docs : List Doc) :
    layout.toOneCalls (Doc.commaSep docs) = (docs.map layout.toOneCalls).sum := by
  induction docs with
  | nil => exact occurrences_nil (by decide)
  | cons doc docs ih =>
    cases docs with
    | nil =>
      rw [Doc.commaSep, Doc.sepBy, List.intercalate_singleton, List.map_singleton,
        List.sum_singleton]
    | cons next docs =>
      rw [Doc.commaSep, Doc.sepBy, List.intercalate_cons_cons, List.map_cons, List.sum_cons, ← ih]
      exact toOneCalls_around (by decide) (by decide)

/-- A call holds the marks of its arguments, and is one itself if it calls the function that marks
values. -/
theorem toOneCalls_call (layout : Layout) (function : String) (docs : List Doc) :
    layout.toOneCalls (call function docs) =
      occurrences toOneCall (function ++ "(").toList + (docs.map layout.toOneCalls).sum := by
  have arguments : layout.toOneCalls (Doc.commaSep (docs.map PureText.strip)) =
      (docs.map layout.toOneCalls).sum := by
    rw [toOneCalls_commaSep, List.map_map]
    exact congrArg List.sum (List.map_congr_left fun doc _ ↦ toOneCalls_strip layout doc)
  have ends : endsApart toOneCall (function ++ "(").toList = true := by
    rw [endsApart, String.toList_append, List.getLast?_append]
    rfl
  rw [call, toOneCalls_behind (by decide), ← Doc.text_append, toOneCalls_before ends, arguments]
  rfl

/-- A call behind an arrow. -/
theorem toOneCalls_arrow (hf : occurrences toOneCall (function ++ "(").toList = 0) :
    layout.toOneCalls (arrow value function docs) =
      layout.toOneCalls value + (docs.map layout.toOneCalls).sum := by
  rw [arrow, toOneCalls_around (by decide) (by decide), toOneCalls_call, hf, Nat.zero_add]
  rfl

/-- An operation holds the marks of its operands. -/
theorem toOneCalls_operation (hs : occurrences toOneCall (" " ++ symbol ++ " ").toList = 0) :
    layout.toOneCalls (operation symbol left right) =
      layout.toOneCalls left + layout.toOneCalls right := by
  have around : left ++ " " ++ symbol ++ " " ++ right =
      left ++ Doc.text (" " ++ symbol ++ " ") ++ right := by
    simp only [Doc.text_append, List.append_assoc]
  have starts : startsApart toOneCall (" " ++ symbol ++ " ").toList = true := by
    rw [startsApart, String.toList_append, String.toList_append]
    rfl
  have ends : endsApart toOneCall (" " ++ symbol ++ " ").toList = true := by
    rw [endsApart, String.toList_append, List.getLast?_append]
    rfl
  rw [operation_eq, toOneCalls_parens, around, toOneCalls_around starts ends, hs, Nat.add_zero]

/-- An operand is marked once where that is asked for. -/
theorem toOneCalls_operandDoc (layout : Layout) (needed : Bool) (e : Expr) (doc : Doc) :
    layout.toOneCalls (Expr.operandDoc needed e doc) =
      layout.toOneCalls doc + if Expr.needsToOne (needed, e) then 1 else 0 := by
  rw [Expr.operandDoc, Expr.needsToOne]
  split
  · rw [PureText.toOne, toOneCalls_call, List.map_singleton, List.sum_singleton, Nat.add_comm]
    rfl
  · rfl

end Parts

/-! ### Operators -/

/-- The row a column is read from holds no marks. -/
private theorem RowAccessor.occurrences_toPure (accessor : Option RowAccessor) (row : RowVar) :
    occurrences toOneCall (toPure accessor row).toList = 0 := by
  -- The row may be counted by any number, but no part of the text holds this letter.
  refine occurrences_eq_zero_of_not_mem (by decide : 'O' ∈ toOneCall) ?_
  cases accessor with
  | none => cases row <;> decide
  | some accessor =>
    cases accessor with
    | nth n =>
      have name : 'O' ∉ ("$" ++ row.name).toList := by cases row <;> decide
      have number : 'O' ∉ (intText n).toList := (Int.numeric _).not_mem
      exact not_mem_append (not_mem_append (not_mem_append (not_mem_append (by decide) name)
        (by decide)) number) (by decide)
    | _ => cases row <;> decide

/-- A constant holds no marks. -/
theorem Constant.toOneCalls_toPure (layout : Layout) {constant : Constant}
    (h : ∀ t ∈ constant.texts, LacksToOne t) : layout.toOneCalls constant.toPure = 0 := by
  cases constant with
  | boolean value => cases value <;> exact toOneCalls_text layout _
  | integer value => exact (toOneCalls_text layout _).trans (occurrences_intText value)
  | float value => exact (toOneCalls_text layout _).trans value.numeric.occurrences_eq_zero
  | string value =>
    exact (toOneCalls_text layout _).trans (List.forall_mem_singleton.mp h).occurrences_stringText
  | strictDate value =>
    rw [toPure, toOneCalls_before (by decide), toOneCalls_text, value.numeric.occurrences_eq_zero]
    rfl
  | dateTime value =>
    rw [toPure, toOneCalls_before (by decide), toOneCalls_text, value.numeric.occurrences_eq_zero]
    rfl

/-- An operator without operands holds no marks. -/
theorem NullaryOperator.toOneCalls_toPure (layout : Layout) (operator : NullaryOperator) :
    layout.toOneCalls operator.toPure = 0 := by
  cases operator with
  | rank function =>
    refine (toOneCalls_text layout _).trans ?_
    cases function with
    | ntile buckets =>
      have number : 'O' ∉ (intText buckets).toList := (Int.numeric _).not_mem
      refine occurrences_eq_zero_of_not_mem (by decide : 'O' ∈ toOneCall) ?_
      exact not_mem_append (not_mem_append (by decide) number) (by decide)
    | _ => rfl
  | _ => exact toOneCalls_text layout _

/-- An operator with one operand holds the marks of the operand. -/
theorem UnaryOperator.toOneCalls_toPure (layout : Layout) {operator : UnaryOperator}
    (h : ∀ t ∈ operator.texts, LacksToOne t) (value : Doc) :
    layout.toOneCalls (operator.toPure value) = layout.toOneCalls value := by
  have plain {function : String} (hf : occurrences toOneCall (function ++ "(").toList = 0) :
      layout.toOneCalls (arrow value function []) = layout.toOneCalls value := toOneCalls_arrow hf
  have one {receiver : Doc} {function text : String}
      (hf : occurrences toOneCall (function ++ "(").toList = 0)
      (ht : occurrences toOneCall text.toList = 0) :
      layout.toOneCalls (arrow receiver function [Doc.text text]) =
        layout.toOneCalls receiver := by
    rw [toOneCalls_arrow hf, List.map_singleton, List.sum_singleton, toOneCalls_text, ht,
      Nat.add_zero]
  cases operator with
  | math function => cases function <;> exact plain rfl
  | roundTo scale =>
    rw [toPure, one (by rfl) (occurrences_intText scale), toOneCalls_behind (by decide),
      toOneCalls_before (by decide), toOneCalls_strip]
    exact Nat.zero_add _
  | like kind text =>
    have quoted := (List.forall_mem_singleton.mp h).occurrences_stringText
    cases kind <;> exact one rfl quoted
  | trim kind => cases kind <;> exact plain rfl
  | parse target => cases target <;> exact plain rfl
  | dateTrunc part => cases part <;> exact plain rfl
  | datePart field => cases field <;> exact plain rfl
  | adjust amount unit =>
    have keyword : occurrences toOneCall (PureText.unitText unit).toList = 0 := by
      cases unit <;> rfl
    rw [toPure, toOneCalls_arrow rfl, List.map_cons, List.map_singleton, toOneCalls_text,
      toOneCalls_text, occurrences_intText, keyword]
    rfl
  | _ => exact plain rfl

/-- An operator with two operands holds the marks of both. -/
theorem BinaryOperator.toOneCalls_toPure (layout : Layout) (operator : BinaryOperator)
    (left right : Doc) :
    layout.toOneCalls (operator.toPure left right) =
      layout.toOneCalls left + layout.toOneCalls right := by
  cases operator with
  | modulo | power | remainder | arcTan2 | indexOf => exact toOneCalls_arrow rfl
  | compare operator => cases operator <;> exact toOneCalls_operation rfl
  | _ => exact toOneCalls_operation rfl

/-! ### Expressions -/

/-- An expression holds as many marks as there are operands in it that need one. -/
theorem Expr.toOneCalls_toPure (layout : Layout) {e : Expr} (h : ∀ t ∈ e.texts, LacksToOne t) :
    layout.toOneCalls e.toPure = e.operands.countP needsToOne := by
  induction e with
  | column row name accessor =>
    rw [toPure, toOneCalls_around (by decide) (by decide), toOneCalls_text, toOneCalls_text,
      RowAccessor.occurrences_toPure, (List.forall_mem_singleton.mp h).occurrences_columnName]
    rfl
  | constant value => exact value.toOneCalls_toPure layout h
  | nullary operator => exact operator.toOneCalls_toPure layout
  | unary operator operand ih =>
    obtain ⟨own, inside⟩ := List.forall_mem_append.mp h
    rw [toPure, operator.toOneCalls_toPure layout own, toOneCalls_operandDoc, ih inside, operands,
      List.countP_cons]
  | binary operator left right ihl ihr =>
    obtain ⟨hl, hr⟩ := List.forall_mem_append.mp h
    rw [toPure, operator.toOneCalls_toPure, toOneCalls_operandDoc, toOneCalls_operandDoc, ihl hl,
      ihr hr, operands, List.countP_cons, List.countP_cons, List.countP_append]
    ac_rfl
  | inList value items ihv ihi =>
    obtain ⟨hv, hi⟩ := List.forall_mem_append.mp h
    rw [itemsTexts_eq] at hi
    -- Items are operands that may be absent, so that only the marks inside them count.
    have each : (items.map toPure).map layout.toOneCalls =
        items.map fun item ↦ ((false, item) :: item.operands).countP needsToOne := by
      rw [List.map_map]
      refine List.map_congr_left fun item hm ↦ ?_
      rw [countP_optional]
      exact ihi item hm fun t ht ↦ hi t (List.mem_flatMap.mpr ⟨item, hm, ht⟩)
    have opening : occurrences toOneCall "->in([".toList = 0 := rfl
    have closing : occurrences toOneCall "])".toList = 0 := rfl
    rw [toPure, toOneCalls_behind (by decide), toOneCalls_around (by decide) (by decide), opening,
      closing, toOneCalls_operandDoc, toOneCalls_commaSep, itemsToPure_eq, each, ihv hv, operands,
      List.countP_cons, List.countP_append, itemOperands_eq, List.countP_flatMap, Nat.add_zero,
      Nat.add_zero]
    exact Nat.add_right_comm _ _ _
  | ifElse condition result otherwise ihc ihr iho =>
    obtain ⟨hc, hb⟩ := List.forall_mem_append.mp h
    obtain ⟨hr, ho⟩ := List.forall_mem_append.mp hb
    have branch (e : Expr) : layout.toOneCalls (Doc.text "|" ++ PureText.strip e.toPure) =
        layout.toOneCalls e.toPure := by
      rw [toOneCalls_before (by decide), toOneCalls_strip]
      exact Nat.zero_add _
    have function : occurrences toOneCall ("if" ++ "(").toList = 0 := rfl
    rw [toPure, toOneCalls_call, function, Nat.zero_add, List.map_cons, List.map_cons,
      List.map_singleton, List.sum_cons, List.sum_cons, List.sum_singleton, branch, branch,
      toOneCalls_operandDoc, ihc hc, ihr hr, iho ho, operands, List.countP_cons, countP_optional,
      countP_optional, List.countP_append, List.countP_append]
    exact Nat.add_right_comm _ _ _
  | aggregate function values => cases function <;> rfl
  | joinStrings values separator =>
    rw [toPure, toOneCalls_arrow rfl, List.map_singleton, List.sum_singleton, toOneCalls_text,
      toOneCalls_text, (List.forall_mem_singleton.mp h).occurrences_stringText]
    rfl

/-- Where no name and no text holds `toOne`, an expression is written with as many calls of it as
there are operands that have to be present and are not known to be. -/
theorem Expr.occurrences_toOne {e : Expr} (h : ∀ t ∈ e.texts, LacksToOne t) (layout : Layout) :
    occurrences "toOne(".toList (layout.render e.toPure).toList =
      e.operands.countP needsToOne := by
  have written : (layout.render e.toPure).toList = layout.chars e.toPure := String.toList_ofList
  rw [written]
  exact toOneCalls_toPure layout h

private def clampedAmount : Expr :=
  .unary (.math .abs) (.ifElse
    (.binary (.compare .greaterThan)
      (.binary .add (.column .right "a" none) (.constant (.integer 1)))
      (.column .right "b" none))
    (.column .right "a" none) (.constant (.integer 2)))

/-- A sum and an absolute value ask for their operands, a comparison and the branches of a condition
do not. -/
theorem Expr.occurrences_toOne_of_branch :
    ∃ e : Expr, Layout.render ⟨false, 2, 0⟩ e.toPure =
        "toOne(if((toOne($r.a) + 1) > $r.b, |$r.a, |2))->abs()" ∧
      (∀ t ∈ e.texts, LacksToOne t) ∧ e.operands.countP needsToOne = 2 ∧
      occurrences "toOne(".toList (Layout.render ⟨false, 2, 0⟩ e.toPure).toList = 2 := by
  have lacks : ∀ t ∈ clampedAmount.texts, LacksToOne t := by decide
  exact ⟨clampedAmount, rfl, lacks, rfl, Expr.occurrences_toOne lacks _⟩

end FrameQuery
