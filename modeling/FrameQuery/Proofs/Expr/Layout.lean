import FrameQuery.Expr.Pure
import FrameQuery.Proofs.Expr.Written
import FrameQuery.Proofs.Text.Layout

/-!
# PURE expressions stand on one line

Only steps of frames and their arguments are spread over lines. An expression has no breaks, so that
its document is its text, whatever the layout.
-/

namespace FrameQuery

namespace Doc

/-- A document without breaks. -/
def Unbroken (doc : Doc) : Prop := ∃ s, doc = text s

namespace Unbroken

variable {doc first second : Doc}

/-- A text has no breaks. -/
theorem text (s : String) : Unbroken (Doc.text s) := ⟨s, rfl⟩

/-- Documents without breaks one after the other. -/
theorem append (hf : first.Unbroken) (hs : second.Unbroken) : (first ++ second).Unbroken := by
  obtain ⟨s, rfl⟩ := hf
  obtain ⟨t, rfl⟩ := hs
  exact ⟨s ++ t, (text_append s t).symm⟩

/-- Documents without breaks with commas between them. -/
theorem commaSep {docs : List Doc} (h : ∀ doc ∈ docs, doc.Unbroken) :
    (Doc.commaSep docs).Unbroken :=
  sepBy_of_forall (text "") append (text ", ") h

/-- A document without breaks has none without its outer parentheses. -/
theorem strip (h : doc.Unbroken) : (PureText.strip doc).Unbroken := by
  rw [PureText.strip, stripOuterParens]
  split
  · obtain ⟨s, rfl⟩ := h
    refine ⟨String.ofList s.toList.tail.dropLast, ?_⟩
    rw [Doc.text, Doc.text, String.toList_ofList, List.map_dropLast, List.map_tail]
  · exact h

/-- A document without breaks is what it is written as. -/
theorem laid_eq (h : doc.Unbroken) (layout : Layout) : laid layout doc = doc := by
  obtain ⟨s, rfl⟩ := h
  rw [laid, Layout.render_text]

/-- A call has no breaks if its arguments have none. -/
theorem call (function : String) {arguments : List Doc} (h : ∀ doc ∈ arguments, doc.Unbroken) :
    (PureText.call function arguments).Unbroken := by
  refine .append (.append (.append (.text function) (.text "(")) (.commaSep fun doc hd ↦ ?_))
    (.text ")")
  obtain ⟨argument, ha, rfl⟩ := List.mem_map.mp hd
  exact (h argument ha).strip

/-- A call behind an arrow has no breaks if its receiver and its arguments have none. -/
theorem arrow (h : doc.Unbroken) (function : String) {arguments : List Doc}
    (ha : ∀ doc ∈ arguments, doc.Unbroken) : (PureText.arrow doc function arguments).Unbroken :=
  .append (.append h (.text "->")) (.call function ha)

/-- An operation has no breaks if its operands have none. -/
theorem operation (symbol : String) (hf : first.Unbroken) (hs : second.Unbroken) :
    (PureText.operation symbol first second).Unbroken :=
  .append (.append (.append (.append (.append (.append (.text "(") hf) (.text " ")) (.text symbol))
    (.text " ")) hs) (.text ")")

end Unbroken

end Doc

open Doc (Unbroken)

/-- A constant has no breaks. -/
theorem Constant.unbroken_toPure (value : Constant) : value.toPure.Unbroken := by
  cases value with
  | boolean value => cases value <;> exact .text _
  | integer value => exact .text _
  | float value => exact .text _
  | string value => exact .text _
  | strictDate value => exact .append (.text "%") (.text _)
  | dateTime value => exact .append (.text "%") (.text _)

/-- An operator without operands has no breaks. -/
theorem NullaryOperator.unbroken_toPure (operator : NullaryOperator) :
    operator.toPure.Unbroken := by
  cases operator <;> exact .text _

/-- An operator has no breaks if its operand has none. -/
theorem UnaryOperator.unbroken_toPure (operator : UnaryOperator) {value : Doc}
    (h : value.Unbroken) : (operator.toPure value).Unbroken := by
  have plain (function : String) : (PureText.arrow value function []).Unbroken :=
    h.arrow function nofun
  have one (receiver : Doc) (hr : receiver.Unbroken) (function text : String) :
      (PureText.arrow receiver function [Doc.text text]).Unbroken :=
    hr.arrow function (List.forall_mem_singleton.mpr (.text text))
  cases operator with
  | roundTo scale => exact one _ (.append (.append (.text "cast(") h.strip) (.text _)) _ _
  | like kind text => cases kind <;> exact one _ h _ _
  | trim kind => cases kind <;> exact plain _
  | parse target => cases target <;> exact plain _
  | adjust amount unit =>
    exact h.arrow _ (List.forall_mem_cons.mpr ⟨.text _, List.forall_mem_singleton.mpr (.text _)⟩)
  | _ => exact plain _

/-- An operator has no breaks if its operands have none. -/
theorem BinaryOperator.unbroken_toPure (operator : BinaryOperator) {left right : Doc}
    (hl : left.Unbroken) (hr : right.Unbroken) : (operator.toPure left right).Unbroken := by
  cases operator with
  | modulo | power | remainder | arcTan2 | indexOf =>
    exact hl.arrow _ (List.forall_mem_singleton.mpr hr)
  | _ => exact .operation _ hl hr

namespace Expr

/-- The items of a list are written one by one. -/
theorem itemsToPure_eq (items : List Expr) : itemsToPure items = items.map toPure := by
  induction items with
  | nil => rfl
  | cons item rest ih => rw [itemsToPure, ih, List.map_cons]

/-- An expression has no breaks. -/
theorem unbroken_toPure (e : Expr) : e.toPure.Unbroken := by
  have operand (needed : Bool) (e : Expr) (h : e.toPure.Unbroken) :
      (operandDoc needed e e.toPure).Unbroken := by
    rw [operandDoc]
    split
    · exact .call _ (List.forall_mem_singleton.mpr h)
    · exact h
  induction e with
  | column row name accessor =>
    exact .append (.append (.text _) (.text ".")) (.text _)
  | constant value => exact value.unbroken_toPure
  | nullary operator => exact operator.unbroken_toPure
  | unary operator e ih => exact operator.unbroken_toPure (operand _ e ih)
  | binary operator left right ihl ihr =>
    exact operator.unbroken_toPure (operand _ left ihl) (operand _ right ihr)
  | inList value items ihv ihi =>
    rw [toPure, itemsToPure_eq]
    refine .append (.append (.append (operand _ value ihv) (.text _)) (.commaSep ?_)) (.text _)
    exact List.forall_mem_map.mpr ihi
  | ifElse condition result otherwise ihc ihr iho =>
    rw [toPure]
    refine .call "if" ?_
    simp only [List.forall_mem_cons]
    exact ⟨operand _ condition ihc, .append (.text "|") ihr.strip, .append (.text "|") iho.strip,
      nofun⟩
  | aggregate function values =>
    exact .append (.append (.text _) (.text _)) (.text _)
  | joinStrings values separator =>
    exact .arrow (.text _) _ (List.forall_mem_singleton.mpr (.text _))

end Expr

end FrameQuery
