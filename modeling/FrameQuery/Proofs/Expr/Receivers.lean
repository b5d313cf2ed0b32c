import FrameQuery.Proofs.Expr.Built
import FrameQuery.Proofs.Expr.Terms

/-!
# Receivers in PURE

A call behind an arrow takes what stands directly in front of the arrow as its receiver. Operations
are in parentheses, and calls, columns and texts need none, so that the text of an expression is
read back as the expression, except where a negative number is a receiver: its sign then belongs to
the call.
-/

namespace FrameQuery

open PureText (Term numberTerm isName readBack StandsAlone Shows Ends)

/-! ### Receivers -/

namespace Expr

/-- Whether an expression is a number with a sign. -/
def isSigned : Expr → Bool
  | constant (.integer value) => value.toInt < 0
  | constant (.float value) => value.isNegative && !value.isNaN
  | _ => false

end Expr

/-- The receiver of an operator with an operand. -/
def UnaryOperator.receiver (operator : UnaryOperator) (value : Doc) : Doc :=
  if operator.casts then "cast(" ++ PureText.strip value ++ ", @Float)" else value

namespace Expr

mutual

/-- What stands in front of each arrow in the text of an expression. -/
def receivers : Expr → List Doc
  | column _ _ accessor => if accessor.isSome then ["$p"] else []
  | constant _ => []
  | nullary (.rank _) => ["$p"]
  | nullary _ => []
  | unary operator operand =>
    operator.receiver (operandDoc operator.needsOne operand operand.toPure) :: operand.receivers
  | binary operator left right =>
    (if operator.isInfix then [] else [operandDoc operator.needsOne left left.toPure]) ++
      (left.receivers ++ right.receivers)
  | inList value items =>
    operandDoc true value value.toPure :: (value.receivers ++ itemsReceivers items)
  | ifElse condition result otherwise =>
    condition.receivers ++ (result.receivers ++ otherwise.receivers)
  | aggregate .distinctCount _ => ["$c", "$c->distinct()"]
  | aggregate _ _ | joinStrings _ _ => ["$c"]

/-- What stands in front of each arrow in the items of a list. -/
def itemsReceivers : List Expr → List Doc
  | [] => []
  | item :: rest => item.receivers ++ itemsReceivers rest

end

mutual

/-- Whether somewhere in an expression a number with a sign is a receiver. -/
def signedReceiver : Expr → Bool
  | column _ _ _ | constant _ | nullary _ | aggregate _ _ | joinStrings _ _ => false
  | unary operator operand => (!operator.casts && operand.isSigned) || operand.signedReceiver
  | binary operator left right =>
    (!operator.isInfix && left.isSigned) || (left.signedReceiver || right.signedReceiver)
  | inList value items => value.isSigned || (value.signedReceiver || itemsSignedReceiver items)
  | ifElse condition result otherwise =>
    condition.signedReceiver || (result.signedReceiver || otherwise.signedReceiver)

/-- Whether somewhere in the items of a list a number with a sign is a receiver. -/
def itemsSignedReceiver : List Expr → Bool
  | [] => false
  | item :: rest => item.signedReceiver || itemsSignedReceiver rest

end

/-- A list has a receiver with a sign exactly if one of its items has one. -/
theorem itemsSignedReceiver_eq_false {items : List Expr} :
    itemsSignedReceiver items = false ↔ ∀ item ∈ items, item.signedReceiver = false := by
  induction items with
  | nil => exact iff_of_true rfl (List.forall_mem_nil _)
  | cons item rest ih => rw [itemsSignedReceiver, Bool.or_eq_false_iff, ih, List.forall_mem_cons]

/-- The receivers in a list are those in its items. -/
theorem itemsReceivers_eq (items : List Expr) : itemsReceivers items = items.flatMap receivers := by
  induction items with
  | nil => rfl
  | cons item rest ih => rw [itemsReceivers, ih, List.flatMap_cons]

end Expr

/-! ### Signs in front of receivers -/

/-- A number has no receiver with a sign. -/
private theorem isFirm_numberTerm (text : String) : (numberTerm text).isFirm = true := by
  rw [numberTerm]
  split <;> rfl

/-- A column has no sign, and is read from a row without one. -/
private theorem RowAccessor.isFirm_term (accessor : Option RowAccessor) (row : RowVar) :
    (RowAccessor.term accessor row).isNegative = false ∧
      (RowAccessor.term accessor row).isFirm = true := by
  cases accessor with
  | none => exact ⟨rfl, rfl⟩
  | some accessor =>
    cases accessor with
    | nth n => simp [term, Term.isNegative, Term.isFirm, Term.allFirm, isFirm_numberTerm]
    | _ => exact ⟨rfl, rfl⟩

/-- Operators without operands have no sign. -/
private theorem NullaryOperator.isFirm_term (operator : NullaryOperator) :
    operator.term.isNegative = false ∧ operator.term.isFirm = true := by
  cases operator with
  | rank function =>
    cases function with
    | ntile buckets =>
      simp [term, RankFunction.term, Term.isNegative, Term.isFirm, Term.allFirm, isFirm_numberTerm]
    | _ => exact ⟨rfl, rfl⟩
  | _ => exact ⟨rfl, rfl⟩

/-- An operator with an operand has no sign in front of it. -/
private theorem UnaryOperator.isNegative_term (operator : UnaryOperator) (value : Term) :
    (operator.term value).isNegative = false := by
  cases operator with
  | like kind text => cases kind <;> rfl
  | trim kind => cases kind <;> rfl
  | parse target => cases target <;> rfl
  | _ => rfl

/-- The operand of an operator is a receiver unless it is cast. -/
private theorem UnaryOperator.isFirm_term (operator : UnaryOperator) (value : Term) :
    (operator.term value).isFirm = ((operator.casts || !value.isNegative) && value.isFirm) := by
  cases operator with
  | like kind text => cases kind <;> simp [term, casts, Term.isFirm, Term.allFirm]
  | trim kind => cases kind <;> simp [term, casts, Term.isFirm, Term.allFirm]
  | parse target => cases target <;> simp [term, casts, Term.isFirm, Term.allFirm]
  | roundTo scale =>
    simp [term, casts, Term.isFirm, Term.allFirm, Term.isNegative, isFirm_numberTerm]
  | adjust amount unit =>
    simp [term, unitTerm, casts, Term.isFirm, Term.allFirm, Term.isNegative, isFirm_numberTerm]
  | _ => simp [term, casts, Term.isFirm, Term.allFirm]

/-- An operator with two operands has no sign in front of it. -/
private theorem BinaryOperator.isNegative_term (operator : BinaryOperator) (left right : Term) :
    (operator.term left right).isNegative = false := by
  cases operator <;> rfl

/-- The left operand of an operator is a receiver unless the operator is between its operands. -/
private theorem BinaryOperator.isFirm_term (operator : BinaryOperator) (left right : Term) :
    (operator.term left right).isFirm =
      ((operator.isInfix || !left.isNegative) && (left.isFirm && right.isFirm)) := by
  cases operator <;> simp [term, isInfix, Term.isFirm, Term.allFirm, Bool.and_assoc]

namespace Expr

variable {layout : Layout} {e : Expr}

/-- Only numbers with a sign are read as terms with a sign in front of them. -/
theorem isNegative_term (e : Expr) : e.term.isNegative = e.isSigned := by
  cases e with
  | constant value =>
    cases value with
    | integer value =>
      obtain ⟨text, mantissa, he⟩ := Int.exists_mantissa value.toInt
      exact PureText.isNegative_numberTerm (.positional mantissa) he
    | float value =>
      obtain ⟨text, magnitude, he⟩ := value.exists_magnitude
      exact PureText.isNegative_numberTerm magnitude he
    | _ => rfl
  | nullary operator => exact operator.isFirm_term.1
  | unary operator operand => exact operator.isNegative_term _
  | binary operator left right => exact operator.isNegative_term _ _
  | aggregate function values => cases function <;> rfl
  | _ => rfl

/-- What is marked as present is no number, so that marks change no sign. -/
theorem isNegative_operandTerm (needed : Bool) (e : Expr) :
    (operandTerm needed e e.term).isNegative = e.isSigned := by
  rw [operandTerm]
  split
  · next marked =>
    have absent : e.isPresent = false := by
      rw [Bool.and_eq_true, Bool.not_eq_true'] at marked
      exact marked.2
    cases e with
    | constant value => cases absent
    | _ => rfl
  · exact e.isNegative_term

/-- A mark has no receiver. -/
theorem isFirm_operandTerm (needed : Bool) (e : Expr) (term : Term) :
    (operandTerm needed e term).isFirm = term.isFirm := by
  rw [operandTerm]
  split
  · rw [Term.isFirm, Term.allFirm, Term.allFirm, Bool.and_true]
  · rfl

/-- The terms of items have a receiver with a sign exactly if the items have one. -/
private theorem allFirm_itemsTerms {items : List Expr}
    (h : ∀ item ∈ items, item.term.isFirm = !item.signedReceiver) :
    Term.allFirm (itemsTerms items) = !itemsSignedReceiver items := by
  induction items with
  | nil => rfl
  | cons item rest ih =>
    rw [List.forall_mem_cons] at h
    rw [itemsTerms, Term.allFirm, itemsSignedReceiver, h.1, ih h.2, Bool.not_or]

/-- The term of an expression has a receiver with a sign exactly if the expression has one. -/
theorem isFirm_term (e : Expr) : e.term.isFirm = !e.signedReceiver := by
  induction e with
  | column row name accessor =>
    obtain ⟨unsigned, firm⟩ := RowAccessor.isFirm_term accessor row
    rw [term, Term.isFirm, unsigned, firm]
    rfl
  | constant value =>
    cases value with
    | integer value => exact isFirm_numberTerm _
    | float value => exact isFirm_numberTerm _
    | _ => rfl
  | nullary operator => exact operator.isFirm_term.2
  | unary operator operand ih =>
    rw [term, operator.isFirm_term, isNegative_operandTerm, isFirm_operandTerm, ih, signedReceiver,
      Bool.not_or, Bool.not_and, Bool.not_not]
  | binary operator left right ihl ihr =>
    rw [term, operator.isFirm_term, isNegative_operandTerm, isFirm_operandTerm, isFirm_operandTerm,
      ihl, ihr, signedReceiver, Bool.not_or, Bool.not_or, Bool.not_and, Bool.not_not]
  | inList value items ihv ihi =>
    rw [term, Term.isFirm, Term.allFirm, Term.allFirm, Term.isFirm, isNegative_operandTerm,
      isFirm_operandTerm, ihv, allFirm_itemsTerms ihi, signedReceiver, Bool.and_true, Bool.not_or,
      Bool.not_or, Bool.and_assoc]
  | ifElse condition result otherwise ihc ihr iho =>
    simp only [term, Term.isFirm, Term.allFirm, isFirm_operandTerm, ihc, ihr, iho, signedReceiver,
      Bool.not_or, Bool.and_true]
  | aggregate function values => cases function <;> rfl
  | joinStrings values separator => rfl

/-- Expressions without such receivers are read as themselves. -/
theorem read_term_iff (e : Expr) : e.term.read = e.term ↔ e.signedReceiver = false := by
  rw [Term.read_eq_iff, isFirm_term, Bool.not_eq_true']

/-- An operand without such receivers stands alone unless it is a number with a sign itself. -/
theorem ReadsBack.standsAlone_iff {needed : Bool} (h : ReadsBack layout e)
    (whole : tornOperand false needed e = false) (firm : e.signedReceiver = false) :
    StandsAlone (layout.render (operandDoc needed e e.toPure)) ↔ e.isSigned = false := by
  have self : (operandTerm needed e e.term).read = operandTerm needed e e.term := by
    rw [Term.read_eq_iff, isFirm_operandTerm, isFirm_term, firm, Bool.not_false]
  rw [(h.operand whole).standsAlone_iff, Term.signs_eq_zero self, isNegative_operandTerm]

/-- The receivers stand alone exactly if none is a number with a sign. -/
theorem standsAlone_receivers_iff (layout : Layout) {e : Expr}
    (plain : ∀ text ∈ e.texts, '\\' ∉ text.toList) (whole : e.torn = false) :
    (∀ receiver ∈ e.receivers, StandsAlone (layout.render receiver)) ↔
      e.signedReceiver = false := by
  have alone {name : String} (h : isName name = true) :
      StandsAlone (layout.render (Doc.text name)) := by
    have shown : Shows layout (Doc.text name) (.word name) := .word (.of_isName h)
    exact shown.standsAlone_iff.mpr rfl
  induction e with
  | column row name accessor =>
    refine iff_of_true ?_ rfl
    rw [receivers]
    split
    · exact List.forall_mem_singleton.mpr (alone rfl)
    · exact List.forall_mem_nil _
  | constant value => exact iff_of_true (List.forall_mem_nil _) rfl
  | nullary operator =>
    refine iff_of_true ?_ rfl
    cases operator with
    | rank function => exact List.forall_mem_singleton.mpr (alone rfl)
    | _ => exact List.forall_mem_nil _
  | unary operator operand ih =>
    obtain ⟨own, inside⟩ := List.forall_mem_append.mp plain
    obtain ⟨place, below⟩ := Bool.or_eq_false_iff.mp whole
    have read := readsBack layout operand inside below
    have inOperand : _ ↔ operand.signedReceiver = false := ih inside below
    rw [receivers, List.forall_mem_cons, inOperand, signedReceiver, Bool.or_eq_false_iff]
    -- Whether an operand stands alone is only known where it holds no such receiver itself.
    apply and_congr_left
    intro firm
    rw [UnaryOperator.receiver]
    by_cases casts : operator.casts = true
    · rw [casts] at place
      rw [if_pos casts, casts]
      exact iff_of_true ((shows_cast (read.argument place)).standsAlone_iff.mpr rfl) rfl
    · rw [if_neg casts, read.standsAlone_iff (tornOperand_false place) firm,
        Bool.eq_false_iff.mpr casts, Bool.not_false, Bool.true_and]
  | binary operator left right ihl ihr =>
    obtain ⟨first, second⟩ := List.forall_mem_append.mp plain
    obtain ⟨⟨onLeft, -⟩, wholeLeft, wholeRight⟩ := torn_binary.mp whole
    have read := readsBack layout left first wholeLeft
    have inLeft : _ ↔ left.signedReceiver = false := ihl first wholeLeft
    have inRight : _ ↔ right.signedReceiver = false := ihr second wholeRight
    rw [receivers, List.forall_mem_append, List.forall_mem_append, inLeft, inRight, signedReceiver,
      Bool.or_eq_false_iff, Bool.or_eq_false_iff]
    apply and_congr_left
    intro firm
    cases operator.isInfix with
    | true => exact iff_of_true (List.forall_mem_nil _) rfl
    | false => exact List.forall_mem_singleton.trans (read.standsAlone_iff onLeft firm.1)
  | inList value items ihv ihi =>
    obtain ⟨first, others⟩ := List.forall_mem_append.mp plain
    obtain ⟨place, wholeValue, wholeItems⟩ := torn_inList.mp whole
    rw [itemsTexts_eq] at others
    have inItems : (∀ receiver ∈ itemsReceivers items, StandsAlone (layout.render receiver)) ↔
        itemsSignedReceiver items = false := by
      rw [itemsReceivers_eq, List.forall_mem_flatMap, itemsSignedReceiver_eq_false]
      apply forall₂_congr
      intro item hi
      exact ihi item hi (fun text ht ↦ others text (List.mem_flatMap_of_mem hi ht))
        (wholeItems item hi)
    have inValue : _ ↔ value.signedReceiver = false := ihv first wholeValue
    rw [receivers, List.forall_mem_cons, List.forall_mem_append, inValue, inItems,
      signedReceiver, Bool.or_eq_false_iff, Bool.or_eq_false_iff]
    apply and_congr_left
    intro firm
    exact (readsBack layout value first wholeValue).standsAlone_iff place firm.1
  | ifElse condition result otherwise ihc ihr iho =>
    obtain ⟨first, others⟩ := List.forall_mem_append.mp plain
    obtain ⟨second, third⟩ := List.forall_mem_append.mp others
    obtain ⟨-, wholeCondition, wholeResult, wholeOtherwise⟩ := torn_ifElse.mp whole
    have inCondition : _ ↔ condition.signedReceiver = false := ihc first wholeCondition
    have inResult : _ ↔ result.signedReceiver = false := ihr second wholeResult
    have inOtherwise : _ ↔ otherwise.signedReceiver = false := iho third wholeOtherwise
    rw [receivers, List.forall_mem_append, List.forall_mem_append, inCondition, inResult,
      inOtherwise, signedReceiver, Bool.or_eq_false_iff, Bool.or_eq_false_iff]
  | aggregate function values =>
    refine iff_of_true ?_ rfl
    cases function with
    | distinctCount =>
      have group : Shows layout (Doc.text "$c") (.word "$c") := .word (.of_isName rfl)
      have distinct : Ends layout (PureText.arrow "$c" "distinct" [])
          (.arrow (.word "$c") "distinct" []) := .arrow group (.of_isName rfl) .nil
      refine List.forall_mem_cons.mpr ⟨alone rfl, List.forall_mem_singleton.mpr ?_⟩
      exact distinct.shows.standsAlone_iff.mpr rfl
    | _ => exact List.forall_mem_singleton.mpr (alone rfl)
  | joinStrings values separator =>
    exact iff_of_true (List.forall_mem_singleton.mpr (alone rfl)) rfl

end Expr

/-! ### Where receivers stand -/

section Places

variable {part doc left right : Doc}

/-- A document stands in the list of documents that it is a member of. -/
private theorem infix_commaSep {docs : List Doc} (h : doc ∈ docs) : doc <:+: Doc.commaSep docs := by
  induction docs with
  | nil => cases h
  | cons first rest ih =>
    cases rest with
    | nil =>
      obtain rfl := List.mem_singleton.mp h
      simp only [Doc.commaSep_singleton, List.infix_rfl]
    | cons second rest =>
      rw [Doc.commaSep_cons_cons]
      rcases List.mem_cons.mp h with rfl | h
      · rw [List.append_assoc]
        exact (List.prefix_append _ _).isInfix
      · exact (ih h).trans (List.suffix_append _ _).isInfix

/-- What is left of an argument stands in the call. -/
private theorem infix_call {argument : Doc} {arguments : List Doc} (h : argument ∈ arguments)
    (function : String) : PureText.strip argument <:+: PureText.call function arguments :=
  (infix_commaSep (List.mem_map_of_mem h)).trans ⟨Doc.text function ++ "(", ")", rfl⟩

/-- Operands stand in their operation, also where it loses its parentheses. -/
private theorem infix_operation (symbol : String) (h : part <:+: left ∨ part <:+: right) :
    part <:+: PureText.operation symbol left right ∧
      part <:+: PureText.strip (PureText.operation symbol left right) := by
  have whole := operation_eq symbol left right
  have inside : part <:+: left ++ Doc.text " " ++ Doc.text symbol ++ Doc.text " " ++ right := by
    rcases h with h | h
    · refine h.trans ?_
      simp only [List.append_assoc]
      exact (List.prefix_append _ _).isInfix
    · exact h.trans (List.suffix_append _ _).isInfix
  have around : part <:+: PureText.operation symbol left right := by
    rw [whole]
    exact inside.trans ⟨Doc.text "(", Doc.text ")", rfl⟩
  refine ⟨around, ?_⟩
  rw [PureText.strip, Doc.stripOuterParens]
  split
  · have bare : (PureText.operation symbol left right).tail.dropLast =
        left ++ Doc.text " " ++ Doc.text symbol ++ Doc.text " " ++ right := by
      rw [whole]
      exact List.dropLast_concat
    rwa [bare]
  · exact around

/-- A column of another row is read from the window. -/
private theorem RowAccessor.window_prefix (accessor : RowAccessor) (row : RowVar) :
    Doc.text "$p" ++ Doc.text "->" <+: Doc.text (RowAccessor.toPure (some accessor) row) := by
  cases accessor with
  | nth n =>
    rw [RowAccessor.toPure_nth, List.append_assoc]
    exact ⟨Doc.text "nth($w, " ++ _, rfl⟩
  | _ => cases row <;> decide

/-- Ranks are asked of the window. -/
private theorem RankFunction.window_prefix (function : RankFunction) :
    Doc.text "$p" ++ Doc.text "->" <+: (NullaryOperator.rank function).toPure := by
  cases function with
  | ntile buckets =>
    rw [NullaryOperator.toPure_ntile, List.append_assoc]
    exact ⟨Doc.text "ntile($r, " ++ _, rfl⟩
  | _ => decide

/-- The receiver of an operator stands in front of an arrow. -/
private theorem UnaryOperator.receiver_prefix (operator : UnaryOperator) (value : Doc) :
    operator.receiver value ++ Doc.text "->" <+: operator.toPure value := by
  cases operator with
  | like kind text => cases kind <;> exact List.prefix_append _ _
  | trim kind => cases kind <;> exact List.prefix_append _ _
  | parse target => cases target <;> exact List.prefix_append _ _
  | _ => exact List.prefix_append _ _

/-- Operands of an operator between them stand in the operation. -/
private theorem BinaryOperator.infix_toPure {operator : BinaryOperator}
    (hi : operator.isInfix = true) (h : part <:+: left ∨ part <:+: right) :
    part <:+: operator.toPure left right ∧
      part <:+: PureText.strip (operator.toPure left right) := by
  cases operator with
  | modulo | power | remainder | arcTan2 | indexOf => cases hi
  | _ => exact infix_operation _ h

/-- The left operand of another operator stands in front of an arrow, the right one behind it. -/
private theorem BinaryOperator.receiver_prefix {operator : BinaryOperator}
    (hi : operator.isInfix = false) (left right : Doc) :
    left ++ Doc.text "->" <+: operator.toPure left right ∧
      PureText.strip right <:+: operator.toPure left right := by
  have call (function : String) :
      left ++ Doc.text "->" <+: PureText.arrow left function [right] ∧
        PureText.strip right <:+: PureText.arrow left function [right] :=
    ⟨List.prefix_append _ _,
      (infix_call List.mem_cons_self function).trans (List.suffix_append _ _).isInfix⟩
  cases operator with
  | modulo | power | remainder | arcTan2 | indexOf => exact call _
  | _ => cases hi

end Places

namespace Expr

variable {part : Doc} {e : Expr}

/-- What stands in an expression and in what is left of it without its outer parentheses. -/
def Holds (part : Doc) (e : Expr) : Prop :=
  part <:+: e.toPure ∧ (e.mispaired = false → part <:+: PureText.strip e.toPure)

/-- Only operations have parentheses to lose. -/
private theorem Holds.of_part (h : part <:+: e.toPure) (apart : e.isOperation = false) :
    Holds part e := by
  refine ⟨h, fun paired ↦ ?_⟩
  rw [mispaired, apart, Bool.not_false, Bool.and_true] at paired
  rwa [PureText.strip, Doc.stripOuterParens, paired]

/-- What stands in an expression stands in the operand, marked or not. -/
private theorem Holds.operand {needed : Bool} (h : Holds part e)
    (whole : tornOperand false needed e = false) : part <:+: operandDoc needed e e.toPure := by
  rw [operandDoc]
  split
  · next marked =>
    rw [tornOperand, marked] at whole
    exact (h.2 whole).trans (infix_call List.mem_cons_self "toOne")
  · exact h.1

/-- What stands in an expression stands in the argument, marked or not. -/
private theorem Holds.argument {needed : Bool} (h : Holds part e)
    (whole : tornOperand true needed e = false) :
    part <:+: PureText.strip (operandDoc needed e e.toPure) := by
  rw [tornOperand, Bool.true_or, Bool.true_and] at whole
  rw [operandDoc]
  split
  · rw [PureText.strip, Doc.strip_of_head (by simp [PureText.toOne, PureText.call, Doc.text])]
    exact (h.2 whole).trans (infix_call List.mem_cons_self "toOne")
  · exact h.2 whole

/-- Every receiver stands in front of an arrow. -/
theorem holds_receiver {e : Expr} (whole : e.torn = false) :
    ∀ receiver ∈ e.receivers, Holds (receiver ++ Doc.text "->") e := by
  induction e with
  | column row name accessor =>
    cases accessor with
    | none => exact List.forall_mem_nil _
    | some accessor =>
      refine List.forall_mem_singleton.mpr (.of_part ?_ rfl)
      rw [toPure, List.append_assoc]
      exact ((accessor.window_prefix row).trans (List.prefix_append _ _)).isInfix
  | constant value => exact List.forall_mem_nil _
  | nullary operator =>
    cases operator with
    | rank function =>
      exact List.forall_mem_singleton.mpr (.of_part function.window_prefix.isInfix rfl)
    | _ => exact List.forall_mem_nil _
  | unary operator operand ih =>
    obtain ⟨place, below⟩ := Bool.or_eq_false_iff.mp whole
    have behind := operator.receiver_prefix (operandDoc operator.needsOne operand operand.toPure)
    rw [receivers, List.forall_mem_cons]
    refine ⟨.of_part behind.isInfix rfl, fun receiver hr ↦ .of_part ?_ rfl⟩
    have held := ih below receiver hr
    refine List.IsInfix.trans ?_ ((List.prefix_append _ _).trans behind).isInfix
    rw [UnaryOperator.receiver]
    by_cases casts : operator.casts = true
    · rw [casts] at place
      rw [if_pos casts]
      exact (held.argument place).trans ⟨Doc.text "cast(", Doc.text ", @Float)", rfl⟩
    · rw [if_neg casts]
      exact held.operand (tornOperand_false place)
  | binary operator left right ihl ihr =>
    obtain ⟨⟨onLeft, onRight⟩, wholeLeft, wholeRight⟩ := torn_binary.mp whole
    have inLeft (receiver : Doc) (hr : receiver ∈ left.receivers) :=
      (ihl wholeLeft receiver hr).operand onLeft
    rw [receivers, List.forall_mem_append, List.forall_mem_append]
    cases hi : operator.isInfix with
    | true =>
      have operand {part : Doc}
          (h : part <:+: operandDoc operator.needsOne left left.toPure ∨
            part <:+: operandDoc operator.needsOne right right.toPure) :
          Holds part (binary operator left right) :=
        have both := BinaryOperator.infix_toPure hi h
        ⟨both.1, fun _ ↦ both.2⟩
      refine ⟨List.forall_mem_nil _, fun receiver hr ↦ operand (.inl (inLeft receiver hr)),
        fun receiver hr ↦ operand (.inr ?_)⟩
      exact (ihr wholeRight receiver hr).operand (tornOperand_false onRight)
    | false =>
      obtain ⟨behind, argument⟩ := BinaryOperator.receiver_prefix hi
        (operandDoc operator.needsOne left left.toPure)
        (operandDoc operator.needsOne right right.toPure)
      rw [hi] at onRight
      refine ⟨List.forall_mem_singleton.mpr (.of_part behind.isInfix hi),
        fun receiver hr ↦ .of_part ?_ hi, fun receiver hr ↦ .of_part ?_ hi⟩
      · exact (inLeft receiver hr).trans ((List.prefix_append _ _).trans behind).isInfix
      · exact ((ihr wholeRight receiver hr).argument onRight).trans argument
  | inList value items ihv ihi =>
    obtain ⟨place, wholeValue, wholeItems⟩ := torn_inList.mp whole
    have behind : operandDoc true value value.toPure ++ Doc.text "->" <+:
        (inList value items).toPure := by
      rw [toPure_inList]
      exact List.prefix_append _ _
    rw [receivers, List.forall_mem_cons, List.forall_mem_append, itemsReceivers_eq]
    refine ⟨.of_part behind.isInfix rfl, fun receiver hr ↦ .of_part ?_ rfl,
      fun receiver hr ↦ .of_part ?_ rfl⟩
    · have held := (ihv wholeValue receiver hr).operand place
      exact held.trans ((List.prefix_append _ _).trans behind).isInfix
    · obtain ⟨item, hi, hr⟩ := List.mem_flatMap.mp hr
      have held := (ihi item hi (wholeItems item hi) receiver hr).1
      rw [toPure, itemsToPure_eq]
      refine (held.trans (infix_commaSep (List.mem_map_of_mem hi))).trans ?_
      exact ⟨operandDoc true value value.toPure ++ Doc.text "->in([", Doc.text "])", rfl⟩
  | ifElse condition result otherwise ihc ihr iho =>
    obtain ⟨⟨place, pairedResult, pairedOtherwise⟩, wholeCondition, wholeResult,
      wholeOtherwise⟩ := torn_ifElse.mp whole
    have branch {part : Doc} {e : Expr} (h : Holds part e) (paired : e.mispaired = false) :
        part <:+: PureText.strip (Doc.text "|" ++ PureText.strip e.toPure) := by
      rw [PureText.strip, Doc.strip_of_head (by simp [Doc.text])]
      exact (h.2 paired).trans (List.suffix_append _ _).isInfix
    rw [receivers, List.forall_mem_append, List.forall_mem_append]
    refine ⟨fun receiver hr ↦ .of_part ?_ rfl, fun receiver hr ↦ .of_part ?_ rfl,
      fun receiver hr ↦ .of_part ?_ rfl⟩
    · have held := (ihc wholeCondition receiver hr).argument place
      exact held.trans (infix_call (.head _) "if")
    · have held := branch (ihr wholeResult receiver hr) pairedResult
      exact held.trans (infix_call (.tail _ (.head _)) "if")
    · have held := branch (iho wholeOtherwise receiver hr) pairedOtherwise
      exact held.trans (infix_call (.tail _ (.tail _ (.head _))) "if")
  | aggregate function values =>
    have group : Holds (Doc.text "$c" ++ Doc.text "->") (aggregate function values) := by
      refine .of_part ?_ rfl
      rw [toPure, arrow_group]
      exact (List.prefix_append _ _).isInfix
    cases function with
    | distinctCount =>
      refine List.forall_mem_cons.mpr ⟨group, List.forall_mem_singleton.mpr (.of_part ?_ rfl)⟩
      show _ <:+: Doc.text "$c->" ++ Doc.text "distinct()->count" ++ Doc.text "()"
      decide
    | _ => exact List.forall_mem_singleton.mpr group
  | joinStrings values separator =>
    exact List.forall_mem_singleton.mpr (.of_part (List.prefix_append _ _).isInfix rfl)

/-! ### Reading expressions back -/

/-- Expressions whose texts hold no backslash and whose operands lose no parentheses that do not
belong together: every receiver stands in front of an arrow, all receivers stand alone exactly if
none is a number with a sign, and then, and only then, the text is read as the expression. -/
theorem readBack_toPure_iff (layout : Layout) {e : Expr}
    (plain : ∀ text ∈ e.texts, '\\' ∉ text.toList) (whole : e.torn = false) :
    (∀ receiver ∈ e.receivers, receiver ++ Doc.text "->" <:+: e.toPure) ∧
      ((∀ receiver ∈ e.receivers, StandsAlone (layout.render receiver)) ↔
        e.signedReceiver = false) ∧
      (readBack (layout.render e.toPure) = some e.term ↔ e.signedReceiver = false) := by
  refine ⟨fun receiver hr ↦ (holds_receiver whole receiver hr).1,
    standsAlone_receivers_iff layout plain whole, ?_⟩
  rw [(readsBack layout e plain whole).shows.readBack, Option.some.injEq, read_term_iff]

/-- A negative number in an operation that is a receiver. -/
def distance : Expr :=
  .unary (.math .abs) (.binary .add (.column .right "x" none) (.constant (.integer (-1))))

/-- The parentheses of the operation keep the sign apart from the call. -/
theorem readBack_toPure_distance : (∀ text ∈ distance.texts, '\\' ∉ text.toList) ∧
    distance.torn = false ∧ distance.signedReceiver = false ∧
    (∀ layout : Layout, layout.render distance.toPure = "(toOne($r.x) + -1)->abs()") ∧
    ∀ layout : Layout, readBack (layout.render distance.toPure) = some distance.term ∧
      ∀ receiver ∈ distance.receivers, StandsAlone (layout.render receiver) := by
  have plain : ∀ text ∈ distance.texts, '\\' ∉ text.toList := by decide
  have whole : distance.torn = false := by decide
  refine ⟨plain, whole, rfl, fun _ ↦ rfl, fun layout ↦ ?_⟩
  obtain ⟨-, alone, read⟩ := readBack_toPure_iff layout plain whole
  exact ⟨read.mpr rfl, alone.mpr rfl⟩

/-- The absolute value of a negative constant is read as the negative of an absolute value. -/
theorem exists_signed_receiver : ∃ p : TypedExpr, p.Built ∧
    (∀ text ∈ p.expr.texts, '\\' ∉ text.toList) ∧ p.expr.torn = false ∧
    ∀ layout : Layout, layout.render p.toPure = "-1->abs()" ∧
      p.expr.term = .arrow (.negative (.word "1")) "abs" [] ∧
      readBack (layout.render p.toPure) = some (.negative (.arrow (.word "1") "abs" [])) ∧
      ∃ receiver ∈ p.expr.receivers, ¬StandsAlone (layout.render receiver) := by
  have made : (TypedExpr.constant (.integer (-1))).math .abs = .ok ⟨.integer, _⟩ := rfl
  refine ⟨_, .math (.constant _) made, by decide, by decide, fun layout ↦ ⟨rfl, rfl, ?_, ?_⟩⟩
  · show readBack "-1->abs()" = _
    rfl
  · refine ⟨_, List.mem_cons_self, fun alone ↦ ?_⟩
    have signs := (Shows.intText (-1)).standsAlone_iff.mp alone
    exact absurd signs (by decide)

end Expr

end FrameQuery
