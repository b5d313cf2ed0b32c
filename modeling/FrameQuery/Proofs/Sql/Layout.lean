import FrameQuery.Proofs.Outcome
import FrameQuery.Proofs.Text.Layout
import FrameQuery.Sql.Rendering

/-!
# Ends of rendered expressions

An expression never starts or ends with a seam: next to a seam stands a parenthesis. So outer
parentheses are found in its document where they are found in its text, in every layout.
-/

namespace FrameQuery.Sql

open Outcome (Gives)

variable {d : Dialect}

/-! ### Parts of statements -/

/-- A document in parentheses is firm. -/
theorem firm_parens (depth : Nat) (inner : Doc) : (parens depth inner).Firm :=
  .of_ends '(' ')' rfl List.getLast?_concat

/-- A call is firm. -/
theorem firm_callDoc (function : String) (arguments : List Doc) :
    (callDoc function arguments).Firm := by
  rw [callDoc, List.append_assoc, List.append_assoc, ← List.append_assoc (Doc.text "(")]
  exact .append (.text function) (.of_ends '(' ')' rfl List.getLast?_concat)

/-- An operation in parentheses is firm. -/
theorem firm_infixDoc (word : String) (left right : Doc) : (infixDoc word left right).Firm :=
  .of_ends '(' ')' rfl List.getLast?_concat

/-- A name is firm. -/
theorem Dialect.firm_nameDoc (name : QualifiedName) : (d.nameDoc name).Firm := by
  refine .sepBy (.text ".") fun doc hd ↦ ?_
  obtain ⟨part, -, rfl⟩ := List.mem_map.mp hd
  exact .text _

/-- A span of time is firm. -/
theorem Dialect.firm_intervalDoc (interval : IntervalLiteral) :
    (d.intervalDoc interval).Firm := by
  have span : (intDoc interval.amount ++ Doc.text " " ++ interval.unit.keyword).Firm :=
    ((Doc.Firm.text _).append (.text " ")).append (.text _)
  rw [intervalDoc]
  split
  · exact ((Doc.Firm.text "INTERVAL '").append span).append (.text "'")
  · exact (Doc.Firm.text "INTERVAL ").append span

/-- A constant is firm. -/
theorem Dialect.firm_literalDoc (value : Literal) : (d.literalDoc value).Firm := by
  cases value with
  | boolean value => cases value <;> exact .text _
  | integer value => exact .text _
  | double value => exact .text _
  | string value quoted => cases quoted <;> exact .text _
  | null => exact .text _
  | interval span => exact d.firm_intervalDoc span

/-- An arithmetic operation is firm. -/
theorem firm_arithmeticDoc (operator : ArithmeticOperator) (left right : Doc) :
    (arithmeticDoc operator left right).Firm := by
  cases operator with
  | modulus => exact firm_callDoc _ _
  | _ => exact firm_infixDoc _ _ _

/-- The current time is firm. -/
theorem firm_currentTimeDoc (kind : CurrentTimeKind) (precision : Option UInt32) :
    (currentTimeDoc kind precision).Firm := by
  cases kind with
  | date => exact .text _
  | time | timestamp =>
    cases precision with
    | none => exact (Doc.Firm.text _).append .nil
    | some p => exact (Doc.Firm.text _).append (.text _)

/-- A case distinction is firm. -/
theorem firm_caseDoc (depth : Nat) (branches : List Doc) (otherwise : Option Doc) :
    (caseDoc depth branches otherwise).Firm :=
  .of_ends 'C' 'D' rfl (List.getLast?_append_of_ne_nil _ (by decide))

/-- A window is firm. -/
theorem firm_overDoc (partitions orderBy : List Doc) (frame : Option Doc) :
    (overDoc partitions orderBy frame).Firm :=
  .of_ends 'O' ')' rfl List.getLast?_concat

/-! ### Nodes -/

/-- Whatever an operation gives, what is made of it has a property that does not depend on it. -/
private theorem gives_bind {α β : Type} {x : Outcome α} {f : α → Outcome β} {P : β → Prop}
    (h : ∀ a, Gives (f a) P) : Gives (x >>= f) P :=
  Gives.bind (P := fun _ ↦ True) (fun _ _ ↦ trivial) fun a _ ↦ h a

/-- A window as it stands behind a call is firm. -/
theorem Window.firm_doc (window : Window) (depth : Nat) : Gives (window.doc d depth) Doc.Firm := by
  obtain ⟨reference, partitions, orderBy, frame⟩ := window
  cases reference with
  | some reference => exact .ok (.text _)
  | none =>
    refine gives_bind fun _ ↦ gives_bind fun _ ↦ ?_
    cases WindowFrame.optionDoc d frame depth with
    | none => exact .ok (firm_overDoc _ _ _)
    | some frame => exact gives_bind fun _ ↦ .ok (firm_overDoc _ _ _)

/-- A sub-query is firm. -/
theorem Query.firm_doc (query : Query) (depth : Nat) :
    Gives (query.doc d true depth) Doc.Firm := by
  obtain ⟨body, orderBy, limit, offset⟩ := query
  rw [Query.doc]
  split
  · next plain =>
    cases body with
    | specification query =>
      rw [Relation.doc]
      exact gives_bind fun _ ↦ .ok (firm_parens _ _)
    | union left right distinct =>
      rw [Relation.doc]
      exact gives_bind fun _ ↦ gives_bind fun _ ↦ .ok (firm_parens _ _)
    | _ => cases plain
  · exact gives_bind fun _ ↦ gives_bind fun _ ↦ gives_bind fun _ ↦
      .ok (.of_ends '(' ')' rfl List.getLast?_concat)

/-- A function call is firm. -/
theorem FunctionCall.firm_doc (call : FunctionCall) (depth : Nat) :
    Gives (call.doc d depth) Doc.Firm := by
  obtain ⟨name, distinct, arguments, filter, window⟩ := call
  rw [FunctionCall.doc]
  refine gives_bind fun arguments ↦ ?_
  have filtered : Gives (optionally (fun f ↦ " FILTER (WHERE " ++ f ++ ")")
      (Expression.optionDoc d filter depth)) Doc.Firm := by
    cases filter with
    | none => exact .ok .nil
    | some filter =>
      exact gives_bind fun _ ↦ .ok (.of_ends ' ' ')' rfl List.getLast?_concat)
  have windowed : Gives (optionally (fun w ↦ " " ++ w) (Window.optionDoc d window depth))
      Doc.Firm := by
    cases window with
    | none => exact .ok .nil
    | some window => exact (window.firm_doc depth).map fun _ hw ↦ (Doc.Firm.text " ").append hw
  refine filtered.bind fun _ hf ↦ windowed.bind fun _ hw ↦ .ok (.append (.append ?_ hf) hw)
  simp only [List.append_assoc]
  refine (d.firm_nameDoc name).append ?_
  simp only [← List.append_assoc]
  exact .of_ends '(' ')' rfl List.getLast?_concat

/-- A rounding is firm. -/
private theorem firm_round (value : Expression) (scale : Option Expression) (depth : Nat) :
    Gives ((Extension.round value scale).doc d depth) Doc.Firm := by
  rw [Extension.doc.eq_def]
  dsimp only
  split
  · exact gives_bind fun _ ↦ .ok (firm_callDoc _ _)
  · exact gives_bind fun _ ↦ .ok (firm_callDoc _ _)
  · exact gives_bind fun _ ↦ .ok (firm_callDoc _ _)
  · exact fun _ h ↦ absurd h Outcome.fail_ne_ok

/-- A domain function is firm. -/
theorem Extension.firm_doc (function : Extension) (depth : Nat) :
    Gives (function.doc d depth) Doc.Firm := by
  have one (x : Expression) {f : Doc → Doc} (hf : ∀ doc, (f doc).Firm) :
      Gives (x.doc d depth >>= fun doc ↦ .ok (f doc)) Doc.Firm :=
    gives_bind fun doc ↦ .ok (hf doc)
  have two (x y : Expression) {f : Doc → Doc → Doc} (hf : ∀ first second, (f first second).Firm) :
      Gives (x.doc d depth >>= fun first ↦ y.doc d depth >>= fun second ↦ .ok (f first second))
        Doc.Firm :=
    gives_bind fun first ↦ gives_bind fun second ↦ .ok (hf first second)
  cases function with
  | stringLike value pattern => exact two value pattern fun _ _ ↦ firm_infixDoc _ _ _
  | stringPos value other =>
    rw [Extension.doc]
    split
    · exact two other value fun _ _ ↦ firm_callDoc _ _
    · exact two value other fun _ _ ↦ firm_callDoc _ _
  | stringConcat first second | power first second | remainder first second
  | arcTan2 first second | joinStrings first second =>
    exact two first second fun _ _ ↦ firm_callDoc _ _
  | round value scale => exact firm_round value scale depth
  | aggregate function value => cases function <;> exact one value fun _ ↦ firm_callDoc _ _
  | datePart field value =>
    refine one value fun doc ↦ ?_
    split <;> exact firm_callDoc _ _
  | dateAdjust value interval =>
    refine one value fun doc ↦ ?_
    split
    · exact firm_callDoc _ _
    · exact firm_infixDoc _ _ _
  | stringLength value | stringUpper value | stringLower value | stringTrim value _ | math _ value
  | dateTrunc _ value =>
    exact one value fun _ ↦ firm_callDoc _ _

/-- An expression is firm. -/
theorem Expression.firm_doc (x : Expression) (depth : Nat) : Gives (x.doc d depth) Doc.Firm := by
  cases x with
  | literal value => exact .ok (d.firm_literalDoc value)
  | reference name => exact .ok (d.firm_nameDoc name)
  | comparison operator left right | logical operator left right =>
    exact gives_bind fun _ ↦ gives_bind fun _ ↦ .ok (firm_infixDoc _ _ _)
  | not value =>
    rw [Expression.doc]
    refine (firm_doc value depth).bind fun _ hv ↦ ?_
    split
    · exact .ok ((Doc.Firm.text "NOT").append hv)
    · exact .ok ((Doc.Firm.text "NOT").append hv)
    · exact .ok (firm_callDoc _ _)
  | arithmetic operator left right =>
    exact gives_bind fun _ ↦ gives_bind fun _ ↦ .ok (firm_arithmeticDoc _ _ _)
  | negative value =>
    rw [Expression.doc]
    refine (firm_doc value depth).bind fun _ hv ↦ .ok ?_
    split
    · exact (Doc.Firm.text "-").append hv
    · exact firm_infixDoc _ _ _
  | cast value columnType =>
    exact gives_bind fun _ ↦ .ok (.of_ends 'C' ')' rfl List.getLast?_concat)
  | list items =>
    exact gives_bind fun _ ↦ .ok (.of_ends '(' ')' rfl List.getLast?_concat)
  | inPredicate value items =>
    exact (firm_doc value depth).bind fun _ hv ↦ (firm_doc items depth).bind fun _ hi ↦
      .ok ((hv.append (.text " IN ")).append hi)
  | isNull value | isNotNull value =>
    exact gives_bind fun _ ↦
      .ok (.of_ends '(' ')' rfl (List.getLast?_append_of_ne_nil _ (by decide)))
  | currentTime kind precision => exact .ok (firm_currentTimeDoc kind precision)
  | extract field value =>
    exact gives_bind fun _ ↦ .ok (.of_ends 'E' ')' rfl List.getLast?_concat)
  | call function => exact function.firm_doc depth
  | namedArgument name value =>
    exact (firm_doc value depth).bind fun _ hv ↦
      .ok (((Doc.Firm.text name).append (.text " => ")).append hv)
  | searchedCase whenClauses otherwise =>
    rw [Expression.doc]
    refine gives_bind fun _ ↦ ?_
    cases Expression.optionDoc d otherwise (depth + 2) with
    | none => exact .ok (firm_caseDoc _ _ _)
    | some value => exact gives_bind fun _ ↦ .ok (firm_caseDoc _ _ _)
  | window nested window =>
    exact (firm_doc nested depth).bind fun _ hn ↦ (window.firm_doc depth).bind fun _ hw ↦
      .ok ((hn.append (.text " ")).append hw)
  | subquery query => exact query.firm_doc depth
  | constant token => exact .ok (.text token)
  | extension function => exact function.firm_doc depth

end FrameQuery.Sql
