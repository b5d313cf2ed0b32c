import FrameQuery.Proofs.Expr.Brackets
import FrameQuery.Proofs.Pure.Documents

/-!
# Expressions as terms

Every expression has a term. Its text is read as what the term is read as, wherever the expression
stands: as an operand, as an argument, where operations lose their parentheses, and as a branch.
Texts are taken to hold no backslash, and no operand to lose parentheses that do not belong
together.
-/

namespace FrameQuery

open PureText (Term numberTerm isName Shows Ends Pointed Fills Lists infixes)

/-! ### Expressions as terms -/

/-- A constant as a term. -/
def Constant.term : Constant → Term
  | .boolean value => .word (if value then "true" else "false")
  | .integer value => numberTerm (PureText.intText value)
  | .float value => numberTerm value.toText
  | .string value => .text value
  | .strictDate value => .word ("%" ++ value.toText)
  | .dateTime value => .word ("%" ++ value.toText)

/-- The row that a column is read from, as a term. -/
def RowAccessor.term (accessor : Option RowAccessor) (row : RowVar) : Term :=
  let row : Term := .word ("$" ++ row.name)
  match accessor with
  | none => row
  | some .lead => .arrow (.word "$p") "lead" [row]
  | some .lag => .arrow (.word "$p") "lag" [row]
  | some .first => .arrow (.word "$p") "first" [.word "$w", row]
  | some .last => .arrow (.word "$p") "last" [.word "$w", row]
  | some (.nth n) =>
    .arrow (.word "$p") "nth" [.word "$w", row, numberTerm (PureText.intText n)]

/-- A ranking as a term. -/
def RankFunction.term : RankFunction → Term
  | .rowNumber => .arrow (.word "$p") "rowNumber" [.word "$r"]
  | .rank => .arrow (.word "$p") "rank" [.word "$w", .word "$r"]
  | .denseRank => .arrow (.word "$p") "denseRank" [.word "$w", .word "$r"]
  | .percentRank => .arrow (.word "$p") "percentRank" [.word "$w", .word "$r"]
  | .cumeDist => .arrow (.word "$p") "cumulativeDistribution" [.word "$w", .word "$r"]
  | .ntile buckets =>
    .arrow (.word "$p") "ntile" [.word "$r", numberTerm (PureText.intText buckets)]

/-- An operator without operands as a term. -/
def NullaryOperator.term : NullaryOperator → Term
  | .currentUser => .call "currentUserId" []
  | .today => .call "today" []
  | .now => .call "now" []
  | .rank function => function.term

/-- A unit of time as a term. -/
def unitTerm (unit : Sql.DurationUnit) : Term :=
  .member (.word "DurationUnit") (unit.keyword ++ "S")

/-- An operator applied to its operand as a term. -/
def UnaryOperator.term (operator : UnaryOperator) (value : Term) : Term :=
  match operator with
  | .negate => .arrow value "minus" []
  | .math function => .arrow value (mathName function) []
  | .round => .arrow value "round" []
  | .roundTo scale =>
    .arrow (.call "cast" [value, .word "@Float"]) "round" [numberTerm (PureText.intText scale)]
  | .not => .arrow value "not" []
  | .isEmpty => .arrow value "isEmpty" []
  | .isNotEmpty => .arrow value "isNotEmpty" []
  | .length => .arrow value "length" []
  | .like .startsWith text => .arrow value "startsWith" [.text text]
  | .like .endsWith text => .arrow value "endsWith" [.text text]
  | .like .contains text => .arrow value "contains" [.text text]
  | .upper => .arrow value "toUpper" []
  | .lower => .arrow value "toLower" []
  | .trim .left => .arrow value "ltrim" []
  | .trim .right => .arrow value "rtrim" []
  | .trim .both => .arrow value "trim" []
  | .parse .integer => .arrow value "parseInteger" []
  | .parse .float => .arrow value "parseFloat" []
  | .parse .boolean => .arrow value "parseBoolean" []
  | .parse .dateTime => .arrow value "parseDate" []
  | .dateTrunc part => .arrow value (dateTruncName part) []
  | .datePart field => .arrow value (datePartName field) []
  | .dateOnly => .arrow value "datePart" []
  | .adjust amount unit =>
    .arrow value "adjust" [numberTerm (PureText.intText amount), unitTerm unit]

/-- An operator applied to its operands as a term. -/
def BinaryOperator.term (operator : BinaryOperator) (left right : Term) : Term :=
  match operator with
  | .add | .concat => .operation "+" left right
  | .subtract => .operation "-" left right
  | .multiply => .operation "*" left right
  | .divide => .operation "/" left right
  | .modulo => .arrow left "mod" [right]
  | .power => .arrow left "pow" [right]
  | .remainder => .arrow left "rem" [right]
  | .arcTan2 => .arrow left "atan2" [right]
  | .compare operator => .operation (comparisonSymbol operator) left right
  | .and => .operation "&&" left right
  | .or => .operation "||" left right
  | .indexOf => .arrow left "indexOf" [right]

/-- An aggregate as a term. -/
def aggregateTerm : Sql.AggregateFunction → Term
  | .distinctCount => .arrow (.arrow (.word "$c") "distinct" []) "count" []
  | function => .arrow (.word "$c") (aggregateName function) []

namespace Expr

/-- An operand as a term, marked as present where that is asked for and not known. -/
def operandTerm (needed : Bool) (e : Expr) (term : Term) : Term :=
  if needed && !e.isPresent then .call "toOne" [term] else term

mutual

/-- An expression as a term. -/
def term : Expr → Term
  | column row name accessor => .member (RowAccessor.term accessor row) name
  | constant value => value.term
  | nullary operator => operator.term
  | unary operator operand => operator.term (operandTerm operator.needsOne operand operand.term)
  | binary operator left right =>
    operator.term (operandTerm operator.needsOne left left.term)
      (operandTerm operator.needsOne right right.term)
  | inList value items => .arrow (operandTerm true value value.term) "in" [.list (itemsTerms items)]
  | ifElse condition result otherwise =>
    .call "if" [operandTerm true condition condition.term, .branch result.term,
      .branch otherwise.term]
  | aggregate function _ => aggregateTerm function
  | joinStrings _ separator => .arrow (.word "$c") "joinStrings" [.text separator]

/-- The items of a list as terms. -/
def itemsTerms : List Expr → List Term
  | [] => []
  | item :: rest => item.term :: itemsTerms rest

end

/-- The items of a list as terms, one by one. -/
theorem itemsTerms_eq (items : List Expr) : itemsTerms items = items.map term := by
  induction items with
  | nil => rfl
  | cons item rest ih => rw [itemsTerms, ih, List.map_cons]

end Expr

/-! ### Lost parentheses -/

/-- Whether an operator casts its operand, so that the operand is no receiver. -/
def UnaryOperator.casts : UnaryOperator → Bool
  | .roundTo _ => true
  | _ => false

namespace Expr

/-- Whether an operand loses parentheses that do not belong together, as an argument or because it
is marked as present. -/
def tornOperand (argument needed : Bool) (e : Expr) : Bool :=
  (argument || (needed && !e.isPresent)) && e.mispaired

mutual

/-- Whether somewhere in an expression an operand loses parentheses that do not belong together. -/
def torn : Expr → Bool
  | column _ _ _ | constant _ | nullary _ | aggregate _ _ | joinStrings _ _ => false
  | unary operator operand => tornOperand operator.casts operator.needsOne operand || operand.torn
  | binary operator left right =>
    tornOperand false operator.needsOne left ||
        tornOperand (!operator.isInfix) operator.needsOne right ||
      (left.torn || right.torn)
  | inList value items => tornOperand false true value || (value.torn || itemsTorn items)
  | ifElse condition result otherwise =>
    tornOperand true true condition || result.mispaired || otherwise.mispaired ||
      (condition.torn || (result.torn || otherwise.torn))

/-- Whether somewhere in the items of a list an operand loses such parentheses. -/
def itemsTorn : List Expr → Bool
  | [] => false
  | item :: rest => item.torn || itemsTorn rest

end

/-- No operand is torn in a list if none is in its items. -/
theorem itemsTorn_eq_false {items : List Expr} :
    itemsTorn items = false ↔ ∀ item ∈ items, item.torn = false := by
  induction items with
  | nil => exact iff_of_true rfl (List.forall_mem_nil _)
  | cons item rest ih => rw [itemsTorn, Bool.or_eq_false_iff, ih, List.forall_mem_cons]

variable {condition result otherwise left right value : Expr} {items : List Expr}

/-- Nothing is torn in an operation on two operands if it tears neither. -/
theorem torn_binary {operator : BinaryOperator} : (binary operator left right).torn = false ↔
    (tornOperand false operator.needsOne left = false ∧
      tornOperand (!operator.isInfix) operator.needsOne right = false) ∧
    left.torn = false ∧ right.torn = false := by
  simp only [torn, Bool.or_eq_false_iff]

/-- Nothing is torn in a test for membership if its value is whole. -/
theorem torn_inList : (inList value items).torn = false ↔
    tornOperand false true value = false ∧ value.torn = false ∧
      ∀ item ∈ items, item.torn = false := by
  rw [torn, Bool.or_eq_false_iff, Bool.or_eq_false_iff, itemsTorn_eq_false]

/-- Nothing is torn in a choice if its condition and its branches are whole. -/
theorem torn_ifElse : (ifElse condition result otherwise).torn = false ↔
    (tornOperand true true condition = false ∧ result.mispaired = false ∧
      otherwise.mispaired = false) ∧
    condition.torn = false ∧ result.torn = false ∧ otherwise.torn = false := by
  simp only [torn, Bool.or_eq_false_iff, and_assoc]

end Expr

/-! ### Operators -/

section Operators

variable {layout : Layout} {value left right : Doc} {term leftTerm rightTerm : Term}

/-- A constant is read back. -/
theorem Constant.shows {value : Constant} (plain : ∀ text ∈ value.texts, '\\' ∉ text.toList) :
    Shows layout value.toPure value.term := by
  have dated {text : String} (h : PureText.IsWord ('%' :: text.toList)) :
      Shows layout (Doc.text "%" ++ Doc.text text) (.word ("%" ++ text)) := by
    rw [← Doc.text_append]
    apply Shows.word
    rwa [String.toList_append]
  cases value with
  | boolean value => cases value <;> exact .word (.of_isName rfl)
  | integer value => exact .intText value
  | float value =>
    obtain ⟨_, magnitude, he⟩ := value.exists_magnitude
    exact .number magnitude he
  | string value => exact (Ends.stringText (plain value List.mem_cons_self)).shows
  | strictDate value => exact dated (PureText.IsWord.date value)
  | dateTime value => exact dated (PureText.IsWord.dateTime value)

/-- A word is an argument. -/
private theorem lists_word {text : String} (h : isName text = true)
    (head : (Doc.text text).head? ≠ some (.char '(')) :
    Lists layout (PureText.strip (Doc.text text)) (.word text) :=
  (Shows.word (.of_isName h)).lists head

/-- A variable is an operand. -/
private theorem shows_name {text : String} (h : isName text = true) :
    Shows layout (Doc.text text) (.word text) := .word (.of_isName h)

/-- A call on a window is an operand. -/
private theorem ends_window {doc : Doc} {name : String} {arguments : List Doc} {terms : List Term}
    (hn : isName name = true) (he : doc = PureText.arrow (Doc.text "$p") name arguments)
    (h : List.Forall₂ (fun argument ↦ Lists layout (PureText.strip argument)) arguments terms) :
    Ends layout doc (.arrow (.word "$p") name terms) := by
  rw [he]
  exact .arrow (shows_name rfl) (.of_isName hn) h

/-- The frame that a call on a window takes. -/
private theorem lists_frame : Lists layout (PureText.strip (Doc.text "$w")) (.word "$w") :=
  lists_word rfl (by decide)

/-- The row that a call on a window takes. -/
private theorem lists_row (row : RowVar) :
    Lists layout (PureText.strip (Doc.text ("$" ++ row.name))) (.word ("$" ++ row.name)) := by
  cases row <;> exact lists_word rfl (by decide)

/-- The row that a column is read from is read back. -/
theorem RowAccessor.pointed (accessor : Option RowAccessor) (row : RowVar) :
    Pointed layout (Doc.text (RowAccessor.toPure accessor row))
      (RowAccessor.term accessor row) := by
  have self : Lists layout _ _ := lists_row row
  cases accessor with
  | none => cases row <;> exact .word (.of_isName rfl) rfl
  | some accessor =>
    apply Ends.pointed
    cases accessor with
    | nth n =>
      refine ends_window rfl ?_
        (.cons lists_frame (.cons self (.cons (PureText.lists_intText n) .nil)))
      have row : PureText.strip (Doc.text ("$" ++ row.name)) = Doc.text ("$" ++ row.name) := by
        cases row <;> rfl
      have window : PureText.strip (Doc.text "$w") = Doc.text "$w" := rfl
      rw [RowAccessor.toPure_nth, PureText.arrow, PureText.call, List.map_cons, List.map_cons,
        List.map_cons, List.map_nil, PureText.strip_intText, row, window, Doc.commaSep_cons_cons,
        Doc.commaSep_cons_cons, Doc.commaSep_singleton]
      simp only [List.append_assoc]
      rfl
    | lead => exact ends_window rfl (by cases row <;> rfl) (.cons self .nil)
    | lag => exact ends_window rfl (by cases row <;> rfl) (.cons self .nil)
    | first => exact ends_window rfl (by cases row <;> rfl) (.cons lists_frame (.cons self .nil))
    | last => exact ends_window rfl (by cases row <;> rfl) (.cons lists_frame (.cons self .nil))

/-- An operator without operands is read back. -/
theorem NullaryOperator.shows (operator : NullaryOperator) :
    Shows layout operator.toPure operator.term := by
  have row : Lists layout _ _ := lists_row .right
  have call (function : String) (h : isName function = true) :
      Shows layout (PureText.call function []) (.call function []) :=
    (Ends.call (.of_isName h) .nil).shows
  have ranked : List.Forall₂ (fun argument ↦ Lists layout (PureText.strip argument))
      [Doc.text "$w", Doc.text "$r"] [.word "$w", .word "$r"] :=
    .cons lists_frame (.cons row .nil)
  cases operator with
  | currentUser => exact call "currentUserId" rfl
  | today => exact call "today" rfl
  | now => exact call "now" rfl
  | rank function =>
    apply Ends.shows
    cases function with
    | rowNumber => exact ends_window rfl rfl (.cons row .nil)
    | ntile buckets =>
      refine ends_window rfl ?_ (.cons row (.cons (PureText.lists_intText buckets) .nil))
      have row : PureText.strip (Doc.text ("$" ++ RowVar.right.name)) = Doc.text "$r" := rfl
      rw [NullaryOperator.toPure_ntile, PureText.arrow, PureText.call, List.map_cons, List.map_cons,
        List.map_nil, PureText.strip_intText, row, Doc.commaSep_cons_cons, Doc.commaSep_singleton]
      simp only [List.append_assoc]
      rfl
    | rank => exact ends_window rfl rfl ranked
    | denseRank => exact ends_window rfl rfl ranked
    | percentRank => exact ends_window rfl rfl ranked
    | cumeDist => exact ends_window rfl rfl ranked

/-- A unit of time is read back. -/
theorem shows_unit (unit : Sql.DurationUnit) :
    Shows layout (Doc.text (PureText.unitText unit)) (unitTerm unit) := by
  have pointed : Pointed layout (Doc.text "DurationUnit") (.word "DurationUnit") :=
    .word (.of_isName rfl) rfl
  have spelled : PureText.Spells (unit.keyword ++ "S").toList [.word (unit.keyword ++ "S")] := by
    cases unit <;> exact (PureText.IsWord.of_isName rfl).spells
  have same : Doc.text (PureText.unitText unit) =
      Doc.text "DurationUnit" ++ Doc.text "." ++ Doc.text (unit.keyword ++ "S") := by
    cases unit <;> rfl
  rw [same]
  exact .member pointed spelled (.inl rfl)

/-- A unit of time is an argument. -/
private theorem lists_unit (unit : Sql.DurationUnit) :
    Lists layout (PureText.strip (Doc.text (PureText.unitText unit))) (unitTerm unit) :=
  (shows_unit unit).lists (by cases unit <;> decide)

/-- A cast is read back. -/
theorem shows_cast (h : Lists layout (PureText.strip value) term) :
    Shows layout ("cast(" ++ PureText.strip value ++ ", @Float)")
      (.call "cast" [term, .word "@Float"]) := by
  have float : Lists layout (Doc.text "@Float") (.word "@Float") := (shows_name rfl).fills.lists
  have cast : Ends layout _ (.call "cast" [term, .word "@Float"]) :=
    .applied (.of_isName rfl) (.cons h (.cons float .nil))
  have whole : Doc.text "cast(" ++ PureText.strip value ++ Doc.text ", @Float)" =
      Doc.text "cast" ++ Doc.text "(" ++ Doc.commaSep [PureText.strip value, Doc.text "@Float"] ++
        Doc.text ")" := by
    rw [Doc.commaSep_cons_cons, Doc.commaSep_singleton]
    simp only [List.append_assoc]
    rfl
  exact whole ▸ cast.shows

/-- An operator is read back if its operand is, where a cast takes it as an argument. -/
theorem UnaryOperator.shows {operator : UnaryOperator}
    (plain : ∀ text ∈ operator.texts, '\\' ∉ text.toList) (hv : Shows layout value term)
    (hc : operator.casts = true → Lists layout (PureText.strip value) term) :
    Shows layout (operator.toPure value) (operator.term term) := by
  have bare {function : String} (h : isName function = true) :
      Shows layout (PureText.arrow value function []) (.arrow term function []) :=
    (Ends.arrow hv (.of_isName h) .nil).shows
  cases operator with
  | math function => cases function <;> exact bare rfl
  | roundTo scale =>
    exact (Ends.arrow (shows_cast (hc rfl)) (.of_isName rfl)
      (.cons (PureText.lists_intText scale) .nil)).shows
  | like kind text =>
    have argument : Lists layout _ _ :=
      PureText.lists_stringText (plain text List.mem_cons_self)
    cases kind <;> exact (Ends.arrow hv (.of_isName rfl) (.cons argument .nil)).shows
  | trim kind => cases kind <;> exact bare rfl
  | parse target => cases target <;> exact bare rfl
  | dateTrunc part => cases part <;> exact bare rfl
  | datePart field => cases field <;> exact bare rfl
  | adjust amount unit =>
    exact (Ends.arrow hv (.of_isName rfl)
      (.cons (PureText.lists_intText amount) (.cons (lists_unit unit) .nil))).shows
  | _ => exact bare rfl

/-- An operator is read back if its operands are; a call takes the right one as an argument. -/
theorem BinaryOperator.shows (operator : BinaryOperator) (hl : Shows layout left leftTerm)
    (hr : Shows layout right rightTerm)
    (ha : operator.isInfix = false → Lists layout (PureText.strip right) rightTerm) :
    Shows layout (operator.toPure left right) (operator.term leftTerm rightTerm) := by
  have between {symbol : String} (known : symbol ∈ infixes) :
      Shows layout (PureText.operation symbol left right)
        (.operation symbol leftTerm rightTerm) := (Ends.operation hl hr known).shows
  have call {function : String} (h : isName function = true)
      (argument : Lists layout (PureText.strip right) rightTerm) :
      Shows layout (PureText.arrow left function [right])
        (.arrow leftTerm function [rightTerm]) :=
    (Ends.arrow hl (.of_isName h) (.cons argument .nil)).shows
  cases operator with
  | modulo | power | remainder | arcTan2 | indexOf => exact call rfl (ha rfl)
  | compare operator => cases operator <;> exact between (by decide)
  | _ => exact between (by decide)

/-- An operation is read back where it may lose its parentheses. -/
theorem BinaryOperator.fills {operator : BinaryOperator} (hi : operator.isInfix = true)
    (hl : Shows layout left leftTerm) (hr : Shows layout right rightTerm) :
    Fills layout (PureText.strip (operator.toPure left right))
      (operator.term leftTerm rightTerm) := by
  have between {symbol : String} (known : symbol ∈ infixes) :
      Fills layout (PureText.strip (PureText.operation symbol left right))
        (.operation symbol leftTerm rightTerm) := .operation hl hr known
  cases operator with
  | modulo | power | remainder | arcTan2 | indexOf => cases hi
  | compare operator => cases operator <;> exact between (by decide)
  | _ => exact between (by decide)

end Operators

/-! ### Expressions -/

namespace Expr

variable {layout : Layout} {e : Expr}

/-- The text of an expression is read as its term, also where it loses parentheses that belong
together. -/
structure ReadsBack (layout : Layout) (e : Expr) : Prop where
  shows : Shows layout e.toPure e.term
  fills : e.mispaired = false → Fills layout (PureText.strip e.toPure) e.term

/-- Only operations have parentheses to lose. -/
theorem ReadsBack.of_shows (h : Shows layout e.toPure e.term) (apart : e.isOperation = false) :
    ReadsBack layout e where
  shows := h
  fills paired := by
    rw [mispaired, apart, Bool.not_false, Bool.and_true] at paired
    exact h.strip paired

/-- An operand is read back, marked or not. -/
theorem ReadsBack.operand {needed : Bool} (h : ReadsBack layout e)
    (whole : tornOperand false needed e = false) :
    Shows layout (operandDoc needed e e.toPure) (operandTerm needed e e.term) := by
  rw [operandDoc, operandTerm]
  by_cases marked : (needed && !e.isPresent) = true
  · rw [if_pos marked, if_pos marked]
    rw [tornOperand, marked] at whole
    exact (Ends.call (.of_isName rfl) (.cons (h.fills whole).lists .nil)).shows
  · rw [if_neg marked, if_neg marked]
    exact h.shows

/-- An operand that is an argument is read back, marked or not. -/
theorem ReadsBack.argument {needed : Bool} (h : ReadsBack layout e)
    (whole : tornOperand true needed e = false) :
    Lists layout (PureText.strip (operandDoc needed e e.toPure))
      (operandTerm needed e e.term) := by
  rw [tornOperand, Bool.true_or, Bool.true_and] at whole
  have body := h.fills whole
  rw [operandDoc, operandTerm]
  split
  · have marked : Ends layout (PureText.toOne e.toPure) (.call "toOne" [e.term]) :=
      .call (.of_isName rfl) (.cons body.lists .nil)
    exact marked.shows.lists (by simp [PureText.toOne, PureText.call, Doc.text])
  · exact body.lists

/-- No operand is torn as what loses no parentheses if none is as what does. -/
theorem tornOperand_false {argument needed : Bool} (h : tornOperand argument needed e = false) :
    tornOperand false needed e = false := by
  cases argument with
  | false => exact h
  | true =>
    rw [tornOperand, Bool.true_or, Bool.true_and] at h
    rw [tornOperand, h, Bool.and_false]

/-- A call without arguments on the rows of a group. -/
theorem arrow_group (name : String) :
    Doc.text "$c->" ++ Doc.text name ++ Doc.text "()" = PureText.arrow (Doc.text "$c") name [] := by
  rw [PureText.arrow, PureText.call, ← List.append_assoc, ← List.append_assoc, ← List.append_assoc,
    List.append_assoc _ (Doc.text "("), List.append_assoc _ (Doc.text "(" ++ _)]
  rfl

/-- An aggregate is read back. -/
theorem shows_aggregate (function : Sql.AggregateFunction) (values : Expr) :
    Shows layout (aggregate function values).toPure (aggregate function values).term := by
  have group : Shows layout (Doc.text "$c") (.word "$c") := .word (.of_isName rfl)
  have call {name : String} (h : isName name = true) :
      Shows layout (Doc.text "$c->" ++ Doc.text name ++ Doc.text "()")
        (.arrow (.word "$c") name []) := by
    rw [arrow_group]
    exact (Ends.arrow group (.of_isName h) .nil).shows
  cases function with
  | distinctCount =>
    have distinct : Shows layout _ (.arrow (.word "$c") "distinct" []) := call rfl
    have counted : Ends layout _ (.arrow (.arrow (.word "$c") "distinct" []) "count" []) :=
      .arrow distinct (.of_isName rfl) .nil
    exact counted.shows
  | _ => exact call rfl

/-- The test for membership is a call with a list as its argument. -/
theorem toPure_inList (value : Expr) (items : List Expr) : (inList value items).toPure =
    PureText.arrow (operandDoc true value value.toPure) "in"
      [Doc.text "[" ++ Doc.commaSep (items.map toPure) ++ Doc.text "]"] := by
  have bracket : PureText.strip (Doc.text "[" ++ Doc.commaSep (items.map toPure) ++ Doc.text "]") =
      Doc.text "[" ++ Doc.commaSep (items.map toPure) ++ Doc.text "]" :=
    Doc.strip_of_head (by simp [Doc.text])
  rw [toPure, itemsToPure_eq, PureText.arrow, PureText.call, List.map_singleton, bracket,
    Doc.commaSep_singleton]
  simp only [List.append_assoc]
  rfl

/-- Expressions whose texts hold no backslash and whose operands lose no parentheses that do not
belong together are read back as what their terms are read as. -/
theorem readsBack (layout : Layout) (e : Expr) (plain : ∀ text ∈ e.texts, '\\' ∉ text.toList)
    (whole : e.torn = false) : ReadsBack layout e := by
  induction e with
  | column row name accessor =>
    refine .of_shows ?_ rfl
    exact .column (RowAccessor.pointed accessor row) (plain name List.mem_cons_self)
  | constant value => exact .of_shows (Constant.shows plain) rfl
  | nullary operator => exact .of_shows operator.shows rfl
  | unary operator operand ih =>
    obtain ⟨own, inside⟩ := List.forall_mem_append.mp plain
    obtain ⟨place, below⟩ := Bool.or_eq_false_iff.mp whole
    have read := ih inside below
    refine .of_shows (UnaryOperator.shows own (read.operand (tornOperand_false place)) ?_) rfl
    intro casts
    rw [casts] at place
    exact read.argument place
  | binary operator left right ihl ihr =>
    obtain ⟨first, second⟩ := List.forall_mem_append.mp plain
    obtain ⟨⟨onLeft, onRight⟩, wholeLeft, wholeRight⟩ := torn_binary.mp whole
    have readLeft := (ihl first wholeLeft).operand onLeft
    have readRight := ihr second wholeRight
    have operandRight := readRight.operand (tornOperand_false onRight)
    have shown : Shows layout (binary operator left right).toPure
        (binary operator left right).term := by
      apply operator.shows readLeft operandRight
      intro call
      rw [call] at onRight
      exact readRight.argument onRight
    constructor
    · exact shown
    · intro paired
      by_cases hi : operator.isInfix = true
      · exact BinaryOperator.fills hi readLeft operandRight
      · exact (ReadsBack.of_shows shown (Bool.eq_false_iff.mpr hi)).fills paired
  | inList value items ihv ihi =>
    obtain ⟨first, others⟩ := List.forall_mem_append.mp plain
    obtain ⟨place, wholeValue, wholeItems⟩ := torn_inList.mp whole
    refine .of_shows ?_ rfl
    rw [itemsTexts_eq] at others
    have each : List.Forall₂ (Lists layout) (items.map toPure) (items.map term) := by
      rw [List.forall₂_map_left_iff, List.forall₂_map_right_iff, List.forall₂_same]
      intro item hi
      have plainItem : ∀ text ∈ item.texts, '\\' ∉ text.toList :=
        fun text ht ↦ others text (List.mem_flatMap_of_mem hi ht)
      exact (ihi item hi plainItem (wholeItems item hi)).shows.fills.lists
    have list := (Ends.list each).shows.lists (by simp [Doc.text])
    rw [toPure_inList, term, itemsTerms_eq]
    have operand := (ihv first wholeValue).operand place
    exact (Ends.arrow operand (.of_isName rfl) (.cons list .nil)).shows
  | ifElse condition result otherwise ihc ihr iho =>
    obtain ⟨first, others⟩ := List.forall_mem_append.mp plain
    obtain ⟨second, third⟩ := List.forall_mem_append.mp others
    obtain ⟨⟨place, pairedResult, pairedOtherwise⟩, wholeCondition, wholeResult,
      wholeOtherwise⟩ := torn_ifElse.mp whole
    have branch {e : Expr} (h : ReadsBack layout e) (paired : e.mispaired = false) :
        Lists layout (PureText.strip (Doc.text "|" ++ PureText.strip e.toPure))
          (.branch e.term) := by
      rw [PureText.strip, Doc.strip_of_head (by simp [Doc.text])]
      exact (h.fills paired).branch
    refine .of_shows (Ends.call (.of_isName rfl) ?_).shows rfl
    exact .cons ((ihc first wholeCondition).argument place)
      (.cons (branch (ihr second wholeResult) pairedResult)
        (.cons (branch (iho third wholeOtherwise) pairedOtherwise) .nil))
  | aggregate function values => exact .of_shows (shows_aggregate function values) rfl
  | joinStrings values separator =>
    have text : Lists layout _ _ :=
      PureText.lists_stringText (plain separator List.mem_cons_self)
    have group : Shows layout (Doc.text "$c") (.word "$c") := .word (.of_isName rfl)
    exact .of_shows (Ends.arrow group (.of_isName rfl) (.cons text .nil)).shows rfl

end Expr

end FrameQuery
