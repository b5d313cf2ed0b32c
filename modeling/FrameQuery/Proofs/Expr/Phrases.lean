import FrameQuery.Proofs.Expr.Written
import FrameQuery.Proofs.Sql.Comments
import FrameQuery.Proofs.Sql.Phrases

/-!
# Expressions as phrases

The text of an expression for a database that follows the standard is the text of a phrase: columns,
constants and functions become words and calls, operators stand between their operands. The phrase
is found by recursion on the expression, and its text is the rendered one character by character.
-/

namespace FrameQuery

open Sql (Phrase Prefix Infix)

/-! ### Phrases of constants and operators -/

/-- A number with its sign. -/
def Sql.Phrase.number (text : String) : Phrase :=
  match text.toList with
  | '-' :: magnitude => .applied .minus (.word (String.ofList magnitude))
  | _ => .word text

/-- An integer. -/
def Sql.Phrase.integer (n : Int64) : Phrase := .number (toString n.toInt)

/-- A text between quotes. -/
def Sql.Phrase.string (text : String) : Phrase := .word (Quoted.doubled '\'' text)

/-- A call of a function whose arguments need not differ. -/
def Sql.Phrase.plainCall (function : String) (arguments : List Phrase) : Phrase :=
  .call function false arguments

/-- A constant. -/
def Constant.phrase : Constant → Phrase
  | .boolean value => .word (if value then "true" else "false")
  | .integer value => .integer value
  | .float value => .number value.toText
  | .string value => .string value
  | .strictDate value => .cast (.string value.toText) ["DATE"]
  | .dateTime value => .cast (.string value.toText) ["TIMESTAMP"]

/-- An operator without operands. -/
def NullaryOperator.phrase : NullaryOperator → Phrase
  | .currentUser => .word "CURRENT_USER"
  | .today => .word "CURRENT_DATE"
  | .now => .word "CURRENT_TIMESTAMP"
  | .rank .rowNumber => .plainCall "row_number" []
  | .rank .rank => .plainCall "rank" []
  | .rank .denseRank => .plainCall "dense_rank" []
  | .rank .percentRank => .plainCall "percent_rank" []
  | .rank .cumeDist => .plainCall "cume_dist" []
  | .rank (.ntile buckets) => .plainCall "ntile" [.integer buckets]

/-- The words of the type a text is cast to when it is read. -/
def ParseTarget.words : ParseTarget → List String
  | .integer => ["INTEGER"]
  | .float => ["DOUBLE", "PRECISION"]
  | .boolean => ["BOOLEAN"]
  | .dateTime => ["TIMESTAMP", "WITH", "TIME", "ZONE"]

/-- A span of time. -/
def Sql.Phrase.interval (amount : Int64) (unit : Sql.DurationUnit) : Phrase :=
  .applied .interval (.string (toString amount.toInt ++ " " ++ unit.keyword))

/-- An operator with its operand. -/
def UnaryOperator.phrase (operator : UnaryOperator) (operand : Phrase) : Phrase :=
  match operator with
  | .negate => .combined .subtract (.word "0") operand
  | .math function => .plainCall function.function [operand]
  | .round => .plainCall "ROUND" [operand]
  | .roundTo scale => .plainCall "ROUND" (operand :: if scale = 0 then [] else [.integer scale])
  | .not => .applied .not operand
  | .isEmpty => .nullity false operand
  | .isNotEmpty => .nullity true operand
  | .length => .plainCall "CHAR_LENGTH" [operand]
  | .like kind text => .combined .like operand (.string (kind.pattern text))
  | .upper => .plainCall "UPPER" [operand]
  | .lower => .plainCall "LOWER" [operand]
  | .trim kind => .plainCall kind.function [operand]
  | .parse target => .cast operand target.words
  | .dateTrunc part => .plainCall "DATE_TRUNC" [.word ("'" ++ part.unit ++ "'"), operand]
  | .datePart field => .plainCall "DATE_PART" [.word ("'" ++ field.unit ++ "'"), operand]
  | .dateOnly => .cast operand ["DATE"]
  | .adjust amount unit => .combined .add operand (.interval amount unit)

/-- An operator with its operands. -/
def BinaryOperator.phrase (operator : BinaryOperator) (left right : Phrase) : Phrase :=
  match operator with
  | .add => .combined .add left right
  | .subtract => .combined .subtract left right
  | .multiply => .combined .multiply left right
  | .divide => .combined .divide (.combined .multiply (.word "1.0") left) right
  | .modulo => .plainCall "MOD" [left, right]
  | .power => .plainCall "POWER" [left, right]
  | .remainder => .plainCall "MOD" [left, right]
  | .arcTan2 => .plainCall "ATAN2" [left, right]
  | .compare operator => .combined (.compare operator) left right
  | .and => .combined .and left right
  | .or => .combined .or left right
  | .indexOf => .plainCall "STRPOS" [left, right]
  | .concat => .plainCall "CONCAT" [left, right]

/-- A column at another row of the window. -/
def RowAccessor.phrase (accessor : RowAccessor) (column : Phrase) : Phrase :=
  match accessor with
  | .lead => .plainCall "lead" [column]
  | .lag => .plainCall "lag" [column]
  | .first => .plainCall "first_value" [column]
  | .last => .plainCall "last_value" [column]
  | .nth n => .plainCall "nth_value" [column, .integer n]

/-- A column of a relation. -/
def Sql.Phrase.column (relation name : String) : Phrase :=
  .word (Quoted.doubled '"' relation ++ "." ++ Quoted.doubled '"' name)

namespace Expr

mutual

/-- An expression as a phrase, given the relations that its rows belong to. -/
def phrase (relation : RowVar → String) : Expr → Phrase
  | column row name accessor =>
    accessor.elim (.column (relation row) name) (·.phrase (.column (relation row) name))
  | constant value => value.phrase
  | nullary operator => operator.phrase
  | unary operator operand => operator.phrase (operand.phrase relation)
  | binary operator left right => operator.phrase (left.phrase relation) (right.phrase relation)
  | inList value items => .within (value.phrase relation) (itemPhrases relation items)
  | ifElse condition result otherwise =>
    .branch (condition.phrase relation) (result.phrase relation) (otherwise.phrase relation)
  | aggregate function values =>
    .call function.function (function == .distinctCount) [values.phrase relation]
  | joinStrings values separator =>
    .plainCall "STRING_AGG" [values.phrase relation, .string separator]

/-- The items of a list as phrases. -/
def itemPhrases (relation : RowVar → String) : List Expr → List Phrase
  | [] => []
  | item :: rest => item.phrase relation :: itemPhrases relation rest

end

end Expr

/-! ### Phrases of expressions are proper -/

/-- Words that begin with a digit or a quote have no meaning of their own. -/
private theorem ofWord?_eq_none {word : String} {c : Char} {rest : List Char}
    (he : word.toList = c :: rest) (hc : c.isDigit = true ∨ c = '\'' ∨ c = '"') :
    Sql.Keyword.ofWord? word = none := by
  have heads : Sql.Keyword.words.all (fun p ↦ p.1.toList.head?.all fun c ↦
      !(c.isDigit || c == '\'' || c == '"')) = true := by decide
  rw [Sql.Keyword.ofWord?, List.lookup_eq_none_iff]
  refine fun p hp ↦ bne_iff_ne.mpr fun same ↦ ?_
  have head := List.all_eq_true.mp heads p hp
  rw [← same, he] at head
  rcases hc with hc | rfl | rfl
  · simp [hc] at head
  · cases head
  · cases head

namespace Sql.Phrase

/-- A text between quotes is a word. -/
theorem proper_string (text : String) : (string text).Proper := by
  have opening : ∃ rest, (Quoted.doubled '\'' text).toList = '\'' :: rest := by
    rw [Quoted.doubled, String.toList_ofList]
    exact ⟨_, rfl⟩
  obtain ⟨rest, he⟩ := opening
  exact .word (.doubled rfl text) (ofWord?_eq_none he (.inr (.inl rfl)))

/-- A column of a relation is a word. -/
theorem proper_column (relation name : String) : (column relation name).Proper := by
  have text : (Quoted.doubled '"' relation ++ "." ++ Quoted.doubled '"' name).toList =
      (Quoted.doubled '"' relation).toList ++ '.' :: (Quoted.doubled '"' name).toList := by
    simp
  have opening : ∃ rest, (Quoted.doubled '"' relation ++ "." ++ Quoted.doubled '"' name).toList =
      '"' :: rest := by
    rw [text, Quoted.doubled, String.toList_ofList]
    exact ⟨_, rfl⟩
  obtain ⟨rest, he⟩ := opening
  refine .word ?_ (ofWord?_eq_none he (.inr (.inr rfl)))
  rw [text]
  exact .qualified relation name

/-- A magnitude is a word and has no sign. -/
private theorem proper_magnitude {text : List Char} (h : Magnitude text) :
    (word (String.ofList text)).Proper ∧ text.head? ≠ some '-' := by
  have isWord : IsWord (String.ofList text).toList := by
    rw [String.toList_ofList]
    exact h.isWord
  have digits {c : Char} {rest : List Char} (he : text = c :: rest) (hc : c.isDigit = true) :
      (word (String.ofList text)).Proper ∧ text.head? ≠ some '-' := by
    refine ⟨.word isWord (ofWord?_eq_none (by rw [String.toList_ofList, he]) (.inl hc)), ?_⟩
    rintro hd
    rw [he] at hd
    rw [Option.some.inj hd] at hc
    cases hc
  cases h with
  | infinite => exact ⟨.word isWord (by decide), by decide⟩
  | noNumber => exact ⟨.word isWord (by decide), by decide⟩
  | positional hm =>
    obtain ⟨c, rest, he, hc⟩ := hm.head
    exact digits he hc
  | scaled _ hm _ =>
    obtain ⟨c, rest, he, hc⟩ := hm.head
    exact digits (by rw [he]; rfl) hc

/-- A number is a word, perhaps behind a minus. -/
theorem proper_number {text : String} {negative : Bool} {magnitude : List Char}
    (h : Magnitude magnitude) (he : text.toList = minus negative ++ magnitude) :
    (number text).Proper := by
  obtain ⟨proper, unsigned⟩ := proper_magnitude h
  have same : negative = false → text = String.ofList magnitude := by
    rintro rfl
    rw [← String.ofList_toList (s := text), he]
    rfl
  rw [number]
  split
  · next rest ht =>
    cases negative with
    | false =>
      rw [he] at ht
      exact absurd (congrArg List.head? ht) unsigned
    | true =>
      obtain rfl : magnitude = rest := (List.cons.inj (he.symm.trans ht)).2
      exact .signed nofun proper
  · next plain =>
    cases negative with
    | false => rwa [same rfl]
    | true => exact absurd he (plain _)

/-- An integer is a word, perhaps behind a minus. -/
theorem proper_integer (n : Int64) : (integer n).Proper := by
  obtain ⟨text, mantissa, he⟩ := Int.exists_mantissa n.toInt
  exact proper_number (.positional mantissa) he

/-- Whether a text is made of plain characters and has no meaning of its own. -/
def isName (text : String) : Bool :=
  !text.toList.isEmpty && text.toList.all Lexer.isPlain && (Keyword.ofWord? text).isNone

/-- Names are words. -/
theorem proper_name {text : String} (h : isName text = true) : (word text).Proper := by
  simp only [isName, Bool.and_eq_true, Bool.not_eq_true', List.isEmpty_eq_false_iff,
    Option.isNone_iff_eq_none] at h
  exact .word (.of_plain h.1.1 (List.all_eq_true.mp h.1.2)) h.2

/-- A call of a named function is proper if its arguments are. -/
theorem proper_plainCall {function : String} {arguments : List Phrase}
    (name : isName function = true) (h : ∀ argument ∈ arguments, argument.Proper) :
    (plainCall function arguments).Proper :=
  .call (proper_name name) nofun h

end Sql.Phrase

open Sql.Phrase (isName proper_string proper_column proper_number proper_integer proper_name
  proper_plainCall)

variable {operand left right : Phrase}

/-- Constants are proper. -/
theorem Constant.proper_phrase (value : Constant) : value.phrase.Proper := by
  cases value with
  | boolean value => cases value <;> exact proper_name rfl
  | integer value => exact proper_integer value
  | float value =>
    obtain ⟨_, magnitude, he⟩ := value.exists_magnitude
    exact proper_number magnitude he
  | string value => exact proper_string value
  | strictDate value => exact .cast (proper_string _) nofun fun _ ↦ rfl
  | dateTime value => exact .cast (proper_string _) nofun fun _ ↦ rfl

/-- Operators without operands are proper. -/
theorem NullaryOperator.proper_phrase (operator : NullaryOperator) : operator.phrase.Proper := by
  cases operator with
  | rank function =>
    cases function with
    | ntile buckets =>
      exact proper_plainCall rfl (List.forall_mem_singleton.mpr (proper_integer buckets))
    | _ => exact proper_plainCall rfl (by simp)
  | _ => exact proper_name rfl

/-- Columns at another row are proper. -/
theorem RowAccessor.proper_phrase (accessor : RowAccessor) (h : operand.Proper) :
    (accessor.phrase operand).Proper := by
  cases accessor with
  | nth n =>
    exact proper_plainCall rfl
      (List.forall_mem_cons.mpr ⟨h, List.forall_mem_singleton.mpr (proper_integer n)⟩)
  | _ => exact proper_plainCall rfl (List.forall_mem_singleton.mpr h)

/-- An operator with its operand is proper if the operand is. -/
theorem UnaryOperator.proper_phrase (operator : UnaryOperator) (h : operand.Proper) :
    (operator.phrase operand).Proper := by
  have one {text : String} (name : isName text = true) : (Phrase.plainCall text [operand]).Proper :=
    proper_plainCall name (List.forall_mem_singleton.mpr h)
  have two {text : String} {first : Phrase} (name : isName text = true) (hf : first.Proper) :
      (Phrase.plainCall text [first, operand]).Proper :=
    proper_plainCall name (List.forall_mem_cons.mpr ⟨hf, List.forall_mem_singleton.mpr h⟩)
  cases operator with
  | negate => exact .combined (proper_name rfl) h
  | math function => cases function <;> exact one rfl
  | roundTo scale =>
    refine proper_plainCall rfl (List.forall_mem_cons.mpr ⟨h, ?_⟩)
    split
    · simp
    · exact List.forall_mem_singleton.mpr (proper_integer scale)
  | not => exact .negated h
  | isEmpty => exact .nullity h
  | isNotEmpty => exact .nullity h
  | like kind text => exact .combined h (proper_string _)
  | trim kind => cases kind <;> exact one rfl
  | parse target => cases target <;> exact .cast h nofun fun _ ↦ rfl
  | dateTrunc part =>
    refine two rfl ?_
    cases part <;> exact .word ⟨by decide, fun _ ↦ rfl⟩ (by decide)
  | datePart field =>
    refine two rfl ?_
    cases field <;> exact .word ⟨by decide, fun _ ↦ rfl⟩ (by decide)
  | dateOnly => exact .cast h nofun fun _ ↦ rfl
  | adjust amount unit => exact .combined h (.signed nofun (proper_string _))
  | _ => exact one rfl

/-- An operator with its operands is proper if they are. -/
theorem BinaryOperator.proper_phrase (operator : BinaryOperator) (hl : left.Proper)
    (hr : right.Proper) : (operator.phrase left right).Proper := by
  cases operator with
  | add | subtract | multiply | compare | and | or => exact .combined hl hr
  | divide =>
    exact .combined (.combined (.word ⟨by decide, fun _ ↦ rfl⟩ (by decide)) hl) hr
  | _ =>
    exact proper_plainCall rfl
      (List.forall_mem_cons.mpr ⟨hl, List.forall_mem_singleton.mpr hr⟩)

namespace Expr

/-- The items of a list are phrases one by one. -/
theorem itemPhrases_eq_map {relation : RowVar → String} {items : List Expr} :
    itemPhrases relation items = items.map (phrase relation) := by
  induction items with
  | nil => rfl
  | cons item items ih => rw [itemPhrases, ih, List.map_cons]

/-- Whether an expression is a negated condition. -/
def isNegation : Expr → Bool
  | unary .not _ => true
  | _ => false

/-- Whether an expression is a membership. -/
def isMembership : Expr → Bool
  | inList _ _ => true
  | _ => false

/-- Whether an expression is a condition that is written without parentheses around it. -/
def isBare (e : Expr) : Bool := e.isNegation || e.isMembership

end Expr

/-- Whether an operator may be applied to a condition. -/
def UnaryOperator.takesConditions : UnaryOperator → Bool
  | .not | .isEmpty | .isNotEmpty => true
  | _ => false

/-- Whether an operator may be applied to conditions. -/
def BinaryOperator.takesConditions : BinaryOperator → Bool
  | .compare _ | .and | .or => true
  | _ => false

namespace Expr

/-- Expressions whose lists have items, in which no minus stands directly before a constant, and in
which conditions are operands only where they may be. -/
inductive Regular : Expr → Prop
  | column (row : RowVar) (name : String) (accessor : Option RowAccessor) :
    Regular (column row name accessor)
  | constant (value : Constant) : Regular (constant value)
  | nullary (operator : NullaryOperator) : Regular (nullary operator)
  | unary {operator : UnaryOperator} {operand : Expr} (h : Regular operand)
    (unsigned : operator = .negate → ∀ value, operand ≠ .constant value)
    (apart : operator.takesConditions = false → operand.isBare = false) :
    Regular (unary operator operand)
  | binary {operator : BinaryOperator} {left right : Expr} (hl : Regular left)
    (hr : Regular right)
    (apart : operator.takesConditions = false → left.isBare = false ∧ right.isBare = false) :
    Regular (binary operator left right)
  | inList {value : Expr} {items : List Expr} (hv : Regular value) (ne : items ≠ [])
    (hi : ∀ item ∈ items, Regular item) : Regular (inList value items)
  | ifElse {condition result otherwise : Expr} (hc : Regular condition) (hr : Regular result)
    (ho : Regular otherwise) : Regular (ifElse condition result otherwise)
  | aggregate (function : Sql.AggregateFunction) {values : Expr} (h : Regular values) :
    Regular (aggregate function values)
  | joinStrings {values : Expr} (separator : String) (h : Regular values) :
    Regular (joinStrings values separator)

/-- Regular expressions are proper phrases. -/
theorem Regular.proper_phrase {e : Expr} (regular : e.Regular) (relation : RowVar → String) :
    (e.phrase relation).Proper := by
  induction regular with
  | column row name accessor =>
    cases accessor with
    | none => exact proper_column _ _
    | some accessor => exact accessor.proper_phrase (proper_column _ _)
  | constant value => exact value.proper_phrase
  | nullary operator => exact operator.proper_phrase
  | unary _ _ _ ih => exact UnaryOperator.proper_phrase _ ih
  | binary _ _ _ ihl ihr => exact BinaryOperator.proper_phrase _ ihl ihr
  | inList _ ne _ ihv ihi =>
    rw [phrase, itemPhrases_eq_map]
    exact .within ihv (by simpa using ne) (List.forall_mem_map.mpr ihi)
  | ifElse _ _ _ ihc ihr iho => exact .branch ihc ihr iho
  | aggregate function _ ih =>
    have name : (Phrase.word function.function).Proper := by
      cases function <;> exact proper_name rfl
    exact .call name nofun (List.forall_mem_singleton.mpr ih)
  | joinStrings separator _ ih =>
    exact proper_plainCall rfl
      (List.forall_mem_cons.mpr ⟨ih, List.forall_mem_singleton.mpr (proper_string _)⟩)

end Expr

end FrameQuery
