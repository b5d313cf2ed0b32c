import FrameQuery.Expr.Sql
import FrameQuery.Proofs.Expr.Phrases

/-!
# Expressions are written as their phrases

For the first of the known databases the rendered text of an expression on one line is the text of
its phrase. This is proved operator by operator: the text of an operator is put together from those
of its operands in the same way on both sides.
-/

namespace FrameQuery

open Sql (Phrase Database callDoc infixDoc intDoc)

/-! ### Documents that are the same on one line -/

/-- Documents that are written as the same characters on one line. -/
def Doc.Same (first second : Doc) : Prop :=
  Sql.Format.compact.layout.chars first = Sql.Format.compact.layout.chars second

namespace Doc.Same

variable {a b c d : Doc} {as bs : List Doc}

/-- A document is the same as itself. -/
theorem refl (a : Doc) : Same a a := rfl

/-- Documents whose parts are the same. -/
theorem append (hf : Same a b) (hs : Same c d) : Same (a ++ c) (b ++ d) := by
  rw [Same, Layout.chars_append, Layout.chars_append, hf, hs]

/-- Lists of documents that are the same. -/
theorem commaSep (h : List.Forall₂ Same as bs) : Same (Doc.commaSep as) (Doc.commaSep bs) := by
  induction h with
  | nil => rfl
  | @cons a b as bs first rest ih =>
    cases rest with
    | nil =>
      rw [Doc.commaSep, Doc.commaSep, Doc.sepBy, Doc.sepBy, List.intercalate_singleton,
        List.intercalate_singleton]
      exact first
    | cons second rest =>
      rw [Doc.commaSep, Doc.commaSep, Doc.sepBy, Doc.sepBy, List.intercalate_cons_cons,
        List.intercalate_cons_cons]
      exact (first.append rfl).append ih

/-- Two operands that are the same, with an operator between them. -/
theorem infixDoc (word : String) (hl : Same a b) (hr : Same c d) :
    Same (infixDoc word a c) (infixDoc word b d) :=
  ((((((refl "(").append hl).append (refl " ")).append (refl word)).append (refl " ")).append
    hr).append (refl ")")

/-- Calls whose arguments are the same. -/
theorem callDoc (function : String) (h : List.Forall₂ Same as bs) :
    Same (callDoc function as)
      (Doc.text function ++ Doc.text "(" ++ Doc.text "" ++ Doc.commaSep bs ++ Doc.text ")") :=
  have opening : Same (Doc.text function ++ Doc.text "(")
      (Doc.text function ++ Doc.text "(" ++ Doc.text "") :=
    congrArg _ (List.append_nil _).symm
  (opening.append (commaSep h)).append (refl ")")

end Doc.Same

namespace Sql.Expression

/-- An expression whose text is that of a phrase. -/
def Writes (x : Expression) (phrase : Phrase) : Prop :=
  ∀ depth, ∃ doc, x.doc Database.postgres.dialect depth = .ok doc ∧ doc.Same (phrase.doc false)

variable {x value left right : Expression} {p q r : Phrase}

/-- An expression with one operand is written as a phrase if what is put around the text of the
operand is. -/
theorem Writes.one {write : Doc → Doc} (h : value.Writes p)
    (doc : ∀ depth, x.doc Database.postgres.dialect depth =
      value.doc Database.postgres.dialect depth >>= fun v ↦ .ok (write v))
    (same : ∀ {v : Doc}, v.Same (p.doc false) → (write v).Same (q.doc false)) : x.Writes q := by
  intro depth
  obtain ⟨v, hv, sv⟩ := h depth
  exact ⟨write v, by rw [doc, hv]; rfl, same sv⟩

/-- An expression with two operands is written as a phrase if what is put around their texts is. -/
theorem Writes.two {write : Doc → Doc → Doc} (hl : left.Writes p) (hr : right.Writes q)
    (doc : ∀ depth, x.doc Database.postgres.dialect depth =
      left.doc Database.postgres.dialect depth >>= fun l ↦
        right.doc Database.postgres.dialect depth >>= fun r ↦ .ok (write l r))
    (same : ∀ {v w : Doc}, v.Same (p.doc false) → w.Same (q.doc false) →
      (write v w).Same (r.doc false)) : x.Writes r := by
  intro depth
  obtain ⟨v, hv, sv⟩ := hl depth
  obtain ⟨w, hw, sw⟩ := hr depth
  exact ⟨write v w, by rw [doc, hv, Outcome.ok_bind, hw]; rfl, same sv sw⟩

/-- An expression without operands is written as a word. -/
theorem writes_of_doc {doc : Doc} (h : ∀ depth, x.doc Database.postgres.dialect depth = .ok doc)
    (same : doc.Same (p.doc false)) : x.Writes p :=
  fun depth ↦ ⟨doc, h depth, same⟩

/-- Two operands with an operator between them. -/
theorem Writes.combined (operator : Infix) (hl : left.Writes p) (hr : right.Writes q)
    (doc : ∀ depth, x.doc Database.postgres.dialect depth =
      left.doc Database.postgres.dialect depth >>= fun l ↦
        right.doc Database.postgres.dialect depth >>= fun r ↦ .ok (infixDoc operator.word l r)) :
    x.Writes (.combined operator p q) :=
  hl.two hr doc fun hl hr ↦ .infixDoc _ hl hr

/-- A call with one argument. -/
theorem Writes.called (function : String) (h : value.Writes p)
    (doc : ∀ depth, x.doc Database.postgres.dialect depth =
      value.doc Database.postgres.dialect depth >>= fun v ↦ .ok (callDoc function [v])) :
    x.Writes (.plainCall function [p]) :=
  h.one doc fun hv ↦ .callDoc function (.cons hv .nil)

/-- A call with two arguments. -/
theorem Writes.calledTwo (function : String) (hl : left.Writes p) (hr : right.Writes q)
    (doc : ∀ depth, x.doc Database.postgres.dialect depth =
      left.doc Database.postgres.dialect depth >>= fun l ↦
        right.doc Database.postgres.dialect depth >>= fun r ↦ .ok (callDoc function [l, r])) :
    x.Writes (.plainCall function [p, q]) :=
  hl.two hr doc fun hl hr ↦ .callDoc function (.cons hl (.cons hr .nil))

/-- A cast to a type without parameters. -/
theorem Writes.cast (type : List String) (h : value.Writes p) :
    (Expression.cast value ⟨" ".intercalate type, []⟩).Writes (.cast p type) := by
  refine h.one (fun _ ↦ rfl) fun hv ↦ ?_
  exact ((((Doc.Same.refl "CAST(").append hv).append (.refl _)).append (.refl _)).append (.refl _)

/-! ### Constants and names -/

/-- A number is written with its sign. -/
theorem same_number (text : String) : (Doc.text text).Same ((Phrase.number text).doc false) := by
  rw [Phrase.number]
  split
  · next rest he =>
    change Format.compact.layout.chars (Doc.text text) =
      Format.compact.layout.chars (Doc.text "-" ++ Doc.text (String.ofList rest))
    simp [Layout.chars_append, Layout.chars_text, he]
  · rfl

/-- An integer is written with its sign. -/
theorem same_intDoc (n : Int64) : (intDoc n).Same ((Phrase.integer n).doc false) :=
  same_number _

/-- Integers are written as numbers. -/
theorem writes_integer (n : Int64) : (integer n).Writes (.integer n) :=
  writes_of_doc (fun _ ↦ rfl) (same_intDoc n)

/-- Texts are written between quotes. -/
theorem writes_string (text : String) : (string text).Writes (.string text) :=
  writes_of_doc (fun _ ↦ rfl) rfl

/-- A quoted name is no reserved word. -/
private theorem identifier_quoted (name : String) :
    Database.postgres.dialect.identifier (Quoted.doubled '"' name) false =
      Quoted.doubled '"' name := by
  have free : Quoted.doubled '"' name ∉ Database.postgres.dialect.reserved := by
    intro hm
    have heads : ∀ word ∈ Database.postgres.dialect.reserved, word.toList.head? ≠ some '"' := by
      decide
    refine heads _ hm ?_
    rw [Quoted.doubled, String.toList_ofList]
    rfl
  rw [Dialect.identifier, Bool.false_or, if_neg (by simpa using free)]

/-- A column is written as the name of its relation and its own. -/
theorem writes_column (relation name : String) :
    (column [Database.postgres.dialect.quoted relation,
      Database.postgres.dialect.quoted name]).Writes (.column relation name) := by
  refine writes_of_doc (fun _ ↦ rfl) ?_
  change (Doc.sepBy "." [Doc.text (Database.postgres.dialect.identifier
    (Quoted.doubled '"' relation) false), Doc.text (Database.postgres.dialect.identifier
    (Quoted.doubled '"' name) false)]).Same (Doc.text _)
  rw [identifier_quoted, identifier_quoted, Doc.sepBy, List.intercalate_cons_cons,
    List.intercalate_singleton, Doc.Same, Layout.chars_append, Layout.chars_append,
    Layout.chars_text, Layout.chars_text, Layout.chars_text, Layout.chars_text,
    String.toList_append, String.toList_append]

/-- The documents of expressions that are written as phrases. -/
theorem exists_docs {xs : List Expression} {ps : List Phrase} (h : List.Forall₂ Writes xs ps)
    (depth : Nat) : ∃ docs, Expression.docs Database.postgres.dialect xs depth = .ok docs ∧
      List.Forall₂ Doc.Same docs (Phrase.docs false ps) := by
  induction h with
  | nil => exact ⟨[], rfl, .nil⟩
  | @cons x p xs ps first _ ih =>
    obtain ⟨v, hv, sv⟩ := first depth
    obtain ⟨docs, hd, all⟩ := ih
    exact ⟨v :: docs, by rw [Expression.docs, hv, Outcome.ok_bind, hd]; rfl, .cons sv all⟩

/-- A call of a function by a name that is not reserved. -/
theorem writes_simple {function : String} {arguments : List Expression} {ps : List Phrase}
    (hf : Database.postgres.dialect.identifier function false = function)
    (h : List.Forall₂ Writes arguments ps) :
    (Expression.call (.simple function arguments)).Writes (.plainCall function ps) := by
  intro depth
  obtain ⟨docs, hd, all⟩ := exists_docs h depth
  have name : Database.postgres.dialect.nameDoc ⟨[function]⟩ = Doc.text function := by
    rw [Dialect.nameDoc, List.map_singleton, Doc.sepBy, List.intercalate_singleton, hf]
  refine ⟨Doc.text function ++ Doc.text "(" ++ Doc.text "" ++ Doc.commaSep docs ++ Doc.text ")" ++
    [] ++ [], ?_, ?_⟩
  · change (Expression.docs Database.postgres.dialect arguments depth >>= fun docs ↦
      .ok (Database.postgres.dialect.nameDoc ⟨[function]⟩ ++ Doc.text "(" ++ Doc.text "" ++
        Doc.commaSep docs ++ Doc.text ")" ++ [] ++ [])) = _
    rw [hd, name]
    rfl
  · rw [List.append_nil, List.append_nil]
    exact ((Doc.Same.refl _).append (.commaSep all)).append (.refl _)

end Sql.Expression

open Sql.Expression (writes_of_doc writes_integer writes_string writes_simple writes_column)

/-! ### What closures compute -/

variable {value left right : Sql.Expression} {p q : Phrase}

/-- Constants are written as phrases. -/
theorem Constant.writes_toSql (constant : Constant) : constant.toSql.Writes constant.phrase := by
  cases constant with
  | boolean value => cases value <;> exact writes_of_doc (fun _ ↦ rfl) rfl
  | integer value => exact writes_integer value
  | float value => exact writes_of_doc (fun _ ↦ rfl) (Sql.Expression.same_number _)
  | string value => exact writes_string value
  | strictDate value => exact (writes_string value.toText).cast ["DATE"]
  | dateTime value => exact (writes_string value.toText).cast ["TIMESTAMP"]

/-- Operators without operands are written as phrases. -/
theorem NullaryOperator.writes_toSql (operator : NullaryOperator) :
    operator.toSql.Writes operator.phrase := by
  cases operator with
  | rank function =>
    cases function with
    | ntile buckets => exact writes_simple rfl (.cons (writes_integer buckets) .nil)
    | _ => exact writes_simple rfl .nil
  | now =>
    refine writes_of_doc (fun _ ↦ rfl) ?_
    exact congrArg _ (List.append_nil _)
  | _ => exact writes_of_doc (fun _ ↦ rfl) rfl

/-- Columns at another row are written as phrases. -/
theorem RowAccessor.writes_toSql (accessor : RowAccessor) (h : value.Writes p) :
    (accessor.toSql value).Writes (accessor.phrase p) := by
  cases accessor with
  | nth n => exact writes_simple rfl (.cons h (.cons (writes_integer n) .nil))
  | _ => exact writes_simple rfl (.cons h .nil)

/-- Spans of time are written as phrases. -/
private theorem same_interval (amount : Int64) (unit : Sql.DurationUnit) :
    (Database.postgres.dialect.intervalDoc ⟨amount, unit⟩).Same
      ((Phrase.interval amount unit).doc false) := by
  have unquoted := Sql.quote_not_mem_span Sql.Format.compact.layout ⟨amount, unit⟩
  rw [Layout.chars_append, Layout.chars_append, Layout.chars_text, Layout.chars_text, Sql.intDoc,
    Layout.chars_text] at unquoted
  change Doc.Same
    (Doc.text "INTERVAL '" ++
      (Doc.text (toString amount.toInt) ++ Doc.text " " ++ Doc.text unit.keyword) ++ Doc.text "'")
    (Doc.text "INTERVAL " ++
      Doc.text (Quoted.doubled '\'' (toString amount.toInt ++ " " ++ unit.keyword)))
  have same : (toString amount.toInt ++ " " ++ unit.keyword).toList =
      (toString amount.toInt).toList ++ " ".toList ++ unit.keyword.toList := by
    rw [String.toList_append, String.toList_append]
  simp only [Doc.Same, Layout.chars_append, Layout.chars_text, Quoted.doubled, same,
    Quoted.double_of_not_mem unquoted, String.toList_ofList]
  simp

/-- A rounding is written with its scale unless that is zero. -/
private theorem writes_roundTo (h : value.Writes p) (scale : Int64) :
    (UnaryOperator.toSql (.roundTo scale) value).Writes
      (UnaryOperator.phrase (.roundTo scale) p) := by
  by_cases zero : scale = 0
  · subst zero
    exact h.called "ROUND" fun _ ↦ rfl
  · have doc (depth : Nat) : ((UnaryOperator.roundTo scale).toSql value).doc
        Database.postgres.dialect depth = value.doc Database.postgres.dialect depth >>= fun v ↦
          .ok (callDoc "ROUND" [v, intDoc scale]) := by
      simp only [UnaryOperator.toSql, Sql.Expression.doc, Sql.Extension.doc, Sql.Expression.integer]
      split
      · next he => cases he
      · next he => exact absurd (Sql.Literal.integer.inj (Sql.Expression.literal.inj
          (Option.some.inj he))) zero
      · next he =>
        obtain rfl := Sql.Literal.integer.inj (Sql.Expression.literal.inj (Option.some.inj he))
        rfl
      · next hn he => exact absurd (Option.some.inj he).symm (hn scale)
    refine h.one doc fun hv ↦ ?_
    rw [UnaryOperator.phrase, if_neg zero]
    exact .callDoc "ROUND" (.cons hv (.cons (Sql.Expression.same_intDoc scale) .nil))

/-- Whether `NOT` is put in front of an expression as it stands. -/
def Sql.Expression.isCondition : Sql.Expression → Bool
  | comparison _ _ _ | logical _ _ _ => true
  | _ => false

/-- `NOT` is written in front of its operand, in parentheses unless that is a condition. -/
private theorem writes_not (h : value.Writes p) (same : value.isCondition = p.isCondition) :
    (Sql.Expression.not value).Writes (.applied .not p) := by
  have doc (depth : Nat) : (Sql.Expression.not value).doc Database.postgres.dialect depth =
      value.doc Database.postgres.dialect depth >>= fun v ↦
        .ok (if value.isCondition then "NOT" ++ v else callDoc "NOT" [v]) := by
    cases value <;> rfl
  refine h.one doc fun {v} hv ↦ ?_
  rw [same]
  change Doc.Same _ (if p.isCondition then Doc.text "NOT" ++ p.doc false
    else callDoc "NOT" [p.doc false])
  split
  · exact (Doc.Same.refl "NOT").append hv
  · have all : List.Forall₂ Doc.Same [v] [p.doc false] := .cons hv .nil
    have opened : Doc.Same _ (Doc.text "NOT" ++ Doc.text "(") := .refl _
    exact (opened.append (.commaSep all)).append (.refl ")")

/-- `IS NULL` and `IS NOT NULL` are written behind their operand. -/
private theorem same_nullity (present : Bool) {v : Doc} (hv : v.Same (p.doc false)) :
    (Doc.text "(" ++ v ++ Doc.text (if present then " IS NOT NULL)" else " IS NULL)")).Same
      ((Phrase.nullity present p).doc false) := by
  have words : Doc.text (if present then " IS NOT NULL)" else " IS NULL)") =
      Doc.text " " ++ (Doc.text (" ".intercalate (Phrase.nullWords present)) ++ Doc.text ")") := by
    cases present <;> decide
  rw [words, ← List.append_assoc, ← List.append_assoc]
  exact ((((Doc.Same.refl "(").append hv).append (.refl " ")).append (.refl _)).append (.refl ")")

/-- An operator with its operand is written as a phrase, unless it is a minus before a literal. -/
theorem UnaryOperator.writes_toSql (operator : UnaryOperator) (h : value.Writes p)
    (unsigned : operator = .negate → value.isLiteral = false)
    (condition : operator = .not → value.isCondition = p.isCondition) :
    (operator.toSql value).Writes (operator.phrase p) := by
  cases operator with
  | negate =>
    refine h.one (fun depth ↦ ?_) fun hv ↦ .infixDoc "-" (.refl "0") hv
    rw [UnaryOperator.toSql, Sql.Expression.doc, unsigned rfl]
    rfl
  | math function => exact h.called function.function fun _ ↦ rfl
  | round => exact h.called "ROUND" fun _ ↦ rfl
  | roundTo scale => exact writes_roundTo h scale
  | not => exact writes_not h (condition rfl)
  | isEmpty => exact h.one (fun _ ↦ rfl) (same_nullity false)
  | isNotEmpty => exact h.one (fun _ ↦ rfl) (same_nullity true)
  | length => exact h.called "CHAR_LENGTH" fun _ ↦ rfl
  | like kind text => exact h.combined .like (writes_string _) fun _ ↦ rfl
  | upper => exact h.called "UPPER" fun _ ↦ rfl
  | lower => exact h.called "LOWER" fun _ ↦ rfl
  | trim kind => exact h.called kind.function fun _ ↦ rfl
  | parse target =>
    have words : " ".intercalate target.words = target.sqlType := by cases target <;> decide
    rw [UnaryOperator.toSql, ← words]
    exact h.cast target.words
  | dateTrunc part =>
    exact h.one (fun _ ↦ rfl) fun hv ↦ .callDoc "DATE_TRUNC" (.cons (.refl _) (.cons hv .nil))
  | datePart field =>
    exact h.one (fun _ ↦ rfl) fun hv ↦ .callDoc "DATE_PART" (.cons (.refl _) (.cons hv .nil))
  | dateOnly => exact h.cast ["DATE"]
  | adjust amount unit =>
    have doc (depth : Nat) : ((UnaryOperator.adjust amount unit).toSql value).doc
        Database.postgres.dialect depth = value.doc Database.postgres.dialect depth >>= fun v ↦
          .ok (infixDoc "+" v (Database.postgres.dialect.intervalDoc ⟨amount, unit⟩)) := rfl
    exact h.one doc fun hv ↦ .infixDoc "+" hv (same_interval amount unit)

/-- An operator with its operands is written as a phrase. -/
theorem BinaryOperator.writes_toSql (operator : BinaryOperator) (hl : left.Writes p)
    (hr : right.Writes q) : (operator.toSql left right).Writes (operator.phrase p q) := by
  cases operator with
  | add => exact hl.combined .add hr fun _ ↦ rfl
  | subtract => exact hl.combined .subtract hr fun _ ↦ rfl
  | multiply => exact hl.combined .multiply hr fun _ ↦ rfl
  | divide =>
    exact hl.two hr (fun _ ↦ rfl) fun hl hr ↦ .infixDoc "/" (.infixDoc "*" (.refl "1.0") hl) hr
  | modulo => exact hl.calledTwo "MOD" hr fun _ ↦ rfl
  | power => exact hl.calledTwo "POWER" hr fun _ ↦ rfl
  | remainder => exact hl.calledTwo "MOD" hr fun _ ↦ rfl
  | arcTan2 => exact hl.calledTwo "ATAN2" hr fun _ ↦ rfl
  | compare operator => exact hl.combined (.compare operator) hr fun _ ↦ rfl
  | and => exact hl.combined .and hr fun _ ↦ rfl
  | or => exact hl.combined .or hr fun _ ↦ rfl
  | indexOf => exact hl.calledTwo "STRPOS" hr fun _ ↦ rfl
  | concat => exact hl.calledTwo "CONCAT" hr fun _ ↦ rfl

/-! ### Lists, case distinctions and aggregates -/

namespace Sql.Expression

/-- Membership is written as a phrase if the value and the items are. -/
theorem Writes.inPredicate {items : List Expression} {ps : List Phrase} (hv : value.Writes p)
    (hi : List.Forall₂ Writes items ps) :
    (Expression.inPredicate value (.list items)).Writes (.within p ps) := by
  intro depth
  obtain ⟨v, hv, sv⟩ := hv depth
  obtain ⟨docs, hd, all⟩ := exists_docs hi depth
  refine ⟨v ++ Doc.text " IN " ++ (Doc.text "(" ++ Doc.commaSep docs ++ Doc.text ")"), ?_, ?_⟩
  · rw [Expression.doc, hv, Outcome.ok_bind, Expression.doc, hd]
    rfl
  · exact (sv.append (.refl " IN ")).append
      (((Doc.Same.refl "(").append (.commaSep all)).append (.refl ")"))

/-- A case distinction with one branch is written as a phrase if its parts are. -/
theorem Writes.searchedCase {condition result otherwise : Expression} {r : Phrase}
    (hc : condition.Writes p) (hr : result.Writes q) (ho : otherwise.Writes r) :
    (Expression.searchedCase [⟨condition, result⟩] (some otherwise)).Writes (.branch p q r) := by
  intro depth
  obtain ⟨c, hc, sc⟩ := hc (depth + 2)
  obtain ⟨r, hr, sr⟩ := hr (depth + 2)
  obtain ⟨o, ho, so⟩ := ho (depth + 2)
  refine ⟨Sql.caseDoc depth [Sql.branchDoc depth c r] (some o), ?_, ?_⟩
  · simp only [Expression.doc, WhenClause.docs, WhenClause.doc, Expression.optionDoc, hc, hr, ho]
    rfl
  · have gap (depth : Nat) : Format.compact.layout.chars (Doc.gap depth) = [' '] := rfl
    rw [Doc.Same] at sc sr so
    simp only [Doc.Same, caseDoc, branchDoc, Doc.sepBy, List.intercalate_singleton, Phrase.doc,
      Phrase.around, Layout.chars_append, Layout.chars_text, gap, sc, sr, so]
    simp

/-- An aggregate is written as a call. -/
theorem Writes.aggregate (h : value.Writes p) (function : AggregateFunction) :
    (Expression.extension (.aggregate function value)).Writes
      (.call function.function (function == .distinctCount) [p]) := by
  cases function with
  | distinctCount =>
    refine h.one (fun _ ↦ rfl) fun {v} hv ↦ ?_
    have argument : Doc.Same (Doc.commaSep [Doc.text "DISTINCT " ++ v])
        (Doc.text "DISTINCT " ++ Doc.commaSep [p.doc false]) := by
      rw [Doc.commaSep, Doc.commaSep, Doc.sepBy, Doc.sepBy, List.intercalate_singleton,
        List.intercalate_singleton]
      exact (Doc.Same.refl _).append hv
    have all := ((Doc.Same.refl (Doc.text "COUNT" ++ Doc.text "(")).append argument).append
      (.refl ")")
    rwa [← List.append_assoc] at all
  | _ => exact h.called _ fun _ ↦ rfl

end Sql.Expression

/-! ### Expressions -/

/-- Columns of the rows are columns of the relations that the rows belong to. -/
structure Scope.Plain (scope : Scope) (relation : RowVar → String) : Prop where
  column {row : RowVar} {name : String} {x : Sql.Expression}
    (h : scope.resolve row name = .ok x) : x = .column
      [Database.postgres.dialect.quoted (relation row), Database.postgres.dialect.quoted name]

namespace Expr

variable {scope : Scope} {relation : RowVar → String} {x : Sql.Expression}

/-- Numbers are no conditions. -/
private theorem isCondition_number (text : String) : (Phrase.number text).isCondition = false := by
  rw [Phrase.number]
  split <;> rfl

/-- Only comparisons and connectives are conditions. -/
theorem isCondition_toSql {e : Expr} (plain : scope.Plain relation)
    (made : e.toSql scope = .ok x) : x.isCondition = (e.phrase relation).isCondition := by
  cases e with
  | column row name accessor =>
    obtain ⟨value, hv, rfl⟩ := toSql_column_eq_ok.mp made
    rw [plain.column hv]
    cases accessor with
    | none => rfl
    | some accessor => cases accessor <;> rfl
  | constant value =>
    rw [← Except.ok.inj made]
    cases value with
    | integer value => exact (isCondition_number _).symm
    | float value => exact (isCondition_number _).symm
    | _ => rfl
  | nullary operator =>
    rw [← Except.ok.inj made]
    cases operator with
    | rank function => cases function <;> rfl
    | _ => rfl
  | unary operator operand =>
    obtain ⟨value, -, rfl⟩ := toSql_unary_eq_ok.mp made
    cases operator <;> rfl
  | binary operator left right =>
    obtain ⟨first, second, -, -, rfl⟩ := toSql_binary_eq_ok.mp made
    cases operator <;> rfl
  | inList value items =>
    obtain ⟨v, vs, -, -, rfl⟩ := toSql_inList_eq_ok.mp made
    rfl
  | ifElse condition result otherwise =>
    obtain ⟨c, r, o, -, -, -, rfl⟩ := toSql_ifElse_eq_ok.mp made
    rfl
  | aggregate function values =>
    obtain ⟨value, -, rfl⟩ := toSql_aggregate_eq_ok.mp made
    rfl
  | joinStrings values separator =>
    obtain ⟨value, -, rfl⟩ := toSql_joinStrings_eq_ok.mp made
    rfl

/-- Only constants are literals. -/
theorem isLiteral_toSql {e : Expr} (plain : scope.Plain relation)
    (made : e.toSql scope = .ok x) (h : ∀ value, e ≠ .constant value) : x.isLiteral = false := by
  cases e with
  | column row name accessor =>
    obtain ⟨value, hv, rfl⟩ := toSql_column_eq_ok.mp made
    rw [plain.column hv]
    cases accessor with
    | none => rfl
    | some accessor => rfl
  | constant value => exact absurd rfl (h value)
  | nullary operator =>
    rw [← Except.ok.inj made]
    cases operator <;> rfl
  | unary operator operand =>
    obtain ⟨value, -, rfl⟩ := toSql_unary_eq_ok.mp made
    cases operator <;> rfl
  | binary operator left right =>
    obtain ⟨first, second, -, -, rfl⟩ := toSql_binary_eq_ok.mp made
    cases operator <;> rfl
  | inList value items =>
    obtain ⟨v, vs, -, -, rfl⟩ := toSql_inList_eq_ok.mp made
    rfl
  | ifElse condition result otherwise =>
    obtain ⟨c, r, o, -, -, -, rfl⟩ := toSql_ifElse_eq_ok.mp made
    rfl
  | aggregate function values =>
    obtain ⟨value, -, rfl⟩ := toSql_aggregate_eq_ok.mp made
    rfl
  | joinStrings values separator =>
    obtain ⟨value, -, rfl⟩ := toSql_joinStrings_eq_ok.mp made
    rfl

/-- Expressions are written as phrases. -/
theorem Regular.writes_toSql {e : Expr} (regular : e.Regular) (plain : scope.Plain relation)
    (made : e.toSql scope = .ok x) : x.Writes (e.phrase relation) := by
  induction regular generalizing x with
  | column row name accessor =>
    obtain ⟨value, hv, rfl⟩ := toSql_column_eq_ok.mp made
    have column : value.Writes (.column (relation row) name) := by
      rw [plain.column hv]
      exact writes_column _ _
    cases accessor with
    | none => exact column
    | some accessor => exact accessor.writes_toSql column
  | constant value =>
    rw [← Except.ok.inj made]
    exact value.writes_toSql
  | nullary operator =>
    rw [← Except.ok.inj made]
    exact operator.writes_toSql
  | unary _ unsigned _ ih =>
    obtain ⟨value, hv, rfl⟩ := toSql_unary_eq_ok.mp made
    exact UnaryOperator.writes_toSql _ (ih hv) (fun he ↦ isLiteral_toSql plain hv (unsigned he))
      fun _ ↦ isCondition_toSql plain hv
  | binary _ _ _ ihl ihr =>
    obtain ⟨first, second, hf, hs, rfl⟩ := toSql_binary_eq_ok.mp made
    exact BinaryOperator.writes_toSql _ (ihl hf) (ihr hs)
  | @inList value items _ ne hi ihv ihi =>
    obtain ⟨v, vs, hv, hvs, rfl⟩ := toSql_inList_eq_ok.mp made
    have all : List.Forall₂ Sql.Expression.Writes vs (itemPhrases relation items) := by
      clear ne hi made
      induction hvs with
      | nil => exact .nil
      | cons first _ ih =>
        obtain ⟨hi, ihi⟩ := List.forall_mem_cons.mp ihi
        exact .cons (hi first) (ih ihi)
    exact (ihv hv).inPredicate all
  | ifElse _ _ _ ihc ihr iho =>
    obtain ⟨c, r, o, hc, hr, ho, rfl⟩ := toSql_ifElse_eq_ok.mp made
    exact (ihc hc).searchedCase (ihr hr) (iho ho)
  | aggregate function _ ih =>
    obtain ⟨value, hv, rfl⟩ := toSql_aggregate_eq_ok.mp made
    exact (ih hv).aggregate function
  | joinStrings separator _ ih =>
    obtain ⟨value, hv, rfl⟩ := toSql_joinStrings_eq_ok.mp made
    exact (ih hv).calledTwo "STRING_AGG" (writes_string separator) fun _ ↦ rfl

end Expr

end FrameQuery
