import FrameQuery.Frame.Sql
import FrameQuery.Proofs.Expr.Built
import FrameQuery.Proofs.Expr.Rendering
import FrameQuery.Proofs.Expr.Texts
import FrameQuery.Proofs.Sql.Binding
import FrameQuery.Proofs.Sql.Labels

/-!
# Reading expressions back

Everything that the methods of typed expressions build has a text, and that text is read back, by
the precedence of operators, as the expression it was written for, except where `NOT` stands bare
under a comparison, a test for null or `IN`, or `IN` in front of `IN`. Types keep conditions away
from all other operators that bind tightly.
-/

namespace FrameQuery

open Sql (Phrase Infix Prefix nullLevel memberLevel)

open Sql.Phrase (orderly_applied orderly_combined orderly_nullity orderly_within orderly_call
  orderly_cast orderly_branch grip)

/-- Whether an operator tests for null. -/
def UnaryOperator.testsNull : UnaryOperator → Bool
  | .isEmpty | .isNotEmpty => true
  | _ => false

/-- Whether an operator compares its operands. -/
def BinaryOperator.compares : BinaryOperator → Bool
  | .compare _ => true
  | _ => false

namespace Expr

mutual

/-- Whether somewhere in an expression `NOT` stands under a comparison, a test for null or `IN`, or
`IN` in front of `IN`. -/
def misread : Expr → Bool
  | column _ _ _ | constant _ | nullary _ => false
  | unary operator operand => (operator.testsNull && operand.isNegation) || operand.misread
  | binary operator left right =>
    (operator.compares && (left.isNegation || right.isNegation)) || (left.misread || right.misread)
  | inList value items => value.isBare || (value.misread || itemsMisread items)
  | ifElse condition result otherwise =>
    condition.misread || (result.misread || otherwise.misread)
  | aggregate _ values | joinStrings values _ => values.misread

/-- Whether somewhere in the items of a list an operator stands so. -/
def itemsMisread : List Expr → Bool
  | [] => false
  | item :: rest => item.misread || itemsMisread rest

end

/-- No operator stands so in the items of a list if it does in none of them. -/
theorem itemsMisread_eq_false {items : List Expr} :
    itemsMisread items = false ↔ ∀ item ∈ items, item.misread = false := by
  induction items with
  | nil => simp [itemsMisread]
  | cons item rest ih => rw [itemsMisread, Bool.or_eq_false_iff, ih, List.forall_mem_cons]

variable {relation : RowVar → String}

/-- Only negated conditions and memberships bind less tightly than signs. -/
theorem strength_phrase (relation : RowVar → String) (e : Expr) :
    (e.isNegation = true ∧ (e.phrase relation).strength = Prefix.not.level) ∨
      (e.isNegation = false ∧ e.isMembership = true ∧
        (e.phrase relation).strength = memberLevel) ∨
      (e.isBare = false ∧ Prefix.minus.level ≤ (e.phrase relation).strength) := by
  have number (text : String) : Prefix.minus.level ≤ (Phrase.number text).strength := by
    rw [Phrase.number]
    split <;> exact Nat.le_of_ble_eq_true rfl
  cases e with
  | column row name accessor =>
    refine .inr (.inr ⟨rfl, ?_⟩)
    cases accessor with
    | none => exact Nat.le_of_ble_eq_true rfl
    | some accessor => cases accessor <;> exact Nat.le_of_ble_eq_true rfl
  | constant value =>
    refine .inr (.inr ⟨rfl, ?_⟩)
    cases value with
    | integer | float => exact number _
    | _ => exact Nat.le_of_ble_eq_true rfl
  | nullary operator =>
    refine .inr (.inr ⟨rfl, ?_⟩)
    cases operator with
    | rank function => cases function <;> exact Nat.le_of_ble_eq_true rfl
    | _ => exact Nat.le_of_ble_eq_true rfl
  | unary operator operand =>
    cases operator with
    | not => exact .inl ⟨rfl, rfl⟩
    | _ => exact .inr (.inr ⟨rfl, Nat.le_of_ble_eq_true rfl⟩)
  | binary operator left right =>
    refine .inr (.inr ⟨rfl, ?_⟩)
    cases operator <;> exact Nat.le_of_ble_eq_true rfl
  | inList value items => exact .inr (.inl ⟨rfl, rfl, rfl⟩)
  | ifElse | aggregate | joinStrings => exact .inr (.inr ⟨rfl, Nat.le_of_ble_eq_true rfl⟩)

end Expr

/-! ### Orderly phrases of expressions -/

/-- Numbers are orderly. -/
theorem orderly_number (text : String) : (Phrase.number text).Orderly false := by
  rw [Phrase.number]
  split
  · exact .applied .word
  · exact .word

/-- Constants are orderly. -/
theorem Constant.orderly_phrase (value : Constant) : value.phrase.Orderly false := by
  cases value with
  | integer | float => exact orderly_number _
  | strictDate | dateTime => exact .cast .word
  | _ => exact .word

/-- Operators without operands are orderly. -/
theorem NullaryOperator.orderly_phrase (operator : NullaryOperator) :
    operator.phrase.Orderly false := by
  cases operator with
  | rank function =>
    cases function with
    | ntile buckets => exact .call (List.forall_mem_singleton.mpr (orderly_number _))
    | _ => exact .call (by simp)
  | _ => exact .word

/-- Columns at another row are orderly. -/
theorem RowAccessor.orderly_phrase (accessor : RowAccessor) (relation name : String) :
    (accessor.phrase (.column relation name)).Orderly false := by
  cases accessor with
  | nth n =>
    exact .call (List.forall_mem_cons.mpr ⟨.word, List.forall_mem_singleton.mpr (orderly_number _)⟩)
  | _ => exact .call (List.forall_mem_singleton.mpr .word)

variable {e left right : Expr} {relation : RowVar → String}

/-- An expression that is no bare condition binds more tightly than operators. -/
theorem Expr.grip_phrase (apart : e.isBare = false) (operator : Infix) :
    operator.demand ≤ (e.phrase relation).grip false ∧
      operator.level < (e.phrase relation).grip false := by
  rcases e.strength_phrase relation with ⟨h, -⟩ | ⟨-, h, -⟩ | ⟨-, h⟩
  · simp [isBare, h] at apart
  · simp [isBare, h] at apart
  · exact ⟨Nat.le_trans operator.level_le.2.1 h, Nat.lt_of_lt_of_le operator.level_le.2.2 h⟩

/-- An expression binds more tightly than something between `NOT` and `IN` exactly if it is no
negated condition. -/
theorem Expr.lt_strength_iff {n : Nat} (low : Prefix.not.level ≤ n) (high : n < memberLevel) :
    n < (e.phrase relation).strength ↔ e.isNegation = false := by
  rcases e.strength_phrase relation with ⟨h, hs⟩ | ⟨h, -, hs⟩ | ⟨h, hs⟩
  · rw [hs, h]
    simpa using low
  · rw [hs, h]
    simpa using high
  · have free : e.isNegation = false := (Bool.or_eq_false_iff.mp h).1
    rw [free]
    exact iff_of_true (Nat.lt_of_lt_of_le (Nat.lt_trans high (by decide)) hs) rfl

/-- An expression binds more tightly than `IN` exactly if it is no bare condition. -/
theorem Expr.memberLevel_lt_strength :
    memberLevel < (e.phrase relation).strength ↔ e.isBare = false := by
  rcases e.strength_phrase relation with ⟨h, hs⟩ | ⟨-, h, hs⟩ | ⟨h, hs⟩
  · rw [hs, isBare, h, Bool.true_or]
    decide
  · rw [hs, isBare, h, Bool.or_true]
    decide
  · exact iff_of_true (Nat.lt_of_lt_of_le (by decide) hs) h

/-- Every expression binds as tightly as `NOT`. -/
theorem Expr.not_le_strength : Prefix.not.level ≤ (e.phrase relation).strength := by
  rcases e.strength_phrase relation with ⟨-, hs⟩ | ⟨-, -, hs⟩ | ⟨-, hs⟩
  · exact Nat.le_of_eq hs.symm
  · rw [hs]
    decide
  · exact Nat.le_trans (by decide) hs

/-- An operator with its operand is orderly exactly if the operand is and does not stand bare under
a test for null as a negated condition. -/
theorem UnaryOperator.orderly_phrase (operator : UnaryOperator)
    (apart : operator.takesConditions = false → e.isBare = false) :
    (operator.phrase (e.phrase relation)).Orderly false ↔
      (operator.testsNull && e.isNegation) = false ∧ (e.phrase relation).Orderly false := by
  have one {function : String} :
      (Phrase.plainCall function [e.phrase relation]).Orderly false ↔
        (e.phrase relation).Orderly false := orderly_call.trans List.forall_mem_singleton
  have behind {function word : String} :
      (Phrase.plainCall function [.word word, e.phrase relation]).Orderly false ↔
        (e.phrase relation).Orderly false := by
    rw [Phrase.plainCall, orderly_call, List.forall_mem_cons, List.forall_mem_singleton]
    exact and_iff_right .word
  cases operator with
  | negate =>
    exact orderly_combined.trans ⟨fun h ↦ ⟨rfl, h.1.2⟩, fun h ↦ ⟨⟨.word, h.2⟩,
      Nat.le_of_ble_eq_true rfl, (Expr.grip_phrase (apart rfl) .subtract).2⟩⟩
  | roundTo scale =>
    refine orderly_call.trans (List.forall_mem_cons.trans ⟨fun h ↦ ⟨rfl, h.1⟩, fun h ↦ ⟨h.2, ?_⟩⟩)
    split
    · simp
    · exact List.forall_mem_singleton.mpr (orderly_number _)
  | not => exact orderly_applied.trans (and_iff_right rfl).symm
  | isEmpty | isNotEmpty =>
    refine orderly_nullity.trans (and_comm.trans (and_congr_left fun _ ↦ ?_))
    exact Expr.lt_strength_iff (Nat.le_refl _) (by decide)
  | like kind text =>
    exact orderly_combined.trans ⟨fun h ↦ ⟨rfl, h.1.1⟩, fun h ↦ ⟨⟨h.2, .word⟩,
      (Expr.grip_phrase (apart rfl) .like).1, Nat.le_of_ble_eq_true rfl⟩⟩
  | parse | dateOnly => exact orderly_cast.trans (and_iff_right rfl).symm
  | dateTrunc | datePart => exact behind.trans (and_iff_right rfl).symm
  | adjust amount unit =>
    exact orderly_combined.trans ⟨fun h ↦ ⟨rfl, h.1.1⟩, fun h ↦ ⟨⟨h.2, .applied .word⟩,
      (Expr.grip_phrase (apart rfl) .add).1, Nat.le_of_ble_eq_true rfl⟩⟩
  | _ => exact one.trans (and_iff_right rfl).symm

/-- An operator with its operands is orderly exactly if they are and none of them stands bare in a
comparison as a negated condition. -/
theorem BinaryOperator.orderly_phrase (operator : BinaryOperator)
    (apart : operator.takesConditions = false → left.isBare = false ∧ right.isBare = false) :
    (operator.phrase (left.phrase relation) (right.phrase relation)).Orderly false ↔
      (operator.compares && (left.isNegation || right.isNegation)) = false ∧
        (left.phrase relation).Orderly false ∧ (right.phrase relation).Orderly false := by
  have called {function : String} :
      (Phrase.plainCall function [left.phrase relation, right.phrase relation]).Orderly false ↔
        (left.phrase relation).Orderly false ∧ (right.phrase relation).Orderly false := by
    rw [Phrase.plainCall, orderly_call, List.forall_mem_cons, List.forall_mem_singleton]
  have arithmetic (sign : Infix) (apart : left.isBare = false ∧ right.isBare = false) :
      (Phrase.combined sign (left.phrase relation) (right.phrase relation)).Orderly false ↔
        (left.phrase relation).Orderly false ∧ (right.phrase relation).Orderly false :=
    orderly_combined.trans (and_iff_left
      ⟨(Expr.grip_phrase apart.1 sign).1, (Expr.grip_phrase apart.2 sign).2⟩)
  have connective (sign : Infix) (low : sign.demand ≤ Prefix.not.level)
      (below : sign.level < Prefix.not.level) :
      (Phrase.combined sign (left.phrase relation) (right.phrase relation)).Orderly false ↔
        (left.phrase relation).Orderly false ∧ (right.phrase relation).Orderly false :=
    orderly_combined.trans (and_iff_left
      ⟨Nat.le_trans low Expr.not_le_strength, Nat.lt_of_lt_of_le below Expr.not_le_strength⟩)
  cases operator with
  | add => exact (arithmetic .add (apart rfl)).trans (and_iff_right rfl).symm
  | subtract => exact (arithmetic .subtract (apart rfl)).trans (and_iff_right rfl).symm
  | multiply => exact (arithmetic .multiply (apart rfl)).trans (and_iff_right rfl).symm
  | divide =>
    have product : (Phrase.combined .multiply (.word "1.0") (left.phrase relation)).Orderly false ↔
        (left.phrase relation).Orderly false :=
      orderly_combined.trans ⟨fun h ↦ h.1.2, fun h ↦ ⟨⟨.word, h⟩, Nat.le_of_ble_eq_true rfl,
        (Expr.grip_phrase (apart rfl).1 .multiply).2⟩⟩
    exact orderly_combined.trans ⟨fun h ↦ ⟨rfl, product.mp h.1.1, h.1.2⟩, fun h ↦
      ⟨⟨product.mpr h.2.1, h.2.2⟩, Nat.le_of_ble_eq_true rfl,
        (Expr.grip_phrase (apart rfl).2 .divide).2⟩⟩
  | compare operator =>
    refine orderly_combined.trans (and_comm.trans (and_congr_left fun _ ↦ ?_))
    have held : nullLevel < (left.phrase relation).strength ↔ left.isNegation = false :=
      Expr.lt_strength_iff (by decide) (by decide)
    have kept : (Infix.compare operator).level < (right.phrase relation).strength ↔
        right.isNegation = false :=
      Expr.lt_strength_iff (Nat.le_of_ble_eq_true rfl) (Nat.le_of_ble_eq_true rfl)
    exact (and_congr held kept).trans Bool.or_eq_false_iff.symm
  | and => exact (connective .and (by decide) (by decide)).trans (and_iff_right rfl).symm
  | or => exact (connective .or (by decide) (by decide)).trans (and_iff_right rfl).symm
  | _ => exact called.trans (and_iff_right rfl).symm

namespace Expr

/-- A regular expression is an orderly phrase exactly if no operator in it is misread. -/
theorem Regular.orderly_phrase_iff (regular : e.Regular) :
    (e.phrase relation).Orderly false ↔ e.misread = false := by
  induction regular with
  | column row name accessor =>
    refine iff_of_true ?_ rfl
    cases accessor with
    | none => exact .word
    | some accessor => exact accessor.orderly_phrase _ _
  | constant value => exact iff_of_true value.orderly_phrase rfl
  | nullary operator => exact iff_of_true operator.orderly_phrase rfl
  | unary _ _ apart ih =>
    rw [phrase, UnaryOperator.orderly_phrase _ apart, misread, Bool.or_eq_false_iff, ih]
  | binary _ _ apart ihl ihr =>
    rw [phrase, BinaryOperator.orderly_phrase _ apart, misread, Bool.or_eq_false_iff,
      Bool.or_eq_false_iff, ihl, ihr]
  | @inList value items _ _ _ ihv ihi =>
    have items_iff : (∀ p ∈ itemPhrases relation items, p.Orderly false) ↔
        itemsMisread items = false := by
      rw [itemPhrases_eq_map, List.forall_mem_map, itemsMisread_eq_false]
      exact forall₂_congr ihi
    rw [phrase, orderly_within, misread, Bool.or_eq_false_iff, Bool.or_eq_false_iff, ihv, items_iff,
      and_comm]
    exact and_congr_left fun _ ↦ memberLevel_lt_strength
  | ifElse _ _ _ ihc ihr iho =>
    rw [phrase, orderly_branch, misread, Bool.or_eq_false_iff, Bool.or_eq_false_iff, ihc, ihr, iho]
  | aggregate function _ ih =>
    rw [phrase, orderly_call, List.forall_mem_singleton, misread, ih]
  | joinStrings separator _ ih =>
    rw [phrase, Phrase.plainCall, orderly_call, List.forall_mem_cons, List.forall_mem_singleton,
      misread, ih]
    exact and_iff_left .word

end Expr

/-! ### Scopes -/

namespace Scope

/-- A query that only passes the columns of a relation on makes a plain scope. -/
theorem plain_of_passing {query : Sql.QuerySpecification} {root : String}
    (h : ∀ item ∈ query.items, ∃ label,
      item = .passing (Sql.Database.postgres.dialect.quoted root) label) :
    (single Sql.Database.postgres.dialect query).Plain fun _ ↦ root where
  column {row name x} hx := by
    obtain ⟨label, he⟩ :=
      h _ (Sql.QuerySpecification.mem_items_of_findColumn? (resolve_single.mp hx).2)
    obtain ⟨same, rfl⟩ := Sql.SelectItem.column.inj he
    rw [Option.some.inj same]

/-- The scope of a table is plain. -/
theorem plain_table (parts names : List String) :
    (single Sql.Database.postgres.dialect
      (QueryStep.table Sql.Database.postgres.dialect parts names)).Plain fun _ ↦ "root" := by
  refine plain_of_passing fun item hm ↦ ?_
  obtain ⟨name, -, rfl⟩ := List.mem_map.mp hm
  exact ⟨_, rfl⟩

end Scope

/-! ### Reading texts back -/

/-- The text of an expression on one line, for the first of the known databases. -/
def Sql.Expression.line (x : Sql.Expression) : Outcome String :=
  (x.doc Sql.Database.postgres.dialect 0).map Sql.Format.compact.layout.render

/-- What methods build has a text. The text with parentheses around every operand is read back as
the expression, and the text itself is read back as the same expression exactly if nowhere in it
`NOT` stands under a comparison, a test for null or `IN`, or `IN` in front of `IN`. -/
theorem TypedExpr.Built.readBack_line_iff {p : TypedExpr} {scope : Scope} (built : p.Built)
    (plain : scope.Plain relation)
    (known : ∀ read ∈ p.expr.reads, Outcome.Succeeds (scope.resolve read.1 read.2)) :
    ∃ x text, p.expr.toSql scope = .ok x ∧ x.line = .ok text ∧
      text = (p.expr.phrase relation).text false ∧
      Sql.readBack ((p.expr.phrase relation).text true) = some (p.expr.phrase relation) ∧
      (Sql.readBack text = Sql.readBack ((p.expr.phrase relation).text true) ↔
        p.expr.misread = false) := by
  have regular := built.regular.expr
  have proper := regular.proper_phrase relation
  obtain ⟨x, made⟩ := Expr.succeeds_toSql known
  obtain ⟨doc, hd, same⟩ := regular.writes_toSql plain made 0
  have bracketed := proper.readBack_eq_some_iff.mpr proper.orderly
  have text : Sql.Format.compact.layout.render doc = (p.expr.phrase relation).text false :=
    congrArg String.ofList same
  refine ⟨x, _, made, by rw [Sql.Expression.line, hd]; rfl, text, bracketed, ?_⟩
  rw [bracketed, text, proper.readBack_eq_some_iff, regular.orderly_phrase_iff]

/-- A negated condition in front of `AND`, and a membership behind it, are read back as they are. -/
theorem TypedExpr.Built.readBack_line_of_conjunction :
    ∃ x text, (Expr.binary .and (.unary .not (.column .right "b" none))
        (.inList (.column .right "b" none) [.constant (.boolean true)])).toSql
          (.single Sql.Database.postgres.dialect
            (QueryStep.table Sql.Database.postgres.dialect ["t"] ["b"])) = .ok x ∧
      x.line = .ok text ∧
      Sql.readBack text = Sql.readBack ((Expr.binary .and (.unary .not (.column .right "b" none))
        (.inList (.column .right "b" none) [.constant (.boolean true)])).phrase
          (fun _ ↦ "root") |>.text true) := by
  have column : Built ⟨.boolean, .column .right "b" none⟩ :=
    @Built.get ⟨.right, [⟨"b", .boolean, none, none⟩], none⟩ "b" _ rfl
  have membership : Built ⟨.boolean,
      .inList (.column .right "b" none) [.constant (.boolean true)]⟩ :=
    @Built.inList _ _ [.boolean true] column
      (List.forall_mem_singleton.mpr (.constant (.boolean true))) rfl
  have negation : Built ⟨.boolean, .unary .not (.column .right "b" none)⟩ := .not column rfl
  have built : Built ⟨.boolean, .binary .and (.unary .not (.column .right "b" none))
      (.inList (.column .right "b" none) [.constant (.boolean true)])⟩ :=
    .and negation membership rfl
  obtain ⟨x, text, made, line, -, -, iff⟩ := built.readBack_line_iff
    (Scope.plain_table ["t"] ["b"]) fun read hr ↦ by
      have known : read = (.right, "b") := by simpa [Expr.reads, Expr.itemReads] using hr
      rw [known]
      exact Outcome.succeeds_ok _
  exact ⟨x, text, made, line, iff.mpr rfl⟩

/-- A test for null of a negated condition is read back as the negation of a test for null. -/
theorem TypedExpr.exists_misread : ∃ (p : TypedExpr) (x : Sql.Expression) (text : String),
    p.Built ∧ p.expr = .unary .isEmpty (.unary .not (.column .right "b" none)) ∧
      p.expr.toSql (.single Sql.Database.postgres.dialect
        (QueryStep.table Sql.Database.postgres.dialect ["t"] ["b"])) = .ok x ∧
      x.line = .ok text ∧ text = "(NOT(\"root\".\"b\") IS NULL)" ∧
      Sql.readBack text = some (.applied .not (.nullity false (.column "root" "b"))) ∧
      Sql.readBack ((p.expr.phrase fun _ ↦ "root").text true) =
        some (.nullity false (.applied .not (.column "root" "b"))) := by
  have column : Built ⟨.boolean, .column .right "b" none⟩ :=
    @Built.get ⟨.right, [⟨"b", .boolean, none, none⟩], none⟩ "b" _ rfl
  have negation : Built ⟨.boolean, .unary .not (.column .right "b" none)⟩ := .not column rfl
  exact ⟨_, _, _, negation.isEmpty, rfl, rfl, rfl, by decide, rfl, rfl⟩

end FrameQuery
