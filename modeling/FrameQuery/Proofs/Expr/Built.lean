import FrameQuery.Expr.Row
import FrameQuery.Proofs.Expr.Phrases
import FrameQuery.Proofs.Outcome

/-!
# What methods build

A closure starts from columns, constants, rankings and aggregates, and goes on with the methods of
typed expressions. What it builds is regular: a list has items because a method refuses one that has
none, and conditions are operands only where their type lets them be.
-/

namespace FrameQuery

namespace TypedExpr

/-- What closures can build. A minus directly before a constant is left out. -/
inductive Built : TypedExpr → Prop
  -- what closures are given
  | get {row : Row} {name : String} {p : TypedExpr} (h : row.get name = .ok p) : Built p
  | getAs {row : Row} {name : String} {type : PrimitiveType} {p : TypedExpr}
    (h : row.getAs name type = .ok p) : Built p
  | rank {frame : PartialFrame} {function : RankFunction} {p : TypedExpr}
    (h : frame.rank function = .ok p) : Built p
  | aggregate {c : Collection} {function : Sql.AggregateFunction} {p : TypedExpr}
    (mapped : Built c.mapped) (h : c.aggregate function = .ok p) : Built p
  | joinStrings {c : Collection} {separator : String} {p : TypedExpr} (mapped : Built c.mapped)
    (h : c.joinStrings separator = .ok p) : Built p
  | constant (value : Constant) : Built (constant value)
  | currentUser : Built currentUser
  | today : Built today
  | now : Built now
  -- numbers
  | add {p q r : TypedExpr} (hp : Built p) (hq : Built q) (h : p.add q = .ok r) : Built r
  | sub {p q r : TypedExpr} (hp : Built p) (hq : Built q) (h : p.sub q = .ok r) : Built r
  | mul {p q r : TypedExpr} (hp : Built p) (hq : Built q) (h : p.mul q = .ok r) : Built r
  | div {p q r : TypedExpr} (hp : Built p) (hq : Built q) (h : p.div q = .ok r) : Built r
  | modulo {p q r : TypedExpr} (hp : Built p) (hq : Built q) (h : p.modulo q = .ok r) : Built r
  | neg {p r : TypedExpr} (hp : Built p) (unsigned : ∀ value, p.expr ≠ .constant value)
    (h : p.neg = .ok r) : Built r
  | math {p r : TypedExpr} {function : Sql.MathFunction} (hp : Built p)
    (h : p.math function = .ok r) : Built r
  | atan2 {p q r : TypedExpr} (hp : Built p) (hq : Built q) (h : p.atan2 q = .ok r) : Built r
  | pow {p q r : TypedExpr} (hp : Built p) (hq : Built q) (h : p.pow q = .ok r) : Built r
  | rem {p q r : TypedExpr} (hp : Built p) (hq : Built q) (h : p.rem q = .ok r) : Built r
  | round {p r : TypedExpr} {scale : Option Int64} (hp : Built p) (h : p.round scale = .ok r) :
    Built r
  -- conditions
  | compare {p q r : TypedExpr} {operator : Sql.ComparisonOperator} (hp : Built p) (hq : Built q)
    (h : p.compare q operator = .ok r) : Built r
  | and {p q r : TypedExpr} (hp : Built p) (hq : Built q) (h : p.and q = .ok r) : Built r
  | or {p q r : TypedExpr} (hp : Built p) (hq : Built q) (h : p.or q = .ok r) : Built r
  | not {p r : TypedExpr} (hp : Built p) (h : p.not = .ok r) : Built r
  | isEmpty {p : TypedExpr} (hp : Built p) : Built p.isEmpty
  | isNotEmpty {p : TypedExpr} (hp : Built p) : Built p.isNotEmpty
  | inList {p r : TypedExpr} {items : List TypedExpr} (hp : Built p)
    (hi : ∀ item ∈ items, Built item) (h : p.inList items = .ok r) : Built r
  | ifElse {p q q' r : TypedExpr} (hp : Built p) (hq : Built q) (hq' : Built q')
    (h : p.ifElse q q' = .ok r) : Built r
  -- texts
  | length {p r : TypedExpr} (hp : Built p) (h : p.length = .ok r) : Built r
  | like {p r : TypedExpr} {kind : LikeKind} {text : String} (hp : Built p)
    (h : p.like kind text = .ok r) : Built r
  | upper {p r : TypedExpr} (hp : Built p) (h : p.upper = .ok r) : Built r
  | lower {p r : TypedExpr} (hp : Built p) (h : p.lower = .ok r) : Built r
  | trim {p r : TypedExpr} {kind : Sql.TrimKind} (hp : Built p) (h : p.trim kind = .ok r) : Built r
  | indexOf {p q r : TypedExpr} (hp : Built p) (hq : Built q) (h : p.indexOf q = .ok r) : Built r
  | concat {p q r : TypedExpr} (hp : Built p) (hq : Built q) (h : p.concat q = .ok r) : Built r
  | parse {p r : TypedExpr} {target : ParseTarget} (hp : Built p) (h : p.parse target = .ok r) :
    Built r
  -- dates
  | dateTrunc {p r : TypedExpr} {part : Sql.DateTruncPart} (hp : Built p)
    (h : p.dateTrunc part = .ok r) : Built r
  | datePart {p r : TypedExpr} {field : Sql.DatePartField} (hp : Built p)
    (h : p.datePart field = .ok r) : Built r
  | dateOnly {p r : TypedExpr} (hp : Built p) (h : p.dateOnly = .ok r) : Built r
  | adjust {p r : TypedExpr} {amount : Int64} {unit : Sql.DurationUnit} (hp : Built p)
    (h : p.adjust amount unit = .ok r) : Built r

/-- A regular expression that is a bare condition only if its type says so. -/
structure Regular (p : TypedExpr) : Prop where
  expr : p.expr.Regular
  typed : p.type ≠ .boolean → p.expr.isBare = false

variable {p q r : TypedExpr}

/-- An operator is applied to an operand of the expected type. -/
theorem apply_eq_ok {expected : Expectation} {operation : String} {operator : UnaryOperator}
    {type : PrimitiveType} : p.apply expected operation operator type = .ok r ↔
      expected.isMetBy p.type = true ∧ r = ⟨type, .unary operator p.expr⟩ := by
  simp only [apply, expect, Outcome.bind_eq_ok, Outcome.require_eq_ok, Outcome.pure_eq_ok,
    exists_const, eq_comm (a := r)]

/-- An operator is applied to two operands of the expected type. -/
theorem combine_eq_ok {expected : Expectation} {operation : String} {operator : BinaryOperator}
    {type : PrimitiveType} : p.combine q expected operation operator type = .ok r ↔
      (expected.isMetBy p.type = true ∧ expected.isMetBy q.type = true) ∧
        r = ⟨type, .binary operator p.expr q.expr⟩ := by
  simp only [combine, expect, Outcome.bind_eq_ok, Outcome.require_eq_ok, Outcome.pure_eq_ok,
    exists_const, eq_comm (a := r), and_assoc]

/-- What is expected to be no condition is none. -/
theorem Regular.not_bare (hp : p.Regular) {expected : Expectation} (other : expected ≠ .boolean)
    (met : expected.isMetBy p.type = true) : p.expr.isBare = false := by
  refine hp.typed fun boolean ↦ ?_
  rw [boolean] at met
  cases expected with
  | boolean => exact other rfl
  | _ => cases met

/-- An operator of typed operands is regular if its operand is. -/
theorem Regular.apply (hp : p.Regular) {expected : Expectation} {operation : String}
    {operator : UnaryOperator} {type : PrimitiveType}
    (h : p.apply expected operation operator type = .ok r)
    (unsigned : operator = .negate → ∀ value, p.expr ≠ .constant value)
    (apart : expected = .boolean → operator.takesConditions = true)
    (bare : operator = .not → type = .boolean) : r.Regular := by
  obtain ⟨met, rfl⟩ := apply_eq_ok.mp h
  refine ⟨.unary hp.expr unsigned fun takes ↦ hp.not_bare (fun he ↦ ?_) met, fun other ↦ ?_⟩
  · rw [apart he] at takes
    cases takes
  · cases operator with
    | not => exact absurd (bare rfl) other
    | _ => rfl

/-- An operator of two typed operands is regular if its operands are. -/
theorem Regular.combine (hp : p.Regular) (hq : q.Regular) {expected : Expectation}
    {operation : String} {operator : BinaryOperator} {type : PrimitiveType}
    (h : p.combine q expected operation operator type = .ok r)
    (apart : expected = .boolean → operator.takesConditions = true) : r.Regular := by
  obtain ⟨⟨metp, metq⟩, rfl⟩ := combine_eq_ok.mp h
  refine ⟨.binary hp.expr hq.expr fun takes ↦ ?_, fun _ ↦ rfl⟩
  have other : expected ≠ .boolean := by
    rintro he
    rw [apart he] at takes
    cases takes
  exact ⟨hp.not_bare other metp, hq.not_bare other metq⟩

/-- What methods build is regular. -/
theorem Built.regular (built : p.Built) : p.Regular := by
  have column {row : Row} {name : String} {p : TypedExpr} (h : row.get name = .ok p) :
      p.Regular := by
    rw [Row.get] at h
    split at h
    · obtain rfl := Except.ok.inj h
      exact ⟨.column _ _ _, fun _ ↦ rfl⟩
    · cases h
  induction built with
  | get h => exact column h
  | getAs h =>
    obtain ⟨value, read, h⟩ := Outcome.bind_eq_ok.mp h
    obtain ⟨_, -, h⟩ := Outcome.bind_eq_ok.mp h
    rw [← Outcome.pure_eq_ok.mp h]
    exact column read
  | @rank _ function _ h =>
    cases function with
    | ntile buckets =>
      obtain ⟨_, -, h⟩ := Outcome.bind_eq_ok.mp h
      rw [← Outcome.pure_eq_ok.mp h]
      exact ⟨.nullary _, fun _ ↦ rfl⟩
    | _ =>
      rw [← Outcome.pure_eq_ok.mp h]
      exact ⟨.nullary _, fun _ ↦ rfl⟩
  | aggregate _ h ih =>
    rw [Collection.aggregate] at h
    split at h
    · cases h
    · obtain rfl := Except.ok.inj h
      exact ⟨.aggregate _ ih.expr, fun _ ↦ rfl⟩
  | joinStrings _ h ih =>
    obtain ⟨_, -, h⟩ := Outcome.bind_eq_ok.mp h
    rw [← Outcome.pure_eq_ok.mp h]
    exact ⟨.joinStrings _ ih.expr, fun _ ↦ rfl⟩
  | constant value => exact ⟨.constant value, fun _ ↦ rfl⟩
  | currentUser | today | now => exact ⟨.nullary _, fun _ ↦ rfl⟩
  | @add p q _ _ _ h hp hq =>
    rw [TypedExpr.add] at h
    split at h
    · next strings =>
      obtain rfl := Except.ok.inj h
      have text {t : TypedExpr} (ht : t.Regular) (string : t.type = .string) :
          t.expr.isBare = false := ht.typed (by rw [string]; decide)
      exact ⟨.binary hp.expr hq.expr fun _ ↦ ⟨text hp strings.1, text hq strings.2⟩, fun _ ↦ rfl⟩
    · exact hp.combine hq h nofun
  | sub _ _ h hp hq | mul _ _ h hp hq | div _ _ h hp hq | modulo _ _ h hp hq | atan2 _ _ h hp hq
  | pow _ _ h hp hq | rem _ _ h hp hq | indexOf _ _ h hp hq | concat _ _ h hp hq =>
    exact hp.combine hq h nofun
  | and _ _ h hp hq | or _ _ h hp hq => exact hp.combine hq h fun _ ↦ rfl
  | neg _ unsigned h hp => exact hp.apply h (fun _ ↦ unsigned) nofun nofun
  | math _ h hp | length _ h hp | like _ h hp | upper _ h hp | lower _ h hp | trim _ h hp
  | parse _ h hp | dateTrunc _ h hp | datePart _ h hp | dateOnly _ h hp | adjust _ h hp =>
    exact hp.apply h nofun nofun nofun
  | @round _ _ scale _ h hp =>
    cases scale <;> exact hp.apply h nofun nofun nofun
  | compare _ _ h hp hq =>
    obtain ⟨_, -, h⟩ := Outcome.bind_eq_ok.mp h
    rw [← Outcome.pure_eq_ok.mp h]
    exact ⟨.binary hp.expr hq.expr nofun, fun _ ↦ rfl⟩
  | not _ h hp => exact hp.apply h nofun (fun _ ↦ rfl) fun _ ↦ rfl
  | isEmpty _ hp => exact ⟨.unary hp.expr nofun nofun, fun _ ↦ rfl⟩
  | isNotEmpty _ hp => exact ⟨.unary hp.expr nofun nofun, fun _ ↦ rfl⟩
  | @inList p _ items _ _ h hp hi =>
    obtain ⟨_, listed, h⟩ := Outcome.bind_eq_ok.mp h
    have ne : items ≠ [] := by simpa using Outcome.require_eq_ok.mp listed
    split at h
    · cases h
    · rw [← Outcome.pure_eq_ok.mp h]
      have all : ∀ e ∈ items.map (·.expr), e.Regular :=
        List.forall_mem_map.mpr fun item hm ↦ (hi item hm).expr
      exact ⟨.inList hp.expr (by simpa using ne) all, fun other ↦ absurd rfl other⟩
  | ifElse _ _ _ h hp hq hq' =>
    obtain ⟨_, -, h⟩ := Outcome.bind_eq_ok.mp h
    split at h
    · rw [← Outcome.pure_eq_ok.mp h]
      exact ⟨.ifElse hp.expr hq.expr hq'.expr, fun _ ↦ rfl⟩
    · cases h

end TypedExpr

end FrameQuery
