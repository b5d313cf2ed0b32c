import FrameQuery.Proofs.Expr.Reads
import FrameQuery.Proofs.Sql.Comments

/-!
# Comments in written expressions

Everything that closures can compute is written with calm words around calm or negative constants,
so that a written expression opens a comment exactly if a minus stands before a negative literal in
it or in one of the columns that it reads.
-/

namespace FrameQuery

open Sql (reads_infixDoc reads_callDoc reads_callDoc_one reads_callDoc_two reads_intDoc
  reads_branchDoc reads_caseDoc reads_overDoc)

open Sql.Expression (opens opens_eq opens_of_no_operands doublesMinus operands)

variable {d : Sql.Dialect} {scope : Scope} {x : Sql.Expression}

namespace Sql.Expression

/-! ### Constants and names -/

/-- Constants open no comment by themselves. -/
theorem opens_literal (value : Literal) : (literal value).opens = false :=
  opens_of_no_operands rfl rfl

/-- Constants are read. -/
theorem read_literal {value : Literal} (h : ∀ text, value ≠ .string text true) :
    (literal value).Read d where
  gives _ _ := .ok ((d.reads_literalDoc h).of_eq (opens_literal value).symm)
  cooked text he := h text (literal.inj he)

/-- Integers are read. -/
theorem read_integer (value : Int64) : (integer value).Read d := read_literal fun _ ↦ nofun

/-- Texts are read. -/
theorem read_string (text : String) : (string text).Read d := by
  refine read_literal fun other h ↦ ?_
  cases h

/-- Columns are read if the parts of their names are calm. -/
theorem read_column {parts : List String}
    (h : ∀ part ∈ parts, Calm (d.identifier part false).toList) : (column parts).Read d where
  gives _ _ := .ok ((d.reads_nameDoc h).of_eq (opens_of_no_operands rfl rfl).symm)
  cooked _ := nofun

/-! ### Operators -/

/-- A minus is read before whatever it negates. -/
theorem Read.negative {value : Expression} (h : value.Read d) :
    (Expression.negative value).Read d := by
  refine ⟨fun layout depth ↦ ?_, fun _ ↦ nofun⟩
  cases value with
  | literal value =>
    have opens : (Expression.negative (literal value)).opens = value.isNegative := by
      rw [opens_eq]
      simp [doublesMinus, operands, opens_literal]
    rw [opens]
    exact .ok (d.reads_minus_literalDoc fun text he ↦ h.cooked text (congrArg literal he))
  | _ =>
    rw [opens_of_operands rfl]
    refine (h.gives layout depth).bind fun _ hv ↦ .ok ?_
    exact (reads_infixDoc "-" rfl (.text "0" rfl) hv).of_eq (by simp [operands])

/-- An expression with one operand is read if its document only adds calm text to the one of the
operand. -/
theorem Read.one {x value : Expression} {write : Nat → Doc → Doc} (h : value.Read d)
    (ordinary : x.isOrdinary = true) (operands : x.operands = [value])
    (doc : ∀ depth, x.doc d depth = value.doc d depth >>= fun v ↦ .ok (write depth v))
    (reads : ∀ {layout : Layout} {v p} (depth), Doc.Reads layout v p →
      (write depth v).Reads layout p) : x.Read d := by
  refine .of_gives ordinary fun layout depth ↦ ?_
  rw [operands, doc]
  exact (h.gives layout depth).bind fun _ hv ↦ .ok ((reads depth hv).of_eq (by simp))

/-- An expression with two operands is read if its document only adds calm text to those of the
operands. -/
theorem Read.two {x left right : Expression} {write : Nat → Doc → Doc → Doc} (hl : left.Read d)
    (hr : right.Read d) (ordinary : x.isOrdinary = true) (operands : x.operands = [left, right])
    (doc : ∀ depth, x.doc d depth = left.doc d depth >>= fun l ↦
      right.doc d depth >>= fun r ↦ .ok (write depth l r))
    (reads : ∀ {layout : Layout} {l r p q} (depth), Doc.Reads layout l p → Doc.Reads layout r q →
      (write depth l r).Reads layout (p || q)) : x.Read d := by
  refine .of_gives ordinary fun layout depth ↦ ?_
  rw [operands, doc]
  refine (hl.gives layout depth).bind fun _ hl ↦ (hr.gives layout depth).bind fun _ hr ↦ .ok ?_
  exact (reads depth hl hr).of_eq (by simp)

/-- An operator between two operands. -/
theorem Read.operator {x left right : Expression} (word : String) (hw : Calm (word.toList ++ [' ']))
    (hl : left.Read d) (hr : right.Read d) (ordinary : x.isOrdinary = true)
    (operands : x.operands = [left, right])
    (doc : ∀ depth, x.doc d depth = left.doc d depth >>= fun l ↦
      right.doc d depth >>= fun r ↦ .ok (infixDoc word l r)) : x.Read d :=
  hl.two hr ordinary operands doc fun _ ↦ reads_infixDoc word hw

/-- A function of one argument. -/
theorem Read.called {x value : Expression} (function : String) (hf : Calm function.toList)
    (h : value.Read d) (ordinary : x.isOrdinary = true) (operands : x.operands = [value])
    (doc : ∀ depth, x.doc d depth = value.doc d depth >>= fun v ↦ .ok (callDoc function [v])) :
    x.Read d :=
  h.one ordinary operands doc fun _ ↦ reads_callDoc_one function hf

/-- A function of two arguments. -/
theorem Read.calledTwo {x left right : Expression} (function : String) (hf : Calm function.toList)
    (hl : left.Read d) (hr : right.Read d) (ordinary : x.isOrdinary = true)
    (operands : x.operands = [left, right])
    (doc : ∀ depth, x.doc d depth = left.doc d depth >>= fun l ↦
      right.doc d depth >>= fun r ↦ .ok (callDoc function [l, r])) : x.Read d :=
  hl.two hr ordinary operands doc fun _ ↦ reads_callDoc_two function hf

/-- A cast to a type without parameters. -/
theorem Read.cast {value : Expression} (type : String) (hw : Calm type.toList) (h : value.Read d) :
    (Expression.cast value ⟨type, []⟩).Read d := by
  refine h.one rfl rfl (fun _ ↦ rfl) fun _ hv ↦ ?_
  exact ((((Doc.Reads.text "CAST(" rfl).before hv).behind (.text " AS " rfl)).behind
    (.text type hw)).behind (.text ")" rfl)

/-- A call of a function by a name that is calm. -/
theorem Read.simple {function : String} {arguments : List Expression}
    (hf : Calm (d.identifier function false).toList) (h : ∀ a ∈ arguments, a.Read d) :
    (Expression.call (.simple function arguments)).Read d := by
  refine .of_gives rfl fun layout depth ↦ (gives_docs h layout depth).bind fun docs hd ↦ .ok ?_
  have name : (d.nameDoc ⟨[function]⟩).Reads layout false := by
    refine d.reads_nameDoc fun part hm ↦ ?_
    rwa [List.mem_singleton.mp hm]
  have opening := (name.behind (.text "(" rfl)).behind (.text "" rfl)
  have all := (opening.before (.sepBy (.text ", " rfl) hd)).behind (.text ")" rfl)
  refine ((all.behind .nil).behind .nil).of_eq ?_
  simp [Expression.operands, FunctionCall.operands, FunctionCall.simple]

end Sql.Expression

open Sql.Expression (Read read_literal read_integer read_string)

/-! ### What closures compute -/

/-- Written constants are read. -/
theorem Constant.read_toSql (value : Constant) : value.toSql.Read d := by
  cases value with
  | boolean | integer | float => exact read_literal fun _ ↦ nofun
  | string text => exact read_string text
  | strictDate date => exact .cast _ rfl (read_string date.toText)
  | dateTime time => exact .cast _ rfl (read_string time.toText)

/-- Spans of time that dates are moved by are read. -/
private theorem read_dateAdjust {value : Sql.Expression} (h : value.Read d) (amount : Int64)
    (unit : Sql.DurationUnit) :
    (Sql.Expression.extension (.dateAdjust value ⟨amount, unit⟩)).Read d := by
  refine h.one rfl rfl (fun _ ↦ rfl) fun _ hv ↦ ?_
  split
  · have word : Calm unit.keyword.toList := by cases unit <;> rfl
    have each {layout : Layout} {v : Doc} {p : Bool} (hv : v.Reads layout p) :
        List.Forall₂ (fun b doc ↦ Doc.Reads layout doc (id b)) [false, false, p]
          [Doc.text unit.keyword, Sql.intDoc amount, v] :=
      .cons (.text _ word) (.cons (reads_intDoc amount) (.cons hv .nil))
    exact (reads_callDoc "DATEADD" rfl (each hv)).of_eq (by simp)
  · exact (reads_infixDoc "+" rfl hv (d.reads_intervalDoc _)).of_eq (Bool.or_false _)

/-- Rounding is read at every scale. -/
private theorem read_roundTo {value : Sql.Expression} (h : value.Read d) (scale : Int64) :
    (Sql.Expression.extension (.round value (some (.integer scale)))).Read d := by
  refine .of_gives rfl fun layout depth ↦ ?_
  have opens : (Sql.Expression.extension (.round value (some (.integer scale)))).operands.any
      opens = value.opens := by
    simp [operands, Sql.Extension.operands, Sql.Expression.integer, Sql.Expression.opens_literal]
  rw [opens]
  simp only [Sql.Expression.doc, Sql.Extension.doc, Sql.Expression.integer]
  split
  · next he => cases he
  · refine (h.gives layout depth).bind fun _ hv ↦ .ok ?_
    exact reads_callDoc_one "ROUND" rfl hv
  · refine (h.gives layout depth).bind fun _ hv ↦ .ok ?_
    exact (reads_callDoc_two "ROUND" rfl hv (reads_intDoc _)).of_eq (Bool.or_false _)
  · next hn he => exact absurd (Option.some.inj he).symm (hn scale)

/-- An operator with one operand is read if the operand is. -/
theorem UnaryOperator.read_toSql (operator : UnaryOperator) {value : Sql.Expression}
    (h : value.Read d) : (operator.toSql value).Read d := by
  cases operator with
  | negate => exact h.negative
  | math function =>
    have word : Calm function.function.toList := by cases function <;> rfl
    exact h.called _ word rfl rfl fun _ ↦ rfl
  | round => exact h.called "ROUND" rfl rfl rfl fun _ ↦ rfl
  | roundTo scale => exact read_roundTo h scale
  | not =>
    refine h.one rfl rfl (fun _ ↦ rfl) fun _ hv ↦ ?_
    split
    · exact (Doc.Reads.text "NOT" rfl).before hv
    · exact (Doc.Reads.text "NOT" rfl).before hv
    · exact reads_callDoc_one "NOT" rfl hv
  | isEmpty =>
    refine h.one rfl rfl (fun _ ↦ rfl) fun _ hv ↦ ?_
    exact .between "(" " IS NULL)" rfl hv rfl
  | isNotEmpty =>
    refine h.one rfl rfl (fun _ ↦ rfl) fun _ hv ↦ ?_
    exact .between "(" " IS NOT NULL)" rfl hv rfl
  | length =>
    have word : Calm (if d.family = .transact then "LEN" else "CHAR_LENGTH").toList := by
      split <;> rfl
    exact h.called _ word rfl rfl fun _ ↦ rfl
  | like kind text => exact h.operator "LIKE" rfl (read_string _) rfl rfl fun _ ↦ rfl
  | upper => exact h.called "UPPER" rfl rfl rfl fun _ ↦ rfl
  | lower => exact h.called "LOWER" rfl rfl rfl fun _ ↦ rfl
  | trim kind =>
    have word : Calm kind.function.toList := by cases kind <;> rfl
    exact h.called _ word rfl rfl fun _ ↦ rfl
  | parse target => exact h.cast _ (by cases target <;> rfl)
  | dateTrunc part =>
    have word : Calm ("'" ++ part.unit ++ "'").toList := by cases part <;> rfl
    refine h.one rfl rfl (fun _ ↦ rfl) fun _ hv ↦ ?_
    exact (reads_callDoc_two "DATE_TRUNC" rfl (.text _ word) hv).of_eq (Bool.false_or _)
  | datePart field =>
    have bare : Calm field.unit.toList := by cases field <;> rfl
    have word : Calm ("'" ++ field.unit ++ "'").toList := by cases field <;> rfl
    refine h.one rfl rfl (fun _ ↦ rfl) fun _ hv ↦ ?_
    split
    · exact (reads_callDoc_two "DATEPART" rfl (.text _ bare) hv).of_eq (Bool.false_or _)
    · exact (reads_callDoc_two "DATE_PART" rfl (.text _ word) hv).of_eq (Bool.false_or _)
  | dateOnly => exact h.cast "DATE" rfl
  | adjust amount unit => exact read_dateAdjust h amount unit

/-- An operator with two operands is read if they are. -/
theorem BinaryOperator.read_toSql (operator : BinaryOperator) {left right : Sql.Expression}
    (hl : left.Read d) (hr : right.Read d) : (operator.toSql left right).Read d := by
  cases operator with
  | add => exact hl.operator "+" rfl hr rfl rfl fun _ ↦ rfl
  | subtract => exact hl.operator "-" rfl hr rfl rfl fun _ ↦ rfl
  | multiply => exact hl.operator "*" rfl hr rfl rfl fun _ ↦ rfl
  | divide =>
    refine hl.two hr rfl rfl (fun _ ↦ rfl) fun _ hl hr ↦ ?_
    exact reads_infixDoc "/" rfl ((reads_infixDoc "*" rfl (.text "1.0" rfl) hl).of_eq
      (Bool.false_or _)) hr
  | modulo => exact hl.calledTwo "MOD" rfl hr rfl rfl fun _ ↦ rfl
  | power => exact hl.calledTwo "POWER" rfl hr rfl rfl fun _ ↦ rfl
  | remainder => exact hl.calledTwo "MOD" rfl hr rfl rfl fun _ ↦ rfl
  | arcTan2 => exact hl.calledTwo "ATAN2" rfl hr rfl rfl fun _ ↦ rfl
  | compare operator =>
    have word : Calm (operator.symbol.toList ++ [' ']) := by cases operator <;> rfl
    exact hl.operator _ word hr rfl rfl fun _ ↦ rfl
  | and => exact hl.operator "AND" rfl hr rfl rfl fun _ ↦ rfl
  | or => exact hl.operator "OR" rfl hr rfl rfl fun _ ↦ rfl
  | indexOf =>
    refine .of_gives rfl fun layout depth ↦ ?_
    rw [BinaryOperator.toSql, Sql.Expression.doc, Sql.Extension.doc]
    split
    · refine (hr.gives layout depth).bind fun _ hr ↦ (hl.gives layout depth).bind fun _ hl ↦ .ok ?_
      refine (reads_callDoc_two "CHARINDEX" rfl hr hl).of_eq ?_
      simp [operands, Sql.Extension.operands, Bool.or_comm]
    · refine (hl.gives layout depth).bind fun _ hl ↦ (hr.gives layout depth).bind fun _ hr ↦ .ok ?_
      refine (reads_callDoc_two "STRPOS" rfl hl hr).of_eq ?_
      simp [operands, Sql.Extension.operands]
  | concat => exact hl.calledTwo "CONCAT" rfl hr rfl rfl fun _ ↦ rfl

/-- Operators without operands are read. -/
theorem NullaryOperator.read_toSql (hq : d.quote = '"') (operator : NullaryOperator) :
    operator.toSql.Read d := by
  have word {name : String} (h : Calm name.toList) := Sql.Dialect.calm_identifier hq h
  cases operator with
  | currentUser => exact .of_gives rfl fun _ _ ↦ .ok (.text "CURRENT_USER" rfl)
  | today => exact .of_gives rfl fun _ _ ↦ .ok (.text "CURRENT_DATE" rfl)
  | now =>
    exact .of_gives rfl fun _ _ ↦ .ok ((Doc.Reads.text "CURRENT_TIMESTAMP" rfl).behind .nil)
  | rank function =>
    cases function with
    | rowNumber => exact .simple (word rfl) (by simp)
    | rank => exact .simple (word rfl) (by simp)
    | denseRank => exact .simple (word rfl) (by simp)
    | percentRank => exact .simple (word rfl) (by simp)
    | cumeDist => exact .simple (word rfl) (by simp)
    | ntile buckets =>
      exact .simple (word rfl) (List.forall_mem_singleton.mpr (read_integer buckets))

/-- A column at another row is read if the column is. -/
theorem RowAccessor.read_toSql (hq : d.quote = '"') (accessor : RowAccessor)
    {value : Sql.Expression} (h : value.Read d) : (accessor.toSql value).Read d := by
  have word {name : String} (h : Calm name.toList) := Sql.Dialect.calm_identifier hq h
  have one : ∀ a ∈ [value], a.Read d := List.forall_mem_singleton.mpr h
  cases accessor with
  | lead => exact .simple (word rfl) one
  | lag => exact .simple (word rfl) one
  | first => exact .simple (word rfl) one
  | last => exact .simple (word rfl) one
  | nth n =>
    exact .simple (word rfl) (List.forall_mem_cons.mpr ⟨h, List.forall_mem_singleton.mpr
      (read_integer n)⟩)

namespace Sql.Expression

/-- Membership in a list is read if the value and the items are. -/
theorem Read.inPredicate {value : Expression} {items : List Expression} (hv : value.Read d)
    (hi : ∀ x ∈ items, x.Read d) : (Expression.inPredicate value (.list items)).Read d := by
  have list : (Expression.list items).Read d :=
    .of_gives rfl fun layout depth ↦ (gives_docs hi layout depth).bind fun _ hd ↦
      .ok (.between "(" ")" rfl (.sepBy (.text ", " rfl) hd) rfl)
  refine hv.two list rfl rfl (fun _ ↦ rfl) fun _ hv hi ↦ ?_
  exact (hv.behind (.text " IN " rfl)).append hi

/-- A case distinction with one branch is read if its condition and its values are. -/
theorem Read.searchedCase {condition result otherwise : Expression} (hc : condition.Read d)
    (hr : result.Read d) (ho : otherwise.Read d) :
    (Expression.searchedCase [⟨condition, result⟩] (some otherwise)).Read d := by
  refine .of_gives rfl fun layout depth ↦ ?_
  have branch : Outcome.Gives (WhenClause.doc d ⟨condition, result⟩ depth)
      (·.Reads layout (condition.opens || result.opens)) :=
    (hc.gives layout _).bind fun _ hc ↦ (hr.gives layout _).bind fun _ hr ↦
      .ok (reads_branchDoc depth hc hr)
  have branches : Outcome.Gives (WhenClause.docs d [⟨condition, result⟩] depth)
      fun docs ↦ ∃ doc, docs = [doc] ∧ doc.Reads layout (condition.opens || result.opens) :=
    branch.bind fun doc hb ↦ .ok ⟨doc, rfl, hb⟩
  have default : Outcome.Gives ((otherwise.doc d (depth + 2)).map some)
      fun o ↦ ∃ doc, o = some doc ∧ doc.Reads layout otherwise.opens :=
    (ho.gives layout _).map fun doc ho ↦ ⟨doc, rfl, ho⟩
  refine branches.bind fun _ ⟨_, hb, hr⟩ ↦ default.bind fun _ ⟨_, ho, hd⟩ ↦ ?_
  subst hb ho
  exact .ok ((reads_caseDoc depth hr hd).of_eq (by simp [operands, Bool.or_assoc]))

/-- An aggregate is read if what it reduces is. -/
theorem Read.aggregate {value : Expression} (h : value.Read d) (function : AggregateFunction) :
    (Expression.extension (.aggregate function value)).Read d := by
  have word : Calm function.function.toList := by cases function <;> rfl
  cases function with
  | distinctCount =>
    refine h.one rfl rfl (fun _ ↦ rfl) fun _ hv ↦ ?_
    exact reads_callDoc_one "COUNT" rfl ((Doc.Reads.text "DISTINCT " rfl).before hv)
  | _ => exact h.called _ word rfl rfl fun _ ↦ rfl

end Sql.Expression

/-- A written expression is read if every column is. -/
theorem Expr.read_toSql (hq : d.quote = '"') {e : Expr}
    (columns : ∀ row name value, scope.resolve row name = .ok value → value.Read d)
    (made : e.toSql scope = .ok x) : x.Read d := by
  induction e generalizing x with
  | column row name accessor =>
    obtain ⟨value, hv, rfl⟩ := toSql_column_eq_ok.mp made
    cases accessor with
    | none => exact columns row name value hv
    | some accessor => exact accessor.read_toSql hq (columns row name value hv)
  | constant value =>
    rw [← Except.ok.inj made]
    exact value.read_toSql
  | nullary operator =>
    rw [← Except.ok.inj made]
    exact operator.read_toSql hq
  | unary operator operand ih =>
    obtain ⟨value, hv, rfl⟩ := toSql_unary_eq_ok.mp made
    exact operator.read_toSql (ih hv)
  | binary operator left right ihl ihr =>
    obtain ⟨first, second, hf, hs, rfl⟩ := toSql_binary_eq_ok.mp made
    exact operator.read_toSql (ihl hf) (ihr hs)
  | inList value items ihv ihi =>
    obtain ⟨v, vs, hv, hvs, rfl⟩ := toSql_inList_eq_ok.mp made
    refine (ihv hv).inPredicate fun y hy ↦ ?_
    obtain ⟨item, hm, hi⟩ := Outcome.exists_of_mem_right hvs hy
    exact ihi item hm hi
  | ifElse condition result otherwise ihc ihr iho =>
    obtain ⟨c, r, o, hc, hr, ho, rfl⟩ := toSql_ifElse_eq_ok.mp made
    exact (ihc hc).searchedCase (ihr hr) (iho ho)
  | aggregate function values ih =>
    obtain ⟨value, hv, rfl⟩ := toSql_aggregate_eq_ok.mp made
    exact (ih hv).aggregate function
  | joinStrings values separator ih =>
    obtain ⟨value, hv, rfl⟩ := toSql_joinStrings_eq_ok.mp made
    exact (ih hv).calledTwo "STRING_AGG" rfl (read_string separator) rfl rfl fun _ ↦ rfl

/-! ### Windows -/

/-- A written bound opens no comment. -/
theorem Bound.gives_doc (bound : Bound) (isStart : Bool) (layout : Layout) (depth : Nat) :
    Outcome.Gives ((bound.toSql isStart).doc d depth) (·.Reads layout false) := by
  cases bound with
  | unbounded => cases isStart <;> exact .ok (.text _ rfl)
  | offset value unit =>
    rw [Bound.toSql]
    by_cases zero : value = 0
    · rw [if_pos zero]
      exact .ok (.text "CURRENT ROW" rfl)
    · rw [if_neg zero]
      by_cases negative : value < 0
      · rw [if_pos negative]
        cases unit with
        | none => exact .ok ((reads_intDoc _).behind (.text " PRECEDING" rfl))
        | some unit => exact .ok ((d.reads_intervalDoc _).behind (.text " PRECEDING" rfl))
      · rw [if_neg negative]
        cases unit with
        | none => exact .ok ((reads_intDoc _).behind (.text " FOLLOWING" rfl))
        | some unit => exact .ok ((d.reads_intervalDoc _).behind (.text " FOLLOWING" rfl))

/-- A written window frame opens no comment. -/
theorem FrameSpec.gives_doc (frame : FrameSpec) (layout : Layout) (depth : Nat) :
    Outcome.Gives (frame.toSql.doc d depth) (·.Reads layout false) := by
  have word : Calm frame.mode.keyword.toList := by cases frame.mode <;> rfl
  refine (frame.start.gives_doc true layout depth).bind fun _ hs ↦ ?_
  refine (frame.stop.gives_doc false layout depth).bind fun _ he ↦ .ok ?_
  have first := ((Doc.Reads.text _ word).behind (.text " BETWEEN " rfl)).before hs
  exact (first.behind (.text " AND " rfl)).before he

/-- In the offsets of a written window frame no minus stands before a negative literal. -/
private theorem FrameSpec.opens_operands (frame : FrameSpec) :
    frame.toSql.operands.any opens = false := by
  have bound (b : Bound) (isStart : Bool) : (b.toSql isStart).operands.any opens = false := by
    cases b with
    | unbounded => rfl
    | offset value unit =>
      rw [Bound.toSql]
      split
      · rfl
      · simp [Sql.FrameBound.operands, Sql.Expression.integer, Sql.Expression.opens_literal]
  simp only [toSql, Sql.WindowFrame.operands, Option.toList_some, List.flatMap_singleton,
    List.any_append, bound, Bool.or_false]

/-- A call over a written window is read if the call and every column are. -/
theorem WindowSpec.read_toSql {window : WindowSpec} {result : Sql.Window}
    (columns : ∀ name value, scope.resolve .right name = .ok value → value.Read d)
    (made : window.toSql scope = .ok result) (hx : x.Read d) :
    (Sql.Expression.window x result).Read d := by
  obtain ⟨partitions, keys, hp, hk, rfl⟩ := WindowSpec.toSql_eq_ok.mp made
  have resolved {names : List String} {xs : List Sql.Expression}
      (h : List.Forall₂ (fun c x ↦ scope.resolve .right c = .ok x) names xs) :
      ∀ x ∈ xs, x.Read d := by
    intro y hy
    obtain ⟨c, -, hc⟩ := Outcome.exists_of_mem_right h hy
    exact columns c y hc
  have sorting : ∀ k ∈ keys, k.key.Read d := fun k hm ↦
    resolved (SortKey.resolved hk) k.key (List.mem_map_of_mem hm)
  refine .of_gives rfl fun layout depth ↦ (hx.gives layout depth).bind fun _ hx ↦ ?_
  have clause : Outcome.Gives (Sql.Window.doc d
      ⟨none, partitions, keys, window.frame.map (·.toSql)⟩ depth)
      (·.Reads layout (partitions.any opens || keys.any (·.key.opens))) := by
    refine (Sql.Expression.gives_docs (resolved hp) layout depth).bind fun _ hp ↦ ?_
    refine (Sql.SortItem.gives_docs sorting layout depth).bind fun _ hk ↦ ?_
    cases window.frame with
    | none => exact .ok (reads_overDoc hp hk (by simp))
    | some frame =>
      have framed : Outcome.Gives ((frame.toSql.doc d depth).map some)
          fun f ↦ ∀ doc ∈ f, Doc.Reads layout doc false :=
        (frame.gives_doc layout depth).map fun doc hf ↦ by simpa using hf
      exact framed.bind fun _ hf ↦ .ok (reads_overDoc hp hk hf)
  refine clause.bind fun _ hw ↦ .ok (((hx.behind (.text " " rfl)).append hw).of_eq ?_)
  have frame : ((window.frame.map (·.toSql)).toList.flatMap (·.operands)).any opens = false := by
    cases window.frame with
    | none => rfl
    | some frame => simpa using frame.opens_operands
  rw [operands, List.any_cons, Sql.Window.operands, List.any_append, List.any_append, frame,
    Bool.or_false, List.any_map]
  rfl

end FrameQuery
