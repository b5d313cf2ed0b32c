import FrameQuery.Proofs.Outcome
import FrameQuery.Proofs.Sql.Terms
import FrameQuery.Proofs.Text.Comments
import FrameQuery.Sql.Rendering

/-!
# Comments in rendered expressions

A minus before a literal that is negative itself is the only way in which two dashes come together:
an expression opens a comment exactly if such a minus is among its terms. This is proved node by
node, for whatever is below the node.
-/

namespace FrameQuery.Sql

variable {d : Dialect} {layout : Layout}

/-- Whether the text of a literal begins with a minus. -/
def Literal.isNegative : Literal → Bool
  | .integer value => value.toInt < 0
  | .double value => value.isNegative && !value.isNaN
  | _ => false

namespace Expression

/-- Whether an expression is a minus before a negative literal. -/
def doublesMinus : Expression → Bool
  | .negative (.literal value) => value.isNegative
  | _ => false

/-- Whether a minus before a negative literal is among the terms of an expression. -/
def opens (x : Expression) : Bool := x.terms.any (·.doublesMinus)

/-- Such a minus is the expression itself or among the terms of an operand. -/
theorem opens_eq (x : Expression) : x.opens = (x.doublesMinus || x.operands.any opens) := by
  rw [opens, terms_eq, List.any_cons, List.any_flatMap]
  rfl

/-- Such a minus is among the terms of an operand if it is not the expression itself. -/
theorem opens_of_operands {x : Expression} (h : x.doublesMinus = false) :
    x.opens = x.operands.any opens := by
  rw [opens_eq, h, Bool.false_or]

/-- No comment is opened in an expression without operands. -/
theorem opens_of_no_operands {x : Expression} (h : x.doublesMinus = false)
    (none : x.operands = []) : x.opens = false := by
  rw [opens_of_operands h, none]
  rfl

end Expression

/-! ### Constants and names -/

/-- The text of an integer. -/
private theorem exists_intDoc (layout : Layout) (n : Int64) :
    ∃ text, Mantissa text ∧ layout.chars (intDoc n) = minus (n.toInt < 0) ++ text := by
  obtain ⟨text, mantissa, he⟩ := Int.exists_mantissa n.toInt
  exact ⟨text, mantissa, by rw [intDoc, Layout.chars_text, he]⟩

/-- Integers open no comment. -/
theorem reads_intDoc (n : Int64) : (intDoc n).Reads layout false := by
  obtain ⟨text, mantissa, he⟩ := exists_intDoc layout n
  rw [Doc.Reads, he]
  exact mantissa.unsigned.signed _

/-- The words of units are letters. -/
private theorem DurationUnit.keyword_plain (unit : DurationUnit) :
    ∀ c ∈ unit.keyword.toList, c ≠ '-' ∧ c ≠ '\'' ∧ c ≠ '"' := by
  have letters : unit.keyword.toList.all (·.isUpper) = true := by cases unit <;> rfl
  intro c hc
  have upper := List.all_eq_true.mp letters c hc
  refine ⟨?_, ?_, ?_⟩ <;> (rintro rfl; cases upper)

/-- The amount and the unit of a span of time hold no quotes. -/
theorem quote_not_mem_span (layout : Layout) (interval : IntervalLiteral) :
    '\'' ∉ layout.chars (intDoc interval.amount ++ Doc.text " " ++
      Doc.text interval.unit.keyword) := by
  obtain ⟨text, mantissa, he⟩ := exists_intDoc layout interval.amount
  rw [Layout.chars_append, Layout.chars_append, he, Layout.chars_text, Layout.chars_text]
  intro hm
  rcases List.mem_append.mp hm with hm | hm
  · rcases List.mem_append.mp hm with hm | hm
    · rcases List.mem_append.mp hm with hm | hm
      · rw [minus] at hm
        split at hm <;> simp at hm
      · rcases mantissa.all _ hm with h | h <;> exact absurd h (by decide)
    · simp at hm
  · exact (interval.unit.keyword_plain _ hm).2.1 rfl

/-- Spans of time open no comment. -/
theorem Dialect.reads_intervalDoc (interval : IntervalLiteral) :
    (d.intervalDoc interval).Reads layout false := by
  rw [intervalDoc]
  split
  · have unquoted : '\'' ∉ layout.chars (intDoc interval.amount ++ Doc.text " " ++
        Doc.text interval.unit.keyword) := quote_not_mem_span layout interval
    have all : Calm ("INTERVAL ".toList ++ ('\'' :: _)) :=
      Calm.append rfl (.between (.inl rfl) unquoted)
    simpa [Doc.Reads, Layout.chars_append, Layout.chars_text, Calm] using all
  · have unit : Calm interval.unit.keyword.toList := .of_plain interval.unit.keyword_plain
    exact .before (.text "INTERVAL " rfl)
      (((reads_intDoc interval.amount).behind (.text " " rfl)).behind (.text _ unit))

/-- Constants open no comment, unless they are texts that are written as they stand. -/
theorem Dialect.reads_literalDoc {value : Literal} (h : ∀ text, value ≠ .string text true) :
    (d.literalDoc value).Reads layout false := by
  cases value with
  | boolean value => cases value <;> exact .text _ rfl
  | integer value => exact reads_intDoc value
  | double value =>
    obtain ⟨text, magnitude, he⟩ := value.exists_magnitude
    refine .text _ ?_
    rw [he]
    exact magnitude.unsigned.signed _
  | string text quoted =>
    cases quoted with
    | true => exact absurd rfl (h text)
    | false => exact .text _ (.doubled (.inl rfl) text)
  | null => exact .text _ rfl
  | interval span => exact d.reads_intervalDoc span

/-- A constant that is no number does not begin with a dash. -/
private theorem Dialect.head_literalDoc (layout : Layout) {value : Literal}
    (h : ∀ text, value ≠ .string text true)
    (integer : ∀ n, value ≠ .integer n) (double : ∀ x, value ≠ .double x) :
    ∃ c, c ≠ '-' ∧ (layout.chars (d.literalDoc value)).head? = some c := by
  cases value with
  | boolean value => cases value <;> exact ⟨_, by decide, rfl⟩
  | integer value => exact absurd rfl (integer value)
  | double value => exact absurd rfl (double value)
  | string text quoted =>
    cases quoted with
    | true => exact absurd rfl (h text)
    | false =>
      refine ⟨'\'', by decide, ?_⟩
      rw [literalDoc, Layout.chars_text, Quoted.doubled, String.toList_ofList]
      rfl
  | null => exact ⟨_, by decide, rfl⟩
  | interval span =>
    refine ⟨'I', by decide, ?_⟩
    cases hq : d.quotesIntervals <;>
      simp [literalDoc, intervalDoc, hq, Layout.chars_append, Layout.chars_text]

/-- A minus before a constant opens a comment exactly if the constant is negative. -/
theorem Dialect.reads_minus_literalDoc {value : Literal} (h : ∀ text, value ≠ .string text true) :
    (Doc.text "-" ++ d.literalDoc value).Reads layout value.isNegative := by
  have dash : Reader.plain.run "-".toList = .dash := rfl
  rw [Doc.Reads, Layout.chars_append, Layout.chars_text, Reader.run_append, dash]
  have other (integer : ∀ n, value ≠ .integer n) (double : ∀ x, value ≠ .double x) :
      Reader.dash.run (layout.chars (d.literalDoc value)) = .plain := by
    have calm : (d.literalDoc value).Reads layout false := d.reads_literalDoc h
    obtain ⟨c, hc, hh⟩ := d.head_literalDoc layout h integer double
    obtain ⟨rest, he⟩ := List.head?_eq_some_iff.mp hh
    rw [Doc.Reads, he] at calm
    rw [he]
    exact (Unsigned.of_cons hc calm).behind_dash
  cases value with
  | integer value =>
    obtain ⟨text, mantissa, he⟩ := exists_intDoc layout value
    rw [literalDoc, he, mantissa.unsigned.run_dash]
    rfl
  | double value =>
    obtain ⟨text, magnitude, he⟩ := value.exists_magnitude
    rw [literalDoc, Layout.chars_text, he, magnitude.unsigned.run_dash]
    rfl
  | _ => exact other (fun _ same ↦ by cases same) fun _ same ↦ by cases same

/-- Identifiers between double quotes are calm. -/
theorem Dialect.calm_quoted (hq : d.quote = '"') (name : String) : Calm (d.quoted name).toList :=
  .doubled (.inr hq) name

/-- Calm identifiers are written as calm text. -/
theorem Dialect.calm_identifier (hq : d.quote = '"') {name : String} (h : Calm name.toList) :
    Calm (d.identifier name false).toList := by
  rw [identifier]
  split
  · exact d.calm_quoted hq name
  · exact h

/-- Names open no comment if their parts are calm. -/
theorem Dialect.reads_nameDoc {name : QualifiedName}
    (h : ∀ part ∈ name.parts, Calm (d.identifier part false).toList) :
    (d.nameDoc name).Reads layout false := by
  have each : List.Forall₂ (fun (_ : String) (doc : Doc) ↦ doc.Reads layout false) name.parts
      (name.parts.map fun part ↦ Doc.text (d.identifier part false)) := by
    rw [List.forall₂_map_right_iff, List.forall₂_same]
    exact fun part hm ↦ .text _ (h part hm)
  exact (Doc.Reads.sepBy (.text "." rfl) each).of_eq (by simp)

/-! ### Nodes -/

/-- The document of an expression opens a comment, in every layout, exactly if a minus before a
negative literal is among its terms; and the expression is no text that is written as it stands. -/
structure Expression.Read (d : Dialect) (x : Expression) : Prop where
  gives : ∀ layout depth, Outcome.Gives (x.doc d depth) (·.Reads layout x.opens)
  cooked : ∀ text, x ≠ .literal (.string text true)

section Documents

variable {p q : Bool} {doc left right : Doc}

/-- An operator between two documents; the blank behind it parts it from what follows. -/
theorem reads_infixDoc (word : String) (hw : Calm (word.toList ++ [' ']))
    (hl : left.Reads layout p) (hr : right.Reads layout q) :
    (infixDoc word left right).Reads layout (p || q) := by
  have opening := ((Doc.Reads.text "(" rfl).before hl).behind (.text " " rfl)
  have operator : (Doc.text word ++ Doc.text " ").Reads layout false := by
    rw [Doc.Reads, Layout.chars_append, Layout.chars_text, Layout.chars_text]
    exact hw
  have all := ((opening.behind operator).append hr).behind (.text ")" rfl)
  rwa [← List.append_assoc] at all

/-- A call of a function. -/
theorem reads_callDoc {α : Type} (function : String) {opens : α → Bool} {parts : List α}
    {docs : List Doc} (hf : Calm function.toList)
    (h : List.Forall₂ (fun a doc ↦ Doc.Reads layout doc (opens a)) parts docs) :
    (callDoc function docs).Reads layout (parts.any opens) := by
  have name : (Doc.text function).Reads layout false := .text function hf
  have opening := name.behind (.text "(" rfl)
  exact (opening.before (.sepBy (.text ", " rfl) h)).behind (.text ")" rfl)

/-- A call of a function of one argument. -/
theorem reads_callDoc_one (function : String) (hf : Calm function.toList)
    (h : doc.Reads layout p) : (callDoc function [doc]).Reads layout p := by
  have each : List.Forall₂ (fun b doc ↦ Doc.Reads layout doc (id b)) [p] [doc] := .cons h .nil
  exact (reads_callDoc function hf each).of_eq (by simp)

/-- A call of a function of two arguments. -/
theorem reads_callDoc_two (function : String) (hf : Calm function.toList)
    (hl : left.Reads layout p) (hr : right.Reads layout q) :
    (callDoc function [left, right]).Reads layout (p || q) := by
  have each : List.Forall₂ (fun b doc ↦ Doc.Reads layout doc (id b)) [p, q] [left, right] :=
    .cons hl (.cons hr .nil)
  exact (reads_callDoc function hf each).of_eq (by simp)

/-- A branch of a case distinction. -/
theorem reads_branchDoc (depth : Nat) (hl : left.Reads layout p) (hr : right.Reads layout q) :
    (branchDoc depth left right).Reads layout (p || q) := by
  have first : (Doc.text "WHEN" ++ Doc.gap (depth + 2) ++ left).Reads layout p :=
    ((Doc.Reads.text "WHEN" rfl).before (.gap _)).before hl
  exact (((first.behind (.gap _)).behind (.text "THEN" rfl)).behind (.gap _)).append hr

/-- A case distinction with one branch. -/
theorem reads_caseDoc (depth : Nat) (hl : left.Reads layout p) (hr : right.Reads layout q) :
    (caseDoc depth [left] (some right)).Reads layout (p || q) := by
  rw [caseDoc, Doc.sepBy, List.intercalate_singleton]
  have first : (Doc.text "CASE" ++ Doc.gap (depth + 1) ++ left).Reads layout p :=
    ((Doc.Reads.text "CASE" rfl).before (.gap _)).before hl
  have otherwise : (Doc.gap (depth + 1) ++ Doc.text "ELSE" ++ Doc.gap (depth + 2) ++ right).Reads
      layout q := (((Doc.Reads.gap _).before (.text "ELSE" rfl)).before (.gap _)).before hr
  exact ((first.append otherwise).behind (.gap _)).behind (.text "END" rfl)

/-- The entries of a window behind a keyword, if there are any. -/
private theorem exists_part {α : Type} (keyword : String) (hk : Calm keyword.toList)
    {opens : α → Bool} {parts : List α} {docs : List Doc}
    (h : List.Forall₂ (fun a doc ↦ Doc.Reads layout doc (opens a)) parts docs) :
    ∃ flags, List.Forall₂ (fun flag doc ↦ Doc.Reads layout doc (id flag)) flags
        (if docs.isEmpty then [] else [Doc.text keyword ++ Doc.commaSep docs]) ∧
      flags.any id = parts.any opens := by
  cases h with
  | nil => exact ⟨[], .nil, rfl⟩
  | cons first rest =>
    have entries := Doc.Reads.sepBy (.text ", " rfl) (.cons first rest)
    exact ⟨[_], .cons ((Doc.Reads.text keyword hk).before entries) .nil, by simp⟩

/-- A window opens a comment if one of its partitions or keys does. -/
theorem reads_overDoc {α β : Type} {opens : α → Bool} {sorts : β → Bool} {parts : List α}
    {keys : List β} {partitions orderBy : List Doc} {frame : Option Doc}
    (hp : List.Forall₂ (fun a doc ↦ Doc.Reads layout doc (opens a)) parts partitions)
    (hk : List.Forall₂ (fun b doc ↦ Doc.Reads layout doc (sorts b)) keys orderBy)
    (hf : ∀ f ∈ frame, f.Reads layout false) :
    (overDoc partitions orderBy frame).Reads layout (parts.any opens || keys.any sorts) := by
  obtain ⟨first, hfirst, first_any⟩ := exists_part "PARTITION BY " rfl hp
  obtain ⟨second, hsecond, second_any⟩ := exists_part "ORDER BY " rfl hk
  have third : List.Forall₂ (fun flag doc ↦ Doc.Reads layout doc (id flag))
      (frame.toList.map fun _ ↦ false) frame.toList := by
    rw [List.forall₂_map_left_iff, List.forall₂_same]
    exact fun f hm ↦ hf f (Option.mem_toList.mp hm)
  have inner := Doc.Reads.sepBy (.text " " rfl)
    (List.rel_append (List.rel_append hfirst hsecond) third)
  refine (Doc.Reads.between "OVER (" ")" rfl inner rfl).of_eq ?_
  rw [List.any_append, List.any_append, first_any, second_any]
  simp

end Documents

namespace Expression

/-- Whether an expression is neither a constant nor a minus. -/
def isOrdinary : Expression → Bool
  | .literal _ | .negative _ => false
  | _ => true

/-- An expression that is neither a constant nor a minus is read if its document opens a comment
exactly where an operand does. -/
theorem Read.of_gives {x : Expression} (ordinary : x.isOrdinary = true)
    (gives : ∀ layout depth,
      Outcome.Gives (x.doc d depth) (·.Reads layout (x.operands.any opens))) : x.Read d where
  gives layout depth := by
    have minus : x.doublesMinus = false := by
      cases x with
      | negative => cases ordinary
      | _ => rfl
    rw [opens_of_operands minus]
    exact gives layout depth
  cooked text he := by
    rw [he] at ordinary
    cases ordinary

/-- Expressions are read one after the other. -/
theorem gives_docs {xs : List Expression} (h : ∀ x ∈ xs, x.Read d) (layout : Layout)
    (depth : Nat) :
    Outcome.Gives (docs d xs depth)
      (List.Forall₂ (fun x doc ↦ Doc.Reads layout doc x.opens) xs) := by
  induction xs with
  | nil => exact .ok .nil
  | cons x rest ih =>
    obtain ⟨hx, rest⟩ := List.forall_mem_cons.mp h
    exact (hx.gives layout depth).bind fun _ hd ↦ (ih rest).bind fun _ hds ↦ .ok (.cons hd hds)

end Expression

/-- A sort key opens a comment if what it sorts by does. -/
theorem SortItem.gives_docs {items : List SortItem} (h : ∀ i ∈ items, i.key.Read d)
    (layout : Layout) (depth : Nat) :
    Outcome.Gives (SortItem.docs d items depth)
      (List.Forall₂ (fun i doc ↦ Doc.Reads layout doc i.key.opens) items) := by
  induction items with
  | nil => exact .ok .nil
  | cons item rest ih =>
    obtain ⟨hi, rest⟩ := List.forall_mem_cons.mp h
    have first : Outcome.Gives (item.doc d depth) (·.Reads layout item.key.opens) := by
      obtain ⟨key, ordering, nulls⟩ := item
      have words : Calm (sortWords ordering nulls).toList := by
        cases ordering <;> cases nulls <;> rfl
      exact (hi.gives layout (depth + 1)).bind fun _ hk ↦ .ok (hk.behind (.text _ words))
    exact first.bind fun _ hd ↦ (ih rest).bind fun _ hds ↦ .ok (.cons hd hds)

end FrameQuery.Sql
