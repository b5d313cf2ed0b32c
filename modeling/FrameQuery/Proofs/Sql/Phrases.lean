import FrameQuery.Proofs.Text.Tokens
import FrameQuery.Sql.Clause

/-!
# Phrases

A phrase is an SQL expression as its text shows it: words, operators with their operands, calls,
casts and case distinctions. Operators bind with different strength. The text of a phrase puts
parentheses around operators between two operands and around `IS NULL`, but not around `NOT`, `IN`
and signs; it may in addition put parentheses around every operand.
-/

namespace FrameQuery.Sql

/-- Operators in front of their operand. -/
inductive Prefix where
  | not
  | minus
  /-- The word in front of a span of time. -/
  | interval
  deriving DecidableEq, Repr

/-- Operators between their operands. -/
inductive Infix where
  | or
  | and
  | compare (operator : ComparisonOperator)
  | like
  | add
  | subtract
  | multiply
  | divide
  deriving DecidableEq, Repr

namespace Infix

/-- How tightly an operator binds. -/
def level : Infix → Nat
  | or => 1
  | and => 2
  | compare _ => 5
  | like => 6
  | add | subtract => 7
  | multiply | divide => 8

/-- How tightly the left operand of an operator has to bind. Only `LIKE` does not associate. -/
def demand : Infix → Nat
  | like => 7
  | operator => operator.level

/-- An operator as it is written. -/
def word : Infix → String
  | or => "OR"
  | and => "AND"
  | compare operator => operator.symbol
  | like => "LIKE"
  | add => "+"
  | subtract => "-"
  | multiply => "*"
  | divide => "/"

/-- Operators whose result is a condition that `NOT` is put in front of as it stands. -/
def isCondition : Infix → Bool
  | or | and | compare _ => true
  | _ => false

end Infix

/-- How tightly an operator in front of its operand binds. -/
def Prefix.level : Prefix → Nat
  | .not => 3
  | .minus => 9
  | .interval => 10

/-- How tightly `IS NULL` binds. -/
def nullLevel : Nat := 4

/-- How tightly `IN` binds. -/
def memberLevel : Nat := 6

/-- How tightly a text binds that no operator can get into. -/
def closedLevel : Nat := 10

/-- How tightly a word binds: behind it an opening parenthesis may still make it a call. -/
def nameLevel : Nat := 11

/-- An SQL expression as its text shows it. -/
inductive Phrase where
  | word (text : String)
  | applied (operator : Prefix) (operand : Phrase)
  | combined (operator : Infix) (left right : Phrase)
  /-- Whether an operand is null, or present. -/
  | nullity (present : Bool) (operand : Phrase)
  /-- Whether a value is one of some items. -/
  | within (value : Phrase) (items : List Phrase)
  | call (function : String) (distinct : Bool) (arguments : List Phrase)
  | cast (value : Phrase) (type : List String)
  | branch (condition result otherwise : Phrase)
  deriving Repr

namespace Phrase

/-- How tightly the text of a phrase binds. -/
def strength : Phrase → Nat
  | word _ => nameLevel
  | applied operator _ => operator.level
  | within _ _ => memberLevel
  | _ => closedLevel

/-- Whether `NOT` is put in front of a phrase as it stands. -/
def isCondition : Phrase → Bool
  | combined operator _ _ => operator.isCondition
  | _ => false

/-- The words in front of the result of `IS`. -/
def nullWords (present : Bool) : List String :=
  if present then ["IS", "NOT", "NULL"] else ["IS", "NULL"]

/-- The text of an operand, in parentheses if every operand is to be. -/
def around (bracketed : Bool) (doc : Doc) : Doc := if bracketed then "(" ++ doc ++ ")" else doc

mutual

/-- The text of a phrase, with parentheses around every operand if they are asked for. -/
def doc (bracketed : Bool) : Phrase → Doc
  | word text => text
  | applied .not operand =>
    let inner := around bracketed (operand.doc bracketed)
    if operand.isCondition then "NOT" ++ inner else callDoc "NOT" [inner]
  | applied .minus operand => "-" ++ operand.doc bracketed
  | applied .interval operand => "INTERVAL " ++ operand.doc bracketed
  | combined operator left right =>
    infixDoc operator.word (around bracketed (left.doc bracketed))
      (around bracketed (right.doc bracketed))
  | nullity present operand =>
    "(" ++ around bracketed (operand.doc bracketed) ++ " " ++
      Doc.text (" ".intercalate (nullWords present)) ++ ")"
  | within value items =>
    around bracketed (value.doc bracketed) ++ " IN " ++
      ("(" ++ Doc.commaSep (docs bracketed items) ++ ")")
  | call function distinct arguments =>
    Doc.text function ++ "(" ++ Doc.text (if distinct then "DISTINCT " else "") ++
      Doc.commaSep (docs bracketed arguments) ++ ")"
  | cast value type =>
    "CAST(" ++ around bracketed (value.doc bracketed) ++ " AS " ++
      Doc.text (" ".intercalate type) ++ ")"
  | branch condition result otherwise =>
    "CASE WHEN " ++ around bracketed (condition.doc bracketed) ++ " THEN " ++
      around bracketed (result.doc bracketed) ++ " ELSE " ++
      around bracketed (otherwise.doc bracketed) ++ " END"

/-- The texts of operands. -/
def docs (bracketed : Bool) : List Phrase → List Doc
  | [] => []
  | phrase :: rest => around bracketed (phrase.doc bracketed) :: docs bracketed rest

end

/-- The text of a phrase. -/
def text (bracketed : Bool) (phrase : Phrase) : String :=
  Format.compact.layout.render (phrase.doc bracketed)

/-! ### Tokens -/

/-- Tokens in parentheses. -/
def enclosed (ts : List Token) : List Token := .opening :: ts ++ [.closing]

/-- The tokens of an operand. -/
def shelled (bracketed : Bool) (ts : List Token) : List Token :=
  if bracketed then enclosed ts else ts

/-- Tokens with a comma between neighbours. -/
def listed : List (List Token) → List Token
  | [] => []
  | [ts] => ts
  | ts :: rest => ts ++ .comma :: listed rest

mutual

/-- The tokens of a phrase. -/
def tokens (bracketed : Bool) : Phrase → List Token
  | word text => [.word text]
  | applied .not operand =>
    let inner := shelled bracketed (operand.tokens bracketed)
    .word "NOT" :: if operand.isCondition then inner else enclosed inner
  | applied .minus operand => .word "-" :: operand.tokens bracketed
  | applied .interval operand => .word "INTERVAL" :: operand.tokens bracketed
  | combined operator left right =>
    enclosed (shelled bracketed (left.tokens bracketed) ++
      .word operator.word :: shelled bracketed (right.tokens bracketed))
  | nullity present operand =>
    enclosed (shelled bracketed (operand.tokens bracketed) ++ (nullWords present).map .word)
  | within value items =>
    shelled bracketed (value.tokens bracketed) ++
      .word "IN" :: enclosed (listed (allTokens bracketed items))
  | call function distinct arguments =>
    .word function :: enclosed ((if distinct then [.word "DISTINCT"] else []) ++
      listed (allTokens bracketed arguments))
  | cast value type =>
    .word "CAST" :: enclosed (shelled bracketed (value.tokens bracketed) ++
      .word "AS" :: type.map .word)
  | branch condition result otherwise =>
    .word "CASE" :: .word "WHEN" :: shelled bracketed (condition.tokens bracketed) ++
      .word "THEN" :: shelled bracketed (result.tokens bracketed) ++
      .word "ELSE" :: shelled bracketed (otherwise.tokens bracketed) ++ [.word "END"]

/-- The tokens of operands. -/
def allTokens (bracketed : Bool) : List Phrase → List (List Token)
  | [] => []
  | phrase :: rest => shelled bracketed (phrase.tokens bracketed) :: allTokens bracketed rest

end

end Phrase

/-! ### Words with a meaning of their own -/

/-- What a word means that is no operand. -/
inductive Keyword where
  | operator (operator : Infix)
  /-- `NOT`, in front of an operand or behind `IS`. -/
  | negation
  | span
  | distinct
  | conversion
  | target
  | case
  | condition
  | result
  | otherwise
  | caseEnd
  | is
  | null
  | member
  deriving DecidableEq, Repr

namespace Keyword

/-- The words with a meaning of their own. -/
def words : List (String × Keyword) :=
  [.or, .and, .compare .equal, .compare .notEqual, .compare .lessThan, .compare .lessThanOrEqual,
    .compare .greaterThan, .compare .greaterThanOrEqual, .like, .add, .subtract, .multiply,
    .divide].map (fun o ↦ (Infix.word o, operator o)) ++
  [("NOT", negation), ("INTERVAL", span), ("DISTINCT", distinct), ("CAST", conversion),
    ("AS", target), ("CASE", case), ("WHEN", condition), ("THEN", result), ("ELSE", otherwise),
    ("END", caseEnd), ("IS", is), ("NULL", null), ("IN", member)]

/-- What a word means, unless it is an operand. -/
def ofWord? (word : String) : Option Keyword := words.lookup word

@[simp] theorem ofWord?_infix (o : Infix) : ofWord? o.word = some (operator o) := by
  cases o with
  | compare o => cases o <;> decide
  | _ => decide

end Keyword

/-! ### Phrases that are read back token by token -/

/-- Operators are words. -/
private theorem Infix.isWord (operator : Infix) : IsWord operator.word.toList := by
  cases operator with
  | compare operator => cases operator <;> exact ⟨by decide, fun _ ↦ rfl⟩
  | _ => exact ⟨by decide, fun _ ↦ rfl⟩

/-- A minus is a word, whatever follows. -/
private theorem delimits_minus : Delimits "-".toList [.word "-"] := by
  intro rest
  cases rest with
  | nil => rfl
  | cons c rest =>
    have ends : Lexer.belongs ['-'] c = false := by simp [Lexer.belongs, Lexer.isSign]
    have step : (Lexer.word ['-']).next c =
        (.word "-" :: (Lexer.start c).1, (Lexer.start c).2) := by simp [Lexer.next, ends]
    change ((Lexer.word ['-']).next c).1 ++ ((Lexer.word ['-']).next c).2.tokens rest = _
    rw [step]
    rfl

namespace Phrase

/-- Phrases whose text is made of the tokens it is meant to be made of. -/
inductive Proper : Phrase → Prop
  | word {text : String} (isWord : IsWord text.toList) (free : Keyword.ofWord? text = none) :
    Proper (word text)
  | negated {operand : Phrase} (ho : Proper operand) : Proper (applied .not operand)
  | signed {operator : Prefix} {text : String} (sign : operator ≠ .not) (ho : Proper (word text)) :
    Proper (applied operator (word text))
  | combined {operator : Infix} {left right : Phrase} (hl : Proper left) (hr : Proper right) :
    Proper (combined operator left right)
  | nullity {present : Bool} {operand : Phrase} (ho : Proper operand) :
    Proper (nullity present operand)
  | within {value : Phrase} {items : List Phrase} (hv : Proper value) (ne : items ≠ [])
    (hi : ∀ item ∈ items, Proper item) : Proper (within value items)
  | call {function : String} {distinct : Bool} {arguments : List Phrase}
    (hf : Proper (word function)) (ne : distinct = true → arguments ≠ [])
    (ha : ∀ argument ∈ arguments, Proper argument) : Proper (call function distinct arguments)
  | cast {value : Phrase} {type : List String} (hv : Proper value) (ne : type ≠ [])
    (ht : Delimits (" ".intercalate type ++ ")").toList (type.map .word ++ [.closing])) :
    Proper (cast value type)
  | branch {condition result otherwise : Phrase} (hc : Proper condition) (hr : Proper result)
    (ho : Proper otherwise) : Proper (branch condition result otherwise)

variable {layout : Layout} {bracketed : Bool} {doc : Doc} {ts : List Token}

/-- A document in parentheses. -/
private theorem spells_enclosed (h : doc.Spells layout ts) :
    (Doc.text "(" ++ doc ++ Doc.text ")").Delimits layout (enclosed ts) :=
  ((Doc.Delimits.of_text "(" [.opening] fun _ ↦ rfl).before h).before ")"
    [.closing] rfl fun _ ↦ rfl

/-- An operand, in parentheses or not. -/
private theorem spells_around (bracketed : Bool) (h : doc.Spells layout ts) :
    (around bracketed doc).Spells layout (shelled bracketed ts) := by
  cases bracketed with
  | false => exact h
  | true => exact (spells_enclosed h).spells

/-- Documents with a comma between neighbours. -/
private theorem spells_commaSep {docs : List Doc} {tss : List (List Token)}
    (h : List.Forall₂ (fun doc ts ↦ Doc.Spells layout doc ts) docs tss) :
    (Doc.commaSep docs).Spells layout (listed tss) := by
  induction h with
  | nil => exact fun _ _ ↦ rfl
  | @cons doc ts docs tss first rest ih =>
    cases rest with
    | nil =>
      rw [Doc.commaSep, Doc.sepBy, List.intercalate_singleton]
      exact first
    | cons second rest =>
      rw [Doc.commaSep, Doc.sepBy, List.intercalate_cons_cons]
      have comma : (doc ++ Doc.text ", ").Delimits layout (ts ++ [.comma]) :=
        first.before _ _ rfl fun _ ↦ rfl
      exact (comma.before ih).of_eq (List.append_assoc ts [.comma] _)

/-- Operands with a comma between neighbours. -/
private theorem spells_docs {phrases : List Phrase}
    (h : ∀ phrase ∈ phrases, (phrase.doc bracketed).Spells layout (phrase.tokens bracketed)) :
    List.Forall₂ (fun doc ts ↦ Doc.Spells layout doc ts) (docs bracketed phrases)
      (allTokens bracketed phrases) := by
  induction phrases with
  | nil => exact .nil
  | cons phrase rest ih =>
    obtain ⟨first, rest⟩ := List.forall_mem_cons.mp h
    exact .cons (spells_around bracketed first) (ih rest)

/-- `NOT` and its operand. -/
private theorem spells_not {operand : Phrase}
    (h : (operand.doc bracketed).Spells layout (operand.tokens bracketed)) :
    ((applied .not operand).doc bracketed).Spells layout
      ((applied .not operand).tokens bracketed) := by
  have word : (Doc.text "NOT").Spells layout [.word "NOT"] := .word ⟨by decide, fun _ ↦ rfl⟩
  have inner := spells_around bracketed h
  rw [doc, tokens]
  by_cases condition : operand.isCondition = true
  · rw [if_pos condition, if_pos condition]
    refine word.follow inner ?_
    cases bracketed with
    | true => rfl
    | false =>
      cases operand with
      | combined operator left right => rfl
      | _ => cases condition
  · rw [if_neg condition, if_neg condition, callDoc, Doc.commaSep, Doc.sepBy,
      List.intercalate_singleton]
    have all := word.follow (spells_enclosed inner).spells rfl
    rwa [← List.append_assoc, ← List.append_assoc] at all

/-- The text of a phrase is made of its tokens. -/
theorem Proper.spells {phrase : Phrase} (proper : phrase.Proper) :
    (phrase.doc bracketed).Spells layout (phrase.tokens bracketed) := by
  have opening : (Doc.text "(").Delimits layout [.opening] := .of_text _ _ fun _ ↦ rfl
  have closing {doc : Doc} {ts : List Token} (h : doc.Spells layout ts) :
      (doc ++ Doc.text ")").Delimits layout (ts ++ [.closing]) := h.before _ _ rfl fun _ ↦ rfl
  induction proper with
  | word isWord free => exact .word isWord
  | negated _ ih => exact spells_not ih
  | @signed operator text sign _ ih =>
    cases operator with
    | not => exact absurd rfl sign
    | minus => exact (Doc.Delimits.of_text "-" _ delimits_minus).before ih
    | interval => exact (Doc.Delimits.of_text "INTERVAL " [.word "INTERVAL"] fun _ ↦ rfl).before ih
  | @combined operator _ _ _ _ hl hr =>
    have left := (opening.before (spells_around bracketed hl)).blank
    have sign := (left.before (.word operator.isWord)).blank
    refine (closing (sign.before (spells_around bracketed hr))).spells.of_eq ?_
    simp [tokens, enclosed]
  | @nullity present _ _ ih =>
    have words : (Doc.text (" ".intercalate (nullWords present)) ++ Doc.text ")").Delimits layout
        ((nullWords present).map .word ++ [.closing]) := by
      cases present <;> exact fun _ ↦ rfl
    have all := ((opening.before (spells_around bracketed ih)).blank.append words).spells
    rw [← List.append_assoc] at all
    exact all.of_eq (by simp [tokens, enclosed])
  | within _ ne _ ihv ihi =>
    have word := (spells_around bracketed ihv).before " IN " [.word "IN"] rfl fun _ ↦ rfl
    have list := (spells_enclosed (spells_commaSep (spells_docs ihi))).spells
    exact (word.before list).of_eq (by simp [tokens])
  | @call _ distinct _ _ _ _ ihf iha =>
    have word : (Doc.text (if distinct then "DISTINCT " else "")).Delimits layout
        (if distinct then [.word "DISTINCT"] else []) := by
      cases distinct <;> exact fun _ ↦ rfl
    have first := ihf.before "(" [.opening] rfl fun _ ↦ rfl
    have list := (first.append word).before (spells_commaSep (spells_docs iha))
    exact (closing list).spells.of_eq (by simp [tokens, enclosed])
  | @cast _ type _ _ ht ih =>
    have words : Doc.Delimits layout (Doc.text (" ".intercalate type) ++ Doc.text ")")
        (type.map .word ++ [.closing]) := by
      rwa [Doc.Delimits, Layout.chars_append, Layout.chars_text, Layout.chars_text,
        ← String.toList_append]
    have first := (Doc.Delimits.of_text "CAST(" [.word "CAST", .opening]
      fun _ ↦ rfl).before (spells_around bracketed ih)
    have all := ((first.before " AS " [.word "AS"] rfl
      fun _ ↦ rfl).append words).spells
    rw [← List.append_assoc] at all
    exact all.of_eq (by simp [tokens, enclosed])
  | branch _ _ _ hc hr ho =>
    have first := (Doc.Delimits.of_text "CASE WHEN " [.word "CASE", .word "WHEN"]
      fun _ ↦ rfl).before (spells_around bracketed hc)
    have second := (first.before " THEN " [.word "THEN"] rfl
      fun _ ↦ rfl).before (spells_around bracketed hr)
    have third := (second.before " ELSE " [.word "ELSE"] rfl
      fun _ ↦ rfl).before (spells_around bracketed ho)
    have last : (Doc.text "END").Spells layout [.word "END"] := .word ⟨by decide, fun _ ↦ rfl⟩
    have all := third.blank.before last
    rw [List.append_assoc] at all
    exact all.of_eq (by simp [tokens])

end Phrase

end FrameQuery.Sql
