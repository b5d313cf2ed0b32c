import FrameQuery.Proofs.Number.Numerals
import FrameQuery.Proofs.Text.Layout
import FrameQuery.Text.Identifier
import FrameQuery.Text.Quoted

/-!
# Balanced brackets

A reader of a text remembers which brackets are still to be closed, and leaves out what stands
between single quotes, where a backslash makes the next character literal. Almost every part of a
text leaves the reader with the brackets it came with; where one does not, a bracket is closed that
is not open, and nothing that follows can repair this.
-/

namespace FrameQuery

/-- Where a reader of brackets stands. -/
inductive Bracketing where
  /-- Outside quotes, with brackets still to be closed, the innermost one first. -/
  | outside (due : List Char)
  /-- Between quotes. -/
  | quoted (due : List Char)
  /-- Between quotes, behind a backslash. -/
  | escaped (due : List Char)
  /-- Behind a bracket that was closed without being open. -/
  | torn
  deriving DecidableEq, Repr

/-- The brackets, and the quote that begins a token. -/
def marks : List Char := ['\'', '(', ')', '[', ']', '\x7b', '\x7d']

namespace Bracketing

/-- What closes a bracket. -/
def closing? : Char → Option Char
  | '(' => some ')'
  | '[' => some ']'
  | '\x7b' => some '\x7d'
  | _ => none

/-- What a character leads to outside quotes. -/
def turn (due : List Char) (c : Char) : Bracketing :=
  if c = '\'' then .quoted due
  else match closing? c with
    | some closing => .outside (closing :: due)
    | none =>
      if c = ')' ∨ c = ']' ∨ c = '\x7d' then
        if due.head? = some c then .outside due.tail else .torn
      else .outside due

/-- What a character leads to. A strict reader takes no parentheses between quotes. -/
def next (strict : Bool) : Bracketing → Char → Bracketing
  | .outside due, c => turn due c
  | .quoted due, c =>
    if strict ∧ (c = '(' ∨ c = ')') then .torn
    else if c = '\\' then .escaped due
    else if c = '\'' then .outside due
    else .quoted due
  | .escaped due, c => if strict ∧ (c = '(' ∨ c = ')') then .torn else .quoted due
  | .torn, _ => .torn

/-- What a text leads to. -/
def run (strict : Bool) (reader : Bracketing) (text : List Char) : Bracketing :=
  text.foldl (next strict) reader

variable {strict : Bool} {due : List Char} {c : Char}

/-- A character that is no mark leaves the reader where it is. -/
theorem turn_of_plain (h : c ∉ marks) (due : List Char) : turn due c = .outside due := by
  simp only [marks, List.mem_cons, List.not_mem_nil, or_false, not_or] at h
  obtain ⟨quote, round, round', square, square', brace, brace'⟩ := h
  have none : closing? c = none := by
    unfold closing?
    split <;> first | contradiction | rfl
  rw [turn, if_neg quote, none]
  exact if_neg (by simp [round', square', brace'])

/-- What is closed was open, and what was due behind it still is. -/
theorem exists_of_turn_closing (hc : c = ')' ∨ c = ']' ∨ c = '\x7d') (h : turn due c ≠ .torn) :
    ∃ outer, due = c :: outer ∧ turn due c = .outside outer := by
  have turned : turn due c = if due.head? = some c then .outside due.tail else .torn := by
    rcases hc with rfl | rfl | rfl <;> rfl
  rw [turned] at h ⊢
  split at h
  · next first =>
    obtain ⟨outer, rfl⟩ := List.head?_eq_some_iff.mp first
    exact ⟨outer, rfl, if_pos rfl⟩
  · exact absurd rfl h

/-- Texts are read one after the other. -/
theorem run_append (reader : Bracketing) (first second : List Char) :
    reader.run strict (first ++ second) = (reader.run strict first).run strict second :=
  List.foldl_append

/-- What was torn stays torn. -/
@[simp] theorem run_torn (text : List Char) : torn.run strict text = .torn := by
  induction text with
  | nil => rfl
  | cons c text ih => exact ih

end Bracketing

/-- Whether all brackets of a text that stand outside quotes are closed in turn. -/
def Balanced (text : List Char) : Prop := (Bracketing.outside []).run false text = .outside []

instance (text : List Char) : Decidable (Balanced text) :=
  inferInstanceAs (Decidable (_ = _))

/-- A text that leaves a reader with the brackets it came with. -/
def Steady (strict : Bool) (text : List Char) : Prop :=
  ∀ due, (Bracketing.outside due).run strict text = .outside due

/-- A text that can stand between quotes: no backslash of its own is needed in front of it, and for
a strict reader it holds no parentheses. -/
def Quotable (strict : Bool) (text : String) : Prop :=
  '\\' ∉ text.toList ∧ (strict = true → '(' ∉ text.toList ∧ ')' ∉ text.toList)

instance (strict : Bool) (text : String) : Decidable (Quotable strict text) :=
  inferInstanceAs (Decidable (_ ∧ _))

namespace Steady

variable {strict : Bool}

/-- Nothing is steady. -/
theorem nil : Steady strict [] := fun _ ↦ rfl

/-- A text without brackets and quotes is steady. -/
theorem of_plain {text : List Char} (h : ∀ c ∈ text, c ∉ marks) : Steady strict text := by
  induction text with
  | nil => exact nil
  | cons c text ih =>
    obtain ⟨hc, rest⟩ := List.forall_mem_cons.mp h
    intro due
    change (Bracketing.turn due c).run strict text = .outside due
    rw [Bracketing.turn_of_plain hc]
    exact ih rest due

/-- Between quotes a reader stays between quotes. -/
private theorem run_backslash {text : List Char} (unescaped : '\\' ∉ text)
    (plain : strict = true → '(' ∉ text ∧ ')' ∉ text) (due : List Char) :
    (Bracketing.quoted due).run strict (Quoted.backslash '\'' text) = .quoted due := by
  induction text with
  | nil => rfl
  | cons c text ih =>
    have others := ih (fun h ↦ unescaped (List.mem_cons_of_mem _ h)) fun hs ↦
      ⟨fun h ↦ (plain hs).1 (List.mem_cons_of_mem _ h),
        fun h ↦ (plain hs).2 (List.mem_cons_of_mem _ h)⟩
    have step : (Bracketing.quoted due).run strict (if c = '\'' then ['\\', '\''] else [c]) =
        .quoted due := by
      split
      · cases strict <;> rfl
      · next quote =>
        have backslash : c ≠ '\\' := fun h ↦ unescaped (h ▸ List.mem_cons_self)
        have allowed : ¬(strict = true ∧ (c = '(' ∨ c = ')')) := by
          rintro ⟨hs, rfl | rfl⟩
          · exact (plain hs).1 List.mem_cons_self
          · exact (plain hs).2 List.mem_cons_self
        change Bracketing.next strict (.quoted due) c = .quoted due
        rw [Bracketing.next, if_neg allowed, if_neg backslash, if_neg quote]
    change (Bracketing.quoted due).run strict
      ((if c = '\'' then ['\\', '\''] else [c]) ++ Quoted.backslash '\'' text) = _
    rw [Bracketing.run_append, step, others]

/-- A text between quotes is steady. -/
theorem backslashed {text : String} (h : Quotable strict text) :
    Steady strict (Quoted.backslashed '\'' text).toList := by
  intro due
  rw [Quoted.backslashed, String.toList_ofList]
  change (Bracketing.quoted due).run strict (Quoted.backslash '\'' text.toList ++ ['\'']) =
    .outside due
  rw [Bracketing.run_append, run_backslash h.1 h.2]
  cases strict <;> rfl

end Steady

/-! ### Texts without marks -/

/-- A text without brackets and quotes. -/
def Unmarked (text : String) : Prop := ∀ c ∈ text.toList, c ∉ marks

instance (text : String) : Decidable (Unmarked text) :=
  List.decidableBAll (· ∉ marks) text.toList

/-- Texts without marks one after the other. -/
theorem Unmarked.append {first second : String} (hf : Unmarked first) (hs : Unmarked second) :
    Unmarked (first ++ second) := by
  rw [Unmarked, String.toList_append, List.forall_mem_append]
  exact ⟨hf, hs⟩

/-- Texts without marks with a separator between them. -/
theorem Unmarked.intercalate {separator : String} {texts : List String} (hs : Unmarked separator)
    (h : ∀ text ∈ texts, Unmarked text) : Unmarked (separator.intercalate texts) := by
  induction texts with
  | nil => exact (by decide : Unmarked "")
  | cons text texts ih =>
    obtain ⟨ht, rest⟩ := List.forall_mem_cons.mp h
    cases texts with
    | nil => rwa [String.intercalate_singleton]
    | cons next texts =>
      rw [String.intercalate_cons_cons]
      exact (ht.append hs).append (ih rest)

/-- Characters of numbers and dates are no marks. -/
theorem Numeric.unmarked {text : String} (h : Numeric text) : Unmarked text := by
  intro c hc hm
  simp only [marks, List.mem_cons, List.not_mem_nil, or_false] at hm
  rcases hm with rfl | rfl | rfl | rfl | rfl | rfl | rfl <;> exact absurd (h _ hc) (by decide)

/-- Identifiers go on with letters, numbers and underscores. -/
theorem Identifier.isContinue_of_mem {name : String} (h : isIdentifier name = true) :
    ∀ c ∈ name.toList, isContinue c = true := by
  rw [isIdentifier] at h
  intro c hc
  split at h
  · cases h
  · next first rest he =>
    obtain ⟨start, others⟩ := Bool.and_eq_true_iff.mp h
    rw [he] at hc
    rcases List.mem_cons.mp hc with rfl | hc
    · rw [isContinue, start, Bool.true_or]
    · exact List.all_eq_true.mp others c hc

/-- Identifiers hold no marks. -/
theorem Identifier.unmarked {name : String} (h : isIdentifier name = true) : Unmarked name := by
  have all := isContinue_of_mem h
  intro c hc hm
  simp only [marks, List.mem_cons, List.not_mem_nil, or_false] at hm
  rcases hm with rfl | rfl | rfl | rfl | rfl | rfl | rfl <;>
    exact absurd (all _ hc) (by decide)

/-! ### Documents -/

namespace Doc

variable {layout : Layout} {strict : Bool} {doc first second : Doc} {p q : Bool}

/-- Behind a document a reader has the brackets it came with, unless the document has torn them. -/
def Pairs (layout : Layout) (strict : Bool) (doc : Doc) (torn : Bool) : Prop :=
  ∀ due, (Bracketing.outside due).run strict (layout.chars doc) =
    if torn then .torn else .outside due

/-- A document that leaves a reader between parentheses with the brackets it came with. -/
def Enclosable (layout : Layout) (strict : Bool) (doc : Doc) : Prop :=
  ∀ due, (Bracketing.outside (')' :: due)).run strict (layout.chars doc) = .outside (')' :: due)

namespace Pairs

/-- Reading the same. -/
theorem of_eq (h : Pairs layout strict doc p) (he : p = q) : Pairs layout strict doc q := he ▸ h

/-- Nothing tears no brackets. -/
theorem nil : Pairs layout strict [] false := fun _ ↦ rfl

/-- A document tears brackets if one of its two parts does. -/
theorem append (hf : Pairs layout strict first p) (hs : Pairs layout strict second q) :
    Pairs layout strict (first ++ second) (p || q) := by
  intro due
  rw [Layout.chars_append, Bracketing.run_append, hf due]
  cases p with
  | true => exact Bracketing.run_torn _
  | false => exact hs due

/-- A document tears no brackets before another one. -/
theorem before (hf : Pairs layout strict first false) (hs : Pairs layout strict second q) :
    Pairs layout strict (first ++ second) q :=
  (hf.append hs).of_eq (Bool.false_or q)

/-- A document tears no brackets behind another one. -/
theorem behind (hf : Pairs layout strict first p) (hs : Pairs layout strict second false) :
    Pairs layout strict (first ++ second) p :=
  (hf.append hs).of_eq (Bool.or_false p)

/-- A steady text tears no brackets. -/
theorem of_steady {text : String} (h : Steady strict text.toList) :
    Pairs layout strict (Doc.text text) false := by
  intro due
  rw [Layout.chars_text]
  exact h due

/-- A text without marks tears no brackets. -/
theorem text {text : String} (h : Unmarked text) : Pairs layout strict (Doc.text text) false :=
  of_steady (.of_plain h)

/-- A text between quotes tears no brackets. -/
theorem backslashed {text : String} (h : Quotable strict text) :
    Pairs layout strict (Doc.text (Quoted.backslashed '\'' text)) false :=
  of_steady (.backslashed h)

/-- Breaks are no marks. -/
private theorem steady_write {glyph : Glyph} (break_ : ∀ c, glyph ≠ .char c) :
    Steady strict (layout.write glyph) := by
  refine .of_plain fun c hc ↦ ?_
  rcases Layout.mem_write hc break_ with rfl | rfl <;> decide

/-- A break between tokens tears no brackets. -/
theorem gap (depth : Nat) : Pairs layout strict (Doc.gap depth) false := by
  have steady : Steady strict (layout.write (.gap depth)) := steady_write nofun
  intro due
  rw [Doc.gap, Layout.chars, List.flatMap_singleton]
  exact steady due

/-- A break next to a bracket tears no brackets. -/
theorem seam (depth : Nat) : Pairs layout strict (Doc.seam depth) false := by
  have steady : Steady strict (layout.write (.seam depth)) := steady_write nofun
  intro due
  rw [Doc.seam, Layout.chars, List.flatMap_singleton]
  exact steady due

/-- Documents with a separator between them tear brackets if one of them does. -/
theorem sepBy {α : Type} {separator : Doc} {torn : α → Bool} {parts : List α} {docs : List Doc}
    (hs : Pairs layout strict separator false)
    (h : List.Forall₂ (fun a doc ↦ Pairs layout strict doc (torn a)) parts docs) :
    Pairs layout strict (Doc.sepBy separator docs) (parts.any torn) :=
  sepBy_flagged torn nil append hs h

/-- Documents with commas between them tear no brackets if none of them does. -/
theorem commaSep {docs : List Doc} (h : ∀ doc ∈ docs, Pairs layout strict doc false) :
    Pairs layout strict (Doc.commaSep docs) false :=
  sepBy_of_forall (P := (Pairs layout strict · false)) nil append (text (by decide)) h

/-- A document between a text that opens brackets and one that closes them. -/
theorem between (closing : List Char) {before after : String}
    (hb : ∀ due, (Bracketing.outside due).run strict before.toList = .outside (closing ++ due))
    (ha : ∀ due, (Bracketing.outside (closing ++ due)).run strict after.toList = .outside due)
    (h : Pairs layout strict doc p) :
    Pairs layout strict (Doc.text before ++ doc ++ Doc.text after) p := by
  intro due
  rw [Layout.chars_append, Layout.chars_append, Layout.chars_text, Layout.chars_text,
    Bracketing.run_append, Bracketing.run_append, hb, h]
  cases p with
  | true => exact Bracketing.run_torn _
  | false => exact ha due

/-- A document that tears no brackets tears none between parentheses. -/
theorem enclosable (h : Pairs layout strict doc false) : Enclosable layout strict doc :=
  fun due ↦ h (')' :: due)

end Pairs

namespace Enclosable

/-- Enclosable documents one after the other. -/
theorem append (hf : Enclosable layout strict first) (hs : Enclosable layout strict second) :
    Enclosable layout strict (first ++ second) := by
  intro due
  rw [Layout.chars_append, Bracketing.run_append, hf due]
  exact hs due

/-- Enclosable documents with commas between them. -/
theorem commaSep {docs : List Doc} (h : ∀ doc ∈ docs, Enclosable layout strict doc) :
    Enclosable layout strict (Doc.commaSep docs) :=
  sepBy_of_forall (fun _ ↦ rfl) append (Pairs.text (by decide)).enclosable h

/-- Between parentheses nothing is torn. -/
theorem between {before after : String}
    (hb : ∀ due, (Bracketing.outside due).run strict before.toList = .outside (')' :: due))
    (ha : ∀ due, (Bracketing.outside (')' :: due)).run strict after.toList = .outside due)
    (h : Enclosable layout strict doc) :
    Pairs layout strict (Doc.text before ++ doc ++ Doc.text after) false := by
  intro due
  rw [Layout.chars_append, Layout.chars_append, Layout.chars_text, Layout.chars_text,
    Bracketing.run_append, Bracketing.run_append, hb, h]
  exact ha due

end Enclosable

/-! ### Outer parentheses -/

/-- How a document starts that tears no brackets: with no parenthesis, or with one whose counterpart
stands at the end of the document exactly if it `encloses` the whole. -/
inductive Headed (layout : Layout) (strict : Bool) : Doc → Bool → Prop
  | other {doc : Doc} : doc.head? ≠ some (.char '(') → Headed layout strict doc false
  | parens {inner tail : Doc} (encloses : Bool) : inner.Pairs layout strict false →
    (encloses = true ↔ tail = []) →
    Headed layout strict (Doc.text "(" ++ inner ++ Doc.text ")" ++ tail) encloses

namespace Headed

/-- A document that starts with a character other than a parenthesis. -/
theorem of_head (c : Char) (h : doc.head? = some (.char c)) (hc : c ≠ '(') :
    Headed layout strict doc false := by
  refine .other fun he ↦ hc ?_
  rw [h] at he
  exact Glyph.char.inj (Option.some.inj he)

/-- A text without marks does not start with a parenthesis. -/
theorem text {text : String} (h : Unmarked text) : Headed layout strict (Doc.text text) false := by
  refine .other fun he ↦ ?_
  obtain ⟨c, hc, same⟩ := List.mem_map.mp (List.mem_of_mem_head? he)
  rw [Glyph.char.inj same] at hc
  exact h _ hc (by decide)

/-- Where something follows that is no parenthesis, the whole is not enclosed. -/
theorem append (h : Headed layout strict first p) (c : Char) (hs : second.head? = some (.char c))
    (hc : c ≠ '(') : Headed layout strict (first ++ second) false := by
  cases h with
  | other h =>
    refine .other ?_
    cases first with
    | nil =>
      rw [List.nil_append, hs]
      exact fun he ↦ hc (Glyph.char.inj (Option.some.inj he))
    | cons glyph rest => exact h
  | @parens inner tail encloses hi ht =>
    rw [List.append_assoc]
    refine .parens false hi ?_
    have behind : second ≠ [] := by
      rintro rfl
      cases hs
    simp [behind]

end Headed

/-- Only an open parenthesis is closed by one. -/
private theorem eq_of_next_closing {reader : Bracketing} {due : List Char}
    (h : reader.next strict ')' = .outside due) : reader = .outside (')' :: due) := by
  cases reader with
  | outside open_ =>
    have whole : Bracketing.turn open_ ')' ≠ .torn := fun torn ↦ nomatch torn.symm.trans h
    obtain ⟨outer, rfl, turned⟩ := Bracketing.exists_of_turn_closing (.inl rfl) whole
    rw [Bracketing.outside.inj (turned.symm.trans h)]
  | quoted open_ => cases strict <;> cases h
  | escaped open_ => cases strict <;> cases h
  | torn => cases h

/-- What is left of a document that tears no brackets, when it loses its outer parentheses, tears
none between other parentheses. -/
theorem Pairs.strip {quotes : List Char} (h : Pairs layout strict doc false) :
    Enclosable layout strict (doc.stripOuterParens quotes) := by
  by_cases outer : doc.hasOuterParens quotes = true
  · intro due
    have all := h due
    rw [eq_of_hasOuterParens outer, Layout.chars_append, Layout.chars_append, Layout.chars_text,
      Layout.chars_text, Bracketing.run_append, Bracketing.run_append] at all
    exact eq_of_next_closing all
  · rw [stripOuterParens, if_neg outer]
    exact h.enclosable

/-- A document that starts with no parenthesis loses none. -/
theorem strip_of_head {quotes : List Char} (h : doc.head? ≠ some (.char '(')) :
    doc.stripOuterParens quotes = doc := by
  simp [stripOuterParens, hasOuterParens, h]

/-- Outside parentheses, what is left of a document without its outer parentheses tears brackets
exactly if these were two parentheses that do not belong together. -/
theorem Headed.run_strip {quotes : List Char} (headed : Headed layout strict doc p)
    (pairs : Pairs layout strict doc false) {due : List Char} (hd : due.head? ≠ some ')') :
    (Bracketing.outside due).run strict (layout.chars (doc.stripOuterParens quotes)) =
      if doc.hasOuterParens quotes && !p then .torn else .outside due := by
  by_cases outer : doc.hasOuterParens quotes = true
  · cases headed with
    | other h => simp [hasOuterParens, h] at outer
    | @parens inner tail _ hi ht =>
      have same := eq_of_hasOuterParens outer
      rw [outer, Bool.true_and]
      generalize stripOuterParens quotes _ = left at same ⊢
      have cut : inner ++ Doc.text ")" ++ tail = left ++ Doc.text ")" := by
        rw [List.append_assoc, List.append_assoc, List.append_assoc] at same
        rw [List.append_assoc]
        exact List.append_cancel_left same
      cases p with
      | true =>
        rw [ht.mp rfl, List.append_nil] at cut
        rw [← List.append_cancel_right cut]
        exact hi due
      | false =>
        -- the last parenthesis that was dropped stands behind the one that closes the first
        rcases List.eq_nil_or_concat tail with rfl | ⟨middle, glyph, rfl⟩
        · exact absurd (ht.mpr rfl) (by decide)
        · rw [List.concat_eq_append, ← List.append_assoc] at cut
          obtain ⟨rfl, -⟩ := List.append_inj' cut rfl
          rw [Layout.chars_append, Layout.chars_append, Layout.chars_text, Bracketing.run_append,
            Bracketing.run_append, hi due]
          have torn : (Bracketing.outside due).run strict ")".toList = .torn := by
            change Bracketing.turn due ')' = .torn
            exact if_neg hd
          exact (congrArg (Bracketing.run strict · (layout.chars middle)) torn).trans
            (Bracketing.run_torn _)
  · rw [(Bool.not_eq_true _).mp outer, Bool.false_and, stripOuterParens, if_neg outer]
    exact pairs due

end Doc

/-! ### Counted parentheses -/

namespace Bracketing

/-- How many parentheses are still to be closed. -/
def parens : Bracketing → Nat
  | .outside due | .quoted due | .escaped due => due.count ')'
  | .torn => 0

/-- Only parentheses open and close parentheses. -/
private theorem parens_turn {due : List Char} {c : Char} (opening : c ≠ '(') (closing : c ≠ ')')
    (h : turn due c ≠ .torn) : (turn due c).parens = due.count ')' := by
  have closed (hc : c = ']' ∨ c = '\x7d') : (turn due c).parens = due.count ')' := by
    obtain ⟨outer, rfl, turned⟩ := exists_of_turn_closing (.inr hc) h
    rw [turned]
    exact (List.count_cons_of_ne closing).symm
  by_cases hm : c ∈ marks
  · simp only [marks, List.mem_cons, List.not_mem_nil, or_false] at hm
    rcases hm with rfl | rfl | rfl | rfl | rfl | rfl | rfl
    · rfl
    · exact absurd rfl opening
    · exact absurd rfl closing
    · exact List.count_cons_of_ne (by decide)
    · exact closed (.inl rfl)
    · exact List.count_cons_of_ne (by decide)
    · exact closed (.inr rfl)
  · rw [turn_of_plain hm]
    rfl

/-- Where no parentheses stand between quotes, counting them all is counting those outside
quotes. -/
private theorem enclosed_char {reader : Bracketing} {c : Char} (h : reader.next true c ≠ .torn)
    (rest : Doc) :
    Doc.enclosed [] (.char c :: rest) (reader.parens + 1) none =
      Doc.enclosed [] rest ((reader.next true c).parens + 1) none := by
  have other (hc : ¬(c = '(' ∨ c = ')')) (same : (reader.next true c).parens = reader.parens) :
      Doc.enclosed [] (.char c :: rest) (reader.parens + 1) none =
        Doc.enclosed [] rest ((reader.next true c).parens + 1) none := by
    obtain ⟨opening, closing⟩ := not_or.mp hc
    rw [same, Doc.enclosed]
    simp [opening, closing]
  cases reader with
  | torn => exact absurd rfl h
  | escaped due =>
    by_cases hc : c = '(' ∨ c = ')'
    · simp [next, hc] at h
    · refine other hc ?_
      simp [next, hc, parens]
  | quoted due =>
    by_cases hc : c = '(' ∨ c = ')'
    · simp [next, hc] at h
    · refine other hc ?_
      rw [next, if_neg (by simp [hc])]
      split
      · rfl
      · split <;> rfl
  | outside due =>
    by_cases opening : c = '('
    · subst opening
      have turned : next true (.outside due) '(' = .outside (')' :: due) := rfl
      rw [turned, parens, parens, List.count_cons_self]
      rfl
    by_cases closing : c = ')'
    · subst closing
      obtain ⟨outer, rfl, turned⟩ := exists_of_turn_closing (.inl rfl) h
      rw [next, turned, parens, parens, List.count_cons_self]
      simp [Doc.enclosed]
    exact other (not_or.mpr ⟨opening, closing⟩) (parens_turn opening closing h)

/-- A text is counted character by character. -/
private theorem enclosed_text {text : List Char} {reader : Bracketing}
    (h : reader.run true text ≠ .torn) (rest : Doc) :
    Doc.enclosed [] (text.map .char ++ rest) (reader.parens + 1) none =
      Doc.enclosed [] rest ((reader.run true text).parens + 1) none := by
  induction text generalizing reader with
  | nil => rfl
  | cons c text ih =>
    have step : reader.next true c ≠ .torn := by
      intro torn
      refine h ?_
      change (reader.next true c).run true text = .torn
      rw [torn, run_torn]
    rw [List.map_cons, List.cons_append, enclosed_char step]
    exact ih h

/-- Breaks are not counted. -/
theorem enclosed_doc {layout : Layout} {doc : Doc} {reader : Bracketing}
    (h : reader.run true (layout.chars doc) ≠ .torn) (rest : Doc) :
    Doc.enclosed [] (doc ++ rest) (reader.parens + 1) none =
      Doc.enclosed [] rest ((reader.run true (layout.chars doc)).parens + 1) none := by
  induction doc generalizing reader with
  | nil => rfl
  | cons glyph doc ih =>
    have split : reader.run true (layout.chars (glyph :: doc)) =
        (reader.run true (layout.write glyph)).run true (layout.chars doc) :=
      run_append reader (layout.write glyph) (layout.chars doc)
    rw [split] at h ⊢
    rw [← ih h]
    have first : reader.run true (layout.write glyph) ≠ .torn := by
      intro torn
      rw [torn] at h
      exact h (run_torn _)
    rw [← enclosed_text first]
    have blank (break_ : ∀ c, glyph ≠ .char c) :
        Doc.enclosed [] ((layout.write glyph).map .char ++ (doc ++ rest)) (reader.parens + 1) none =
          Doc.enclosed [] (doc ++ rest) (reader.parens + 1) none :=
      Doc.enclosed_blanks (fun _ hc ↦ Layout.mem_write hc break_) (by decide) (by decide) _
        (by simp) _
    cases glyph with
    | char c => rfl
    | gap depth => exact (blank nofun).symm
    | seam depth => exact (blank nofun).symm

end Bracketing

/-- Where no parentheses stand between quotes, a document whose first parenthesis is closed before
its end is not taken for one in outer parentheses. -/
theorem Doc.Headed.hasOuterParens_eq_false {layout : Layout} {doc : Doc}
    (h : Headed layout true doc false) : doc.hasOuterParens [] = false := by
  cases h with
  | other h => simp [hasOuterParens, h]
  | @parens inner tail _ hi ht =>
    have behind : tail ≠ [] := fun none ↦ absurd (ht.mpr none) (by decide)
    have read : (Bracketing.outside []).run true (layout.chars inner) = .outside [] := hi []
    have whole : (Bracketing.outside []).run true (layout.chars inner) ≠ .torn := by simp [read]
    have counted := Bracketing.enclosed_doc whole (Doc.text ")" ++ tail)
    rw [read] at counted
    have closed : enclosed [] (Doc.text ")" ++ tail) 1 none = false := by
      change enclosed [] (.char ')' :: tail) 1 none = false
      simp [enclosed, behind]
    have all : enclosed [] (Doc.text "(" ++ inner ++ Doc.text ")" ++ tail) 0 none = false := by
      rw [List.append_assoc, List.append_assoc]
      exact counted.trans closed
    rw [hasOuterParens, all, Bool.and_false]

end FrameQuery
