import FrameQuery.Proofs.Text.Layout
import FrameQuery.Sql.Rendering
import Mathlib.Data.List.Infix

/-!
# Which parentheses enclose a text

A text loses its outer parentheses if they belong together: what stands between them leaves no
quoted region open, and outside quotes each of its closing parentheses has an opening one of its own
in front of it, and each opening one is closed. A reader that decides this in one pass stops at the
first parenthesis that closes the outer one too early.
-/

namespace FrameQuery

/-! ### What stands outside quotes -/

namespace Quoting

/-- The quote that is open behind a character. -/
def next (quotes : List Char) : Option Char → Char → Option Char
  | some quote, c => if c = quote then none else some quote
  | none, c => if c ∈ quotes then some c else none

/-- The quote that is open behind a text. -/
def after (quotes : List Char) (quote : Option Char) (text : List Char) : Option Char :=
  text.foldl (next quotes) quote

/-- The characters of a text that stand outside quotes; the quotes themselves do not. -/
def outside (quotes : List Char) : Option Char → List Char → List Char
  | _, [] => []
  | some quote, c :: rest => outside quotes (next quotes (some quote) c) rest
  | none, c :: rest =>
    if c ∈ quotes then outside quotes (some c) rest else c :: outside quotes none rest

end Quoting

/-! ### Pairs of parentheses -/

/-- Behind `depth` opening parentheses, a text closes these and all of its own, and each of its
closing parentheses has an opening one of its own in front of it. -/
structure Closes (depth : Nat) (text : List Char) : Prop where
  opened : ∀ front, front <+: text → front.count ')' ≤ depth + front.count '('
  closed : text.count ')' = depth + text.count '('

namespace Closes

variable {depth : Nat} {c : Char} {text : List Char}

/-- What holds of the beginnings of a text holds of the empty one and of those with its first
character. -/
private theorem forall_prefix_cons {P : List Char → Prop} :
    (∀ front, front <+: c :: text → P front) ↔ P [] ∧ ∀ front, front <+: text → P (c :: front) := by
  constructor
  · intro h
    exact ⟨h [] List.nil_prefix, fun front hf ↦ h _ ((List.prefix_cons_inj c).mpr hf)⟩
  · rintro ⟨none, some⟩ front hf
    rcases List.prefix_cons_iff.mp hf with rfl | ⟨rest, rfl, hr⟩
    · exact none
    · exact some rest hr

/-- The conditions for a text, from those on the text behind its first character. -/
private theorem cons_iff : Closes depth (c :: text) ↔
    (∀ front, front <+: text → (c :: front).count ')' ≤ depth + (c :: front).count '(') ∧
      (c :: text).count ')' = depth + (c :: text).count '(' := by
  refine ⟨fun h ↦ ⟨(forall_prefix_cons.mp h.opened).2, h.closed⟩, fun ⟨opened, closed⟩ ↦ ?_⟩
  exact ⟨forall_prefix_cons.mpr ⟨Nat.zero_le _, opened⟩, closed⟩

/-- Nothing closes nothing. -/
theorem nil_iff : Closes depth [] ↔ depth = 0 := by
  constructor
  · intro h
    exact h.closed.symm
  · rintro rfl
    exact ⟨fun front hf ↦ by rw [List.prefix_nil.mp hf]; exact Nat.le_refl _, rfl⟩

/-- Behind an opening parenthesis one more has to be closed. -/
theorem opening_iff : Closes depth ('(' :: text) ↔ Closes (depth + 1) text := by
  have shift (front : List Char) : ('(' :: front).count ')' = front.count ')' ∧
      depth + ('(' :: front).count '(' = depth + 1 + front.count '(' :=
    ⟨List.count_cons_of_ne (by decide), by rw [List.count_cons_self]; omega⟩
  simp only [cons_iff, (shift _).1, (shift _).2]
  exact ⟨fun ⟨opened, closed⟩ ↦ ⟨opened, closed⟩, fun h ↦ ⟨h.opened, h.closed⟩⟩

/-- A closing parenthesis closes one that is open. -/
theorem closing_iff : Closes (depth + 1) (')' :: text) ↔ Closes depth text := by
  have shift (front : List Char) : (')' :: front).count ')' = front.count ')' + 1 ∧
      depth + 1 + (')' :: front).count '(' = depth + front.count '(' + 1 :=
    ⟨List.count_cons_self, by rw [List.count_cons_of_ne (by decide)]; omega⟩
  simp only [cons_iff, (shift _).1, (shift _).2, Nat.add_le_add_iff_right, Nat.add_right_cancel_iff]
  exact ⟨fun ⟨opened, closed⟩ ↦ ⟨opened, closed⟩, fun h ↦ ⟨h.opened, h.closed⟩⟩

/-- A closing parenthesis needs one that is open. -/
theorem not_closing : ¬Closes 0 (')' :: text) := by
  intro h
  have first := h.opened [')'] (List.prefix_append [')'] text)
  exact absurd first (by decide)

/-- Other characters leave the parentheses as they are. -/
theorem other_iff (left : c ≠ '(') (right : c ≠ ')') :
    Closes depth (c :: text) ↔ Closes depth text := by
  have same (front : List Char) : (c :: front).count ')' = front.count ')' ∧
      (c :: front).count '(' = front.count '(' :=
    ⟨List.count_cons_of_ne right, List.count_cons_of_ne left⟩
  simp only [cons_iff, (same _).1, (same _).2]
  exact ⟨fun ⟨opened, closed⟩ ↦ ⟨opened, closed⟩, fun h ↦ ⟨h.opened, h.closed⟩⟩

/-- Whether a text closes its parentheses can be decided. -/
instance (depth : Nat) (text : List Char) : Decidable (Closes depth text) :=
  decidable_of_iff
    ((∀ front ∈ text.inits, front.count ')' ≤ depth + front.count '(') ∧
      text.count ')' = depth + text.count '(')
    ⟨fun ⟨opened, closed⟩ ↦ ⟨fun front h ↦ opened front ((List.mem_inits ..).mpr h), closed⟩,
      fun h ↦ ⟨fun front hf ↦ h.opened front ((List.mem_inits ..).mp hf), h.closed⟩⟩

end Closes

/-- A text that can stand between parentheses which belong together: it leaves no quoted region
open, and outside quotes it closes all its parentheses. -/
structure Enclosed (quotes text : List Char) : Prop where
  unquoted : Quoting.after quotes none text = none
  closes : Closes 0 (Quoting.outside quotes none text)

instance (quotes text : List Char) : Decidable (Enclosed quotes text) :=
  decidable_of_iff
    (Quoting.after quotes none text = none ∧ Closes 0 (Quoting.outside quotes none text))
    ⟨fun ⟨unquoted, closes⟩ ↦ ⟨unquoted, closes⟩, fun h ↦ ⟨h.unquoted, h.closes⟩⟩

/-! ### Reading in one pass -/

namespace Doc

variable {quotes : List Char}

/-- Behind `depth + 1` opening parentheses, a reader takes the parenthesis at the end of a text for
the one that closes the first of them exactly if the text leaves no quote open and closes the other
ones and its own. -/
theorem enclosed_concat_iff (closing : ')' ∉ quotes) (text : List Char) (depth : Nat)
    {quote : Option Char} (known : ∀ q ∈ quote, q ∈ quotes) :
    enclosed quotes ((text ++ [')']).map .char) (depth + 1) quote = true ↔
      Quoting.after quotes quote text = none ∧
        Closes depth (Quoting.outside quotes quote text) := by
  induction text generalizing depth quote with
  | nil =>
    change enclosed quotes [.char ')'] (depth + 1) quote = true ↔ quote = none ∧ Closes depth []
    rw [Closes.nil_iff]
    cases quote with
    | some q =>
      have other : ')' ≠ q := fun h ↦ closing (h ▸ known q rfl)
      rw [enclosed, if_neg other]
      simp [enclosed]
    | none =>
      rw [enclosed, if_neg (by simpa using closing), if_neg (by decide), if_pos rfl,
        if_neg (by simp)]
      simp [enclosed]
  | cons c text ih =>
    have more : (text ++ [')']).map Glyph.char ≠ [] := by simp
    rw [List.cons_append, List.map_cons, Quoting.after, List.foldl_cons]
    cases quote with
    | some q =>
      have still : ∀ p ∈ Quoting.next quotes (some q) c, p ∈ quotes := by
        intro p hp
        rw [Quoting.next, Option.mem_def, Option.ite_none_left_eq_some] at hp
        exact known p hp.2
      exact ih depth still
    | none =>
      rw [enclosed, Quoting.next, Quoting.outside]
      by_cases quoted : c ∈ quotes
      · rw [if_pos (by simpa using quoted), if_pos quoted, if_pos quoted]
        exact ih depth (by simpa using quoted)
      · rw [if_neg (by simpa using quoted), if_neg quoted, if_neg quoted]
        have step (depth : Nat) :
            enclosed quotes ((text ++ [')']).map .char) (depth + 1) none = true ↔
              Quoting.after quotes none text = none ∧
                Closes depth (Quoting.outside quotes none text) := ih depth (by simp)
        by_cases left : c = '('
        · rw [if_pos left, left, Closes.opening_iff]
          exact step (depth + 1)
        · rw [if_neg left]
          by_cases right : c = ')'
          · rw [if_pos right, right]
            cases depth with
            | zero =>
              -- The outer parenthesis is closed here, and not by the last one.
              rw [if_pos ⟨rfl, more⟩]
              exact iff_of_false Bool.false_ne_true fun h ↦ Closes.not_closing h.2
            | succ depth =>
              rw [if_neg (by simp), Closes.closing_iff]
              exact step depth
          · rw [if_neg right, Closes.other_iff left right]
            exact step depth

/-- Different texts are different documents. -/
private theorem text_injective : Function.Injective Doc.text := by
  intro s t h
  exact String.toList_inj.mp (List.map_injective_iff.mpr (fun _ _ ↦ Glyph.char.inj) h)

/-- The outer parentheses of a text belong together exactly if what stands between them can stand
there. -/
theorem hasOuterParens_iff (opening : '(' ∉ quotes) (closing : ')' ∉ quotes) (text : String) :
    hasOuterParens quotes (Doc.text text) = true ↔
      ∃ inner : String, text = "(" ++ inner ++ ")" ∧ Enclosed quotes inner.toList := by
  have written (inner : String) :
      Doc.text ("(" ++ inner ++ ")") = ('(' :: (inner.toList ++ [')'])).map .char := by
    rw [Doc.text, String.toList_append, String.toList_append]
    rfl
  have ends (inner : String) : (Doc.text ("(" ++ inner ++ ")")).head? = some (.char '(') ∧
      (Doc.text ("(" ++ inner ++ ")")).getLast? = some (.char ')') := by
    rw [written, List.map_cons, List.map_append, ← List.cons_append]
    exact ⟨rfl, List.getLast?_concat⟩
  have inside (inner : String) :
      enclosed quotes (Doc.text ("(" ++ inner ++ ")")) 0 none = true ↔
        Enclosed quotes inner.toList := by
    rw [written, List.map_cons, enclosed, if_neg (by simpa using opening), if_pos rfl,
      enclosed_concat_iff closing inner.toList 0 (by simp)]
    exact ⟨fun h ↦ ⟨h.1, h.2⟩, fun h ↦ ⟨h.unquoted, h.closes⟩⟩
  have whole (inner : String) : hasOuterParens quotes (Doc.text ("(" ++ inner ++ ")")) = true ↔
      Enclosed quotes inner.toList := by
    rw [hasOuterParens, (ends inner).1, (ends inner).2, ← inside]
    simp
  constructor
  · intro h
    have left : stripOuterParens quotes (Doc.text text) =
        Doc.text (String.ofList text.toList.tail.dropLast) := by
      rw [stripOuterParens, if_pos h, Doc.text, Doc.text, String.toList_ofList, List.map_dropLast,
        List.map_tail]
    have same := eq_of_hasOuterParens h
    rw [left, ← text_append, ← text_append] at same
    have parts := text_injective same
    rw [parts] at h
    exact ⟨_, parts, (whole _).mp h⟩
  · rintro ⟨inner, rfl, h⟩
    exact (whole inner).mpr h

/-- What is left of a text in outer parentheses stands between them. -/
theorem stripOuterParens_of_outer {inner : String}
    (h : hasOuterParens quotes (Doc.text ("(" ++ inner ++ ")")) = true) :
    stripOuterParens quotes (Doc.text ("(" ++ inner ++ ")")) = Doc.text inner := by
  have parts : Doc.text ("(" ++ inner ++ ")") = text "(" ++ text inner ++ text ")" := by
    rw [text_append, text_append]
  have same := parts.symm.trans (eq_of_hasOuterParens h)
  exact (List.append_cancel_left (List.append_cancel_right same)).symm

end Doc

open Sql (quoteChars)

/-- A text of SQL loses its first and its last character exactly if these are parentheses and what
stands between them, with quoted regions left out, closes all its parentheses and leaves no quote
open; any other text stays as it is. A document is stripped as the text that it is written as. -/
theorem Doc.stripOuterParens_text (s : String) :
    (∀ inner : String, s = "(" ++ inner ++ ")" → Enclosed quoteChars inner.toList →
      stripOuterParens quoteChars (Doc.text s) = Doc.text inner) ∧
    ((∀ inner : String, s = "(" ++ inner ++ ")" → ¬Enclosed quoteChars inner.toList) →
      stripOuterParens quoteChars (Doc.text s) = Doc.text s) ∧
    ∀ (layout : Layout) (doc : Doc), doc.Firm → layout.render doc = s →
      layout.render (stripOuterParens quoteChars doc) =
        layout.render (stripOuterParens quoteChars (Doc.text s)) := by
  have opening : '(' ∉ quoteChars := by decide
  have closing : ')' ∉ quoteChars := by decide
  have outer := hasOuterParens_iff opening closing s
  refine ⟨?_, ?_, ?_⟩
  · rintro inner rfl enclosed
    exact stripOuterParens_of_outer (outer.mpr ⟨inner, rfl, enclosed⟩)
  · intro apart
    refine if_neg fun h ↦ ?_
    obtain ⟨inner, same, enclosed⟩ := outer.mp h
    exact apart inner same enclosed
  · rintro layout doc firm rfl
    have stripped (doc : Doc) (firm : doc.Firm) :
        layout.render (doc.stripOuterParens quoteChars) =
          strippedText quoteChars (layout.render doc) :=
      Layout.render_stripOuterParens firm (by decide) (by decide)
    rw [stripped doc firm, stripped _ (.text _), Layout.render_text]

/-- Parentheses between quotes belong to nothing, and the first parenthesis of a conjunction is
closed before the last one. -/
theorem Doc.stripOuterParens_text_of_conditions :
    stripOuterParens quoteChars (Doc.text "(a = ')(')") = Doc.text "a = ')('" ∧
      stripOuterParens quoteChars (Doc.text "(a) AND (b)") = Doc.text "(a) AND (b)" := by
  refine ⟨(stripOuterParens_text _).1 "a = ')('" rfl (by decide),
    (stripOuterParens_text _).2.1 fun inner same ↦ ?_⟩
  have parts : "a) AND (b" = inner :=
    (String.append_right_inj "(").mp ((String.append_left_inj ")").mp same)
  rw [← parts]
  decide

end FrameQuery
