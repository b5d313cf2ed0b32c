import FrameQuery.Text.Parens
import Mathlib.Data.List.Forall2

/-!
# What documents are written as

Documents are written part by part, texts as they stand, and breaks as blanks. What holds of parts
and of documents one after the other holds of the parts with a separator between them.
-/

namespace FrameQuery

/-- Texts without a character one after the other. -/
theorem not_mem_append {c : Char} {first second : String} (hf : c ∉ first.toList)
    (hs : c ∉ second.toList) : c ∉ (first ++ second).toList := by
  rw [String.toList_append, List.mem_append]
  exact not_or.mpr ⟨hf, hs⟩

namespace Layout

variable {layout : Layout}

/-- Documents are written one after the other. -/
theorem chars_append (first second : Doc) :
    layout.chars (first ++ second) = layout.chars first ++ layout.chars second :=
  List.flatMap_append

/-- A text is written as it stands. -/
theorem chars_text (text : String) : layout.chars (Doc.text text) = text.toList := by
  rw [Doc.text, chars, List.flatMap_map]
  exact List.flatMap_singleton' _

/-- Documents are rendered one after the other. -/
theorem render_append (layout : Layout) (first second : Doc) :
    layout.render (first ++ second) = layout.render first ++ layout.render second := by
  rw [render, chars_append, String.ofList_append]
  rfl

/-- A text is rendered as it stands. -/
theorem render_text (layout : Layout) (text : String) : layout.render (Doc.text text) = text := by
  rw [render, chars_text, String.ofList_toList]

/-- A new line is made of blanks. -/
theorem mem_newline {layout : Layout} {depth : Nat} {c : Char} (h : c ∈ layout.newline depth) :
    c = '\n' ∨ c = ' ' := by
  rcases List.mem_cons.mp h with rfl | h
  · exact .inl rfl
  · exact .inr (List.eq_of_mem_replicate h)

/-- A break is made of blanks. -/
theorem mem_write {layout : Layout} {glyph : Glyph} {c : Char} (h : c ∈ layout.write glyph)
    (break_ : ∀ d, glyph ≠ .char d) : c = '\n' ∨ c = ' ' := by
  cases glyph with
  | char d => exact absurd rfl (break_ d)
  | gap depth =>
    rw [write] at h
    split at h
    · exact mem_newline h
    · exact .inr (List.mem_singleton.mp h)
  | seam depth =>
    rw [write] at h
    split at h
    · exact mem_newline h
    · cases h

/-- A break between tokens ends with a blank. -/
theorem exists_write_gap (layout : Layout) (depth : Nat) :
    ∃ start c, layout.write (.gap depth) = start ++ [c] ∧ (c = '\n' ∨ c = ' ') := by
  rcases List.eq_nil_or_concat (layout.write (.gap depth)) with none | ⟨start, c, he⟩
  · rw [write] at none
    split at none <;> cases none
  · rw [List.concat_eq_append] at he
    have hc : c ∈ layout.write (.gap depth) := by simp [he]
    exact ⟨start, c, he, mem_write hc nofun⟩

end Layout

namespace Doc

/-- The document of two texts. -/
theorem text_append (s t : String) : text (s ++ t) = text s ++ text t := by
  rw [text, text, text, String.toList_append, List.map_append]

/-- A document on its own has no comma behind it. -/
theorem commaSep_singleton (doc : Doc) : commaSep [doc] = doc := by
  rw [commaSep, sepBy, List.intercalate_singleton]

/-- A document has a comma behind it where another one follows. -/
theorem commaSep_cons_cons (doc next : Doc) (rest : List Doc) :
    commaSep (doc :: next :: rest) = doc ++ text ", " ++ commaSep (next :: rest) := by
  rw [commaSep, sepBy, List.intercalate_cons_cons, commaSep, sepBy]

/-- A document in outer parentheses is what is left without them, in parentheses. -/
theorem eq_of_hasOuterParens {quotes : List Char} {doc : Doc}
    (h : hasOuterParens quotes doc = true) :
    doc = text "(" ++ stripOuterParens quotes doc ++ text ")" := by
  rw [stripOuterParens, if_pos h]
  simp only [hasOuterParens, Bool.and_eq_true, beq_iff_eq] at h
  obtain ⟨⟨first, last⟩, -⟩ := h
  obtain ⟨rest, rfl⟩ := List.head?_eq_some_iff.mp first
  rcases List.eq_nil_or_concat rest with rfl | ⟨inner, glyph, rfl⟩
  · cases last
  · rw [List.concat_eq_append, ← List.cons_append, List.getLast?_concat] at last
    rw [List.tail_cons, List.concat_eq_append, List.dropLast_concat, Option.some.inj last]
    rfl

/-- A property with a flag that documents one after the other have, with a flag that is set if it is
for one of them, is one of documents with a separator between them. -/
theorem sepBy_flagged {α : Type} (flag : α → Bool) {P : Doc → Bool → Prop} (nil : P [] false)
    (append : ∀ {first second p q}, P first p → P second q → P (first ++ second) (p || q))
    {separator : Doc} {parts : List α} {docs : List Doc} (hs : P separator false)
    (h : List.Forall₂ (fun a doc ↦ P doc (flag a)) parts docs) :
    P (sepBy separator docs) (parts.any flag) := by
  induction h with
  | nil => exact nil
  | @cons a doc parts docs ha rest ih =>
    cases rest with
    | nil =>
      rw [sepBy, List.intercalate_singleton, List.any_cons, List.any_nil, Bool.or_false]
      exact ha
    | cons hb rest =>
      rw [sepBy, List.intercalate_cons_cons, List.any_cons]
      have first := append ha hs
      rw [Bool.or_false] at first
      exact append first ih

/-- A property of documents one after the other is one of documents with a separator between
them. -/
theorem sepBy_of_forall {P : Doc → Prop} (nil : P [])
    (append : ∀ {first second}, P first → P second → P (first ++ second)) {separator : Doc}
    {docs : List Doc} (hs : P separator) (h : ∀ doc ∈ docs, P doc) :
    P (sepBy separator docs) :=
  sepBy_flagged (fun _ ↦ false) (P := fun doc _ ↦ P doc) nil append hs (List.forall₂_same.mpr h)

end Doc

end FrameQuery
