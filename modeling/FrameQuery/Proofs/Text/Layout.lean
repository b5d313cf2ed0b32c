import FrameQuery.Proofs.Text.Documents
import FrameQuery.Text.Blank

/-!
# What layouts leave alone

Breaks are written as blanks and nothing else, so that all layouts of a document agree once blanks
are left out. Outer parentheses can be looked for in a document or in the text it is written as:
both find the same pair, unless a seam stands at an end of the document, where compact text has
nothing and pretty text has a new line.
-/

namespace FrameQuery

/-- A text without its blanks. -/
def unblanked (text : String) : List Char := text.toList.filter (!Blank.isBlank ·)

/-- A text without the pair of parentheses that encloses it. -/
def strippedText (quotes : List Char) (text : String) : String :=
  if Doc.hasOuterParens quotes (Doc.text text) then String.ofList text.toList.tail.dropLast
  else text

/-- What a glyph says, whatever the layout: breaks say nothing. -/
def Glyph.said : Glyph → List Char
  | .char c => [c]
  | .gap _ | .seam _ => []

namespace Layout

/-- Without blanks, a document is written as what its glyphs say. -/
theorem filter_chars (layout : Layout) (doc : Doc) :
    (layout.chars doc).filter (!Blank.isBlank ·) =
      (doc.flatMap Glyph.said).filter (!Blank.isBlank ·) := by
  rw [chars, List.filter_flatMap, List.filter_flatMap]
  congr 1
  funext glyph
  have nothing (break_ : ∀ d, glyph ≠ .char d) :
      (layout.write glyph).filter (!Blank.isBlank ·) = [] := by
    refine List.filter_eq_nil_iff.mpr fun c hc ↦ ?_
    rcases mem_write hc break_ with rfl | rfl <;> decide
  cases glyph with
  | char c => rfl
  | gap depth => exact nothing (by simp)
  | seam depth => exact nothing (by simp)

/-- All layouts of a document agree once blanks are left out. -/
theorem unblanked_render (first second : Layout) (doc : Doc) :
    unblanked (first.render doc) = unblanked (second.render doc) := by
  simp only [unblanked, render, String.toList_ofList, filter_chars]

end Layout

/-! ### Outer parentheses of texts -/

namespace Doc

/-- A document that neither starts nor ends with a seam. -/
structure Firm (doc : Doc) : Prop where
  head : ∀ depth, doc.head? ≠ some (.seam depth)
  last : ∀ depth, doc.getLast? ≠ some (.seam depth)

namespace Firm

variable {doc first second : Doc}

/-- Nothing has no ends. -/
theorem nil : Firm [] := ⟨nofun, nofun⟩

/-- Firm documents one after the other. -/
theorem append (hf : first.Firm) (hs : second.Firm) : (first ++ second).Firm where
  head depth := by
    rw [List.head?_append]
    cases first with
    | nil => exact hs.head depth
    | cons glyph rest => exact hf.head depth
  last depth := by
    rw [List.getLast?_append]
    cases h : second.getLast? with
    | none => exact hf.last depth
    | some glyph =>
      have last := hs.last depth
      rwa [h] at last

/-- Only the ends count. -/
theorem of_ends (first last : Char) (hf : doc.head? = some (.char first))
    (hl : doc.getLast? = some (.char last)) : Firm doc where
  head depth := by simp [hf]
  last depth := by simp [hl]

/-- A text is firm. -/
theorem text (s : String) : (Doc.text s).Firm where
  head depth h := by
    obtain ⟨c, -, hc⟩ := List.mem_map.mp (List.mem_of_mem_head? h)
    cases hc
  last depth h := by
    obtain ⟨c, -, hc⟩ := List.mem_map.mp (List.mem_of_getLast? h)
    cases hc

/-- Firm documents with a firm separator between them. -/
theorem sepBy {separator : Doc} {docs : List Doc} (hs : separator.Firm)
    (h : ∀ doc ∈ docs, doc.Firm) : (Doc.sepBy separator docs).Firm :=
  sepBy_of_forall nil append hs h

end Firm

/-- The document once its breaks are written. -/
def laid (layout : Layout) (doc : Doc) : Doc := Doc.text (layout.render doc)

section Laid

variable {layout : Layout} {quotes : List Char} {doc : Doc} {glyph : Glyph}

/-- A written document is written glyph by glyph. -/
theorem laid_cons (layout : Layout) (glyph : Glyph) (doc : Doc) :
    laid layout (glyph :: doc) = (layout.write glyph).map .char ++ laid layout doc := by
  simp only [laid, Doc.text, Layout.render, String.toList_ofList, Layout.chars, List.flatMap_cons,
    List.map_append]

/-- Something is written for a document that does not end with a seam. -/
theorem laid_eq_nil_iff (last : ∀ depth, doc.getLast? ≠ some (.seam depth)) :
    laid layout doc = [] ↔ doc = [] := by
  refine ⟨fun h ↦ ?_, by rintro rfl; rfl⟩
  rcases List.eq_nil_or_concat doc with rfl | ⟨before, glyph, rfl⟩
  · rfl
  · rw [List.concat_eq_append, laid, Doc.text, List.map_eq_nil_iff, Layout.render,
      String.toList_ofList, Layout.chars, List.flatMap_append, List.append_eq_nil_iff] at h
    have written : layout.write glyph = [] := by simpa using h.2
    cases glyph with
    | char c => cases written
    | gap depth =>
      rw [Layout.write] at written
      split at written <;> cases written
    | seam depth => exact absurd (by simp) (last depth)

/-- Blanks are no parentheses, and no quotes either. -/
theorem enclosed_blanks {blanks : List Char} (hb : ∀ c ∈ blanks, c = '\n' ∨ c = ' ')
    (line : '\n' ∉ quotes) (space : ' ' ∉ quotes) (depth : Nat) {quote : Option Char}
    (hq : ∀ q ∈ quote, q ∈ quotes) (rest : Doc) :
    enclosed quotes (blanks.map .char ++ rest) depth quote = enclosed quotes rest depth quote := by
  induction blanks with
  | nil => rfl
  | cons c blanks ih =>
    obtain ⟨hc, others⟩ := List.forall_mem_cons.mp hb
    have unquoted : c ∉ quotes := by rcases hc with rfl | rfl <;> assumption
    have plain : c ≠ '(' ∧ c ≠ ')' := by rcases hc with rfl | rfl <;> decide
    rw [List.map_cons, List.cons_append, ← ih others]
    cases quote with
    | none => simp [enclosed, unquoted, plain]
    | some q =>
      have other : c ≠ q := fun same ↦ unquoted (same ▸ hq q rfl)
      rw [enclosed, if_neg other]

/-- The first parenthesis is closed by the last glyph of a document exactly if it is in the text
that the document is written as. -/
theorem enclosed_laid (line : '\n' ∉ quotes) (space : ' ' ∉ quotes) (depth : Nat)
    {quote : Option Char} (hq : ∀ q ∈ quote, q ∈ quotes)
    (last : ∀ depth, doc.getLast? ≠ some (.seam depth)) :
    enclosed quotes (laid layout doc) depth quote = enclosed quotes doc depth quote := by
  induction doc generalizing depth quote with
  | nil => rfl
  | cons glyph rest ih =>
    have others : ∀ depth, rest.getLast? ≠ some (.seam depth) := by
      intro depth h
      refine last depth ?_
      rw [List.getLast?_cons, h]
      rfl
    have blank (break_ : ∀ c, glyph ≠ .char c) :
        enclosed quotes (laid layout (glyph :: rest)) depth quote =
          enclosed quotes rest depth quote := by
      rw [laid_cons, enclosed_blanks (fun _ hc ↦ Layout.mem_write hc break_) line space depth hq]
      exact ih depth hq others
    cases glyph with
    | gap level => exact blank nofun
    | seam level => exact blank nofun
    | char c =>
      have first : laid layout (.char c :: rest) = .char c :: laid layout rest := laid_cons _ _ _
      rw [first]
      cases quote with
      | some q =>
        rw [enclosed, enclosed]
        refine ih _ (fun p hp ↦ ?_) others
        split at hp
        · cases hp
        · exact hq p hp
      | none =>
        have ended : laid layout rest ≠ [] ↔ rest ≠ [] := (laid_eq_nil_iff others).not
        have plain (depth : Nat) : enclosed quotes (laid layout rest) depth none =
            enclosed quotes rest depth none := ih depth nofun others
        rw [enclosed, enclosed, plain, plain, plain]
        by_cases hc : c ∈ quotes
        · have quoted : enclosed quotes (laid layout rest) depth (some c) =
              enclosed quotes rest depth (some c) := ih depth (by simpa using hc) others
          simp only [List.contains_eq_mem, hc, decide_true, if_true, quoted]
        · simp only [List.contains_eq_mem, hc, decide_false, Bool.false_eq_true, if_false, ended]

/-- A parenthesis is at an end of a document exactly if it is at that end of the text. -/
theorem hasOuterParens_laid (firm : doc.Firm) (line : '\n' ∉ quotes) (space : ' ' ∉ quotes) :
    hasOuterParens quotes (laid layout doc) = hasOuterParens quotes doc := by
  have head : (laid layout doc).head? = some (.char '(') ↔ doc.head? = some (.char '(') := by
    cases doc with
    | nil => rfl
    | cons glyph rest =>
      rw [laid_cons]
      cases glyph with
      | char c => rfl
      | gap depth =>
        rw [Layout.write]
        cases layout.pretty <;> simp [Layout.newline]
      | seam depth => exact absurd rfl (firm.head depth)
  have last : (laid layout doc).getLast? = some (.char ')') ↔ doc.getLast? = some (.char ')') := by
    rcases List.eq_nil_or_concat doc with rfl | ⟨before, glyph, rfl⟩
    · rfl
    · have written : laid layout (before ++ [glyph]) =
          laid layout before ++ (layout.write glyph).map .char := by
        simp only [laid, Doc.text, Layout.render, String.toList_ofList, Layout.chars,
          List.flatMap_append, List.flatMap_singleton, List.map_append]
      rw [List.concat_eq_append, written]
      cases glyph with
      | char c => simp [Layout.write]
      | gap depth =>
        obtain ⟨start, c, he, hc⟩ := Layout.exists_write_gap layout depth
        rw [he, List.map_append, ← List.append_assoc, List.map_singleton, List.getLast?_concat,
          List.getLast?_concat]
        rcases hc with rfl | rfl <;> simp
      | seam depth => exact absurd (by simp) (firm.last depth)
  have inside : enclosed quotes (laid layout doc) 0 none = enclosed quotes doc 0 none :=
    enclosed_laid line space 0 (by simp) firm.last
  rw [hasOuterParens, hasOuterParens, inside, Bool.eq_iff_iff]
  simp only [Bool.and_eq_true, beq_iff_eq, head, last]

end Laid

end Doc

/-- A document loses its outer parentheses exactly as the text does that it is written as. -/
theorem Layout.render_stripOuterParens {layout : Layout} {quotes : List Char} {doc : Doc}
    (firm : doc.Firm) (line : '\n' ∉ quotes) (space : ' ' ∉ quotes) :
    layout.render (doc.stripOuterParens quotes) = strippedText quotes (layout.render doc) := by
  have same : Doc.hasOuterParens quotes (Doc.text (layout.render doc)) =
      Doc.hasOuterParens quotes doc := Doc.hasOuterParens_laid firm line space
  rw [strippedText, same]
  by_cases outer : Doc.hasOuterParens quotes doc = true
  · rw [if_pos outer]
    conv_rhs => rw [Doc.eq_of_hasOuterParens outer]
    have written :
        (layout.render (Doc.text "(" ++ doc.stripOuterParens quotes ++ Doc.text ")")).toList =
          '(' :: (layout.chars (doc.stripOuterParens quotes) ++ [')']) := by
      rw [render, String.toList_ofList, chars_append, chars_append, chars_text, chars_text]
      rfl
    rw [written, List.tail_cons, List.dropLast_concat]
    rfl
  · rw [if_neg outer, Doc.stripOuterParens, if_neg outer]

end FrameQuery
