import FrameQuery.Proofs.Number.Numerals
import FrameQuery.Proofs.Text.Documents
import FrameQuery.Text.Identifier
import FrameQuery.Text.Quoted

/-!
# Indentation

A layout that moves a text further to the right puts more blanks behind every line break and changes
nothing else, as long as the lines of a document end at its breaks only, where the layout knows of
them. So it is enough to look at the texts in a document: none of them may hold a line break.
-/

namespace FrameQuery

/-- A character with blanks behind it if it is a line break. -/
def indentedChar (blanks : Nat) (c : Char) : List Char :=
  if c = '\n' then '\n' :: List.replicate blanks ' ' else [c]

/-- A text with blanks put behind every line break. -/
def indented (blanks : Nat) (text : String) : String :=
  String.ofList (text.toList.flatMap (indentedChar blanks))

/-- A text without line breaks. -/
def OneLine (text : String) : Prop := '\n' ∉ text.toList

instance (text : String) : Decidable (OneLine text) :=
  inferInstanceAs (Decidable ('\n' ∉ text.toList))

namespace OneLine

/-- Texts without line breaks one after the other. -/
theorem append {first second : String} (hf : OneLine first) (hs : OneLine second) :
    OneLine (first ++ second) := not_mem_append hf hs

/-- Texts without line breaks with a separator between them. -/
theorem intercalate {separator : String} {texts : List String} (hs : OneLine separator)
    (h : ∀ text ∈ texts, OneLine text) : OneLine (separator.intercalate texts) := by
  induction texts with
  | nil => exact (by decide : OneLine "")
  | cons text texts ih =>
    obtain ⟨ht, rest⟩ := List.forall_mem_cons.mp h
    cases texts with
    | nil => rwa [String.intercalate_singleton]
    | cons next texts =>
      rw [String.intercalate_cons_cons]
      exact (ht.append hs).append (ih rest)

/-- A text between quotes, with other characters for the quotes inside it. -/
private theorem quoted {quote : Char} (hq : quote ≠ '\n') {escaped : List Char}
    (he : '\n' ∉ escaped) {text : String} (h : OneLine text) :
    OneLine (String.ofList (quote ::
      (text.toList.flatMap (fun c ↦ if c = quote then escaped else [c]) ++ [quote]))) := by
  rw [OneLine, String.toList_ofList]
  simp only [List.mem_cons, List.mem_append, List.mem_flatMap, List.not_mem_nil, or_false, not_or]
  refine ⟨hq.symm, ?_, hq.symm⟩
  rintro ⟨c, member, same⟩
  split at same
  · exact he same
  · exact h (List.mem_singleton.mp same ▸ member)

/-- Quotes around a text and inside it add line breaks only if they are line breaks. -/
theorem doubled {quote : Char} (hq : quote ≠ '\n') {text : String} (h : OneLine text) :
    OneLine (Quoted.doubled quote text) := quoted hq (by simpa using hq.symm) h

/-- Backslashes before quotes are no line breaks. -/
theorem backslashed {quote : Char} (hq : quote ≠ '\n') {text : String} (h : OneLine text) :
    OneLine (Quoted.backslashed quote text) := quoted hq (by simpa using hq.symm) h

end OneLine

/-- Numbers and dates hold no line breaks. -/
theorem Numeric.oneLine {text : String} (h : Numeric text) : OneLine text :=
  fun member ↦ absurd (h _ member) (by decide)

namespace Doc

/-- A document whose lines end at its breaks only. -/
def Lined (doc : Doc) : Prop := .char '\n' ∉ doc

namespace Lined

variable {doc first second : Doc}

/-- Nothing has no lines. -/
theorem nil : Lined [] := List.not_mem_nil

/-- A text without line breaks. -/
theorem text {s : String} (h : OneLine s) : Lined (Doc.text s) := by
  intro member
  obtain ⟨c, hc, same⟩ := List.mem_map.mp member
  cases same
  exact h hc

/-- A break. -/
theorem gap (depth : Nat) : Lined (Doc.gap depth) := by simp [Lined, Doc.gap]

/-- A break next to a bracket. -/
theorem seam (depth : Nat) : Lined (Doc.seam depth) := by simp [Lined, Doc.seam]

/-- Documents one after the other. -/
theorem append (hf : first.Lined) (hs : second.Lined) : (first ++ second).Lined := by
  rw [Lined, List.mem_append]
  exact not_or.mpr ⟨hf, hs⟩

/-- A text before a document. -/
theorem before (word : String) (hw : OneLine word) (h : doc.Lined) :
    (Doc.text word ++ doc).Lined := .append (.text hw) h

/-- A text behind a document. -/
theorem behind (h : doc.Lined) (word : String) (hw : OneLine word) :
    (doc ++ Doc.text word).Lined := .append h (.text hw)

/-- Documents with a separator between them. -/
theorem sepBy {separator : Doc} {docs : List Doc} (hs : separator.Lined)
    (h : ∀ doc ∈ docs, doc.Lined) : (Doc.sepBy separator docs).Lined :=
  sepBy_of_forall nil append hs h

/-- Documents with commas between them. -/
theorem commaSep {docs : List Doc} (h : ∀ doc ∈ docs, doc.Lined) : (Doc.commaSep docs).Lined :=
  sepBy (.text (by decide)) h

/-- Dropping outer parentheses adds no line breaks. -/
theorem stripOuterParens (quotes : List Char) (h : doc.Lined) :
    (doc.stripOuterParens quotes).Lined := by
  rw [Doc.stripOuterParens]
  split
  · exact fun member ↦ h (List.mem_of_mem_tail (List.dropLast_subset _ member))
  · exact h

end Lined

end Doc

namespace Layout

/-- A new line is moved by the blanks behind it. -/
private theorem flatMap_newline (step base more depth : Nat) :
    ((⟨true, step, base⟩ : Layout).newline depth).flatMap (indentedChar (step * more)) =
      (⟨true, step, base + more⟩ : Layout).newline depth := by
  have blanks (n : Nat) : (List.replicate n ' ').flatMap (indentedChar (step * more)) =
      List.replicate n ' ' := by
    induction n with
    | zero => rfl
    | succ n ih =>
      rw [List.replicate_succ, List.flatMap_cons, ih]
      rfl
  have width : step * more + step * (base + depth) = step * (base + more + depth) := by
    rw [← Nat.mul_add]
    exact congrArg _ (by omega)
  rw [newline, newline, List.flatMap_cons, blanks, indentedChar, if_pos rfl, List.cons_append,
    List.replicate_append_replicate, width]

/-- Glyph by glyph, the only line breaks are those of the layout. -/
private theorem flatMap_write {glyph : Glyph} (other : glyph ≠ .char '\n') (step base more : Nat) :
    ((⟨true, step, base⟩ : Layout).write glyph).flatMap (indentedChar (step * more)) =
      (⟨true, step, base + more⟩ : Layout).write glyph := by
  cases glyph with
  | char c =>
    have plain : c ≠ '\n' := fun same ↦ other (congrArg _ same)
    rw [write, write, List.flatMap_singleton, indentedChar, if_neg plain]
  | gap depth => exact flatMap_newline step base more depth
  | seam depth => exact flatMap_newline step base more depth

/-- Moving a text further to the right puts blanks behind its line breaks. -/
theorem render_add {doc : Doc} (lined : doc.Lined) (step base more : Nat) :
    (⟨true, step, base + more⟩ : Layout).render doc =
      indented (step * more) ((⟨true, step, base⟩ : Layout).render doc) := by
  rw [indented, render, render, String.toList_ofList, chars, chars, List.flatMap_assoc]
  refine congrArg String.ofList (List.flatMap_congr fun glyph member ↦ ?_).symm
  exact flatMap_write (fun same ↦ lined (same ▸ member)) step base more

end Layout

end FrameQuery
