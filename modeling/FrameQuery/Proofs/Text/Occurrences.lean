import FrameQuery.Proofs.Text.Documents
import FrameQuery.Proofs.Text.Unquoting
import Mathlib.Data.List.Infix

/-!
# Occurrences of a pattern

A pattern stands in a text as often as it stands in the parts of the text, where no occurrence
reaches from one part into the next. It is enough to look at the characters next to the cut: none
reaches over it if it stands behind a character that is only the last one of the pattern, if any, or
before one that is only the first one.
-/

namespace FrameQuery

/-- How often a pattern stands in a text: at how many places of the text it starts. -/
def occurrences (pattern text : List Char) : Nat := text.tails.countP pattern.isPrefixOf

/-- No occurrence of a pattern reaches from one text into another. -/
def Apart (pattern first second : List Char) : Prop :=
  ∀ start rest, start ≠ [] → rest ≠ [] → pattern = start ++ rest → start <:+ first →
    ¬rest <+: second

/-- Whether a text starts with a character that goes on no occurrence. -/
def startsApart (pattern text : List Char) : Bool :=
  text.head?.any (!pattern.tail.contains ·)

/-- Whether a text ends with a character that no occurrence goes on behind. -/
def endsApart (pattern text : List Char) : Bool :=
  text.getLast?.any (!pattern.dropLast.contains ·)

section

variable {pattern first second text word : List Char}

namespace Apart

/-- A cut before a character that goes on no occurrence. -/
theorem of_head (h : startsApart pattern second = true) : Apart pattern first second := by
  intro start rest hs hr split _ before
  obtain ⟨c, head, hc⟩ := (Option.any_eq_true _ _).mp h
  obtain ⟨text, rfl⟩ := List.head?_eq_some_iff.mp head
  obtain none | ⟨others, rfl, -⟩ := List.prefix_cons_iff.mp before
  · exact hr none
  · obtain ⟨d, start, rfl⟩ := List.exists_cons_of_ne_nil hs
    subst split
    simp at hc

/-- A cut behind a character that no occurrence goes on behind. -/
theorem of_last (h : endsApart pattern word = true) (ending : word <:+ first) :
    Apart pattern first second := by
  intro start rest hs hr split behind _
  obtain ⟨c, last, hc⟩ := (Option.any_eq_true _ _).mp h
  obtain ⟨text, rfl⟩ := List.getLast?_eq_some_iff.mp last
  obtain ⟨before, rfl⟩ := ending
  rw [← List.append_assoc] at behind
  obtain none | ⟨others, rfl, -⟩ := List.suffix_concat_iff.mp behind
  · exact hs none
  · subst split
    simp [List.dropLast_cons_of_ne_nil hr] at hc

end Apart

/-- A pattern that is not empty stands nowhere in nothing. -/
theorem occurrences_nil (hp : pattern ≠ []) : occurrences pattern [] = 0 := by
  cases pattern with
  | nil => exact absurd rfl hp
  | cons c pattern => rfl

/-- A pattern starts at the start of a text or behind it. -/
theorem occurrences_cons (pattern : List Char) (c : Char) (text : List Char) :
    occurrences pattern (c :: text) =
      occurrences pattern text + if pattern <+: c :: text then 1 else 0 := by
  simp only [occurrences, List.tails_cons, List.countP_cons, List.isPrefixOf_iff_prefix]

/-- A pattern stands nowhere in a text exactly if it is no part of it. -/
theorem occurrences_eq_zero_iff : occurrences pattern text = 0 ↔ ¬pattern <:+: text := by
  simp [occurrences, List.countP_eq_zero, List.infix_iff_prefix_suffix, imp_not_comm]

/-- A pattern stands nowhere in a text that lacks one of its characters. -/
theorem occurrences_eq_zero_of_not_mem {c : Char} (hc : c ∈ pattern) (ht : c ∉ text) :
    occurrences pattern text = 0 :=
  occurrences_eq_zero_iff.mpr fun part ↦ ht (part.subset hc)

/-- Where no occurrence reaches over the cut, those of the parts are all. -/
theorem occurrences_append (hp : pattern ≠ []) (apart : Apart pattern first second) :
    occurrences pattern (first ++ second) =
      occurrences pattern first + occurrences pattern second := by
  induction first with
  | nil => rw [List.nil_append, occurrences_nil hp, Nat.zero_add]
  | cons c first ih =>
    -- What starts here ends before the cut, or it would reach over it.
    have inside : pattern <+: c :: first ++ second ↔ pattern <+: c :: first := by
      refine ⟨fun ⟨others, whole⟩ ↦ ?_, List.prefix_append_of_prefix⟩
      obtain ⟨more, parts, -⟩ | ⟨rest, parts, behind⟩ := List.append_eq_append_iff.mp whole
      · exact ⟨more, parts.symm⟩
      · by_cases hr : rest = []
        · rw [parts, hr, List.append_nil]
        · exact absurd ⟨others, behind.symm⟩
            (apart _ _ (List.cons_ne_nil c first) hr parts (List.suffix_refl _))
    have others : Apart pattern first second := fun start rest hs hr split behind ↦
      apart start rest hs hr split (behind.trans (List.suffix_cons c first))
    rw [List.cons_append, occurrences_cons, occurrences_cons, ih others, ← List.cons_append]
    simp only [inside]
    omega

/-- A character that is not in a pattern starts no occurrence of it. -/
theorem occurrences_cons_of_not_mem (hp : pattern ≠ []) {c : Char} (hc : c ∉ pattern)
    (text : List Char) : occurrences pattern (c :: text) = occurrences pattern text := by
  obtain ⟨d, pattern, rfl⟩ := List.exists_cons_of_ne_nil hp
  have other : ¬d :: pattern <+: c :: text := fun starts ↦
    hc ((List.cons_prefix_cons.mp starts).1 ▸ List.mem_cons_self)
  rw [occurrences_cons, if_neg other, Nat.add_zero]

/-! ### Texts between quotes -/

/-- A text starts with a pattern exactly if it does with backslashes before its quotes. -/
theorem prefix_backslash_iff {quote : Char} (hq : quote ∉ pattern) (hb : '\\' ∉ pattern) :
    pattern <+: Quoted.backslash quote text ↔ pattern <+: text := by
  induction text generalizing pattern with
  | nil => rfl
  | cons c text ih =>
    cases pattern with
    | nil => simp
    | cons d pattern =>
      simp only [List.mem_cons, not_or] at hq hb
      rw [Quoted.backslash_cons]
      split
      · next same => simp [List.cons_prefix_cons, Ne.symm hb.1, same, Ne.symm hq.1]
      · rw [List.singleton_append, List.cons_prefix_cons, List.cons_prefix_cons, ih hq.2 hb.2]

/-- Backslashes before quotes neither make nor break an occurrence of a pattern that holds no quote
and no backslash. -/
theorem occurrences_backslash (hp : pattern ≠ []) {quote : Char} (hq : quote ∉ pattern)
    (hb : '\\' ∉ pattern) (text : List Char) :
    occurrences pattern (Quoted.backslash quote text) = occurrences pattern text := by
  induction text with
  | nil => rfl
  | cons c text ih =>
    by_cases same : c = quote
    · subst same
      rw [Quoted.backslash_cons, if_pos rfl, List.cons_append, List.singleton_append,
        occurrences_cons_of_not_mem hp hb, occurrences_cons_of_not_mem hp hq,
        occurrences_cons_of_not_mem hp hq, ih]
    · have starts : pattern <+: Quoted.backslash quote (c :: text) ↔ pattern <+: c :: text :=
        prefix_backslash_iff hq hb
      rw [Quoted.backslash_cons, if_neg same, List.singleton_append] at starts ⊢
      rw [occurrences_cons, occurrences_cons, ih]
      simp only [starts]

/-- A pattern stands in a text between quotes as often as in the text. -/
theorem occurrences_backslashed (hp : pattern ≠ []) {quote : Char} (hq : quote ∉ pattern)
    (hb : '\\' ∉ pattern) (text : String) :
    occurrences pattern (Quoted.backslashed quote text).toList =
      occurrences pattern text.toList := by
  have closing : startsApart pattern [quote] = true := by
    simpa [startsApart] using fun member ↦ hq (List.mem_of_mem_tail member)
  rw [Quoted.backslashed, String.toList_ofList, occurrences_cons_of_not_mem hp hq,
    occurrences_append hp (.of_head closing), occurrences_backslash hp hq hb,
    occurrences_cons_of_not_mem hp hq, occurrences_nil hp, Nat.add_zero]

end

end FrameQuery
