import FrameQuery.Text.Blank
import Mathlib.Data.List.TakeWhile

/-!
# Texts with blanks around them

Removing the blanks at both ends leaves what they stand around.
-/

namespace FrameQuery.Blank

/-- A text with blanks around another one, or none. -/
def Pads (s core : List Char) : Prop :=
  ∃ before after, (∀ c ∈ before, isBlank c = true) ∧ (∀ c ∈ after, isBlank c = true) ∧
    s = before ++ core ++ after

variable {s core : List Char}

/-- A text stands without blanks around itself. -/
theorem Pads.refl (s : List Char) : Pads s s :=
  ⟨[], [], nofun, nofun, (List.append_nil s).symm⟩

/-- One blank before a text. -/
theorem Pads.blank_before (h : Pads s core) : Pads (' ' :: s) core := by
  obtain ⟨before, after, hb, ha, rfl⟩ := h
  exact ⟨' ' :: before, after, List.forall_mem_cons.mpr ⟨by decide, hb⟩, ha, rfl⟩

/-- What is left of a text has the removed blanks around it. -/
theorem pads_trim (s : List Char) : Pads s (trim s) := by
  have behind := List.takeWhile_append_dropWhile (p := isBlank)
    (l := (s.dropWhile isBlank).reverse)
  refine ⟨s.takeWhile isBlank, ((s.dropWhile isBlank).reverse.takeWhile isBlank).reverse, ?_, ?_,
    ?_⟩
  · intro c hc
    exact List.mem_takeWhile_imp hc
  · intro c hc
    exact List.mem_takeWhile_imp (List.mem_reverse.mp hc)
  · rw [trim, List.append_assoc, ← List.reverse_append, behind, List.reverse_reverse,
      List.takeWhile_append_dropWhile]

/-- Blanks before a text without blanks in front are dropped. -/
private theorem dropWhile_append {before rest : List Char} (hb : ∀ c ∈ before, isBlank c = true)
    (hr : ∀ c ∈ rest.head?, isBlank c = false) : (before ++ rest).dropWhile isBlank = rest := by
  rw [List.dropWhile_append_of_pos hb]
  cases rest with
  | nil => rfl
  | cons c rest => exact List.dropWhile_cons_of_neg (by simp [hr c rfl])

/-- A text without blanks is left of all texts that have blanks around it, and of no others. -/
theorem trim_eq_iff (solid : ∀ c ∈ core, isBlank c = false) : trim s = core ↔ Pads s core := by
  constructor
  · rintro rfl
    exact pads_trim s
  · rintro ⟨before, after, hb, ha, rfl⟩
    by_cases empty : core = []
    · have all : ∀ c ∈ before ++ after, isBlank c = true := List.forall_mem_append.mpr ⟨hb, ha⟩
      rw [empty, trim, List.append_nil, List.dropWhile_eq_nil_iff.mpr all]
      rfl
    · have first : ∀ c ∈ (core ++ after).head?, isBlank c = false := by
        intro c hc
        obtain ⟨d, rest, rfl⟩ := List.exists_cons_of_ne_nil empty
        rw [← Option.some.inj hc]
        exact solid d List.mem_cons_self
      have last : ∀ c ∈ core.reverse.head?, isBlank c = false := by
        intro c hc
        exact solid c (List.mem_reverse.mp (List.mem_of_mem_head? hc))
      have blanks : ∀ c ∈ after.reverse, isBlank c = true := by
        intro c hc
        exact ha c (List.mem_reverse.mp hc)
      rw [trim, List.append_assoc, dropWhile_append hb first, List.reverse_append,
        dropWhile_append blanks last, List.reverse_reverse]

end FrameQuery.Blank
