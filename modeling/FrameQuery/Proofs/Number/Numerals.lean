import FrameQuery.Calendar
import FrameQuery.Proofs.Number.Texts

/-!
# The characters of numbers and dates

Numbers, days and times are written with digits, a few signs and a few letters. Whatever holds of
these characters holds of all such texts.
-/

namespace FrameQuery

/-- Whether numbers and dates are written with a character. -/
def isNumeral (c : Char) : Bool :=
  c.isDigit || ['-', '+', '.', ':', 'T', 'e', 'i', 'n', 'f', 'N', 'a'].contains c

/-- A text of such characters. -/
def Numeric (text : String) : Prop := ∀ c ∈ text.toList, isNumeral c = true

instance (text : String) : Decidable (Numeric text) :=
  List.decidableBAll (isNumeral · = true) text.toList

/-- Such texts one after the other. -/
theorem Numeric.append {first second : String} (hf : Numeric first) (hs : Numeric second) :
    Numeric (first ++ second) := by
  rw [Numeric, String.toList_append, List.forall_mem_append]
  exact ⟨hf, hs⟩

private theorem minus_numeral (negative : Bool) :
    ∀ c ∈ minus negative, isNumeral c = true := by
  cases negative with
  | true => exact List.forall_mem_singleton.mpr (by decide)
  | false => exact nofun

/-- Digits and points are characters of numbers. -/
theorem Mantissa.numeral {text : List Char} (h : Mantissa text) :
    ∀ c ∈ text, isNumeral c = true := by
  intro c hc
  rcases h.all c hc with hd | rfl
  · rw [isNumeral, hd, Bool.true_or]
  · decide

/-- Integers are numeric. -/
theorem Int.numeric (n : Int) : Numeric (toString n) := by
  obtain ⟨text, mantissa, he⟩ := Int.exists_mantissa n
  rw [Numeric, he, List.forall_mem_append]
  exact ⟨minus_numeral _, mantissa.numeral⟩

/-- Floating point numbers are numeric. -/
theorem Double.numeric (x : Double) : Numeric x.toText := by
  obtain ⟨text, magnitude, he⟩ := x.exists_magnitude
  rw [Numeric, he, List.forall_mem_append]
  refine ⟨minus_numeral _, ?_⟩
  cases magnitude with
  | infinite => exact (by decide : Numeric "inf")
  | noNumber => exact (by decide : Numeric "NaN")
  | positional h => exact h.numeral
  | @scaled text power negative ht hp =>
    rw [List.forall_mem_append, List.forall_mem_cons, List.forall_mem_append]
    exact ⟨ht.numeral, by decide, minus_numeral _, hp.numeral⟩

namespace Calendar

/-- Numbers of a fixed width are numeric. -/
private theorem numeric_padded (width n : Nat) : Numeric (padded width n) := by
  rw [Numeric, padded, String.toList_ofList, List.forall_mem_append]
  refine ⟨fun c hc ↦ ?_, (Mantissa.toDigits n).numeral⟩
  rw [List.eq_of_mem_replicate hc]
  decide

/-- Years are numeric. -/
private theorem numeric_yearText (year : Int) : Numeric (yearText year) := by
  refine .append ?_ (numeric_padded _ _)
  split
  · decide
  · split <;> decide

/-- Fractions are numeric. -/
private theorem numeric_fractionText (nanos : Nat) : Numeric (fractionText nanos) := by
  have point (width n : Nat) : Numeric ("." ++ padded width n) :=
    .append (by decide) (numeric_padded width n)
  rw [fractionText]
  split
  · decide
  · split
    · exact point _ _
    · split <;> exact point _ _

end Calendar

/-- Days are numeric. -/
theorem Date.numeric (d : Date) : Numeric d.toText :=
  .append (.append (.append (.append (Calendar.numeric_yearText _) (by decide))
    (Calendar.numeric_padded _ _)) (by decide)) (Calendar.numeric_padded _ _)

/-- Times are numeric. -/
theorem DateTime.numeric (t : DateTime) : Numeric t.toText :=
  .append (.append (.append (.append (.append (.append (.append t.date.numeric (by decide))
    (Calendar.numeric_padded _ _)) (by decide)) (Calendar.numeric_padded _ _)) (by decide))
      (Calendar.numeric_padded _ _)) (Calendar.numeric_fractionText _)

end FrameQuery
