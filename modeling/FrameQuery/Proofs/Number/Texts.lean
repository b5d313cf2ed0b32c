import FrameQuery.Number.Shortest
import Mathlib.Data.List.Basic

/-!
# The texts of numbers

A number is written as its magnitude, behind a minus if it is negative. A magnitude is made of
digits and points, the first of them a digit, and may have a power of ten behind it; only infinity
and what is no number are words.
-/

namespace FrameQuery

/-- The sign of a number, written only if it is negative. -/
def minus (negative : Bool) : List Char := if negative then ['-'] else []

/-- Digits and points, the first of them a digit. -/
structure Mantissa (text : List Char) : Prop where
  head : ∃ first rest, text = first :: rest ∧ first.isDigit = true
  all : ∀ c ∈ text, c.isDigit = true ∨ c = '.'

namespace Mantissa

/-- The digits of a natural number. -/
theorem toDigits (n : Nat) : Mantissa (Nat.toDigits 10 n) where
  head := by
    obtain ⟨first, rest, he⟩ := List.exists_cons_of_ne_nil (Nat.toDigits_ne_nil (b := 10) (n := n))
    refine ⟨first, rest, he, ?_⟩
    exact Nat.isDigit_of_mem_toDigits (by decide) (by decide) (he ▸ List.mem_cons_self)
  all c hc := .inl (Nat.isDigit_of_mem_toDigits (by decide) (by decide) hc)

/-- Digits and points go on behind digits and points. -/
theorem append {first second : List Char} (h : Mantissa first)
    (hs : ∀ c ∈ second, c.isDigit = true ∨ c = '.') : Mantissa (first ++ second) where
  head := by
    obtain ⟨c, rest, rfl, hc⟩ := h.head
    exact ⟨c, rest ++ second, rfl, hc⟩
  all c hc := by
    rcases List.mem_append.mp hc with hc | hc
    · exact h.all c hc
    · exact hs c hc

/-- Digits and points end anywhere but before the first digit. -/
theorem take {text : List Char} (h : Mantissa text) {n : Nat} (hn : 0 < n) :
    Mantissa (text.take n) where
  head := by
    obtain ⟨c, rest, rfl, hc⟩ := h.head
    obtain ⟨k, rfl⟩ := Nat.exists_eq_add_of_lt hn
    exact ⟨c, rest.take (0 + k), rfl, hc⟩
  all c hc := h.all c (List.mem_of_mem_take hc)

end Mantissa

/-- The texts of numbers without a sign. -/
inductive Magnitude : List Char → Prop
  | infinite : Magnitude ['i', 'n', 'f']
  | noNumber : Magnitude ['N', 'a', 'N']
  | positional {text : List Char} : Mantissa text → Magnitude text
  | scaled {text power : List Char} (negative : Bool) : Mantissa text → Mantissa power →
    Magnitude (text ++ 'e' :: (minus negative ++ power))

/-- An integer is written as digits, behind a minus if it is negative. -/
theorem Int.exists_mantissa (n : Int) :
    ∃ text, Mantissa text ∧ (toString n).toList = minus (n < 0) ++ text := by
  rw [Int.toString_eq_repr, Int.repr_eq_if]
  by_cases hn : 0 ≤ n
  · refine ⟨_, .toDigits n.toNat, ?_⟩
    rw [if_pos hn, Nat.toList_repr, minus, if_neg (by simpa using hn), List.nil_append]
  · refine ⟨_, .toDigits (-n).toNat, ?_⟩
    rw [if_neg hn, String.toList_append, Nat.toList_repr, minus, if_pos (by simpa using hn)]
    rfl

namespace Double

/-- Zeros are digits. -/
private theorem digits_of_zeros {n : Nat} {c : Char} (h : c ∈ List.replicate n '0') :
    c.isDigit = true ∨ c = '.' := by
  rw [List.eq_of_mem_replicate h]
  exact .inl rfl

/-- A positive decimal has a magnitude. -/
theorem magnitude_decimalText (d : Decimal) : Magnitude (decimalText d).toList := by
  have digits : Mantissa (digitChars d.digits) := .toDigits d.digits
  rw [decimalText]
  generalize digitChars d.digits = text at digits
  by_cases hs : d.exponent + text.length - 1 < -4 ∨ 15 < d.exponent + text.length - 1
  · obtain ⟨power, hp, he⟩ := Int.exists_mantissa (d.exponent + text.length - 1)
    have whole : Mantissa (text.take 1) := digits.take Nat.one_pos
    rw [if_pos hs]
    simp only [String.toList_append, String.toList_ofList, he]
    by_cases hl : text.length = 1
    · rw [if_pos hl]
      simpa using Magnitude.scaled _ whole hp
    · have both : Mantissa (text.take 1 ++ '.' :: text.tail) := by
        refine whole.append fun c hc ↦ ?_
        rcases List.mem_cons.mp hc with rfl | hc
        · exact .inr rfl
        · exact digits.all c (List.mem_of_mem_tail hc)
      rw [if_neg hl]
      simpa using Magnitude.scaled _ both hp
  · rw [if_neg hs]
    by_cases hf : d.exponent + text.length - 1 < 0
    · have zero : Mantissa ['0', '.'] := ⟨⟨'0', ['.'], rfl, rfl⟩, by simp⟩
      rw [if_pos hf]
      refine .positional ?_
      simp only [String.toList_append, String.toList_ofList]
      refine zero.append fun c hc ↦ ?_
      rcases List.mem_append.mp hc with hc | hc
      · exact digits_of_zeros hc
      · exact digits.all c hc
    · rw [if_neg hf]
      by_cases he : 0 ≤ d.exponent
      · rw [if_pos he]
        refine .positional ?_
        simp only [String.toList_append, String.toList_ofList]
        refine (digits.append fun c hc ↦ digits_of_zeros hc).append ?_
        simp
      · rw [if_neg he]
        refine .positional ?_
        simp only [String.toList_append, String.toList_ofList, List.append_assoc]
        refine (digits.take ?_).append fun c hc ↦ ?_
        · omega
        · rcases List.mem_cons.mp hc with rfl | hc
          · exact .inr rfl
          · exact digits.all c (List.mem_of_mem_drop hc)

/-- A double is written as a magnitude, behind a minus if it is a number with a sign. -/
theorem exists_magnitude (x : Double) :
    ∃ text, Magnitude text ∧ x.toText.toList = minus (x.isNegative && !x.isNaN) ++ text := by
  rw [toText]
  by_cases hn : x.isNaN = true
  · refine ⟨_, .noNumber, ?_⟩
    rw [if_pos hn, hn, Bool.not_true, Bool.and_false]
    rfl
  · have sign : (if x.isNegative then "-" else "").toList = minus (x.isNegative && !x.isNaN) := by
      cases hx : x.isNegative <;> simp [hn, minus]
    rw [if_neg hn, ← sign]
    by_cases hf : (!x.isFinite) = true
    · refine ⟨_, .infinite, ?_⟩
      rw [if_pos hf, String.toList_append]
      rfl
    · rw [if_neg hf]
      by_cases hm : x.mantissa = 0
      · have zero : Mantissa ['0', '.', '0'] := ⟨⟨'0', ['.', '0'], rfl, rfl⟩, by simp⟩
        refine ⟨_, .positional zero, ?_⟩
        rw [if_pos hm, String.toList_append]
        rfl
      · refine ⟨_, magnitude_decimalText (Shortest.decimal x), ?_⟩
        rw [if_neg hm, String.toList_append]

end Double

end FrameQuery
