import FrameQuery.Number.Reading
import Mathlib.Data.List.Basic

/-!
# Numbers that are read

Digits stand for a number, with any number of zeros in front of it, and may have a plus sign. The
digits that a number is written with are read as the number.
-/

namespace FrameQuery.Reading

/-- The digits that a number is written with have its value. -/
theorem digitsValue_toDigits (n : Nat) : digitsValue (Nat.toDigits 10 n) = n :=
  Nat.ofDigitChars_toDigits (by decide) (by decide)

/-- One or more digits of some value. -/
structure Digits (n : Nat) (s : List Char) : Prop where
  ne : s ≠ []
  all : ∀ c ∈ s, c.isDigit = true
  value : digitsValue s = n

/-- A number is written with digits of its value. -/
theorem Digits.toDigits (n : Nat) : Digits n (Nat.toDigits 10 n) where
  ne := Nat.toDigits_ne_nil
  all _ hc := Nat.isDigit_of_mem_toDigits (by decide) (by decide) hc
  value := digitsValue_toDigits n

/-- Digits are no plus sign. -/
theorem Digits.ne_plus {n : Nat} {c : Char} {rest : List Char} (h : Digits n (c :: rest)) :
    c ≠ '+' := by
  rintro rfl
  exact absurd (h.all _ List.mem_cons_self) (by decide)

/-- Exactly the digits of a number are read as the number. -/
theorem natural_eq_some_iff {s : List Char} {n : Nat} : natural s = some n ↔ Digits n s := by
  rw [natural]
  constructor
  · intro h
    split at h
    · next digits =>
      exact ⟨digits.1, List.all_eq_true.mp digits.2, Option.some.inj h⟩
    · cases h
  · intro h
    rw [if_pos ⟨h.ne, List.all_eq_true.mpr h.all⟩, h.value]

/-- Digits of some value, behind a plus sign or not. -/
inductive Unsigned (n : Nat) : List Char → Prop
  | plain {digits : List Char} : Digits n digits → Unsigned n digits
  | signed {digits : List Char} : Digits n digits → Unsigned n ('+' :: digits)

/-- The number that digits stand for, if it has no more than 32 bits. -/
private theorem bounded_eq_some_iff {digits : List Char} {n : UInt32} :
    ((natural digits).bind fun m ↦ if m < UInt32.size then some (UInt32.ofNat m) else none) =
      some n ↔ Digits n.toNat digits := by
  rw [← natural_eq_some_iff, Option.bind_eq_some_iff]
  constructor
  · rintro ⟨m, value, h⟩
    split at h
    · next small =>
      rw [← Option.some.inj h, UInt32.toNat_ofNat_of_lt' small]
      exact value
    · cases h
  · intro value
    refine ⟨n.toNat, value, ?_⟩
    rw [if_pos n.toNat_lt_size, UInt32.ofNat_toNat]

/-- Exactly the texts of an unsigned number of 32 bits are read as the number. -/
theorem uint32_eq_some_iff {s : List Char} {n : UInt32} :
    uint32 s = some n ↔ Unsigned n.toNat s := by
  by_cases plus : ∃ rest, s = '+' :: rest
  · obtain ⟨rest, rfl⟩ := plus
    have read : uint32 ('+' :: rest) = (natural rest).bind fun m ↦
        if m < UInt32.size then some (UInt32.ofNat m) else none := by
      rw [uint32]
      cases natural rest <;> rfl
    rw [read, bounded_eq_some_iff]
    constructor
    · exact Unsigned.signed
    · intro h
      cases h with
      | plain digits => exact absurd rfl digits.ne_plus
      | signed digits => exact digits
  · have read : uint32 s = (natural s).bind fun m ↦
        if m < UInt32.size then some (UInt32.ofNat m) else none := by
      rw [uint32.eq_2 s fun rest he ↦ plus ⟨rest, he⟩]
      cases natural s <;> rfl
    rw [read, bounded_eq_some_iff]
    constructor
    · exact Unsigned.plain
    · intro h
      cases h with
      | plain digits => exact digits
      | signed _ => exact absurd ⟨_, rfl⟩ plus

end FrameQuery.Reading
