import FrameQuery.Sql.Dialect
import Mathlib.Data.List.Basic

/-!
# Quoting keeps names apart

Labels are stored as they are written, so that names are compared by comparing quoted texts. No two
names have the same quoted text, whatever the quote character is.
-/

namespace FrameQuery

namespace Quoted

/-- Doubling goes character by character. -/
theorem double_cons (quote c : Char) (s : List Char) :
    double quote (c :: s) = (if c = quote then [quote, quote] else [c]) ++ double quote s := rfl

/-- A text that holds no quotes is not changed by doubling them. -/
theorem double_of_not_mem {quote : Char} {s : List Char} (h : quote ∉ s) : double quote s = s := by
  induction s with
  | nil => rfl
  | cons c s ih =>
    obtain ⟨hc, hs⟩ := not_or.mp (List.mem_cons.not.mp h)
    rw [double_cons, if_neg (Ne.symm hc), ih hs, List.singleton_append]

/-- Texts that agree after doubling agree. -/
theorem double_inj {quote : Char} {s t : List Char} :
    double quote s = double quote t ↔ s = t := by
  constructor
  · intro h
    induction s generalizing t with
    | nil =>
      cases t with
      | nil => rfl
      | cons c t => rw [double_cons] at h; split at h <;> simp [double] at h
    | cons a s ih =>
      cases t with
      | nil => rw [double_cons] at h; split at h <;> simp [double] at h
      | cons b t =>
        rw [double_cons, double_cons] at h
        split at h
        · next ha =>
          split at h
          · next hb =>
            rw [ha, hb, ih (List.append_cancel_left h)]
          · next hb =>
            exact absurd (List.cons.inj h).1 (Ne.symm hb)
        · next ha =>
          split at h
          · exact absurd (List.cons.inj h).1 ha
          · rw [(List.cons.inj h).1, ih (List.cons.inj h).2]
  · exact congrArg (double quote)

/-- Texts that agree between quotes agree. -/
theorem doubled_inj {quote : Char} {s t : String} :
    doubled quote s = doubled quote t ↔ s = t := by
  constructor
  · intro h
    have he := (List.cons.inj (String.ofList_injective h)).2
    exact String.toList_injective (double_inj.mp (List.append_cancel_right he))
  · exact congrArg (doubled quote)

end Quoted

namespace Sql.Dialect

/-- Distinct names have distinct quoted texts. -/
theorem quoted_inj {d : Dialect} {s t : String} : d.quoted s = d.quoted t ↔ s = t :=
  Quoted.doubled_inj

/-- Quoting keeps names apart. -/
theorem quoted_injective {d : Dialect} : Function.Injective d.quoted := fun _ _ ↦ quoted_inj.mp

end Sql.Dialect

end FrameQuery
