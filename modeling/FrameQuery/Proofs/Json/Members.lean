import FrameQuery.Json.Decoding
import Mathlib.Data.List.Count

/-!
# Members of JSON objects

A look-up finds the last member with a key. Where a key stands in front of one member at most, it
finds this member, wherever it stands among the others.
-/

namespace FrameQuery.Json

variable {key : String} {members : List (String × Json)} {value : Json}

/-- A look-up finds the last of the members with a key. -/
theorem lookup_eq (key : String) (members : List (String × Json)) :
    lookup key members = ((members.filter fun m ↦ m.1 = key).getLast?).map Prod.snd := by
  induction members with
  | nil => rfl
  | cons member rest ih =>
    obtain ⟨k, value⟩ := member
    rw [lookup, ih]
    by_cases he : k = key
    · rw [List.filter_cons_of_pos (by simpa using he), List.getLast?_cons, if_pos he]
      cases (rest.filter fun m ↦ m.1 = key).getLast? <;> rfl
    · rw [List.filter_cons_of_neg (by simpa using he), if_neg he, Option.or_none]

/-- Nothing is found exactly if there is no member with the key. -/
theorem lookup_eq_none_iff : lookup key members = none ↔ ∀ value, (key, value) ∉ members := by
  rw [lookup_eq, Option.map_eq_none_iff, List.getLast?_eq_none_iff, List.filter_eq_nil_iff]
  constructor
  · intro h value mem
    exact h _ mem (decide_eq_true rfl)
  · rintro h ⟨k, value⟩ mem he
    obtain rfl : k = key := of_decide_eq_true he
    exact h value mem

/-- A member that is found is one of the members. -/
theorem mem_of_lookup (h : lookup key members = some value) : (key, value) ∈ members := by
  rw [lookup_eq, Option.map_eq_some_iff] at h
  obtain ⟨⟨k, v⟩, last, rfl⟩ := h
  obtain ⟨mem, he⟩ := List.mem_filter.mp (List.mem_of_getLast? last)
  obtain rfl : k = key := of_decide_eq_true he
  exact mem

/-- A key that stands in front of one member at most stands in front of one value at most. -/
theorem value_unique (single : (members.map Prod.fst).count key ≤ 1) {other : Json}
    (h : (key, value) ∈ members) (h' : (key, other) ∈ members) : value = other := by
  obtain ⟨before, after, rfl⟩ := List.append_of_mem h
  have absent (l : List (String × Json)) (hl : (l.map Prod.fst).count key = 0) :
      (key, other) ∉ l := fun mem ↦
    List.count_eq_zero.mp hl (List.mem_map_of_mem (f := Prod.fst) mem)
  rw [List.map_append, List.map_cons, List.count_append, List.count_cons_self] at single
  rcases List.mem_append.mp h' with mem | mem
  · exact absurd mem (absent before (by omega))
  · rcases List.mem_cons.mp mem with he | mem
    · exact (Prod.mk.inj he).2.symm
    · exact absurd mem (absent after (by omega))

/-- If a key stands in front of one member at most, exactly this member is found. -/
theorem lookup_eq_some_iff (single : (members.map Prod.fst).count key ≤ 1) :
    lookup key members = some value ↔ (key, value) ∈ members := by
  refine ⟨mem_of_lookup, fun mem ↦ ?_⟩
  cases found : lookup key members with
  | none => exact absurd mem (lookup_eq_none_iff.mp found value)
  | some other => rw [value_unique single mem (mem_of_lookup found)]

/-! ### Fields -/

variable {α : Type} {decode : Json → Option α}

/-- A field that has to be there is read exactly from the member with its key. -/
theorem required_eq_some_iff (single : (members.map Prod.fst).count key ≤ 1) {a : α} :
    required decode key members = some a ↔
      ∃ value, (key, value) ∈ members ∧ decode value = some a := by
  rw [required, Option.bind_eq_bind, Option.bind_eq_some_iff]
  exact exists_congr fun value ↦ and_congr_left' (lookup_eq_some_iff single)

/-- An optional field has a value exactly if the member with its key does; null is none. -/
theorem optional_eq_some_some_iff (single : (members.map Prod.fst).count key ≤ 1)
    (solid : decode .null = none) {a : α} :
    optional decode key members = some (some a) ↔
      ∃ value, (key, value) ∈ members ∧ decode value = some a := by
  rw [← required_eq_some_iff single, optional, required]
  cases lookup key members with
  | none => simp
  | some value => cases value <;> simp [solid]

/-- An optional field has no value exactly if no member with its key has one. -/
theorem optional_eq_some_none_iff (single : (members.map Prod.fst).count key ≤ 1) :
    optional decode key members = some none ↔
      ∀ value, (key, value) ∈ members → value = .null := by
  simp only [← lookup_eq_some_iff single]
  rw [optional]
  cases lookup key members with
  | none => simp
  | some value => cases value <;> simp

end FrameQuery.Json
