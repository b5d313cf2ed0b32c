import FrameQuery.Proofs.Rows.Arrangement

/-!
# Order and range

Rows are put in order first and cut to a range after. Sorting neither loses nor repeats a row, and
what is computed of each row by itself may be computed before or after rows are arranged, as long as
the sort keys stay the same. The ends of a range are numbers of rows.
-/

namespace FrameQuery.Sql

variable {V : Type}

/-! ### Distinct rows -/

/-- Keeping the first of the same rows commutes with what is computed of each row, if it tells the
same rows apart. -/
theorem map_eraseDupsBy {α β : Type} {same : α → α → Bool} {same' : β → β → Bool} {f : α → β}
    (alike : ∀ a b, same' (f a) (f b) = same a b) (rows : List α) :
    (rows.map f).eraseDupsBy same' = (rows.eraseDupsBy same).map f := by
  induction h : rows.length using Nat.strong_induction_on generalizing rows with
  | _ n ih =>
    cases rows with
    | nil => rfl
    | cons a rest =>
      have shorter : (rest.filter fun b ↦ decide (same b a = false)).length < n := by
        rw [← h]
        exact Nat.lt_succ_of_le (List.length_filter_le ..)
      have later := ih _ shorter _ rfl
      rw [List.map_cons, List.eraseDupsBy_cons, List.eraseDupsBy_cons, List.map_cons, ← later,
        List.filter_map]
      simp only [Function.comp_def, alike]

/-- Keeping the first of the same rows keeps none of them twice. -/
theorem nodup_eraseDups {α : Type} [BEq α] [LawfulBEq α] (rows : List α) :
    rows.eraseDups.Nodup := by
  induction h : rows.length using Nat.strong_induction_on generalizing rows with
  | _ n ih =>
    cases rows with
    | nil => exact List.nodup_nil
    | cons a rest =>
      have shorter : (rest.filter fun b ↦ !b == a).length < n := by
        rw [← h]
        exact Nat.lt_succ_of_le (List.length_filter_le ..)
      have later := ih _ shorter _ rfl
      rw [List.eraseDups_cons]
      refine List.nodup_cons.mpr ⟨fun again ↦ ?_, later⟩
      have kept := (List.mem_filter.mp (List.mem_eraseDups.mp again)).2
      simp at kept

namespace Engine

variable (engine : Engine V)

/-! ### Sorting -/

/-- Sorting loses no row and repeats none. -/
theorem perm_sorted {α : Type} (orderings : List (SortOrdering × NullOrdering))
    (keys : α → List V) (rows : List α) : (engine.sorted orderings keys rows).Perm rows :=
  List.perm_insertionSort _ rows

/-- Sorting commutes with what is computed of each row, if the sort keys stay the same. -/
theorem map_sorted {α β : Type} (orderings : List (SortOrdering × NullOrdering))
    {keys : α → List V} {keys' : β → List V} {f : α → β} (same : ∀ a, keys' (f a) = keys a)
    (rows : List α) :
    (engine.sorted orderings keys rows).map f = engine.sorted orderings keys' (rows.map f) :=
  List.map_insertionSort _ _ f rows fun a _ b _ ↦ by rw [same, same]

/-! ### Ranges -/

variable [DecidableEq V]

/-- Rows from an offset on up to a limit. -/
def ranged {α : Type} (limit offset : Option Expression) (rows : List α) : List α :=
  let count (x : Expression) := engine.count (x.value engine (.row []))
  let rest := rows.drop (offset.elim 0 count)
  limit.elim rest fun x ↦ rest.take (count x)

/-- Rows are arranged by putting them in order and cutting them to a range. -/
theorem arranged_eq (orderBy : List SortItem) (limit offset : Option Expression)
    (rows : List (List V × List V)) :
    engine.arranged orderBy limit offset rows = engine.ranged limit offset
      ((engine.sorted (SortItem.orderings orderBy) (·.2) rows).map (·.1)) := rfl

/-- What is computed of each row may be computed before or after rows are cut to a range. -/
theorem map_ranged {α β : Type} (limit offset : Option Expression) (f : α → β) (rows : List α) :
    (engine.ranged limit offset rows).map f = engine.ranged limit offset (rows.map f) := by
  cases limit with
  | none => exact List.map_drop
  | some x => exact List.map_take.trans (congrArg _ List.map_drop)

/-- A range that is written as numbers counts rows. -/
private theorem count_value_integer (n : Int64) :
    engine.count ((Expression.integer n).value engine (.row [])) = n.toNatClampNeg := by
  have value : (Expression.integer n).value engine (.row []) =
      engine.scalar (.literal (.integer n)) [] := Expression.value_operator rfl
  rw [value]
  exact engine.count_integer n

/-- A limit leaves the first rows of those behind the offset. -/
theorem ranged_limit {α : Type} (n : Int64) (offset : Option Expression) (rows : List α) :
    engine.ranged (some (.integer n)) offset rows =
      (engine.ranged none offset rows).take n.toNatClampNeg := by
  rw [← engine.count_value_integer n]
  rfl

/-- An offset leaves out the first rows. -/
theorem ranged_offset {α : Type} (n : Int64) (rows : List α) :
    engine.ranged none (some (.integer n)) rows = rows.drop n.toNatClampNeg := by
  rw [← engine.count_value_integer n]
  rfl

/-! ### Rows in order and in a range -/

/-- What is computed of each row by itself may be computed before or after rows are arranged. -/
theorem map_arranged (orderBy : List SortItem) (limit offset : Option Expression)
    (f : List V → List V) (rows : List (List V × List V)) :
    (engine.arranged orderBy limit offset rows).map f =
      engine.arranged orderBy limit offset (rows.map fun row ↦ (f row.1, row.2)) := by
  rw [arranged_eq, arranged_eq, map_ranged, List.map_map,
    ← engine.map_sorted (SortItem.orderings orderBy) (fun _ ↦ rfl), List.map_map]
  rfl

/-- Without a range no row is lost and none is repeated. -/
theorem perm_arranged (orderBy : List SortItem) (rows : List (List V × List V)) :
    (engine.arranged orderBy none none rows).Perm (rows.map (·.1)) :=
  (engine.perm_sorted ..).map _

end Engine

end FrameQuery.Sql
