import FrameQuery.Proofs.Rows.Queries

/-!
# Conditions before and after sorting

Sort keys order rows totally, so that sorting is stable and a condition on rows may be applied
before or after it. The same is so for rows that are each kept once, if the condition does not tell
apart what counts as the same row.
-/

namespace FrameQuery.Sql

variable {V : Type}

/-! ### Sorting -/

/-- Inserting a row in order commutes with leaving out rows. -/
private theorem filter_orderedInsert {α : Type} (r : α → α → Prop) [DecidableRel r] [IsTrans α r]
    (p : α → Bool) (a : α) {rows : List α} (ordered : rows.Pairwise r) :
    (rows.orderedInsert r a).filter p =
      if p a then (rows.filter p).orderedInsert r a else rows.filter p := by
  induction ordered with
  | nil => cases h : p a <;> simp [h]
  | @cons b rest first _ ih =>
    by_cases hr : r a b
    · rw [List.orderedInsert_cons_of_le r rest hr, List.filter_cons]
      split
      · -- The rest of the list is behind `b`, so `a` comes first even if `b` is left out.
        cases hs : (b :: rest).filter p with
        | nil => rfl
        | cons c kept =>
          have hc : c ∈ (b :: rest).filter p := hs ▸ List.mem_cons_self
          have behind : r a c := by
            rcases List.mem_cons.mp (List.mem_filter.mp hc).1 with rfl | hm
            · exact hr
            · exact IsTrans.trans a b c hr (first c hm)
          exact (List.orderedInsert_cons_of_le r kept behind).symm
      · rfl
    · rw [List.orderedInsert_of_not_le r rest hr, List.filter_cons, List.filter_cons, ih]
      cases p a <;> cases p b <;> simp [hr]

/-- Sorting commutes with leaving out rows. -/
private theorem filter_insertionSort {α : Type} (r : α → α → Prop) [DecidableRel r] [Std.Total r]
    [IsTrans α r] (p : α → Bool) (rows : List α) :
    (rows.insertionSort r).filter p = (rows.filter p).insertionSort r := by
  induction rows with
  | nil => rfl
  | cons a rest ih =>
    rw [List.insertionSort_cons, filter_orderedInsert r p a (List.pairwise_insertionSort r rest),
      List.filter_cons, ih]
    split <;> rfl

namespace Engine

variable (engine : Engine V)

/-- Rows can be compared by their sort keys. -/
theorem keysLe_total (orderings : List (SortOrdering × NullOrdering)) (as bs : List V) :
    engine.keysLe orderings as bs = true ∨ engine.keysLe orderings bs as = true := by
  induction orderings generalizing as bs with
  | nil => exact .inl rfl
  | cons ordering rest ih =>
    cases as with
    | nil => exact .inl rfl
    | cons a as =>
      cases bs with
      | nil => exact .inr rfl
      | cons b bs =>
        have first := engine.le_total ordering.1 ordering.2 a b
        have others := ih as bs
        grind [keysLe]

/-- What comes before a row comes before what that row comes before. -/
theorem keysLe_trans (orderings : List (SortOrdering × NullOrdering)) (as bs cs : List V)
    (hab : engine.keysLe orderings as bs = true) (hbc : engine.keysLe orderings bs cs = true) :
    engine.keysLe orderings as cs = true := by
  induction orderings generalizing as bs cs with
  | nil => rfl
  | cons ordering rest ih =>
    cases as with
    | nil => rfl
    | cons a as =>
      cases bs with
      | nil => cases hab
      | cons b bs =>
        cases cs with
        | nil => cases hbc
        | cons c cs =>
          have trans := engine.le_trans ordering.1 ordering.2
          have others := ih as bs cs
          grind [keysLe]

/-- Sort keys order rows totally. -/
private theorem keysLe_order {α : Type} (orderings : List (SortOrdering × NullOrdering))
    (keys : α → List V) :
    Std.Total (fun a b ↦ engine.keysLe orderings (keys a) (keys b) = true) ∧
      IsTrans α fun a b ↦ engine.keysLe orderings (keys a) (keys b) = true :=
  ⟨⟨fun a b ↦ engine.keysLe_total orderings (keys a) (keys b)⟩,
    ⟨fun a b c ↦ engine.keysLe_trans orderings (keys a) (keys b) (keys c)⟩⟩

/-- Leaving out rows leaves the other ones in order. -/
theorem filter_sorted {α : Type} (orderings : List (SortOrdering × NullOrdering))
    (keys : α → List V) (p : α → Bool) (rows : List α) :
    (engine.sorted orderings keys rows).filter p = engine.sorted orderings keys (rows.filter p) := by
  obtain ⟨_, _⟩ := engine.keysLe_order orderings keys
  exact filter_insertionSort _ p rows

/-- Rows that are sorted are in the order of their sort keys. -/
theorem pairwise_sorted {α : Type} (orderings : List (SortOrdering × NullOrdering))
    (keys : α → List V) (rows : List α) :
    (engine.sorted orderings keys rows).Pairwise fun a b ↦
      engine.keysLe orderings (keys a) (keys b) = true := by
  obtain ⟨_, _⟩ := engine.keysLe_order orderings keys
  exact List.pairwise_insertionSort _ rows

/-- Without sort keys rows stay as they are. -/
theorem sorted_nil {α : Type} (keys : α → List V) (rows : List α) :
    engine.sorted [] keys rows = rows := by
  induction rows with
  | nil => rfl
  | cons a rest ih =>
    have first : engine.sorted [] keys (a :: rest) =
        (engine.sorted [] keys rest).orderedInsert (fun _ _ ↦ true = true) a := rfl
    rw [first, ih]
    cases rest with
    | nil => rfl
    | cons b rest => exact List.orderedInsert_cons_of_le _ _ rfl

/-- Without a range, leaving out rows leaves the arrangement of the other ones. -/
theorem filter_arranged [DecidableEq V] (orderBy : List SortItem) (p : List V → Bool)
    (rows : List (List V × List V)) :
    (engine.arranged orderBy none none rows).filter p =
      engine.arranged orderBy none none (rows.filter fun row ↦ p row.1) := by
  simp only [arranged, Option.elim_none, List.drop_zero]
  rw [List.filter_map, ← filter_sorted]
  rfl

/-- Without sort keys and range rows stay as they are. -/
theorem arranged_nil [DecidableEq V] (rows : List (List V × List V)) :
    engine.arranged [] none none rows = rows.map (·.1) := by
  simp only [arranged, Option.elim_none, List.drop_zero]
  exact congrArg (List.map _) (engine.sorted_nil _ rows)

/-- Rows that are arranged are some of the rows. -/
theorem mem_of_mem_arranged [DecidableEq V] {orderBy : List SortItem}
    {limit offset : Option Expression} {rows : List (List V × List V)} {row : List V}
    (h : row ∈ engine.arranged orderBy limit offset rows) : ∃ keys, (row, keys) ∈ rows := by
  have sorted : row ∈ (engine.sorted (SortItem.orderings orderBy) (·.2) rows).map (·.1) := by
    cases limit with
    | none => exact List.mem_of_mem_drop h
    | some x => exact List.mem_of_mem_drop (List.mem_of_mem_take h)
  obtain ⟨⟨found, keys⟩, hm, rfl⟩ := List.mem_map.mp sorted
  exact ⟨keys, (List.perm_insertionSort _ rows).mem_iff.mp hm⟩

end Engine

/-! ### Distinct rows -/

/-- Rows that are kept are some of the rows. -/
theorem mem_of_mem_eraseDupsBy {α : Type} {same : α → α → Bool} {a : α} {rows : List α}
    (h : a ∈ rows.eraseDupsBy same) : a ∈ rows := by
  induction hn : rows.length using Nat.strong_induction_on generalizing rows with
  | _ n ih =>
    cases rows with
    | nil => exact h
    | cons b rest =>
      rw [List.eraseDupsBy_cons] at h
      rcases List.mem_cons.mp h with rfl | h
      · exact List.mem_cons_self
      · have shorter := Nat.lt_succ_of_le
          (List.length_filter_le (fun c ↦ decide (same c b = false)) rest)
        have later := ih _ (hn ▸ shorter) h rfl
        exact List.mem_cons_of_mem _ (List.mem_filter.mp later).1

/-- Keeping the first of the same rows commutes with leaving out rows, if the same rows are left
out. -/
theorem filter_eraseDupsBy {α : Type} (same : α → α → Bool) (p : α → Bool)
    (alike : ∀ a b, same a b = true → p a = p b) (rows : List α) :
    (rows.eraseDupsBy same).filter p = (rows.filter p).eraseDupsBy same := by
  induction h : rows.length using Nat.strong_induction_on generalizing rows with
  | _ n ih =>
    cases rows with
    | nil => rfl
    | cons a rest =>
      let other (b : α) : Bool := decide (same b a = false)
      have shorter : (rest.filter other).length < n := by
        rw [← h]
        exact Nat.lt_succ_of_le (List.length_filter_le other rest)
      have later := ih _ shorter (rest.filter other) rfl
      rw [List.eraseDupsBy_cons, List.filter_cons, List.filter_cons, later]
      split
      · rw [List.eraseDupsBy_cons, List.filter_comm]
      · next out =>
        -- What is the same as `a` is left out together with it.
        congr 1
        refine (List.filter_filter ..).trans (List.filter_congr fun b _ ↦ ?_)
        cases hs : same b a with
        | false => simp [other, hs]
        | true => simpa [other, hs, alike b a hs] using out

end FrameQuery.Sql
