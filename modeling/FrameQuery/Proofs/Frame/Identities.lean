import FrameQuery.Proofs.Frame.Renaming

/-!
# Transformations that change nothing

Selecting all columns, renaming columns to their own names and keeping the rows for which `true`
holds make frames with the same columns and the same query, in every dialect: a query selects
exactly the columns of its frame, whatever it was made of, so that a selection of all of them need
not wrap it.
-/

namespace FrameQuery

open Sql (Dialect QuerySpecification SelectItem)

/-! ### Columns -/

namespace Column

variable {columns : List Column}

/-- Among columns with different names each is found under its name. -/
theorem find?_name (nodup : (names columns).Nodup) {column : Column} (member : column ∈ columns) :
    find? columns column.name = some column := by
  induction columns with
  | nil => cases member
  | cons first columns ih =>
    obtain ⟨fresh, nodup⟩ := List.nodup_cons.mp nodup
    rcases List.mem_cons.mp member with rfl | member
    · exact List.find?_cons_of_pos (beq_self_eq_true _)
    · have other : first.name ≠ column.name :=
        fun same ↦ fresh (List.mem_map.mpr ⟨column, member, same.symm⟩)
      exact (List.find?_cons_of_neg (by simpa using other)).trans (ih nodup member)

end Column

/-- All columns are picked by their names. -/
theorem Frame.pick_names {columns : List Column} (nodup : (Column.names columns).Nodup) :
    pick columns (Column.names columns) = columns := by
  rw [pick, Column.names, List.filterMap_map]
  exact (List.filterMap_congr fun _ member ↦ Column.find?_name nodup member).trans
    List.filterMap_some

/-! ### Renaming columns to their own names -/

section

variable {pairs : List (String × String)} (own : ∀ pair ∈ pairs, pair.1 = pair.2)

include own

/-- Names that are replaced by themselves stay. -/
theorem substituted_of_own (name : String) : substituted pairs name = name := by
  cases found : pairs.lookup name with
  | none => exact (substituted_of_lookup_eq_none found).1
  | some new =>
    obtain ⟨same, member⟩ := substituted_of_lookup found
    exact same.trans (own _ member).symm

/-- Columns that are renamed to their own names stay. -/
theorem Frame.relabelled_of_own (column : Column) : relabelled pairs column = column := by
  rw [relabelled]
  cases found : pairs.lookup column.name with
  | none => rfl
  | some new =>
    have same : column.name = new := own _ (substituted_of_lookup found).2
    rw [← same]
    rfl

end

namespace QueryStep

variable {d : Dialect} {query : QuerySpecification} {names : List String}

/-- A query that is restricted to all of its columns is not changed. -/
theorem selected_self (selects : query.Selects d names) : selected d names query = .ok query :=
  selected_eq_ok.mpr (.inl ⟨beq_iff_eq.mpr selects, rfl⟩)

/-- A query whose columns are renamed to their own names is not changed. -/
theorem renamed_self (selects : query.Selects d names) {pairs : List (String × String)}
    (own : ∀ pair ∈ pairs, pair.1 = pair.2) : renamed d pairs query = .ok query := by
  obtain ⟨expressions, -, items⟩ := exists_items selects
  have stay : names.map (substituted pairs) = names :=
    (List.map_congr_left fun name _ ↦ substituted_of_own own name).trans (List.map_id _)
  have renamings := renamedItems_zipWith (d := d) pairs names expressions
  rw [stay, ← items] at renamings
  refine Outcome.bind_eq_ok.mpr ⟨query.items, renamings, ?_⟩
  exact congrArg Except.ok QuerySpecification.withItems_items

end QueryStep

/-! ### Frames -/

namespace Frame

/-- A frame has the columns of another one and the same query, or the same failure, in every
dialect. -/
def EmitsAs (frame base : Frame) : Prop :=
  frame.columns = base.columns ∧ ∀ d : Dialect, frame.toSql d = base.toSql d

variable {base : Frame}

/-- A step that changes no query of a frame gives the frame its own query or failure. -/
theorem toSql_step {d : Dialect} {step : QuerySpecification → Outcome QuerySpecification}
    (unchanged : ∀ query, base.toSql d = .ok query → step query = .ok query) :
    base.toSql d >>= step = base.toSql d := by
  cases made : base.toSql d with
  | error e => rfl
  | ok query => exact unchanged query made

/-- Columns of a frame can be renamed to their own names. -/
private theorem rename_own {pairs : List (String × String)} (nodup : pairs.Nodup)
    (own : ∀ pair ∈ pairs, pair.1 = pair.2 ∧ pair.1 ∈ base.columnNames) :
    base.rename pairs = .ok (.renamed base pairs) := by
  have same : pairs.map (·.2) = pairs.map (·.1) :=
    List.map_congr_left fun pair member ↦ (own pair member).1.symm
  have known : pairs.map (·.1) ⊆ base.columnNames := by
    intro name member
    obtain ⟨pair, hp, rfl⟩ := List.mem_map.mp member
    exact (own pair hp).2
  have different : (pairs.map (·.1)).Nodup := by
    refine nodup.map_on fun a ha b hb first ↦ Prod.ext first ?_
    rw [← (own a ha).1, ← (own b hb).1, first]
  refine rename_eq_ok_iff.mpr ⟨⟨known, different, ?_, ?_⟩, rfl⟩
  · rw [same]
    exact different
  · rw [same]
    exact fun _ member _ ↦ member

/-- Every reachable frame can be restricted to all of its columns, can have different columns renamed
to their own names, and can be filtered by a condition that is `true`. The result has the columns of
the frame and, in every dialect, the same query or the same failure. -/
theorem Reachable.identities (reachable : Reachable base) :
    (∃ frame, base.select base.columnNames = .ok frame ∧ frame.EmitsAs base) ∧
      (∀ pairs : List (String × String), pairs.Nodup →
        (∀ pair ∈ pairs, pair.1 = pair.2 ∧ pair.1 ∈ base.columnNames) →
        ∃ frame, base.rename pairs = .ok frame ∧ frame.EmitsAs base) ∧
      ∀ condition : Row → Outcome TypedExpr, condition base.row = .ok (.boolean true) →
        ∃ frame, base.filter condition = .ok frame ∧ frame.EmitsAs base := by
  have checked := reachable.checked
  have nodup := checked.columnNames_nodup
  refine ⟨⟨.selected base base.columnNames, ?_, pick_names nodup, fun d ↦ ?_⟩, ?_, ?_⟩
  · have fits : base.checkSelection base.columnNames "select" = .ok () := checkSelection_eq_ok.mpr
      ⟨checked.columnNames_ne_nil, List.Subset.refl base.columnNames, nodup⟩
    exact Outcome.bind_eq_ok.mpr ⟨(), fits, rfl⟩
  · exact toSql_step fun query made ↦ QueryStep.selected_self (checked.selects made)
  · intro pairs different own
    have stay : base.columns.map (relabelled pairs) = base.columns :=
      (List.map_congr_left fun column _ ↦
        relabelled_of_own (fun pair hp ↦ (own pair hp).1) column).trans (List.map_id _)
    refine ⟨.renamed base pairs, rename_own different own, stay, fun d ↦ ?_⟩
    exact toSql_step fun query made ↦
      QueryStep.renamed_self (checked.selects made) fun pair hp ↦ (own pair hp).1
  · intro condition computed
    refine ⟨.filtered base (.boolean true), ?_, rfl, fun d ↦ ?_⟩
    · rw [Frame.filter, computed]
      rfl
    · exact toSql_step fun query _ ↦ QueryStep.filtered_eq_ok.mpr (.inl ⟨rfl, rfl⟩)

private def preciseColumns : List Column :=
  [{ name := "a", type := .integer, preciseType := some .tinyInt }, { name := "b", type := .string }]

/-- The distinct rows of a table, in the order of a column and without the first of them: a query with
clauses that a selection is wrapped for if it leaves out a column. -/
theorem Reachable.identities_of_distinct :
    ∃ base selected renamed filtered : Frame, Reachable base ∧
      base.select ["a", "b"] = .ok selected ∧ selected.EmitsAs base ∧
      base.rename [("b", "b")] = .ok renamed ∧ renamed.EmitsAs base ∧
      base.filter (fun _ ↦ .ok (.boolean true)) = .ok filtered ∧ filtered.EmitsAs base := by
  have made : ofTable ["t"] preciseColumns = .ok (.table ["t"] preciseColumns) := rfl
  have sorted : (Frame.table ["t"] preciseColumns).distinctRows.sort [⟨"a", .ascending⟩] =
      .ok (.sorted (.distinct (.table ["t"] preciseColumns) none) [⟨"a", .ascending⟩]) := rfl
  have dropped : (Frame.sorted (.distinct (.table ["t"] preciseColumns) none)
      [⟨"a", .ascending⟩]).drop 1 = .ok (.dropped _ 1) := rfl
  have reachable := (((Reachable.table made).distinct).sort sorted).drop dropped
  obtain ⟨⟨selected, hs, asSelected⟩, renamings, filters⟩ := reachable.identities
  obtain ⟨renamed, hr, asRenamed⟩ := renamings [("b", "b")] (List.nodup_singleton _)
    (List.forall_mem_singleton.mpr ⟨rfl, by decide⟩)
  obtain ⟨filtered, hf, asFiltered⟩ := filters (fun _ ↦ .ok (.boolean true)) rfl
  exact ⟨_, selected, renamed, filtered, reachable, hs, asSelected, hr, asRenamed, hf, asFiltered⟩

end Frame

end FrameQuery
