import FrameQuery.Proofs.Frame.Identities

/-!
# Renamings and their inverses

A renaming substitutes names at once: it is accepted exactly if the old names are different columns
and the names of all columns are different afterwards, so that columns can trade names or pass them
on. It can then be undone by the same pairs the other way round, for the columns of the frame and
for its query.
-/

namespace FrameQuery

open Sql (Dialect QuerySpecification)

/-! ### Pairs of names -/

/-- With different old names a name is looked up in its pair. -/
theorem lookup_of_mem {pairs : List (String × String)} (nodup : (pairs.map (·.1)).Nodup)
    {old new : String} (member : (old, new) ∈ pairs) : pairs.lookup old = some new := by
  cases found : pairs.lookup old with
  | none =>
    have absent := (substituted_of_lookup_eq_none found).2
    exact absurd (List.mem_map_of_mem member) absent
  | some other =>
    have there := (substituted_of_lookup found).2
    have same := List.inj_on_of_nodup_map nodup there member rfl
    rw [(Prod.mk.inj same).2]

/-- An old name is replaced by the new name of its pair. -/
theorem substituted_of_mem {pairs : List (String × String)} (nodup : (pairs.map (·.1)).Nodup)
    {old new : String} (member : (old, new) ∈ pairs) : substituted pairs old = new :=
  (substituted_of_lookup (lookup_of_mem nodup member)).1

/-- A name that is no old name is not replaced. -/
theorem substituted_of_not_mem {pairs : List (String × String)} {name : String}
    (absent : name ∉ pairs.map (·.1)) : substituted pairs name = name := by
  cases found : pairs.lookup name with
  | none => exact (substituted_of_lookup_eq_none found).1
  | some new => exact absurd (List.mem_map_of_mem (substituted_of_lookup found).2) absent

namespace Frame

variable {columns : List Column} {pairs : List (String × String)}

/-- A renamed column differs from the column in its name at most. -/
theorem relabelled_eq (pairs : List (String × String)) (column : Column) :
    relabelled pairs column = column.renamed (substituted pairs column.name) := by
  rw [relabelled, substituted]
  cases pairs.lookup column.name <;> rfl

/-- The pairs of a renaming are as they have to be exactly if the old names are different columns
and the names of all columns are different once they are replaced. -/
theorem renames_iff (nodup : (Column.names columns).Nodup) :
    Renames columns pairs ↔ (pairs.map (·.1)).Nodup ∧ pairs.map (·.1) ⊆ Column.names columns ∧
      ((Column.names columns).map (substituted pairs)).Nodup := by
  constructor
  · rintro ⟨known, old_nodup, new_nodup, fresh⟩
    refine ⟨old_nodup, known, nodup.map_on fun a ha b hb same ↦ ?_⟩
    exact substituted_injOn new_nodup fresh ha hb same
  · rintro ⟨old_nodup, known, different⟩
    have new_names : pairs.map (·.2) = (pairs.map (·.1)).map (substituted pairs) := by
      rw [List.map_map]
      exact List.map_congr_left fun pair member ↦ (substituted_of_mem old_nodup member).symm
    refine ⟨known, old_nodup, ?_, fun name given taken ↦ ?_⟩
    · rw [new_names]
      exact old_nodup.map_on fun a ha b hb same ↦
        List.inj_on_of_nodup_map different (known ha) (known hb) same
    · by_contra absent
      rw [new_names] at given
      obtain ⟨old, member, rfl⟩ := List.mem_map.mp given
      -- The name stays, and it is the new name of another column as well.
      have same := List.inj_on_of_nodup_map different taken (known member)
        (substituted_of_not_mem absent)
      rw [same] at absent
      exact absent member

namespace Renames

/-- The old names of the inverse pairs are the new names of the pairs. -/
private theorem map_fst_swap (pairs : List (String × String)) :
    (pairs.map Prod.swap).map (·.1) = pairs.map (·.2) := by
  rw [List.map_map]
  rfl

private theorem map_snd_swap (pairs : List (String × String)) :
    (pairs.map Prod.swap).map (·.2) = pairs.map (·.1) := by
  rw [List.map_map]
  rfl

variable (renames : Renames columns pairs)

include renames

/-- The inverse pairs give every column its own name back. -/
theorem substituted_swap {name : String} (taken : name ∈ Column.names columns) :
    substituted (pairs.map Prod.swap) (substituted pairs name) = name := by
  have new_nodup := renames.new_nodup
  rw [← map_fst_swap] at new_nodup
  by_cases old : name ∈ pairs.map (·.1)
  · obtain ⟨pair, member, rfl⟩ := List.mem_map.mp old
    rw [substituted_of_mem renames.old_nodup member]
    exact substituted_of_mem new_nodup (List.mem_map_of_mem member)
  · rw [substituted_of_not_mem old]
    refine substituted_of_not_mem fun new ↦ old (renames.fresh name ?_ taken)
    rwa [map_fst_swap] at new

/-- A column that is renamed there and back is the column. -/
theorem relabelled_swap {column : Column} (member : column ∈ columns) :
    relabelled (pairs.map Prod.swap) (relabelled pairs column) = column := by
  rw [relabelled_eq, relabelled_name, relabelled_eq,
    renames.substituted_swap (List.mem_map_of_mem member)]
  rfl

/-- The inverse pairs rename the renamed columns. -/
theorem swap : Renames (columns.map (relabelled pairs)) (pairs.map Prod.swap) := by
  have names : Column.names (columns.map (relabelled pairs)) =
      (Column.names columns).map (substituted pairs) := by
    simp only [Column.names, List.map_map, Function.comp_def, relabelled_name]
  refine ⟨?_, ?_, ?_, ?_⟩
  · rw [map_fst_swap, names]
    intro new given
    obtain ⟨pair, member, rfl⟩ := List.mem_map.mp given
    rw [← substituted_of_mem renames.old_nodup member]
    exact List.mem_map_of_mem (renames.known (List.mem_map_of_mem member))
  · rw [map_fst_swap]
    exact renames.new_nodup
  · rw [map_snd_swap]
    exact renames.old_nodup
  · rw [map_fst_swap, map_snd_swap, names]
    intro old given taken
    -- Only a column that is renamed itself can have got a name that is given up.
    obtain ⟨name, -, rfl⟩ := List.mem_map.mp taken
    by_cases renamed : name ∈ pairs.map (·.1)
    · obtain ⟨pair, member, rfl⟩ := List.mem_map.mp renamed
      rw [substituted_of_mem renames.old_nodup member]
      exact List.mem_map_of_mem member
    · rw [substituted_of_not_mem renamed] at given
      exact absurd given renamed

end Renames

end Frame

namespace QueryStep

variable {d : Dialect} {query : QuerySpecification} {names : List String}
  {pairs inverse : List (String × String)}

/-- A query whose columns are renamed there and back is the query. -/
theorem renamed_renamed (selects : query.Selects d names)
    (undone : ∀ name ∈ names, substituted inverse (substituted pairs name) = name) :
    renamed d pairs query >>= renamed d inverse = .ok query := by
  obtain ⟨expressions, -, items⟩ := exists_items selects
  have back : (names.map (substituted pairs)).map (substituted inverse) = names := by
    rw [List.map_map]
    exact (List.map_congr_left undone).trans (List.map_id _)
  have first : renamed d pairs query = .ok
      (query.withItems (List.zipWith (item d) (names.map (substituted pairs)) expressions)) := by
    refine Outcome.bind_eq_ok.mpr ⟨_, ?_, rfl⟩
    rw [items]
    exact renamedItems_zipWith pairs names expressions
  rw [first, Outcome.ok_bind]
  refine Outcome.bind_eq_ok.mpr ⟨query.items, ?_, ?_⟩
  · have second := renamedItems_zipWith (d := d) inverse (names.map (substituted pairs)) expressions
    rwa [back, ← items] at second
  · show Except.ok (query.withItems query.items) = _
    rw [QuerySpecification.withItems_items]

end QueryStep

namespace Frame

variable {base : Frame}

/-- Columns of a reachable frame can be renamed exactly if the old names are different columns and
the names of all columns are different once they are replaced at once. The inverse pairs are then
accepted as well; they lead back to the columns of the frame and, in every dialect, to its query or
failure. -/
theorem Reachable.rename_undone (reachable : Reachable base) (pairs : List (String × String)) :
    ((∃ frame, base.rename pairs = .ok frame) ↔
        (pairs.map (·.1)).Nodup ∧ pairs.map (·.1) ⊆ base.columnNames ∧
          (base.columnNames.map (substituted pairs)).Nodup) ∧
      ∀ frame, base.rename pairs = .ok frame →
        frame.columnNames = base.columnNames.map (substituted pairs) ∧
        ∃ back, frame.rename (pairs.map Prod.swap) = .ok back ∧ back.EmitsAs base := by
  have checked := reachable.checked
  refine ⟨?_, fun frame accepted ↦ ?_⟩
  · refine Iff.trans ?_ (renames_iff checked.columnNames_nodup)
    exact ⟨fun ⟨_, accepted⟩ ↦ (rename_eq_ok_iff.mp accepted).1,
      fun renames ↦ ⟨_, rename_eq_ok_iff.mpr ⟨renames, rfl⟩⟩⟩
  · obtain ⟨renames, rfl⟩ := rename_eq_ok_iff.mp accepted
    refine ⟨columnNames_renamed, .renamed (.renamed base pairs) (pairs.map Prod.swap),
      rename_eq_ok_iff.mpr ⟨renames.swap, rfl⟩, ?_, fun d ↦ ?_⟩
    · show (base.columns.map (relabelled pairs)).map (relabelled (pairs.map Prod.swap)) = _
      rw [List.map_map]
      exact (List.map_congr_left fun _ member ↦ renames.relabelled_swap member).trans
        (List.map_id _)
    · have step : base.toSql d >>= (fun query ↦ QueryStep.renamed d pairs query >>=
          QueryStep.renamed d (pairs.map Prod.swap)) = base.toSql d :=
        toSql_step fun query made ↦ QueryStep.renamed_renamed (checked.selects made) fun _ taken ↦
          renames.substituted_swap taken
      rw [← step]
      cases made : base.toSql d <;> simp only [toSql, made] <;> rfl

private def tradedColumns : List Column :=
  [{ name := "a", type := .integer, preciseType := some .tinyInt },
    { name := "b", type := .string }, { name := "c", type := .boolean }]

/-- Two columns trade names and the third one passes its name on. -/
theorem Reachable.rename_undone_of_trade :
    ∃ base frame back : Frame, Reachable base ∧
      base.rename [("a", "b"), ("b", "a"), ("c", "d")] = .ok frame ∧
      frame.columnNames = ["b", "a", "d"] ∧
      frame.rename [("b", "a"), ("a", "b"), ("d", "c")] = .ok back ∧ back.EmitsAs base := by
  have made : ofTable ["t"] tradedColumns = .ok (.table ["t"] tradedColumns) := rfl
  have reachable := Reachable.table made
  obtain ⟨accepts, undone⟩ := reachable.rename_undone [("a", "b"), ("b", "a"), ("c", "d")]
  obtain ⟨frame, accepted⟩ := accepts.mpr ⟨by decide, by decide, by decide⟩
  obtain ⟨names, back, restored, same⟩ := undone frame accepted
  exact ⟨_, frame, back, reachable, accepted, names, restored, same⟩

end Frame

end FrameQuery
