import FrameQuery.Proofs.Frame.Reachable

/-!
# The names of a frame's columns

What each transformation does to the list of column names, and the invariant of that list: it is not
empty and has no duplicates. Renaming is a simultaneous substitution on names.
-/

namespace FrameQuery

/-- The new name of a name, if all pairs of old and new names are applied at once. -/
def substituted (pairs : List (String × String)) (name : String) : String :=
  (pairs.lookup name).getD name

/-- A name that is an old name gets the new name of one of its pairs. -/
theorem substituted_of_lookup {pairs : List (String × String)} {name new : String}
    (h : pairs.lookup name = some new) :
    substituted pairs name = new ∧ (name, new) ∈ pairs := by
  obtain ⟨before, after, he, -⟩ := List.lookup_eq_some_iff.mp h
  exact ⟨by rw [substituted, h, Option.getD_some], by rw [he]; simp⟩

/-- A name that is no old name stays. -/
theorem substituted_of_lookup_eq_none {pairs : List (String × String)} {name : String}
    (h : pairs.lookup name = none) :
    substituted pairs name = name ∧ name ∉ pairs.map (·.1) := by
  refine ⟨by rw [substituted, h, Option.getD_none], ?_⟩
  intro hm
  obtain ⟨pair, hp, rfl⟩ := List.mem_map.mp hm
  simpa using List.lookup_eq_none_iff.mp h pair hp

/-- Substituting along pairs with distinct new names is injective on names of which every one that
is a new name is an old name too. -/
theorem substituted_injOn {pairs : List (String × String)} {names : List String}
    (nodup : (pairs.map (·.2)).Nodup)
    (fresh : ∀ name ∈ pairs.map (·.2), name ∈ names → name ∈ pairs.map (·.1))
    {a b : String} (ha : a ∈ names) (hb : b ∈ names)
    (h : substituted pairs a = substituted pairs b) : a = b := by
  -- A name that stays cannot be taken by another one: it would be an old name.
  have stays {x y new : String} (hy : y ∈ names) (hx : pairs.lookup x = some new)
      (hn : pairs.lookup y = none) : new ≠ y := by
    intro he
    have hm : y ∈ pairs.map (·.2) :=
      List.mem_map.mpr ⟨(x, new), (substituted_of_lookup hx).2, he⟩
    exact (substituted_of_lookup_eq_none hn).2 (fresh y hm hy)
  cases hla : pairs.lookup a with
  | some m =>
    cases hlb : pairs.lookup b with
    | some n =>
      obtain ⟨hsa, hma⟩ := substituted_of_lookup hla
      obtain ⟨hsb, hmb⟩ := substituted_of_lookup hlb
      rw [hsa, hsb] at h
      exact congrArg Prod.fst (List.inj_on_of_nodup_map nodup hma hmb h)
    | none =>
      rw [(substituted_of_lookup hla).1, (substituted_of_lookup_eq_none hlb).1] at h
      exact absurd h (stays hb hla hlb)
  | none =>
    cases hlb : pairs.lookup b with
    | some n =>
      rw [(substituted_of_lookup_eq_none hla).1, (substituted_of_lookup hlb).1] at h
      exact absurd h.symm (stays ha hlb hla)
    | none =>
      rwa [(substituted_of_lookup_eq_none hla).1, (substituted_of_lookup_eq_none hlb).1] at h

namespace Frame

variable {base other frame : Frame}

/-- A renamed column has the substituted name. -/
theorem relabelled_name (pairs : List (String × String)) (column : Column) :
    (relabelled pairs column).name = substituted pairs column.name := by
  unfold relabelled substituted
  cases pairs.lookup column.name <;> rfl

/-- A selection has the names it was given. -/
theorem columnNames_selected {names : List String} (known : names ⊆ base.columnNames) :
    (selected base names).columnNames = names := names_pick known

/-- Distinct rows of some columns have the names they were given. -/
theorem columnNames_distinct_some {names : List String} (known : names ⊆ base.columnNames) :
    (distinct base (some names)).columnNames = names := names_pick known

private theorem names_computed (new : List ComputedColumn) :
    Column.names (new.map (·.column)) = new.map (·.name) := by
  rw [Column.names, List.map_map]
  rfl

/-- An extension puts its names behind those of its base. -/
theorem columnNames_extended {new : List ComputedColumn} :
    (extended base new).columnNames = base.columnNames ++ new.map (·.name) := by
  rw [← names_computed]
  exact List.map_append

/-- A window extension puts its names behind those of its base. -/
theorem columnNames_windowExtended {window : WindowSpec} {new : List ComputedColumn} :
    (windowExtended base window new).columnNames = base.columnNames ++ new.map (·.name) := by
  rw [← names_computed]
  exact List.map_append

/-- A projection has the names of its new columns. -/
theorem columnNames_projected {new : List ComputedColumn} :
    (projected base new).columnNames = new.map (·.name) := names_computed new

/-- A renaming substitutes in the names of its base. -/
theorem columnNames_renamed {pairs : List (String × String)} :
    (renamed base pairs).columnNames = base.columnNames.map (substituted pairs) := by
  simp only [columnNames, columns, Column.names, List.map_map, Function.comp_def, relabelled_name]

/-- A grouping has the names of its keys and then those of its aggregates. -/
theorem columnNames_grouped {grouping : List String} {aggregates : List ComputedColumn}
    (known : grouping ⊆ base.columnNames) :
    (grouped base grouping aggregates).columnNames = grouping ++ aggregates.map (·.name) := by
  rw [← names_computed]
  exact List.map_append.trans (congrArg (· ++ _) (names_pick known))

/-- A join has the names of both frames. -/
theorem columnNames_joined {condition : TypedExpr} {kind : JoinKind} :
    (joined base other condition kind).columnNames = base.columnNames ++ other.columnNames :=
  List.map_append

/-- A join with the closest row has the names of both frames. -/
theorem columnNames_asOfJoined {matching : TypedExpr} {condition : Option TypedExpr} :
    (asOfJoined base other matching condition).columnNames =
      base.columnNames ++ other.columnNames := List.map_append

/-- Frames whose columns agree in name and type have the same names. -/
theorem columnNames_eq_of_agree
    (agree : base.columns.map (fun c ↦ (c.name, c.type)) =
      other.columns.map fun c ↦ (c.name, c.type)) : base.columnNames = other.columnNames := by
  have h := congrArg (List.map Prod.fst) agree
  rwa [List.map_map, List.map_map] at h

/-- A checked frame has a column. -/
theorem Checked.columnNames_ne_nil (checked : Checked frame) : frame.columnNames ≠ [] := by
  induction checked with
  | table _ columns_ne _ => simpa [columnNames, columns, Column.names] using columns_ne
  | selected _ ne known _ => rwa [columnNames_selected known]
  | distinctBy _ ne known _ => rwa [columnNames_distinct_some known]
  | extended _ _ _ ih => rw [columnNames_extended]; exact List.append_ne_nil_of_left_ne_nil ih _
  | windowExtended _ _ _ _ ih =>
    rw [columnNames_windowExtended]
    exact List.append_ne_nil_of_left_ne_nil ih _
  | projected _ ne _ _ _ => simpa [columnNames_projected] using ne
  | renamed _ _ _ _ _ ih => simpa [columnNames_renamed] using ih
  | grouped _ known ne _ _ _ => rwa [columnNames_grouped known]
  | joined _ _ _ _ ih _ => rw [columnNames_joined]; exact List.append_ne_nil_of_left_ne_nil ih _
  | asOfJoined _ _ _ ih _ =>
    rw [columnNames_asOfJoined]
    exact List.append_ne_nil_of_left_ne_nil ih _
  | concatenated _ _ _ ih _ => exact ih
  | filtered _ _ ih | sorted _ _ _ ih | sliced _ _ _ ih | limited _ _ ih | dropped _ _ ih =>
    exact ih
  | distinct _ ih | served _ ih => exact ih

private theorem nodup_append_fresh {new : List ComputedColumn} {names : List String}
    (hn : names.Nodup) (nodup : (new.map (·.name)).Nodup) (fresh : ∀ c ∈ new, c.name ∉ names) :
    (names ++ new.map (·.name)).Nodup := by
  refine List.Nodup.append hn nodup ?_
  intro name hm hname
  obtain ⟨c, hc, rfl⟩ := List.mem_map.mp hname
  exact fresh c hc hm

/-- No two columns of a checked frame have the same name. -/
theorem Checked.columnNames_nodup (checked : Checked frame) : frame.columnNames.Nodup := by
  induction checked with
  | table _ _ nodup => exact nodup
  | selected _ _ known nodup => rwa [columnNames_selected known]
  | distinctBy _ _ known nodup => rwa [columnNames_distinct_some known]
  | extended _ nodup fresh ih =>
    rw [columnNames_extended]
    exact nodup_append_fresh ih nodup fresh
  | windowExtended _ nodup fresh _ ih =>
    rw [columnNames_windowExtended]
    exact nodup_append_fresh ih nodup fresh
  | projected _ _ nodup _ _ => rwa [columnNames_projected]
  | renamed _ _ _ new_nodup fresh ih =>
    rw [columnNames_renamed]
    exact ih.map_on fun a ha b hb h ↦ substituted_injOn new_nodup fresh ha hb h
  | grouped _ known _ nodup _ _ => rwa [columnNames_grouped known]
  | joined _ _ _ disjoint left right =>
    rw [columnNames_joined]
    exact List.Nodup.append left right disjoint
  | asOfJoined _ _ disjoint left right =>
    rw [columnNames_asOfJoined]
    exact List.Nodup.append left right disjoint
  | concatenated _ _ _ ih _ => exact ih
  | filtered _ _ ih | sorted _ _ _ ih | sliced _ _ _ ih | limited _ _ ih | dropped _ _ ih =>
    exact ih
  | distinct _ ih | served _ ih => exact ih

end Frame

end FrameQuery
