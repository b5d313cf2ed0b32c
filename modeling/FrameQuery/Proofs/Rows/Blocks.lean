import FrameQuery.Proofs.Rows.Arrangement
import FrameQuery.Proofs.Rows.Validity

/-!
# Blocks that compute row by row

Where a block selects and sorts by nothing but expressions over columns of a row, and has no groups
and no range, each row it picks makes one row by itself. The rows of such a block for which a
condition on what is selected holds are those that it picks if the condition is one of its own.
-/

namespace FrameQuery.Sql

variable {V : Type}

/-! ### Values on rows -/

/-- A row that is looked at alone is the row that columns are read from. -/
@[simp] theorem Place.env_row (env : Env V) : (Place.row env).env = env := rfl

/-- The places of rows that are groups of their own, looked at by their rows. -/
theorem Place.map_env_all (rows : List (Env V)) :
    (Place.all (rows.map ([·]))).map Place.env = rows := by
  refine List.ext_getElem (by simp [all]) fun i h _ ↦ ?_
  have bound : i < rows.length := by simpa [all] using h
  simp [all, env, group, bound]

variable [DecidableEq V] {engine : Engine V} {columns : List (List String)}

/-- The value of an expression over columns of a row depends on that row only. -/
theorem Expression.RowLevel.value_congr {x : Expression} (h : x.RowLevel columns)
    {p q : Place V} (same : p.env = q.env) : x.value engine p = x.value engine q := by
  induction h with
  | atom column =>
    obtain ⟨name, rfl, -⟩ := column
    rw [value_reference, value_reference, same]
  | operator operator _ ih =>
    rw [value_operator operator, value_operator operator, List.map_congr_left ih]

namespace QuerySpecification

variable {query : QuerySpecification}

/-- Every row of a block is what the block selects at some place. -/
theorem exists_output_of_mem_rows {row : List V} (h : row ∈ query.rows engine) :
    ∃ place, row = query.items.flatMap (·.values engine place) := by
  rw [rows, contents_eq] at h
  obtain ⟨keys, hk⟩ := engine.mem_of_mem_arranged h
  have output : (row, keys) ∈ (Place.all (query.keptGroups engine (query.picked engine
      (Relation.product engine query.sources).envs))).map (query.output engine) := by
    rw [outputRows] at hk
    split at hk
    · exact mem_of_mem_eraseDupsBy hk
    · exact hk
  obtain ⟨place, -, he⟩ := List.mem_map.mp output
  exact ⟨place, (Prod.mk.inj he).1.symm⟩

/-- A block that reduces rows without a grouping key has one row, even if it picks no rows. -/
theorem length_rows_of_one_group (groupBy : query.groupBy = []) (grouped : query.isGrouped = true)
    (having : query.having = none) (limit : query.limit = none) (offset : query.offset = none) :
    (query.rows engine).length = 1 := by
  have single (rows : List (Env V)) : ∃ row, query.outputRows engine rows = [row] := by
    have groups : query.keptGroups engine rows = [rows] := by
      rw [keptGroups, QuerySpecification.groups, groupBy, grouped, having]
      simp
    rw [outputRows, groups]
    split
    · exact ⟨_, List.eraseDupsBy_cons⟩
    · exact ⟨_, rfl⟩
  obtain ⟨row, hr⟩ := single (query.picked engine (Relation.product engine query.sources).envs)
  rw [rows, contents_eq, contentsOf, limit, offset, hr]
  rfl

/-- A block that computes everything row by row, from columns of its sources. -/
structure RowWise (query : QuerySpecification) (columns : List (List String)) : Prop where
  groupBy : query.groupBy = []
  having : query.having = none
  limit : query.limit = none
  offset : query.offset = none
  outputs : ∀ x ∈ query.outputs, x.RowLevel columns

/-- A block that computes row by row makes no groups. -/
theorem RowWise.isGrouped (rowWise : query.RowWise columns) : query.isGrouped = false := by
  refine eq_false_of_ne_true fun grouped ↦ ?_
  rcases isGrouped_iff.mp grouped with keys | groups | ⟨i, hi, x, hx, reduces⟩
  · exact keys rowWise.groupBy
  · rw [rowWise.having] at groups
    cases groups
  · rw [(rowWise.outputs x (mem_outputs.mpr (.inl ⟨i, hi, hx⟩))).reduces_eq_false] at reduces
    cases reduces

/-- What a block that computes row by row makes of a row depends on that row only. -/
private theorem RowWise.output_congr (rowWise : query.RowWise columns) {p q : Place V}
    (same : p.env = q.env) : query.output engine p = query.output engine q := by
  have value (x : Expression) (hx : x ∈ query.outputs) : x.value engine p = x.value engine q :=
    (rowWise.outputs x hx).value_congr same
  have item (i : SelectItem) (hi : i ∈ query.items) :
      i.values engine p = i.values engine q := by
    cases i with
    | allColumns relation => rw [SelectItem.values, SelectItem.values, same]
    | column label x =>
      rw [SelectItem.values, SelectItem.values, value x (mem_outputs.mpr (.inl ⟨_, hi, rfl⟩))]
  have keys : SortItem.values engine query.orderBy p = SortItem.values engine query.orderBy q :=
    List.map_congr_left fun k hk ↦ value k.key (mem_outputs.mpr (.inr ⟨k, hk, rfl⟩))
  rw [output, output, keys, List.flatMap_congr item]

/-- A block that computes row by row makes one row of each row that it picks. -/
theorem RowWise.outputRows_eq (rowWise : query.RowWise columns) (rows : List (Env V)) :
    query.outputRows engine rows =
      if query.select.distinct then
        (rows.map fun env ↦ query.output engine (.row env)).eraseDupsBy fun a b ↦ a.1 == b.1
      else rows.map fun env ↦ query.output engine (.row env) := by
  have groups : query.keptGroups engine rows = rows.map ([·]) := by
    rw [keptGroups, QuerySpecification.groups, rowWise.groupBy, rowWise.isGrouped, rowWise.having]
    simp
  have outputs : (Place.all (rows.map ([·]))).map (query.output engine) =
      rows.map fun env ↦ query.output engine (.row env) := by
    conv_rhs => rw [← Place.map_env_all rows, List.map_map]
    exact List.map_congr_left fun p _ ↦ rowWise.output_congr rfl
  rw [outputRows, groups, outputs]

/-- The rows of a block that computes row by row. -/
theorem RowWise.rows_eq
    (rowWise : query.RowWise (Relation.product engine query.sources).columns) :
    query.rows engine = engine.arranged query.orderBy none none (query.outputRows engine
      (query.picked engine (Relation.product engine query.sources).envs)) := by
  rw [rows, contents_eq, contentsOf, rowWise.limit, rowWise.offset]

/-- A further condition of a block that computes row by row, which on each row agrees with a
condition on what the block makes of it, picks the rows of the block for which that holds. -/
theorem RowWise.rows_of_filter
    (rowWise : query.RowWise (Relation.product engine query.sources).columns)
    {filter : Option Expression} {p : List V → Bool}
    (agree : ∀ env, (filter.all fun x ↦ engine.holds (x.value engine (.row env))) =
      ((query.filter.all fun x ↦ engine.holds (x.value engine (.row env))) &&
        p (query.output engine (.row env)).1)) :
    QuerySpecification.rows engine { query with filter := filter } =
      (query.rows engine).filter p := by
  let narrowed : QuerySpecification := { query with filter := filter }
  have other : narrowed.RowWise (Relation.product engine narrowed.sources).columns :=
    ⟨rowWise.groupBy, rowWise.having, rowWise.limit, rowWise.offset, rowWise.outputs⟩
  have picked (rows : List (Env V)) : narrowed.picked engine rows =
      (query.picked engine rows).filter fun env ↦ p (query.output engine (.row env)).1 := by
    rw [QuerySpecification.picked, QuerySpecification.picked, List.filter_filter]
    exact List.filter_congr fun env _ ↦ (agree env).trans (Bool.and_comm ..)
  have outputs (rows : List (Env V)) :
      narrowed.outputRows engine (rows.filter fun env ↦ p (query.output engine (.row env)).1) =
        (query.outputRows engine rows).filter fun row ↦ p row.1 := by
    rw [other.outputRows_eq, rowWise.outputRows_eq]
    change (if query.select.distinct then _ else _) = _
    have first : (rows.map fun env ↦ query.output engine (.row env)).filter (fun row ↦ p row.1) =
        (rows.filter fun env ↦ p (query.output engine (.row env)).1).map fun env ↦
          query.output engine (.row env) := List.filter_map
    split
    -- Rows that are the same agree on the condition, so that it may also be asked of each of them.
    · rw [filter_eraseDupsBy _ _ fun a b same ↦ congrArg p (beq_iff_eq.mp same), first]
      rfl
    · exact first.symm
  rw [rowWise.rows_eq, Engine.filter_arranged, ← outputs, ← picked]
  exact other.rows_eq

end QuerySpecification

end FrameQuery.Sql
