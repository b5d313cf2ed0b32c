import FrameQuery.Proofs.Rows.Conditions
import FrameQuery.Proofs.Rows.Ranges
import FrameQuery.Proofs.Rows.Wrapping

/-!
# Rows under the names of columns

Closures read the rows of a frame under the names of its columns. A query that selects these names
computes, wherever it makes a row, what closures read of that row; so its select list can be spoken
of through its rows alone. Two blocks that make their rows at the same places are compared row by
row.
-/

namespace FrameQuery

open Sql (Dialect Engine Expression Place QuerySpecification Relation SelectItem SortItem SubQuery)

variable {V : Type}

/-! ### Reading rows -/

/-- What closures read of a row under the names of its columns. -/
def rowReader (engine : Engine V) (names : List String) (row : List V) (_ : RowVar)
    (name : String) : V :=
  ((names.zip row).lookup name).getD engine.null

variable {engine : Engine V} {d : Dialect} {names : List String} {v : RowVar}

/-- A row is read column by column. -/
theorem map_rowReader (nodup : names.Nodup) {row : List V} (width : row.length = names.length) :
    names.map (rowReader engine names row v) = row :=
  Sql.map_lookup_zip nodup width engine.null

namespace Sql.QuerySpecification

variable [DecidableEq V] {query other : QuerySpecification} {place : Place V}

/-- Under the quoted name of a column a query has what closures read of its rows. -/
theorem Selects.readRow_eq (selects : query.Selects d names) (row : List V) (name : String) :
    query.readRow engine row (d.quoted name) = rowReader engine names row v name := by
  rw [readRow_eq_lookup selects, lookup_zip_map fun _ _ ↦ Dialect.quoted_inj.mp, rowReader]

/-- What a query selects under a name has the value that is read of the row. -/
theorem Selects.value_eq (selects : query.Selects d names) {name : String} {x : Expression}
    (found : query.findColumn? (d.quoted name) = some x) :
    x.value engine place = rowReader engine names (query.output engine place).1 v name := by
  rw [← selects.readRow_eq, readRow_output selects found]

/-- An expression over rows, written over a query, has the value that it has on the row. -/
theorem Selects.value_toSql (selects : query.Selects d names) {e : Expr} {x : Expression}
    (plain : e.OfRows) (made : e.toSql (.single d query) = .ok x) :
    x.value engine place =
      e.value engine (rowReader engine names (query.output engine place).1) := by
  refine Expr.value_toSql made plain fun column _ z hz ↦ ?_
  exact selects.value_eq (Scope.resolve_single.mp hz).2

/-- Among different labels each label stands for the entry that has it. -/
theorem findColumn?_of_mem (nodup : (query.items.map (·.label?)).Nodup) {label : String}
    {x : Expression} (h : .column (some label) x ∈ query.items) :
    query.findColumn? label = some x := by
  rw [findColumn?]
  generalize query.items = items at nodup h ⊢
  induction items with
  | nil => cases h
  | cons item items ih =>
    rw [List.map_cons, List.nodup_cons] at nodup
    rw [List.findSome?_cons]
    rcases List.mem_cons.mp h with rfl | h
    · rw [SelectItem.labelled?_eq_some.mpr rfl]
    · cases hl : item.labelled? label with
      | none => exact ih nodup.2 h
      | some y =>
        rw [SelectItem.labelled?_eq_some.mp hl] at nodup
        exact absurd (List.mem_map_of_mem (f := (·.label?)) h) nodup.1

/-- Names that are different have different labels. -/
theorem Selects.nodup_labels (selects : query.Selects d names) (nodup : names.Nodup) :
    (query.items.map (·.label?)).Nodup := by
  rw [selects]
  exact (nodup.map fun _ _ ↦ Dialect.quoted_inj.mp).map (Option.some_injective _)

/-- Entries of a select list that have some of its names select what is read of the row under these
names. -/
theorem Selects.values_of_subset (selects : query.Selects d names) (nodup : names.Nodup)
    {kept : List SelectItem} {retained : List String} (known : kept ⊆ query.items)
    (labelled : kept.map (·.label?) = (retained.map d.quoted).map some) :
    kept.flatMap (·.values engine place) =
      retained.map (rowReader engine names (query.output engine place).1 v) := by
  induction kept generalizing retained with
  | nil =>
    rw [List.map_nil, eq_comm, List.map_eq_nil_iff, List.map_eq_nil_iff] at labelled
    rw [labelled]
    rfl
  | cons item kept ih =>
    cases retained with
    | nil => cases labelled
    | cons name retained =>
      obtain ⟨first, others⟩ := List.cons.inj labelled
      obtain ⟨hi, hk⟩ := List.cons_subset.mp known
      obtain ⟨x, rfl⟩ := SelectItem.eq_column_of_label? first
      have found := findColumn?_of_mem (selects.nodup_labels nodup) hi
      rw [List.flatMap_cons, ih hk others, List.map_cons, ← selects.value_eq found]
      rfl

/-- Entries that select expressions have the values of these. -/
theorem values_of_expressions {keys : List Expression} {kept : List SelectItem}
    (selected : kept.map (·.expression?) = keys.map some) :
    kept.flatMap (·.values engine place) = keys.map (·.value engine place) := by
  induction kept generalizing keys with
  | nil =>
    rw [List.map_nil, eq_comm, List.map_eq_nil_iff] at selected
    rw [selected]
    rfl
  | cons item kept ih =>
    cases keys with
    | nil => cases selected
    | cons key keys =>
      obtain ⟨first, others⟩ := List.cons.inj selected
      cases item with
      | allColumns => cases first
      | column label x =>
        rw [List.flatMap_cons, ih others, List.map_cons, ← Option.some.inj first]
        rfl

/-- Entries that are made one by one, and each select one value, select the list of these values. -/
theorem flatMap_values {α : Type} {R : α → SelectItem → Prop} {new : List α}
    {items : List SelectItem} {f : α → V} (made : List.Forall₂ R new items)
    (each : ∀ n ∈ new, ∀ i, R n i → i.values engine place = [f n]) :
    items.flatMap (·.values engine place) = new.map f := by
  induction made with
  | nil => rfl
  | @cons n i new items hi _ ih =>
    obtain ⟨first, others⟩ := List.forall_mem_cons.mp each
    rw [List.flatMap_cons, List.map_cons, first i hi, ih others]
    rfl

/-! ### Places -/

/-- Where a query block makes its rows. -/
def places (engine : Engine V) (query : QuerySpecification) : List (Place V) :=
  Place.all (query.keptGroups engine (query.picked engine
    (Relation.product engine query.sources).envs))

omit [DecidableEq V] in
/-- A block that makes no groups has neither grouping keys nor a condition on groups. -/
theorem clauses_of_ungrouped (ungrouped : query.isGrouped = false) :
    query.groupBy = [] ∧ query.having = none := by
  rw [isGrouped, Bool.or_eq_false_iff, Bool.or_eq_false_iff] at ungrouped
  simpa using ungrouped.1

/-- A block that makes no groups makes its rows at the rows that it picks. -/
theorem map_env_places (ungrouped : query.isGrouped = false) :
    (query.places engine).map Place.env =
      query.picked engine (Relation.product engine query.sources).envs := by
  obtain ⟨keys, having⟩ := clauses_of_ungrouped ungrouped
  rw [places, keptGroups, groups, keys, having, ungrouped]
  simp [Place.map_env_all]

/-- The rows of a block are what it selects at its places. -/
theorem rows_eq_arranged : query.rows engine =
    engine.arranged query.orderBy query.limit query.offset
      (if query.select.distinct then
        ((query.places engine).map (query.output engine)).eraseDupsBy fun a b ↦ a.1 == b.1
      else (query.places engine).map (query.output engine)) := by
  rw [rows, contents_eq]
  rfl

/-- What a block selects at all of its places, before rows are kept once, sorted and cut to a
range. -/
def seen (engine : Engine V) (query : QuerySpecification) : List (List V) :=
  (query.places engine).map fun p ↦ (query.output engine p).1

/-- What a block selects at its places, each row once if the rows are to be distinct. -/
def selections (engine : Engine V) (query : QuerySpecification) : List (List V) :=
  if query.select.distinct then (query.seen engine).eraseDups else query.seen engine

/-- A block puts its selections in order and cuts them to a range. -/
private theorem map_outputs :
    (if query.select.distinct then
      ((query.places engine).map (query.output engine)).eraseDupsBy fun a b ↦ a.1 == b.1
      else (query.places engine).map (query.output engine)).map (·.1) =
        query.selections engine := by
  have each : ((query.places engine).map (query.output engine)).map (·.1) =
      query.seen engine := List.map_map
  rw [selections]
  split
  · rw [← each]
    exact (map_eraseDupsBy (fun _ _ ↦ rfl) _).symm
  · exact each

/-- The rows of a block without a range are its selections, in some order. -/
theorem perm_selections (limit : query.limit = none) (offset : query.offset = none) :
    (query.rows engine).Perm (query.selections engine) := by
  rw [rows_eq_arranged, limit, offset, ← map_outputs]
  exact engine.perm_arranged ..

/-- The rows of a block without an order are its selections, cut to its range. -/
theorem rows_eq_ranged_selections (orderBy : query.orderBy = []) : query.rows engine =
    engine.ranged query.limit query.offset (query.selections engine) := by
  rw [rows_eq_arranged, orderBy, Engine.arranged_eq, SortItem.orderings, List.map_nil,
    engine.sorted_nil, map_outputs]

/-- The rows of a block without an order and a range are its selections. -/
theorem rows_eq_selections (orderBy : query.orderBy = []) (limit : query.limit = none)
    (offset : query.offset = none) : query.rows engine = query.selections engine := by
  rw [rows_eq_ranged_selections orderBy, limit, offset]
  rfl

/-- The rows of a block that keeps them all, without an order and a range, are what it selects at
its places. -/
theorem rows_eq_seen (all : query.select.distinct = false) (orderBy : query.orderBy = [])
    (limit : query.limit = none) (offset : query.offset = none) :
    query.rows engine = query.seen engine := by
  rw [rows_eq_selections orderBy limit offset, selections, all]
  rfl

/-- Blocks that pick the same rows and group them alike make their rows at the same places. -/
theorem places_congr (sources : other.sources = query.sources)
    (filter : other.filter = query.filter) (groupBy : other.groupBy = query.groupBy)
    (having : other.having = query.having)
    (grouped : other.isGrouped = query.isGrouped) :
    other.places engine = query.places engine := by
  have keys : other.groupKeys engine = query.groupKeys engine := by
    funext env
    rw [groupKeys, groupKeys, groupBy]
  have picked : other.picked engine = query.picked engine := by
    funext rows
    rw [QuerySpecification.picked, QuerySpecification.picked, filter]
  rw [places, places, keptGroups, keptGroups, groups, groups, sources, picked, keys, groupBy,
    having, grouped]

/-- A block whose rows are computed from those of another one, at the same places and with the same
sort keys, has the rows computed from those of the other one. Where rows are kept once, different
rows have to be computed from different ones. -/
theorem rows_map {f : List V → List V} (places : other.places engine = query.places engine)
    (distinct : other.select.distinct = query.select.distinct)
    (orderBy : other.orderBy = query.orderBy) (limit : other.limit = query.limit)
    (offset : other.offset = query.offset)
    (apart : query.select.distinct = true → Function.Injective f)
    (values : ∀ p ∈ query.places engine, other.items.flatMap (·.values engine p) =
      f (query.output engine p).1) :
    other.rows engine = (query.rows engine).map f := by
  have outputs : (query.places engine).map (other.output engine) =
      ((query.places engine).map (query.output engine)).map fun row ↦ (f row.1, row.2) := by
    rw [List.map_map]
    refine List.map_congr_left fun p hp ↦ ?_
    rw [output, values p hp, orderBy]
    rfl
  rw [rows_eq_arranged, rows_eq_arranged, Engine.map_arranged, places, distinct, orderBy, limit,
    offset, outputs]
  split
  · next kept =>
    refine congrArg _ (map_eraseDupsBy (fun a b ↦ ?_) _)
    rw [Bool.eq_iff_iff, beq_iff_eq, beq_iff_eq, (apart kept).eq_iff]
  · rfl

end Sql.QuerySpecification

end FrameQuery
