import FrameQuery.Proofs.Rows.Aggregates

/-!
# Groups of rows

Grouping some rows makes one row for each tuple of values that they have in the grouping columns,
with aggregates of the rows that share it. A query block makes its groups of the rows that it picks,
before anything else is computed of them; so its keys have to be over columns of these rows, and
what it selects and sorts by has to be computed of groups.
-/

namespace FrameQuery

open Sql (Dialect Engine Env Expression Place QuerySpecification Relation SelectItem)

variable {V : Type} [DecidableEq V] {engine : Engine V} {d : Dialect}
  {query : QuerySpecification} {names grouping : List String}
  {aggregates : List ComputedColumn}

/-- What grouping some rows by columns makes of them, read under names: for each tuple of values of
the columns that some of the rows have, the tuple and aggregates of the rows that have it. Without a
column there is one group of all rows. -/
def groupRows (engine : Engine V) (names grouping : List String) (aggregates : List ComputedColumn)
    (rows : List (List V)) : List (List V) :=
  let key (row : List V) := grouping.map (rowReader engine names row .right)
  let groups := if grouping.isEmpty then [([], rows)] else
    (rows.map key).eraseDups.map fun values ↦ (values, rows.filter fun row ↦ key row = values)
  groups.map fun (values, members) ↦
    values ++ aggregates.map fun c ↦ c.valueOver engine names members (members.headD [])

section

variable {rows : List (List V)}

/-- Without a column there is one group of all rows. -/
theorem groupRows_nil : groupRows engine names [] aggregates rows =
    [aggregates.map fun c ↦ c.valueOver engine names rows (rows.headD [])] := rfl

/-- There is a group for each tuple of values of the columns. -/
theorem groupRows_of_ne_nil (ne : grouping ≠ []) : groupRows engine names grouping aggregates rows =
    (rows.map fun row ↦ grouping.map (rowReader engine names row .right)).eraseDups.map fun values ↦
      let members := rows.filter fun row ↦ grouping.map (rowReader engine names row .right) = values
      values ++ aggregates.map fun c ↦ c.valueOver engine names members (members.headD []) := by
  simp only [groupRows, List.isEmpty_eq_false_iff.mpr ne, Bool.false_eq_true, if_false,
    List.map_map]
  rfl

end

/-! ### Aggregates of groups -/

namespace Sql.Expression

variable {columns : List (List String)} {keys : List Expression} {x : Expression}

/-- What is computed of a group without keys is computed of any group. -/
theorem GroupLevel.of_nil (h : x.GroupLevel columns []) : x.GroupLevel columns keys :=
  h.bind fun _ hy ↦ .atom (hy.imp_left (absurd · List.not_mem_nil))

/-- An aggregate is computed of groups with keys over columns exactly if its operands are over
columns. -/
theorem groupLevel_iff_of_isAggregate (level : ∀ key ∈ keys, key.RowLevel columns)
    (aggregate : x.isAggregate = true) :
    x.GroupLevel columns keys ↔ ∀ y ∈ x.operands, y.RowLevel columns := by
  have other : x.isOperator = false := by
    cases x with
    | extension function => simp [isOperator, aggregate]
    | _ => cases aggregate
  constructor
  · intro h
    rcases h.of_not_operator other with key | ⟨-, operands⟩
    · exact absurd (level x key) (not_rowLevel_of_isAggregate aggregate)
    · exact operands
  · exact fun operands ↦ .atom (.inr ⟨aggregate, operands⟩)

end Sql.Expression

/-! ### Groups -/

/-- The group of a key that something has is not empty. -/
theorem exists_first_of_group {α β : Type} [BEq β] [LawfulBEq β] [DecidableEq β]
    {key : α → β} {as : List α} {b : β}
    (h : b ∈ (as.map key).eraseDups) :
    ∃ first rest, (as.filter fun a ↦ key a = b) = first :: rest ∧ key first = b := by
  obtain ⟨a, ha, has⟩ := List.mem_map.mp (List.mem_eraseDups.mp h)
  have known : a ∈ as.filter fun a ↦ key a = b := List.mem_filter.mpr ⟨ha, decide_eq_true has⟩
  obtain ⟨first, rest, members⟩ := List.exists_cons_of_ne_nil (List.ne_nil_of_mem known)
  have kept : first ∈ as.filter fun a ↦ key a = b := members ▸ List.mem_cons_self
  exact ⟨first, rest, members, of_decide_eq_true (List.mem_filter.mp kept).2⟩

omit [DecidableEq V] in
/-- What depends on the groups of places only is computed group by group. -/
theorem Sql.Place.map_all {α β : Type} {groups : List (List (Env V))} {members : List α}
    {group : α → List (Env V)} {f : Place V → β} {g : α → β} (made : groups = members.map group)
    (same : ∀ m ∈ members, ∀ p : Place V, p.group = group m → f p = g m) :
    (Place.all groups).map f = members.map g := by
  refine List.ext_getElem (by simp [all, made]) fun i hi hj ↦ ?_
  have bound : i < members.length := by simpa using hj
  rw [List.getElem_map, List.getElem_map]
  refine same _ (List.getElem_mem bound) _ ?_
  simp [all, made, Place.group, bound]

namespace Sql.QuerySpecification

/-- A block that groups its rows by keys. -/
def groupedBy (query : QuerySpecification) (keys : List Expression) (items : List SelectItem) :
    QuerySpecification :=
  { query.withItems items with groupBy := keys }

/-- A valid block that selects and sorts by nothing but what is computed of its groups before
functions are called over windows. -/
def ValidOverGroups (engine : Engine V) (query : QuerySpecification) : Prop :=
  query.Valid engine ∧ ∀ x ∈ query.outputs,
    x.GroupLevel (Relation.product engine query.sources).columns query.groupBy

variable {keys : List Expression} {kept items : List SelectItem}

/-- A block that makes no groups, grouped by keys, makes its rows at the groups of its rows. -/
theorem places_groupedBy (ungrouped : query.isGrouped = false) :
    (query.groupedBy keys items).places engine = Place.all
      ((query.groupedBy keys items).groups engine ((query.places engine).map Place.env)) := by
  have having : (query.groupedBy keys items).having = none := (clauses_of_ungrouped ungrouped).2
  rw [map_env_places ungrouped, places, keptGroups, having]
  exact congrArg Place.all (List.filter_eq_self.mpr fun _ _ ↦ rfl)

/-- The rows of places are grouped by what keys make of them. -/
theorem groups_of_ne_nil (ne : keys ≠ []) {places : List (Place V)} {key : Place V → List V}
    (same : ∀ p ∈ places, keys.map (·.value engine (.row p.env)) = key p) :
    (query.groupedBy keys items).groups engine (places.map Place.env) =
      (places.map key).eraseDups.map fun values ↦
        (places.filter fun p ↦ key p = values).map Place.env := by
  have keyed : (!(query.groupedBy keys items).groupBy.isEmpty) = true := by
    rw [Bool.not_eq_true', List.isEmpty_eq_false_iff]
    exact ne
  have each (p : Place V) (hp : p ∈ places) :
      (query.groupedBy keys items).groupKeys engine p.env = key p := same p hp
  rw [groups, if_pos keyed, List.map_map]
  refine congrArg₂ (fun f values ↦ List.map f (List.eraseDups values)) (funext fun values ↦ ?_)
    (List.map_congr_left each)
  rw [List.filter_map]
  refine congrArg _ (List.filter_congr fun p hp ↦ ?_)
  rw [Function.comp_apply, each p hp]

/-- Without keys the rows of a block that reduces them are one group. -/
theorem groups_of_nil (grouped : (query.groupedBy [] items).isGrouped = true)
    (rows : List (Env V)) : (query.groupedBy [] items).groups engine rows = [rows] := by
  rw [groups, grouped]
  rfl

omit [DecidableEq V] in
/-- Entries that have the names of the keys select the keys. -/
theorem Selects.expressions_of_keys (selects : query.Selects d names) (nodup : names.Nodup)
    (resolved : List.Forall₂ (fun n x ↦ query.findColumn? (d.quoted n) = some x) grouping keys)
    (fewer : kept ⊆ query.items)
    (labelled : kept.map (·.label?) = (grouping.map d.quoted).map some) :
    kept.map (·.expression?) = keys.map some := by
  induction resolved generalizing kept with
  | nil =>
    rw [List.map_nil, List.map_nil, List.map_eq_nil_iff] at labelled
    rw [labelled]
    rfl
  | @cons name key grouping keys found _ ih =>
    cases kept with
    | nil => cases labelled
    | cons item kept =>
      obtain ⟨first, others⟩ := List.cons.inj labelled
      obtain ⟨hi, hk⟩ := List.cons_subset.mp fewer
      obtain ⟨x, rfl⟩ := SelectItem.eq_column_of_label? first
      have known := findColumn?_of_mem (selects.nodup_labels nodup) hi
      rw [found] at known
      rw [List.map_cons, List.map_cons, ih hk others, Option.some.inj known]
      rfl

omit [DecidableEq V] in
/-- A block that groups by keys and selects them with other entries computes the keys, these
entries, and what it sorts by. -/
theorem mem_outputs_groupedBy (selected : kept.map (·.expression?) = keys.map some)
    {x : Expression} : x ∈ (query.groupedBy keys (kept ++ items)).outputs ↔
      x ∈ keys ∨ (∃ i ∈ items, i.expression? = some x) ∨ ∃ k ∈ query.orderBy, k.key = x := by
  have key : (∃ i ∈ kept, i.expression? = some x) ↔ x ∈ keys := by
    rw [← List.mem_map, selected, List.mem_map_of_injective (Option.some_injective _)]
  have entries : (query.groupedBy keys (kept ++ items)).items = kept ++ items := rfl
  have order : (query.groupedBy keys (kept ++ items)).orderBy = query.orderBy := rfl
  rw [mem_outputs, entries, order, ← key]
  simp only [List.mem_append, or_and_right, exists_or, or_assoc]

/-- A valid block without groups and distinct rows, which groups its rows by keys and aggregates
them, is valid exactly if the keys are over columns of a row and everything else is computed of
groups. -/
theorem validOverGroups_iff (valid : query.Valid engine) (ungrouped : query.groupBy = [])
    (distinct : query.select.distinct = false)
    (selected : kept.map (·.expression?) = keys.map some)
    (listed : ∀ relation, SelectItem.allColumns relation ∉ items)
    (reduces : ∃ i ∈ items, ∃ x, i.expression? = some x ∧ x.reduces = true) :
    (query.groupedBy keys (kept ++ items)).ValidOverGroups engine ↔
      (∀ x ∈ keys, x.RowLevel (Relation.product engine query.sources).columns) ∧
      (∀ i ∈ items, ∀ x, i.expression? = some x →
        x.GroupLevel (Relation.product engine query.sources).columns keys) ∧
      ∀ k ∈ query.orderBy,
        k.key.GroupLevel (Relation.product engine query.sources).columns keys := by
  obtain ⟨legal, sources⟩ := valid_iff.mp valid
  have outputs {x : Expression} : x ∈ (query.groupedBy keys (kept ++ items)).outputs ↔
      x ∈ keys ∨ (∃ i ∈ items, i.expression? = some x) ∨ ∃ k ∈ query.orderBy, k.key = x :=
    mem_outputs_groupedBy selected
  constructor
  · rintro ⟨valid, level⟩
    exact ⟨(valid_iff.mp valid).1.groupBy,
      fun i hi x hx ↦ level x (outputs.mpr (.inr (.inl ⟨i, hi, hx⟩))),
      fun k hk ↦ level k.key (outputs.mpr (.inr (.inr ⟨k, hk, rfl⟩)))⟩
  · rintro ⟨key, entry, order⟩
    have level (x : Expression) (hx : x ∈ (query.groupedBy keys (kept ++ items)).outputs) :
        x.GroupLevel (Relation.product engine query.sources).columns keys := by
      rcases outputs.mp hx with hx | ⟨i, hi, he⟩ | ⟨k, hk, rfl⟩
      · exact .atom (.inl hx)
      · exact entry i hi x he
      · exact order k hk
    have grouped : (query.groupedBy keys (kept ++ items)).isGrouped = true := by
      obtain ⟨i, hi, x, hx, h⟩ := reduces
      exact isGrouped_iff.mpr (.inr (.inr ⟨i, List.mem_append_right _ hi, x, hx, h⟩))
    refine ⟨valid_iff.mpr ⟨⟨legal.filter, key, fun x hx ↦ ?_, fun x hx ↦ ?_, fun _ relation hm ↦ ?_,
      fun h ↦ ?_, legal.limit, legal.offset⟩, sources⟩, level⟩
    · have having := legal.having x hx
      rw [ungrouped] at having
      exact having.of_nil
    · rw [Level, grouped]
      exact .atom (.inl (level x hx))
    · rcases List.mem_append.mp hm with hm | hm
      · have none := List.mem_map_of_mem (f := (·.expression?)) hm
        rw [selected] at none
        obtain ⟨x, -, he⟩ := List.mem_map.mp none
        cases he
      · exact listed relation hm
    · have none : (query.groupedBy keys (kept ++ items)).select.distinct = false := distinct
      rw [none] at h
      cases h

end Sql.QuerySpecification

end FrameQuery
