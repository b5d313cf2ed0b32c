import FrameQuery.Proofs.Outcome
import FrameQuery.Proofs.Text.Quoting
import FrameQuery.Sql.SubQuery
import Mathlib.Data.List.Nodup
import Mathlib.Data.Option.Basic

/-!
# Labels of select lists

`Selects` says that a select list is made of columns labelled with given names, in order. Such a
list can be wrapped, wrapping keeps it, and the column under a name is found exactly for the names
it has.
-/

namespace FrameQuery.Sql

/-- Labels can be required of a list exactly when all of its entries have them. -/
theorem requiredLabels_eq_ok {items : List SelectItem} {labels : List String} :
    requiredLabels items = .ok labels ↔ items.map (·.label?) = labels.map some := by
  induction items generalizing labels with
  | nil =>
    cases labels with
    | nil => simp [requiredLabels]
    | cons label labels => simp [requiredLabels]
  | cons item rest ih =>
    rw [requiredLabels, Outcome.bind_eq_ok, List.map_cons]
    simp only [Outcome.bind_eq_ok, Outcome.pure_eq_ok, ih]
    constructor
    · rintro ⟨label, hl, labels, hr, rfl⟩
      rw [List.map_cons, hr]
      cases item with
      | allColumns relation => simp [SelectItem.requiredLabel, fail] at hl
      | column found expression =>
        cases found with
        | none => simp [SelectItem.requiredLabel, fail] at hl
        | some found => rw [← Except.ok.inj hl]; rfl
    · intro h
      cases labels with
      | nil => simp at h
      | cons label labels =>
        rw [List.map_cons, List.cons.injEq] at h
        refine ⟨label, ?_, labels, h.2, rfl⟩
        cases item with
        | allColumns relation => simp [SelectItem.label?] at h
        | column found expression => rw [SelectItem.label?] at h; rw [h.1]; rfl

namespace SelectItem

/-- An entry with a label is a column. -/
theorem eq_column_of_label? {item : SelectItem} {label : String}
    (h : item.label? = some label) : ∃ expression, item = .column (some label) expression := by
  cases item with
  | allColumns relation => simp [label?] at h
  | column found expression => rw [label?] at h; exact ⟨expression, by rw [h]⟩

/-- What is found in an entry under a label is what it selects under it. -/
theorem labelled?_eq_some {item : SelectItem} {label : String} {expression : Expression} :
    item.labelled? label = some expression ↔ item = .column (some label) expression := by
  cases item with
  | allColumns relation => simp [labelled?]
  | column found value =>
    cases found with
    | none => simp [labelled?]
    | some found => simp [labelled?]

end SelectItem

namespace SubQuery

/-- The columns of a sub-query are selected under their own labels. -/
theorem map_label?_items (sub : SubQuery) (columns : List String) :
    (sub.items columns).map (·.label?) = columns.map some := by
  rw [items, List.map_map]
  rfl

end SubQuery

namespace QuerySpecification

/-- The select list has exactly these names as labels, in this order. -/
def Selects (query : QuerySpecification) (d : Dialect) (names : List String) : Prop :=
  query.items.map (·.label?) = (names.map d.quoted).map some

variable {query result : QuerySpecification} {d : Dialect} {name : String} {names : List String}

/-- A query block can be wrapped exactly when its select list is labelled; the labels become the
columns of the sub-query. -/
theorem named_eq_ok {sub : SubQuery} :
    query.named d name = .ok sub ↔
      query.items.map (·.label?) = sub.columns.map some ∧
        sub = ⟨query, d.quoted name, sub.columns⟩ := by
  unfold named columns
  simp only [Outcome.bind_eq_ok, Outcome.pure_eq_ok, requiredLabels_eq_ok]
  constructor
  · rintro ⟨labels, hl, rfl⟩
    exact ⟨hl, rfl⟩
  · rintro ⟨hl, he⟩
    exact ⟨sub.columns, hl, he.symm⟩

/-- A wrapped query block selects all columns of the sub-query. -/
theorem wrapped_none_eq_ok :
    query.wrapped d name none = .ok result ↔
      ∃ sub, query.named d name = .ok sub ∧ result = sub.all := by
  unfold wrapped
  simp only [Outcome.bind_eq_ok, Outcome.pure_eq_ok, eq_comm (b := result)]
  rfl

/-- A query block wrapped to retain some columns selects those of them that it has. -/
theorem wrapped_some_eq_ok {retain : List String} (ne : retain ≠ []) :
    query.wrapped d name (some retain) = .ok result ↔
      ∃ sub, query.named d name = .ok sub ∧
        result = .plain (sub.items (retain.filter sub.columns.contains)) [sub.relation] := by
  cases retain with
  | nil => exact absurd rfl ne
  | cons first rest =>
    unfold wrapped
    simp only [Outcome.bind_eq_ok, Outcome.pure_eq_ok, eq_comm (b := result)]

/-- The columns of a wrapped query are its names between quotes. -/
theorem Selects.named_columns (h : query.Selects d names) {sub : SubQuery}
    (made : query.named d name = .ok sub) : sub.columns = names.map d.quoted := by
  have hl := (named_eq_ok.mp made).1
  rw [h] at hl
  exact (List.map_injective_iff.mpr (Option.some_injective _) hl).symm

/-- A query with labels can be wrapped. -/
theorem Selects.named (h : query.Selects d names) (name : String) :
    query.named d name = .ok ⟨query, d.quoted name, names.map d.quoted⟩ := by
  rw [named_eq_ok]
  exact ⟨h, rfl⟩

/-- All columns of a wrapped query have the labels of the query. -/
theorem Selects.all (h : query.Selects d names) {sub : SubQuery}
    (made : query.named d name = .ok sub) : sub.all.Selects d names := by
  show (sub.items sub.columns).map _ = _
  rw [SubQuery.map_label?_items, h.named_columns made]

/-- A block with its own entries is the block. -/
theorem withItems_items : query.withItems query.items = query := by
  obtain ⟨⟨distinct, items⟩, _⟩ := query
  rfl

/-- Under its quoted name a query selects what one of its entries selects under it. -/
theorem mem_items_of_findColumn? {label : String} {expression : Expression}
    (h : query.findColumn? label = some expression) :
    .column (some label) expression ∈ query.items := by
  obtain ⟨item, hm, he⟩ := List.exists_of_findSome?_eq_some h
  rwa [← SelectItem.labelled?_eq_some.mp he]

/-- Something is selected under every name of a query. -/
theorem Selects.findColumn? (h : query.Selects d names) (hm : name ∈ names) :
    ∃ expression, query.findColumn? (d.quoted name) = some expression := by
  have hl : some (d.quoted name) ∈ query.items.map (·.label?) := by
    rw [h]
    exact List.mem_map_of_mem (List.mem_map_of_mem hm)
  obtain ⟨item, hi, he⟩ := List.mem_map.mp hl
  obtain ⟨expression, rfl⟩ := SelectItem.eq_column_of_label? he
  rw [← Option.isSome_iff_exists, QuerySpecification.findColumn?, List.findSome?_isSome_iff]
  exact ⟨_, hi, by simp [SelectItem.labelled?]⟩

end QuerySpecification

end FrameQuery.Sql
