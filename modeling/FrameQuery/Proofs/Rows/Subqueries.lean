import FrameQuery.Proofs.Rows.Filtering

/-!
# What wrapping keeps

A query block whose entries have different labels can be wrapped under any name. All columns of the
sub-query are those of the block, with the same rows in the same order, whatever clauses the block
has; where only some columns are retained, each row is restricted to them. Nothing else is asked of
the rows, so that further clauses can be added.
-/

namespace FrameQuery.Sql

variable {V : Type} [DecidableEq V] {engine : Engine V}

/-- A block that takes the rows of its sources as they are. -/
structure QuerySpecification.TakesAllRows (query : QuerySpecification) : Prop where
  filter : query.filter = none
  has : ∀ clause, query.has clause = false

/-- A block of a select list and sources only takes all rows. -/
theorem QuerySpecification.takesAllRows_plain (items : List SelectItem) (sources : List Relation) :
    (plain items sources).TakesAllRows :=
  ⟨rfl, fun clause ↦ by cases clause <;> rfl⟩

namespace SubQuery

variable {sub : SubQuery} {chosen : List String}
  (labelled : sub.query.items.map (·.label?) = sub.columns.map some) (nodup : sub.columns.Nodup)
  (known : chosen ⊆ sub.columns)

include labelled nodup known

/-- Columns of a sub-query are the rows of its query, restricted to the columns. -/
theorem contents_chosen :
    (QuerySpecification.plain (sub.items chosen) [sub.relation]).contents engine =
      ⟨chosen.map ([·]), (sub.query.rows engine).map fun row ↦
        chosen.map (sub.query.readRow engine row)⟩ := by
  have injective : Function.Injective fun column : String ↦ (sub.correlation, column) :=
    fun _ _ h ↦ (Prod.mk.inj h).2
  have columns : ((QuerySpecification.plain (sub.items chosen) [sub.relation]).contents
      engine).columns = chosen.map ([·]) :=
    QuerySpecification.columns_of_labels (sub.map_label?_items chosen)
  have rows : (QuerySpecification.plain (sub.items chosen) [sub.relation]).rows engine =
      (sub.query.rows engine).map fun row ↦ chosen.map (sub.query.readRow engine row) := by
    rw [plain_items_eq_allOf,
      (hasColumns labelled nodup).rows_chosen (List.map_subset _ known), contents_relation labelled]
    refine List.map_congr_left fun row _ ↦ ?_
    rw [List.map_map]
    refine List.map_congr_left fun label _ ↦ ?_
    rw [QuerySpecification.readRow_eq_lookup labelled, Function.comp_apply, names,
      lookup_zip_map injective]
  rw [← columns, ← rows]
  rfl

/-- Columns of a sub-query make a valid query if its query is valid. -/
theorem valid_chosen (valid : sub.query.Valid engine) :
    (QuerySpecification.plain (sub.items chosen) [sub.relation]).Valid engine := by
  rw [plain_items_eq_allOf]
  exact (hasColumns labelled nodup).valid_chosen (List.map_subset _ known)
    (valid_relation labelled valid)

end SubQuery

namespace QuerySpecification

variable {query : QuerySpecification} {labels : List String}

/-- A query block whose entries have different labels can be wrapped under any name. Without columns
to retain, this keeps the columns and the rows of the block, both in their order; otherwise it
restricts the rows to those columns to retain that the block has, in the order in which they are
given. The block around the sub-query has no condition and none of the other clauses, and is valid
if the query is. -/
theorem wrapped_contents (engine : Engine V) (d : Dialect) (name : String)
    (labelled : query.items.map (·.label?) = labels.map some) (nodup : labels.Nodup) :
    (∀ retain : Option (List String), retain.getD [] = [] →
      ∃ result, query.wrapped d name retain = .ok result ∧
        result.contents engine = query.contents engine ∧ result.TakesAllRows ∧
        (query.Valid engine → result.Valid engine)) ∧
    ∀ retain : List String, retain ≠ [] →
      ∃ result, query.wrapped d name (some retain) = .ok result ∧
        result.contents engine = ⟨(retain.filter labels.contains).map ([·]),
          (query.rows engine).map fun row ↦
            (retain.filter labels.contains).map (query.readRow engine row)⟩ ∧
        result.TakesAllRows ∧ (query.Valid engine → result.Valid engine) := by
  let sub : SubQuery := ⟨query, d.quoted name, labels⟩
  have made : query.named d name = .ok sub := named_eq_ok.mpr ⟨labelled, rfl⟩
  have labelled' : sub.query.items.map (·.label?) = sub.columns.map some := labelled
  refine ⟨fun retain none ↦ ?_, fun retain ne ↦ ?_⟩
  · have wrapped : query.wrapped d name retain = .ok sub.all := by
      have same : query.wrapped d name retain = query.wrapped d name Option.none := by
        cases retain with
        | none => rfl
        | some retain => rw [show retain = [] from none]; rfl
      rw [same]
      exact wrapped_none_eq_ok.mpr ⟨sub, made, rfl⟩
    refine ⟨sub.all, wrapped, ?_, takesAllRows_plain _ _, SubQuery.valid_all labelled' nodup⟩
    have rows : sub.all.rows engine = query.rows engine := SubQuery.rows_all labelled' nodup
    have named : sub.all.items.map (·.label?) = labels.map some := sub.map_label?_items labels
    have columns : (sub.all.contents engine).columns = (query.contents engine).columns :=
      (columns_of_labels named).trans (columns_of_labels labelled).symm
    exact congrArg₂ Table.mk columns rows
  · have known : retain.filter labels.contains ⊆ sub.columns := by
      intro label hl
      simpa using (List.mem_filter.mp hl).2
    exact ⟨_, (wrapped_some_eq_ok ne).mpr ⟨sub, made, rfl⟩,
      SubQuery.contents_chosen labelled' nodup known, takesAllRows_plain _ _,
      SubQuery.valid_chosen labelled' nodup known⟩

open FrameQuery.Frame (amount amountsEngine amountsQuery)

/-- The two largest numbers of a table, next to the number one. -/
private def largestAmounts : QuerySpecification :=
  { amountsQuery [.column (some "\"a\"") amount, .column (some "\"b\"") (.integer 1)]
      (some (.integer 2)) with
    orderBy := [⟨amount, .descending, .last⟩] }

/-- The two largest numbers behind the number one; a column that is not there is not retained. -/
theorem wrapped_contents_of_largest :
    ∃ result, largestAmounts.wrapped {} "root" (some ["\"b\"", "\"z\"", "\"a\""]) = .ok result ∧
      result.contents amountsEngine = ⟨[["\"b\""], ["\"a\""]],
        (largestAmounts.rows amountsEngine).map fun row ↦
          ["\"b\"", "\"a\""].map (largestAmounts.readRow amountsEngine row)⟩ ∧
      result.TakesAllRows := by
  have labelled : largestAmounts.items.map (·.label?) = ["\"a\"", "\"b\""].map some := rfl
  have nodup : ["\"a\"", "\"b\""].Nodup := by decide
  have kept : ["\"b\"", "\"z\"", "\"a\""].filter ["\"a\"", "\"b\""].contains =
      ["\"b\"", "\"a\""] := by decide
  obtain ⟨result, made, contents, all, -⟩ := (wrapped_contents amountsEngine {} "root" labelled
    nodup).2 ["\"b\"", "\"z\"", "\"a\""] nofun
  rw [kept] at contents
  exact ⟨result, made, contents, all⟩

end QuerySpecification

end FrameQuery.Sql
