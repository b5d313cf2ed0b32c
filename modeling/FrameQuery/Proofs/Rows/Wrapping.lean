import FrameQuery.Proofs.Rows.Blocks
import FrameQuery.Proofs.Sql.Labels

/-!
# Wrapped queries

All columns of a sub-query, selected under their own names, are the rows of the query that was
wrapped, in their order, whatever clauses the query has. What is selected is computed row by row, so
that further clauses apply to these rows.
-/

namespace FrameQuery.Sql

variable {V : Type} {engine : Engine V}

/-! ### Reading by labels -/

/-- A name refers to a column whose name has as many parts only if the names are the same. -/
theorem isSuffixOf_eq_decide {parts column : List String} (same : parts.length = column.length) :
    parts.isSuffixOf column = decide (parts = column) := by
  rw [Bool.eq_iff_iff, List.isSuffixOf_iff_suffix, decide_eq_true_eq]
  constructor
  · intro h
    exact h.eq_of_length same
  · rintro rfl
    exact List.suffix_rfl

/-- Values under different keys are looked up one by one. -/
theorem map_lookup_zip {α : Type} [BEq α] [LawfulBEq α] {keys : List α} (nodup : keys.Nodup)
    {row : List V} (width : row.length = keys.length) (null : V) :
    (keys.map fun key ↦ ((keys.zip row).lookup key).getD null) = row := by
  induction keys generalizing row with
  | nil => exact (List.length_eq_zero_iff.mp width).symm
  | cons first keys ih =>
    obtain ⟨value, row, rfl⟩ := List.exists_cons_of_length_eq_add_one width
    obtain ⟨fresh, nodup⟩ := List.nodup_cons.mp nodup
    rw [List.map_cons, List.zip_cons_cons, List.lookup_cons_self, Option.getD_some]
    refine congrArg (value :: ·) (Eq.trans (List.map_congr_left fun key hm ↦ ?_)
      (ih nodup (Nat.succ.inj width)))
    rw [List.lookup_cons, beq_eq_false_iff_ne.mpr (ne_of_mem_of_not_mem hm fresh)]

/-- A key that is not there is not found. -/
theorem lookup_zip_eq_none {α : Type} [BEq α] [LawfulBEq α] {keys : List α} {key : α}
    (unknown : key ∉ keys) (row : List V) : (keys.zip row).lookup key = none :=
  List.lookup_eq_none_iff.mpr fun _ member ↦
    bne_iff_ne.mpr (ne_of_mem_of_not_mem (List.of_mem_zip member).1 unknown).symm

/-- Keys are looked up under other keys as they are. -/
theorem lookup_zip_map {α β : Type} [BEq α] [LawfulBEq α] [BEq β] [LawfulBEq β] {f : α → β}
    (injective : Function.Injective f) (keys : List α) (row : List V) (key : α) :
    ((keys.map f).zip row).lookup (f key) = (keys.zip row).lookup key := by
  induction keys generalizing row with
  | nil => rfl
  | cons first keys ih =>
    cases row with
    | nil => rfl
    | cons value row =>
      rw [List.map_cons, List.zip_cons_cons, List.zip_cons_cons, List.lookup_cons,
        List.lookup_cons, ih, Bool.eq_iff_iff.mpr (by simp [injective.eq_iff] :
          (f key == f first) = true ↔ (key == first) = true)]

/-- A column of a relation, as it is named. -/
def qualified (column : String × String) : List String := [column.1, column.2]

/-- A name refers to a column of a relation only if relation and column are the same. -/
theorem isSuffixOf_qualified (name column : String × String) :
    (qualified name).isSuffixOf (qualified column) = decide (name = column) := by
  have same : (qualified name).length = (qualified column).length := rfl
  rw [isSuffixOf_eq_decide same, decide_eq_decide, Prod.ext_iff, qualified, qualified]
  simp

/-- Columns whose names have equally many parts are looked up one by one. -/
theorem Engine.read_zip_map {α : Type} [BEq α] [LawfulBEq α] {f : α → List String} {n : Nat}
    (injective : Function.Injective f) (parts : ∀ a, (f a).length = n) (columns : List α)
    (row : List V) (column : α) :
    engine.read ((columns.map f).zip row) (f column) =
      ((columns.zip row).lookup column).getD engine.null := by
  induction columns generalizing row with
  | nil => rfl
  | cons first columns ih =>
    cases row with
    | nil => rfl
    | cons value row =>
      have same : (f column).isSuffixOf (f first) = (column == first) := by
        rw [isSuffixOf_eq_decide ((parts column).trans (parts first).symm), Bool.eq_iff_iff,
          decide_eq_true_eq, injective.eq_iff, beq_iff_eq]
      rw [List.map_cons, List.zip_cons_cons, List.zip_cons_cons, List.lookup_cons, read,
        List.find?_cons, same]
      cases column == first with
      | true => rfl
      | false => exact ih row

/-- Columns of relations are looked up under the names of the relation and of the column. -/
theorem Engine.read_qualified (columns : List (String × String)) (row : List V)
    (column : String × String) :
    engine.read ((columns.map qualified).zip row) (qualified column) =
      ((columns.zip row).lookup column).getD engine.null := by
  have injective : Function.Injective qualified := by
    intro a b same
    obtain ⟨relation, rest⟩ := List.cons.inj same
    exact Prod.ext relation (List.singleton_inj.mp rest)
  have parts (a : String × String) : (qualified a).length = 2 := rfl
  exact read_zip_map injective parts columns row column

/-- Rows whose columns belong to no relation have the same columns under the name of one. -/
theorem Table.under_renamed {t : Table V} {labels : List String}
    (columns : t.columns = labels.map ([·])) (correlation : String) :
    (t.renamed labels).under [correlation] =
      ⟨(labels.map (correlation, ·)).map qualified, t.rows⟩ := by
  rw [under, renamed, columns, List.map_map]
  cases labels with
  | nil => rfl
  | cons label labels => simp [qualified]

/-- Among different columns of relations each name refers to one. -/
theorem Expression.isColumn_qualified {columns : List (String × String)}
    {column : String × String} (nodup : columns.Nodup) (known : column ∈ columns) :
    IsColumn (columns.map qualified) (.column (qualified column)) := by
  refine ⟨_, rfl, ?_⟩
  rw [List.countP_map, ← List.count_eq_one_of_mem nodup known]
  refine List.countP_congr fun other _ ↦ ?_
  rw [Function.comp_apply, isSuffixOf_qualified, beq_iff_eq, decide_eq_true_eq]
  exact eq_comm

variable [DecidableEq V]

/-! ### The rows of a labelled query -/

namespace QuerySpecification

variable {query : QuerySpecification} {labels : List String}

/-- The first of some labelled entries is a column with the first of the labels. -/
private theorem exists_label_of_cons {item : SelectItem} {items : List SelectItem}
    (labelled : (item :: items).map (·.label?) = labels.map some) :
    ∃ label rest x, labels = label :: rest ∧ item = .column (some label) x ∧
      items.map (·.label?) = rest.map some := by
  cases labels with
  | nil => cases labelled
  | cons label rest =>
    obtain ⟨first, others⟩ := List.cons.inj labelled
    obtain ⟨x, rfl⟩ := SelectItem.eq_column_of_label? first
    exact ⟨label, rest, x, rfl, rfl, others⟩

/-- The labels of a query are the names of its columns. -/
theorem columns_of_labels (labelled : query.items.map (·.label?) = labels.map some) :
    (query.contents engine).columns = labels.map ([·]) := by
  rw [contents_eq, contentsOf]
  change query.items.flatMap _ = _
  generalize query.items = items at labelled
  induction items generalizing labels with
  | nil =>
    rw [List.map_nil, eq_comm, List.map_eq_nil_iff] at labelled
    rw [labelled]
    rfl
  | cons item items ih =>
    obtain ⟨label, labels, x, rfl, rfl, rest⟩ := exists_label_of_cons labelled
    rw [List.flatMap_cons, ih rest]
    rfl

/-- The value of a row of a query under a label. -/
def readRow (engine : Engine V) (query : QuerySpecification) (row : List V) (label : String) : V :=
  engine.read ((query.contents engine).env row) [label]

/-- The rows of a query are read under its labels. -/
theorem readRow_eq_lookup (labelled : query.items.map (·.label?) = labels.map some) (row : List V)
    (label : String) :
    query.readRow engine row label = ((labels.zip row).lookup label).getD engine.null := by
  rw [readRow, Table.env, columns_of_labels labelled]
  exact Engine.read_zip_map (fun _ _ ↦ List.singleton_inj.mp) (fun _ ↦ rfl) labels row label

/-- Under a label the rows of a query have the values of what the query selects under it. -/
theorem readRow_output (labelled : query.items.map (·.label?) = labels.map some) {label : String}
    {x : Expression} (found : query.findColumn? label = some x) (place : Place V) :
    query.readRow engine (query.output engine place).1 label = x.value engine place := by
  rw [readRow, Table.env, columns_of_labels labelled, output]
  rw [findColumn?] at found
  -- A label may stand twice: both sides take the first entry that has it.
  generalize query.items = items at labelled found ⊢
  induction items generalizing labels with
  | nil => cases found
  | cons item items ih =>
    obtain ⟨first, labels, y, rfl, rfl, rest⟩ := exists_label_of_cons labelled
    rw [List.findSome?_cons, SelectItem.labelled?] at found
    by_cases same : first = label
    · rw [if_pos same] at found
      rw [← Option.some.inj found, Engine.read, same]
      simp [SelectItem.values, isSuffixOf_eq_decide]
    · rw [if_neg same] at found
      rw [← ih rest found, Engine.read, Engine.read]
      simp [SelectItem.values, isSuffixOf_eq_decide, Ne.symm same]

/-- The rows of a query have a value for each label. -/
theorem length_of_mem_rows (labelled : query.items.map (·.label?) = labels.map some)
    {row : List V} (h : row ∈ query.rows engine) : row.length = labels.length := by
  have single (i : SelectItem) (hi : i ∈ query.items) (place : Place V) :
      (i.values engine place).length = 1 := by
    have known := List.mem_map_of_mem (f := (·.label?)) hi
    rw [labelled, List.mem_map] at known
    obtain ⟨label, -, he⟩ := known
    obtain ⟨x, rfl⟩ := SelectItem.eq_column_of_label? he.symm
    rfl
  obtain ⟨place, rfl⟩ := exists_output_of_mem_rows h
  have widths := List.map_congr_left fun i hi ↦ single i hi place
  rw [List.length_flatMap, widths, List.map_const', List.sum_replicate_nat, Nat.mul_one,
    ← List.length_map (·.label?), labelled, List.length_map]

end QuerySpecification

/-! ### All columns of a relation -/

/-- A relation alone is read as it is. -/
theorem Relation.product_singleton (relation : Relation) :
    Relation.product engine [relation] = relation.contents engine := by
  rw [product, product, Table.product, Table.unit]
  simp

/-- A query without order and range has the rows of its body. -/
theorem Query.contents_plain (body : Relation) :
    (Query.plain body).contents engine = body.contents engine := by
  rw [plain, contents]
  simp only [Engine.arranged_nil, List.map_map, Function.comp_def, List.map_id']

/-- All columns of a relation, selected under their own names. -/
def QuerySpecification.allOf (columns : List (String × String)) (relation : Relation) :
    QuerySpecification :=
  .plain (columns.map fun column ↦ .passing column.1 column.2) [relation]

/-- A relation has different columns, and its rows have a value for each of them. -/
structure Relation.HasColumns (engine : Engine V) (relation : Relation)
    (columns : List (String × String)) : Prop where
  columns_eq : (relation.contents engine).columns = columns.map qualified
  nodup : columns.Nodup
  width : ∀ row ∈ (relation.contents engine).rows, row.length = columns.length

namespace Relation.HasColumns

variable {relation : Relation} {columns : List (String × String)}
  (has : relation.HasColumns engine columns)

include has

variable {chosen : List (String × String)} (known : chosen ⊆ columns)

include known

/-- Columns of a relation are selected row by row. -/
theorem rowWise_chosen : (QuerySpecification.allOf chosen relation).RowWise
    (Relation.product engine (QuerySpecification.allOf chosen relation).sources).columns where
  groupBy := rfl
  having := rfl
  limit := rfl
  offset := rfl
  outputs x hx := by
    rw [QuerySpecification.allOf, QuerySpecification.plain, product_singleton, has.columns_eq]
    rcases QuerySpecification.mem_outputs.mp hx with ⟨i, hi, he⟩ | ⟨k, hk, -⟩
    · obtain ⟨column, hc, rfl⟩ := List.mem_map.mp hi
      rw [← Option.some.inj he]
      exact .atom (Expression.isColumn_qualified has.nodup (known hc))
    · cases hk

/-- Columns of a relation are its rows, restricted to these columns. -/
theorem rows_chosen : (QuerySpecification.allOf chosen relation).rows engine =
    (relation.contents engine).rows.map fun row ↦
      chosen.map fun column ↦ ((columns.zip row).lookup column).getD engine.null := by
  have rowWise := has.rowWise_chosen known
  have each (row : List V) : ((QuerySpecification.allOf chosen relation).output engine
      (.row ((columns.map qualified).zip row))).1 =
        chosen.map fun column ↦ ((columns.zip row).lookup column).getD engine.null := by
    change (chosen.map fun column ↦ SelectItem.passing column.1 column.2).flatMap _ = _
    rw [List.flatMap_map]
    refine (List.flatMap_congr fun column _ ↦ ?_).trans (List.map_eq_flatMap ..).symm
    rw [SelectItem.passing, SelectItem.values, Expression.column, Expression.value_reference,
      Place.env_row, ← engine.read_qualified]
    rfl
  rw [rowWise.rows_eq, rowWise.outputRows_eq]
  change Engine.arranged engine [] none none (List.map _ (List.filter (fun _ ↦ true) _)) = _
  rw [List.filter_true, Engine.arranged_nil, List.map_map, Table.envs,
    QuerySpecification.allOf, QuerySpecification.plain, product_singleton, List.map_map]
  refine List.map_congr_left fun row _ ↦ ?_
  rw [Function.comp_apply, Function.comp_apply, Table.env, has.columns_eq]
  exact each row

/-- Columns of a valid relation make a valid query. -/
theorem valid_chosen (valid : relation.Valid engine) :
    (QuerySpecification.allOf chosen relation).Valid engine := by
  have rowWise := has.rowWise_chosen known
  refine QuerySpecification.valid_iff.mpr ⟨⟨?_, ?_, ?_, ?_, ?_, ?_, ?_, ?_⟩, valid, trivial⟩
  · exact nofun
  · exact nofun
  · exact nofun
  · intro x hx
    rw [QuerySpecification.Level, rowWise.isGrouped]
    exact .atom (.inl (rowWise.outputs x hx))
  · rw [rowWise.isGrouped]
    exact nofun
  · exact nofun
  · exact nofun
  · exact nofun

omit known

/-- All columns of a relation are selected row by row. -/
theorem rowWise_allOf : (QuerySpecification.allOf columns relation).RowWise
    (Relation.product engine (QuerySpecification.allOf columns relation).sources).columns :=
  has.rowWise_chosen (List.Subset.refl columns)

/-- All columns of a relation are its rows. -/
theorem rows_allOf : (QuerySpecification.allOf columns relation).rows engine =
    (relation.contents engine).rows := by
  rw [has.rows_chosen (List.Subset.refl columns)]
  refine (List.map_congr_left fun row hr ↦ ?_).trans (List.map_id _)
  exact map_lookup_zip has.nodup (has.width row hr) engine.null

/-- All columns of a valid relation make a valid query. -/
theorem valid_allOf (valid : relation.Valid engine) :
    (QuerySpecification.allOf columns relation).Valid engine :=
  has.valid_chosen (List.Subset.refl columns) valid

end Relation.HasColumns

/-! ### Sub-queries -/

namespace SubQuery

/-- The columns of a sub-query, as they are named. -/
def names (sub : SubQuery) : List (String × String) := sub.columns.map (sub.correlation, ·)

/-- Columns of a sub-query are columns of a relation. -/
theorem plain_items_eq_allOf (sub : SubQuery) (columns : List String) :
    QuerySpecification.plain (sub.items columns) [sub.relation] =
      .allOf (columns.map (sub.correlation, ·)) sub.relation := by
  rw [items, QuerySpecification.allOf, List.map_map]
  rfl

/-- The select list of a sub-query has its columns. -/
theorem all_eq_allOf (sub : SubQuery) : sub.all = .allOf sub.names sub.relation :=
  sub.plain_items_eq_allOf sub.columns

variable {sub : SubQuery}

/-- Under a label a sub-query selects the column with that label. -/
theorem findColumn?_all {label : String} {x : Expression}
    (found : sub.all.findColumn? label = some x) :
    x = .column (qualified (sub.correlation, label)) ∧ (sub.correlation, label) ∈ sub.names := by
  obtain ⟨column, known, same⟩ :=
    List.mem_map.mp (QuerySpecification.mem_items_of_findColumn? found)
  obtain ⟨rfl, rfl⟩ : column = label ∧ Expression.column [sub.correlation, column] = x := by
    simpa [SelectItem.passing] using same
  exact ⟨rfl, List.mem_map_of_mem known⟩

variable (labelled : sub.query.items.map (·.label?) = sub.columns.map some)

include labelled

/-- A sub-query has the rows of its query, under its columns. -/
theorem contents_relation :
    sub.relation.contents engine = ⟨sub.names.map qualified, sub.query.rows engine⟩ := by
  rw [relation, Relation.contents, Relation.contents, Query.contents_plain, Relation.contents]
  exact Table.under_renamed (QuerySpecification.columns_of_labels labelled) sub.correlation

/-- A sub-query is a valid relation if its query is valid. -/
theorem valid_relation (valid : sub.query.Valid engine) : sub.relation.Valid engine := by
  have width : (sub.query.contents engine).columns.length = sub.columns.length := by
    rw [QuerySpecification.columns_of_labels labelled, List.length_map]
  refine ⟨⟨valid, List.forall_mem_nil _, nofun, nofun⟩, fun _ ↦ ?_⟩
  rw [Relation.contents, Query.contents_plain, Relation.contents, width]

variable (nodup : sub.columns.Nodup)

include nodup

/-- A sub-query has its columns. -/
theorem hasColumns : sub.relation.HasColumns engine sub.names where
  columns_eq := by rw [contents_relation labelled]
  nodup := nodup.map fun _ _ h ↦ (Prod.mk.inj h).2
  width row hr := by
    rw [contents_relation labelled] at hr
    rw [names, List.length_map]
    exact QuerySpecification.length_of_mem_rows labelled hr

/-- All columns of a sub-query are selected row by row. -/
theorem rowWise_all : sub.all.RowWise (Relation.product engine sub.all.sources).columns := by
  rw [all_eq_allOf]
  exact (hasColumns labelled nodup).rowWise_allOf

/-- All columns of a sub-query are the rows of its query. -/
theorem rows_all : sub.all.rows engine = sub.query.rows engine := by
  rw [all_eq_allOf, (hasColumns labelled nodup).rows_allOf, contents_relation labelled]

/-- All columns of a sub-query make a valid query if its query is valid. -/
theorem valid_all (valid : sub.query.Valid engine) : sub.all.Valid engine := by
  rw [all_eq_allOf]
  exact (hasColumns labelled nodup).valid_allOf (valid_relation labelled valid)

omit labelled nodup in
/-- A sub-query that makes a valid query has one. -/
theorem valid_of_all (valid : sub.all.Valid engine) : sub.query.Valid engine :=
  (QuerySpecification.valid_iff.mp valid).2.1.1.1

end SubQuery

/-- A query that is wrapped has labels, different ones for different names. -/
theorem QuerySpecification.Selects.labelled_named {d : Dialect} {query : QuerySpecification}
    {names : List String} (selects : query.Selects d names) (nodup : names.Nodup) {sub : SubQuery}
    {name : String} (made : query.named d name = .ok sub) : sub.query = query ∧
      sub.query.items.map (·.label?) = sub.columns.map some ∧ sub.columns.Nodup := by
  rw [selects.named] at made
  rw [← Except.ok.inj made]
  exact ⟨rfl, selects, nodup.map fun _ _ ↦ Dialect.quoted_inj.mp⟩

end FrameQuery.Sql
