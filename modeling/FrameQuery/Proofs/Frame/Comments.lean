import FrameQuery.Proofs.Expr.Comments
import FrameQuery.Proofs.Frame.Nesting
import FrameQuery.Proofs.Sql.BlockComments

/-!
# Comments in emitted queries

A minus before a literal that is negative itself is written as two dashes, which open a comment: the
rest of the line is lost. Nothing else in the text of a frame over plainly named tables opens one,
however the parts of the query are nested, for every database and in every layout.
-/

namespace FrameQuery

open Sql (Dialect QuerySpecification SelectItem SubQuery Expression Relation Walk)

variable {d : Dialect} {tables : List (List String × List String)}
  {query inner result : QuerySpecification} {x : Expression}

/-! ### Labels of nested blocks -/

namespace Sql.QuerySpecification

/-- All blocks that a query reads from, at every depth, select quoted names. -/
def NestedSelect (d : Dialect) (query : QuerySpecification) : Prop :=
  ∀ r ∈ query.sources, ∀ b ∈ r.walk .ofBlocks, ∃ names, b.Selects d names

/-- Only what a query reads from counts. -/
theorem NestedSelect.congr (nested : query.NestedSelect d)
    (sources : result.sources = query.sources) : result.NestedSelect d := by
  rwa [NestedSelect, sources]

end Sql.QuerySpecification

open Sql.QuerySpecification (NestedSelect)

/-- Behind a query under a name stand the blocks of the query. -/
theorem Sql.SubQuery.blocks_of_named {sub : SubQuery} {name : String}
    (made : query.named d name = .ok sub) : sub.relation.walk .ofBlocks = query.blocks := by
  rw [SubQuery.blocks_relation, (QuerySpecification.named_eq_ok.mp made).2]

/-- The blocks of an assembled query select quoted names if its own block does and nested ones
do. -/
theorem Assembled.blocks_select (assembled : Assembled d tables query) {names : List String}
    (selects : query.Selects d names) (nested : query.NestedSelect d) :
    ∀ b ∈ query.blocks, ∃ names, b.Selects d names := by
  intro b hb
  rcases (assembled.mem_walk_iff Walk.ignoresExpressions_ofBlocks).mp hb with hb | ⟨r, hr, hb⟩
  · rw [List.mem_singleton.mp hb]
    exact ⟨names, selects⟩
  · exact nested r hr b hb

/-- Behind a sub-query stand the blocks of its query. -/
theorem Assembled.nestedSelect_relation (assembled : Assembled d tables query)
    {names : List String} (selects : query.Selects d names) (nested : query.NestedSelect d)
    {sub : SubQuery} {name : String} (made : query.named d name = .ok sub) :
    ∀ b ∈ sub.relation.walk .ofBlocks, ∃ names, b.Selects d names := by
  rw [SubQuery.blocks_of_named made]
  exact assembled.blocks_select selects nested

/-- What reads from the relations of a query, wrapped if need be, reads from blocks that select
quoted names. -/
theorem Assembled.nestedSelect_wrapIf {needed : Bool} (assembled : Assembled d tables query)
    {names : List String} (selects : query.Selects d names) (nested : query.NestedSelect d)
    (made : QueryStep.wrapIf d needed query = .ok inner)
    (sources : result.sources = inner.sources) :
    result.NestedSelect d := by
  refine NestedSelect.congr ?_ sources
  rcases QueryStep.wrapIf_eq_ok.mp made with ⟨-, sub, hs, rfl⟩ | ⟨-, rfl⟩
  · exact List.forall_mem_singleton.mpr (assembled.nestedSelect_relation selects nested hs)
  · exact nested

/-- A selection reads from blocks that select quoted names. -/
theorem Assembled.nestedSelect_selected {retained : List String}
    (assembled : Assembled d tables query) {names : List String} (selects : query.Selects d names)
    (nested : query.NestedSelect d) (ne : retained ≠ [])
    (made : QueryStep.selected d retained query = .ok result) : result.NestedSelect d := by
  rcases QueryStep.selected_eq_ok.mp made with ⟨-, rfl⟩ | ⟨-, -, hw⟩ | ⟨-, -, hr⟩
  · exact nested
  · obtain ⟨sub, hs, rfl⟩ := (QuerySpecification.wrapped_some_eq_ok (by simpa using ne)).mp hw
    exact List.forall_mem_singleton.mpr (assembled.nestedSelect_relation selects nested hs)
  · obtain ⟨kept, -, rfl⟩ := QueryStep.retain_eq_ok.mp hr
    exact NestedSelect.congr nested rfl

section Pairs

variable {lefts rights : QuerySpecification} {left right : SubQuery}
  {left_names right_names : List String}

/-- A join reads from blocks that select quoted names. -/
theorem Assembled.nestedSelect_joined {condition : Expr} {kind : JoinKind}
    (hl : Assembled d tables lefts) (hr : Assembled d tables rights)
    (left_selects : lefts.Selects d left_names) (right_selects : rights.Selects d right_names)
    (left_nested : lefts.NestedSelect d) (right_nested : rights.NestedSelect d)
    (left_named : lefts.named d "left" = .ok left)
    (right_named : rights.named d "right" = .ok right)
    (made : QueryStep.joined d condition kind left right = .ok result) : result.NestedSelect d := by
  obtain ⟨holds, sub, he, hn, rfl⟩ := QueryStep.joined_eq_ok.mp made
  refine List.forall_mem_singleton.mpr fun b hb ↦ ?_
  rw [SubQuery.blocks_of_named hn] at hb
  rcases (Assembled.mem_blocks_paired hl hr left_named right_named he).mp hb with rfl | hb | hb
  · exact ⟨_, QueryStep.paired_selects (left_selects.named_columns left_named)
      (right_selects.named_columns right_named) _ _⟩
  · exact hl.blocks_select left_selects left_nested b hb
  · exact hr.blocks_select right_selects right_nested b hb

/-- Two queries one after the other are read from blocks that select quoted names. -/
theorem Assembled.nestedSelect_concatenated
    (hl : Assembled d tables lefts) (hr : Assembled d tables rights)
    (left_selects : lefts.Selects d left_names) (right_selects : rights.Selects d right_names)
    (left_nested : lefts.NestedSelect d) (right_nested : rights.NestedSelect d)
    (left_named : lefts.named d "left" = .ok left)
    (right_named : rights.named d "right" = .ok right) (columns : left.columns = right.columns) :
    (QueryStep.concatenated d left right).NestedSelect d := by
  intro r hr' b hb
  have assembled := Assembled.concatenated hl hr left_named right_named columns
  have nested : b ∈ (QueryStep.concatenated d left right).blocks :=
    (assembled.mem_walk_iff Walk.ignoresExpressions_ofBlocks).mpr (.inr ⟨r, hr', hb⟩)
  rcases (Assembled.mem_blocks_concatenated hl hr left_named right_named columns).mp nested with
    rfl | (rfl | hb) | rfl | hb
  · exact ⟨_, QueryStep.concatenated_selects (left_selects.named_columns left_named) _⟩
  · exact ⟨_, left_selects.all left_named⟩
  · exact hl.blocks_select left_selects left_nested b hb
  · exact ⟨_, right_selects.all right_named⟩
  · exact hr.blocks_select right_selects right_nested b hb

end Pairs

namespace Frame

/-- All blocks nested in the query of a checked frame select quoted names. -/
theorem Checked.nestedSelect {frame : Frame} (checked : Checked frame)
    (made : frame.toSql d = .ok query) : query.NestedSelect d := by
  have assembled {base : Frame} {inner : QuerySpecification} (checked : Checked base)
      (made : base.toSql d = .ok inner) : Assembled d base.tables inner :=
    checked.assembled (List.Subset.refl _) made
  induction checked generalizing query with
  | table =>
    rw [← Except.ok.inj made]
    refine List.forall_mem_singleton.mpr fun b hb ↦ ?_
    cases hb
  | filtered base _ ih =>
    obtain ⟨inner, hi, hs⟩ := Outcome.bind_eq_ok.mp made
    rcases QueryStep.filtered_eq_ok.mp hs with ⟨-, rfl⟩ | ⟨-, wrapped, expression, hw, -, rfl⟩
    · exact ih hi
    · exact (assembled base hi).nestedSelect_wrapIf (base.selects hi) (ih hi) hw rfl
  | selected base ne _ _ ih =>
    obtain ⟨inner, hi, hs⟩ := Outcome.bind_eq_ok.mp made
    exact (assembled base hi).nestedSelect_selected (base.selects hi) (ih hi) ne hs
  | distinct base ih =>
    obtain ⟨inner, hi, hs⟩ := Outcome.bind_eq_ok.mp made
    obtain ⟨_, wrapped, rfl, hw, rfl⟩ := QueryStep.distinct_eq_ok.mp hs
    exact (assembled base hi).nestedSelect_wrapIf (base.selects hi) (ih hi) hw rfl
  | distinctBy base ne known _ ih =>
    obtain ⟨inner, hi, hs⟩ := Outcome.bind_eq_ok.mp made
    obtain ⟨restricted, wrapped, hr, hw, rfl⟩ := QueryStep.distinct_eq_ok.mp hs
    have inside := (assembled base hi)
    exact (QueryStep.selected_assembled inside ne hr).nestedSelect_wrapIf
      (QueryStep.selected_selects (base.selects hi) ne known hr)
      (inside.nestedSelect_selected (base.selects hi) (ih hi) ne hr) hw rfl
  | extended base _ _ ih =>
    obtain ⟨inner, hi, hs⟩ := Outcome.bind_eq_ok.mp made
    obtain ⟨wrapped, items, hw, -, rfl⟩ := QueryStep.extended_eq_ok.mp hs
    exact (assembled base hi).nestedSelect_wrapIf (base.selects hi) (ih hi) hw rfl
  | windowExtended base _ _ _ ih =>
    obtain ⟨inner, hi, hs⟩ := Outcome.bind_eq_ok.mp made
    obtain ⟨sub, clause, items, hn, -, -, rfl⟩ := QueryStep.windowExtended_eq_ok.mp hs
    exact List.forall_mem_singleton.mpr
      ((assembled base hi).nestedSelect_relation (base.selects hi) (ih hi) hn)
  | projected base _ _ _ ih =>
    obtain ⟨inner, hi, hs⟩ := Outcome.bind_eq_ok.mp made
    obtain ⟨sub, items, hn, -, rfl⟩ := QueryStep.projected_eq_ok.mp hs
    exact List.forall_mem_singleton.mpr
      ((assembled base hi).nestedSelect_relation (base.selects hi) (ih hi) hn)
  | renamed base _ _ _ _ ih =>
    obtain ⟨inner, hi, hs⟩ := Outcome.bind_eq_ok.mp made
    obtain ⟨items, -, rfl⟩ := QueryStep.renamed_eq_ok.mp hs
    exact NestedSelect.congr (ih hi) rfl
  | grouped base _ _ _ _ ih =>
    obtain ⟨inner, hi, hs⟩ := Outcome.bind_eq_ok.mp made
    obtain ⟨wrapped, items, keys, kept, hw, -, -, -, rfl⟩ := QueryStep.grouped_eq_ok.mp hs
    exact (assembled base hi).nestedSelect_wrapIf (base.selects hi) (ih hi) hw rfl
  | sorted base _ _ ih =>
    obtain ⟨inner, hi, hs⟩ := Outcome.bind_eq_ok.mp made
    obtain ⟨wrapped, items, hw, -, rfl⟩ := QueryStep.sorted_eq_ok.mp hs
    exact (assembled base hi).nestedSelect_wrapIf (base.selects hi) (ih hi) hw rfl
  | sliced base _ _ ih =>
    obtain ⟨inner, hi, hs⟩ := Outcome.bind_eq_ok.mp made
    obtain ⟨wrapped, hw, rfl⟩ := QueryStep.sliced_eq_ok.mp hs
    exact (assembled base hi).nestedSelect_wrapIf (base.selects hi) (ih hi) hw rfl
  | limited base _ ih =>
    obtain ⟨inner, hi, hs⟩ := Outcome.bind_eq_ok.mp made
    obtain ⟨wrapped, hw, rfl⟩ := QueryStep.limited_eq_ok.mp hs
    exact (assembled base hi).nestedSelect_wrapIf (base.selects hi) (ih hi) hw rfl
  | dropped base _ ih =>
    obtain ⟨inner, hi, hs⟩ := Outcome.bind_eq_ok.mp made
    obtain ⟨wrapped, hw, rfl⟩ := QueryStep.dropped_eq_ok.mp hs
    exact (assembled base hi).nestedSelect_wrapIf (base.selects hi) (ih hi) hw rfl
  | joined left_checked right_checked _ _ ihl ihr =>
    obtain ⟨lefts, left, rights, right, hl, hln, hr, hrn, hs⟩ := toSql_pair_eq_ok.mp made
    exact Assembled.nestedSelect_joined
      (left_checked.assembled (List.subset_append_left _ _) hl)
      (right_checked.assembled (List.subset_append_right _ _) hr) (left_checked.selects hl)
      (right_checked.selects hr) (ihl hl) (ihr hr) hln hrn hs
  | asOfJoined => exact absurd made Outcome.fail_ne_ok
  | concatenated left_checked right_checked agree ihl ihr =>
    obtain ⟨lefts, left, rights, right, hl, hln, hr, hrn, hs⟩ := toSql_pair_eq_ok.mp made
    have columns := left_checked.columns_agree right_checked agree hl hr hln hrn
    rw [← Outcome.pure_eq_ok.mp hs]
    exact Assembled.nestedSelect_concatenated
      (left_checked.assembled (List.subset_append_left _ _) hl)
      (right_checked.assembled (List.subset_append_right _ _) hr) (left_checked.selects hl)
      (right_checked.selects hr) (ihl hl) (ihr hr) hln hrn columns
  | served _ ih => exact ih made

end Frame

/-! ### Assembled queries -/

/-- A derived expression is read if the expressions are that it was derived from. -/
theorem Derived.read (hq : d.quote = '"') (inner : ∀ z ∈ query.expressions, z.Read d)
    (derived : Derived d query x) : x.Read d := by
  have columns (row : RowVar) (name : String) (value : Expression)
      (h : (Scope.single d query).resolve row name = .ok value) : value.Read d :=
    inner value (Scope.expressions_of_resolve h)
  cases derived with
  | own hx => exact inner x hx
  | computed made => exact Expr.read_toSql hq columns made
  | windowed made window =>
    exact WindowSpec.read_toSql (columns .right) window (Expr.read_toSql hq columns made)
  | both hf made =>
    have earlier := inner _ (QuerySpecification.mem_expressions.mpr (.inr (.inr (.inl hf))))
    exact earlier.operator "AND" rfl (Expr.read_toSql hq columns made) rfl rfl fun _ ↦ rfl
  | integer value => exact Expression.read_integer value

/-- Expressions are gathered at blocks and relations only. -/
theorem Sql.Walk.ignoresExpressions_ofTerms : Walk.ofTerms.IgnoresExpressions :=
  ⟨⟨fun _ _ ↦ rfl, fun _ ↦ rfl⟩, fun _ ↦ rfl⟩

namespace Assembled

/-- The expressions of an assembled query hold no queries. -/
theorem flat (assembled : Assembled d tables query) : ∀ x ∈ query.expressions, x.Flat :=
  fun _ hx ↦ List.eq_nil_iff_forall_not_mem.mpr fun _ ↦
    assembled.not_mem_walk Walk.ignoresExpressions_ofTerms hx

/-- Columns between quotes are read. -/
private theorem read_passed (hq : d.quote = '"') (correlation name : String) :
    (Expression.column [d.quoted correlation, d.quoted name]).Read d := by
  refine Expression.read_column fun part hm ↦ ?_
  rcases List.mem_cons.mp hm with rfl | hm
  · exact Dialect.calm_identifier hq (Dialect.calm_quoted hq _)
  · rw [List.mem_singleton.mp hm]
    exact Dialect.calm_identifier hq (Dialect.calm_quoted hq _)

/-- An assembled query is one of its own blocks. -/
theorem mem_blocks_self (assembled : Assembled d tables query) : query ∈ query.blocks :=
  (assembled.mem_walk_iff Walk.ignoresExpressions_ofBlocks).mpr (.inl (List.mem_singleton_self _))

/-- A query whose blocks select quoted names is read if its parts are. -/
private theorem read_of_blocks (hq : d.quote = '"') (assembled : Assembled d tables query)
    (blocks : ∀ b ∈ query.blocks, ∃ names, b.Selects d names)
    (parts : query.NestedSelect d →
      (∀ r ∈ query.sources, r.Read d) ∧ ∀ x ∈ query.expressions, x.Read d) : query.Read d := by
  obtain ⟨names, selects⟩ := blocks query assembled.mem_blocks_self
  obtain ⟨sources, expressions⟩ := parts fun r hr b hb ↦
    blocks b ((assembled.mem_walk_iff Walk.ignoresExpressions_ofBlocks).mpr (.inr ⟨r, hr, hb⟩))
  exact QuerySpecification.read hq selects sources expressions assembled.flat

/-- The columns of a sub-query are read. -/
private theorem read_item (hq : d.quote = '"') {sub : SubQuery} {name : String}
    {names : List String} (selects : query.Selects d names)
    (made : query.named d name = .ok sub) {column : String} (hc : column ∈ sub.columns) :
    (Expression.column [sub.correlation, column]).Read d := by
  rw [selects.named_columns made] at hc
  obtain ⟨c, -, rfl⟩ := List.mem_map.mp hc
  rw [(QuerySpecification.named_eq_ok.mp made).2]
  exact read_passed hq name c

/-- All columns of a sub-query are read. -/
private theorem read_all (hq : d.quote = '"') {sub : SubQuery} {name : String}
    {names : List String} (selects : query.Selects d names)
    (made : query.named d name = .ok sub) : ∀ x ∈ sub.all.expressions, x.Read d := by
  intro x hx
  obtain ⟨c, hc, rfl⟩ := SubQuery.mem_expressions_all.mp hx
  exact read_item hq selects made hc

/-- A sub-query is read if its query is. -/
private theorem read_relation (hq : d.quote = '"') {sub : SubQuery} {name : String}
    (made : query.named d name = .ok sub) (h : query.Read d) : sub.relation.Read d := by
  rw [(QuerySpecification.named_eq_ok.mp made).2]
  exact (Relation.read_subquery_specification h).aliased
    (Dialect.calm_identifier hq (Dialect.calm_quoted hq _)) _

/-- All columns of a sub-query make a query that is read if its query is. -/
private theorem read_of_all (hq : d.quote = '"') (assembled : Assembled d tables query)
    {sub : SubQuery} {name : String} {names : List String} (selects : query.Selects d names)
    (made : query.named d name = .ok sub) (h : query.Read d) : sub.all.Read d :=
  QuerySpecification.read hq (selects.all made)
    (List.forall_mem_singleton.mpr (read_relation hq made h)) (read_all hq selects made)
    (assembled.all made).flat

/-- What an assembled query reads from and its expressions are read if the parts of the names of its
tables are calm and nested blocks select quoted names. -/
theorem read_parts (hq : d.quote = '"')
    (plain : ∀ table ∈ tables, ∀ part ∈ table.1, Calm part.toList)
    (assembled : Assembled d tables query) (nested : query.NestedSelect d) :
    (∀ r ∈ query.sources, r.Read d) ∧ ∀ x ∈ query.expressions, x.Read d := by
  induction assembled with
  | @table parts names known =>
    have relation : (Relation.table ⟨parts⟩).Read d := Relation.read_table fun part hp ↦
      Dialect.calm_identifier hq (plain _ known part hp)
    have root : Calm (d.identifier (d.quoted "root") false).toList :=
      Dialect.calm_identifier hq (Dialect.calm_quoted hq _)
    refine ⟨List.forall_mem_singleton.mpr (relation.aliased root []), fun x hx ↦ ?_⟩
    obtain ⟨i, hi, he⟩ := QuerySpecification.mem_expressions_plain.mp hx
    obtain ⟨name, -, rfl⟩ := List.mem_map.mp hi
    rw [← Option.some.inj he]
    exact read_passed hq _ _
  | @wrapped query sub name columns inner made known ih =>
    have blocks := List.forall_mem_singleton.mp nested
    rw [SubQuery.blocks_of_named made] at blocks
    have read := inner.read_of_blocks hq blocks ih
    obtain ⟨names, selects⟩ := blocks query inner.mem_blocks_self
    refine ⟨List.forall_mem_singleton.mpr (read_relation hq made read), fun x hx ↦ ?_⟩
    obtain ⟨c, hc, rfl⟩ := SubQuery.mem_expressions_items.mp
      (QuerySpecification.mem_expressions_plain.mp hx)
    exact read_item hq selects made (known hc)
  | derived inner sources derived ih =>
    obtain ⟨relations, expressions⟩ := ih (NestedSelect.congr nested sources.symm)
    exact ⟨sources ▸ relations, fun x hx ↦ (derived x hx).read hq expressions⟩
  | @paired lefts rights left right kind e holds hl hr left_named right_named made ihl ihr =>
    have sides := List.forall_mem_singleton.mp nested
    rw [Relation.walk, List.forall_mem_append, List.forall_mem_append, List.forall_mem_append,
      SubQuery.blocks_of_named left_named, SubQuery.blocks_of_named right_named] at sides
    obtain ⟨-, ⟨left_blocks, right_blocks⟩, -⟩ := sides
    have left_read := hl.read_of_blocks hq left_blocks ihl
    have right_read := hr.read_of_blocks hq right_blocks ihr
    obtain ⟨left_names, left_selects⟩ := left_blocks lefts hl.mem_blocks_self
    obtain ⟨right_names, right_selects⟩ := right_blocks rights hr.mem_blocks_self
    have left_items := read_all hq left_selects left_named
    have right_items := read_all hq right_selects right_named
    have holds_read : holds.Read d := Expr.read_toSql hq (fun row name value h ↦ by
      rcases Scope.resolve_pair.mp h with ⟨-, h⟩ | ⟨-, h⟩
      · exact left_items value (QuerySpecification.expressions_of_findColumn? h)
      · exact right_items value (QuerySpecification.expressions_of_findColumn? h)) made
    have flat : holds.Flat := List.eq_nil_iff_forall_not_mem.mpr fun _ ↦
      not_mem_walk_holds Walk.ignoresExpressions_ofTerms (hl.all left_named) (hr.all right_named)
        made
    have join := (read_relation hq left_named left_read).join (QueryStep.joinType kind)
      (read_relation hq right_named right_read) holds_read flat
    refine ⟨List.forall_mem_singleton.mpr join, fun x hx ↦ ?_⟩
    obtain ⟨i, hi, he⟩ := QuerySpecification.mem_expressions_plain.mp hx
    rcases List.mem_append.mp hi with hi | hi
    · exact left_items x (QuerySpecification.mem_expressions_plain.mpr ⟨i, hi, he⟩)
    · exact right_items x (QuerySpecification.mem_expressions_plain.mpr ⟨i, hi, he⟩)
  | @concatenated lefts rights left right hl hr left_named right_named columns ihl ihr =>
    have sides := List.forall_mem_singleton.mp nested
    simp only [Relation.walk, Sql.Query.walk_plain, List.forall_mem_append] at sides
    obtain ⟨-, -, -, ⟨-, left_all⟩, -, right_all⟩ := sides
    have left_blocks : ∀ b ∈ lefts.blocks, ∃ names, b.Selects d names := fun b hb ↦
      left_all b ((SubQuery.mem_blocks_all hl left_named).mpr (.inr hb))
    have right_blocks : ∀ b ∈ rights.blocks, ∃ names, b.Selects d names := fun b hb ↦
      right_all b ((SubQuery.mem_blocks_all hr right_named).mpr (.inr hb))
    obtain ⟨left_names, left_selects⟩ := left_blocks lefts hl.mem_blocks_self
    obtain ⟨right_names, right_selects⟩ := right_blocks rights hr.mem_blocks_self
    have union := (Relation.read_subquery_union
      (hl.read_of_all hq left_selects left_named (hl.read_of_blocks hq left_blocks ihl))
      (hr.read_of_all hq right_selects right_named (hr.read_of_blocks hq right_blocks ihr))
      false).aliased (Dialect.calm_identifier hq (Dialect.calm_quoted hq "root")) left.columns
    refine ⟨List.forall_mem_singleton.mpr union, fun x hx ↦ ?_⟩
    obtain ⟨i, hi, he⟩ := QuerySpecification.mem_expressions_plain.mp hx
    rw [left_selects.named_columns left_named] at hi
    obtain ⟨c, hc, rfl⟩ := List.mem_map.mp hi
    obtain ⟨name, -, rfl⟩ := List.mem_map.mp hc
    rw [← Option.some.inj he]
    exact read_passed hq _ _

end Assembled

/-! ### Frames -/

/-- The databases that are known put double quotes around identifiers. -/
theorem Sql.Database.quote_dialect (database : Sql.Database) : database.dialect.quote = '"' := by
  cases database <;> rfl

namespace Frame

/-- The text of a reachable frame whose tables have plain names opens a comment, for every database
and in every layout, exactly if a minus stands before a negative literal in one of the expressions
of its query. -/
theorem Reachable.opensComment_iff {frame : Frame} (reachable : Reachable frame)
    (plain : ∀ table ∈ frame.tables, ∀ part ∈ table.1, ∀ c ∈ part.toList,
      c ≠ '-' ∧ c ≠ '\'' ∧ c ≠ '"')
    (database : Sql.Database) (format : Sql.Format) {text : String}
    (made : frame.toSql database.dialect = .ok query)
    (written : query.render database.dialect format = .ok text) :
    opensComment text = true ↔ ∃ x ∈ query.terms, x.doublesMinus = true := by
  have checked := reachable.checked
  have assembled := checked.assembled (List.Subset.refl _) made
  have hq := database.quote_dialect
  obtain ⟨sources, expressions⟩ := assembled.read_parts hq
    (fun table ht part hp ↦ .of_plain (plain table ht part hp)) (checked.nestedSelect made)
  have read := QuerySpecification.read hq (checked.selects made) sources expressions assembled.flat
  obtain ⟨doc, hd, rfl⟩ := Outcome.map_eq_ok.mp written
  have reads : doc.Reads format.layout query.opens := read format.layout 0 doc hd
  rw [opensComment, Layout.render, String.toList_ofList, reads, ← List.any_eq_true]
  change _ ↔ query.opens = true
  cases query.opens <;> simp

private theorem single_made :
    ofTable ["t"] [⟨"c1", .integer, none, none⟩] =
      .ok (.table ["t"] [⟨"c1", .integer, none, none⟩]) := rfl

/-- A number minus a negative number. -/
theorem Reachable.opensComment_iff_of_difference :
    ∃ frame query text, Reachable frame ∧
      frame.toSql Sql.Database.msSql.dialect = .ok query ∧
      query.render Sql.Database.msSql.dialect {} = .ok text ∧
      (opensComment text = true ↔ ∃ x ∈ query.terms, x.doublesMinus = true) := by
  have made : Frame.project (.table ["t"] [⟨"c1", .integer, none, none⟩])
      [⟨"x", fun row ↦ do (← row.get "c1").sub (.integer (-1)), none⟩] =
        .ok (.projected _ _) := rfl
  have reachable := Reachable.project (.table single_made) made
  have plain : ∀ c ∈ "t".toList, c ≠ '-' ∧ c ≠ '\'' ∧ c ≠ '"' :=
    List.forall_mem_singleton.mpr ⟨by decide, by decide, by decide⟩
  exact ⟨_, _, _, reachable, rfl, rfl, reachable.opensComment_iff
    (List.forall_mem_singleton.mpr (List.forall_mem_singleton.mpr plain)) .msSql {} rfl rfl⟩

/-- A minus before a negative number. -/
theorem Reachable.exists_comment :
    ∃ frame query text, Reachable frame ∧ frame.tables.map (·.1) = [["t"]] ∧
      frame.toSql Sql.Database.postgres.dialect = .ok query ∧
      query.render Sql.Database.postgres.dialect .compact = .ok text ∧
      text = "SELECT --1 AS \"x\" FROM (SELECT \"root\".\"c1\" AS \"c1\" FROM t AS \"root\") AS \"root\"" ∧
      opensComment text = true := by
  have made : Frame.project (.table ["t"] [⟨"c1", .integer, none, none⟩])
      [⟨"x", fun _ ↦ (TypedExpr.integer (-1)).neg, none⟩] = .ok (.projected _ _) := rfl
  exact ⟨_, _, _, .project (.table single_made) made, rfl, rfl, rfl, by decide, by decide⟩

end Frame

end FrameQuery
