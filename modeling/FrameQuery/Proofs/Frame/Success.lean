import FrameQuery.Frame.Emission
import FrameQuery.Proofs.Expr.Rendering
import FrameQuery.Proofs.Frame.Graph
import FrameQuery.Proofs.Frame.Nesting

/-!
# Frames that exist are rendered

Every step succeeds on a query with the columns that the checks of its transformation know, and
every assembled query has a text. A frame whose closures read only the rows they are given is
therefore rendered, unless a join with the closest row occurs in its graph; then it fails for that
reason and for no other one.
-/

namespace FrameQuery

open Outcome (Succeeds succeeds_ok)
open Sql (Dialect QuerySpecification SelectItem SubQuery Expression Relation)

variable {d : Dialect} {tables : List (List String × List String)}
  {query result : QuerySpecification} {names : List String}

/-! ### What closures read -/

/-- An expression reads only columns of rows with given columns. -/
def Expr.ReadsFrom (rows : List (RowVar × List String)) (e : Expr) : Prop :=
  ∀ read ∈ e.reads, ∃ names, (read.1, names) ∈ rows ∧ read.2 ∈ names

/-- Both parts of a computed column read only columns of the row. -/
def ComputedColumn.ReadsFrom (names : List String) (c : ComputedColumn) : Prop :=
  c.map.expr.ReadsFrom [(.right, names)] ∧
    ∀ aggregate, c.aggregate = some aggregate → aggregate.expr.ReadsFrom [(.right, names)]

/-- All closures in the graph of a frame returned expressions over the rows they were given. -/
def Frame.Scoped : Frame → Prop
  | table _ _ => True
  | filtered base condition =>
    base.Scoped ∧ condition.expr.ReadsFrom [(.right, base.columnNames)]
  | extended base new | windowExtended base _ new | projected base new | grouped base _ new =>
    base.Scoped ∧ ∀ c ∈ new, c.ReadsFrom base.columnNames
  | selected base _ | distinct base _ | renamed base _ | sorted base _ | sliced base _ _
  | limited base _ | dropped base _ | served base _ => base.Scoped
  | joined base other condition _ =>
    base.Scoped ∧ other.Scoped ∧ condition.expr.ReadsFrom
      [(.left, base.columnNames), (.right, other.columnNames)]
  | asOfJoined base other matching condition =>
    base.Scoped ∧ other.Scoped ∧ matching.expr.ReadsFrom
      [(.left, base.columnNames), (.right, other.columnNames)] ∧
      ∀ c, condition = some c → c.expr.ReadsFrom
        [(.left, base.columnNames), (.right, other.columnNames)]
  | concatenated base other => base.Scoped ∧ other.Scoped

/-- What a column holds reads only columns of the row. -/
theorem ComputedColumn.ReadsFrom.value {c : ComputedColumn} (h : c.ReadsFrom names) :
    c.value.expr.ReadsFrom [(.right, names)] := by
  unfold ComputedColumn.value
  cases ha : c.aggregate with
  | none => exact h.1
  | some aggregate => exact h.2 aggregate ha

namespace Sql.QuerySpecification.Selects

/-- Columns of a query can be resolved. -/
theorem succeeds_resolve (h : query.Selects d names) {name : String} (hn : name ∈ names) :
    Succeeds ((Scope.single d query).resolve .right name) := by
  obtain ⟨x, hx⟩ := h.findColumn? hn
  exact ⟨x, Scope.resolve_single.mpr ⟨rfl, hx⟩⟩

/-- Expressions over the columns of a query can be written. -/
theorem succeeds_toSql (h : query.Selects d names) {e : Expr}
    (reads : e.ReadsFrom [(.right, names)]) : Succeeds (e.toSql (.single d query)) := by
  refine Expr.succeeds_toSql fun read hr ↦ ?_
  obtain ⟨found, hm, hn⟩ := reads read hr
  obtain ⟨hv, rfl⟩ := Prod.mk.inj (List.mem_singleton.mp hm)
  rw [hv]
  exact h.succeeds_resolve hn

/-- Expressions over the columns of two queries can be written. -/
theorem succeeds_toSql_pair {left right : QuerySpecification} {lefts rights : List String}
    (hl : left.Selects d lefts) (hr : right.Selects d rights) {e : Expr}
    (reads : e.ReadsFrom [(.left, lefts), (.right, rights)]) :
    Succeeds (e.toSql (.pair d left right)) := by
  refine Expr.succeeds_toSql fun read hm ↦ ?_
  obtain ⟨found, hf, hn⟩ := reads read hm
  rcases List.mem_cons.mp hf with he | hf
  · obtain ⟨hv, rfl⟩ := Prod.mk.inj he
    obtain ⟨x, hx⟩ := hl.findColumn? hn
    exact ⟨x, Scope.resolve_pair.mpr (.inl ⟨hv, hx⟩)⟩
  · obtain ⟨hv, rfl⟩ := Prod.mk.inj (List.mem_singleton.mp hf)
    obtain ⟨x, hx⟩ := hr.findColumn? hn
    exact ⟨x, Scope.resolve_pair.mpr (.inr ⟨hv, hx⟩)⟩

/-- Sort keys over the columns of a query can be written. -/
theorem exists_sortItems (h : query.Selects d names) {keys : List SortKey}
    (known : keys.map (·.column) ⊆ names) :
    ∃ items, List.Forall₂ (fun k i ↦ k.toSql (.single d query) = .ok i) keys items := by
  refine Outcome.exists_forall₂ fun k hk ↦ ?_
  obtain ⟨x, hx⟩ := h.succeeds_resolve (known (List.mem_map_of_mem hk))
  exact ⟨_, SortKey.toSql_eq_ok.mpr ⟨x, hx, rfl⟩⟩

/-- Windows over the columns of a query can be written. -/
theorem succeeds_window (h : query.Selects d names) {window : WindowSpec}
    (known : window.columns ⊆ names) : Succeeds (window.toSql (.single d query)) := by
  obtain ⟨parts, sorts⟩ := List.append_subset.mp known
  obtain ⟨partitions, hp⟩ := Outcome.exists_forall₂ fun c hc ↦ h.succeeds_resolve (parts hc)
  obtain ⟨keys, hk⟩ := h.exists_sortItems sorts
  exact ⟨_, WindowSpec.toSql_eq_ok.mpr ⟨partitions, keys, hp, hk, rfl⟩⟩

/-- Labels of a query are labels of its entries. -/
theorem mem_labels (h : query.Selects d names) {name : String} (hn : name ∈ names) :
    some (d.quoted name) ∈ query.items.map (·.label?) := by
  rw [h]
  exact List.mem_map_of_mem (List.mem_map_of_mem hn)

end Sql.QuerySpecification.Selects

/-! ### Every step succeeds -/

namespace QueryStep

/-- A query with labels can be wrapped. -/
theorem succeeds_wrapIf (h : query.Selects d names) (needed : Bool) :
    Succeeds (wrapIf d needed query) := by
  cases needed with
  | true => exact ⟨_, wrapIf_eq_ok.mpr (.inl ⟨rfl, _, h.named "root", rfl⟩)⟩
  | false => exact ⟨query, wrapIf_eq_ok.mpr (.inr ⟨rfl, rfl⟩)⟩

/-- A filter succeeds if its condition reads columns of the query. -/
theorem succeeds_filtered {condition : Expr} (h : query.Selects d names)
    (reads : condition.ReadsFrom [(.right, names)]) : Succeeds (filtered d condition query) := by
  by_cases hc : condition = .constant (.boolean true)
  · exact ⟨query, filtered_eq_ok.mpr (.inl ⟨hc, rfl⟩)⟩
  · obtain ⟨inner, hw⟩ := succeeds_wrapIf h (wrapsForFilter query)
    obtain ⟨x, hx⟩ := (wrapIf_selects h hw).succeeds_toSql reads
    exact ⟨_, filtered_eq_ok.mpr (.inr ⟨hc, inner, x, hw, hx, rfl⟩)⟩

/-- A selection succeeds if it names columns of the query, each once. -/
theorem succeeds_selected {retained : List String} (h : query.Selects d names)
    (ne : retained ≠ []) (known : retained ⊆ names) (nodup : retained.Nodup) :
    Succeeds (selected d retained query) := by
  by_cases he : selectsExactly query (retained.map d.quoted) = true
  · exact ⟨query, selected_eq_ok.mpr (.inl ⟨he, rfl⟩)⟩
  · rw [Bool.not_eq_true] at he
    by_cases hw : wrapsForSelection query = true
    · have wrapped := (QuerySpecification.wrapped_some_eq_ok
        (by simpa using ne : retained.map d.quoted ≠ [])).mpr ⟨_, h.named "root", rfl⟩
      exact ⟨_, selected_eq_ok.mpr (.inr (.inl ⟨he, hw, wrapped⟩))⟩
    · rw [Bool.not_eq_true] at hw
      obtain ⟨kept, hk⟩ := exists_takeColumns nodup fun name hn ↦ h.mem_labels (known hn)
      exact ⟨_, selected_eq_ok.mpr (.inr (.inr ⟨he, hw, retain_eq_ok.mpr ⟨kept, hk, rfl⟩⟩))⟩

/-- Distinct rows succeed. -/
theorem succeeds_distinct (h : query.Selects d names) : Succeeds (distinct d none query) := by
  obtain ⟨inner, hw⟩ := succeeds_wrapIf h (query.hasAny [.offset, .limit])
  exact ⟨_, distinct_eq_ok.mpr ⟨query, inner, rfl, hw, rfl⟩⟩

/-- Distinct rows of some columns succeed if the selection does. -/
theorem succeeds_distinctBy {retained : List String} (h : query.Selects d names)
    (ne : retained ≠ []) (known : retained ⊆ names) (nodup : retained.Nodup) :
    Succeeds (distinct d (some retained) query) := by
  obtain ⟨restricted, hr⟩ := succeeds_selected h ne known nodup
  obtain ⟨inner, hw⟩ := succeeds_wrapIf (selected_selects h ne known hr)
    (restricted.hasAny [.offset, .limit])
  exact ⟨_, distinct_eq_ok.mpr ⟨restricted, inner, hr, hw, rfl⟩⟩

/-- An extension succeeds if its columns read columns of the query. -/
theorem succeeds_extended {new : List ComputedColumn} (h : query.Selects d names)
    (reads : ∀ c ∈ new, c.ReadsFrom names) : Succeeds (extended d new query) := by
  obtain ⟨inner, hw⟩ := succeeds_wrapIf h (query.has .groupBy)
  have selects := wrapIf_selects h hw
  have each : ∀ c ∈ new, Succeeds (newItem (.single d inner) c) := by
    intro c hc
    cases ha : c.aggregate with
    | none =>
      obtain ⟨x, hx⟩ := selects.succeeds_toSql (reads c hc).1
      exact ⟨_, newItem_eq_ok.mpr (.inl ⟨ha, x, hx, rfl⟩)⟩
    | some aggregate =>
      obtain ⟨x, hx⟩ := selects.succeeds_toSql ((reads c hc).2 aggregate ha)
      exact ⟨_, newItem_eq_ok.mpr (.inr ⟨aggregate, ha, x, hx, rfl⟩)⟩
  obtain ⟨items, hi⟩ := Outcome.exists_forall₂ each
  exact ⟨_, extended_eq_ok.mpr ⟨inner, items, hw, hi, rfl⟩⟩

/-- Columns that hold their values succeed if they read columns of the query. -/
private theorem succeeds_valueItem (h : query.Selects d names) {c : ComputedColumn}
    (reads : c.value.expr.ReadsFrom [(.right, names)]) :
    Succeeds (valueItem (.single d query) c) := by
  obtain ⟨x, hx⟩ := h.succeeds_toSql reads
  exact ⟨_, valueItem_eq_ok.mpr ⟨x, hx, rfl⟩⟩

/-- A window extension succeeds if its columns and its window read columns of the query. -/
theorem succeeds_windowExtended {window : WindowSpec} {new : List ComputedColumn}
    (h : query.Selects d names) (known : window.columns ⊆ names)
    (reads : ∀ c ∈ new, c.ReadsFrom names) : Succeeds (windowExtended d window new query) := by
  obtain ⟨sub, made⟩ : ∃ sub, query.named d "root" = .ok sub := ⟨_, h.named "root"⟩
  have selects := h.all made
  obtain ⟨clause, ho⟩ := selects.succeeds_window known
  have each : ∀ c ∈ new, Succeeds (windowItem (.single d sub.all) clause c) := by
    intro c hc
    obtain ⟨x, hx⟩ := selects.succeeds_toSql (reads c hc).value
    exact ⟨_, windowItem_eq_ok.mpr ⟨x, hx, rfl⟩⟩
  obtain ⟨items, hi⟩ := Outcome.exists_forall₂ each
  exact ⟨_, windowExtended_eq_ok.mpr ⟨sub, clause, items, made, ho, hi, rfl⟩⟩

/-- A projection succeeds if its columns read columns of the query. -/
theorem succeeds_projected {new : List ComputedColumn} (h : query.Selects d names)
    (reads : ∀ c ∈ new, c.ReadsFrom names) : Succeeds (projected d new query) := by
  obtain ⟨sub, made⟩ : ∃ sub, query.named d "root" = .ok sub := ⟨_, h.named "root"⟩
  have each : ∀ c ∈ new,
      Succeeds (valueItem (.single d sub.all) { c with aggregate := none }) :=
    fun c hc ↦ succeeds_valueItem (h.all made) (reads c hc).1
  obtain ⟨items, hi⟩ := Outcome.exists_forall₂ each
  exact ⟨_, projected_eq_ok.mpr ⟨sub, items, made, hi, rfl⟩⟩

/-- A renaming succeeds. -/
theorem succeeds_renamed (h : query.Selects d names) (pairs : List (String × String)) :
    Succeeds (renamed d pairs query) := by
  have each : ∀ i ∈ query.items, Succeeds (renamedItem (quotedPairs d pairs) i) := by
    intro i hi
    have hl : i.label? ∈ (names.map d.quoted).map some := h ▸ List.mem_map_of_mem hi
    obtain ⟨label, -, he⟩ := List.mem_map.mp hl
    obtain ⟨x, rfl⟩ := SelectItem.eq_column_of_label? he.symm
    exact succeeds_ok _
  obtain ⟨items, hi⟩ := Outcome.exists_forall₂ each
  exact ⟨_, renamed_eq_ok.mpr ⟨items, hi, rfl⟩⟩

/-- A grouping succeeds if its keys are columns of the query, each named once, and its aggregates
read columns of the query. -/
theorem succeeds_grouped {grouping : List String} {aggregates : List ComputedColumn}
    (h : query.Selects d names) (known : grouping ⊆ names) (nodup : grouping.Nodup)
    (reads : ∀ c ∈ aggregates, c.ReadsFrom names) :
    Succeeds (grouped d grouping aggregates query) := by
  obtain ⟨inner, hw⟩ := succeeds_wrapIf h (wrapsForGrouping query)
  have selects := wrapIf_selects h hw
  obtain ⟨items, hi⟩ := Outcome.exists_forall₂ fun c hc ↦
    succeeds_valueItem selects (reads c hc).value
  obtain ⟨keys, hk⟩ := Outcome.exists_forall₂ fun c hc ↦ selects.succeeds_resolve (known hc)
  obtain ⟨kept, ht⟩ := exists_takeColumns nodup fun name hn ↦ selects.mem_labels (known hn)
  exact ⟨_, grouped_eq_ok.mpr ⟨inner, items, keys, kept, hw, hi,
    Scope.resolveAll_eq_ok.mpr hk, ht, rfl⟩⟩

/-- A sorting succeeds if its keys are columns of the query. -/
theorem succeeds_sorted {keys : List SortKey} (h : query.Selects d names)
    (known : keys.map (·.column) ⊆ names) : Succeeds (sorted d keys query) := by
  obtain ⟨inner, hw⟩ := succeeds_wrapIf h (query.hasAny [.offset, .limit])
  obtain ⟨items, hi⟩ := (wrapIf_selects h hw).exists_sortItems known
  exact ⟨_, sorted_eq_ok.mpr ⟨inner, items, hw, hi, rfl⟩⟩

/-- A slice succeeds. -/
theorem succeeds_sliced (h : query.Selects d names) (start stop : Int64) :
    Succeeds (sliced d start stop query) := by
  obtain ⟨inner, hw⟩ := succeeds_wrapIf h (query.hasAny [.offset, .limit])
  exact ⟨_, sliced_eq_ok.mpr ⟨inner, hw, rfl⟩⟩

/-- A limit succeeds. -/
theorem succeeds_limited (h : query.Selects d names) (count : Int64) :
    Succeeds (limited d count query) := by
  obtain ⟨inner, hw⟩ := succeeds_wrapIf h (query.has .limit)
  exact ⟨_, limited_eq_ok.mpr ⟨inner, hw, rfl⟩⟩

/-- Dropping rows succeeds. -/
theorem succeeds_dropped (h : query.Selects d names) (count : Int64) :
    Succeeds (dropped d count query) := by
  obtain ⟨inner, hw⟩ := succeeds_wrapIf h (query.hasAny [.offset, .limit])
  exact ⟨_, dropped_eq_ok.mpr ⟨inner, hw, rfl⟩⟩

/-- A join succeeds if its condition reads columns of its two queries. -/
theorem succeeds_joined {lefts rights : QuerySpecification} {left right : SubQuery}
    {ls rs : List String} (hl : lefts.Selects d ls) (hr : rights.Selects d rs)
    (left_named : lefts.named d "left" = .ok left)
    (right_named : rights.named d "right" = .ok right) {condition : Expr}
    (reads : condition.ReadsFrom [(.left, ls), (.right, rs)]) (kind : JoinKind) :
    Succeeds (joined d condition kind left right) := by
  obtain ⟨x, hx⟩ := (hl.all left_named).succeeds_toSql_pair (hr.all right_named) reads
  have selects := paired_selects (hl.named_columns left_named) (hr.named_columns right_named)
    kind x
  exact ⟨_, joined_eq_ok.mpr ⟨x, _, hx, selects.named "root", rfl⟩⟩

end QueryStep

/-! ### Every frame without a join with the closest row is translated -/

namespace Frame

/-- A step on the query of a frame succeeds or fails as the query does. -/
private theorem outcome_step {asOf : Bool} {x : Outcome QuerySpecification}
    {step : QuerySpecification → Outcome QuerySpecification}
    (ih : (asOf = false → Succeeds x) ∧ (asOf = true → x = fail .asOfJoin))
    (succeeds : ∀ query, x = .ok query → Succeeds (step query)) :
    (asOf = false → Succeeds (x >>= step)) ∧ (asOf = true → x >>= step = fail .asOfJoin) := by
  constructor
  · intro h
    obtain ⟨query, hq⟩ := ih.1 h
    obtain ⟨result, hr⟩ := succeeds query hq
    exact ⟨result, Outcome.bind_eq_ok.mpr ⟨query, hq, hr⟩⟩
  · intro h
    rw [ih.2 h]
    rfl

/-- A step on the queries of two frames succeeds if both do, and otherwise fails as they do. -/
private theorem outcome_pair {base other : Frame} (left : Checked base) (right : Checked other)
    {step : SubQuery → SubQuery → Outcome QuerySpecification}
    (ihl : (base.joinsAsOf = false → Succeeds (base.toSql d)) ∧
      (base.joinsAsOf = true → base.toSql d = fail .asOfJoin))
    (ihr : (other.joinsAsOf = false → Succeeds (other.toSql d)) ∧
      (other.joinsAsOf = true → other.toSql d = fail .asOfJoin))
    (succeeds : ∀ (lefts rights : QuerySpecification) (l r : SubQuery),
      lefts.Selects d base.columnNames → rights.Selects d other.columnNames →
        lefts.named d "left" = .ok l → rights.named d "right" = .ok r → Succeeds (step l r)) :
    let x : Outcome QuerySpecification := do
      let l ← (← base.toSql d).named d "left"
      let r ← (← other.toSql d).named d "right"
      step l r
    ((base.joinsAsOf || other.joinsAsOf) = false → Succeeds x) ∧
      ((base.joinsAsOf || other.joinsAsOf) = true → x = fail .asOfJoin) := by
  intro x
  constructor
  · intro h
    obtain ⟨hbase, hother⟩ := Bool.or_eq_false_iff.mp h
    obtain ⟨lefts, hl⟩ := ihl.1 hbase
    obtain ⟨rights, hr⟩ := ihr.1 hother
    have selects_left := left.selects hl
    have selects_right := right.selects hr
    have named_left := selects_left.named "left"
    have named_right := selects_right.named "right"
    obtain ⟨result, made⟩ := succeeds lefts rights _ _ selects_left selects_right named_left
      named_right
    refine ⟨result, ?_⟩
    simp only [x, hl, hr, Outcome.ok_bind, named_left, named_right, made]
  · intro h
    cases hbase : base.joinsAsOf with
    | true =>
      simp only [x, ihl.2 hbase]
      rfl
    | false =>
      -- The first frame is written, so that the failure is that of the second one.
      rw [hbase, Bool.false_or] at h
      obtain ⟨lefts, hl⟩ := ihl.1 hbase
      have named_left := (left.selects hl).named "left"
      simp only [x, hl, Outcome.ok_bind, named_left, ihr.2 h]
      rfl

/-- A checked frame whose closures stay in their scope is translated, unless a join with the closest
row occurs in its graph; then it fails for this reason. -/
theorem Checked.toSql_outcome {frame : Frame} (checked : Checked frame) (reads : frame.Scoped) :
    (frame.joinsAsOf = false → Succeeds (frame.toSql d)) ∧
      (frame.joinsAsOf = true → frame.toSql d = fail .asOfJoin) := by
  induction checked with
  | table => exact ⟨fun _ ↦ succeeds_ok _, fun h ↦ (nomatch h)⟩
  | filtered checked _ ih =>
    exact outcome_step (ih reads.1) fun _ hq ↦
      QueryStep.succeeds_filtered (checked.selects hq) reads.2
  | selected checked ne known nodup ih =>
    exact outcome_step (ih reads) fun _ hq ↦
      QueryStep.succeeds_selected (checked.selects hq) ne known nodup
  | distinct checked ih =>
    exact outcome_step (ih reads) fun _ hq ↦ QueryStep.succeeds_distinct (checked.selects hq)
  | distinctBy checked ne known nodup ih =>
    exact outcome_step (ih reads) fun _ hq ↦
      QueryStep.succeeds_distinctBy (checked.selects hq) ne known nodup
  | extended checked _ _ ih =>
    exact outcome_step (ih reads.1) fun _ hq ↦
      QueryStep.succeeds_extended (checked.selects hq) reads.2
  | windowExtended checked _ _ known ih =>
    exact outcome_step (ih reads.1) fun _ hq ↦
      QueryStep.succeeds_windowExtended (checked.selects hq) known reads.2
  | projected checked _ _ _ ih =>
    exact outcome_step (ih reads.1) fun _ hq ↦
      QueryStep.succeeds_projected (checked.selects hq) reads.2
  | renamed checked _ _ _ _ ih =>
    exact outcome_step (ih reads) fun _ hq ↦ QueryStep.succeeds_renamed (checked.selects hq) _
  | grouped checked known _ nodup _ ih =>
    exact outcome_step (ih reads.1) fun _ hq ↦ QueryStep.succeeds_grouped (checked.selects hq)
      known (List.nodup_append.mp nodup).1 reads.2
  | sorted checked _ known ih =>
    exact outcome_step (ih reads) fun _ hq ↦ QueryStep.succeeds_sorted (checked.selects hq) known
  | sliced checked _ _ ih =>
    exact outcome_step (ih reads) fun _ hq ↦ QueryStep.succeeds_sliced (checked.selects hq) _ _
  | limited checked _ ih =>
    exact outcome_step (ih reads) fun _ hq ↦ QueryStep.succeeds_limited (checked.selects hq) _
  | dropped checked _ ih =>
    exact outcome_step (ih reads) fun _ hq ↦ QueryStep.succeeds_dropped (checked.selects hq) _
  | joined left right _ _ ihl ihr =>
    obtain ⟨left_reads, right_reads, reads⟩ := reads
    exact outcome_pair left right (ihl left_reads) (ihr right_reads)
      fun _ _ _ _ hl hr hln hrn ↦ QueryStep.succeeds_joined hl hr hln hrn reads _
  | asOfJoined => exact ⟨fun h ↦ (nomatch h), fun _ ↦ rfl⟩
  | concatenated left right _ ihl ihr =>
    exact outcome_pair left right (ihl reads.1) (ihr reads.2)
      fun _ _ _ _ _ _ _ _ ↦ succeeds_ok _
  | served _ ih => exact ih reads

end Frame

/-! ### Every assembled query is rendered -/

/-- A derived expression is rendered if the expressions are that it was derived from. -/
theorem Derived.renders {x : Expression} (inner : ∀ z ∈ query.expressions, z.Renders d)
    (derived : Derived d query x) : x.Renders d := by
  have columns (row : RowVar) (name : String) (value : Expression)
      (h : (Scope.single d query).resolve row name = .ok value) : value.Renders d :=
    inner value (Scope.expressions_of_resolve h)
  cases derived with
  | own hx => exact inner x hx
  | computed made => exact Expr.renders_toSql columns made
  | windowed made window =>
    exact WindowSpec.renders_toSql (columns .right) window (Expr.renders_toSql columns made)
  | both hf made =>
    have earlier := inner _ (QuerySpecification.mem_expressions.mpr (.inr (.inr (.inl hf))))
    exact earlier.logical .and (Expr.renders_toSql columns made)
  | integer value => exact Expression.renders_literal _

namespace Assembled

private theorem renders_items {sub : SubQuery} {columns : List String}
    {sources : List Relation} {x : Expression}
    (hx : x ∈ (QuerySpecification.plain (sub.items columns) sources).expressions) :
    x.Renders d := by
  obtain ⟨c, -, rfl⟩ := SubQuery.mem_expressions_items.mp
    (QuerySpecification.mem_expressions_plain.mp hx)
  exact Expression.renders_column _

private theorem renders_relation {sub : SubQuery} {name : String}
    (made : query.named d name = .ok sub) (h : query.Renders d) : sub.relation.Renders d := by
  rw [(QuerySpecification.named_eq_ok.mp made).2]
  exact (Relation.renders_subquery_specification h).aliased _ _

private theorem renders_all {sub : SubQuery} {name : String}
    (made : query.named d name = .ok sub) (h : query.Renders d) : sub.all.Renders d :=
  QuerySpecification.renders (List.forall_mem_singleton.mpr (renders_relation made h))
    fun _ ↦ renders_items

/-- What an assembled query reads from and its expressions are rendered. -/
private theorem renders_parts (assembled : Assembled d tables query) :
    (∀ r ∈ query.sources, r.Renders d) ∧ ∀ x ∈ query.expressions, x.Renders d := by
  induction assembled with
  | table =>
    refine ⟨List.forall_mem_singleton.mpr ((Relation.renders_table _).aliased _ _),
      fun x hx ↦ ?_⟩
    obtain ⟨i, hi, he⟩ := QuerySpecification.mem_expressions_plain.mp hx
    obtain ⟨name, -, rfl⟩ := List.mem_map.mp hi
    rw [← Option.some.inj he]
    exact Expression.renders_column _
  | wrapped _ made _ ih =>
    have relation := renders_relation made (QuerySpecification.renders ih.1 ih.2)
    exact ⟨List.forall_mem_singleton.mpr relation, fun _ ↦ renders_items⟩
  | derived _ sources derived ih =>
    exact ⟨sources ▸ ih.1, fun x hx ↦ (derived x hx).renders ih.2⟩
  | @paired _ _ _ _ kind _ _ _ _ left_named right_named made ihl ihr =>
    have left := QuerySpecification.renders ihl.1 ihl.2
    have right := QuerySpecification.renders ihr.1 ihr.2
    have columns (sub : SubQuery) : ∀ x ∈ sub.all.expressions, x.Renders d :=
      fun _ ↦ renders_items
    have holds := Expr.renders_toSql (d := d) (fun row name value h ↦ by
      rcases Scope.resolve_pair.mp h with ⟨-, h⟩ | ⟨-, h⟩
      · exact columns _ value (QuerySpecification.expressions_of_findColumn? h)
      · exact columns _ value (QuerySpecification.expressions_of_findColumn? h)) made
    have join := (renders_relation left_named left).join (QueryStep.joinType kind)
      (renders_relation right_named right) holds
    refine ⟨List.forall_mem_singleton.mpr join, fun x hx ↦ ?_⟩
    obtain ⟨i, hi, he⟩ := QuerySpecification.mem_expressions_plain.mp hx
    rcases List.mem_append.mp hi with hi | hi
    · exact columns _ x (QuerySpecification.mem_expressions_plain.mpr ⟨i, hi, he⟩)
    · exact columns _ x (QuerySpecification.mem_expressions_plain.mpr ⟨i, hi, he⟩)
  | concatenated _ _ left_named right_named _ ihl ihr =>
    have left := renders_all left_named (QuerySpecification.renders ihl.1 ihl.2)
    have right := renders_all right_named (QuerySpecification.renders ihr.1 ihr.2)
    have union := (Relation.renders_subquery_union left right false).aliased
    refine ⟨List.forall_mem_singleton.mpr (union _ _), fun x hx ↦ ?_⟩
    obtain ⟨i, hi, he⟩ := QuerySpecification.mem_expressions_plain.mp hx
    obtain ⟨name, -, rfl⟩ := List.mem_map.mp hi
    rw [← Option.some.inj he]
    exact Expression.renders_column _

/-- Assembled queries are rendered. -/
theorem renders (assembled : Assembled d tables query) : query.Renders d :=
  QuerySpecification.renders assembled.renders_parts.1 assembled.renders_parts.2

end Assembled

namespace Frame

/-- Every reachable frame whose closures return expressions over what they are given has a query and
a text for every type of database that a registry resolves, unless a join with the closest row
occurs in its graph. In that case both fail, and for no other reason. -/
theorem Reachable.emits {frame : Frame} (reachable : Reachable frame) (reads : frame.Scoped)
    {options : SqlOptions} {registry : Sql.Registry} {found : Sql.Instance}
    (resolved : (registry.find options.databaseType).1 = .ok found) :
    ((∀ g, Within g frame → g.isAsOfJoin = false) →
      (∃ query, (frame.sqlQuery options registry).1 = .ok query) ∧
        ∃ text, (frame.sqlText options registry).1 = .ok text) ∧
    ∀ g, Within g frame → g.isAsOfJoin = true →
      (frame.sqlQuery options registry).1 = fail .asOfJoin ∧
        (frame.sqlText options registry).1 = fail .asOfJoin := by
  have checked := reachable.checked
  obtain ⟨translated, unsupported⟩ :=
    checked.toSql_outcome (d := found.generator.dialect) reads
  have query : (frame.sqlQuery options registry).1 = frame.toSql found.generator.dialect := by
    unfold sqlQuery
    generalize registry.find options.databaseType = looked at resolved
    obtain ⟨generator, rest⟩ := looked
    rw [show generator = .ok found from resolved]
    rfl
  have text : (frame.sqlText options registry).1 = (do
      let query ← frame.toSql found.generator.dialect
      found.generator.render query options.format) := by
    unfold sqlText
    generalize registry.find options.databaseType = looked at resolved
    obtain ⟨generator, rest⟩ := looked
    rw [show generator = .ok found from resolved]
    rfl
  rw [query, text]
  constructor
  · intro none
    obtain ⟨written, made⟩ := translated (joinsAsOf_eq_false.mpr none)
    have renders := (checked.assembled (List.Subset.refl _) made).renders
    refine ⟨⟨written, made⟩, ?_⟩
    rw [made]
    exact (renders 0).map _
  · intro g within asOf
    have failed : frame.toSql found.generator.dialect = fail .asOfJoin := by
      refine unsupported (eq_true_of_ne_false fun h ↦ ?_)
      exact Bool.false_ne_true ((joinsAsOf_eq_false.mp h g within).symm.trans asOf)
    rw [failed]
    exact ⟨rfl, rfl⟩

/-- Some rows of a table are emitted for the default database; pairs of rows of two tables that are
closest to each other are not. -/
theorem Reachable.emits_rows :
    ∃ rows pairs, Reachable rows ∧ rows.Scoped ∧ Reachable pairs ∧ pairs.Scoped ∧
      ((∃ query, (rows.sqlQuery {} .initial).1 = .ok query) ∧
        ∃ text, (rows.sqlText {} .initial).1 = .ok text) ∧
      (pairs.sqlQuery {} .initial).1 = fail .asOfJoin ∧
        (pairs.sqlText {} .initial).1 = fail .asOfJoin := by
  have left : ofTable ["t"] [⟨"a", .integer, none, none⟩] =
      .ok (.table ["t"] [⟨"a", .integer, none, none⟩]) := rfl
  have right : ofTable ["u"] [⟨"b", .integer, none, none⟩] =
      .ok (.table ["u"] [⟨"b", .integer, none, none⟩]) := rfl
  have positive : Frame.filter (.table ["t"] [⟨"a", .integer, none, none⟩])
      (fun row ↦ do (← row.get "a").compare (.integer 0) .greaterThan) = .ok (.filtered _ _) := rfl
  have closest : Frame.asOfJoin (.table ["t"] [⟨"a", .integer, none, none⟩])
      (.table ["u"] [⟨"b", .integer, none, none⟩])
      (fun l r ↦ do (← l.get "a").compare (← r.get "b") .greaterThan) none =
        .ok (.asOfJoined _ _ _ _) := rfl
  have rows := Reachable.filter (.table left) positive
  have pairs := Reachable.asOfJoin (.table left) (.table right) closest
  have rows_read : Scoped (.filtered (.table ["t"] [⟨"a", .integer, none, none⟩]) ⟨.boolean,
      .binary (.compare .greaterThan) (.column .right "a" none) (.constant (.integer 0))⟩) := by
    refine ⟨trivial, fun read hr ↦ ?_⟩
    obtain rfl : read = (.right, "a") := by simpa [Expr.reads] using hr
    exact ⟨["a"], List.mem_singleton_self _, List.mem_singleton_self _⟩
  have pairs_read : Scoped (.asOfJoined (.table ["t"] [⟨"a", .integer, none, none⟩])
      (.table ["u"] [⟨"b", .integer, none, none⟩]) ⟨.boolean,
        .binary (.compare .greaterThan) (.column .left "a" none) (.column .right "b" none)⟩
      none) := by
    refine ⟨trivial, trivial, fun read hr ↦ ?_, fun _ h ↦ by cases h⟩
    have hr : read = (.left, "a") ∨ read = (.right, "b") := by simpa [Expr.reads] using hr
    rcases hr with rfl | rfl
    · exact ⟨["a"], List.mem_cons_self, List.mem_singleton_self _⟩
    · exact ⟨["b"], List.mem_cons_of_mem _ (List.mem_singleton_self _), List.mem_singleton_self _⟩
  have resolved : (Sql.Registry.find .initial "Postgres").1 = .ok ⟨0, .ofDatabase .postgres⟩ := rfl
  exact ⟨_, _, rows, rows_read, pairs, pairs_read,
    (rows.emits rows_read resolved).1 (joinsAsOf_eq_false.mp rfl),
    (pairs.emits pairs_read resolved).2 _ (.self _) rfl⟩

end Frame

end FrameQuery
