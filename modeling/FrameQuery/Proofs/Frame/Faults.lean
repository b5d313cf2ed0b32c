import FrameQuery.Proofs.Frame.Graph
import FrameQuery.Proofs.Frame.Nesting
import FrameQuery.Proofs.Sql.Terms

/-!
# Where faults of queries come from

Faults are things that a walk finds at query blocks and at joins, but never in columns that are only
passed on. Steps read from the query of the frame before or wrap it, and either leaves its faults as
they are. So if the frames that a frame was made of have queries without faults, the only faults of
its own query are those of the outermost block or, if the frame is a join, those of the join.
-/

namespace FrameQuery

open Sql (Dialect QuerySpecification SelectItem SubQuery Expression Relation Walk)

variable {α : Type} {w : Walk α} {d : Dialect} {tables : List (List String × List String)}
  {query inner result : QuerySpecification} {sub : SubQuery}

namespace Sql

/-- Entries of a select list that are columns of the relations that are read. -/
def SelectItem.Passing (items : List SelectItem) : Prop :=
  ∀ i ∈ items, ∃ label parts, i = .column label (.column parts)

/-- A walk that gathers something at blocks and at joins, but nothing at blocks that pass columns on
and nothing more at a block that selects less. -/
structure Walk.FindsFaults (w : Walk α) : Prop extends w.IgnoresExpressions where
  passing : ∀ items sources, SelectItem.Passing items → w.block (.plain items sources) = []
  fewer : ∀ query items, items ⊆ query.items → w.block query = [] →
    w.block (query.withItems items) = []
  table : ∀ name, w.relation (.table name) = []
  aliased : ∀ relation correlation columns, w.relation (.aliased relation correlation columns) = []
  subquery : ∀ body, w.relation (.subquery (.plain body)) = []
  union : ∀ left right distinct, w.relation (.union left right distinct) = []
  specification : ∀ query, w.relation (.specification query) = []

/-- What is wrong with expressions, but not with columns, makes the faults of a query. -/
theorem Walk.findsFaults_ofExpressions {gather : Expression → List α}
    (column : ∀ parts, gather (.column parts) = []) : (Walk.ofExpressions gather).FindsFaults where
  window _ _ := rfl
  reduced _ := rfl
  reference _ := rfl
  passing items sources passing := by
    refine Walk.block_ofExpressions_eq_nil.mpr fun x hx ↦ ?_
    obtain ⟨i, hi, he⟩ := QuerySpecification.mem_expressions_plain.mp hx
    obtain ⟨label, parts, rfl⟩ := passing i hi
    rw [← Option.some.inj he]
    exact column parts
  fewer query items fewer none := by
    obtain ⟨selected, others⟩ := QuerySpecification.forall_mem_expressions.mp
      (Walk.block_ofExpressions_eq_nil.mp none)
    exact Walk.block_ofExpressions_eq_nil.mpr
      (QuerySpecification.forall_mem_expressions.mpr ⟨fun i hi ↦ selected i (fewer hi), others⟩)
  table _ := rfl
  aliased _ _ _ := rfl
  subquery _ := rfl
  union _ _ _ := rfl
  specification _ := rfl

/-- Columns of a sub-query are passed on. -/
theorem SubQuery.passing_items {columns : List String} :
    SelectItem.Passing (sub.items columns) := by
  intro i hi
  obtain ⟨c, -, rfl⟩ := List.mem_map.mp hi
  exact ⟨_, _, rfl⟩

/-- Columns of two sub-queries are passed on. -/
theorem SelectItem.Passing.append {first second : List SelectItem} (hf : Passing first)
    (hs : Passing second) : Passing (first ++ second) := by
  intro i hi
  rcases List.mem_append.mp hi with hi | hi
  · exact hf i hi
  · exact hs i hi

/-- The faults nested in a sub-query are those of its query. -/
theorem SubQuery.faults_relation (hw : w.FindsFaults) :
    sub.relation.walk w = sub.query.walk w := by
  rw [walk_relation, SubQuery.relation, hw.aliased, hw.subquery, hw.specification]
  rfl

end Sql

/-- An assembled query has no faults exactly when neither its block nor what it reads from has
any. -/
theorem Assembled.walk_eq_nil (hw : w.FindsFaults) (assembled : Assembled d tables query) :
    query.walk w = [] ↔ w.block query = [] ∧ ∀ r ∈ query.sources, r.walk w = [] := by
  simp only [List.eq_nil_iff_forall_not_mem, assembled.mem_walk_iff hw.toIgnoresExpressions,
    not_or, not_exists, not_and, forall_and]
  exact and_congr_right' ⟨fun h r hr y ↦ h y r hr, fun h y r hr ↦ h r hr y⟩

/-- All columns of a sub-query have the faults of its query. -/
theorem Assembled.all_walk_eq_nil {name : String} (hw : w.FindsFaults)
    (assembled : Assembled d tables query) (made : query.named d name = .ok sub) :
    sub.all.walk w = [] ↔ query.walk w = [] := by
  rw [(assembled.all made).walk_eq_nil hw]
  refine (and_iff_right (hw.passing _ _ SubQuery.passing_items)).trans ?_
  refine List.forall_mem_singleton.trans ?_
  rw [SubQuery.faults_relation hw, (QuerySpecification.named_eq_ok.mp made).2]

/-- An assembled query without faults. -/
structure Faultless (d : Dialect) (tables : List (List String × List String)) (w : Walk α)
    (query : QuerySpecification) : Prop where
  assembled : Assembled d tables query
  none : query.walk w = []

namespace Faultless

/-- The block of a query without faults has none. -/
theorem block (hw : w.FindsFaults) (faultless : Faultless d tables w query) :
    w.block query = [] :=
  ((faultless.assembled.walk_eq_nil hw).mp faultless.none).1

/-- A block that reads from the relations of a query without faults has only its own ones. -/
theorem walk_eq_nil (hw : w.FindsFaults) (faultless : Faultless d tables w query)
    (assembled : Assembled d tables result) (sources : result.sources = query.sources) :
    result.walk w = [] ↔ w.block result = [] := by
  rw [assembled.walk_eq_nil hw, sources]
  exact and_iff_left ((faultless.assembled.walk_eq_nil hw).mp faultless.none).2

/-- A wrapped query has no faults if the query has none. -/
theorem wrapped {name : String} {columns : List String} (hw : w.FindsFaults)
    (faultless : Faultless d tables w query) (made : query.named d name = .ok sub)
    (known : columns ⊆ sub.columns) :
    Faultless d tables w (.plain (sub.items columns) [sub.relation]) := by
  have assembled := Assembled.wrapped faultless.assembled made known
  refine ⟨assembled, (assembled.walk_eq_nil hw).mpr ⟨hw.passing _ _ SubQuery.passing_items, ?_⟩⟩
  refine List.forall_mem_singleton.mpr ?_
  rw [SubQuery.faults_relation hw, (QuerySpecification.named_eq_ok.mp made).2]
  exact faultless.none

/-- All columns of a query without faults. -/
theorem all {name : String} (hw : w.FindsFaults) (faultless : Faultless d tables w query)
    (made : query.named d name = .ok sub) : Faultless d tables w sub.all :=
  faultless.wrapped hw made (List.Subset.refl _)

/-- A query that is wrapped if need be has no faults if the query has none. -/
theorem wrapIf {needed : Bool} (hw : w.FindsFaults) (faultless : Faultless d tables w query)
    (made : QueryStep.wrapIf d needed query = .ok inner) : Faultless d tables w inner := by
  rcases QueryStep.wrapIf_eq_ok.mp made with ⟨-, sub, hs, rfl⟩ | ⟨-, rfl⟩
  · exact faultless.all hw hs
  · exact faultless

end Faultless

/-! ### The faults that each step makes -/

namespace QueryStep

variable (hw : w.FindsFaults)

include hw

/-- All rows of a table have no faults. -/
theorem table_faultless {parts names : List String} (known : (parts, names) ∈ tables) :
    Faultless d tables w (table d parts names) := by
  have assembled := Assembled.table (d := d) known
  refine ⟨assembled, (assembled.walk_eq_nil hw).mpr
    ⟨hw.passing _ _ fun i hi ↦ ?_, List.forall_mem_singleton.mpr ?_⟩⟩
  · obtain ⟨name, -, rfl⟩ := List.mem_map.mp hi
    exact ⟨_, _, rfl⟩
  · rw [Relation.walk, Relation.walk, hw.aliased, hw.table]
    rfl

variable (faultless : Faultless d tables w query)

include faultless

/-- The faults of a filtered query are those of its block. -/
theorem filtered_faults {condition : Expr} (made : filtered d condition query = .ok result) :
    result.walk w = [] ↔ w.block result = [] := by
  have filtered := filtered_assembled faultless.assembled made
  rcases filtered_eq_ok.mp made with ⟨-, rfl⟩ | ⟨-, inner, x, hi, -, rfl⟩
  · exact faultless.walk_eq_nil hw filtered rfl
  · exact (faultless.wrapIf hw hi).walk_eq_nil hw filtered rfl

/-- A selection makes no faults. -/
theorem selected_faultless {names : List String} (ne : names ≠ [])
    (made : selected d names query = .ok result) : Faultless d tables w result := by
  have selected := selected_assembled faultless.assembled ne made
  rcases selected_eq_ok.mp made with ⟨-, rfl⟩ | ⟨-, -, hi⟩ | ⟨-, -, hr⟩
  · exact faultless
  · obtain ⟨sub, hs, rfl⟩ := (QuerySpecification.wrapped_some_eq_ok (by simpa using ne)).mp hi
    refine faultless.wrapped hw hs fun label hl ↦ ?_
    simpa using (List.mem_filter.mp hl).2
  · obtain ⟨kept, ht, rfl⟩ := retain_eq_ok.mp hr
    refine ⟨selected, (faultless.walk_eq_nil hw selected rfl).mpr ?_⟩
    exact hw.fewer query kept (takeColumns_eq_ok ht).2 (faultless.block hw)

/-- The faults of a query of distinct rows are those of its block. -/
theorem distinct_faults {names : Option (List String)} (ne : names ≠ some [])
    (made : distinct d names query = .ok result) :
    result.walk w = [] ↔ w.block result = [] := by
  have distinct := distinct_assembled faultless.assembled ne made
  obtain ⟨restricted, inner, hr, hi, rfl⟩ := distinct_eq_ok.mp made
  have first : Faultless d tables w restricted := by
    cases names with
    | none =>
      rw [hr]
      exact faultless
    | some names => exact selected_faultless hw faultless (by simpa using ne) hr
  exact (first.wrapIf hw hi).walk_eq_nil hw distinct rfl

/-- The faults of an extended query are those of its block. -/
theorem extended_faults {new : List ComputedColumn} (made : extended d new query = .ok result) :
    result.walk w = [] ↔ w.block result = [] := by
  have extended := extended_assembled faultless.assembled made
  obtain ⟨inner, items, hi, -, rfl⟩ := extended_eq_ok.mp made
  exact (faultless.wrapIf hw hi).walk_eq_nil hw extended rfl

/-- The faults of a query with columns over a window are those of its block. -/
theorem windowExtended_faults {window : WindowSpec} {new : List ComputedColumn}
    (made : windowExtended d window new query = .ok result) :
    result.walk w = [] ↔ w.block result = [] := by
  have extended := windowExtended_assembled faultless.assembled made
  obtain ⟨sub, clause, items, hs, -, -, rfl⟩ := windowExtended_eq_ok.mp made
  exact (faultless.all hw hs).walk_eq_nil hw extended rfl

/-- The faults of a projection are those of its block. -/
theorem projected_faults {new : List ComputedColumn}
    (made : projected d new query = .ok result) : result.walk w = [] ↔ w.block result = [] := by
  have projected := projected_assembled faultless.assembled made
  obtain ⟨sub, items, hs, -, rfl⟩ := projected_eq_ok.mp made
  exact (faultless.all hw hs).walk_eq_nil hw projected rfl

/-- The faults of a query with renamed columns are those of its block. -/
theorem renamed_faults {pairs : List (String × String)}
    (made : renamed d pairs query = .ok result) : result.walk w = [] ↔ w.block result = [] := by
  have renamed := renamed_assembled faultless.assembled made
  obtain ⟨items, -, rfl⟩ := renamed_eq_ok.mp made
  exact faultless.walk_eq_nil hw renamed rfl

/-- The faults of a grouped query are those of its block. -/
theorem grouped_faults {grouping : List String} {aggregates : List ComputedColumn}
    (made : grouped d grouping aggregates query = .ok result) :
    result.walk w = [] ↔ w.block result = [] := by
  have grouped := grouped_assembled faultless.assembled made
  obtain ⟨inner, items, keys, kept, hi, -, -, -, rfl⟩ := grouped_eq_ok.mp made
  exact (faultless.wrapIf hw hi).walk_eq_nil hw grouped rfl

/-- The faults of a sorted query are those of its block. -/
theorem sorted_faults {keys : List SortKey} (made : sorted d keys query = .ok result) :
    result.walk w = [] ↔ w.block result = [] := by
  have sorted := sorted_assembled faultless.assembled made
  obtain ⟨inner, items, hi, -, rfl⟩ := sorted_eq_ok.mp made
  exact (faultless.wrapIf hw hi).walk_eq_nil hw sorted rfl

/-- The faults of a slice are those of its block. -/
theorem sliced_faults {start stop : Int64} (made : sliced d start stop query = .ok result) :
    result.walk w = [] ↔ w.block result = [] := by
  have sliced := sliced_assembled faultless.assembled made
  obtain ⟨inner, hi, rfl⟩ := sliced_eq_ok.mp made
  exact (faultless.wrapIf hw hi).walk_eq_nil hw sliced rfl

/-- The faults of a query with a limit are those of its block. -/
theorem limited_faults {count : Int64} (made : limited d count query = .ok result) :
    result.walk w = [] ↔ w.block result = [] := by
  have limited := limited_assembled faultless.assembled made
  obtain ⟨inner, hi, rfl⟩ := limited_eq_ok.mp made
  exact (faultless.wrapIf hw hi).walk_eq_nil hw limited rfl

/-- The faults of a query that drops rows are those of its block. -/
theorem dropped_faults {count : Int64} (made : dropped d count query = .ok result) :
    result.walk w = [] ↔ w.block result = [] := by
  have dropped := dropped_assembled faultless.assembled made
  obtain ⟨inner, hi, rfl⟩ := dropped_eq_ok.mp made
  exact (faultless.wrapIf hw hi).walk_eq_nil hw dropped rfl

omit faultless

variable {lefts rights : QuerySpecification} {left right : SubQuery}
  (left_faultless : Faultless d tables w lefts) (right_faultless : Faultless d tables w rights)
  (left_named : lefts.named d "left" = .ok left) (right_named : rights.named d "right" = .ok right)

include left_faultless right_faultless left_named right_named

/-- The faults of a join are those of its relation. -/
theorem joined_faults {condition : Expr} {kind : JoinKind} {holds : Expression}
    (written : condition.toSql (.pair d left.all right.all) = .ok holds)
    (made : (paired kind left right holds).named d "root" = .ok sub) :
    sub.all.walk w = [] ↔
      w.relation (.join (joinType kind) left.relation right.relation (some (.condition holds))) =
        [] := by
  have pairs : Assembled d tables (paired kind left right holds) :=
    .paired left_faultless.assembled right_faultless.assembled left_named right_named written
  have unseen : holds.walk w = [] := List.eq_nil_iff_forall_not_mem.mpr fun _ ↦
    Assembled.not_mem_walk_holds hw.toIgnoresExpressions (left_faultless.assembled.all left_named)
      (right_faultless.assembled.all right_named) written
  have hl : left.query = lefts := by rw [(QuerySpecification.named_eq_ok.mp left_named).2]
  have hr : right.query = rights := by rw [(QuerySpecification.named_eq_ok.mp right_named).2]
  rw [pairs.all_walk_eq_nil hw made, pairs.walk_eq_nil hw]
  refine (and_iff_right (hw.passing _ _ ?_)).trans ?_
  · exact SubQuery.passing_items.append SubQuery.passing_items
  · refine List.forall_mem_singleton.trans ?_
    rw [Relation.walk, SubQuery.faults_relation hw, SubQuery.faults_relation hw, hl, hr,
      left_faultless.none, right_faultless.none, Sql.JoinCriteria.optionWalk, Sql.JoinCriteria.walk,
      unseen, List.append_nil, List.append_nil, List.append_nil]

/-- Two queries one after the other have no faults. -/
theorem concatenated_faultless (columns : left.columns = right.columns) :
    Faultless d tables w (concatenated d left right) := by
  have concatenated := Assembled.concatenated left_faultless.assembled right_faultless.assembled
    left_named right_named columns
  refine ⟨concatenated, (concatenated.walk_eq_nil hw).mpr
    ⟨hw.passing _ _ fun i hi ↦ ?_, List.forall_mem_singleton.mpr ?_⟩⟩
  · obtain ⟨c, -, rfl⟩ := List.mem_map.mp hi
    exact ⟨_, _, rfl⟩
  · simp only [Relation.walk, Sql.Query.walk_plain, hw.aliased, hw.subquery, hw.union,
      hw.specification, (left_faultless.all hw left_named).none,
      (right_faultless.all hw right_named).none, List.append_nil]

end QueryStep

/-! ### The faults in the graph of a frame -/

namespace Frame

/-- A frame that has passed its checks, and the query that it is written as. -/
structure Written (d : Dialect) (frame : Frame) (query : QuerySpecification) : Prop where
  checked : Checked frame
  made : frame.toSql d = .ok query

/-- The query of a frame has no faults. -/
def FreeOf (d : Dialect) (w : Walk α) (frame : Frame) : Prop :=
  ∀ query, frame.toSql d = .ok query → query.walk w = []

namespace Written

variable {frame : Frame}

/-- The frame that a written frame was derived from is written. -/
theorem base {base : Frame} (written : Written d frame query) (he : frame.base? = some base) :
    ∃ inner, Written d base inner := by
  obtain ⟨checked, made⟩ := written
  induction checked generalizing query with
  | table => cases he
  | served _ ih => exact ih he made
  | joined checked | concatenated checked =>
    obtain ⟨lefts, -, -, -, hl, -⟩ := toSql_pair_eq_ok.mp made
    exact ⟨lefts, Option.some.inj he ▸ checked, Option.some.inj he ▸ hl⟩
  | asOfJoined => exact absurd made Outcome.fail_ne_ok
  | filtered checked | selected checked | distinct checked | distinctBy checked | extended checked
  | windowExtended checked | projected checked | renamed checked | grouped checked
  | sorted checked | sliced checked | limited checked | dropped checked =>
    obtain ⟨inner, hi, -⟩ := Outcome.bind_eq_ok.mp made
    exact ⟨inner, Option.some.inj he ▸ checked, Option.some.inj he ▸ hi⟩

/-- The frames that a written frame reads besides are written. -/
theorem parameter {other : Frame} (written : Written d frame query)
    (hm : other ∈ frame.parameters) : ∃ inner, Written d other inner := by
  obtain ⟨checked, made⟩ := written
  induction checked generalizing query with
  | served _ ih => exact ih hm made
  | joined _ checked | concatenated _ checked =>
    obtain ⟨-, -, rights, -, -, -, hr, -⟩ := toSql_pair_eq_ok.mp made
    exact ⟨rights, List.mem_singleton.mp hm ▸ checked, List.mem_singleton.mp hm ▸ hr⟩
  | asOfJoined => exact absurd made Outcome.fail_ne_ok
  | _ => cases hm

/-- Every frame in the graph of a written frame is written. -/
theorem within {g : Frame} (written : Written d frame query) (h : Within g frame) :
    ∃ inner, Written d g inner := by
  induction h generalizing query with
  | self => exact ⟨query, written⟩
  | base he _ ih =>
    obtain ⟨inner, hi⟩ := written.base he
    exact ih hi
  | parameter hm _ ih =>
    obtain ⟨inner, hi⟩ := written.parameter hm
    exact ih hi

/-- A written frame has no faults exactly if its query has none. -/
theorem freeOf_iff (written : Written d frame query) : frame.FreeOf d w ↔ query.walk w = [] := by
  simp only [FreeOf, written.made, Except.ok.injEq, forall_eq']

/-- The query of a written frame without faults. -/
theorem faultless (written : Written d frame query) (known : frame.tables ⊆ tables)
    (free : frame.FreeOf d w) : Faultless d tables w query :=
  ⟨written.checked.assembled known written.made, written.freeOf_iff.mp free⟩

/-- The queries of two written frames without faults, over the tables of both. -/
theorem faultless_pair {other : Frame} {lefts rights : QuerySpecification}
    (left : Written d frame lefts) (right : Written d other rights) (left_free : frame.FreeOf d w)
    (right_free : other.FreeOf d w) : Faultless d (frame.tables ++ other.tables) w lefts ∧
      Faultless d (frame.tables ++ other.tables) w rights :=
  ⟨left.faultless (List.subset_append_left _ _) left_free,
    right.faultless (List.subset_append_right _ _) right_free⟩

end Written

/-- Where the query of a frame has no faults, a step from it makes none exactly under a
condition. -/
structure Decides (d : Dialect) (w : Walk α) (base : Frame)
    (step : QuerySpecification → Outcome QuerySpecification) (P : Prop) : Prop where
  iff : ∀ {tables query result}, base.toSql d = .ok query → Faultless d tables w query →
    step query = .ok result → (result.walk w = [] ↔ P)

namespace Decides

variable {base : Frame} {step : QuerySpecification → Outcome QuerySpecification} {P : Prop}

/-- A step that makes no faults. -/
theorem always (h : ∀ {tables query result}, Faultless d tables w query →
    step query = .ok result → result.walk w = []) (hp : P) : Decides d w base step P :=
  ⟨fun _ faultless made ↦ iff_of_true (h faultless made) hp⟩

/-- A step that makes no faults exactly under a condition on what it does. -/
theorem exactly (h : ∀ {tables query result}, Faultless d tables w query →
    step query = .ok result → (result.walk w = [] ↔ P)) : Decides d w base step P :=
  ⟨fun _ ↦ h⟩

/-- A step that makes no faults exactly under a condition on the query before. -/
theorem depending {Q : QuerySpecification → Prop} (h : ∀ {tables query result},
    Faultless d tables w query → step query = .ok result → (result.walk w = [] ↔ Q query)) :
    Decides d w base step (∀ query, base.toSql d = .ok query → Q query) where
  iff earlier faultless made := by
    rw [h faultless made]
    simp only [earlier, Except.ok.injEq, forall_eq']

end Decides

/-- For each step that a frame can end with, a condition on the frame that holds exactly if the step
makes no faults. -/
structure StepFaults (d : Dialect) (w : Walk α) (Keeps : Frame → Prop) : Prop where
  finds : w.FindsFaults
  table parts columns : Keeps (table parts columns)
  filtered base condition :
    Decides d w base (QueryStep.filtered d condition.expr) (Keeps (filtered base condition))
  selected base names : Keeps (selected base names)
  distinct base names (ne : names ≠ some []) :
    Decides d w base (QueryStep.distinct d names) (Keeps (distinct base names))
  extended base new : Decides d w base (QueryStep.extended d new) (Keeps (extended base new))
  windowExtended base window new :
    Decides d w base (QueryStep.windowExtended d window new)
      (Keeps (windowExtended base window new))
  projected base new : Decides d w base (QueryStep.projected d new) (Keeps (projected base new))
  renamed base pairs : Decides d w base (QueryStep.renamed d pairs) (Keeps (renamed base pairs))
  grouped base grouping aggregates :
    Decides d w base (QueryStep.grouped d grouping aggregates)
      (Keeps (grouped base grouping aggregates))
  sorted base keys : Decides d w base (QueryStep.sorted d keys) (Keeps (sorted base keys))
  sliced base start stop :
    Decides d w base (QueryStep.sliced d start stop) (Keeps (sliced base start stop))
  limited base count : Decides d w base (QueryStep.limited d count) (Keeps (limited base count))
  dropped base count : Decides d w base (QueryStep.dropped d count) (Keeps (dropped base count))
  joined base other condition kind {left right : SubQuery} {holds : Expression}
    (written : condition.expr.toSql (.pair d left.all right.all) = .ok holds) :
    w.relation (.join (QueryStep.joinType kind) left.relation right.relation
      (some (.condition holds))) = [] ↔ Keeps (joined base other condition kind)
  concatenated base other : Keeps (concatenated base other)
  served frame service : Keeps (served frame service) ↔ Keeps frame

namespace StepFaults

variable {Keeps : Frame → Prop} {base other frame : Frame}

/-- A frame that is derived by a step has no faults exactly if the step makes none. -/
private theorem freeOf_step {step : QuerySpecification → Outcome QuerySpecification} {P : Prop}
    (checked : Checked base) (free : base.FreeOf d w) (decides : Decides d w base step P)
    (made : base.toSql d >>= step = .ok result) (sql : frame.toSql d = base.toSql d >>= step) :
    frame.FreeOf d w ↔ P := by
  obtain ⟨query, hq, hs⟩ := Outcome.bind_eq_ok.mp made
  have faultless : Faultless d base.tables w query :=
    Written.faultless ⟨checked, hq⟩ (List.Subset.refl _) free
  rw [← decides.iff hq faultless hs]
  simp only [FreeOf, sql, made, Except.ok.injEq, forall_eq']

/-- A frame made of frames that have no faults has none exactly if its last step makes none. -/
theorem freeOf_iff (steps : StepFaults d w Keeps) (checked : Checked frame)
    (made : frame.toSql d = .ok result) (hb : ∀ base, frame.base? = some base → base.FreeOf d w)
    (hp : ∀ other ∈ frame.parameters, other.FreeOf d w) : frame.FreeOf d w ↔ Keeps frame := by
  induction checked generalizing result with
  | @table parts columns =>
    have known : (parts, Column.names columns) ∈ [(parts, Column.names columns)] :=
      List.mem_singleton_self _
    refine iff_of_true (fun query hq ↦ ?_) (steps.table _ _)
    rw [← Except.ok.inj hq]
    exact (QueryStep.table_faultless steps.finds known).none
  | filtered checked => exact freeOf_step checked (hb _ rfl) (steps.filtered _ _) made rfl
  | selected checked ne =>
    have selected {tables query result} (faultless : Faultless d tables w query)
        (made : QueryStep.selected d _ query = .ok result) : result.walk w = [] :=
      (QueryStep.selected_faultless steps.finds faultless ne made).none
    exact freeOf_step checked (hb _ rfl) (.always selected (steps.selected _ _)) made rfl
  | distinct checked =>
    exact freeOf_step checked (hb _ rfl) (steps.distinct _ _ (by simp)) made rfl
  | distinctBy checked ne =>
    exact freeOf_step checked (hb _ rfl) (steps.distinct _ _ (by simpa using ne)) made rfl
  | extended checked => exact freeOf_step checked (hb _ rfl) (steps.extended _ _) made rfl
  | windowExtended checked =>
    exact freeOf_step checked (hb _ rfl) (steps.windowExtended _ _ _) made rfl
  | projected checked => exact freeOf_step checked (hb _ rfl) (steps.projected _ _) made rfl
  | renamed checked => exact freeOf_step checked (hb _ rfl) (steps.renamed _ _) made rfl
  | grouped checked => exact freeOf_step checked (hb _ rfl) (steps.grouped _ _ _) made rfl
  | sorted checked => exact freeOf_step checked (hb _ rfl) (steps.sorted _ _) made rfl
  | sliced checked => exact freeOf_step checked (hb _ rfl) (steps.sliced _ _ _) made rfl
  | limited checked => exact freeOf_step checked (hb _ rfl) (steps.limited _ _) made rfl
  | dropped checked => exact freeOf_step checked (hb _ rfl) (steps.dropped _ _) made rfl
  | joined left right =>
    obtain ⟨lefts, _, rights, _, hl, left_named, hr, right_named, hs⟩ := toSql_pair_eq_ok.mp made
    obtain ⟨holds, sub, he, hn, rfl⟩ := QueryStep.joined_eq_ok.mp hs
    obtain ⟨lefts_faultless, rights_faultless⟩ := Written.faultless_pair ⟨left, hl⟩ ⟨right, hr⟩
      (hb _ rfl) (hp _ (List.mem_singleton_self _))
    rw [← steps.joined _ _ _ _ he, ← QueryStep.joined_faults steps.finds lefts_faultless
      rights_faultless left_named right_named he hn]
    simp only [FreeOf, made, Except.ok.injEq, forall_eq']
  | asOfJoined => exact absurd made Outcome.fail_ne_ok
  | concatenated left right agree =>
    obtain ⟨lefts, _, rights, _, hl, left_named, hr, right_named, hs⟩ := toSql_pair_eq_ok.mp made
    have columns := left.columns_agree right agree hl hr left_named right_named
    obtain ⟨lefts_faultless, rights_faultless⟩ := Written.faultless_pair ⟨left, hl⟩ ⟨right, hr⟩
      (hb _ rfl) (hp _ (List.mem_singleton_self _))
    refine iff_of_true (fun query hq ↦ ?_) (steps.concatenated _ _)
    rw [← Except.ok.inj (made.symm.trans hq), ← Outcome.pure_eq_ok.mp hs]
    exact (QueryStep.concatenated_faultless steps.finds lefts_faultless rights_faultless left_named
      right_named columns).none
  | served _ ih =>
    rw [steps.served]
    exact ih made hb hp

/-- A frame and all frames it was made of have no faults exactly if none of their steps makes
any. -/
theorem within_iff (steps : StepFaults d w Keeps) (checked : Checked frame)
    (made : frame.toSql d = .ok query) :
    (∀ g, Within g frame → g.FreeOf d w) ↔ ∀ g, Within g frame → Keeps g := by
  have written : Written d frame query := ⟨checked, made⟩
  refine forall_within_congr fun g hg hb hp ↦ ?_
  obtain ⟨inner, hi⟩ := written.within hg
  exact steps.freeOf_iff hi.checked hi.made hb hp

end StepFaults

end Frame

end FrameQuery
