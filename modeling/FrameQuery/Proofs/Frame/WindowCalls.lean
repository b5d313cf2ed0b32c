import FrameQuery.Proofs.Frame.Graph
import FrameQuery.Proofs.Frame.StrayWindows

/-!
# Where window calls stand

Queries are wrapped before they are filtered or grouped if one of their entries is a window call,
but not if a call stands deeper in an entry; and before they are extended they are wrapped only if
they are grouped. So a window call can come into a condition, a grouping key, an argument of an
aggregate or another window call. The condition under which none does is exact.
-/

namespace FrameQuery

open Sql (Dialect QuerySpecification SelectItem SubQuery Expression Relation Walk)

open Sql.QuerySpecification (Windowless windowless_iff mem_outputs mem_clauses ownStrays_eq_nil)

variable {d : Dialect} {tables : List (List String × List String)}
  {query result : QuerySpecification} {x : Expression}

/-! ### What each step does to window calls -/

/-- The columns that a column of an extension reads in an argument of an aggregate or in a window
call. -/
def ComputedColumn.reduced (c : ComputedColumn) : List (RowVar × String) :=
  match c.aggregate with
  | none => c.map.expr.aggregated.flatMap Expr.reads
  | some aggregate => aggregate.expr.reads

namespace QueryStep

/-- Both conditions hold no window calls exactly if each of them holds none. -/
private theorem windows_conjoined {earlier : Option Expression} :
    (conjoined earlier x).windows = [] ↔
      (∀ y, earlier = some y → y.windows = []) ∧ x.windows = [] := by
  cases earlier with
  | none => simp [conjoined]
  | some y => simp [conjoined, Expression.windows, Sql.Expression.walk]

/-- A column of an extension holds no buried window calls exactly if the columns hold none that it
reads in an aggregate. -/
private theorem newItem_buriedWindows {c : ComputedColumn} {i : SelectItem}
    (outputs : ∀ z ∈ query.outputs, z.buriedWindows = [])
    (made : newItem (.single d query) c = .ok i) :
    query.Windowless d c.reduced ↔ ∀ x, i.expression? = some x → x.buriedWindows = [] := by
  rcases newItem_eq_ok.mp made with ⟨ha, x, hx, rfl⟩ | ⟨aggregate, ha, x, hx, rfl⟩
  · rw [ComputedColumn.reduced, ha]
    refine (Expr.buriedWindows_eq_nil outputs hx).symm.trans ?_
    exact ⟨fun h y hy ↦ Option.some.inj hy ▸ h, fun h ↦ h x rfl⟩
  · have whole : WindowSpec.toSql (.single d query) {} = .ok .whole := rfl
    rw [ComputedColumn.reduced, ha]
    refine (and_iff_left fun _ hr ↦ (nomatch hr)).symm.trans
      ((buriedWindows_window_eq_nil outputs hx whole).symm.trans ?_)
    exact ⟨fun h y hy ↦ Option.some.inj hy ▸ h, fun h ↦ h _ rfl⟩

/-- A column that holds its value holds no buried window calls exactly if the columns hold none that
are read in its aggregates. -/
private theorem valueItem_buriedWindows {c : ComputedColumn} {i : SelectItem}
    (outputs : ∀ z ∈ query.outputs, z.buriedWindows = [])
    (made : valueItem (.single d query) c = .ok i) :
    query.Windowless d (c.value.expr.aggregated.flatMap Expr.reads) ↔
      ∀ x, i.expression? = some x → x.buriedWindows = [] := by
  obtain ⟨x, hx, rfl⟩ := valueItem_eq_ok.mp made
  refine (Expr.buriedWindows_eq_nil outputs hx).symm.trans ?_
  exact ⟨fun h y hy ↦ Option.some.inj hy ▸ h, fun h ↦ h x rfl⟩

private theorem windows_of_integer {value : Int64} {x : Expression}
    (h : some (Expression.integer value) = some x) : x.windows = [] := by
  rw [← Option.some.inj h, Expression.windows, Expression.integer, Sql.Expression.walk]

/-- An expression over columns of two sub-queries is written without window calls. -/
private theorem windows_of_pair {e : Expr} {left right : SubQuery}
    (made : e.toSql (.pair d left.all right.all) = .ok x) : x.windows = [] := by
  refine List.eq_nil_iff_forall_not_mem.mpr fun y hy ↦ ?_
  have column (sub : SubQuery) : ∀ z ∈ sub.all.expressions, y ∉ z.walk .ofWindows := by
    intro z hz
    obtain ⟨c, -, rfl⟩ := SubQuery.mem_expressions_all.mp hz
    exact List.not_mem_nil
  rcases (Expr.mem_walk_toSql (fun _ ↦ rfl) made).mp hy with h | ⟨_, _, _, _, h⟩
  · rcases h.pair with ⟨z, hz, hy⟩ | ⟨z, hz, hy⟩
    · exact column left z hz hy
    · exact column right z hz hy
  · cases h

/-- All rows of a table have no window calls. -/
theorem table_clean {parts names : List String} (known : (parts, names) ∈ tables) :
    Clean d tables (table d parts names) := by
  have assembled := Assembled.table (d := d) known
  refine ⟨assembled, assembled.strayWindows_eq_nil.mpr
    ⟨ownStrays_plain fun i hi ↦ ?_, List.forall_mem_singleton.mpr rfl⟩⟩
  obtain ⟨name, -, rfl⟩ := List.mem_map.mp hi
  exact ⟨_, _, rfl⟩

section

variable (clean : Clean d tables query)

include clean

/-- A filter puts no window call into its condition exactly if it changes nothing, the query is
wrapped, or the columns of the condition hold no window calls. -/
theorem filtered_strayWindows {condition : Expr} (made : filtered d condition query = .ok result) :
    result.strayWindows = [] ↔ condition = .constant (.boolean true) ∨
      wrapsForFilter query = true ∨ query.Windowless d condition.reads := by
  have filtered := filtered_assembled clean.assembled made
  rcases filtered_eq_ok.mp made with ⟨hc, rfl⟩ | ⟨hc, inner, x, hw, hx, rfl⟩
  · exact iff_of_true clean.none (.inl hc)
  · have earlier := clean.wrapIf hw
    rw [earlier.strayWindows_iff filtered rfl, or_iff_right hc, ← windowless_wrapIf hw,
      ← Expr.windows_eq_nil hx, ownStrays_eq_nil]
    constructor
    · rintro ⟨h, -⟩
      exact (windows_conjoined.mp (h _ (mem_clauses.mpr (.inl rfl)))).2
    · intro h
      refine ⟨fun z hz ↦ ?_, earlier.outputs⟩
      rcases mem_clauses.mp hz with hz | hz
      · rw [← Option.some.inj hz, windows_conjoined]
        exact ⟨fun y hy ↦ earlier.clauses y (mem_clauses.mpr (.inl hy)), h⟩
      · exact earlier.clauses z (mem_clauses.mpr (.inr hz))

/-- A selection moves no window call. -/
theorem selected_clean {names : List String} (ne : names ≠ [])
    (made : selected d names query = .ok result) : Clean d tables result := by
  have selected := selected_assembled clean.assembled ne made
  rcases selected_eq_ok.mp made with ⟨-, rfl⟩ | ⟨-, -, hw⟩ | ⟨-, -, hr⟩
  · exact clean
  · obtain ⟨sub, hs, rfl⟩ := (QuerySpecification.wrapped_some_eq_ok (by simpa using ne)).mp hw
    refine clean.wrapped hs fun label hl ↦ ?_
    simpa using (List.mem_filter.mp hl).2
  · obtain ⟨kept, ht, rfl⟩ := retain_eq_ok.mp hr
    refine ⟨selected, (clean.withItems selected).mpr fun i hi x he ↦ ?_⟩
    exact clean.items ((takeColumns_eq_ok ht).2 hi) he

/-- Distinct rows move no window call. -/
theorem distinct_clean {names : Option (List String)} (ne : names ≠ some [])
    (made : distinct d names query = .ok result) : Clean d tables result := by
  have distinct := distinct_assembled clean.assembled ne made
  obtain ⟨restricted, inner, hr, hw, rfl⟩ := distinct_eq_ok.mp made
  have first : Clean d tables restricted := by
    cases names with
    | none =>
      rw [hr]
      exact clean
    | some names => exact selected_clean clean (by simpa using ne) hr
  have earlier := first.wrapIf hw
  exact ⟨distinct, (earlier.strayWindows_iff distinct rfl).mpr earlier.own⟩

/-- An extension puts no window call into an aggregate or another window call exactly if the query
is wrapped or the columns hold no window calls that are read there. -/
theorem extended_strayWindows {new : List ComputedColumn}
    (made : extended d new query = .ok result) :
    result.strayWindows = [] ↔
      query.has .groupBy = true ∨ ∀ c ∈ new, query.Windowless d c.reduced := by
  have extended := extended_assembled clean.assembled made
  obtain ⟨inner, items, hw, hi, rfl⟩ := extended_eq_ok.mp made
  have earlier := clean.wrapIf hw
  have each : (∀ c ∈ new, inner.Windowless d c.reduced) ↔
      query.has .groupBy = true ∨ ∀ c ∈ new, query.Windowless d c.reduced := by
    simp only [windowless_wrapIf hw, forall_or_left]
  rw [earlier.withItems extended, ← each,
    Outcome.forall_mem_iff hi fun c i ↦ newItem_buriedWindows earlier.outputs]
  simp only [List.forall_mem_append]
  exact and_iff_right fun i hm x he ↦ earlier.items hm he

/-- A window extension puts its window calls over columns of a wrapped query. -/
theorem windowExtended_clean {window : WindowSpec} {new : List ComputedColumn}
    (made : windowExtended d window new query = .ok result) : Clean d tables result := by
  have extended := windowExtended_assembled clean.assembled made
  obtain ⟨sub, clause, items, hs, ho, hi, rfl⟩ := windowExtended_eq_ok.mp made
  have earlier := clean.all hs
  refine ⟨extended, (earlier.withItems extended).mpr fun i hm y he ↦ ?_⟩
  rcases List.mem_append.mp hm with hm | hm
  · exact earlier.items hm he
  · obtain ⟨c, -, hc⟩ := Outcome.exists_of_mem_right hi hm
    obtain ⟨x, hx, rfl⟩ := windowItem_eq_ok.mp hc
    rw [← Option.some.inj he, buriedWindows_window_eq_nil earlier.outputs hx ho]
    exact ⟨SubQuery.windowless_all, SubQuery.windowless_all⟩

/-- A projection computes its columns from those of a wrapped query. -/
theorem projected_clean {new : List ComputedColumn}
    (made : projected d new query = .ok result) : Clean d tables result := by
  have projected := projected_assembled clean.assembled made
  obtain ⟨sub, items, hs, hi, rfl⟩ := projected_eq_ok.mp made
  have earlier := clean.all hs
  refine ⟨projected, (earlier.withItems projected).mpr fun i hm ↦ ?_⟩
  obtain ⟨c, -, hc⟩ := Outcome.exists_of_mem_right hi hm
  exact (valueItem_buriedWindows earlier.outputs hc).mp SubQuery.windowless_all

/-- A renaming moves no window call. -/
theorem renamed_clean {pairs : List (String × String)}
    (made : renamed d pairs query = .ok result) : Clean d tables result := by
  have renamed := renamed_assembled clean.assembled made
  obtain ⟨items, hi, rfl⟩ := renamed_eq_ok.mp made
  refine ⟨renamed, (clean.withItems renamed).mpr fun i hm x he ↦ ?_⟩
  obtain ⟨earlier, hn, hr⟩ := Outcome.exists_of_mem_right hi hm
  cases earlier with
  | allColumns relation => exact absurd hr Outcome.fail_ne_ok
  | column label expression =>
    rw [← Except.ok.inj hr] at he
    exact clean.items hn he

/-- A grouping puts no window call into a key or an aggregate exactly if the query is wrapped or the
columns hold no window calls that are keys or are read in aggregates. -/
theorem grouped_strayWindows {grouping : List String} {aggregates : List ComputedColumn}
    (made : grouped d grouping aggregates query = .ok result) :
    result.strayWindows = [] ↔ wrapsForGrouping query = true ∨
      query.Windowless d (grouping.map (RowVar.right, ·)) ∧ ∀ c ∈ aggregates,
        query.Windowless d (c.value.expr.aggregated.flatMap Expr.reads) := by
  have grouped := grouped_assembled clean.assembled made
  obtain ⟨inner, items, keys, kept, hw, hi, hk, ht, rfl⟩ := grouped_eq_ok.mp made
  have earlier := clean.wrapIf hw
  have each : (inner.Windowless d (grouping.map (RowVar.right, ·)) ∧ ∀ c ∈ aggregates,
      inner.Windowless d (c.value.expr.aggregated.flatMap Expr.reads)) ↔
        wrapsForGrouping query = true ∨ query.Windowless d (grouping.map (RowVar.right, ·)) ∧
          ∀ c ∈ aggregates, query.Windowless d (c.value.expr.aggregated.flatMap Expr.reads) := by
    simp only [windowless_wrapIf hw, forall_or_left, or_and_left]
  have written : inner.Windowless d (grouping.map (RowVar.right, ·)) ↔
      ∀ k ∈ keys, k.windows = [] := by
    simp only [windowless_iff, ← Expr.mem_walk_resolved (Scope.resolveAll_eq_ok.mp hk),
      ← List.eq_nil_iff_forall_not_mem, List.flatMap_eq_nil_iff, Expression.windows]
  rw [earlier.strayWindows_iff grouped rfl, ← each, written,
    Outcome.forall_mem_iff hi fun c i ↦ valueItem_buriedWindows earlier.outputs, ownStrays_eq_nil]
  constructor
  · rintro ⟨hc, ho⟩
    constructor
    · intro k hm
      exact hc k (mem_clauses.mpr (.inr (.inl hm)))
    · intro i hm x he
      exact ho x (mem_outputs.mpr (.inl ⟨i, List.mem_append_right _ hm, he⟩))
  · rintro ⟨hc, ho⟩
    constructor
    · intro z hz
      rcases mem_clauses.mp hz with hz | hz | hz
      · exact earlier.clauses z (mem_clauses.mpr (.inl hz))
      · exact hc z hz
      · exact earlier.clauses z (mem_clauses.mpr (.inr (.inr hz)))
    · intro z hz
      rcases mem_outputs.mp hz with ⟨i, hm, he⟩ | hz
      · rcases List.mem_append.mp hm with hm | hm
        · exact earlier.items ((takeColumns_eq_ok ht).2 hm) he
        · exact ho i hm z he
      · exact earlier.outputs z (mem_outputs.mpr (.inr hz))

/-- A sorting sorts by columns of the query. -/
theorem sorted_clean {keys : List SortKey} (made : sorted d keys query = .ok result) :
    Clean d tables result := by
  have sorted := sorted_assembled clean.assembled made
  obtain ⟨inner, items, hw, hk, rfl⟩ := sorted_eq_ok.mp made
  have earlier := clean.wrapIf hw
  refine ⟨sorted, (earlier.strayWindows_iff sorted rfl).mpr
    (ownStrays_eq_nil.mpr ⟨earlier.clauses, fun z hz ↦ ?_⟩)⟩
  rcases mem_outputs.mp hz with hz | ⟨i, hm, rfl⟩
  · exact earlier.outputs z (mem_outputs.mpr (.inl hz))
  · obtain ⟨k, -, hi⟩ := Outcome.exists_of_mem_right hk hm
    obtain ⟨x, hx, rfl⟩ := SortKey.toSql_eq_ok.mp hi
    exact earlier.items (QuerySpecification.mem_items_of_findColumn?
      (Scope.resolve_single.mp hx).2) rfl

/-- A slice has a constant range. -/
theorem sliced_clean {start stop : Int64} (made : sliced d start stop query = .ok result) :
    Clean d tables result := by
  have sliced := sliced_assembled clean.assembled made
  obtain ⟨inner, hw, rfl⟩ := sliced_eq_ok.mp made
  exact ⟨sliced, (clean.wrapIf hw).range sliced (fun _ ↦ windows_of_integer)
    fun _ ↦ windows_of_integer⟩

/-- A limit has a constant end of the range. -/
theorem limited_clean {count : Int64} (made : limited d count query = .ok result) :
    Clean d tables result := by
  have limited := limited_assembled clean.assembled made
  obtain ⟨inner, hw, rfl⟩ := limited_eq_ok.mp made
  have earlier := clean.wrapIf hw
  refine ⟨limited, earlier.range limited (fun _ ↦ windows_of_integer) fun x hx ↦ ?_⟩
  exact earlier.clauses x (mem_clauses.mpr (.inr (.inr (.inr (.inr hx)))))

/-- Dropping rows has a constant start of the range. -/
theorem dropped_clean {count : Int64} (made : dropped d count query = .ok result) :
    Clean d tables result := by
  have dropped := dropped_assembled clean.assembled made
  obtain ⟨inner, hw, rfl⟩ := dropped_eq_ok.mp made
  have earlier := clean.wrapIf hw
  refine ⟨dropped, earlier.range dropped (fun x hx ↦ ?_) fun _ ↦ windows_of_integer⟩
  exact earlier.clauses x (mem_clauses.mpr (.inr (.inr (.inr (.inl hx)))))

end

variable {lefts rights : QuerySpecification} {left right : SubQuery}
  (left_clean : Clean d tables lefts) (right_clean : Clean d tables rights)
  (left_named : lefts.named d "left" = .ok left) (right_named : rights.named d "right" = .ok right)

include left_clean right_clean left_named right_named

/-- The condition of a join reads columns of its two sub-queries, which are no window calls. -/
theorem joined_clean {condition : Expr} {kind : JoinKind}
    (made : joined d condition kind left right = .ok result) : Clean d tables result := by
  obtain ⟨holds, sub, he, hs, rfl⟩ := joined_eq_ok.mp made
  have paired : Assembled d tables (paired kind left right holds) :=
    .paired left_clean.assembled right_clean.assembled left_named right_named he
  refine Clean.all ⟨paired, paired.strayWindows_eq_nil.mpr
    ⟨?_, List.forall_mem_singleton.mpr ?_⟩⟩ hs
  · refine ownStrays_plain fun i hi ↦ ?_
    rcases List.mem_append.mp hi with hi | hi
    · obtain ⟨c, -, rfl⟩ := List.mem_map.mp hi
      exact ⟨_, _, rfl⟩
    · obtain ⟨c, -, rfl⟩ := List.mem_map.mp hi
      exact ⟨_, _, rfl⟩
  · have hl : left.query = lefts := by rw [(QuerySpecification.named_eq_ok.mp left_named).2]
    have hr : right.query = rights := by rw [(QuerySpecification.named_eq_ok.mp right_named).2]
    have ignored : holds.walk .ofStrays = [] := List.eq_nil_iff_forall_not_mem.mpr fun _ ↦
      Assembled.not_mem_walk_holds Walk.ignoresExpressions_ofStrays
        (left_clean.assembled.all left_named) (right_clean.assembled.all right_named) he
    rw [Relation.walk, SubQuery.strayWindows_relation, SubQuery.strayWindows_relation, hl, hr,
      left_clean.none, right_clean.none, Sql.JoinCriteria.optionWalk, Sql.JoinCriteria.walk,
      ignored, List.append_nil, List.append_nil, List.append_nil]
    exact windows_of_pair he

/-- Two queries one after the other have the stray window calls of both. -/
theorem concatenated_clean (columns : left.columns = right.columns) :
    Clean d tables (concatenated d left right) := by
  have concatenated := Assembled.concatenated left_clean.assembled right_clean.assembled left_named
    right_named columns
  refine ⟨concatenated, concatenated.strayWindows_eq_nil.mpr
    ⟨?_, List.forall_mem_singleton.mpr ?_⟩⟩
  · refine ownStrays_plain fun i hi ↦ ?_
    obtain ⟨c, -, rfl⟩ := List.mem_map.mp hi
    exact ⟨_, _, rfl⟩
  · simp only [Relation.walk, Sql.Query.walk_plain]
    change left.all.strayWindows ++ right.all.strayWindows = []
    rw [(left_clean.all left_named).none, (right_clean.all right_named).none, List.append_nil]

end QueryStep

/-! ### Frames without stray window calls -/

namespace Frame

/-- The last step of a frame moves no window call out of the select list: if it does not wrap the
query of the frame before, the columns hold none that a filter reads, that are grouping keys, or
that are read in an aggregate. -/
def KeepsWindows (d : Dialect) : Frame → Prop
  | filtered base condition => ∀ query, base.toSql d = .ok query →
    condition.expr = .constant (.boolean true) ∨ QueryStep.wrapsForFilter query = true ∨
      query.Windowless d condition.expr.reads
  | extended base new => ∀ query, base.toSql d = .ok query →
    query.has .groupBy = true ∨ ∀ c ∈ new, query.Windowless d c.reduced
  | grouped base grouping aggregates => ∀ query, base.toSql d = .ok query →
    QueryStep.wrapsForGrouping query = true ∨
      query.Windowless d (grouping.map (RowVar.right, ·)) ∧ ∀ c ∈ aggregates,
        query.Windowless d (c.value.expr.aggregated.flatMap Expr.reads)
  | served frame _ => frame.KeepsWindows d
  | _ => True

/-- The query of a frame has no stray window calls. -/
def Tidy (d : Dialect) (frame : Frame) : Prop :=
  ∀ query, frame.toSql d = .ok query → query.strayWindows = []

/-- A step on the query of a frame is tidy exactly if it keeps window calls, provided that this is
so whenever the query itself is tidy. -/
private theorem tidy_step {base frame : Frame}
    {step : QuerySpecification → Outcome QuerySpecification} (checked : Checked base)
    (he : frame.base? = some base) (hp : frame.parameters = []) (made : frame.toSql d = .ok result)
    (sql : frame.toSql d = base.toSql d >>= step)
    (ih : ∀ {query}, base.toSql d = .ok query →
      ((∀ g, Within g base → g.Tidy d) ↔ ∀ g, Within g base → g.KeepsWindows d))
    (exact_step : ∀ query, base.toSql d = .ok query → step query = .ok result →
      Clean d base.tables query → (result.strayWindows = [] ↔ frame.KeepsWindows d)) :
    (∀ g, Within g frame → g.Tidy d) ↔ ∀ g, Within g frame → g.KeepsWindows d := by
  obtain ⟨query, hq, hs⟩ := Outcome.bind_eq_ok.mp (sql ▸ made)
  have tidy : frame.Tidy d ↔ result.strayWindows = [] := by
    simp only [Tidy, made, Except.ok.injEq, forall_eq']
  rw [forall_within, forall_within (P := KeepsWindows d), he, hp, tidy]
  simp only [Option.some.injEq, forall_eq', List.not_mem_nil, false_implies, implies_true,
    and_true, ih hq]
  refine and_congr_left fun h ↦ exact_step query hq hs ⟨?_, ?_⟩
  · exact checked.assembled (List.Subset.refl _) hq
  · exact (ih hq).mpr h base (.self base) query hq

/-- A step on the queries of two frames is tidy and keeps window calls if both queries are tidy. -/
private theorem tidy_pair {base other frame : Frame} {lefts rights : QuerySpecification}
    (left_checked : Checked base) (right_checked : Checked other)
    (he : frame.base? = some base) (hp : frame.parameters = [other])
    (left : base.toSql d = .ok lefts) (right : other.toSql d = .ok rights)
    (made : frame.toSql d = .ok result)
    (ihl : (∀ g, Within g base → g.Tidy d) ↔ ∀ g, Within g base → g.KeepsWindows d)
    (ihr : (∀ g, Within g other → g.Tidy d) ↔ ∀ g, Within g other → g.KeepsWindows d)
    (keeps : frame.KeepsWindows d)
    (clean : Clean d (base.tables ++ other.tables) lefts →
      Clean d (base.tables ++ other.tables) rights →
        Clean d (base.tables ++ other.tables) result) :
    (∀ g, Within g frame → g.Tidy d) ↔ ∀ g, Within g frame → g.KeepsWindows d := by
  have tidy : frame.Tidy d ↔ result.strayWindows = [] := by
    simp only [Tidy, made, Except.ok.injEq, forall_eq']
  rw [forall_within, forall_within (P := KeepsWindows d), he, hp, tidy]
  simp only [Option.some.injEq, forall_eq', List.mem_singleton, forall_eq, ihl, ihr]
  refine and_congr_left fun ⟨hb, ho⟩ ↦ iff_of_true (clean ⟨?_, ?_⟩ ⟨?_, ?_⟩).none keeps
  · exact left_checked.assembled (List.subset_append_left _ _) left
  · exact ihl.mpr hb base (.self base) lefts left
  · exact right_checked.assembled (List.subset_append_right _ _) right
  · exact ihr.mpr ho other (.self other) rights right

/-- The frames that a checked frame was made of are tidy exactly if their steps keep window calls in
select lists. -/
theorem Checked.within_tidy_iff {frame : Frame} (checked : Checked frame)
    (made : frame.toSql d = .ok query) :
    (∀ g, Within g frame → g.Tidy d) ↔ ∀ g, Within g frame → g.KeepsWindows d := by
  have keeps {tables : List (List String × List String)} {r : QuerySpecification}
      (h : Clean d tables r) : r.strayWindows = [] ↔ True := iff_of_true h.none trivial
  induction checked generalizing query with
  | @table parts columns =>
    have known : (parts, Column.names columns) ∈ [(parts, Column.names columns)] :=
      List.mem_singleton_self _
    rw [forall_within, forall_within (P := KeepsWindows d)]
    simp [base?, parameters, KeepsWindows, Tidy, toSql, (QueryStep.table_clean known).none]
  | filtered checked _ ih =>
    refine tidy_step checked rfl rfl made rfl ih fun _ hi hs clean ↦ ?_
    rw [QueryStep.filtered_strayWindows clean hs, KeepsWindows]
    simp only [hi, Except.ok.injEq, forall_eq']
  | selected checked ne _ _ ih =>
    exact tidy_step checked rfl rfl made rfl ih fun _ _ hs clean ↦
      keeps (QueryStep.selected_clean clean ne hs)
  | distinct checked ih =>
    exact tidy_step checked rfl rfl made rfl ih fun _ _ hs clean ↦
      keeps (QueryStep.distinct_clean clean (by simp) hs)
  | distinctBy checked ne _ _ ih =>
    exact tidy_step checked rfl rfl made rfl ih fun _ _ hs clean ↦
      keeps (QueryStep.distinct_clean clean (by simpa using ne) hs)
  | extended checked _ _ ih =>
    refine tidy_step checked rfl rfl made rfl ih fun _ hi hs clean ↦ ?_
    rw [QueryStep.extended_strayWindows clean hs, KeepsWindows]
    simp only [hi, Except.ok.injEq, forall_eq']
  | windowExtended checked _ _ _ ih =>
    exact tidy_step checked rfl rfl made rfl ih fun _ _ hs clean ↦
      keeps (QueryStep.windowExtended_clean clean hs)
  | projected checked _ _ _ ih =>
    exact tidy_step checked rfl rfl made rfl ih fun _ _ hs clean ↦
      keeps (QueryStep.projected_clean clean hs)
  | renamed checked _ _ _ _ ih =>
    exact tidy_step checked rfl rfl made rfl ih fun _ _ hs clean ↦
      keeps (QueryStep.renamed_clean clean hs)
  | grouped checked _ _ _ _ ih =>
    refine tidy_step checked rfl rfl made rfl ih fun _ hi hs clean ↦ ?_
    rw [QueryStep.grouped_strayWindows clean hs, KeepsWindows]
    simp only [hi, Except.ok.injEq, forall_eq']
  | sorted checked _ _ ih =>
    exact tidy_step checked rfl rfl made rfl ih fun _ _ hs clean ↦
      keeps (QueryStep.sorted_clean clean hs)
  | sliced checked _ _ ih =>
    exact tidy_step checked rfl rfl made rfl ih fun _ _ hs clean ↦
      keeps (QueryStep.sliced_clean clean hs)
  | limited checked _ ih =>
    exact tidy_step checked rfl rfl made rfl ih fun _ _ hs clean ↦
      keeps (QueryStep.limited_clean clean hs)
  | dropped checked _ ih =>
    exact tidy_step checked rfl rfl made rfl ih fun _ _ hs clean ↦
      keeps (QueryStep.dropped_clean clean hs)
  | joined left_checked right_checked _ _ ihl ihr =>
    obtain ⟨lefts, left, rights, right, hl, hln, hr, hrn, hs⟩ :=
      toSql_pair_eq_ok.mp made
    exact tidy_pair left_checked right_checked rfl rfl hl hr made (ihl hl) (ihr hr) trivial
      fun left_clean right_clean ↦ QueryStep.joined_clean left_clean right_clean hln hrn hs
  | asOfJoined => exact absurd made Outcome.fail_ne_ok
  | concatenated left_checked right_checked agree ihl ihr =>
    obtain ⟨lefts, left, rights, right, hl, hln, hr, hrn, hs⟩ :=
      toSql_pair_eq_ok.mp made
    have columns := left_checked.columns_agree right_checked agree hl hr hln hrn
    refine tidy_pair left_checked right_checked rfl rfl hl hr made (ihl hl) (ihr hr) trivial
      fun left_clean right_clean ↦ ?_
    rw [← Outcome.pure_eq_ok.mp hs]
    exact QueryStep.concatenated_clean left_clean right_clean hln hrn columns
  | served _ ih =>
    rw [forall_within, forall_within (P := KeepsWindows d)] at ih ⊢
    exact ih made

/-- A reachable frame and all frames it was made of have queries whose window calls stand in select
items and in sort keys only, and there in no argument of an aggregate and in no other window call,
exactly if no step without wrapping filters or groups by a column that holds a window call or reads
one in an aggregate. -/
theorem Reachable.tidy_iff {frame : Frame} (reachable : Reachable frame)
    (made : frame.toSql d = .ok query) :
    (∀ g, Within g frame → g.Tidy d) ↔ ∀ g, Within g frame → g.KeepsWindows d :=
  reachable.checked.within_tidy_iff made

/-- Two columns of numbers. -/
private def numbers : Frame :=
  .table ["t"] [⟨"c1", .integer, none, none⟩, ⟨"c2", .integer, none, none⟩]

/-- The sum of the first column over all rows. -/
private def total : ComputedColumn :=
  ⟨"total", ⟨.integer, .column .right "c1" none⟩,
    some ⟨.integer, .aggregate .sum (.column .right "c1" none)⟩⟩

/-- One more than the sum. -/
private def excess : ComputedColumn :=
  ⟨"x", ⟨.integer, .binary .add (.column .right "total" none) (.constant (.integer 1))⟩, none⟩

private theorem numbers_made :
    ofTable ["t"] [⟨"c1", .integer, none, none⟩, ⟨"c2", .integer, none, none⟩] = .ok numbers :=
  rfl

private theorem total_made :
    numbers.extend [⟨"total", (·.get "c1"), some (·.aggregate .sum)⟩] =
      .ok (.extended numbers [total]) :=
  rfl

/-- The sum over all rows is a window call, so that a query is wrapped before rows are filtered by
it. -/
theorem Reachable.tidy_iff_of_sum :
    ∃ frame, Reachable frame ∧ (∃ query, frame.toSql {} = .ok query) ∧
      ((∀ g, Within g frame → g.Tidy {}) ↔ ∀ g, Within g frame → g.KeepsWindows {}) := by
  have large : Frame.filter (.extended numbers [total])
      (fun row ↦ do (← row.get "total").compare (.integer 2) .greaterThan) =
        .ok (.filtered _ _) := rfl
  have reachable := Reachable.filter (.extend (.table numbers_made) total_made) large
  exact ⟨_, reachable, ⟨_, rfl⟩, reachable.tidy_iff rfl⟩

/-- One more than the sum over all rows is no window call but contains one, so that the call stands
in the condition if rows are filtered by it. -/
theorem Reachable.exists_window_in_condition :
    ∃ frame, Reachable frame ∧ ∃ query condition, frame.toSql {} = .ok query ∧
      query.filter = some condition ∧ condition.windows ≠ [] := by
  have added : Frame.extend (.extended numbers [total])
      [⟨"x", fun row ↦ do (← row.get "total").add (.integer 1), none⟩] =
        .ok (.extended (.extended numbers [total]) [excess]) := rfl
  have kept : Frame.select (.extended (.extended numbers [total]) [excess]) ["x"] =
      .ok (.selected _ _) := rfl
  have large : Frame.filter (.selected (.extended (.extended numbers [total]) [excess]) ["x"])
      (fun row ↦ do (← row.get "x").compare (.integer 2) .greaterThan) = .ok (.filtered _ _) := rfl
  have reachable := Reachable.filter
    (.select (.extend (.extend (.table numbers_made) total_made) added) kept) large
  exact ⟨_, reachable, _, _, rfl, rfl, List.cons_ne_nil _ _⟩

end Frame

end FrameQuery
