import FrameQuery.Proofs.Expr.WindowFrames
import FrameQuery.Proofs.Expr.WindowFunctions
import FrameQuery.Proofs.Frame.Faults

/-!
# What window calls call

An extension puts `OVER` behind whatever an aggregating closure returns, and an extension over a
window behind whatever any closure returns, so that an operator around an aggregate comes before
`OVER` together with the aggregate. Other steps write what closures return as it is, functions of
the position of a row included. The condition under which every window call calls something that SQL
allows there, and under which functions of the position of a row are called over a window only, is
exact.
-/

namespace FrameQuery

open Sql (Dialect QuerySpecification SelectItem SubQuery Expression Relation Walk)

open Sql.QuerySpecification (forall_mem_expressions)

variable {d : Dialect} {tables : List (List String × List String)}
  {query inner result : QuerySpecification} {sub : SubQuery} {x : Expression}

namespace Sql

/-- A walk that gathers what is misplaced in the expressions of blocks and relations. -/
def Walk.ofMisplaced : Walk Expression := .ofExpressions Expression.misplaced

/-- What stands before `OVER` in a query, at every depth, though it is no call, and which functions
of the position of a row are called without a window. -/
def QuerySpecification.misplaced (query : QuerySpecification) : List Expression :=
  query.walk .ofMisplaced

/-- Misplaced terms are found in expressions that are no columns. -/
theorem Walk.findsFaults_ofMisplaced : Walk.ofMisplaced.FindsFaults :=
  Walk.findsFaults_ofExpressions Expression.misplaced_column

/-- Nothing is misplaced in a block exactly if nothing is in its expressions. -/
theorem Walk.block_ofMisplaced_eq_nil :
    Walk.ofMisplaced.block query = [] ↔ ∀ x ∈ query.expressions, x.misplaced = [] :=
  Walk.block_ofExpressions_eq_nil

/-- Nothing is misplaced in an integer. -/
private theorem misplaced_of_integer {value : Int64}
    (h : some (Expression.integer value) = some x) :
    x.misplaced = [] := by
  rw [← Option.some.inj h]
  exact Expression.misplaced_literal _

end Sql

open Sql.Walk (findsFaults_ofMisplaced block_ofMisplaced_eq_nil)

/-! ### Columns and windows -/

/-- Nothing is misplaced in the expressions of a query without faults. -/
theorem Faultless.expressions_placed (faultless : Faultless d tables .ofMisplaced query) :
    ∀ x ∈ query.expressions, x.misplaced = [] :=
  block_ofMisplaced_eq_nil.mp (faultless.block findsFaults_ofMisplaced)

/-- Nothing is misplaced in the entries of a query without faults. -/
theorem Faultless.items_placed (faultless : Faultless d tables .ofMisplaced query) :
    ∀ i ∈ query.items, ∀ x, i.expression? = some x → x.misplaced = [] :=
  (forall_mem_expressions.mp faultless.expressions_placed).1

/-- Nothing is misplaced in the columns of a query without faults. -/
theorem Faultless.placedColumns (faultless : Faultless d tables .ofMisplaced query) :
    Expr.PlacedColumns (.single d query) :=
  fun _ _ z hz ↦ faultless.expressions_placed z (Scope.expressions_of_resolve hz)

/-- Columns of a sub-query are no calls. -/
theorem Sql.SubQuery.takesOver_of_resolve {row : RowVar} {name : String}
    (h : (Scope.single d sub.all).resolve row name = .ok x) : x.takesOver = false := by
  obtain ⟨c, -, rfl⟩ := SubQuery.mem_expressions_all.mp (Scope.expressions_of_resolve h)
  rfl

/-- Nothing is misplaced in the columns of two sub-queries. -/
theorem placedColumns_pair {left right : SubQuery} :
    Expr.PlacedColumns (.pair d left.all right.all) := by
  have column (sub : SubQuery) : ∀ z ∈ sub.all.expressions, z.misplaced = [] := by
    intro z hz
    obtain ⟨c, -, rfl⟩ := SubQuery.mem_expressions_all.mp hz
    exact Expression.misplaced_column _
  intro row name z hz
  rcases Scope.resolve_pair.mp hz with ⟨-, h⟩ | ⟨-, h⟩
  · exact column left z (QuerySpecification.expressions_of_findColumn? h)
  · exact column right z (QuerySpecification.expressions_of_findColumn? h)

/-- Nothing is misplaced in a window over columns in which nothing is. -/
theorem WindowSpec.misplaced_operands {scope : Scope} {window : WindowSpec} {w : Sql.Window}
    (columns : Expr.PlacedColumns scope) (made : window.toSql scope = .ok w) :
    ∀ y ∈ w.operands, y.misplaced = [] := by
  intro y hy
  rcases WindowSpec.mem_operands made hy with ⟨name, column⟩ | ⟨value, rfl⟩
  · exact columns _ _ y column
  · exact Expression.misplaced_literal _

/-! ### What each step does to window calls -/

/-- The entries of a query without faults in another select list make faults only themselves. -/
theorem Faultless.misplaced_withItems {items : List SelectItem}
    (faultless : Faultless d tables .ofMisplaced query) :
    Walk.ofMisplaced.block (query.withItems items) = [] ↔
      ∀ i ∈ items, ∀ x, i.expression? = some x → x.misplaced = [] := by
  rw [block_ofMisplaced_eq_nil, forall_mem_expressions]
  exact and_iff_left (forall_mem_expressions.mp faultless.expressions_placed).2

/-- The columns that a query selects as calls and that an extension finds as such, the query not
being wrapped. -/
def Sql.QuerySpecification.Callable (d : Dialect) (query : QuerySpecification) (name : String) :
    Prop :=
  query.has .groupBy = false ∧
    ∀ x, (Scope.single d query).resolve .right name = .ok x → x.takesOver = true

/-- An extension finds columns as calls exactly if the query selects them as such. -/
theorem callable_iff {row : RowVar} {name : String}
    (made : QueryStep.wrapIf d (query.has .groupBy) query = .ok inner)
    (h : (Scope.single d inner).resolve row name = .ok x) :
    query.Callable d name ↔ x.takesOver = true := by
  rcases QueryStep.wrapIf_eq_ok.mp made with ⟨hg, sub, -, rfl⟩ | ⟨hg, rfl⟩
  · simp [QuerySpecification.Callable, hg, SubQuery.takesOver_of_resolve h]
  · obtain ⟨rfl, -⟩ := Scope.resolve_single.mp h
    simp [QuerySpecification.Callable, hg, h]

/-- A column of an extension calls functions of the position of a row over a window only, and
something that may stand before `OVER` if it is an aggregate. -/
def ComputedColumn.Placed (callable : String → Prop) (c : ComputedColumn) : Prop :=
  match c.aggregate with
  | none => c.map.expr.ranks = false
  | some aggregate => aggregate.expr.CallsOver callable

namespace QueryStep

/-- Nothing is misplaced in both conditions exactly if nothing is in the new one. -/
private theorem misplaced_conjoined {earlier : Option Expression}
    (placed : ∀ y, earlier = some y → y.misplaced = []) :
    (conjoined earlier x).misplaced = [] ↔ x.misplaced = [] := by
  cases earlier with
  | none => exact Iff.rfl
  | some y =>
    rw [conjoined, Sql.Expression.misplaced_of_operands rfl rfl]
    simp [Expression.operands, placed y rfl]

/-- Nothing is misplaced in a column of an extension exactly if the column calls what it may. -/
private theorem newItem_misplaced {c : ComputedColumn} {i : SelectItem} {callable : String → Prop}
    (columns : Expr.PlacedColumns (.single d query))
    (known : ∀ row name z, (Scope.single d query).resolve row name = .ok z →
      (callable name ↔ z.takesOver = true))
    (made : newItem (.single d query) c = .ok i) :
    c.Placed callable ↔ ∀ x, i.expression? = some x → x.misplaced = [] := by
  rcases newItem_eq_ok.mp made with ⟨ha, x, hx, rfl⟩ | ⟨aggregate, ha, x, hx, rfl⟩
  · rw [ComputedColumn.Placed, ha]
    refine (Expr.misplaced_eq_nil columns hx).symm.trans ?_
    exact ⟨fun h y hy ↦ Option.some.inj hy ▸ h, fun h ↦ h x rfl⟩
  · have whole : ∀ y ∈ Sql.Window.whole.operands, y.misplaced = [] := List.forall_mem_nil _
    rw [ComputedColumn.Placed, ha]
    refine (Expr.misplaced_window_eq_nil columns known whole hx).symm.trans ?_
    exact ⟨fun h y hy ↦ Option.some.inj hy ▸ h, fun h ↦ h _ rfl⟩

/-- Nothing is misplaced in a column that holds its value exactly if no function of the position of
a row is called there. -/
private theorem valueItem_misplaced {c : ComputedColumn} {i : SelectItem}
    (columns : Expr.PlacedColumns (.single d query))
    (made : valueItem (.single d query) c = .ok i) :
    c.value.expr.ranks = false ↔ ∀ x, i.expression? = some x → x.misplaced = [] := by
  obtain ⟨x, hx, rfl⟩ := valueItem_eq_ok.mp made
  refine (Expr.misplaced_eq_nil columns hx).symm.trans ?_
  exact ⟨fun h y hy ↦ Option.some.inj hy ▸ h, fun h ↦ h x rfl⟩

/-- A range of integers makes no faults. -/
private theorem range_placed {limit offset : Option Expression}
    (earlier : Faultless d tables .ofMisplaced inner)
    (hl : ∀ x, limit = some x → x.misplaced = []) (ho : ∀ x, offset = some x → x.misplaced = []) :
    Walk.ofMisplaced.block { inner with limit := limit, offset := offset } = [] := by
  obtain ⟨items, keys, filter, groups, groupFilter, -, -⟩ :=
    forall_mem_expressions.mp earlier.expressions_placed
  exact block_ofMisplaced_eq_nil.mpr
    (forall_mem_expressions.mpr ⟨items, keys, filter, groups, groupFilter, hl, ho⟩)

variable (faultless : Faultless d tables .ofMisplaced query)

include faultless

/-- A filter misplaces something exactly if its condition calls a function of the position of a
row. -/
theorem filtered_misplaced {condition : Expr} (made : filtered d condition query = .ok result) :
    result.misplaced = [] ↔ condition.ranks = false := by
  refine (filtered_faults findsFaults_ofMisplaced faultless made).trans ?_
  rcases filtered_eq_ok.mp made with ⟨rfl, rfl⟩ | ⟨-, inner, x, hi, hx, rfl⟩
  · exact iff_of_true (faultless.block findsFaults_ofMisplaced) rfl
  · have earlier := faultless.wrapIf findsFaults_ofMisplaced hi
    obtain ⟨items, keys, before, clauses⟩ := forall_mem_expressions.mp earlier.expressions_placed
    rw [← Expr.misplaced_eq_nil earlier.placedColumns hx, ← misplaced_conjoined before,
      block_ofMisplaced_eq_nil, forall_mem_expressions]
    constructor
    · rintro ⟨-, -, h, -⟩
      exact h _ rfl
    · intro h
      exact ⟨items, keys, fun z hz ↦ Option.some.inj hz ▸ h, clauses⟩

/-- Distinct rows misplace nothing. -/
theorem distinct_misplaced {names : Option (List String)} (ne : names ≠ some [])
    (made : distinct d names query = .ok result) : result.misplaced = [] := by
  refine (distinct_faults findsFaults_ofMisplaced faultless ne made).mpr ?_
  obtain ⟨restricted, inner, hr, hi, rfl⟩ := distinct_eq_ok.mp made
  have first : Faultless d tables .ofMisplaced restricted := by
    cases names with
    | none =>
      rw [hr]
      exact faultless
    | some names =>
      exact selected_faultless findsFaults_ofMisplaced faultless (by simpa using ne) hr
  have earlier := first.wrapIf findsFaults_ofMisplaced hi
  exact block_ofMisplaced_eq_nil.mpr earlier.expressions_placed

/-- An extension misplaces something exactly if one of its columns does. -/
theorem extended_misplaced {new : List ComputedColumn} (made : extended d new query = .ok result) :
    result.misplaced = [] ↔ ∀ c ∈ new, c.Placed (query.Callable d) := by
  refine (extended_faults findsFaults_ofMisplaced faultless made).trans ?_
  obtain ⟨inner, items, hi, hn, rfl⟩ := extended_eq_ok.mp made
  have earlier := faultless.wrapIf findsFaults_ofMisplaced hi
  rw [earlier.misplaced_withItems, Outcome.forall_mem_iff hn fun c i ↦
    newItem_misplaced earlier.placedColumns fun row name z ↦ callable_iff hi]
  simp only [List.forall_mem_append]
  exact and_iff_right earlier.items_placed

/-- An extension over a window misplaces something exactly if one of its columns is no call, or
calls a function of the position of a row in an aggregate. -/
theorem windowExtended_misplaced {window : WindowSpec} {new : List ComputedColumn}
    (made : windowExtended d window new query = .ok result) :
    result.misplaced = [] ↔ ∀ c ∈ new, c.value.expr.CallsOver fun _ ↦ False := by
  refine (windowExtended_faults findsFaults_ofMisplaced faultless made).trans ?_
  obtain ⟨sub, clause, items, hs, ho, hn, rfl⟩ := windowExtended_eq_ok.mp made
  have earlier := faultless.all findsFaults_ofMisplaced hs
  have each (c : ComputedColumn) (i : SelectItem)
      (hi : windowItem (.single d sub.all) clause c = .ok i) :
      (c.value.expr.CallsOver fun _ ↦ False) ↔
        ∀ x, i.expression? = some x → x.misplaced = [] := by
    obtain ⟨x, hx, rfl⟩ := windowItem_eq_ok.mp hi
    refine (Expr.misplaced_window_eq_nil earlier.placedColumns (fun row name z hz ↦ ?_)
      (WindowSpec.misplaced_operands earlier.placedColumns ho) hx).symm.trans ?_
    · simp [SubQuery.takesOver_of_resolve hz]
    · exact ⟨fun h y hy ↦ Option.some.inj hy ▸ h, fun h ↦ h _ rfl⟩
  rw [earlier.misplaced_withItems, Outcome.forall_mem_iff hn each]
  simp only [List.forall_mem_append]
  exact and_iff_right earlier.items_placed

/-- A projection misplaces something exactly if one of its columns calls a function of the position
of a row. -/
theorem projected_misplaced {new : List ComputedColumn}
    (made : projected d new query = .ok result) :
    result.misplaced = [] ↔ ∀ c ∈ new, c.map.expr.ranks = false := by
  refine (projected_faults findsFaults_ofMisplaced faultless made).trans ?_
  obtain ⟨sub, items, hs, hn, rfl⟩ := projected_eq_ok.mp made
  have earlier := faultless.all findsFaults_ofMisplaced hs
  rw [earlier.misplaced_withItems]
  exact (Outcome.forall_mem_iff hn fun c i ↦ valueItem_misplaced earlier.placedColumns).symm

/-- A renaming misplaces nothing. -/
theorem renamed_misplaced {pairs : List (String × String)}
    (made : renamed d pairs query = .ok result) : result.misplaced = [] := by
  refine (renamed_faults findsFaults_ofMisplaced faultless made).mpr ?_
  obtain ⟨items, hi, rfl⟩ := renamed_eq_ok.mp made
  refine faultless.misplaced_withItems.mpr fun i hm x he ↦ ?_
  obtain ⟨earlier, hn, hr⟩ := Outcome.exists_of_mem_right hi hm
  cases earlier with
  | allColumns relation => exact absurd hr Outcome.fail_ne_ok
  | column label expression =>
    rw [← Except.ok.inj hr] at he
    exact faultless.items_placed _ hn x he

/-- A grouping misplaces something exactly if one of its aggregates calls a function of the position
of a row. -/
theorem grouped_misplaced {grouping : List String} {aggregates : List ComputedColumn}
    (made : grouped d grouping aggregates query = .ok result) :
    result.misplaced = [] ↔ ∀ c ∈ aggregates, c.value.expr.ranks = false := by
  refine (grouped_faults findsFaults_ofMisplaced faultless made).trans ?_
  obtain ⟨inner, items, keys, kept, hi, hn, hk, ht, rfl⟩ := grouped_eq_ok.mp made
  have earlier := faultless.wrapIf findsFaults_ofMisplaced hi
  obtain ⟨selected, order, filter, -, clauses⟩ :=
    forall_mem_expressions.mp earlier.expressions_placed
  have grouped : ∀ x ∈ keys, x.misplaced = [] := fun x hx ↦ by
    obtain ⟨c, -, hc⟩ := Outcome.exists_of_mem_right (Scope.resolveAll_eq_ok.mp hk) hx
    exact earlier.placedColumns _ _ x hc
  rw [Outcome.forall_mem_iff hn fun c i ↦ valueItem_misplaced earlier.placedColumns,
    block_ofMisplaced_eq_nil, forall_mem_expressions]
  constructor
  · rintro ⟨h, -⟩ i hm
    exact h i (List.mem_append_right _ hm)
  · intro h
    refine ⟨fun i hm ↦ ?_, order, filter, grouped, clauses⟩
    rcases List.mem_append.mp hm with hm | hm
    · exact selected i ((takeColumns_eq_ok ht).2 hm)
    · exact h i hm

/-- A sorting misplaces nothing. -/
theorem sorted_misplaced {keys : List SortKey} (made : sorted d keys query = .ok result) :
    result.misplaced = [] := by
  refine (sorted_faults findsFaults_ofMisplaced faultless made).mpr ?_
  obtain ⟨inner, items, hi, hk, rfl⟩ := sorted_eq_ok.mp made
  have earlier := faultless.wrapIf findsFaults_ofMisplaced hi
  obtain ⟨selected, -, clauses⟩ := forall_mem_expressions.mp earlier.expressions_placed
  refine block_ofMisplaced_eq_nil.mpr
    (forall_mem_expressions.mpr ⟨selected, fun i hm ↦ ?_, clauses⟩)
  obtain ⟨k, -, hc⟩ := Outcome.exists_of_mem_right hk hm
  obtain ⟨z, hz, rfl⟩ := SortKey.toSql_eq_ok.mp hc
  exact earlier.placedColumns _ _ z hz

/-- A slice misplaces nothing. -/
theorem sliced_misplaced {start stop : Int64} (made : sliced d start stop query = .ok result) :
    result.misplaced = [] := by
  refine (sliced_faults findsFaults_ofMisplaced faultless made).mpr ?_
  obtain ⟨inner, hi, rfl⟩ := sliced_eq_ok.mp made
  exact range_placed (faultless.wrapIf findsFaults_ofMisplaced hi)
    (fun _ ↦ Sql.misplaced_of_integer) fun _ ↦ Sql.misplaced_of_integer

/-- A limit misplaces nothing. -/
theorem limited_misplaced {count : Int64} (made : limited d count query = .ok result) :
    result.misplaced = [] := by
  refine (limited_faults findsFaults_ofMisplaced faultless made).mpr ?_
  obtain ⟨inner, hi, rfl⟩ := limited_eq_ok.mp made
  have earlier := faultless.wrapIf findsFaults_ofMisplaced hi
  obtain ⟨-, -, -, -, -, -, offset⟩ := forall_mem_expressions.mp earlier.expressions_placed
  exact range_placed earlier (fun _ ↦ Sql.misplaced_of_integer) offset

/-- Dropping rows misplaces nothing. -/
theorem dropped_misplaced {count : Int64} (made : dropped d count query = .ok result) :
    result.misplaced = [] := by
  refine (dropped_faults findsFaults_ofMisplaced faultless made).mpr ?_
  obtain ⟨inner, hi, rfl⟩ := dropped_eq_ok.mp made
  have earlier := faultless.wrapIf findsFaults_ofMisplaced hi
  obtain ⟨-, -, -, -, -, limit, -⟩ := forall_mem_expressions.mp earlier.expressions_placed
  exact range_placed earlier limit fun _ ↦ Sql.misplaced_of_integer

end QueryStep

/-! ### Frames whose window calls are calls -/

namespace Frame

/-- The last step of a frame writes functions of the position of a row over a window only, and a
window only over a call. -/
def CallsOverWindows (d : Dialect) : Frame → Prop
  | filtered _ condition | joined _ _ condition _ => condition.expr.ranks = false
  | extended base new => ∀ query, base.toSql d = .ok query →
    ∀ c ∈ new, c.Placed (query.Callable d)
  | windowExtended _ _ new => ∀ c ∈ new, c.value.expr.CallsOver fun _ ↦ False
  | projected _ new => ∀ c ∈ new, c.map.expr.ranks = false
  | grouped _ _ aggregates => ∀ c ∈ aggregates, c.value.expr.ranks = false
  | served frame _ => frame.CallsOverWindows d
  | _ => True

/-- In the query of a frame, at every depth, what stands before `OVER` may stand there, and
functions of the position of a row stand nowhere else. -/
def WellPlaced (d : Dialect) (frame : Frame) : Prop :=
  ∀ query, frame.toSql d = .ok query → query.misplaced = []

/-- A step misplaces nothing exactly if it writes functions of the position of a row over a window
only, and a window only over a call. -/
theorem stepFaults_ofMisplaced : StepFaults d .ofMisplaced (CallsOverWindows d) where
  finds := findsFaults_ofMisplaced
  table _ _ := trivial
  filtered _ _ := .exactly (QueryStep.filtered_misplaced ·)
  selected _ _ := trivial
  distinct _ _ ne := .always (QueryStep.distinct_misplaced · ne) trivial
  extended _ _ := .depending (QueryStep.extended_misplaced ·)
  windowExtended _ _ _ := .exactly (QueryStep.windowExtended_misplaced ·)
  projected _ _ := .exactly (QueryStep.projected_misplaced ·)
  renamed _ _ := .always (QueryStep.renamed_misplaced ·) trivial
  grouped _ _ _ := .exactly (QueryStep.grouped_misplaced ·)
  sorted _ _ := .always (QueryStep.sorted_misplaced ·) trivial
  sliced _ _ _ := .always (QueryStep.sliced_misplaced ·) trivial
  limited _ _ := .always (QueryStep.limited_misplaced ·) trivial
  dropped _ _ := .always (QueryStep.dropped_misplaced ·) trivial
  joined _ _ _ _ _ _ _ written := by
    refine Iff.trans ?_ (Expr.misplaced_eq_nil placedColumns_pair written)
    exact List.flatMap_eq_nil_iff.trans List.forall_mem_singleton
  concatenated _ _ := trivial
  served _ _ := Iff.rfl

/-- In the queries of a reachable frame and of all frames it was made of, window calls are calls of
what SQL allows before `OVER` and functions of the position of a row are called over a window only,
at every depth, exactly if each step writes them so. -/
theorem Reachable.wellPlaced_iff {frame : Frame} (reachable : Reachable frame)
    (made : frame.toSql d = .ok query) :
    (∀ g, Within g frame → g.WellPlaced d) ↔ ∀ g, Within g frame → g.CallsOverWindows d :=
  stepFaults_ofMisplaced.within_iff reachable.checked made

/-- A table with a column to group by and one to add up. -/
private def trades : Frame :=
  .table ["t"] [⟨"c1", .integer, none, none⟩, ⟨"c2", .integer, none, none⟩]

private theorem trades_made :
    ofTable ["t"] [⟨"c1", .integer, none, none⟩, ⟨"c2", .integer, none, none⟩] = .ok trades :=
  rfl

/-- A ranking and a sum over a window are calls over that window. -/
theorem Reachable.wellPlaced_ranking :
    ∃ frame, Reachable frame ∧ (∃ query, frame.toSql {} = .ok query) ∧
      ∀ g, Within g frame → g.WellPlaced {} := by
  have ranked : trades.windowExtend ⟨["c1"], [⟨"c2", .ascending⟩], none⟩
      [⟨"n", fun _ ↦ .ok ⟨.integer, .nullary (.rank .rowNumber)⟩, none⟩,
        ⟨"total", fun rows ↦ rows.row.get "c2", some (·.aggregate .sum)⟩] =
      .ok (.windowExtended _ _ _) := rfl
  have reachable := Reachable.windowExtend (.table trades_made) ranked
  refine ⟨_, reachable, ⟨_, rfl⟩, (reachable.wellPlaced_iff rfl).mpr ?_⟩
  rw [forall_within_base rfl rfl, forall_within_source rfl rfl]
  refine ⟨List.forall_mem_cons.mpr ⟨rfl, List.forall_mem_singleton.mpr rfl⟩, trivial⟩

/-- What an aggregating closure adds to a sum stands before `OVER` together with the sum. -/
theorem Reachable.exists_sum_before_over :
    ∃ frame, Reachable frame ∧ ∃ query label function value operand w,
      frame.toSql {} = .ok query ∧ .column label (.window
        (.arithmetic .add (.extension (.aggregate function value)) operand) w) ∈ query.items := by
  have added : trades.extend [⟨"x", (·.get "c1"), some fun values ↦ do
      (← values.aggregate .sum).add (.integer 1)⟩] = .ok (.extended _ _) := rfl
  exact ⟨_, .extend (.table trades_made) added, _, _, _, _, _, _, rfl,
    .tail _ (.tail _ (.head _))⟩

end Frame

end FrameQuery
