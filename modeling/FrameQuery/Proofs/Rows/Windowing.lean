import FrameQuery.Proofs.Expr.WindowFrames
import FrameQuery.Proofs.Rows.Mapping

/-!
# Rows with calls over windows

A window extension puts calls over a window behind the columns of the query of a frame, which is
always wrapped first. A call therefore sees the rows of that query and no others, whatever clauses
these come from: of the row it stands on it sees the partition, in the order of the sort keys, and
what it computes of each row is read of the rows of the query as well.
-/

namespace FrameQuery

open Sql (Dialect Engine Expression Place QuerySpecification Relation SelectItem SortItem SubQuery)
open Sql.Expression (hole)

variable {V : Type} [DecidableEq V] {engine : Engine V} {d : Dialect}
  {query result : QuerySpecification} {names : List String} {window : WindowSpec}

/-! ### Calls -/

/-- What a column calls over a window. -/
inductive WindowCall where
  | rank (function : RankFunction)
  /-- A column at another row. -/
  | access (accessor : RowAccessor) (column : String)
  | aggregate (function : Sql.AggregateFunction) (values : Expr)
  | joinStrings (values : Expr) (separator : String)

namespace WindowCall

/-- What a closure computes that makes the call and nothing else. -/
def expr : WindowCall → Expr
  | rank function => .nullary (.rank function)
  | access accessor column => .column .right column (some accessor)
  | aggregate function values => .aggregate function values
  | joinStrings values separator => .joinStrings values separator

/-- The function that is called, without its operands. -/
def head : WindowCall → Expression
  | rank .rowNumber => .call (.simple "row_number" [])
  | rank .rank => .call (.simple "rank" [])
  | rank .denseRank => .call (.simple "dense_rank" [])
  | rank .percentRank => .call (.simple "percent_rank" [])
  | rank .cumeDist => .call (.simple "cume_dist" [])
  | rank (.ntile _) => .call (.simple "ntile" [hole])
  | access .lead _ => .call (.simple "lead" [hole])
  | access .lag _ => .call (.simple "lag" [hole])
  | access .first _ => .call (.simple "first_value" [hole])
  | access .last _ => .call (.simple "last_value" [hole])
  | access (.nth _) _ => .call (.simple "nth_value" [hole, hole])
  | aggregate function _ => .extension (.aggregate function hole)
  | joinStrings _ _ => .extension (.joinStrings hole hole)

/-- What the call computes of each row that it sees. -/
def arguments : WindowCall → List Expr
  | rank _ => []
  | access _ column => [.column .right column none]
  | aggregate _ values | joinStrings values _ => [values]

/-- What the call is given behind that, which is the same for all rows. -/
def constants : WindowCall → List Constant
  | rank (.ntile buckets) => [.integer buckets]
  | access (.nth n) _ => [.integer n]
  | joinStrings _ separator => [.string separator]
  | _ => []

/-- What the call computes of rows is computed from these alone. -/
def OfRows (call : WindowCall) : Prop := ∀ e ∈ call.arguments, e.OfRows

/-- The values of the operands of a call on a row, of which columns are read by `read`. -/
def operands (engine : Engine V) (read : RowVar → String → V) (call : WindowCall) : List V :=
  call.arguments.map (·.value engine read) ++ call.constants.map (·.value engine)

end WindowCall

/-- The rows that calls on a row see, with their positions among some rows, which are read under
names: those that agree with the row in the partition columns, in the order of the sort keys. -/
def WindowSpec.partition (engine : Engine V) (names : List String) (window : WindowSpec)
    (rows : List (List V)) (row : List V) : List (List V × Nat) :=
  let keys (row : List V) := window.partitionBy.map (rowReader engine names row .right)
  engine.sorted (SortKey.orderings window.orderBy)
    (fun member ↦ SortKey.values engine names window.orderBy member.1)
    (rows.zipIdx.filter fun member ↦ keys member.1 = keys row)

/-- The value of a call on the row at a position among some rows, which are read under names. Where
the window is framed, a clause says how. -/
def WindowCall.value (engine : Engine V) (names : List String) (window : WindowSpec)
    (clause : Option Sql.WindowFrame) (rows : List (List V)) (position : Nat) (row : List V)
    (call : WindowCall) : V :=
  let partition := window.partition engine names rows row
  engine.windowed call.head (SortKey.orderings window.orderBy) clause
    (partition.map fun member ↦ (call.operands engine (rowReader engine names member.1),
      SortKey.values engine names window.orderBy member.1))
    ((partition.map (·.2)).idxOf position)

/-! ### Calls as they are written -/

namespace WindowCall

variable {call : WindowCall} {scope : Scope} {x : Expression} {w : Sql.Window}

omit [DecidableEq V] in
/-- A call is written as one of its function, with what it computes of each row and its constants as
operands. -/
theorem toSql_eq_ok (made : call.expr.toSql scope = .ok x) :
    x.takesOver = true ∧ x.head = call.head ∧
      ∃ ys, List.Forall₂ (fun e y ↦ e.toSql scope = .ok y) call.arguments ys ∧
        x.operands = ys ++ call.constants.map (·.toSql) := by
  cases call with
  | rank function =>
    rw [← Except.ok.inj made]
    cases function <;> exact ⟨rfl, rfl, [], .nil, rfl⟩
  | access accessor column =>
    obtain ⟨y, hy, rfl⟩ := Expr.toSql_column_eq_ok.mp made
    have argument : (Expr.column .right column none).toSql scope = .ok y :=
      Expr.toSql_column_eq_ok.mpr ⟨y, hy, rfl⟩
    cases accessor <;> exact ⟨rfl, rfl, [y], .cons argument .nil, rfl⟩
  | aggregate function values =>
    obtain ⟨y, hy, rfl⟩ := Expr.toSql_aggregate_eq_ok.mp made
    exact ⟨rfl, rfl, [y], .cons hy .nil, rfl⟩
  | joinStrings values separator =>
    obtain ⟨y, hy, rfl⟩ := Expr.toSql_joinStrings_eq_ok.mp made
    exact ⟨rfl, rfl, [y], .cons hy .nil, rfl⟩

/-- The operands of a written call have their values on the row that the query selects. -/
theorem operands_toSql (selects : query.Selects d names) (plain : call.OfRows)
    (made : call.expr.toSql (.single d query) = .ok x) (place : Place V) :
    x.operands.map (·.value engine place) =
      call.operands engine (rowReader engine names (query.output engine place).1) := by
  obtain ⟨-, -, ys, hy, operands⟩ := toSql_eq_ok made
  rw [operands, List.map_append, List.map_map, WindowCall.operands]
  refine congrArg₂ (· ++ ·) ?_ (List.map_congr_left fun c _ ↦ c.value_toSql)
  rw [← List.forall₂_eq_eq_eq, List.forall₂_map_left_iff, List.forall₂_map_right_iff]
  refine (((List.forall₂_and_left ..).mpr ⟨plain, hy⟩).imp fun e y h ↦ ?_).flip
  exact selects.value_toSql h.1 h.2

/-- The operands of a written call are computed row by row if the query is. -/
theorem rowLevel_operands {columns : List (List String)} (plain : call.OfRows)
    (made : call.expr.toSql scope = .ok x)
    (level : ∀ row name z, scope.resolve row name = .ok z → z.RowLevel columns) :
    ∀ y ∈ x.operands, y.RowLevel columns := by
  obtain ⟨-, -, ys, hy, operands⟩ := toSql_eq_ok made
  rw [operands]
  refine List.forall_mem_append.mpr ⟨fun y hm ↦ ?_, List.forall_mem_map.mpr fun c _ ↦ ?_⟩
  · obtain ⟨e, he, written⟩ := Outcome.exists_of_mem_right hy hm
    exact (Expr.rowLevel_toSql written).mpr ⟨plain e he, fun column _ ↦ level column.1 column.2⟩
  · exact c.composed_toSql

end WindowCall

/-! ### Windows of a block -/

namespace Sql

omit [DecidableEq V] in
/-- A call over a window reduces no rows if its operands and keys are computed row by row. -/
theorem Expression.reduces_window {x : Expression} {w : Window} {columns : List (List String)}
    (operands : ∀ y ∈ x.operands, y.RowLevel columns)
    (keys : ∀ y ∈ w.operands, y.RowLevel columns) : (Expression.window x w).reduces = false := by
  have each : (x.operands ++ w.operands).any (·.reduces) = false := by
    rw [List.any_eq_false]
    intro y hy
    rcases List.mem_append.mp hy with hy | hy
    · exact ne_true_of_eq_false (operands y hy).reduces_eq_false
    · exact ne_true_of_eq_false (keys y hy).reduces_eq_false
  rw [reduces_eq]
  exact each

omit [DecidableEq V] in
/-- The places of all groups stand at their positions. -/
theorem Place.zipIdx_all (groups : List (List (Env V))) :
    (Place.all groups).zipIdx = (Place.all groups).map fun p ↦ (p, p.position) :=
  List.ext_getElem (by simp) fun i _ _ ↦ by simp [all]

/-- What a block selects at its places, with the positions of these. -/
theorem QuerySpecification.zipIdx_seen : (query.seen engine).zipIdx =
    (query.places engine).map fun p ↦ ((query.output engine p).1, p.position) := by
  rw [seen, List.zipIdx_map, places, Place.zipIdx_all, List.map_map]
  rfl

end Sql

section

variable {w : Sql.Window} (selects : query.Selects d names)
  (written : window.toSql (.single d query) = .ok w)

include selects written

variable (engine) in
/-- Partitions and sort keys of a written window have the values that are read of what the query
selects, and ask for the order of the window. -/
private theorem keys_toSql :
    (∀ place : Place V, w.partitions.map (·.value engine place) =
      window.partitionBy.map (rowReader engine names (query.output engine place).1 .right)) ∧
    (∀ place : Place V, w.orderBy.map (·.key.value engine place) =
      SortKey.values engine names window.orderBy (query.output engine place).1) ∧
    SortItem.orderings w.orderBy = SortKey.orderings window.orderBy := by
  obtain ⟨partitions, keys, hp, hk, rfl⟩ := WindowSpec.toSql_eq_ok.mp written
  refine ⟨fun place ↦ ?_, SortKey.values_toSql engine selects hk, SortKey.orderings_toSql hk⟩
  rw [eq_comm, ← List.forall₂_eq_eq_eq, List.forall₂_map_left_iff, List.forall₂_map_right_iff]
  exact hp.imp fun c y hy ↦ (selects.value_eq (Scope.resolve_single.mp hy).2).symm

/-- A written call over a written window has the value of the call, among what the query selects. -/
theorem WindowCall.value_toSql {call : WindowCall} {x : Expression}
    (made : call.expr.toSql (.single d query) = .ok x) (plain : call.OfRows) {place : Place V}
    (known : place ∈ query.places engine) :
    (Expression.window x w).value engine place =
      call.value engine names window w.frame (query.seen engine) place.position
        (query.output engine place).1 := by
  obtain ⟨-, head, -⟩ := WindowCall.toSql_eq_ok made
  obtain ⟨partitions, sortKeys, orderings⟩ := keys_toSql engine selects written
  have groups : Place.all place.groups = query.places engine :=
    congrArg Place.all (Place.groups_of_mem_all known)
  have partition : window.partition engine names (query.seen engine)
      (query.output engine place).1 =
        (engine.sorted (SortKey.orderings window.orderBy)
          (fun p ↦ SortKey.values engine names window.orderBy (query.output engine p).1)
          (place.partition fun p ↦ window.partitionBy.map
            (rowReader engine names (query.output engine p).1 .right))).map
              fun p ↦ ((query.output engine p).1, p.position) := by
    rw [WindowSpec.partition, QuerySpecification.zipIdx_seen, List.filter_map, Place.partition,
      groups]
    exact (engine.map_sorted _ (fun _ ↦ rfl) _).symm
  rw [Expression.value_window, WindowCall.value, partition, head]
  simp only [partitions, sortKeys, orderings, operands_toSql selects plain made, List.map_map]
  rfl

end

/-! ### Steps -/

namespace QueryStep

variable {new : List ComputedColumn} {calls : List WindowCall} {items : List SelectItem}
  {w : Sql.Window}

/-- An entry of a select list is a call over a window, written over a query. -/
private def IsCallItem (d : Dialect) (query : QuerySpecification) (w : Sql.Window)
    (call : WindowCall) (i : SelectItem) : Prop :=
  ∃ name x, call.expr.toSql (.single d query) = .ok x ∧ i = item d name (.window x w)

omit [DecidableEq V] in
/-- Columns that make calls are written as calls over the window. -/
private theorem isCallItem_of_windowItems (same : new.map (·.value.expr) = calls.map (·.expr))
    (made : List.Forall₂ (fun c i ↦ windowItem (.single d query) w c = .ok i) new items) :
    List.Forall₂ (IsCallItem d query w) calls items := by
  have written : List.Forall₂ (fun e i ↦ ∃ name x, e.toSql (.single d query) = .ok x ∧
      i = item d name (.window x w)) (new.map (·.value.expr)) items := by
    rw [List.forall₂_map_left_iff]
    refine made.imp fun c i h ↦ ?_
    obtain ⟨x, hx, he⟩ := windowItem_eq_ok.mp h
    exact ⟨c.name, x, hx, he⟩
  rw [same, List.forall₂_map_left_iff] at written
  exact written

section

variable (plain : ∀ call ∈ calls, call.OfRows)
  (written : window.toSql (.single d query) = .ok w)
  (made : List.Forall₂ (IsCallItem d query w) calls items)

include plain written made

omit [DecidableEq V] in
/-- Over a query that computes row by row, the operands and the keys of written calls are computed
row by row. -/
private theorem rowLevel_of_rowWise {columns : List (List String)}
    (rowWise : query.RowWise columns) : (∀ y ∈ w.operands, y.RowLevel columns) ∧
      ∀ i ∈ items, ∃ name x, i = item d name (.window x w) ∧ x.takesOver = true ∧
        ∀ y ∈ x.operands, y.RowLevel columns := by
  have column (row : RowVar) (name : String) (z : Expression)
      (hz : (Scope.single d query).resolve row name = .ok z) : z.RowLevel columns :=
    rowWise.outputs z (Scope.outputs_of_resolve hz)
  constructor
  · intro y hy
    rcases WindowSpec.mem_operands written hy with ⟨name, hz⟩ | ⟨value, rfl⟩
    · exact column _ _ y hz
    · exact Expression.rowLevel_literal _
  · intro i hm
    obtain ⟨call, hc, name, x, hx, he⟩ := Outcome.exists_of_mem_right made hm
    obtain ⟨called, -⟩ := WindowCall.toSql_eq_ok hx
    exact ⟨name, x, he, called, WindowCall.rowLevel_operands (plain call hc) hx column⟩

/-- A valid query that computes row by row makes no groups with further calls over windows, and
stays valid. -/
private theorem appended_calls_valid (valid : query.Valid engine)
    (rowWise : query.RowWise (Relation.product engine query.sources).columns) :
    (query.withItems (query.items ++ items)).isGrouped = query.isGrouped ∧
      (query.withItems (query.items ++ items)).Valid engine := by
  obtain ⟨keys, each⟩ := rowLevel_of_rowWise plain written made rowWise
  have grouped : (query.withItems (query.items ++ items)).isGrouped = query.isGrouped := by
    refine QuerySpecification.isGrouped_append fun _ i hm y hy ↦ ?_
    obtain ⟨name, x, rfl, -, operands⟩ := each i hm
    rw [← Option.some.inj hy]
    exact Expression.reduces_window operands keys
  refine ⟨grouped, (valid.append_iff grouped fun relation hm ↦ ?_).mpr fun i hm y hy ↦ ?_⟩
  · obtain ⟨name, x, he, -⟩ := each _ hm
    cases he
  · obtain ⟨name, x, rfl, called, operands⟩ := each i hm
    rw [← Option.some.inj hy, QuerySpecification.Level, rowWise.isGrouped]
    exact .atom (.inr ⟨x, w, rfl, called, (WindowSpec.clauses_toSql written).1, operands, keys⟩)

/-- Further calls over windows are put behind each row of a query without further clauses. -/
private theorem appended_calls_rows (selects : query.Selects d names)
    (grouped : (query.withItems (query.items ++ items)).isGrouped = query.isGrouped)
    (all : query.select.distinct = false) (orderBy : query.orderBy = [])
    (limit : query.limit = none) (offset : query.offset = none) :
    (query.withItems (query.items ++ items)).rows engine =
      (query.rows engine).mapIdx fun position row ↦ row ++ calls.map
        (·.value engine names window w.frame (query.rows engine) position row) := by
  have places : (query.withItems (query.items ++ items)).places engine = query.places engine :=
    QuerySpecification.places_congr rfl rfl rfl rfl grouped
  have before : query.rows engine = query.seen engine :=
    QuerySpecification.rows_eq_seen all orderBy limit offset
  have after : (query.withItems (query.items ++ items)).rows engine =
      (query.withItems (query.items ++ items)).seen engine :=
    QuerySpecification.rows_eq_seen all orderBy limit offset
  rw [after, before, List.mapIdx_eq_zipIdx_map, QuerySpecification.zipIdx_seen, List.map_map,
    QuerySpecification.seen, places]
  refine List.map_congr_left fun p hp ↦ ?_
  have further : items.flatMap (·.values engine p) = calls.map (·.value engine names window w.frame
      (query.seen engine) p.position (query.output engine p).1) := by
    refine QuerySpecification.flatMap_values made fun call hc i h ↦ ?_
    obtain ⟨name, x, hx, rfl⟩ := h
    exact congrArg ([·]) (WindowCall.value_toSql selects written hx (plain call hc) hp)
  refine List.flatMap_append.trans ?_
  rw [further]
  rfl

end

/-- A window extension of a valid query with calls is valid and has, behind each row of the query,
the values of the calls among its rows, in the frame of the window as it is written. -/
theorem windowExtended_rows (same : new.map (·.value.expr) = calls.map (·.expr))
    (plain : ∀ call ∈ calls, call.OfRows) (selects : query.Selects d names) (nodup : names.Nodup)
    (valid : query.Valid engine) (made : windowExtended d window new query = .ok result) :
    result.Valid engine ∧ result.rows engine = (query.rows engine).mapIdx fun position row ↦
      row ++ calls.map (·.value engine names window (window.frame.map (·.toSql))
        (query.rows engine) position row) := by
  obtain ⟨sub, w, items, hs, written, hi, rfl⟩ := windowExtended_eq_ok.mp made
  obtain ⟨rows, keeps, rowWise⟩ := wrapped_rows engine selects nodup hs
  have entries := isCallItem_of_windowItems same hi
  obtain ⟨grouped, legal⟩ := appended_calls_valid plain written entries (keeps valid) rowWise
  rw [← (WindowSpec.clauses_toSql written).2, ← rows]
  exact ⟨legal, appended_calls_rows plain written entries (selects.all hs) grouped rfl rfl rfl rfl⟩

end QueryStep

/-! ### Frames -/

namespace Frame

/-- A window extension that is accepted has the columns that its closures compute. -/
private theorem windowExtend_eq_ok {base frame : Frame} {new : List WindowColumn}
    {columns : List ComputedColumn}
    (evaluated : WindowColumn.evaluateAll base.row new = .ok columns)
    (accepted : base.windowExtend window new = .ok frame) :
    frame = .windowExtended base window columns := by
  obtain ⟨_, -, rest⟩ := Outcome.bind_eq_ok.mp accepted
  obtain ⟨_, -, rest⟩ := Outcome.bind_eq_ok.mp rest
  obtain ⟨found, hf, made⟩ := Outcome.bind_eq_ok.mp rest
  rw [evaluated] at hf
  rw [Except.ok.inj hf]
  exact (Outcome.pure_eq_ok.mp made).symm

/-- If the query of a reachable frame is valid, every window extension of the frame that is
accepted, reads columns of the frame and makes a single call in each of its columns has a valid
query. Behind each row of the query of the frame, in the same order and number, it yields the values
of the calls: each is called over the rows of the query of the frame that agree with the row in the
partition columns, in the order of the sort keys, and in the frame of the window as it is written.
The written frame extends over what the frame of the window does exactly if its distances have
opposites. -/
theorem Reachable.windowExtend_yields {base frame : Frame} {new : List WindowColumn}
    {columns : List ComputedColumn} {calls : List WindowCall} (reachable : Reachable base)
    (made : base.toSql d = .ok query) (valid : query.Valid engine)
    (evaluated : WindowColumn.evaluateAll base.row new = .ok columns)
    (accepted : base.windowExtend window new = .ok frame)
    (reads : ∀ c ∈ columns, c.ReadsFrom base.columnNames)
    (same : columns.map (·.value.expr) = calls.map (·.expr))
    (plain : ∀ call ∈ calls, call.OfRows) :
    frame.Yields engine d (base.columnNames ++ new.map (·.name))
      ((query.rows engine).mapIdx fun position row ↦ row ++ calls.map
        (·.value engine base.columnNames window (window.frame.map (·.toSql))
          (query.rows engine) position row)) ∧
    ∀ f, window.frame = some f →
      (f.toSql.extent? = some f.extent ↔ f.start.HasOpposite ∧ f.stop.HasOpposite) := by
  have checked := reachable.checked
  have extended := checked_windowExtend checked accepted
  have names := WindowColumn.evaluateAll_eq_ok evaluated
  obtain rfl := windowExtend_eq_ok evaluated accepted
  have known : window.columns ⊆ base.columnNames := by
    cases extended with
    | windowExtended _ _ _ known => exact known
  have selects := checked.selects made
  obtain ⟨result, hr⟩ := QueryStep.succeeds_windowExtended selects known reads
  obtain ⟨legal, rows⟩ := QueryStep.windowExtended_rows same plain selects
    checked.columnNames_nodup valid hr
  have yields := extended.yields (Outcome.bind_eq_ok.mpr ⟨query, made, hr⟩) legal rows
  rw [columnNames_windowExtended, names] at yields
  exact ⟨yields, fun f _ ↦ f.extent?_toSql⟩

/-- All numbers around each of them, the largest first, as a program asks for them. -/
def allAround : WindowSpec :=
  ⟨[], [⟨"c1", .descending⟩], some ⟨.rows, .unbounded, .unbounded⟩⟩

/-- The sum of the numbers around a number, as a program asks for it. -/
def totalAround : WindowColumn := ⟨"total", (·.row.get "c1"), some (·.aggregate .sum)⟩

/-- The first two of three numbers, each with the sum of the two: the limit is applied before the
window is computed. -/
theorem Reachable.windowExtend_yields_of_limited :
    ∃ (engine : Engine Int) (base frame : Frame) (query : QuerySpecification) (f : FrameSpec),
      Reachable base ∧ base.toSql {} = .ok query ∧ query.Valid engine ∧
      query.rows engine = [[1], [2]] ∧ base.windowExtend allAround [totalAround] = .ok frame ∧
      frame.Yields engine {} ["c1", "total"] [[1, 3], [2, 3]] ∧
      allAround.frame = some f ∧ f.toSql.extent? = some ⟨.rows, .first, .last⟩ := by
  have made : (Frame.limited amounts 2).toSql {} = .ok firstAmountsQuery := rfl
  have evaluated : WindowColumn.evaluateAll (Frame.limited amounts 2).row [totalAround] =
      .ok [amountsTotal] := rfl
  have accepted : (Frame.limited amounts 2).windowExtend allAround [totalAround] =
      .ok (.windowExtended (.limited amounts 2) allAround [amountsTotal]) := rfl
  have same : [amountsTotal].map (·.value.expr) =
      [WindowCall.aggregate .sum (.column .right "c1" none)].map (·.expr) := rfl
  have plain : ∀ call ∈ [WindowCall.aggregate .sum (.column .right "c1" none)], call.OfRows :=
    List.forall_mem_singleton.mpr (List.forall_mem_singleton.mpr ⟨rfl, rfl⟩)
  obtain ⟨yields, framed⟩ := firstAmounts.windowExtend_yields made firstAmountsQuery_valid
    evaluated accepted amountsTotal_reads same plain
  rw [firstAmountsQuery_rows] at yields
  exact ⟨amountsEngine, _, _, _, _, firstAmounts, made, firstAmountsQuery_valid,
    firstAmountsQuery_rows, accepted, yields, rfl, (framed _ rfl).mpr ⟨trivial, trivial⟩⟩

end Frame

end FrameQuery
