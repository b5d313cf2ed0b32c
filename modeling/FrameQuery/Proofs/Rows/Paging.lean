import FrameQuery.Proofs.Frame.Success
import FrameQuery.Proofs.Rows.Fields
import FrameQuery.Proofs.Rows.Filtering

/-!
# Sorting and paging

Sortings, limits, drops and slices share the order and the two ends of the range of a query block. A
block is wrapped before a range is put on top of one that has to be applied first, so that every
sorting and every page is one of the rows that the frame has so far, in any sequence. A limit need
not wrap a block that skips rows, because a block skips rows before it limits them.
-/

namespace FrameQuery

open Sql (Dialect Engine Expression Place QuerySpecification Relation SelectItem SortItem SubQuery)

variable {V : Type} [DecidableEq V] {engine : Engine V} {d : Dialect}
  {query inner result : QuerySpecification} {names : List String}

/-! ### Blocks in order and in a range -/

namespace Sql.QuerySpecification

variable (query) in
/-- The rows of a block without a range are in the order of its sort keys, if these have the values
that some function finds in what the block selects. -/
theorem pairwise_rows (limit : query.limit = none) (offset : query.offset = none)
    {keys : List V → List V}
    (same : ∀ p, (query.output engine p).2 = keys (query.output engine p).1) :
    (query.rows engine).Pairwise fun a b ↦
      engine.keysLe (SortItem.orderings query.orderBy) (keys a) (keys b) = true := by
  rw [rows_eq_arranged, limit, offset]
  generalize ho : (if query.select.distinct then _ else _ : List (List V × List V)) = outputs
  have known (row : List V × List V) (hr : row ∈ outputs) : row.2 = keys row.1 := by
    have made : row ∈ (query.places engine).map (query.output engine) := by
      rw [← ho] at hr
      split at hr
      · exact mem_of_mem_eraseDupsBy hr
      · exact hr
    obtain ⟨p, -, rfl⟩ := List.mem_map.mp made
    exact same p
  have perm := engine.perm_sorted (SortItem.orderings query.orderBy) (·.2) outputs
  refine List.pairwise_map.mpr ((engine.pairwise_sorted _ (·.2) outputs).imp_of_mem ?_)
  intro a b ha hb le
  rwa [known a (perm.mem_iff.mp ha), known b (perm.mem_iff.mp hb)] at le

/-- A block without its range. -/
def unranged (query : QuerySpecification) : QuerySpecification :=
  { query with limit := none, offset := none }

/-- A block has the rows that it has without a range, cut to the range. -/
private theorem rows_eq_ranged (query : QuerySpecification) :
    query.rows engine = engine.ranged query.limit query.offset (query.unranged.rows engine) := by
  rw [rows_eq_arranged, rows_eq_arranged]
  rfl

/-- A limit on a block without a limit leaves its first rows. -/
theorem rows_limit (unlimited : query.limit = none) (count : Int64) :
    rows engine { query with limit := some (.integer count) } =
      (query.rows engine).take count.toNatClampNeg := by
  have limited : rows engine { query with limit := some (.integer count) } =
      engine.ranged (some (.integer count)) query.offset (query.unranged.rows engine) :=
    rows_eq_ranged _
  rw [limited, engine.ranged_limit, rows_eq_ranged query, unlimited]

/-- An offset of a block without a range leaves out its first rows. -/
theorem rows_offset (unlimited : query.limit = none) (unskipped : query.offset = none)
    (count : Int64) : rows engine { query with offset := some (.integer count) } =
      (query.rows engine).drop count.toNatClampNeg := by
  have skipped : rows engine { query with offset := some (.integer count) } =
      engine.ranged query.limit (some (.integer count)) (query.unranged.rows engine) :=
    rows_eq_ranged _
  rw [skipped, unlimited, engine.ranged_offset, rows_eq_ranged query, unlimited,
    unskipped]
  rfl

/-- A valid block stays valid with a constant limit. -/
theorem Valid.limit (valid : query.Valid engine) (count : Int64) :
    Valid engine { query with limit := some (.integer count) } := by
  obtain ⟨legal, sources⟩ := valid_iff.mp valid
  exact valid_iff.mpr ⟨⟨legal.filter, legal.groupBy, legal.having, legal.outputs, legal.listed,
    legal.distinct, fun x hx ↦ Option.some.inj hx ▸ Expression.rowLevel_literal _, legal.offset⟩,
    sources⟩

/-- A valid block stays valid with a constant offset. -/
theorem Valid.offset (valid : query.Valid engine) (count : Int64) :
    Valid engine { query with offset := some (.integer count) } := by
  obtain ⟨legal, sources⟩ := valid_iff.mp valid
  exact valid_iff.mpr ⟨⟨legal.filter, legal.groupBy, legal.having, legal.outputs, legal.listed,
    legal.distinct, legal.limit, fun x hx ↦ Option.some.inj hx ▸ Expression.rowLevel_literal _⟩,
    sources⟩

/-! ### Blocks in another order -/

/-- What a block sorts by is what it selects. -/
def SortsBySelection (query : QuerySpecification) : Prop :=
  ∀ k ∈ query.orderBy, ∃ i ∈ query.items, i.expression? = some k.key

/-- A valid block stays valid if it is sorted by what it selects. -/
theorem Valid.sorted (valid : query.Valid engine) {orderBy : List SortItem}
    (sorts : SortsBySelection { query with orderBy := orderBy }) :
    Valid engine { query with orderBy := orderBy } := by
  obtain ⟨legal, sources⟩ := valid_iff.mp valid
  have outputs (x : Expression) (hx : x ∈ outputs { query with orderBy := orderBy }) :
      x ∈ query.outputs := by
    rcases mem_outputs.mp hx with selected | ⟨k, hk, rfl⟩
    · exact mem_outputs.mpr (.inl selected)
    · exact mem_outputs.mpr (.inl (sorts k hk))
  exact valid_iff.mpr ⟨⟨legal.filter, legal.groupBy, legal.having,
    fun x hx ↦ legal.outputs x (outputs x hx), legal.listed, fun _ ↦ sorts, legal.limit,
    legal.offset⟩, sources⟩

/-- A block has the same rows in any order. What it sorts by makes no groups. -/
theorem perm_sorted (orderBy : List SortItem) (limit : query.limit = none)
    (offset : query.offset = none) :
    (rows engine { query with orderBy := orderBy }).Perm (query.rows engine) := by
  have places : places engine { query with orderBy := orderBy } = query.places engine :=
    places_congr rfl rfl rfl rfl rfl
  have same : selections engine { query with orderBy := orderBy } = query.selections engine := by
    rw [selections, selections, seen, seen, places]
    rfl
  have sorted : (rows engine { query with orderBy := orderBy }).Perm
      (selections engine { query with orderBy := orderBy }) := perm_selections limit offset
  rw [same] at sorted
  exact sorted.trans (perm_selections limit offset).symm

end Sql.QuerySpecification

/-! ### Sort keys -/

/-- The order that sort keys ask for. -/
def SortKey.orderings (keys : List SortKey) : List (Sql.SortOrdering × Sql.NullOrdering) :=
  keys.map fun key ↦ (key.direction.ordering, .undefined)

/-- What is read of a row in the columns that rows are sorted by. -/
def SortKey.values (engine : Engine V) (names : List String) (keys : List SortKey)
    (row : List V) : List V :=
  keys.map fun key ↦ rowReader engine names row .right key.column

variable {keys : List SortKey} {items : List SortItem}

omit [DecidableEq V] in
/-- Written sort keys ask for the same order. -/
theorem SortKey.orderings_toSql {scope : Scope}
    (made : List.Forall₂ (fun k i ↦ k.toSql scope = .ok i) keys items) :
    SortItem.orderings items = SortKey.orderings keys := by
  induction made with
  | nil => rfl
  | cons hi _ ih =>
    obtain ⟨x, -, rfl⟩ := SortKey.toSql_eq_ok.mp hi
    exact congrArg (_ :: ·) ih

variable (engine) in
/-- Written sort keys have the values that are read of the rows of the query. -/
theorem SortKey.values_toSql (selects : query.Selects d names)
    (made : List.Forall₂ (fun k i ↦ k.toSql (.single d query) = .ok i) keys items)
    (place : Place V) :
    SortItem.values engine items place =
      SortKey.values engine names keys (query.output engine place).1 := by
  induction made with
  | nil => rfl
  | cons hi _ ih =>
    obtain ⟨x, hx, rfl⟩ := SortKey.toSql_eq_ok.mp hi
    exact congrArg₂ (· :: ·) (selects.value_eq (Scope.resolve_single.mp hx).2) ih

/-- Written sort keys are columns that the query selects. -/
private theorem sortsBySelection_toSql
    (made : List.Forall₂ (fun k i ↦ k.toSql (.single d query) = .ok i) keys items) :
    QuerySpecification.SortsBySelection { query with orderBy := items } := by
  intro item hm
  obtain ⟨key, -, hi⟩ := Outcome.exists_of_mem_right made hm
  obtain ⟨x, hx, rfl⟩ := SortKey.toSql_eq_ok.mp hi
  exact ⟨_, QuerySpecification.mem_items_of_findColumn? (Scope.resolve_single.mp hx).2, rfl⟩

/-! ### Steps -/

namespace QueryStep

omit [DecidableEq V] in
/-- A query that is wrapped if it has a range has none. -/
theorem wrapIf_range (made : wrapIf d (query.hasAny [.offset, .limit]) query = .ok inner) :
    inner.limit = none ∧ inner.offset = none := by
  rcases wrapIf_eq_ok.mp made with ⟨-, sub, -, rfl⟩ | ⟨none, rfl⟩
  · exact ⟨rfl, rfl⟩
  · simpa [QuerySpecification.hasAny, QuerySpecification.has, and_comm] using none

omit [DecidableEq V] in
/-- A slice is written like dropping the rows before it and limiting the others to its length. -/
theorem sliced_eq {start stop : Int64} :
    sliced d start stop query = dropped d start query >>= limited d (stop - start) := by
  unfold sliced dropped limited
  cases hw : wrapIf d (query.hasAny [.offset, .limit]) query with
  | error e => rfl
  | ok inner =>
    have unlimited : QuerySpecification.has { inner with offset := some (.integer start) }
        .limit = false :=
      Option.isSome_eq_false_iff.mpr (Option.isNone_iff_eq_none.mpr (wrapIf_range hw).1)
    simp only [bind, Except.bind, pure, Except.pure, unlimited]
    rfl

variable (engine) (selects : query.Selects d names) (nodup : names.Nodup)

include selects nodup

/-- A query that is wrapped if need be has the same rows and is still valid. -/
theorem wrapIf_rows {needed : Bool} (made : wrapIf d needed query = .ok inner) :
    inner.rows engine = query.rows engine ∧ (query.Valid engine → inner.Valid engine) := by
  rcases wrapIf_eq_ok.mp made with ⟨-, sub, hs, rfl⟩ | ⟨-, rfl⟩
  · obtain ⟨rows, valid, -⟩ := wrapped_rows engine selects nodup hs
    exact ⟨rows, valid⟩
  · exact ⟨rfl, id⟩

/-- A sorting of a query has its rows in the order of the keys. -/
theorem sorted_rows (made : sorted d keys query = .ok result) :
    (query.Valid engine → result.Valid engine) ∧
      (result.rows engine).Perm (query.rows engine) ∧
      (result.rows engine).Pairwise fun a b ↦ engine.keysLe (SortKey.orderings keys)
        (SortKey.values engine names keys a) (SortKey.values engine names keys b) = true := by
  obtain ⟨inner, items, hw, hk, rfl⟩ := sorted_eq_ok.mp made
  obtain ⟨rows, valid⟩ := wrapIf_rows engine selects nodup hw
  obtain ⟨unlimited, unskipped⟩ := wrapIf_range hw
  have values := SortKey.values_toSql engine (wrapIf_selects selects hw) hk
  have ordered := QuerySpecification.pairwise_rows { inner with orderBy := items }
    unlimited unskipped values
  rw [SortKey.orderings_toSql hk] at ordered
  rw [← rows]
  exact ⟨fun h ↦ (valid h).sorted (sortsBySelection_toSql hk),
    QuerySpecification.perm_sorted items unlimited unskipped, ordered⟩

/-- A limit of a query has its first rows. -/
theorem limited_rows {count : Int64} (made : limited d count query = .ok result) :
    (query.Valid engine → result.Valid engine) ∧
      result.rows engine = (query.rows engine).take count.toNatClampNeg := by
  obtain ⟨inner, hw, rfl⟩ := limited_eq_ok.mp made
  obtain ⟨rows, valid⟩ := wrapIf_rows engine selects nodup hw
  have unlimited : inner.limit = none := by
    rcases wrapIf_eq_ok.mp hw with ⟨-, sub, -, rfl⟩ | ⟨none, rfl⟩
    · rfl
    · simpa [QuerySpecification.has] using none
  rw [← rows]
  exact ⟨fun h ↦ (valid h).limit count, QuerySpecification.rows_limit unlimited count⟩

/-- Dropping rows of a query leaves out its first rows. -/
theorem dropped_rows {count : Int64} (made : dropped d count query = .ok result) :
    (query.Valid engine → result.Valid engine) ∧
      result.rows engine = (query.rows engine).drop count.toNatClampNeg := by
  obtain ⟨inner, hw, rfl⟩ := dropped_eq_ok.mp made
  obtain ⟨rows, valid⟩ := wrapIf_rows engine selects nodup hw
  obtain ⟨unlimited, unskipped⟩ := wrapIf_range hw
  rw [← rows]
  exact ⟨fun h ↦ (valid h).offset count,
    QuerySpecification.rows_offset unlimited unskipped count⟩

/-- A slice of a query has its rows from one position up to another one. -/
theorem sliced_rows {start stop : Int64} (nonneg : 0 ≤ start) (lt : start < stop)
    (made : sliced d start stop query = .ok result) :
    (query.Valid engine → result.Valid engine) ∧
      result.rows engine =
        (query.rows engine).extract start.toNatClampNeg stop.toNatClampNeg := by
  rw [sliced_eq] at made
  obtain ⟨rest, hd, hl⟩ := Outcome.bind_eq_ok.mp made
  obtain ⟨validRest, dropped⟩ := dropped_rows engine selects nodup hd
  obtain ⟨valid, rows⟩ := limited_rows engine (dropped_selects selects hd) nodup hl
  refine ⟨fun h ↦ valid (validRest h), ?_⟩
  rw [rows, dropped, Int64.toNatClampNeg_sub_of_le nonneg (Int64.le_of_lt lt)]

end QueryStep

/-! ### Arrangements of frames -/

/-- A change of the order of the rows of a frame, or of their range. -/
inductive Arrangement where
  | sort (keys : List SortKey)
  | slice (start stop : Int64)
  | limit (count : Int64)
  | head (count : Int64)
  | drop (count : Int64)

namespace Arrangement

/-- The frame with its rows arranged. -/
def apply (frame : Frame) : Arrangement → Outcome Frame
  | sort keys => frame.sort keys
  | slice start stop => frame.slice start stop
  | limit count => frame.limit count
  | head count => frame.head count
  | drop count => frame.drop count

/-- What arranging some rows, which are read under names, has to make of them. -/
def Arranges (engine : Engine V) (names : List String) (before after : List (List V)) :
    Arrangement → Prop
  | sort keys => after.Perm before ∧ after.Pairwise fun a b ↦
      engine.keysLe (SortKey.orderings keys) (SortKey.values engine names keys a)
        (SortKey.values engine names keys b) = true
  | slice start stop => after = before.extract start.toNatClampNeg stop.toNatClampNeg
  | limit count | head count => after = before.take count.toNatClampNeg
  | drop count => after = before.drop count.toNatClampNeg

/-- What arrangements of some rows, one after the other, have to make of them. -/
def ArrangesAll (engine : Engine V) (names : List String) (before after : List (List V)) :
    List Arrangement → Prop
  | [] => after = before
  | step :: rest => ∃ between, step.Arranges engine names before between ∧
      ArrangesAll engine names between after rest

/-- Whether an arrangement is accepted for rows under names, apart from counts that no frame has. -/
private def Fits (names : List String) : Arrangement → Prop
  | sort keys => keys.map (·.column) ⊆ names
  | slice start stop => 0 ≤ start ∧ start < stop
  | limit _ | head _ | drop _ => True

/-- The query of a frame with its rows arranged, from the query of the frame. -/
private def toQuery (d : Dialect) (query : QuerySpecification) :
    Arrangement → Outcome QuerySpecification
  | sort keys => QueryStep.sorted d keys query
  | slice start stop => QueryStep.sliced d start stop query
  | limit count | head count => QueryStep.limited d count query
  | drop count => QueryStep.dropped d count query

variable {step : Arrangement} {base frame : Frame}

/-- An arrangement that is accepted keeps the columns of the frame and is one of its query. -/
private theorem of_apply (accepted : step.apply base = .ok frame) :
    step.Fits base.columnNames ∧ frame.columnNames = base.columnNames ∧
      ∀ d, frame.toSql d = base.toSql d >>= fun query ↦ step.toQuery d query := by
  cases step with
  | sort keys =>
    obtain ⟨_, -, h⟩ := Outcome.bind_eq_ok.mp accepted
    obtain ⟨_, hk, h⟩ := Outcome.bind_eq_ok.mp h
    rw [← Outcome.pure_eq_ok.mp h]
    exact ⟨Frame.checkColumns_eq_ok.mp hk, rfl, fun _ ↦ rfl⟩
  | slice start stop =>
    obtain ⟨_, hs, h⟩ := Outcome.bind_eq_ok.mp accepted
    obtain ⟨_, hl, h⟩ := Outcome.bind_eq_ok.mp h
    rw [← Outcome.pure_eq_ok.mp h]
    rw [Outcome.require_eq_ok, decide_eq_true_eq] at hs hl
    exact ⟨⟨hs, hl⟩, rfl, fun _ ↦ rfl⟩
  | limit count | head count | drop count =>
    obtain ⟨_, -, h⟩ := Outcome.bind_eq_ok.mp accepted
    rw [← Outcome.pure_eq_ok.mp h]
    exact ⟨trivial, rfl, fun _ ↦ rfl⟩

variable (engine) in
/-- An arrangement that is accepted succeeds on the query of the frame, and makes of its rows what
it has to make of them. -/
private theorem toQuery_rows (selects : query.Selects d names) (nodup : names.Nodup)
    (fits : step.Fits names) (valid : query.Valid engine) :
    ∃ result, step.toQuery d query = .ok result ∧ result.Selects d names ∧ result.Valid engine ∧
      step.Arranges engine names (query.rows engine) (result.rows engine) := by
  cases step with
  | sort keys =>
    obtain ⟨result, made⟩ := QueryStep.succeeds_sorted selects fits
    obtain ⟨keeps, arranged⟩ := QueryStep.sorted_rows engine selects nodup made
    exact ⟨result, made, QueryStep.sorted_selects selects made, keeps valid, arranged⟩
  | slice start stop =>
    obtain ⟨result, made⟩ := QueryStep.succeeds_sliced selects start stop
    obtain ⟨keeps, rows⟩ := QueryStep.sliced_rows engine selects nodup fits.1 fits.2 made
    exact ⟨result, made, QueryStep.sliced_selects selects made, keeps valid, rows⟩
  | limit count | head count =>
    obtain ⟨result, made⟩ := QueryStep.succeeds_limited selects count
    obtain ⟨keeps, rows⟩ := QueryStep.limited_rows engine selects nodup made
    exact ⟨result, made, QueryStep.limited_selects selects made, keeps valid, rows⟩
  | drop count =>
    obtain ⟨result, made⟩ := QueryStep.succeeds_dropped selects count
    obtain ⟨keeps, rows⟩ := QueryStep.dropped_rows engine selects nodup made
    exact ⟨result, made, QueryStep.dropped_selects selects made, keeps valid, rows⟩

/-- Arrangements that are accepted one after the other succeed on the query of the frame, and make
of its rows what they have to make of them in turn. -/
private theorem run_rows {steps : List Arrangement} (selects : query.Selects d base.columnNames)
    (nodup : base.columnNames.Nodup) (made : base.toSql d = .ok query)
    (valid : query.Valid engine) (accepted : steps.foldlM apply base = .ok frame) :
    ∃ result, frame.toSql d = .ok result ∧ result.Valid engine ∧
      ArrangesAll engine base.columnNames (query.rows engine) (result.rows engine) steps := by
  induction steps generalizing base query with
  | nil =>
    rw [← Outcome.pure_eq_ok.mp accepted]
    exact ⟨query, made, valid, rfl⟩
  | cons step rest ih =>
    obtain ⟨next, hn, others⟩ := Outcome.bind_eq_ok.mp accepted
    obtain ⟨fits, columns, toSql⟩ := of_apply hn
    obtain ⟨between, hb, labels, still, arranged⟩ :=
      toQuery_rows engine selects nodup fits valid
    have written : next.toSql d = .ok between := by
      rw [toSql, made]
      exact hb
    rw [← columns] at labels nodup
    obtain ⟨result, hr, last, all⟩ := ih labels nodup written still others
    rw [columns] at all
    exact ⟨result, hr, last, between.rows engine, arranged, all⟩

end Arrangement

namespace Frame

/-- If the query of a reachable frame is valid, every sequence of sortings, slices, limits and drops
that is accepted has a valid query whose rows are those of the query of the frame arranged as the
sequence says: limits and heads take the first rows, drops leave them out, slices take the rows from
one position up to another one, and sortings put the rows in the order of their keys. The length of
an accepted slice is the difference of its ends, and the slice has the query of a drop and a
limit. -/
theorem Reachable.arrangement_rows {base : Frame} (reachable : Reachable base) (engine : Engine V)
    (d : Dialect) :
    (∀ (query : QuerySpecification) (steps : List Arrangement) (frame : Frame),
      base.toSql d = .ok query → query.Valid engine →
      steps.foldlM Arrangement.apply base = .ok frame →
      ∃ result, frame.toSql d = .ok result ∧ result.Valid engine ∧
        Arrangement.ArrangesAll engine base.columnNames (query.rows engine) (result.rows engine)
          steps) ∧
    ∀ (start stop : Int64) (frame : Frame), base.slice start stop = .ok frame →
      (stop - start).toInt = stop.toInt - start.toInt ∧
      ∃ rest limited, base.drop start = .ok rest ∧ rest.limit (stop - start) = .ok limited ∧
        limited.toSql d = frame.toSql d := by
  have checked := reachable.checked
  refine ⟨fun query steps frame made valid accepted ↦
    Arrangement.run_rows (checked.selects made) checked.columnNames_nodup made valid accepted,
    fun start stop frame accepted ↦ ?_⟩
  have sliced : (Arrangement.slice start stop).apply base = .ok frame := accepted
  obtain ⟨⟨nonneg, lt⟩, -, toSql⟩ := Arrangement.of_apply sliced
  have dropped : base.drop start = .ok (.dropped base start) := by
    rw [Frame.drop, decide_eq_true nonneg]
    rfl
  have limited : (Frame.dropped base start).limit (stop - start) =
      .ok (.limited (.dropped base start) (stop - start)) := by
    rw [Frame.limit, decide_eq_true (Int64.sub_nonneg_of_le nonneg (Int64.le_of_lt lt))]
    rfl
  refine ⟨Int64.toInt_sub_of_le _ _ nonneg (Int64.le_of_lt lt), _, _, dropped, limited, ?_⟩
  rw [toSql]
  show (base.toSql d >>= QueryStep.dropped d start) >>= QueryStep.limited d (stop - start) = _
  rw [bind_assoc]
  exact bind_congr fun query ↦ QueryStep.sliced_eq.symm

/-- The first two numbers of a table, put in descending order, and then the second of them: the
sorting is one of the two numbers, and not of the table. -/
theorem Reachable.arrangement_rows_of_limited :
    ∃ (engine : Engine Int) (base frame sliced : Frame) (query result : QuerySpecification),
      Reachable base ∧ base.toSql {} = .ok query ∧ query.Valid engine ∧
      [Arrangement.sort [⟨"c1", .descending⟩], .drop 1].foldlM Arrangement.apply base = .ok frame ∧
      base.slice 1 2 = .ok sliced ∧ frame.toSql {} = .ok result ∧ result.Valid engine ∧
      Arrangement.ArrangesAll engine ["c1"] (query.rows engine) (result.rows engine)
        [.sort [⟨"c1", .descending⟩], .drop 1] ∧
      ∃ rest limited, base.drop 1 = .ok rest ∧ rest.limit 1 = .ok limited ∧
        limited.toSql {} = sliced.toSql {} := by
  have made : (Frame.limited amounts 2).toSql {} = .ok firstAmountsQuery := rfl
  have sliced : (Frame.limited amounts 2).slice 1 2 = .ok (.sliced (.limited amounts 2) 1 2) := rfl
  obtain ⟨arranged, slices⟩ := Reachable.firstAmounts.arrangement_rows amountsEngine {}
  obtain ⟨result, hr, hv, rows⟩ := arranged _ [.sort [⟨"c1", .descending⟩], .drop 1]
    (.dropped (.sorted (.limited amounts 2) [⟨"c1", .descending⟩]) 1) made firstAmountsQuery_valid
    rfl
  obtain ⟨-, same⟩ := slices 1 2 _ sliced
  exact ⟨amountsEngine, _, _, _, _, result, .firstAmounts, made, firstAmountsQuery_valid, rfl,
    sliced, hr, hv, rows, same⟩

end Frame

end FrameQuery
