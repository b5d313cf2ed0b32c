import FrameQuery.Proofs.Frame.ColumnNames
import FrameQuery.Proofs.Frame.Steps
import Mathlib.Data.List.Perm.Basic

/-!
# Select lists and column names

The columns of a frame are computed when a transformation is applied, its select list when the frame
is written. Each step is shown to do to the labels of a select list what the transformation does to
the names of the columns, whether it wraps the query or not. For every reachable frame the two lists
are therefore the same, name by name between quotes.
-/

namespace FrameQuery

open Sql (Dialect QuerySpecification SelectItem SubQuery)

namespace QueryStep

variable {d : Dialect} {query result : QuerySpecification} {names : List String}

/-! ### Taking columns out of a select list -/

/-- What is taken out of a list under a label has that label, and everything else is left. -/
theorem takeLabelled?_eq_some {label : String} {items rest : List SelectItem} {item : SelectItem}
    (h : takeLabelled? label items = some (item, rest)) :
    item.label? = some label ∧ items.Perm (item :: rest) := by
  unfold takeLabelled? at h
  split at h
  · exact absurd h (by simp)
  · next i hi =>
    obtain ⟨hlt, hp, -⟩ := List.findIdx?_eq_some_iff_getElem.mp hi
    rcases List.eq_nil_or_concat items with rfl | ⟨init, last, rfl⟩
    · exact absurd hlt (by simp)
    · rw [List.concat_eq_append] at *
      rw [List.getElem?_eq_getElem hlt, List.getLast?_concat] at h
      simp only [Option.some.injEq, Prod.mk.injEq] at h
      obtain ⟨rfl, rfl⟩ := h
      refine ⟨by simpa using hp, ?_⟩
      -- The last entry fills the gap, unless it is itself the one that is taken.
      by_cases hc : i < init.length
      · rw [List.getElem_append_left hc, List.set_append_left _ _ hc, List.dropLast_concat]
        have hs := List.set_perm_cons_eraseIdx hc last
        have he := List.getElem_cons_eraseIdx_perm hc
        calc List.Perm (init ++ [last]) (last :: init) := List.perm_append_singleton _ _
          List.Perm _ (last :: init[i] :: init.eraseIdx i) := he.symm.cons _
          List.Perm _ (init[i] :: last :: init.eraseIdx i) := .swap _ _ _
          List.Perm _ (init[i] :: init.set i last) := hs.symm.cons _
      · have he : i = init.length := by
          rw [List.length_append, List.length_singleton] at hlt
          omega
        subst he
        simp

/-- An entry can be taken out under every label of a list. -/
theorem exists_takeLabelled? {label : String} {items : List SelectItem}
    (h : some label ∈ items.map (·.label?)) :
    ∃ item rest, takeLabelled? label items = some (item, rest) := by
  obtain ⟨item, hm, hl⟩ := List.mem_map.mp h
  unfold takeLabelled?
  split
  · next hn =>
    have hf := List.findIdx?_eq_none_iff.mp hn item hm
    simp [hl] at hf
  · next i hi =>
    obtain ⟨hlt, -, -⟩ := List.findIdx?_eq_some_iff_getElem.mp hi
    rw [List.getElem?_eq_getElem hlt, List.getLast?_eq_some_getLast (List.ne_nil_of_mem hm)]
    exact ⟨_, _, rfl⟩

/-- Columns taken out of a list are entries of it, labelled with the quoted names in their order. -/
theorem takeColumns_eq_ok {items kept : List SelectItem}
    (h : takeColumns d names items = .ok kept) :
    kept.map (·.label?) = (names.map d.quoted).map some ∧ kept ⊆ items := by
  induction names generalizing items kept with
  | nil =>
    rw [takeColumns, Except.ok.injEq] at h
    rw [← h]
    exact ⟨rfl, List.nil_subset items⟩
  | cons name names ih =>
    rw [takeColumns] at h
    split at h
    · exact absurd h Outcome.fail_ne_ok
    · next item rest ht =>
      obtain ⟨tail, hr, he⟩ := Outcome.bind_eq_ok.mp h
      obtain ⟨hl, hp⟩ := takeLabelled?_eq_some ht
      obtain ⟨labels, sub⟩ := ih hr
      rw [← Outcome.pure_eq_ok.mp he]
      refine ⟨by simp only [List.map_cons, hl, labels], ?_⟩
      have hs := hp.symm.subset
      exact List.cons_subset.mpr ⟨hs List.mem_cons_self, fun i hi ↦
        hs (List.mem_cons_of_mem _ (sub hi))⟩

/-- Distinct names that all are labels can be taken out of a list. -/
theorem exists_takeColumns {items : List SelectItem} (nodup : names.Nodup)
    (known : ∀ name ∈ names, some (d.quoted name) ∈ items.map (·.label?)) :
    ∃ kept, takeColumns d names items = .ok kept := by
  induction names generalizing items with
  | nil => exact ⟨[], rfl⟩
  | cons name names ih =>
    obtain ⟨fresh, nodup⟩ := List.nodup_cons.mp nodup
    obtain ⟨item, rest, ht⟩ := exists_takeLabelled? (known name List.mem_cons_self)
    obtain ⟨hl, hp⟩ := takeLabelled?_eq_some ht
    have left : ∀ n ∈ names, some (d.quoted n) ∈ rest.map (·.label?) := by
      intro n hn
      have hm := (hp.map (·.label?)).subset (known n (List.mem_cons_of_mem _ hn))
      rw [List.map_cons, List.mem_cons] at hm
      refine hm.resolve_left fun he ↦ ?_
      rw [hl, Option.some.injEq, Dialect.quoted_inj] at he
      exact fresh (he ▸ hn)
    obtain ⟨kept, hk⟩ := ih nodup left
    refine ⟨item :: kept, ?_⟩
    rw [takeColumns, ht]
    exact Outcome.bind_eq_ok.mpr ⟨kept, hk, rfl⟩

/-! ### What each step selects -/

/-- Wrapping keeps the names. -/
theorem wrapIf_selects {needed : Bool} (h : query.Selects d names)
    (made : wrapIf d needed query = .ok result) : result.Selects d names := by
  rcases wrapIf_eq_ok.mp made with ⟨-, sub, hs, rfl⟩ | ⟨-, rfl⟩
  · exact h.all hs
  · exact h

/-- The rows of a table are selected under their names. -/
theorem table_selects (d : Dialect) (parts names : List String) :
    (table d parts names).Selects d names := by
  show (names.map _).map _ = _
  rw [List.map_map, List.map_map]
  rfl

/-- A filter keeps the names. -/
theorem filtered_selects {condition : Expr} (h : query.Selects d names)
    (made : filtered d condition query = .ok result) : result.Selects d names := by
  rcases filtered_eq_ok.mp made with ⟨-, rfl⟩ | ⟨-, inner, expression, hw, -, rfl⟩
  · exact h
  · have hi := wrapIf_selects h hw
    exact hi

/-- A selection has the names it is given. -/
theorem selected_selects {retained : List String} (h : query.Selects d names) (ne : retained ≠ [])
    (known : retained ⊆ names) (made : selected d retained query = .ok result) :
    result.Selects d retained := by
  rcases selected_eq_ok.mp made with ⟨he, rfl⟩ | ⟨-, -, hw⟩ | ⟨-, -, hr⟩
  · exact beq_iff_eq.mp he
  · obtain ⟨sub, hs, rfl⟩ := (QuerySpecification.wrapped_some_eq_ok (by simpa using ne)).mp hw
    have hf : (retained.map d.quoted).filter sub.columns.contains = retained.map d.quoted := by
      rw [List.filter_eq_self, h.named_columns hs]
      intro label hl
      simpa using List.map_subset d.quoted known hl
    show (sub.items _).map _ = _
    rw [SubQuery.map_label?_items, hf]
  · obtain ⟨kept, ht, rfl⟩ := retain_eq_ok.mp hr
    exact (takeColumns_eq_ok ht).1

/-- Distinct rows keep the names. -/
theorem distinct_selects (h : query.Selects d names)
    (made : distinct d none query = .ok result) : result.Selects d names := by
  obtain ⟨_, inner, rfl, hw, rfl⟩ := distinct_eq_ok.mp made
  have hi := wrapIf_selects h hw
  exact hi

/-- Distinct rows of some columns have the names of these columns. -/
theorem distinctBy_selects {retained : List String} (h : query.Selects d names)
    (ne : retained ≠ []) (known : retained ⊆ names)
    (made : distinct d (some retained) query = .ok result) : result.Selects d retained := by
  obtain ⟨restricted, inner, hr, hw, rfl⟩ := distinct_eq_ok.mp made
  have hi := wrapIf_selects (selected_selects h ne known hr) hw
  exact hi

private theorem labels_of_items {new : List ComputedColumn} {items : List SelectItem}
    {toItem : ComputedColumn → Outcome SelectItem}
    (labelled : ∀ n i, toItem n = .ok i → i.label? = some (d.quoted n.name))
    (made : List.Forall₂ (fun n i ↦ toItem n = .ok i) new items) :
    items.map (·.label?) = ((new.map (·.name)).map d.quoted).map some := by
  induction made with
  | nil => rfl
  | cons hi _ ih => simp only [List.map_cons, ih, labelled _ _ hi]

private theorem label?_newItem {scope : Scope} {new : ComputedColumn} {result : SelectItem}
    (made : newItem scope new = .ok result) :
    result.label? = some (scope.dialect.quoted new.name) := by
  rcases newItem_eq_ok.mp made with ⟨-, _, -, rfl⟩ | ⟨_, -, _, -, rfl⟩
  · rfl
  · rfl

private theorem label?_windowItem {scope : Scope} {window : Sql.Window} {new : ComputedColumn}
    {result : SelectItem} (made : windowItem scope window new = .ok result) :
    result.label? = some (scope.dialect.quoted new.name) := by
  obtain ⟨_, -, rfl⟩ := windowItem_eq_ok.mp made
  rfl

private theorem label?_valueItem {scope : Scope} {new : ComputedColumn} {result : SelectItem}
    (made : valueItem scope new = .ok result) :
    result.label? = some (scope.dialect.quoted new.name) := by
  obtain ⟨_, -, rfl⟩ := valueItem_eq_ok.mp made
  rfl

private theorem append_selects {items : List SelectItem} {more : List String}
    (h : query.Selects d names)
    (labels : items.map (·.label?) = (more.map d.quoted).map some) :
    (query.withItems (query.items ++ items)).Selects d (names ++ more) := by
  show (query.items ++ items).map _ = _
  rw [List.map_append, labels, h, List.map_append, List.map_append]

/-- An extension puts its names behind those of the query. -/
theorem extended_selects {new : List ComputedColumn} (h : query.Selects d names)
    (made : extended d new query = .ok result) :
    result.Selects d (names ++ new.map (·.name)) := by
  obtain ⟨inner, items, hw, hi, rfl⟩ := extended_eq_ok.mp made
  exact append_selects (wrapIf_selects h hw) (labels_of_items (fun _ _ ↦ label?_newItem) hi)

/-- A window extension puts its names behind those of the query. -/
theorem windowExtended_selects {window : WindowSpec} {new : List ComputedColumn}
    (h : query.Selects d names) (made : windowExtended d window new query = .ok result) :
    result.Selects d (names ++ new.map (·.name)) := by
  obtain ⟨sub, clause, items, hs, -, hi, rfl⟩ := windowExtended_eq_ok.mp made
  exact append_selects (h.all hs) (labels_of_items (fun _ _ ↦ label?_windowItem) hi)

/-- A projection has the names of its columns. -/
theorem projected_selects {new : List ComputedColumn}
    (made : projected d new query = .ok result) : result.Selects d (new.map (·.name)) := by
  obtain ⟨sub, items, -, hi, rfl⟩ := projected_eq_ok.mp made
  exact labels_of_items (fun _ _ made ↦ label?_valueItem made) hi

/-- What is substituted for a quoted name is the quoted name that is substituted for it. -/
theorem substituted_quoted (d : Dialect) (pairs : List (String × String))
    (name : String) :
    substituted (quotedPairs d pairs) (d.quoted name) = d.quoted (substituted pairs name) := by
  unfold substituted quotedPairs
  induction pairs with
  | nil => rfl
  | cons pair pairs ih =>
    rw [List.map_cons, List.lookup_cons, List.lookup_cons]
    by_cases he : name = pair.1
    · simp [he]
    · have hq : d.quoted name ≠ d.quoted pair.1 := fun h ↦ he (Dialect.quoted_inj.mp h)
      rw [beq_eq_false_iff_ne.mpr he, beq_eq_false_iff_ne.mpr hq]
      exact ih

/-- A renaming substitutes in the names. -/
theorem renamed_selects {pairs : List (String × String)} (h : query.Selects d names)
    (made : renamed d pairs query = .ok result) :
    result.Selects d (names.map (substituted pairs)) := by
  obtain ⟨items, hi, rfl⟩ := renamed_eq_ok.mp made
  have labels : items.map (·.label?) =
      (query.items.map (·.label?)).map (Option.map (substituted (quotedPairs d pairs))) := by
    clear made
    generalize query.items = earlier at hi
    induction hi with
    | nil => rfl
    | @cons i r _ _ hr _ ih =>
      simp only [List.map_cons, ih]
      cases i with
      | allColumns relation => exact absurd hr Outcome.fail_ne_ok
      | column label expression => rw [← Except.ok.inj hr]; rfl
  show items.map _ = _
  rw [labels, h]
  simp only [List.map_map, Function.comp_def, Option.map_some, substituted_quoted]

/-- A grouping has the names of its keys and then those of its aggregates. -/
theorem grouped_selects {grouping : List String} {aggregates : List ComputedColumn}
    (made : grouped d grouping aggregates query = .ok result) :
    result.Selects d (grouping ++ aggregates.map (·.name)) := by
  obtain ⟨inner, items, keys, kept, -, hi, -, ht, rfl⟩ := grouped_eq_ok.mp made
  have keys : (inner.withItems kept).Selects d grouping := (takeColumns_eq_ok ht).1
  exact append_selects keys (labels_of_items (fun _ _ ↦ label?_valueItem) hi)

/-- A sorting keeps the names. -/
theorem sorted_selects {keys : List SortKey} (h : query.Selects d names)
    (made : sorted d keys query = .ok result) : result.Selects d names := by
  obtain ⟨inner, items, hw, -, rfl⟩ := sorted_eq_ok.mp made
  have hi := wrapIf_selects h hw
  exact hi

/-- A slice keeps the names. -/
theorem sliced_selects {start stop : Int64} (h : query.Selects d names)
    (made : sliced d start stop query = .ok result) : result.Selects d names := by
  obtain ⟨inner, hw, rfl⟩ := sliced_eq_ok.mp made
  have hi := wrapIf_selects h hw
  exact hi

/-- A limit keeps the names. -/
theorem limited_selects {count : Int64} (h : query.Selects d names)
    (made : limited d count query = .ok result) : result.Selects d names := by
  obtain ⟨inner, hw, rfl⟩ := limited_eq_ok.mp made
  have hi := wrapIf_selects h hw
  exact hi

/-- Dropping rows keeps the names. -/
theorem dropped_selects {count : Int64} (h : query.Selects d names)
    (made : dropped d count query = .ok result) : result.Selects d names := by
  obtain ⟨inner, hw, rfl⟩ := dropped_eq_ok.mp made
  have hi := wrapIf_selects h hw
  exact hi

/-- All columns of two sub-queries are selected under their own names. -/
theorem paired_selects {left right : SubQuery} {lefts rights : List String}
    (hl : left.columns = lefts.map d.quoted) (hr : right.columns = rights.map d.quoted)
    (kind : JoinKind) (holds : Sql.Expression) :
    (paired kind left right holds).Selects d (lefts ++ rights) := by
  show (left.items _ ++ right.items _).map _ = _
  rw [List.map_append, SubQuery.map_label?_items, SubQuery.map_label?_items, hl, hr,
    List.map_append, List.map_append]

/-- A join has the names of both of its sub-queries. -/
theorem joined_selects {condition : Expr} {kind : JoinKind} {left right : SubQuery}
    {lefts rights : List String} (hl : left.columns = lefts.map d.quoted)
    (hr : right.columns = rights.map d.quoted)
    (made : joined d condition kind left right = .ok result) :
    result.Selects d (lefts ++ rights) := by
  obtain ⟨holds, sub, -, hs, rfl⟩ := joined_eq_ok.mp made
  exact (paired_selects hl hr kind holds).all hs

/-- Two sub-queries one after the other have the names of the first. -/
theorem concatenated_selects {left : SubQuery} {names : List String}
    (hl : left.columns = names.map d.quoted) (right : SubQuery) :
    (concatenated d left right).Selects d names := by
  show (left.columns.map _).map _ = _
  rw [hl, List.map_map]
  rfl

end QueryStep

namespace Frame

variable {frame : Frame} {d : Dialect} {query : QuerySpecification}

/-- The query of a checked frame selects exactly the columns of the frame. -/
theorem Checked.selects (checked : Checked frame) (made : frame.toSql d = .ok query) :
    query.Selects d frame.columnNames := by
  induction checked generalizing query with
  | table =>
    rw [← Except.ok.inj made]
    exact QueryStep.table_selects ..
  | filtered _ _ ih =>
    obtain ⟨inner, hi, hs⟩ := Outcome.bind_eq_ok.mp made
    exact QueryStep.filtered_selects (ih hi) hs
  | selected _ ne known _ ih =>
    obtain ⟨inner, hi, hs⟩ := Outcome.bind_eq_ok.mp made
    rw [columnNames_selected known]
    exact QueryStep.selected_selects (ih hi) ne known hs
  | distinct _ ih =>
    obtain ⟨inner, hi, hs⟩ := Outcome.bind_eq_ok.mp made
    exact QueryStep.distinct_selects (ih hi) hs
  | distinctBy _ ne known _ ih =>
    obtain ⟨inner, hi, hs⟩ := Outcome.bind_eq_ok.mp made
    rw [columnNames_distinct_some known]
    exact QueryStep.distinctBy_selects (ih hi) ne known hs
  | extended _ _ _ ih =>
    obtain ⟨inner, hi, hs⟩ := Outcome.bind_eq_ok.mp made
    rw [columnNames_extended]
    exact QueryStep.extended_selects (ih hi) hs
  | windowExtended _ _ _ _ ih =>
    obtain ⟨inner, hi, hs⟩ := Outcome.bind_eq_ok.mp made
    rw [columnNames_windowExtended]
    exact QueryStep.windowExtended_selects (ih hi) hs
  | projected =>
    obtain ⟨inner, -, hs⟩ := Outcome.bind_eq_ok.mp made
    rw [columnNames_projected]
    exact QueryStep.projected_selects hs
  | renamed _ _ _ _ _ ih =>
    obtain ⟨inner, hi, hs⟩ := Outcome.bind_eq_ok.mp made
    rw [columnNames_renamed]
    exact QueryStep.renamed_selects (ih hi) hs
  | grouped _ known =>
    obtain ⟨inner, -, hs⟩ := Outcome.bind_eq_ok.mp made
    rw [columnNames_grouped known]
    exact QueryStep.grouped_selects hs
  | sorted _ _ _ ih =>
    obtain ⟨inner, hi, hs⟩ := Outcome.bind_eq_ok.mp made
    exact QueryStep.sorted_selects (ih hi) hs
  | sliced _ _ _ ih =>
    obtain ⟨inner, hi, hs⟩ := Outcome.bind_eq_ok.mp made
    exact QueryStep.sliced_selects (ih hi) hs
  | limited _ _ ih =>
    obtain ⟨inner, hi, hs⟩ := Outcome.bind_eq_ok.mp made
    exact QueryStep.limited_selects (ih hi) hs
  | dropped _ _ ih =>
    obtain ⟨inner, hi, hs⟩ := Outcome.bind_eq_ok.mp made
    exact QueryStep.dropped_selects (ih hi) hs
  | joined _ _ _ _ left right =>
    obtain ⟨lefts, l, rights, r, hl, hln, hr, hrn, made⟩ :=
      toSql_pair_eq_ok.mp made
    rw [columnNames_joined]
    exact QueryStep.joined_selects ((left hl).named_columns hln) ((right hr).named_columns hrn) made
  | asOfJoined => exact absurd made Outcome.fail_ne_ok
  | concatenated _ _ _ left _ =>
    obtain ⟨lefts, l, rights, r, hl, hln, -, -, made⟩ :=
      toSql_pair_eq_ok.mp made
    rw [← Outcome.pure_eq_ok.mp made]
    exact QueryStep.concatenated_selects ((left hl).named_columns hln) r
  | served _ ih => exact ih made

/-- The columns of every reachable frame have distinct names and there is at least one; the select
list of its query consists of one column for each of them, in order, labelled with the quoted
name. -/
theorem Reachable.columns_in_step (reachable : Reachable frame) :
    frame.columnNames ≠ [] ∧ frame.columnNames.Nodup ∧
      ∀ (d : Dialect) (query : QuerySpecification), frame.toSql d = .ok query →
        List.Forall₂ (fun name item ↦
            ∃ expression, item = SelectItem.column (some (d.quoted name)) expression)
          frame.columnNames query.items := by
  have checked := reachable.checked
  refine ⟨checked.columnNames_ne_nil, checked.columnNames_nodup, fun d query made ↦ ?_⟩
  have labels := checked.selects made
  rw [QuerySpecification.Selects, List.map_map] at labels
  have pairs := List.forall₂_eq_eq_eq ▸ labels
  rw [List.forall₂_map_left_iff, List.forall₂_map_right_iff] at pairs
  exact pairs.flip.imp fun name item hl ↦ SelectItem.eq_column_of_label? hl

/-- The columns of a table that trade names, written with single quotes around identifiers. -/
theorem Reachable.columns_in_step_of_trade :
    ∃ frame : Frame, frame.columnNames = ["b", "a"] ∧ frame.columnNames.Nodup ∧
      ∃ query : QuerySpecification, frame.toSql { quote := '\'' } = .ok query ∧
        List.Forall₂ (fun name item ↦
            ∃ expression, item = SelectItem.column (some (Quoted.doubled '\'' name)) expression)
          ["b", "a"] query.items := by
  have made : ofTable ["t"] [⟨"a", .integer, none, none⟩, ⟨"b", .string, none, none⟩] =
      .ok (.table ["t"] [⟨"a", .integer, none, none⟩, ⟨"b", .string, none, none⟩]) := rfl
  have traded : Frame.rename (.table ["t"] [⟨"a", .integer, none, none⟩,
      ⟨"b", .string, none, none⟩]) [("a", "b"), ("b", "a")] = .ok (.renamed _ _) := rfl
  have reachable := Reachable.rename (.table made) traded
  exact ⟨_, rfl, reachable.columns_in_step.2.1, _, rfl,
    reachable.columns_in_step.2.2 { quote := '\'' } _ rfl⟩

end Frame

end FrameQuery
