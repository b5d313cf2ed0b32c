import FrameQuery.Proofs.Expr.Relabeling
import FrameQuery.Proofs.Frame.SelectList

/-!
# Dialects and quoting

A dialect has no influence on the query of a frame but for the way names are quoted. Each step does
the same to a query and to the query with its names respelled for another dialect: clauses are
looked at as such, and labels are compared with quoted names only, which are the same for one
dialect exactly if they are for another. So the queries of a frame for two dialects are one query
once every quoted name is replaced by the name it quotes, and where one fails the other fails with
the same error.
-/

namespace FrameQuery

open Sql (Dialect QuerySpecification SelectItem SubQuery Respells)

namespace QueryStep

variable {d e : Dialect} {f : String → String} {query result : QuerySpecification}

/-! ### Labels -/

/-- A selection of columns keeps a select list labelled. -/
theorem selected_labelled {names : List String} (labelled : query.Labelled d)
    (made : selected d names query = .ok result) : result.Labelled d := by
  rcases selected_eq_ok.mp made with ⟨-, rfl⟩ | ⟨-, -, hw⟩ | ⟨-, -, hr⟩
  · exact labelled
  · obtain ⟨all, ha⟩ := labelled
    rcases eq_or_ne names [] with rfl | ne
    · obtain ⟨sub, hs, rfl⟩ := QuerySpecification.wrapped_none_eq_ok.mp hw
      exact ⟨all, ha.all hs⟩
    · obtain ⟨sub, -, rfl⟩ := (QuerySpecification.wrapped_some_eq_ok (by simpa using ne)).mp hw
      refine ⟨names.filter fun name ↦ sub.columns.contains (d.quoted name), ?_⟩
      show (sub.items _).map _ = _
      rw [SubQuery.map_label?_items, List.filter_map]
      rfl
  · obtain ⟨kept, ht, rfl⟩ := retain_eq_ok.mp hr
    exact ⟨names, (takeColumns_eq_ok ht).1⟩

/-- Distinct rows keep a select list labelled. -/
theorem distinct_labelled {names : Option (List String)} (labelled : query.Labelled d)
    (made : distinct d names query = .ok result) : result.Labelled d := by
  obtain ⟨restricted, inner, hr, hw, rfl⟩ := distinct_eq_ok.mp made
  have kept : restricted.Labelled d := by
    cases names with
    | none => exact hr ▸ labelled
    | some names => exact selected_labelled labelled hr
  obtain ⟨all, ha⟩ := kept
  have hi := wrapIf_selects ha hw
  exact ⟨all, hi⟩

/-- A wrapped query is labelled. -/
theorem wrapIf_labelled {needed : Bool} (labelled : query.Labelled d)
    (made : wrapIf d needed query = .ok result) : result.Labelled d :=
  labelled.imp fun _ h ↦ wrapIf_selects h made

/-! ### Respelled queries -/

/-- A column is labelled with the respelled name. -/
theorem item_relabel (spell : Respells d e f) (name : String) (x : Sql.Expression) :
    (item d name x).relabel f = item e name (x.relabel f) := by
  rw [item, item, SelectItem.relabel, Option.map_some, spell]

/-- A respelled query is wrapped like the query. -/
theorem wrapIf_relabel (spell : Respells d e f) (needed : Bool) (query : QuerySpecification) :
    wrapIf e needed (query.relabel f) = (wrapIf d needed query).map (·.relabel f) := by
  cases needed with
  | true => exact query.wrapped_none_relabel spell "root"
  | false => rfl

/-- The rows of a table are selected alike. -/
theorem table_relabel (spell : Respells d e f) (parts names : List String) :
    (table d parts names).relabel f = table e parts names := by
  have items : (names.map fun name ↦ SelectItem.passing (d.quoted "root") (d.quoted name)).map
      (·.relabel f) = names.map fun name ↦ .passing (e.quoted "root") (e.quoted name) := by
    rw [List.map_map]
    refine List.map_congr_left fun name _ ↦ ?_
    rw [← spell, ← spell]
    rfl
  rw [table, table, QuerySpecification.relabel_plain, items, ← spell "root"]
  rfl

/-- Rows are filtered alike. -/
theorem filtered_relabel (spell : Respells d e f) (labelled : query.Labelled d) (condition : Expr) :
    filtered e condition (query.relabel f) = (filtered d condition query).map (·.relabel f) := by
  unfold filtered
  split
  · rfl
  · rw [query.hasAny_relabel, query.selectsWindow_relabel, wrapIf_relabel spell]
    refine Outcome.map_bind_eq fun inner hw ↦ ?_
    rw [(Scope.twin_single spell (wrapIf_labelled labelled hw)).toSql]
    refine Outcome.map_bind_eq fun x _ ↦ congrArg Except.ok ?_
    obtain ⟨⟨_, _⟩, _, earlier, _, _, _, _, _⟩ := inner
    cases earlier <;> rfl

/-- Entries are taken out of a select list alike. -/
theorem takeLabelled?_relabel (spell : Respells d e f) {items : List SelectItem}
    (labelled : ∀ item ∈ items, ∃ own, item.label? = some (d.quoted own)) (name : String) :
    takeLabelled? (e.quoted name) (items.map (·.relabel f)) =
      (takeLabelled? (d.quoted name) items).map (Prod.map (·.relabel f) (List.map (·.relabel f))) := by
  have place : (items.map (·.relabel f)).findIdx? (fun item ↦ item.label? == some (e.quoted name)) =
      items.findIdx? fun item ↦ item.label? == some (d.quoted name) := by
    rw [List.findIdx?_map]
    induction items with
    | nil => rfl
    | cons item rest ih =>
      obtain ⟨⟨own, label⟩, others⟩ := List.forall_mem_cons.mp labelled
      have same : ((item.relabel f).label? == some (e.quoted name)) =
          (item.label? == some (d.quoted name)) := by
        rw [item.label?_relabel, label, Bool.eq_iff_iff, beq_iff_eq, beq_iff_eq, Option.map_some,
          Option.some.injEq, Option.some.injEq]
        exact spell.quoted_eq_iff
      rw [List.findIdx?_cons, List.findIdx?_cons, ih others, Function.comp, same]
  rw [takeLabelled?, takeLabelled?, place]
  cases items.findIdx? _ with
  | none => rfl
  | some i =>
    simp only [List.getElem?_map, List.getLast?_map]
    cases items[i]? with
    | none => rfl
    | some item =>
      cases items.getLast? with
      | none => rfl
      | some last => simp [List.map_dropLast, List.map_set]

/-- Columns are taken out of a select list alike. -/
theorem takeColumns_relabel (spell : Respells d e f) {items : List SelectItem}
    (labelled : ∀ item ∈ items, ∃ own, item.label? = some (d.quoted own)) (names : List String) :
    takeColumns e names (items.map (·.relabel f)) =
      (takeColumns d names items).map (List.map (·.relabel f)) := by
  induction names generalizing items with
  | nil => rfl
  | cons name names ih =>
    rw [takeColumns, takeColumns, takeLabelled?_relabel spell labelled]
    cases ht : takeLabelled? (d.quoted name) items with
    | none => rfl
    | some taken =>
      obtain ⟨item, rest⟩ := taken
      have left : ∀ i ∈ rest, ∃ own, i.label? = some (d.quoted own) := fun i hi ↦
        labelled i ((takeLabelled?_eq_some ht).2.symm.subset (List.mem_cons_of_mem _ hi))
      change takeColumns e names (rest.map _) >>= _ = _
      rw [ih left]
      exact Outcome.map_bind_eq fun _ _ ↦ rfl

/-- A select list is replaced alike. -/
theorem withItems_relabel (query : QuerySpecification) (items : List SelectItem) :
    (query.withItems items).relabel f = (query.relabel f).withItems (items.map (·.relabel f)) := by
  rw [QuerySpecification.relabel_eq, QuerySpecification.relabel_eq]
  rfl

/-- The select list of a respelled query. -/
theorem items_relabel (query : QuerySpecification) :
    (query.relabel f).items = query.items.map (·.relabel f) := by
  rw [QuerySpecification.relabel_eq]
  rfl

/-- Columns are kept alike. -/
theorem retain_relabel (spell : Respells d e f) (labelled : query.Labelled d)
    (names : List String) :
    retain e names (query.relabel f) = (retain d names query).map (·.relabel f) := by
  rw [retain, retain, items_relabel,
    takeColumns_relabel spell (fun _ ↦ labelled.exists_label)]
  exact Outcome.map_bind_eq fun items _ ↦ congrArg Except.ok (withItems_relabel query items).symm

/-- Columns are selected alike. -/
theorem selected_relabel (spell : Respells d e f) (labelled : query.Labelled d)
    (names : List String) :
    selected e names (query.relabel f) = (selected d names query).map (·.relabel f) := by
  have exactly : selectsExactly (query.relabel f) (names.map e.quoted) =
      selectsExactly query (names.map d.quoted) := by
    obtain ⟨all, ha⟩ := labelled
    have inj (d : Dialect) : Function.Injective d.quoted := fun _ _ ↦ Dialect.quoted_inj.mp
    have labels : (query.relabel f).items.map (·.label?) = (all.map e.quoted).map some := by
      rw [items_relabel, List.map_map, ← spell.map_quoted]
      calc query.items.map ((·.label?) ∘ (·.relabel f))
          = (query.items.map (·.label?)).map (Option.map f) := by
            rw [List.map_map]
            exact List.map_congr_left fun item _ ↦ item.label?_relabel
        _ = ((all.map d.quoted).map f).map some := by
            rw [ha]
            simp only [List.map_map, Function.comp_def, Option.map_some]
    rw [selectsExactly, selectsExactly, labels, ha, Bool.eq_iff_iff, beq_iff_eq, beq_iff_eq,
      (List.map_injective_iff.mpr (Option.some_injective _)).eq_iff,
      (List.map_injective_iff.mpr (Option.some_injective _)).eq_iff,
      (List.map_injective_iff.mpr (inj e)).eq_iff, (List.map_injective_iff.mpr (inj d)).eq_iff]
  unfold selected
  simp only [exactly, query.hasAny_relabel, query.wrapped_some_relabel spell labelled,
    retain_relabel spell labelled]
  split
  · rfl
  · split <;> rfl

/-- Rows are made distinct alike. -/
theorem distinct_relabel (spell : Respells d e f) (labelled : query.Labelled d)
    (names : Option (List String)) :
    distinct e names (query.relabel f) = (distinct d names query).map (·.relabel f) := by
  have rest (restricted : QuerySpecification) :
      (do
        let inner ← wrapIf e ((restricted.relabel f).hasAny [.offset, .limit]) (restricted.relabel f)
        return { inner with select := { inner.select with distinct := true } }) =
      Except.map (·.relabel f) (do
        let inner ← wrapIf d (restricted.hasAny [.offset, .limit]) restricted
        return { inner with select := { inner.select with distinct := true } }) := by
    rw [restricted.hasAny_relabel, wrapIf_relabel spell]
    refine Outcome.map_bind_eq fun inner _ ↦ congrArg Except.ok ?_
    obtain ⟨⟨_, _⟩, _, _, _, _, _, _, _⟩ := inner
    rfl
  unfold distinct
  cases names with
  | none => exact rest query
  | some names =>
    change (selected e names (query.relabel f) >>= _) = _
    rw [selected_relabel spell labelled]
    exact Outcome.map_bind_eq fun restricted _ ↦ rest restricted

section Items

variable {scope other : Scope} (spell : Respells d e f) (twin : scope.Twin f other)
  (base : scope.dialect = d) (target : other.dialect = e)
include spell twin base target

/-- Columns of an extension are written alike. -/
theorem newItem_relabel (new : ComputedColumn) :
    newItem other new = (newItem scope new).map (·.relabel f) := by
  unfold newItem
  rw [base, target]
  cases new.aggregate with
  | none =>
    simp only [twin.toSql]
    exact Outcome.map_bind_eq fun x _ ↦ congrArg Except.ok (item_relabel spell new.name x).symm
  | some aggregate =>
    simp only [twin.toSql]
    exact Outcome.map_bind_eq fun x _ ↦
      congrArg Except.ok (item_relabel spell new.name (.window x .whole)).symm

/-- Columns of a window extension are written alike. -/
theorem windowItem_relabel (window : Sql.Window) (new : ComputedColumn) :
    windowItem other (window.relabel f) new =
      (windowItem scope window new).map (·.relabel f) := by
  rw [windowItem, windowItem, base, target, twin.toSql]
  exact Outcome.map_bind_eq fun x _ ↦
    congrArg Except.ok (item_relabel spell new.name (.window x window)).symm

/-- Columns of a projection or a grouping are written alike. -/
theorem valueItem_relabel (new : ComputedColumn) :
    valueItem other new = (valueItem scope new).map (·.relabel f) := by
  rw [valueItem, valueItem, base, target, twin.toSql]
  exact Outcome.map_bind_eq fun x _ ↦ congrArg Except.ok (item_relabel spell new.name x).symm

end Items

/-- New columns are written alike if each of them is. -/
theorem newItems_relabel {toItem toOther : ComputedColumn → Outcome SelectItem}
    (each : ∀ new, toOther new = (toItem new).map (·.relabel f)) (new : List ComputedColumn) :
    newItems toOther new = (newItems toItem new).map (List.map (·.relabel f)) := by
  induction new with
  | nil => rfl
  | cons first rest ih =>
    rw [newItems, newItems, each, ih]
    exact Outcome.map_bind_eq fun _ _ ↦ Outcome.map_bind_eq fun _ _ ↦ rfl

/-- Entries are put behind a select list alike. -/
theorem append_relabel (query : QuerySpecification) (items : List SelectItem) :
    (query.relabel f).withItems ((query.relabel f).items ++ items.map (·.relabel f)) =
      (query.withItems (query.items ++ items)).relabel f := by
  rw [withItems_relabel, items_relabel, List.map_append]

/-- Columns are added alike. -/
theorem extended_relabel (spell : Respells d e f) (labelled : query.Labelled d)
    (new : List ComputedColumn) :
    extended e new (query.relabel f) = (extended d new query).map (·.relabel f) := by
  rw [extended, extended, query.has_relabel, wrapIf_relabel spell]
  refine Outcome.map_bind_eq fun inner hw ↦ ?_
  have twin := Scope.twin_single spell (wrapIf_labelled labelled hw)
  rw [newItems_relabel (newItem_relabel spell twin rfl rfl)]
  exact Outcome.map_bind_eq fun items _ ↦ congrArg Except.ok (append_relabel inner items)

/-- A wrapped query is labelled. -/
theorem wrapped_labelled (labelled : query.Labelled d)
    (made : query.wrapped d "root" none = .ok result) : result.Labelled d := by
  obtain ⟨sub, hs, rfl⟩ := QuerySpecification.wrapped_none_eq_ok.mp made
  exact labelled.imp fun _ h ↦ h.all hs

/-- Columns over a window are added alike. -/
theorem windowExtended_relabel (spell : Respells d e f) (labelled : query.Labelled d)
    (window : WindowSpec) (new : List ComputedColumn) :
    windowExtended e window new (query.relabel f) =
      (windowExtended d window new query).map (·.relabel f) := by
  rw [windowExtended, windowExtended, query.wrapped_none_relabel spell]
  refine Outcome.map_bind_eq fun inner hw ↦ ?_
  have twin := Scope.twin_single spell (wrapped_labelled labelled hw)
  simp only [twin.windowToSql]
  refine Outcome.map_bind_eq fun clause _ ↦ ?_
  rw [newItems_relabel (windowItem_relabel spell twin rfl rfl clause)]
  exact Outcome.map_bind_eq fun items _ ↦ congrArg Except.ok (append_relabel inner items)

/-- Rows are projected alike. -/
theorem projected_relabel (spell : Respells d e f) (labelled : query.Labelled d)
    (new : List ComputedColumn) :
    projected e new (query.relabel f) = (projected d new query).map (·.relabel f) := by
  rw [projected, projected, query.wrapped_none_relabel spell]
  refine Outcome.map_bind_eq fun inner hw ↦ ?_
  have twin := Scope.twin_single spell (wrapped_labelled labelled hw)
  rw [newItems_relabel fun new ↦ valueItem_relabel spell twin rfl rfl { new with aggregate := none }]
  exact Outcome.map_bind_eq fun items _ ↦ congrArg Except.ok (withItems_relabel inner items).symm

/-- Columns are renamed alike. -/
theorem renamed_relabel (spell : Respells d e f) (labelled : query.Labelled d)
    (pairs : List (String × String)) :
    renamed e pairs (query.relabel f) = (renamed d pairs query).map (·.relabel f) := by
  have alike (items : List SelectItem)
      (each : ∀ item ∈ items, ∃ own, item.label? = some (d.quoted own)) :
      renamedItems (quotedPairs e pairs) (items.map (·.relabel f)) =
        (renamedItems (quotedPairs d pairs) items).map (List.map (·.relabel f)) := by
    induction items with
    | nil => rfl
    | cons item rest ih =>
      obtain ⟨⟨own, label⟩, others⟩ := List.forall_mem_cons.mp each
      obtain ⟨x, rfl⟩ := SelectItem.eq_column_of_label? label
      have first : renamedItem (quotedPairs e pairs) ((SelectItem.column (some (d.quoted own))
          x).relabel f) = (renamedItem (quotedPairs d pairs) (.column (some (d.quoted own))
            x)).map (·.relabel f) := by
        change Except.ok (SelectItem.column (some (substituted (quotedPairs e pairs)
          (f (d.quoted own)))) (x.relabel f)) = Except.ok (SelectItem.column (some (f
            (substituted (quotedPairs d pairs) (d.quoted own)))) (x.relabel f))
        rw [spell, substituted_quoted, substituted_quoted, spell]
      rw [List.map_cons, renamedItems, renamedItems, first, ih others]
      exact Outcome.map_bind_eq fun _ _ ↦ Outcome.map_bind_eq fun _ _ ↦ rfl
  unfold renamed
  rw [items_relabel]
  change (renamedItems (quotedPairs e pairs) _ >>= _) = _
  rw [alike query.items fun _ ↦ labelled.exists_label]
  exact Outcome.map_bind_eq fun items _ ↦ congrArg Except.ok (withItems_relabel query items).symm

/-- Rows are grouped alike. -/
theorem grouped_relabel (spell : Respells d e f) (labelled : query.Labelled d)
    (grouping : List String) (aggregates : List ComputedColumn) :
    grouped e grouping aggregates (query.relabel f) =
      (grouped d grouping aggregates query).map (·.relabel f) := by
  rw [grouped, grouped, query.hasAny_relabel, query.selectsWindow_relabel, wrapIf_relabel spell]
  refine Outcome.map_bind_eq fun inner hw ↦ ?_
  have kept := wrapIf_labelled labelled hw
  have twin := Scope.twin_single spell kept
  simp only [newItems_relabel (valueItem_relabel spell twin rfl rfl), twin.resolveAll,
    retain_relabel spell kept]
  refine Outcome.map_bind_eq fun items _ ↦ Outcome.map_bind_eq fun keys _ ↦
    Outcome.map_bind_eq fun retained _ ↦ congrArg Except.ok ?_
  simp only [append_relabel]
  generalize retained.withItems (retained.items ++ items) = whole
  simp only [QuerySpecification.relabel_eq]
  rfl

/-- Rows are sorted alike. -/
theorem sorted_relabel (spell : Respells d e f) (labelled : query.Labelled d)
    (keys : List SortKey) :
    sorted e keys (query.relabel f) = (sorted d keys query).map (·.relabel f) := by
  rw [sorted, sorted, query.hasAny_relabel, wrapIf_relabel spell]
  refine Outcome.map_bind_eq fun inner hw ↦ ?_
  rw [(Scope.twin_single spell (wrapIf_labelled labelled hw)).keysToSql]
  refine Outcome.map_bind_eq fun items _ ↦ congrArg Except.ok ?_
  simp only [QuerySpecification.relabel_eq]
  rfl

/-- Rows are sliced alike. -/
theorem sliced_relabel (spell : Respells d e f) (query : QuerySpecification)
    (start stop : Int64) :
    sliced e start stop (query.relabel f) = (sliced d start stop query).map (·.relabel f) := by
  rw [sliced, sliced, query.hasAny_relabel, wrapIf_relabel spell]
  refine Outcome.map_bind_eq fun inner _ ↦ congrArg Except.ok ?_
  obtain ⟨⟨_, _⟩, _, _, _, _, _, _, _⟩ := inner
  rfl

/-- Rows are limited alike. -/
theorem limited_relabel (spell : Respells d e f) (query : QuerySpecification) (count : Int64) :
    limited e count (query.relabel f) = (limited d count query).map (·.relabel f) := by
  rw [limited, limited, query.has_relabel, wrapIf_relabel spell]
  refine Outcome.map_bind_eq fun inner _ ↦ congrArg Except.ok ?_
  obtain ⟨⟨_, _⟩, _, _, _, _, _, _, _⟩ := inner
  rfl

/-- Rows are dropped alike. -/
theorem dropped_relabel (spell : Respells d e f) (query : QuerySpecification) (count : Int64) :
    dropped e count (query.relabel f) = (dropped d count query).map (·.relabel f) := by
  rw [dropped, dropped, query.hasAny_relabel, wrapIf_relabel spell]
  refine Outcome.map_bind_eq fun inner _ ↦ congrArg Except.ok ?_
  obtain ⟨⟨_, _⟩, _, _, _, _, _, _, _⟩ := inner
  rfl

/-- Two sub-queries are joined alike. -/
theorem joined_relabel (spell : Respells d e f) {left right : SubQuery}
    (lefts : left.all.Labelled d) (rights : right.all.Labelled d) (condition : Expr)
    (kind : JoinKind) :
    joined e condition kind (left.relabel f) (right.relabel f) =
      (joined d condition kind left right).map (·.relabel f) := by
  rw [joined, joined, left.all_relabel, right.all_relabel,
    (Scope.twin_pair spell lefts rights).toSql]
  refine Outcome.map_bind_eq fun holds _ ↦ ?_
  have pairs : QuerySpecification.plain ((left.all.relabel f).items ++ (right.all.relabel f).items)
      [.join (joinType kind) (left.relabel f).relation (right.relabel f).relation
        (some (.condition (holds.relabel f)))] = (paired kind left right holds).relabel f := by
    rw [paired, QuerySpecification.relabel_plain, items_relabel, items_relabel, List.map_append]
    rfl
  exact (congrArg (·.wrapped e "root" none) pairs).trans
    ((paired kind left right holds).wrapped_none_relabel spell "root")

/-- Two sub-queries follow each other alike. -/
theorem concatenated_relabel (spell : Respells d e f) (left right : SubQuery) :
    concatenated e (left.relabel f) (right.relabel f) = (concatenated d left right).relabel f := by
  have item (label : String) : (SelectItem.passing (d.quoted "root") label).relabel f =
      .passing (e.quoted "root") (f label) := by
    rw [← spell]
    rfl
  have items : (left.relabel f).columns.map (SelectItem.passing (e.quoted "root")) =
      (left.columns.map (SelectItem.passing (d.quoted "root"))).map (·.relabel f) := by
    rw [SubQuery.relabel, List.map_map, List.map_map]
    exact List.map_congr_left fun label _ ↦ (item label).symm
  rw [concatenated, concatenated, QuerySpecification.relabel_plain, items, left.all_relabel,
    right.all_relabel, ← spell "root"]
  rfl

end QueryStep

namespace Frame

variable {frame : Frame} {d : Dialect} {query : QuerySpecification}

/-- The query of a frame is labelled. -/
theorem labelled_toSql (made : frame.toSql d = .ok query) : query.Labelled d := by
  induction frame generalizing query with
  | table parts columns =>
    rw [← Except.ok.inj made]
    exact ⟨_, QueryStep.table_selects ..⟩
  | filtered base condition ih =>
    obtain ⟨inner, hi, hs⟩ := Outcome.bind_eq_ok.mp made
    exact (ih hi).imp fun _ h ↦ QueryStep.filtered_selects h hs
  | selected base names ih =>
    obtain ⟨inner, hi, hs⟩ := Outcome.bind_eq_ok.mp made
    exact QueryStep.selected_labelled (ih hi) hs
  | distinct base names ih =>
    obtain ⟨inner, hi, hs⟩ := Outcome.bind_eq_ok.mp made
    exact QueryStep.distinct_labelled (ih hi) hs
  | extended base new ih =>
    obtain ⟨inner, hi, hs⟩ := Outcome.bind_eq_ok.mp made
    obtain ⟨names, h⟩ := ih hi
    exact ⟨_, QueryStep.extended_selects h hs⟩
  | windowExtended base window new ih =>
    obtain ⟨inner, hi, hs⟩ := Outcome.bind_eq_ok.mp made
    obtain ⟨names, h⟩ := ih hi
    exact ⟨_, QueryStep.windowExtended_selects h hs⟩
  | projected base new ih =>
    obtain ⟨inner, hi, hs⟩ := Outcome.bind_eq_ok.mp made
    exact ⟨_, QueryStep.projected_selects hs⟩
  | renamed base pairs ih =>
    obtain ⟨inner, hi, hs⟩ := Outcome.bind_eq_ok.mp made
    obtain ⟨names, h⟩ := ih hi
    exact ⟨_, QueryStep.renamed_selects h hs⟩
  | grouped base grouping aggregates ih =>
    obtain ⟨inner, hi, hs⟩ := Outcome.bind_eq_ok.mp made
    exact ⟨_, QueryStep.grouped_selects hs⟩
  | sorted base keys ih =>
    obtain ⟨inner, hi, hs⟩ := Outcome.bind_eq_ok.mp made
    exact (ih hi).imp fun _ h ↦ QueryStep.sorted_selects h hs
  | sliced base start stop ih =>
    obtain ⟨inner, hi, hs⟩ := Outcome.bind_eq_ok.mp made
    exact (ih hi).imp fun _ h ↦ QueryStep.sliced_selects h hs
  | limited base count ih =>
    obtain ⟨inner, hi, hs⟩ := Outcome.bind_eq_ok.mp made
    exact (ih hi).imp fun _ h ↦ QueryStep.limited_selects h hs
  | dropped base count ih =>
    obtain ⟨inner, hi, hs⟩ := Outcome.bind_eq_ok.mp made
    exact (ih hi).imp fun _ h ↦ QueryStep.dropped_selects h hs
  | joined base other condition kind ihb iho =>
    obtain ⟨lefts, left, rights, right, hl, hnl, hr, hnr, hs⟩ := toSql_pair_eq_ok.mp made
    obtain ⟨leftNames, sl⟩ := ihb hl
    obtain ⟨rightNames, sr⟩ := iho hr
    exact ⟨_, QueryStep.joined_selects (sl.named_columns hnl) (sr.named_columns hnr) hs⟩
  | asOfJoined base other matching condition => exact absurd made Outcome.fail_ne_ok
  | concatenated base other ihb iho =>
    obtain ⟨lefts, left, rights, right, hl, hnl, hr, hnr, hs⟩ := toSql_pair_eq_ok.mp made
    obtain ⟨leftNames, sl⟩ := ihb hl
    rw [← Outcome.pure_eq_ok.mp hs]
    exact ⟨_, QueryStep.concatenated_selects (sl.named_columns hnl) right⟩
  | served frame service ih => exact ih made

/-- The query of a frame for one dialect is that for another, respelled. -/
theorem toSql_relabel {e : Dialect} {f : String → String} (spell : Respells d e f)
    (frame : Frame) : frame.toSql e = (frame.toSql d).map (·.relabel f) := by
  have pair {base other : Frame} {step stepOther : SubQuery → SubQuery → Outcome QuerySpecification}
      (ihb : base.toSql e = (base.toSql d).map (·.relabel f))
      (iho : other.toSql e = (other.toSql d).map (·.relabel f))
      (each : ∀ left right, left.all.Labelled d → right.all.Labelled d →
        stepOther (left.relabel f) (right.relabel f) = (step left right).map (·.relabel f)) :
      (do
        let left ← (← base.toSql e).named e "left"
        let right ← (← other.toSql e).named e "right"
        stepOther left right) = Except.map (·.relabel f) (do
          let left ← (← base.toSql d).named d "left"
          let right ← (← other.toSql d).named d "right"
          step left right) := by
    rw [ihb, iho]
    refine Outcome.map_bind_eq fun lefts hl ↦ ?_
    rw [lefts.named_relabel spell]
    refine Outcome.map_bind_eq fun left hln ↦ Outcome.map_bind_eq fun rights hr ↦ ?_
    rw [rights.named_relabel spell]
    exact Outcome.map_bind_eq fun right hrn ↦ each left right
      ((labelled_toSql hl).imp fun _ h ↦ h.all hln) ((labelled_toSql hr).imp fun _ h ↦ h.all hrn)
  induction frame with
  | table parts columns => exact congrArg Except.ok (QueryStep.table_relabel spell parts _).symm
  | filtered base condition ih =>
    rw [toSql, toSql, ih]
    exact Outcome.map_bind_eq fun _ h ↦
      QueryStep.filtered_relabel spell (labelled_toSql h) condition.expr
  | selected base names ih =>
    rw [toSql, toSql, ih]
    exact Outcome.map_bind_eq fun _ h ↦ QueryStep.selected_relabel spell (labelled_toSql h) names
  | distinct base names ih =>
    rw [toSql, toSql, ih]
    exact Outcome.map_bind_eq fun _ h ↦ QueryStep.distinct_relabel spell (labelled_toSql h) names
  | extended base new ih =>
    rw [toSql, toSql, ih]
    exact Outcome.map_bind_eq fun _ h ↦ QueryStep.extended_relabel spell (labelled_toSql h) new
  | windowExtended base window new ih =>
    rw [toSql, toSql, ih]
    exact Outcome.map_bind_eq fun _ h ↦
      QueryStep.windowExtended_relabel spell (labelled_toSql h) window new
  | projected base new ih =>
    rw [toSql, toSql, ih]
    exact Outcome.map_bind_eq fun _ h ↦ QueryStep.projected_relabel spell (labelled_toSql h) new
  | renamed base pairs ih =>
    rw [toSql, toSql, ih]
    exact Outcome.map_bind_eq fun _ h ↦ QueryStep.renamed_relabel spell (labelled_toSql h) pairs
  | grouped base grouping aggregates ih =>
    rw [toSql, toSql, ih]
    exact Outcome.map_bind_eq fun _ h ↦
      QueryStep.grouped_relabel spell (labelled_toSql h) grouping aggregates
  | sorted base keys ih =>
    rw [toSql, toSql, ih]
    exact Outcome.map_bind_eq fun _ h ↦ QueryStep.sorted_relabel spell (labelled_toSql h) keys
  | sliced base start stop ih =>
    rw [toSql, toSql, ih]
    exact Outcome.map_bind_eq fun query _ ↦ QueryStep.sliced_relabel spell query start stop
  | limited base count ih =>
    rw [toSql, toSql, ih]
    exact Outcome.map_bind_eq fun query _ ↦ QueryStep.limited_relabel spell query count
  | dropped base count ih =>
    rw [toSql, toSql, ih]
    exact Outcome.map_bind_eq fun query _ ↦ QueryStep.dropped_relabel spell query count
  | joined base other condition kind ihb iho =>
    exact pair ihb iho fun _ _ lefts rights ↦
      QueryStep.joined_relabel spell lefts rights condition.expr kind
  | asOfJoined base other matching condition => rfl
  | concatenated base other ihb iho =>
    exact pair ihb iho fun left right _ _ ↦
      congrArg Except.ok (QueryStep.concatenated_relabel spell left right)
  | served frame service ih => exact ih

/-- The queries of a frame for two dialects are the same once every quoted name in them is replaced
by the name it quotes; where one dialect's query fails, the other's fails with the same error. No
name is left unquoted: the second query is the first one respelled, whatever the respelling does to
texts that quote nothing. -/
theorem toSql_dialect_independent (frame : Frame) (d e : Dialect) :
    (frame.toSql d).map (·.relabel d.unquoted) = (frame.toSql e).map (·.relabel e.unquoted) ∧
      ∀ f, Respells d e f → frame.toSql e = (frame.toSql d).map (·.relabel f) := by
  have unquoted : e.unquoted ∘ e.quoted ∘ d.unquoted = d.unquoted :=
    funext fun name ↦ e.unquoted_quoted (d.unquoted name)
  refine ⟨?_, fun f spell ↦ toSql_relabel spell frame⟩
  rw [toSql_relabel (Sql.respells_unquoted d e) frame]
  cases frame.toSql d with
  | error cause => rfl
  | ok query =>
    change Except.ok _ = Except.ok ((query.relabel _).relabel _)
    rw [query.relabel_relabel, unquoted]

end Frame

end FrameQuery
