import FrameQuery.Proofs.Frame.Identities

/-!
# Selections of selections

Columns selected from a selection are the columns selected from the frame itself, and the queries
are the same. A selection leaves a query as it is or narrows its select list, in a sub-query if
there are clauses that speak of other columns. Narrowing twice is narrowing once, and narrowing a
query to all of its columns changes nothing unless it has such clauses. So there is one case in
which the first selection leaves a trace: it puts all columns of a query with such clauses into
another order and the second one puts them back.
-/

namespace FrameQuery

open Sql (Dialect QuerySpecification SelectItem SubQuery)

/-- Some columns of a list, each of them once. -/
structure Picks (retained names : List String) : Prop where
  ne : retained ≠ []
  known : retained ⊆ names
  nodup : retained.Nodup

/-- Columns picked from picked columns are picked from the list. -/
theorem Picks.trans {names outer inner : List String} (first : Picks outer names)
    (second : Picks inner outer) : Picks inner names :=
  ⟨second.ne, List.Subset.trans second.known first.known, second.nodup⟩

/-! ### Queries -/

namespace QueryStep

variable {d : Dialect} {query middle : QuerySpecification} {names outer inner : List String}

/-- Entries of a select list without repeated labels are known by their labels. -/
theorem eq_of_labels {items kept other : List SelectItem} (nodup : (items.map (·.label?)).Nodup)
    (left : kept ⊆ items) (right : other ⊆ items)
    (same : kept.map (·.label?) = other.map (·.label?)) : kept = other := by
  induction kept generalizing other with
  | nil => exact (List.map_eq_nil_iff.mp same.symm).symm
  | cons entry kept ih =>
    cases other with
    | nil => cases same
    | cons first other =>
      obtain ⟨member, left⟩ := List.cons_subset.mp left
      obtain ⟨there, right⟩ := List.cons_subset.mp right
      obtain ⟨label, labels⟩ := List.cons.inj same
      rw [List.inj_on_of_nodup_map nodup member there label, ih left right labels]

/-- The query restricted to columns, in a sub-query or in place. -/
def narrowed (d : Dialect) (names : List String) (query : QuerySpecification) :
    Outcome QuerySpecification :=
  if wrapsForSelection query then query.wrapped d "root" (some (names.map d.quoted))
  else retain d names query

/-- All columns are selected in their order from a selection of all columns in another order, and
the query has clauses that keep the first selection in a sub-query. -/
structure RestoresOrder (query : QuerySpecification) (names outer inner : List String) : Prop where
  wraps : query.hasAny [.groupBy, .orderBy, .having, .distinct] = true
  all : inner = names
  perm : outer.Perm names
  reordered : outer ≠ names

section

variable (selects : query.Selects d names)

include selects

/-- A selection narrows the select list unless it names all columns in their order. -/
theorem selected_eq_narrowed (retained : List String) :
    selected d retained query =
      if retained = names then .ok query else narrowed d retained query := by
  have exactly : selectsExactly query (retained.map d.quoted) = true ↔ retained = names := by
    rw [selectsExactly, beq_iff_eq, selects,
      (List.map_injective_iff.mpr (Option.some_injective _)).eq_iff,
      (List.map_injective_iff.mpr Dialect.quoted_injective).eq_iff, eq_comm]
  by_cases all : retained = names
  · rw [if_pos all]
    exact if_pos (exactly.mpr all)
  · rw [if_neg all]
    exact if_neg (mt exactly.mp all)

/-- A query with clauses that speak of other columns keeps them in a sub-query. -/
theorem narrowed_of_wraps (wraps : wrapsForSelection query = true) (picks : Picks outer names) :
    ∃ sub : SubQuery, query.named d "root" = .ok sub ∧
      narrowed d outer query = .ok (.plain (sub.items (outer.map d.quoted)) [sub.relation]) := by
  have made := selects.named "root"
  have all : (outer.map d.quoted).filter (names.map d.quoted).contains = outer.map d.quoted := by
    rw [List.filter_eq_self]
    intro label member
    exact List.contains_iff_mem.mpr (List.map_subset d.quoted picks.known member)
  refine ⟨_, made, ?_⟩
  rw [narrowed, if_pos wraps]
  refine (QuerySpecification.wrapped_some_eq_ok (by simpa using picks.ne)).mpr ⟨_, made, ?_⟩
  rw [all]

variable (nodup : names.Nodup)

include nodup

/-- The labels of a select list are as different as the names it selects. -/
theorem nodup_labels : (query.items.map (·.label?)).Nodup := by
  rw [selects]
  exact (nodup.map Dialect.quoted_injective).map (Option.some_injective _)

/-- Without such clauses the entries with the labels of the columns are kept in place. -/
theorem narrowed_of_items (wraps : wrapsForSelection query = false) (distinct : outer.Nodup)
    {items : List SelectItem} (among : items ⊆ query.items)
    (labels : items.map (·.label?) = (outer.map d.quoted).map some) :
    narrowed d outer query = .ok (query.withItems items) := by
  have known : ∀ name ∈ outer, some (d.quoted name) ∈ query.items.map (·.label?) := by
    intro name member
    refine List.map_subset _ among ?_
    rw [labels]
    exact List.mem_map_of_mem (List.mem_map_of_mem member)
  obtain ⟨kept, taken⟩ := exists_takeColumns distinct known
  obtain ⟨keptLabels, keptAmong⟩ := takeColumns_eq_ok taken
  rw [← eq_of_labels (nodup_labels selects nodup) keptAmong among (keptLabels.trans labels.symm),
    narrowed, wraps]
  exact retain_eq_ok.mpr ⟨kept, taken, rfl⟩

/-- A query without such clauses is not changed if it is narrowed to all of its columns. -/
theorem narrowed_self (wraps : wrapsForSelection query = false) :
    narrowed d names query = .ok query := by
  rw [narrowed_of_items selects nodup wraps nodup (List.Subset.refl _) selects,
    QuerySpecification.withItems_items]

variable (first : Picks outer names) (second : Picks inner outer)

include first second

/-- Narrowing twice is narrowing once, and after the first time there are no such clauses. -/
theorem narrowed_narrowed (made : narrowed d outer query = .ok middle) :
    wrapsForSelection middle = false ∧ middle.Selects d outer ∧
      narrowed d inner middle = narrowed d inner query := by
  cases wraps : wrapsForSelection query with
  | true =>
    obtain ⟨sub, named, wrapped⟩ := narrowed_of_wraps selects wraps first
    obtain ⟨again, namedAgain, direct⟩ := narrowed_of_wraps selects wraps (first.trans second)
    obtain rfl : sub = again := Except.ok.inj (named.symm.trans namedAgain)
    obtain rfl := Except.ok.inj (wrapped.symm.trans made)
    have passed : (QuerySpecification.plain (sub.items (outer.map d.quoted))
        [sub.relation]).Selects d outer := sub.map_label?_items _
    refine ⟨rfl, passed, ?_⟩
    rw [direct]
    exact narrowed_of_items passed first.nodup rfl second.nodup
      (List.map_subset _ (List.map_subset _ second.known)) (sub.map_label?_items _)
  | false =>
    rw [narrowed, wraps] at made
    obtain ⟨kept, taken, rfl⟩ := retain_eq_ok.mp made
    obtain ⟨labels, keptAmong⟩ := takeColumns_eq_ok taken
    have passed : (query.withItems kept).Selects d outer := labels
    obtain ⟨rest, restTaken⟩ := exists_takeColumns second.nodup fun name member ↦
      passed.mem_labels (second.known member)
    obtain ⟨restLabels, restAmong⟩ := takeColumns_eq_ok restTaken
    refine ⟨wraps, passed, ?_⟩
    rw [narrowed_of_items passed first.nodup wraps second.nodup restAmong restLabels,
      narrowed_of_items selects nodup wraps second.nodup
        (List.Subset.trans restAmong keptAmong) restLabels]
    rfl

/-- Columns selected from a selection are selected from the query, or narrow it to them if the first
selection was a proper one. -/
theorem selected_selected :
    selected d outer query >>= selected d inner =
      if outer = names then selected d inner query else narrowed d inner query := by
  rw [selected_eq_narrowed selects]
  by_cases all : outer = names
  · rw [if_pos all, if_pos all]
    rfl
  · rw [if_neg all, if_neg all]
    obtain ⟨middle, made⟩ := succeeds_selected selects first.ne first.known first.nodup
    rw [selected_eq_narrowed selects, if_neg all] at made
    obtain ⟨wraps, passed, twice⟩ := narrowed_narrowed selects nodup first second made
    rw [made, Outcome.ok_bind, selected_eq_narrowed passed]
    by_cases same : inner = outer
    · rw [if_pos same, ← twice, same, narrowed_self passed first.nodup wraps]
    · rw [if_neg same, twice]

/-- The first of two selections leaves no trace unless the second one restores the order of the
columns of a query with such clauses. -/
theorem selected_selected_eq (other : ¬RestoresOrder query names outer inner) :
    selected d outer query >>= selected d inner = selected d inner query := by
  rw [selected_selected selects nodup first second]
  by_cases reordered : outer = names
  · rw [if_pos reordered]
  · rw [if_neg reordered, selected_eq_narrowed selects]
    by_cases all : inner = names
    · have perm : outer.Perm names := (List.perm_ext_iff_of_nodup first.nodup nodup).mpr fun _ ↦
        ⟨fun member ↦ first.known member, fun member ↦ second.known (all ▸ member)⟩
      have wraps : wrapsForSelection query = false :=
        Bool.eq_false_iff.mpr fun wraps ↦ other ⟨wraps, all, perm, reordered⟩
      rw [if_pos all, all, narrowed_self selects nodup wraps]
    · rw [if_neg all]

/-- Columns put back into their order are selected from the query as a sub-query. -/
theorem selected_selected_of_restoresOrder (restores : RestoresOrder query names outer inner) :
    selected d inner query = .ok query ∧ ∃ sub : SubQuery, sub.query = query ∧
      query.named d "root" = .ok sub ∧ sub.all ≠ query ∧
      selected d outer query >>= selected d inner = .ok sub.all := by
  obtain ⟨wraps, all, -, reordered⟩ := restores
  obtain ⟨sub, named, narrowed⟩ := narrowed_of_wraps selects wraps (first.trans second)
  have columns : inner.map d.quoted = sub.columns := by
    rw [selects.named_columns named, all]
  refine ⟨?_, sub, ?_, named, ?_, ?_⟩
  · rw [selected_eq_narrowed selects, if_pos all]
  · rw [(QuerySpecification.named_eq_ok.mp named).2]
  · intro same
    rw [← same] at wraps
    cases wraps
  · rw [selected_selected selects nodup first second, if_neg reordered, narrowed, columns]
    rfl

end

end QueryStep

/-! ### Frames -/

namespace Frame

open QueryStep (RestoresOrder)

variable {base first second : Frame} {outer inner : List String}

/-- A selection is accepted if it names some columns, each of them once. -/
theorem select_eq_ok {names : List String} {frame : Frame} :
    base.select names = .ok frame ↔
      Picks names base.columnNames ∧ frame = .selected base names := by
  rw [select, Outcome.bind_eq_ok]
  simp only [checkSelection_eq_ok, Outcome.pure_eq_ok, eq_comm (b := frame), exists_const]
  exact and_congr_left' ⟨fun ⟨ne, known, nodup⟩ ↦ ⟨ne, known, nodup⟩,
    fun ⟨ne, known, nodup⟩ ↦ ⟨ne, known, nodup⟩⟩

/-- Columns picked from picked columns are picked from the columns themselves. -/
theorem pick_pick {columns : List Column} (picked : Picks outer (Column.names columns))
    (among : inner ⊆ outer) : pick (pick columns outer) inner = pick columns inner := by
  have named := names_pick picked.known
  refine List.filterMap_congr fun name member ↦ ?_
  have there : name ∈ Column.names (pick columns outer) := named.symm ▸ among member
  obtain ⟨column, found, rfl⟩ := List.mem_map.mp there
  rw [Column.find?_name (named.symm ▸ picked.nodup) found]
  obtain ⟨label, -, first⟩ := List.mem_filterMap.mp found
  have same : column.name = label := by simpa using List.find?_some first
  rw [same, first]

/-- Columns selected from a selection can be selected from the frame itself. Both have the same
columns and, in every dialect, the same failure or the same query, but for one case: if the query of
the frame has clauses that keep a selection in a sub-query, the first selection puts all columns
into another order and the second one puts them back, then the selection from the frame has the
query of the frame, and the other one wraps that query as a sub-query. -/
theorem Reachable.select_select (reachable : Reachable base)
    (accepted : base.select outer = .ok first) (again : first.select inner = .ok second) :
    ∃ direct : Frame, base.select inner = .ok direct ∧ second.columns = direct.columns ∧
      ∀ d : Dialect,
        (∀ error, base.toSql d = .error error →
          second.toSql d = .error error ∧ direct.toSql d = .error error) ∧
        ∀ query, base.toSql d = .ok query →
          (¬RestoresOrder query base.columnNames outer inner →
            ∃ result, second.toSql d = .ok result ∧ direct.toSql d = .ok result) ∧
          (RestoresOrder query base.columnNames outer inner →
            direct.toSql d = .ok query ∧ ∃ sub : SubQuery, sub.query = query ∧
              query.named d "root" = .ok sub ∧ sub.all ≠ query ∧
              second.toSql d = .ok sub.all) := by
  obtain ⟨picks, rfl⟩ := select_eq_ok.mp accepted
  obtain ⟨picksAgain, rfl⟩ := select_eq_ok.mp again
  rw [columnNames_selected picks.known] at picksAgain
  have checked := reachable.checked
  have nodup := checked.columnNames_nodup
  have both := picks.trans picksAgain
  refine ⟨.selected base inner, select_eq_ok.mpr ⟨both, rfl⟩, pick_pick picks picksAgain.known,
    fun d ↦ ⟨fun error failed ↦ ?_, fun query made ↦ ?_⟩⟩
  · simp only [toSql, failed]
    exact ⟨rfl, rfl⟩
  · have selects := checked.selects made
    have twice : (selected (.selected base outer) inner).toSql d =
        QueryStep.selected d outer query >>= QueryStep.selected d inner := by
      simp only [toSql, made]
      rfl
    have direct : (selected base inner).toSql d = QueryStep.selected d inner query := by
      simp only [toSql, made]
      rfl
    rw [twice, direct]
    refine ⟨fun other ↦ ?_,
      QueryStep.selected_selected_of_restoresOrder selects nodup picks picksAgain⟩
    obtain ⟨result, selected⟩ :=
      QueryStep.succeeds_selected selects both.ne both.known both.nodup
    rw [QueryStep.selected_selected_eq selects nodup picks picksAgain other]
    exact ⟨result, selected, selected⟩

private def twoColumns : List Column :=
  [{ name := "a", type := .integer }, { name := "b", type := .string }]

/-- The distinct rows of a table with its two columns in reverse order: one of them is selected
without a trace of the first selection, both of them are selected from a sub-query. -/
theorem Reachable.select_select_of_distinct :
    ∃ base first one both : Frame, ∃ query : QuerySpecification, Reachable base ∧
      base.toSql {} = .ok query ∧ base.select ["b", "a"] = .ok first ∧
      first.select ["a"] = .ok one ∧ first.select ["a", "b"] = .ok both ∧
      (∃ direct, base.select ["a"] = .ok direct ∧ one.columns = direct.columns ∧
        ∃ result, one.toSql {} = .ok result ∧ direct.toSql {} = .ok result) ∧
      ∃ direct, base.select ["a", "b"] = .ok direct ∧ both.columns = direct.columns ∧
        direct.toSql {} = .ok query ∧
        ∃ sub : SubQuery, sub.query = query ∧ both.toSql {} = .ok sub.all := by
  have made : ofTable ["t"] twoColumns = .ok (.table ["t"] twoColumns) := rfl
  have reachable := (Reachable.table made).distinct
  have reversed : (Frame.table ["t"] twoColumns).distinctRows.select ["b", "a"] =
      .ok (.selected _ _) := rfl
  have one : (Frame.selected (.distinct (.table ["t"] twoColumns) none) ["b", "a"]).select ["a"] =
      .ok (.selected _ _) := rfl
  have both : (Frame.selected (.distinct (.table ["t"] twoColumns) none)
      ["b", "a"]).select ["a", "b"] = .ok (.selected _ _) := rfl
  obtain ⟨direct, selected, columns, queries⟩ := reachable.select_select reversed one
  obtain ⟨directBoth, selectedBoth, columnsBoth, queriesBoth⟩ :=
    reachable.select_select reversed both
  have apart := ((queries {}).2 _ rfl).1 fun h ↦ absurd h.all (by decide)
  obtain ⟨own, sub, inner, -, -, wrapped⟩ := ((queriesBoth {}).2 _ rfl).2
    ⟨rfl, rfl, by decide, by decide⟩
  exact ⟨_, _, _, _, _, reachable, rfl, reversed, one, both, ⟨direct, selected, columns, apart⟩,
    directBoth, selectedBoth, columnsBoth, own, sub, inner, wrapped⟩

end Frame

end FrameQuery
