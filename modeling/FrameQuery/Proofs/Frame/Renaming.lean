import FrameQuery.Frame.Pure
import FrameQuery.Proofs.Frame.Success

/-!
# Renaming at once and one after the other

A renaming gives several columns new names at once, and so does its query: every expression of the
select list stays, under the new name of its column. In PURE each pair is a step of its own, which
renames one column of the frame before it to a name that no other column has there. Old names are
distinct, new names are distinct, and a new name that is taken is an old name too. The steps then
lead to the columns of the renaming if no step takes a name that a later one gives up; otherwise the
first step that does cannot be performed.
-/

namespace FrameQuery

/-- A column renamed in PURE. -/
def PureText.renaming (pair : String × String) : Doc :=
  "->rename(~" ++ Doc.text (columnName pair.1) ++ ", ~" ++ columnName pair.2 ++ ")"

/-- No pair takes a name that a pair behind it gives up. -/
def TakesFreeNames (pairs : List (String × String)) : Prop :=
  pairs.Pairwise fun earlier later ↦ earlier.2 ≠ later.1

instance (pairs : List (String × String)) : Decidable (TakesFreeNames pairs) :=
  inferInstanceAs (Decidable (pairs.Pairwise _))

namespace Frame

/-- The columns after a column is renamed. It has to be there, and no other column may have its new
name. -/
def renameColumn? (columns : List Column) (pair : String × String) : Option (List Column) :=
  if pair.1 ∈ Column.names columns ∧ ∀ c ∈ columns, c.name = pair.2 → c.name = pair.1 then
    some (columns.map (relabelled [pair]))
  else none

/-- What is checked of pairs of old and new names before columns are renamed. -/
structure Renames (columns : List Column) (pairs : List (String × String)) : Prop where
  known : pairs.map (·.1) ⊆ Column.names columns
  old_nodup : (pairs.map (·.1)).Nodup
  new_nodup : (pairs.map (·.2)).Nodup
  fresh : ∀ name ∈ pairs.map (·.2), name ∈ Column.names columns → name ∈ pairs.map (·.1)

variable {columns : List Column} {pair : String × String} {pairs : List (String × String)}

/-- A column that is renamed alone. -/
theorem relabelled_singleton (pair : String × String) (column : Column) :
    relabelled [pair] column = if column.name = pair.1 then column.renamed pair.2 else column := by
  rw [relabelled, List.lookup_cons]
  by_cases same : column.name = pair.1
  · rw [if_pos same, beq_iff_eq.mpr same]
  · rw [if_neg same, beq_eq_false_iff_ne.mpr same]
    rfl

/-- A name is there after a column was renamed if it is the new name, or another name that was there
before. -/
theorem mem_names_relabelled (known : pair.1 ∈ Column.names columns) {name : String} :
    name ∈ Column.names (columns.map (relabelled [pair])) ↔
      name = pair.2 ∨ name ≠ pair.1 ∧ name ∈ Column.names columns := by
  simp only [Column.names, List.map_map, List.mem_map, Function.comp_apply] at known ⊢
  constructor
  · rintro ⟨c, member, rfl⟩
    rw [relabelled_singleton]
    by_cases same : c.name = pair.1
    · rw [if_pos same]
      exact .inl rfl
    · rw [if_neg same]
      exact .inr ⟨same, c, member, rfl⟩
  · rintro (rfl | ⟨other, c, member, rfl⟩)
    · obtain ⟨c, member, same⟩ := known
      exact ⟨c, member, by rw [relabelled_singleton, if_pos same]; rfl⟩
    · exact ⟨c, member, by rw [relabelled_singleton, if_neg other]⟩

/-- A pair whose new name no other pair gives up can be applied before the others. -/
theorem relabelled_cons (other : ∀ later ∈ pairs, pair.2 ≠ later.1) (column : Column) :
    relabelled (pair :: pairs) column = relabelled pairs (relabelled [pair] column) := by
  rw [relabelled_singleton]
  by_cases same : column.name = pair.1
  · rw [if_pos same, relabelled, List.lookup_cons, beq_iff_eq.mpr same, relabelled]
    have stays : pairs.lookup (column.renamed pair.2).name = none :=
      List.lookup_eq_none_iff.mpr fun later member ↦ bne_iff_ne.mpr (other later member)
    rw [stays]
  · rw [if_neg same, relabelled, List.lookup_cons, beq_eq_false_iff_ne.mpr same, relabelled]

namespace Renames

/-- The first name that is given up is not given up again. -/
theorem head_ne (h : Renames columns (pair :: pairs)) : ∀ later ∈ pairs, later.1 ≠ pair.1 := by
  intro later member same
  exact (List.nodup_cons.mp h.old_nodup).1 (List.mem_map.mpr ⟨later, member, same⟩)

/-- The first of the columns can be renamed if and only if none of the other pairs gives up its new
name. -/
theorem free_iff (h : Renames columns (pair :: pairs)) :
    (pair.1 ∈ Column.names columns ∧ ∀ c ∈ columns, c.name = pair.2 → c.name = pair.1) ↔
      ∀ later ∈ pairs, pair.2 ≠ later.1 := by
  constructor
  · rintro ⟨-, free⟩ later member same
    have taken : later.1 ∈ Column.names columns :=
      h.known (List.mem_cons_of_mem _ (List.mem_map_of_mem member))
    obtain ⟨c, hc, name⟩ := List.mem_map.mp taken
    exact h.head_ne later member (name.symm.trans (free c hc (name.trans same.symm)))
  · intro free
    refine ⟨h.known List.mem_cons_self, fun c hc name ↦ ?_⟩
    have given := h.fresh pair.2 List.mem_cons_self (name ▸ List.mem_map_of_mem hc)
    rcases List.mem_cons.mp given with own | other
    · exact name.trans own
    · obtain ⟨later, member, same⟩ := List.mem_map.mp other
      exact absurd same.symm (free later member)

/-- The other pairs are as they were checked after the first of the columns was renamed. -/
theorem tail (h : Renames columns (pair :: pairs)) :
    Renames (columns.map (relabelled [pair])) pairs where
  known := by
    intro name member
    obtain ⟨later, hl, rfl⟩ := List.mem_map.mp member
    rw [mem_names_relabelled (h.known List.mem_cons_self)]
    exact .inr ⟨h.head_ne later hl, h.known (List.mem_cons_of_mem _ member)⟩
  old_nodup := (List.nodup_cons.mp h.old_nodup).2
  new_nodup := (List.nodup_cons.mp h.new_nodup).2
  fresh := by
    intro name member taken
    rw [mem_names_relabelled (h.known List.mem_cons_self)] at taken
    rcases taken with rfl | ⟨other, taken⟩
    · exact absurd member (List.nodup_cons.mp h.new_nodup).1
    · exact List.mem_of_ne_of_mem other (h.fresh name (List.mem_cons_of_mem _ member) taken)

/-- Columns can be renamed one after the other if each takes a free name, and are then renamed as
they are at once. -/
theorem foldlM_eq (h : Renames columns pairs) :
    pairs.foldlM renameColumn? columns =
      if TakesFreeNames pairs then some (columns.map (relabelled pairs)) else none := by
  induction pairs generalizing columns with
  | nil =>
    have free : TakesFreeNames [] := List.Pairwise.nil
    rw [if_pos free]
    exact congrArg some (List.map_id columns).symm
  | cons pair pairs ih =>
    rw [List.foldlM_cons, renameColumn?]
    by_cases free : ∀ later ∈ pairs, pair.2 ≠ later.1
    · have step : TakesFreeNames (pair :: pairs) ↔ TakesFreeNames pairs :=
        List.pairwise_cons.trans (and_iff_right free)
      have atOnce : columns.map (relabelled (pair :: pairs)) =
          (columns.map (relabelled [pair])).map (relabelled pairs) := by
        rw [List.map_map]
        exact List.map_congr_left fun c _ ↦ relabelled_cons free c
      rw [if_pos (h.free_iff.mpr free), Option.bind_eq_bind, Option.bind_some, ih h.tail, atOnce]
      simp only [step]
    · have step : ¬TakesFreeNames (pair :: pairs) :=
        fun all ↦ free (List.pairwise_cons.mp all).1
      rw [if_neg (h.free_iff.not.mpr free), if_neg step]
      rfl

end Renames

/-- A renaming is accepted exactly if its pairs pass the checks, and then it is kept as it was asked
for. -/
theorem rename_eq_ok_iff {base frame : Frame} :
    base.rename pairs = .ok frame ↔ Renames base.columns pairs ∧ frame = .renamed base pairs := by
  constructor
  · intro accepted
    obtain ⟨_, known, rest⟩ := Outcome.bind_eq_ok.mp accepted
    obtain ⟨_, old, rest⟩ := Outcome.bind_eq_ok.mp rest
    obtain ⟨_, new, rest⟩ := Outcome.bind_eq_ok.mp rest
    rw [Outcome.require_eq_ok, Bool.not_eq_true', hasDuplicates_eq_false] at old new
    split at rest
    · exact absurd rest Outcome.fail_ne_ok
    · next free =>
      refine ⟨⟨checkColumns_eq_ok.mp known, old, new, fun name given taken ↦ ?_⟩,
        (Outcome.pure_eq_ok.mp rest).symm⟩
      have found := List.find?_eq_none.mp free name given
      simpa [columnNames, taken] using found
  · rintro ⟨⟨known, old, new, fresh⟩, rfl⟩
    have free : (pairs.map (·.2)).find? (fun name ↦
        base.columnNames.contains name && !(pairs.map (·.1)).contains name) = none := by
      refine List.find?_eq_none.mpr fun name given ↦ ?_
      have taken := fresh name given
      simpa [columnNames] using taken
    rw [rename]
    refine Outcome.bind_eq_ok.mpr ⟨(), checkColumns_eq_ok.mpr known, ?_⟩
    simp only [hasDuplicates_eq_false.mpr old, hasDuplicates_eq_false.mpr new, free]
    rfl

/-- A renaming that is accepted renames columns of the frame at once. -/
theorem rename_eq_ok {base frame : Frame} (accepted : base.rename pairs = .ok frame) :
    frame = .renamed base pairs := (rename_eq_ok_iff.mp accepted).2

end Frame

/-! ### Queries -/

namespace QueryStep

open Sql (Dialect QuerySpecification SelectItem)

variable {d : Dialect} {query : QuerySpecification} {names : List String}

/-- A query selects some expressions under its names. -/
theorem exists_items (h : query.Selects d names) : ∃ expressions : List Sql.Expression,
    expressions.length = names.length ∧ query.items = List.zipWith (item d) names expressions := by
  rw [QuerySpecification.Selects] at h
  generalize query.items = items at h
  induction names generalizing items with
  | nil => exact ⟨[], rfl, List.map_eq_nil_iff.mp h⟩
  | cons name names ih =>
    cases items with
    | nil => cases h
    | cons first items =>
      obtain ⟨label, others⟩ := List.cons.inj h
      obtain ⟨expression, rfl⟩ := SelectItem.eq_column_of_label? label
      obtain ⟨expressions, length, rfl⟩ := ih items others
      exact ⟨expression :: expressions, congrArg (· + 1) length, rfl⟩

/-- A renaming leaves the expressions as they are and selects them under the new names. -/
theorem renamedItems_zipWith (pairs : List (String × String)) (names : List String)
    (expressions : List Sql.Expression) :
    renamedItems (quotedPairs d pairs) (List.zipWith (item d) names expressions) =
      .ok (List.zipWith (item d) (names.map (substituted pairs)) expressions) := by
  induction names generalizing expressions with
  | nil => rfl
  | cons name names ih =>
    cases expressions with
    | nil => rfl
    | cons expression expressions =>
      have first : renamedItem (quotedPairs d pairs) (item d name expression) =
          .ok (item d (substituted pairs name) expression) := by
        rw [item, item, ← substituted_quoted]
        rfl
      rw [List.map_cons, List.zipWith_cons_cons, List.zipWith_cons_cons, renamedItems, first, ih]
      rfl

end QueryStep

/-! ### Frames -/

namespace Frame

open QueryStep (item)

variable {base frame : Frame} {pairs : List (String × String)}

/-- A renaming that is accepted is written in PURE as a step for each of its pairs. Performed one
after the other on the columns of the frame, the steps lead to the columns of the renaming if no
step takes a name that a later one gives up; otherwise one of them cannot be performed. The query
selects the same expressions under the new names of all columns. -/
theorem Reachable.rename_steps (reachable : Reachable base)
    (accepted : base.rename pairs = .ok frame) :
    (∀ depth, frame.toPure depth =
        PureText.steps depth (base.toPure depth) (pairs.map PureText.renaming)) ∧
      pairs.foldlM renameColumn? base.columns =
        (if TakesFreeNames pairs then some frame.columns else none) ∧
      frame.columns = base.columns.map (relabelled pairs) ∧
      ∀ (d : Sql.Dialect) (query : Sql.QuerySpecification), base.toSql d = .ok query →
        ∃ expressions, expressions.length = base.columnNames.length ∧
          query.items = List.zipWith (item d) base.columnNames expressions ∧
          frame.toSql d =
            .ok (query.withItems (List.zipWith (item d) frame.columnNames expressions)) := by
  have checked := checked_rename reachable.checked accepted
  obtain rfl := rename_eq_ok accepted
  obtain ⟨known, old_nodup, new_nodup, fresh⟩ : Renames base.columns pairs := by
    cases checked with
    | renamed _ known old_nodup new_nodup fresh => exact ⟨known, old_nodup, new_nodup, fresh⟩
  refine ⟨fun _ ↦ rfl, Renames.foldlM_eq ⟨known, old_nodup, new_nodup, fresh⟩, rfl,
    fun d query made ↦ ?_⟩
  obtain ⟨expressions, length, items⟩ := QueryStep.exists_items (reachable.checked.selects made)
  refine ⟨expressions, length, items, ?_⟩
  rw [toSql, made, columnNames_renamed]
  refine Outcome.bind_eq_ok.mpr ⟨query, rfl, Outcome.bind_eq_ok.mpr ⟨_, ?_, rfl⟩⟩
  rw [items]
  exact QueryStep.renamedItems_zipWith pairs base.columnNames expressions

private def pairColumns : List Column :=
  [{ name := "a", type := .integer }, { name := "b", type := .string }]

/-- The first column is renamed before the second one gets its name. -/
theorem Reachable.rename_steps_of_chain : ∃ base frame : Frame, ∃ query : Sql.QuerySpecification,
    Reachable base ∧ base.rename [("a", "x"), ("b", "a")] = .ok frame ∧
      frame.columns = [{ name := "x", type := .integer }, { name := "a", type := .string }] ∧
      [("a", "x"), ("b", "a")].foldlM renameColumn? base.columns = some frame.columns ∧
      base.toSql {} = .ok query ∧ ∃ expressions,
        query.items = List.zipWith (item {}) base.columnNames expressions ∧
        frame.toSql {} =
          .ok (query.withItems (List.zipWith (item {}) frame.columnNames expressions)) := by
  have made : ofTable ["t"] pairColumns = .ok (.table ["t"] pairColumns) := rfl
  have accepted : Frame.rename (.table ["t"] pairColumns) [("a", "x"), ("b", "a")] =
      .ok (.renamed _ _) := rfl
  have reachable := Reachable.table made
  obtain ⟨-, steps, -, queries⟩ := reachable.rename_steps accepted
  obtain ⟨expressions, -, items, emitted⟩ := queries {} _ rfl
  exact ⟨_, _, _, reachable, accepted, rfl, steps, rfl, expressions, items, emitted⟩

/-- A column cannot be given a name in PURE that another column has and gives up afterwards, while
the renaming and its query give the names at once. -/
theorem Reachable.exists_rename_steps_stuck : ∃ base frame : Frame,
    Reachable base ∧ base.rename [("b", "a"), ("a", "x")] = .ok frame ∧
      frame.columnNames = ["x", "a"] ∧
      frame.pureText .compact = "#Table(t)#->rename(~b, ~a)->rename(~a, ~x)" ∧
      renameColumn? base.columns ("b", "a") = none ∧
      [("b", "a"), ("a", "x")].foldlM renameColumn? base.columns = none := by
  have made : ofTable ["t"] pairColumns = .ok (.table ["t"] pairColumns) := rfl
  have accepted : Frame.rename (.table ["t"] pairColumns) [("b", "a"), ("a", "x")] =
      .ok (.renamed _ _) := rfl
  exact ⟨_, _, .table made, accepted, rfl, by decide, by decide, by decide⟩

end Frame
end FrameQuery
