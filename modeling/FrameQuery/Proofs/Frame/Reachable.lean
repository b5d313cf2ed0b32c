import FrameQuery.Frame.Transformation
import FrameQuery.Proofs.Outcome
import Mathlib.Data.List.Forall2
import Mathlib.Data.List.Nodup

/-!
# The frames a program can build

`Reachable` is every frame that tables and successful transformations make, in any order and with
any closures. What the checks of a transformation leave true is collected in `Checked`, one case for
each kind of frame, so that properties of reachable frames are proved along the frame itself. Of
every reachable frame the column names are a list without duplicates that is not empty.
-/

namespace FrameQuery

namespace Frame

/-- The frames that tables and successful transformations make. -/
inductive Reachable : Frame → Prop
  | table {parts : List String} {columns : List Column} {frame : Frame} :
    ofTable parts columns = .ok frame → Reachable frame
  | filter {base frame : Frame} {condition : Row → Outcome TypedExpr} :
    Reachable base → base.filter condition = .ok frame → Reachable frame
  | select {base frame : Frame} {names : List String} :
    Reachable base → base.select names = .ok frame → Reachable frame
  | distinct {base : Frame} : Reachable base → Reachable base.distinctRows
  | distinctBy {base frame : Frame} {names : List String} :
    Reachable base → base.distinctBy names = .ok frame → Reachable frame
  | extend {base frame : Frame} {new : List NewColumn} :
    Reachable base → base.extend new = .ok frame → Reachable frame
  | windowExtend {base frame : Frame} {window : WindowSpec} {new : List WindowColumn} :
    Reachable base → base.windowExtend window new = .ok frame → Reachable frame
  | project {base frame : Frame} {new : List NewColumn} :
    Reachable base → base.project new = .ok frame → Reachable frame
  | rename {base frame : Frame} {pairs : List (String × String)} :
    Reachable base → base.rename pairs = .ok frame → Reachable frame
  | groupBy {base frame : Frame} {grouping : List String} {aggregates : List NewColumn} :
    Reachable base → base.groupBy grouping aggregates = .ok frame → Reachable frame
  | sort {base frame : Frame} {keys : List SortKey} :
    Reachable base → base.sort keys = .ok frame → Reachable frame
  | slice {base frame : Frame} {start stop : Int64} :
    Reachable base → base.slice start stop = .ok frame → Reachable frame
  | limit {base frame : Frame} {count : Int64} :
    Reachable base → base.limit count = .ok frame → Reachable frame
  | drop {base frame : Frame} {count : Int64} :
    Reachable base → base.drop count = .ok frame → Reachable frame
  | join {base other frame : Frame} {condition : Row → Row → Outcome TypedExpr} {kind : JoinKind} :
    Reachable base → Reachable other → base.join other condition kind = .ok frame →
      Reachable frame
  | asOfJoin {base other frame : Frame} {matching : Row → Row → Outcome TypedExpr}
      {condition : Option (Row → Row → Outcome TypedExpr)} :
    Reachable base → Reachable other → base.asOfJoin other matching condition = .ok frame →
      Reachable frame
  | concatenate {base other frame : Frame} :
    Reachable base → Reachable other → base.concatenate other = .ok frame → Reachable frame
  | served {frame : Frame} (service : ServiceId) :
    Reachable frame → Reachable (frame.withService service)

/-- What the checks of the transformations leave true of a frame and of all frames it was made
of. -/
inductive Checked : Frame → Prop
  | table {parts : List String} {columns : List Column} (parts_ne : parts ≠ [])
      (columns_ne : columns ≠ []) (nodup : (Column.names columns).Nodup) :
    Checked (table parts columns)
  | filtered {base : Frame} {condition : TypedExpr} (checked : Checked base)
      (boolean : condition.type = .boolean) : Checked (filtered base condition)
  | selected {base : Frame} {names : List String} (checked : Checked base) (ne : names ≠ [])
      (known : names ⊆ base.columnNames) (nodup : names.Nodup) : Checked (selected base names)
  | distinct {base : Frame} (checked : Checked base) : Checked (distinct base none)
  | distinctBy {base : Frame} {names : List String} (checked : Checked base) (ne : names ≠ [])
      (known : names ⊆ base.columnNames) (nodup : names.Nodup) :
    Checked (distinct base (some names))
  | extended {base : Frame} {new : List ComputedColumn} (checked : Checked base)
      (nodup : (new.map (·.name)).Nodup) (fresh : ∀ c ∈ new, c.name ∉ base.columnNames) :
    Checked (extended base new)
  | windowExtended {base : Frame} {window : WindowSpec} {new : List ComputedColumn}
      (checked : Checked base) (nodup : (new.map (·.name)).Nodup)
      (fresh : ∀ c ∈ new, c.name ∉ base.columnNames) (known : window.columns ⊆ base.columnNames) :
    Checked (windowExtended base window new)
  | projected {base : Frame} {new : List ComputedColumn} (checked : Checked base) (ne : new ≠ [])
      (nodup : (new.map (·.name)).Nodup) (plain : ∀ c ∈ new, c.aggregate = none) :
    Checked (projected base new)
  | renamed {base : Frame} {pairs : List (String × String)} (checked : Checked base)
      (known : pairs.map (·.1) ⊆ base.columnNames) (old_nodup : (pairs.map (·.1)).Nodup)
      (new_nodup : (pairs.map (·.2)).Nodup)
      (fresh : ∀ name ∈ pairs.map (·.2), name ∈ base.columnNames → name ∈ pairs.map (·.1)) :
    Checked (renamed base pairs)
  | grouped {base : Frame} {grouping : List String} {aggregates : List ComputedColumn}
      (checked : Checked base) (known : grouping ⊆ base.columnNames)
      (ne : grouping ++ aggregates.map (·.name) ≠ [])
      (nodup : (grouping ++ aggregates.map (·.name)).Nodup)
      (aggregated : ∀ c ∈ aggregates, c.aggregate.isSome = true) :
    Checked (grouped base grouping aggregates)
  | sorted {base : Frame} {keys : List SortKey} (checked : Checked base) (ne : keys ≠ [])
      (known : keys.map (·.column) ⊆ base.columnNames) : Checked (sorted base keys)
  | sliced {base : Frame} {start stop : Int64} (checked : Checked base) (start_nonneg : 0 ≤ start)
      (start_lt : start < stop) : Checked (sliced base start stop)
  | limited {base : Frame} {count : Int64} (checked : Checked base) (nonneg : 0 ≤ count) :
    Checked (limited base count)
  | dropped {base : Frame} {count : Int64} (checked : Checked base) (nonneg : 0 ≤ count) :
    Checked (dropped base count)
  | joined {base other : Frame} {condition : TypedExpr} {kind : JoinKind} (left : Checked base)
      (right : Checked other) (boolean : condition.type = .boolean)
      (disjoint : base.columnNames.Disjoint other.columnNames) :
    Checked (joined base other condition kind)
  | asOfJoined {base other : Frame} {matching : TypedExpr} {condition : Option TypedExpr}
      (left : Checked base) (right : Checked other)
      (disjoint : base.columnNames.Disjoint other.columnNames) :
    Checked (asOfJoined base other matching condition)
  | concatenated {base other : Frame} (left : Checked base) (right : Checked other)
      (agree : base.columns.map (fun c ↦ (c.name, c.type)) =
        other.columns.map fun c ↦ (c.name, c.type)) : Checked (concatenated base other)
  | served {frame : Frame} {service : ServiceId} (checked : Checked frame) :
    Checked (served frame service)

end Frame

/-- The check for repeated names finds no repetition exactly when there is none. -/
theorem hasDuplicates_eq_false {names : List String} :
    hasDuplicates names = false ↔ names.Nodup := by
  induction names with
  | nil => simp [hasDuplicates]
  | cons name rest ih =>
    rw [hasDuplicates, Bool.or_eq_false_iff, ih, List.nodup_cons]
    simp

/-- Evaluating a column keeps its name and whether it is an aggregate. -/
theorem NewColumn.evaluate_eq_ok {new : NewColumn} {row : Row} {function : String}
    {computed : ComputedColumn} (h : new.evaluate row function = .ok computed) :
    computed.name = new.name ∧ computed.aggregate.isSome = new.aggregate.isSome := by
  obtain ⟨map, -, h⟩ := Outcome.bind_eq_ok.mp h
  obtain ⟨aggregate, ha, h⟩ := Outcome.bind_eq_ok.mp h
  rw [← Outcome.pure_eq_ok.mp h]
  refine ⟨rfl, ?_⟩
  cases hn : new.aggregate with
  | none =>
    rw [hn] at ha
    rw [← Except.ok.inj ha]
    rfl
  | some closure =>
    rw [hn] at ha
    obtain ⟨value, -, hv⟩ := Outcome.map_eq_ok.mp ha
    rw [← hv]
    rfl

/-- Evaluating columns keeps their names and which of them are aggregates. -/
theorem NewColumn.evaluateAll_eq_ok {row : Row} {function : String} {new : List NewColumn}
    {computed : List ComputedColumn} (h : NewColumn.evaluateAll row function new = .ok computed) :
    List.Forall₂ (fun n c ↦ c.name = n.name ∧ c.aggregate.isSome = n.aggregate.isSome)
      new computed := by
  induction new generalizing computed with
  | nil =>
    rw [← Except.ok.inj h]
    exact .nil
  | cons n rest ih =>
    obtain ⟨c, hc, h⟩ := Outcome.bind_eq_ok.mp h
    obtain ⟨tail, ht, h⟩ := Outcome.bind_eq_ok.mp h
    rw [← Outcome.pure_eq_ok.mp h]
    exact .cons (NewColumn.evaluate_eq_ok hc) (ih ht)

/-- Evaluating window columns keeps their names. -/
theorem WindowColumn.evaluateAll_eq_ok {row : Row} {new : List WindowColumn}
    {computed : List ComputedColumn} (h : WindowColumn.evaluateAll row new = .ok computed) :
    computed.map (·.name) = new.map (·.name) := by
  induction new generalizing computed with
  | nil =>
    rw [← Except.ok.inj h]
    rfl
  | cons n rest ih =>
    obtain ⟨c, hc, h⟩ := Outcome.bind_eq_ok.mp h
    obtain ⟨tail, ht, h⟩ := Outcome.bind_eq_ok.mp h
    rw [← Outcome.pure_eq_ok.mp h, List.map_cons, List.map_cons, ih ht]
    obtain ⟨map, -, hc⟩ := Outcome.bind_eq_ok.mp hc
    obtain ⟨aggregate, -, hc⟩ := Outcome.bind_eq_ok.mp hc
    rw [← Outcome.pure_eq_ok.mp hc]

namespace Frame

variable {frame base other : Frame} {names : List String} {context : String}

/-- Names pass the check for columns exactly when all of them are names of columns. -/
theorem checkColumns_eq_ok {u : Unit} :
    frame.checkColumns context names = .ok u ↔ names ⊆ frame.columnNames := by
  unfold checkColumns
  split
  · next name hf =>
    have hm := List.mem_of_find?_eq_some hf
    have hn := List.find?_some hf
    simp only [Bool.not_eq_true', List.contains_eq_mem, decide_eq_false_iff_not] at hn
    simp only [Outcome.fail_ne_ok, false_iff]
    exact fun hs ↦ hn (hs hm)
  · next hf =>
    simp only [true_iff]
    intro name hm
    have hn := List.find?_eq_none.mp hf name hm
    simpa using hn

/-- New names pass their check exactly when they are distinct and none is the name of a column. -/
theorem checkNewNames_eq_ok {u : Unit} :
    frame.checkNewNames names = .ok u ↔
      names.Nodup ∧ ∀ name ∈ names, name ∉ frame.columnNames := by
  unfold checkNewNames
  rw [Outcome.bind_eq_ok]
  simp only [Outcome.require_eq_ok, Bool.not_eq_true', hasDuplicates_eq_false, exists_and_left,
    exists_const]
  refine and_congr_right fun _ ↦ ?_
  split
  · next name hf =>
    have hm := List.mem_of_find?_eq_some hf
    have hn := List.find?_some hf
    simp only [Outcome.fail_ne_ok, false_iff]
    exact fun hs ↦ hs name hm (by simpa using hn)
  · next hf =>
    simp only [Outcome.pure_eq_ok, true_iff]
    intro name hm
    simpa using List.find?_eq_none.mp hf name hm

/-- A selection passes its checks exactly when it names some columns, each once. -/
theorem checkSelection_eq_ok {u : Unit} :
    frame.checkSelection names context = .ok u ↔
      names ≠ [] ∧ names ⊆ frame.columnNames ∧ names.Nodup := by
  unfold checkSelection
  simp only [Outcome.bind_eq_ok, Outcome.require_eq_ok, checkColumns_eq_ok, Bool.not_eq_true',
    hasDuplicates_eq_false, List.isEmpty_eq_false_iff, exists_and_left, exists_const]

/-- A condition passes its check exactly when it is a truth value. -/
theorem checkCondition_eq_ok {value : TypedExpr} {function : String} {u : Unit} :
    checkCondition value function = .ok u ↔ value.type = .boolean := by
  unfold checkCondition
  rw [Outcome.require_eq_ok, beq_iff_eq]

/-- Two frames pass the check for common names exactly when they have none. -/
theorem checkDisjoint_eq_ok {u : Unit} :
    frame.checkDisjoint other = .ok u ↔ frame.columnNames.Disjoint other.columnNames := by
  unfold checkDisjoint
  rw [Outcome.require_eq_ok]
  simp [List.Disjoint]

/-- The names that pick columns are the names of the columns picked. -/
theorem names_pick {columns : List Column} (known : names ⊆ Column.names columns) :
    Column.names (pick columns names) = names := by
  induction names with
  | nil => rfl
  | cons name rest ih =>
    obtain ⟨hn, hr⟩ := List.cons_subset.mp known
    have hs : (Column.find? columns name).isSome = true := by
      obtain ⟨column, hc, rfl⟩ := List.mem_map.mp hn
      exact List.find?_isSome.mpr ⟨column, hc, by simp⟩
    obtain ⟨column, hc⟩ := Option.isSome_iff_exists.mp hs
    have he : column.name = name := by simpa using List.find?_some hc
    unfold pick
    rw [List.filterMap_cons_some hc, Column.names, List.map_cons, he]
    exact congrArg (name :: ·) (ih hr)

/-- Frames with the same number of columns that differ nowhere have columns of the same names and
types. -/
theorem firstMismatch_eq_none {index : Nat} {lefts rights : List Column}
    (length : lefts.length = rights.length) (h : firstMismatch index lefts rights = none) :
    lefts.map (fun c ↦ (c.name, c.type)) = rights.map fun c ↦ (c.name, c.type) := by
  induction lefts generalizing index rights with
  | nil =>
    cases rights with
    | nil => rfl
    | cons right rights => simp at length
  | cons left lefts ih =>
    cases rights with
    | nil => simp at length
    | cons right rights =>
      rw [firstMismatch] at h
      split at h
      · next he =>
        rw [List.map_cons, List.map_cons, he.1, he.2, ih (by simpa using length) h]
      · exact absurd h (by simp)

/-! ### What each transformation makes -/

/-- Computed columns have the names of the columns that they are computed for. -/
theorem computed_names {new : List NewColumn} {computed : List ComputedColumn}
    (h : List.Forall₂ (fun n c ↦ c.name = n.name ∧ c.aggregate.isSome = n.aggregate.isSome)
      new computed) : computed.map (·.name) = new.map (·.name) := by
  induction h with
  | nil => rfl
  | cons hc _ ih => rw [List.map_cons, List.map_cons, hc.1, ih]

/-- A computed column is an aggregate if the column is that it is computed for. -/
theorem computed_aggregates {new : List NewColumn} {computed : List ComputedColumn}
    (h : List.Forall₂ (fun n c ↦ c.name = n.name ∧ c.aggregate.isSome = n.aggregate.isSome)
      new computed) {c : ComputedColumn} (hc : c ∈ computed) :
    ∃ n ∈ new, c.aggregate.isSome = n.aggregate.isSome := by
  induction h with
  | nil => cases hc
  | cons hn _ ih =>
    rcases List.mem_cons.mp hc with rfl | hc
    · exact ⟨_, List.mem_cons_self, hn.2⟩
    · obtain ⟨n, hm, he⟩ := ih hc
      exact ⟨n, List.mem_cons_of_mem _ hm, he⟩

/-- A table has parts, columns and no repeated name. -/
theorem checked_ofTable {parts : List String} {columns : List Column}
    (h : Frame.ofTable parts columns = .ok frame) : Checked frame := by
  unfold Frame.ofTable at h
  simp only [Outcome.bind_eq_ok, Outcome.require_eq_ok, Outcome.pure_eq_ok, exists_and_left,
    exists_const, Bool.not_eq_true', hasDuplicates_eq_false, List.isEmpty_eq_false_iff,
    Bool.or_eq_false_iff] at h
  obtain ⟨⟨parts_ne, -⟩, columns_ne, nodup, rfl⟩ := h
  exact .table parts_ne columns_ne nodup

/-- A filter keeps the checks and adds a condition. -/
theorem checked_filter {condition : Row → Outcome TypedExpr} (checked : Checked base)
    (h : base.filter condition = .ok frame) : Checked frame := by
  obtain ⟨value, -, h⟩ := Outcome.bind_eq_ok.mp h
  obtain ⟨u, hv, h⟩ := Outcome.bind_eq_ok.mp h
  rw [← Outcome.pure_eq_ok.mp h]
  exact .filtered checked (checkCondition_eq_ok.mp hv)

/-- A selection names some columns of its base, each once. -/
theorem checked_select (checked : Checked base) (h : base.select names = .ok frame) :
    Checked frame := by
  obtain ⟨u, hs, h⟩ := Outcome.bind_eq_ok.mp h
  rw [← Outcome.pure_eq_ok.mp h]
  obtain ⟨ne, known, nodup⟩ := checkSelection_eq_ok.mp hs
  exact .selected checked ne known nodup

/-- Distinct rows are restricted to some columns of their base, each named once. -/
theorem checked_distinctBy (checked : Checked base) (h : base.distinctBy names = .ok frame) :
    Checked frame := by
  obtain ⟨u, hs, h⟩ := Outcome.bind_eq_ok.mp h
  rw [← Outcome.pure_eq_ok.mp h]
  obtain ⟨ne, known, nodup⟩ := checkSelection_eq_ok.mp hs
  exact .distinctBy checked ne known nodup

/-- An extension adds columns with names of their own. -/
theorem checked_extend {new : List NewColumn} (checked : Checked base)
    (h : base.extend new = .ok frame) : Checked frame := by
  obtain ⟨u, hn, h⟩ := Outcome.bind_eq_ok.mp h
  obtain ⟨computed, hc, h⟩ := Outcome.bind_eq_ok.mp h
  rw [← Outcome.pure_eq_ok.mp h]
  obtain ⟨nodup, fresh⟩ := checkNewNames_eq_ok.mp hn
  rw [← computed_names (NewColumn.evaluateAll_eq_ok hc)] at nodup fresh
  exact .extended checked nodup fun c hm ↦ fresh c.name (List.mem_map_of_mem hm)

/-- A window extension adds columns with names of their own over a window of known columns. -/
theorem checked_windowExtend {window : WindowSpec} {new : List WindowColumn}
    (checked : Checked base) (h : base.windowExtend window new = .ok frame) : Checked frame := by
  obtain ⟨u, hn, h⟩ := Outcome.bind_eq_ok.mp h
  obtain ⟨u, hw, h⟩ := Outcome.bind_eq_ok.mp h
  obtain ⟨computed, hc, h⟩ := Outcome.bind_eq_ok.mp h
  rw [← Outcome.pure_eq_ok.mp h]
  obtain ⟨nodup, fresh⟩ := checkNewNames_eq_ok.mp hn
  rw [← WindowColumn.evaluateAll_eq_ok hc] at nodup fresh
  exact .windowExtended checked nodup (fun c hm ↦ fresh c.name (List.mem_map_of_mem hm))
    (checkColumns_eq_ok.mp hw)

/-- A projection has some columns with distinct names, none of them an aggregate. -/
theorem checked_project {new : List NewColumn} (checked : Checked base)
    (h : base.project new = .ok frame) : Checked frame := by
  obtain ⟨u, hne, h⟩ := Outcome.bind_eq_ok.mp h
  obtain ⟨u, hd, h⟩ := Outcome.bind_eq_ok.mp h
  rw [Outcome.require_eq_ok, Bool.not_eq_true'] at hne hd
  cases hf : new.find? (·.aggregate.isSome) with
  | some column => simp [hf, fail, bind, Except.bind] at h
  | none =>
    rw [hf] at h
    obtain ⟨computed, hc, h⟩ := Outcome.bind_eq_ok.mp h
    rw [← Outcome.pure_eq_ok.mp h]
    have hall := NewColumn.evaluateAll_eq_ok hc
    refine .projected checked ?_ ?_ ?_
    · intro he
      rw [he] at hall
      rw [List.forall₂_nil_right_iff.mp hall] at hne
      simp at hne
    · rw [computed_names hall]
      exact hasDuplicates_eq_false.mp hd
    · intro c hm
      obtain ⟨n, hn, he⟩ := computed_aggregates hall hm
      have ha := List.find?_eq_none.mp hf n hn
      rw [← he] at ha
      simpa using ha

/-- A renaming takes known columns, each once, to distinct names that no other column has. -/
theorem checked_rename {pairs : List (String × String)} (checked : Checked base)
    (h : base.rename pairs = .ok frame) : Checked frame := by
  obtain ⟨u, hk, h⟩ := Outcome.bind_eq_ok.mp h
  obtain ⟨u, ho, h⟩ := Outcome.bind_eq_ok.mp h
  obtain ⟨u, hn, h⟩ := Outcome.bind_eq_ok.mp h
  rw [Outcome.require_eq_ok, Bool.not_eq_true', hasDuplicates_eq_false] at ho hn
  split at h
  · exact absurd h Outcome.fail_ne_ok
  · next hf =>
    rw [← Outcome.pure_eq_ok.mp h]
    refine .renamed checked (checkColumns_eq_ok.mp hk) ho hn ?_
    intro name hm hb
    have hc := List.find?_eq_none.mp hf name hm
    simp only [List.contains_eq_mem, hb, decide_true, Bool.true_and, Bool.not_eq_true',
      decide_eq_false_iff_not, not_not] at hc
    exact hc

/-- A grouping has keys and aggregates with distinct names, and at least one of them. -/
theorem checked_groupBy {grouping : List String} {aggregates : List NewColumn}
    (checked : Checked base) (h : base.groupBy grouping aggregates = .ok frame) :
    Checked frame := by
  obtain ⟨u, hk, h⟩ := Outcome.bind_eq_ok.mp h
  obtain ⟨u, hne, h⟩ := Outcome.bind_eq_ok.mp h
  obtain ⟨u, hd, h⟩ := Outcome.bind_eq_ok.mp h
  rw [Outcome.require_eq_ok, Bool.not_eq_true'] at hne hd
  cases hf : aggregates.find? (·.aggregate.isNone) with
  | some column => simp [hf, fail, bind, Except.bind] at h
  | none =>
    rw [hf] at h
    obtain ⟨computed, hc, h⟩ := Outcome.bind_eq_ok.mp h
    rw [← Outcome.pure_eq_ok.mp h]
    have hall := NewColumn.evaluateAll_eq_ok hc
    rw [List.isEmpty_eq_false_iff, ← computed_names hall] at hne
    rw [hasDuplicates_eq_false, ← computed_names hall] at hd
    refine .grouped checked (checkColumns_eq_ok.mp hk) hne hd ?_
    intro c hm
    obtain ⟨n, hn, he⟩ := computed_aggregates hall hm
    have ha := List.find?_eq_none.mp hf n hn
    rw [he]
    simpa [Option.isSome_iff_ne_none] using ha

/-- A sorting has some keys, all of them known columns. -/
theorem checked_sort {keys : List SortKey} (checked : Checked base)
    (h : base.sort keys = .ok frame) : Checked frame := by
  obtain ⟨u, hne, h⟩ := Outcome.bind_eq_ok.mp h
  obtain ⟨u, hk, h⟩ := Outcome.bind_eq_ok.mp h
  rw [← Outcome.pure_eq_ok.mp h]
  rw [Outcome.require_eq_ok, Bool.not_eq_true', List.isEmpty_eq_false_iff] at hne
  exact .sorted checked hne (checkColumns_eq_ok.mp hk)

/-- A slice starts at a position and ends behind it. -/
theorem checked_slice {start stop : Int64} (checked : Checked base)
    (h : base.slice start stop = .ok frame) : Checked frame := by
  obtain ⟨u, hs, h⟩ := Outcome.bind_eq_ok.mp h
  obtain ⟨u, hl, h⟩ := Outcome.bind_eq_ok.mp h
  rw [← Outcome.pure_eq_ok.mp h]
  rw [Outcome.require_eq_ok, decide_eq_true_eq] at hs hl
  exact .sliced checked hs hl

/-- A limit counts rows. -/
theorem checked_limit {count : Int64} (checked : Checked base)
    (h : base.limit count = .ok frame) : Checked frame := by
  obtain ⟨u, hc, h⟩ := Outcome.bind_eq_ok.mp h
  rw [← Outcome.pure_eq_ok.mp h]
  rw [Outcome.require_eq_ok, decide_eq_true_eq] at hc
  exact .limited checked hc

/-- The number of dropped rows counts rows. -/
theorem checked_drop {count : Int64} (checked : Checked base)
    (h : base.drop count = .ok frame) : Checked frame := by
  obtain ⟨u, hc, h⟩ := Outcome.bind_eq_ok.mp h
  rw [← Outcome.pure_eq_ok.mp h]
  rw [Outcome.require_eq_ok, decide_eq_true_eq] at hc
  exact .dropped checked hc

private theorem condition_eq_ok {what title : String} {closure : Row → Row → Outcome TypedExpr}
    {value : TypedExpr} (h : base.condition other what title closure = .ok value) :
    value.type = .boolean := by
  obtain ⟨result, -, h⟩ := Outcome.bind_eq_ok.mp h
  obtain ⟨u, hc, h⟩ := Outcome.bind_eq_ok.mp h
  rw [← Outcome.pure_eq_ok.mp h]
  exact checkCondition_eq_ok.mp hc

/-- A join pairs frames without a common name. -/
theorem checked_join {closure : Row → Row → Outcome TypedExpr} {kind : JoinKind}
    (left : Checked base) (right : Checked other)
    (h : base.join other closure kind = .ok frame) : Checked frame := by
  obtain ⟨value, hv, h⟩ := Outcome.bind_eq_ok.mp h
  obtain ⟨u, hd, h⟩ := Outcome.bind_eq_ok.mp h
  rw [← Outcome.pure_eq_ok.mp h]
  exact .joined left right (condition_eq_ok hv) (checkDisjoint_eq_ok.mp hd)

/-- So does a join with the closest row. -/
theorem checked_asOfJoin {matching : Row → Row → Outcome TypedExpr}
    {closure : Option (Row → Row → Outcome TypedExpr)} (left : Checked base)
    (right : Checked other) (h : base.asOfJoin other matching closure = .ok frame) :
    Checked frame := by
  obtain ⟨value, -, h⟩ := Outcome.bind_eq_ok.mp h
  cases closure with
  | none =>
    obtain ⟨condition, -, h⟩ := Outcome.bind_eq_ok.mp h
    obtain ⟨u, hd, h⟩ := Outcome.bind_eq_ok.mp h
    rw [← Outcome.pure_eq_ok.mp h]
    exact .asOfJoined left right (checkDisjoint_eq_ok.mp hd)
  | some closure =>
    obtain ⟨condition, -, h⟩ := Outcome.bind_eq_ok.mp h
    obtain ⟨u, hd, h⟩ := Outcome.bind_eq_ok.mp h
    rw [← Outcome.pure_eq_ok.mp h]
    exact .asOfJoined left right (checkDisjoint_eq_ok.mp hd)

/-- Rows are put one after the other only under columns of the same names and types. -/
theorem checked_concatenate (left : Checked base) (right : Checked other)
    (h : base.concatenate other = .ok frame) : Checked frame := by
  obtain ⟨u, hl, h⟩ := Outcome.bind_eq_ok.mp h
  rw [Outcome.require_eq_ok, beq_iff_eq] at hl
  split at h
  · exact absurd h Outcome.fail_ne_ok
  · next hm =>
    rw [← Outcome.pure_eq_ok.mp h]
    exact .concatenated left right (firstMismatch_eq_none hl hm)

/-- Every reachable frame has passed the checks of the transformations that made it. -/
theorem Reachable.checked (h : Reachable frame) : Checked frame := by
  induction h with
  | table made => exact checked_ofTable made
  | filter _ made ih => exact checked_filter ih made
  | select _ made ih => exact checked_select ih made
  | distinct _ ih => exact .distinct ih
  | distinctBy _ made ih => exact checked_distinctBy ih made
  | extend _ made ih => exact checked_extend ih made
  | windowExtend _ made ih => exact checked_windowExtend ih made
  | project _ made ih => exact checked_project ih made
  | rename _ made ih => exact checked_rename ih made
  | groupBy _ made ih => exact checked_groupBy ih made
  | sort _ made ih => exact checked_sort ih made
  | slice _ made ih => exact checked_slice ih made
  | limit _ made ih => exact checked_limit ih made
  | drop _ made ih => exact checked_drop ih made
  | join _ _ made left right => exact checked_join left right made
  | asOfJoin _ _ made left right => exact checked_asOfJoin left right made
  | concatenate _ _ made left right => exact checked_concatenate left right made
  | served service _ ih => exact .served ih

end Frame

end FrameQuery
