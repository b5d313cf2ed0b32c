import FrameQuery.Proofs.Frame.SelectList

/-!
# Entries that are retained

Entries are taken out of a select list one after the other, and the last one that is left fills each
gap, so that the positions of the others change. What is taken and what is left together stay the
entries of the list; where labels are distinct, this alone says which entries are taken.
-/

namespace FrameQuery.QueryStep

open Sql (Dialect QuerySpecification SelectItem)

variable {d : Dialect} {query : QuerySpecification} {names : List String}
  {items kept : List SelectItem}

/-! ### What is left of a list -/

/-- What is taken out of a list and what is left of it are the entries of the list. -/
theorem exists_perm_of_takeColumns (h : takeColumns d names items = .ok kept) :
    ∃ left, items.Perm (kept ++ left) := by
  induction names generalizing items kept with
  | nil =>
    rw [takeColumns, Except.ok.injEq] at h
    rw [← h]
    exact ⟨items, .refl _⟩
  | cons name names ih =>
    rw [takeColumns] at h
    split at h
    · exact absurd h Outcome.fail_ne_ok
    · next item rest ht =>
      obtain ⟨tail, hr, he⟩ := Outcome.bind_eq_ok.mp h
      obtain ⟨left, same⟩ := ih hr
      rw [← Outcome.pure_eq_ok.mp he]
      exact ⟨left, (takeLabelled?_eq_some ht).2.trans (same.cons item)⟩

/-- Other labels are left where one is taken out of a list. -/
private theorem mem_labels_of_take {label other : String} {item : SelectItem}
    {rest : List SelectItem} (taken : takeLabelled? label items = some (item, rest))
    (apart : other ≠ label) :
    some other ∈ rest.map (·.label?) ↔ some other ∈ items.map (·.label?) := by
  obtain ⟨labelled, same⟩ := takeLabelled?_eq_some taken
  rw [(same.map (·.label?)).mem_iff, List.map_cons, List.mem_cons, labelled, Option.some.injEq,
    or_iff_right apart]

/-! ### When columns are missing -/

/-- Nothing is taken out of a list under a label that it does not have. -/
private theorem takeLabelled?_eq_none {label : String}
    (unknown : some label ∉ items.map (·.label?)) : takeLabelled? label items = none := by
  refine Option.eq_none_iff_forall_ne_some.mpr fun ⟨item, rest⟩ taken ↦ unknown ?_
  obtain ⟨labelled, same⟩ := takeLabelled?_eq_some taken
  rw [← labelled]
  exact List.mem_map_of_mem (same.symm.subset List.mem_cons_self)

/-- Columns cannot be taken out of a list if one of them is missing; the first one is reported. -/
theorem takeColumns_eq_fail {before after : List String} {name : String}
    (nodup : (before ++ name :: after).Nodup)
    (known : ∀ n ∈ before, some (d.quoted n) ∈ items.map (·.label?))
    (unknown : some (d.quoted name) ∉ items.map (·.label?)) :
    takeColumns d (before ++ name :: after) items = fail (.missingColumn name) := by
  induction before generalizing items with
  | nil => rw [List.nil_append, takeColumns, takeLabelled?_eq_none unknown]
  | cons first before ih =>
    obtain ⟨fresh, nodup⟩ := List.nodup_cons.mp nodup
    obtain ⟨here, known⟩ := List.forall_mem_cons.mp known
    obtain ⟨item, rest, taken⟩ := exists_takeLabelled? here
    have others (n : String) (hn : n ∈ before ++ name :: after) :
        some (d.quoted n) ∈ rest.map (·.label?) ↔ some (d.quoted n) ∈ items.map (·.label?) :=
      mem_labels_of_take taken fun same ↦ fresh (Dialect.quoted_inj.mp same ▸ hn)
    have missing := ih nodup
      (fun n hn ↦ (others n (List.mem_append_left _ hn)).mpr (known n hn))
      ((others name (by simp)).not.mpr unknown)
    rw [List.cons_append, takeColumns, taken]
    dsimp only
    rw [missing]
    rfl

/-! ### Which entries are taken -/

/-- Whether an entry has a quoted name as its label. -/
def isNamed (d : Dialect) (names : List String) (item : SelectItem) : Bool :=
  item.label?.any (names.map d.quoted).contains

/-- An entry has a quoted name as its label exactly if its label is one of them. -/
private theorem isNamed_iff {item : SelectItem} :
    isNamed d names item = true ↔ ∃ label ∈ names.map d.quoted, item.label? = some label := by
  rw [isNamed, Option.any_eq_true]
  simp only [List.contains_iff_mem, and_comm]

/-- Where labels are distinct, exactly the entries with the labels are taken out of a list. -/
theorem perm_filter_isNamed (distinct : (items.filterMap (·.label?)).Nodup)
    (h : takeColumns d names items = .ok kept) : kept.Perm (items.filter (isNamed d names)) := by
  obtain ⟨left, same⟩ := exists_perm_of_takeColumns h
  obtain ⟨labels, -⟩ := takeColumns_eq_ok h
  have all : kept.filter (isNamed d names) = kept := by
    refine List.filter_eq_self.mpr fun item hi ↦ isNamed_iff.mpr ?_
    have label : item.label? ∈ (names.map d.quoted).map some :=
      labels ▸ List.mem_map_of_mem hi
    obtain ⟨label, hl, he⟩ := List.mem_map.mp label
    exact ⟨label, hl, he.symm⟩
  have none : left.filter (isNamed d names) = [] := by
    refine List.filter_eq_nil_iff.mpr fun item hi named ↦ ?_
    obtain ⟨label, hl, he⟩ := isNamed_iff.mp named
    have taken : some label ∈ kept.map (·.label?) := labels ▸ List.mem_map_of_mem hl
    obtain ⟨other, ho, found⟩ := List.mem_map.mp taken
    have apart := (same.filterMap (·.label?)).nodup_iff.mp distinct
    rw [List.filterMap_append] at apart
    exact List.disjoint_of_nodup_append apart (List.mem_filterMap.mpr ⟨other, ho, found⟩)
      (List.mem_filterMap.mpr ⟨item, hi, he⟩)
  have parts := same.filter (isNamed d names)
  rw [List.filter_append, all, none, List.append_nil] at parts
  exact parts.symm

/-- Columns are retained exactly if all of their quoted names are labels of the query; otherwise the
first one that is missing is reported. The select list then has the entries with these labels, each
as it is and once, in the order of the names, and everything else of the query stays as it is. -/
theorem retain_entries (distinct : (query.items.filterMap (·.label?)).Nodup)
    (nodup : names.Nodup) :
    (Outcome.Succeeds (retain d names query) ↔
      ∀ name ∈ names, some (d.quoted name) ∈ query.items.map (·.label?)) ∧
    (∀ before name after, names = before ++ name :: after →
      (∀ n ∈ before, some (d.quoted n) ∈ query.items.map (·.label?)) →
      some (d.quoted name) ∉ query.items.map (·.label?) →
      retain d names query = fail (.missingColumn name)) ∧
    ∀ result, retain d names query = .ok result → ∃ kept, result = query.withItems kept ∧
      kept.map (·.label?) = (names.map d.quoted).map some ∧
      kept.Perm (query.items.filter (isNamed d names)) := by
  refine ⟨⟨?_, fun known ↦ ?_⟩, ?_, fun result h ↦ ?_⟩
  · rintro ⟨result, h⟩ name hn
    obtain ⟨kept, taken, -⟩ := retain_eq_ok.mp h
    obtain ⟨labels, among⟩ := takeColumns_eq_ok taken
    refine List.map_subset _ among ?_
    rw [labels]
    exact List.mem_map_of_mem (List.mem_map_of_mem hn)
  · obtain ⟨kept, taken⟩ := exists_takeColumns nodup known
    exact ⟨_, retain_eq_ok.mpr ⟨kept, taken, rfl⟩⟩
  · rintro before name after rfl known unknown
    rw [retain, takeColumns_eq_fail nodup known unknown]
    rfl
  · obtain ⟨kept, taken, rfl⟩ := retain_eq_ok.mp h
    exact ⟨kept, rfl, (takeColumns_eq_ok taken).1, perm_filter_isNamed distinct taken⟩

/-- Three columns of a relation. -/
private def threeColumns : QuerySpecification :=
  .plain [.passing "r" "\"a\"", .passing "r" "\"b\"", .passing "r" "\"c\""] []

/-- Of three columns, the last one takes the place of the first one, and is found there. -/
theorem retain_entries_of_three :
    ∃ kept, retain {} ["a", "c", "b"] threeColumns = .ok (threeColumns.withItems kept) ∧
      kept.map (·.label?) = [some "\"a\"", some "\"c\"", some "\"b\""] ∧
      kept.Perm (threeColumns.items.filter (isNamed {} ["a", "c", "b"])) := by
  have distinct : (threeColumns.items.filterMap (·.label?)).Nodup := by decide
  have nodup : ["a", "c", "b"].Nodup := by decide
  obtain ⟨accepted, -, entries⟩ := retain_entries (d := {}) distinct nodup
  obtain ⟨result, made⟩ := accepted.mpr (by decide)
  obtain ⟨kept, rfl, labels, same⟩ := entries result made
  exact ⟨kept, made, labels, same⟩

end FrameQuery.QueryStep
