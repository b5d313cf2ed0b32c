import FrameQuery.Proofs.Frame.Nesting

/-!
# Emitted queries are closed

A block is closed if each column it refers to is one of exactly one relation that it reads from.
What a relation exports is a relation between it and its names: a table exports columns it is
declared with, a sub-query the labels of its query, two queries one after the other the labels of
both, and a join what both of its sides export. Steps put expressions of one block in place of
columns of another, but only while the relations stay the same, so that every query of a frame is
closed at every depth.
-/

namespace FrameQuery

open Sql (Dialect QuerySpecification SelectItem SubQuery Expression Relation Walk QualifiedName)

namespace Sql

/-- A name has two parts: that of exactly one of the relations and that of one of its columns. -/
def QualifiedName.ResolvesIn (exports : List (String × List String)) (name : QualifiedName) :
    Prop :=
  ∃ relation column columns, name.parts = [relation, column] ∧
    exports.filter (·.1 = relation) = [(relation, columns)] ∧ column ∈ columns

/-- Under which names a relation exports which columns, over tables with given columns. In a join
the condition refers to columns that one of its sides exports. -/
inductive Relation.Exports (d : Dialect) (tables : List (List String × List String)) :
    Relation → List (String × List String) → Prop
  | table {parts names : List String} {relation : String} : (parts, names) ∈ tables →
    Exports d tables (.aliased (.table ⟨parts⟩) relation []) [(relation, names.map d.quoted)]
  | subquery {query : QuerySpecification} {relation : String} {columns : List String} :
    query.items.map (·.label?) = columns.map some →
      Exports d tables (.aliased (.subquery (.plain (.specification query))) relation columns)
        [(relation, columns)]
  | union {left right : QuerySpecification} {distinct : Bool} {relation : String}
      {columns : List String} : left.items.map (·.label?) = columns.map some →
    right.items.map (·.label?) = columns.map some →
      Exports d tables (.aliased (.subquery (.plain
        (.union (.specification left) (.specification right) distinct))) relation columns)
        [(relation, columns)]
  | join {kind : JoinType} {left right : Relation} {lefts rights : List (String × List String)}
      {condition : Expression} : Exports d tables left lefts → Exports d tables right rights →
    (∀ name ∈ condition.references, name.ResolvesIn (lefts ++ rights)) →
      Exports d tables (.join kind left right (some (.condition condition))) (lefts ++ rights)

/-- Every column that a block refers to is exported by exactly one relation that it reads from. -/
def QuerySpecification.Closed (d : Dialect) (tables : List (List String × List String))
    (query : QuerySpecification) : Prop :=
  ∃ exports, List.Forall₂ (Relation.Exports d tables) query.sources exports ∧
    ∀ x ∈ query.expressions, ∀ name ∈ x.references, name.ResolvesIn exports.flatten

/-- The columns of a sub-query with a name are the labels of the select lists in it. -/
def Relation.KeepsLabels : Relation → Prop
  | .aliased (.subquery ⟨.specification query, _, _, _⟩) _ columns =>
    query.items.map (·.label?) = columns.map some
  | .aliased (.subquery ⟨.union (.specification left) (.specification right) _, _, _, _⟩) _
    columns =>
    left.items.map (·.label?) = columns.map some ∧ right.items.map (·.label?) = columns.map some
  | .aliased (.subquery _) _ _ => False
  | _ => True

/-- The names of a column of the only relation resolve. -/
theorem QualifiedName.resolvesIn_singleton {relation column : String} {columns : List String}
    (h : column ∈ columns) : (⟨[relation, column]⟩ : QualifiedName).ResolvesIn
      [(relation, columns)] := by
  refine ⟨relation, column, columns, rfl, ?_, h⟩
  rw [List.filter_cons_of_pos (by simp), List.filter_nil]

end Sql

variable {d : Dialect} {tables : List (List String × List String)}
  {query lefts rights : QuerySpecification} {left right : SubQuery} {x : Expression}
  {name : QualifiedName}

/-- A sub-query exports its columns. -/
theorem Sql.SubQuery.exports {correlation : String} (made : query.named d correlation = .ok left) :
    left.relation.Exports d tables [(left.correlation, left.columns)] := by
  obtain ⟨labels, he⟩ := QuerySpecification.named_eq_ok.mp made
  rw [he]
  exact .subquery labels

/-- A column of one of the two sub-queries of a join resolves. -/
theorem resolvesIn_pair {column : String} (left_named : lefts.named d "left" = .ok left)
    (right_named : rights.named d "right" = .ok right) {sub : SubQuery}
    (hs : sub = left ∨ sub = right) (h : column ∈ sub.columns) :
    (⟨[sub.correlation, column]⟩ : QualifiedName).ResolvesIn
      [(left.correlation, left.columns), (right.correlation, right.columns)] := by
  have hl : left.correlation = d.quoted "left" := by
    rw [(QuerySpecification.named_eq_ok.mp left_named).2]
  have hr : right.correlation = d.quoted "right" := by
    rw [(QuerySpecification.named_eq_ok.mp right_named).2]
  have ne : d.quoted "left" ≠ d.quoted "right" := by
    rw [ne_eq, Dialect.quoted_inj]
    decide
  refine ⟨sub.correlation, column, sub.columns, rfl, ?_, h⟩
  rcases hs with rfl | rfl
  · simp [hl, hr, ne.symm]
  · simp [hl, hr, ne]

/-- The only reference in a reference is the reference itself. -/
theorem references_column {parts : List String}
    (h : name ∈ (Expression.column parts).references) : name = ⟨parts⟩ := by
  simpa [Expression.references, Expression.column, Sql.Expression.walk, Walk.ofReferences] using h

namespace Assembled

/-- The condition of a join refers to columns of its two sub-queries. -/
private theorem holds_resolves {e : Expr} (left_named : lefts.named d "left" = .ok left)
    (right_named : rights.named d "right" = .ok right)
    (made : e.toSql (.pair d left.all right.all) = .ok x) (h : name ∈ x.references) :
    name.ResolvesIn [(left.correlation, left.columns), (right.correlation, right.columns)] := by
  have found := Expr.finds_of_mem_walk Walk.ignoresCalls_ofReferences made h
  rcases found.pair with ⟨z, hz, hn⟩ | ⟨z, hz, hn⟩
  · obtain ⟨c, hc, rfl⟩ := Sql.SubQuery.mem_expressions_all.mp hz
    rw [references_column hn]
    exact resolvesIn_pair left_named right_named (.inl rfl) hc
  · obtain ⟨c, hc, rfl⟩ := Sql.SubQuery.mem_expressions_all.mp hz
    rw [references_column hn]
    exact resolvesIn_pair left_named right_named (.inr rfl) hc

/-- Assembled queries are closed. -/
theorem block_closed (assembled : Assembled d tables query) : query.Closed d tables := by
  induction assembled with
  | @table parts names known =>
    refine ⟨_, .cons (.table known) .nil, fun x hx name hn ↦ ?_⟩
    obtain ⟨i, hi, he⟩ := QuerySpecification.mem_expressions_plain.mp hx
    obtain ⟨column, hc, rfl⟩ := List.mem_map.mp hi
    rw [← Option.some.inj he] at hn
    rw [references_column hn]
    exact QualifiedName.resolvesIn_singleton (List.mem_map_of_mem hc)
  | wrapped _ made known =>
    refine ⟨_, .cons (Sql.SubQuery.exports made) .nil, fun x hx name hn ↦ ?_⟩
    obtain ⟨c, hc, rfl⟩ := Sql.SubQuery.mem_expressions_items.mp
      (QuerySpecification.mem_expressions_plain.mp hx)
    rw [references_column hn]
    exact QualifiedName.resolvesIn_singleton (known hc)
  | derived _ sources derived ih =>
    -- The relations are those of the earlier block, and so are all references.
    obtain ⟨exports, he, hr⟩ := ih
    refine ⟨exports, sources ▸ he, fun x hx name hn ↦ ?_⟩
    obtain ⟨z, hz, hnz⟩ := (derived x hx).mem_walk Walk.ignoresCalls_ofReferences hn
    exact hr z hz name hnz
  | @paired lefts rights left right _ _ _ _ _ left_named right_named made =>
    refine ⟨_, .cons (.join (Sql.SubQuery.exports left_named) (Sql.SubQuery.exports right_named)
      fun name hn ↦ holds_resolves left_named right_named made hn) .nil, fun x hx name hn ↦ ?_⟩
    have one (sub : SubQuery) (hs : sub = left ∨ sub = right)
        (hi : ∃ i ∈ sub.items sub.columns, i.expression? = some x) :
        name.ResolvesIn
          [(left.correlation, left.columns), (right.correlation, right.columns)] := by
      obtain ⟨c, hc, rfl⟩ := Sql.SubQuery.mem_expressions_items.mp hi
      rw [references_column hn]
      exact resolvesIn_pair left_named right_named hs hc
    obtain ⟨i, hi, he⟩ := QuerySpecification.mem_expressions_plain.mp hx
    rcases List.mem_append.mp hi with hi | hi
    · exact one left (.inl rfl) ⟨i, hi, he⟩
    · exact one right (.inr rfl) ⟨i, hi, he⟩
  | concatenated _ _ left_named right_named columns =>
    refine ⟨_, .cons (.union (Sql.SubQuery.map_label?_items ..) ?_) .nil, fun x hx name hn ↦ ?_⟩
    · rw [columns]
      exact Sql.SubQuery.map_label?_items ..
    · obtain ⟨i, hi, he⟩ := QuerySpecification.mem_expressions_plain.mp hx
      obtain ⟨column, hc, rfl⟩ := List.mem_map.mp hi
      rw [← Option.some.inj he] at hn
      rw [references_column hn]
      exact QualifiedName.resolvesIn_singleton hc

/-! ### Columns of sub-queries -/

/-- The relations of a block are those that it reads from and what is nested in them. -/
private theorem mem_relations {relation : Relation} (assembled : Assembled d tables query) :
    relation ∈ query.relations ↔ ∃ r ∈ query.sources, relation ∈ r.walk .ofRelations := by
  rw [QuerySpecification.relations, assembled.mem_walk_iff Walk.ignoresExpressions_ofRelations]
  simp

/-- A sub-query keeps labels if its query does. -/
private theorem keepsLabels_of_relation {correlation : String}
    (made : query.named d correlation = .ok left)
    (inner : ∀ r ∈ query.relations, r.KeepsLabels) {relation : Relation}
    (h : relation ∈ left.relation.walk .ofRelations) : relation.KeepsLabels := by
  obtain ⟨labels, he⟩ := QuerySpecification.named_eq_ok.mp made
  rw [he, Sql.SubQuery.walk_relation] at h
  simp only [Walk.ofRelations_relation, List.cons_append, List.nil_append, List.mem_cons] at h
  rcases h with rfl | rfl | rfl | h
  · exact labels
  · trivial
  · trivial
  · exact inner relation h

/-- In an assembled query every sub-query with a name has the labels of its query as columns. -/
theorem keepsLabels (assembled : Assembled d tables query) {relation : Relation}
    (h : relation ∈ query.relations) : relation.KeepsLabels := by
  induction assembled generalizing relation with
  | table known =>
    obtain ⟨r, hr, h⟩ := (mem_relations (Assembled.table (d := d) known)).mp h
    rw [List.mem_singleton.mp hr] at h
    simp only [Relation.walk, Walk.ofRelations_relation, List.append_nil, List.cons_append,
      List.nil_append, List.mem_cons, List.not_mem_nil, or_false] at h
    rcases h with rfl | rfl
    · trivial
    · trivial
  | wrapped inner made known ih =>
    obtain ⟨r, hr, h⟩ := (mem_relations (.wrapped inner made known)).mp h
    rw [List.mem_singleton.mp hr] at h
    exact keepsLabels_of_relation made (fun _ ↦ ih) h
  | derived inner sources derived ih =>
    obtain ⟨r, hr, h⟩ := (mem_relations (.derived inner sources derived)).mp h
    rw [sources] at hr
    exact ih ((mem_relations inner).mpr ⟨r, hr, h⟩)
  | paired hl hr left_named right_named made ihl ihr =>
    obtain ⟨r, hm, h⟩ := (mem_relations (.paired hl hr left_named right_named made)).mp h
    have hn : relation ∉ _ := not_mem_walk_holds Walk.ignoresExpressions_ofRelations
      (hl.all left_named) (hr.all right_named) made
    rw [List.mem_singleton.mp hm] at h
    simp only [Relation.walk, Sql.JoinCriteria.optionWalk, Sql.JoinCriteria.walk,
      Walk.ofRelations_relation, List.mem_append, List.mem_singleton, hn, or_false] at h
    rcases h with rfl | h | h
    · trivial
    · exact keepsLabels_of_relation left_named (fun _ ↦ ihl) h
    · exact keepsLabels_of_relation right_named (fun _ ↦ ihr) h
  | @concatenated lefts rights left right hl hr left_named right_named columns ihl ihr =>
    obtain ⟨r, hm, h⟩ := (mem_relations (.concatenated hl hr left_named right_named columns)).mp h
    rw [List.mem_singleton.mp hm] at h
    simp only [Relation.walk, Sql.Query.walk_plain, Walk.ofRelations_relation, List.cons_append,
      List.nil_append, List.mem_cons, List.mem_append] at h
    rcases h with rfl | rfl | rfl | rfl | h | rfl | h
    · refine ⟨Sql.SubQuery.map_label?_items .., ?_⟩
      rw [columns]
      exact Sql.SubQuery.map_label?_items ..
    · trivial
    · trivial
    · trivial
    · obtain ⟨r, hm, h⟩ := (mem_relations (hl.all left_named)).mp h
      rw [List.mem_singleton.mp hm] at h
      exact keepsLabels_of_relation left_named (fun _ ↦ ihl) h
    · trivial
    · obtain ⟨r, hm, h⟩ := (mem_relations (hr.all right_named)).mp h
      rw [List.mem_singleton.mp hm] at h
      exact keepsLabels_of_relation right_named (fun _ ↦ ihr) h

end Assembled

namespace Frame

/-- The query of every reachable frame is closed at every depth: each column that a block refers to
is exported by exactly one relation that it reads from, over the tables that the frame reads, and
the columns of every sub-query with a name are the labels of the select lists in it. -/
theorem Reachable.closed {frame : Frame} (reachable : Reachable frame)
    (made : frame.toSql d = .ok query) :
    (∀ block ∈ query.blocks, block.Closed d frame.tables) ∧
      ∀ relation ∈ query.relations, relation.KeepsLabels := by
  have assembled := reachable.checked.assembled (List.Subset.refl _) made
  exact ⟨fun block hb ↦ (assembled.nested hb).block_closed,
    fun relation hr ↦ assembled.keepsLabels hr⟩

/-- The pairs of rows of two tables that agree, written for the generic database. -/
theorem Reachable.closed_of_join :
    ∃ frame, Reachable frame ∧ frame.tables = [(["t"], ["a"]), (["u"], ["b"])] ∧
      ∃ query, frame.toSql {} = .ok query ∧
        (∀ block ∈ query.blocks, block.Closed {} frame.tables) ∧
          ∀ relation ∈ query.relations, relation.KeepsLabels := by
  have left : ofTable ["t"] [⟨"a", .integer, none, none⟩] =
      .ok (.table ["t"] [⟨"a", .integer, none, none⟩]) := rfl
  have right : ofTable ["u"] [⟨"b", .integer, none, none⟩] =
      .ok (.table ["u"] [⟨"b", .integer, none, none⟩]) := rfl
  have pairs : Frame.join (.table ["t"] [⟨"a", .integer, none, none⟩])
      (.table ["u"] [⟨"b", .integer, none, none⟩])
      (fun l r ↦ do (← l.get "a").compare (← r.get "b") .equal) .inner = .ok (.joined _ _ _ _) :=
    rfl
  have reachable := Reachable.join (.table left) (.table right) pairs
  exact ⟨_, reachable, rfl, _, rfl, reachable.closed rfl⟩

end Frame

end FrameQuery
