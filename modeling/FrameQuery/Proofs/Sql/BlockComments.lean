import FrameQuery.Proofs.Sql.Comments
import FrameQuery.Proofs.Sql.Labels
import FrameQuery.Proofs.Text.Layout

/-!
# Comments in rendered queries

Clauses put calm words around expressions and relations. A query block opens a comment exactly if
one of its expressions or one of the relations it reads from does, whichever way its dialect writes
the range of rows.
-/

namespace FrameQuery

namespace Sql

open Outcome (Gives)

variable {d : Dialect}

/-! ### What is in a query -/

/-- A walk that gathers all expressions, with everything below them. -/
def Walk.ofTerms : Walk Expression := .ofExpressions Expression.terms

/-- All expressions of a query, at every depth. -/
def QuerySpecification.terms (query : QuerySpecification) : List Expression :=
  query.walk .ofTerms

/-- Whether a minus before a negative literal is among the expressions of a relation. -/
def Relation.opens (relation : Relation) : Bool := (relation.walk .ofTerms).any (·.doublesMinus)

/-- Whether a minus before a negative literal is among the expressions of a query. -/
def QuerySpecification.opens (query : QuerySpecification) : Bool :=
  query.terms.any (·.doublesMinus)

/-- The document of a relation opens a comment exactly if a minus before a negative literal is among
its expressions. -/
def Relation.Read (d : Dialect) (relation : Relation) : Prop :=
  ∀ layout nested depth, Gives (relation.doc d nested depth) (·.Reads layout relation.opens)

/-- The document of a query block opens a comment exactly if a minus before a negative literal is
among its expressions. -/
def QuerySpecification.Read (d : Dialect) (query : QuerySpecification) : Prop :=
  ∀ layout depth, Gives (query.doc d depth) (·.Reads layout query.opens)

/-- An expression without queries in it. -/
def Expression.Flat (x : Expression) : Prop := x.walk .ofTerms = []

/-- A minus before a negative literal is in the expressions of a block or in what it reads from. -/
theorem QuerySpecification.opens_eq {query : QuerySpecification}
    (flat : ∀ x ∈ query.expressions, x.Flat) :
    query.opens = (query.expressions.any (·.opens) || query.sources.any (·.opens)) := by
  have none : query.expressions.flatMap (·.walk .ofTerms) = [] := List.flatMap_eq_nil_iff.mpr flat
  rw [opens, terms, walk_eq, none, List.append_nil, List.any_append, List.any_flatMap]
  change ((query.expressions.flatMap _).any _ || _) = _
  rw [List.any_flatMap]
  rfl

/-! ### Relations -/

section Parts

variable {layout : Layout} {p : Bool} {doc : Doc}

/-- A document between parentheses. -/
theorem reads_parens (depth : Nat) (h : doc.Reads layout p) :
    (parens depth doc).Reads layout p := by
  have opening := ((Doc.Reads.text "(" rfl).before (.seam (depth + 1))).before h
  exact (opening.behind (.seam depth)).behind (.text ")" rfl)

/-- A condition of a join, whose outer parentheses are those of its clause. -/
theorem reads_condition (h : doc.Reads layout p) :
    (Doc.text "ON (" ++ Doc.stripOuterParens quoteChars doc ++ Doc.text ")").Reads layout p := by
  by_cases outer : Doc.hasOuterParens quoteChars doc = true
  · have same : Doc.text "ON (" ++ Doc.stripOuterParens quoteChars doc ++ Doc.text ")" =
        Doc.text "ON " ++ doc := by
      conv_rhs => rw [Doc.eq_of_hasOuterParens outer]
      rw [← List.append_assoc, ← List.append_assoc]
      rfl
    rw [same]
    exact (Doc.Reads.text "ON " rfl).before h
  · rw [Doc.stripOuterParens, if_neg outer]
    exact .between "ON (" ")" rfl h rfl

end Parts

namespace Relation

/-- Tables open no comment. -/
theorem read_table {parts : List String}
    (h : ∀ part ∈ parts, Calm (d.identifier part false).toList) : (table ⟨parts⟩).Read d :=
  fun _ _ _ ↦ .ok (d.reads_nameDoc h)

/-- A relation under a calm name. -/
theorem Read.aliased {relation : Relation} {correlation : String} (h : relation.Read d)
    (hc : Calm (d.identifier correlation false).toList) (columns : List String) :
    (Relation.aliased relation correlation columns).Read d :=
  fun layout nested depth ↦ (h layout nested depth).bind fun _ hr ↦
    .ok ((hr.behind (.text " AS " rfl)).behind (.text _ hc))

/-- A query block, between parentheses if it is nested. -/
theorem read_specification {query : QuerySpecification} (h : query.Read d) :
    (specification query).Read d := by
  intro layout nested depth
  rw [Relation.doc]
  cases nested with
  | true => exact (h layout (depth + 1)).bind fun _ hq ↦ .ok (reads_parens depth hq)
  | false => exact h layout depth

/-- Two relations one after the other. -/
theorem Read.union {left right : Relation} (hl : left.Read d) (hr : right.Read d)
    (distinct : Bool) : (Relation.union left right distinct).Read d := by
  intro layout nested depth
  have word : Calm (if distinct then "UNION" else "UNION ALL").toList := by
    cases distinct <;> rfl
  have opens : (Relation.union left right distinct).opens = (left.opens || right.opens) := by
    rw [Relation.opens, Relation.walk, List.any_append, List.any_append]
    rfl
  rw [Relation.doc, opens]
  refine (hl layout true _).bind fun _ hl ↦ (hr layout true _).bind fun _ hr ↦ .ok ?_
  have both (inside : Nat) :=
    (((hl.behind (.gap inside)).behind (.text _ word)).behind (.gap inside)).append hr
  split
  · exact reads_parens depth (both _)
  · exact both _

/-- A query without order and range is the relation that it consists of. -/
theorem opens_subquery_plain (body : Relation) :
    (subquery (.plain body)).opens = body.opens := by
  simp [opens, Relation.walk, Query.walk, Walk.ofTerms, Walk.ofExpressions, expressions,
    Query.operands, Query.plain, SortItem.walkAll, Expression.optionWalk]

/-- A query block as a sub-query. -/
theorem read_subquery_specification {query : QuerySpecification} (h : query.Read d) :
    (subquery (.plain (.specification query))).Read d := by
  intro layout nested depth
  rw [opens_subquery_plain]
  exact read_specification h layout true depth

/-- Two query blocks as a sub-query. -/
theorem read_subquery_union {left right : QuerySpecification} (hl : left.Read d)
    (hr : right.Read d) (distinct : Bool) :
    (subquery (.plain (.union (.specification left) (.specification right) distinct))).Read d := by
  intro layout nested depth
  rw [opens_subquery_plain]
  exact (read_specification hl).union (read_specification hr) distinct layout true depth

/-- A join opens a comment if one of its sides or its condition does. -/
theorem Read.join {left right : Relation} {holds : Expression} (kind : JoinType)
    (hl : left.Read d) (hr : right.Read d) (hc : holds.Read d) (flat : holds.Flat) :
    (Relation.join kind left right (some (.condition holds))).Read d := by
  intro layout nested depth
  have word : Calm kind.keyword.toList := by cases kind <;> rfl
  have opens : (Relation.join kind left right (some (.condition holds))).opens =
      (left.opens || right.opens || holds.opens) := by
    have none : JoinCriteria.optionWalk .ofTerms (some (.condition holds)) = [] := flat
    rw [Relation.opens, Relation.walk, none, List.append_nil, List.any_append, List.any_append]
    have own : (Walk.ofTerms.relation (.join kind left right (some (.condition holds)))).any
        (·.doublesMinus) = holds.opens := by
      simp [Walk.ofTerms, Walk.ofExpressions, expressions, Expression.opens]
    rw [own, Bool.or_comm]
    rfl
  have criteria : Gives (JoinCriteria.doc d (.condition holds) depth)
      (·.Reads layout holds.opens) :=
    (hc.gives layout depth).bind fun _ hc ↦ .ok (reads_condition hc)
  rw [opens]
  refine (hl layout false depth).bind fun _ hl ↦ (hr layout false (depth + 1)).bind fun _ hr ↦ ?_
  have sides := (((hl.behind (.gap depth)).behind (.text _ word)).behind (.gap (depth + 1))).append
    hr
  have clause : Gives ((JoinCriteria.doc d (.condition holds) depth).map fun c ↦
      Doc.gap (depth + 1) ++ c) (·.Reads layout holds.opens) :=
    criteria.map fun _ hc ↦ (Doc.Reads.gap (depth + 1)).before hc
  exact clause.bind fun _ hc ↦ .ok (sides.append hc)

end Relation

/-! ### Clauses -/

section Clauses

variable {layout : Layout} {α : Type} {opens : α → Bool} {parts : List α} {docs : List Doc}

/-- Entries of a clause. -/
theorem reads_entries (depth : Nat)
    (h : List.Forall₂ (fun a doc ↦ Doc.Reads layout doc (opens a)) parts docs) :
    (entries depth docs).Reads layout (parts.any opens) :=
  (Doc.Reads.gap _).before (.sepBy ((Doc.Reads.text "," rfl).before (.gap _)) h)

/-- A clause of entries, which is not written if there are none. -/
theorem reads_listClause (keyword : String) (hk : Calm keyword.toList) (depth : Nat)
    (h : List.Forall₂ (fun a doc ↦ Doc.Reads layout doc (opens a)) parts docs) :
    (listClause keyword depth docs).Reads layout (parts.any opens) := by
  rw [listClause]
  split
  · next none =>
    rw [List.isEmpty_iff.mp none, List.forall₂_nil_right_iff] at h
    rw [h]
    exact .nil
  · exact ((Doc.Reads.gap depth).before (.text keyword hk)).before (reads_entries depth h)

/-- The order of rows, even where none is asked for. -/
theorem Dialect.reads_orderClause (depth : Nat) (skipping : Bool)
    (h : List.Forall₂ (fun a doc ↦ Doc.Reads layout doc (opens a)) parts docs) :
    (d.orderClause depth docs skipping).Reads layout (parts.any opens) := by
  rw [orderClause]
  split
  · next none =>
    rw [List.isEmpty_iff.mp none.2.1, List.forall₂_nil_right_iff] at h
    rw [h]
    exact (Doc.Reads.gap depth).before (.text "ORDER BY (SELECT NULL)" rfl)
  · exact reads_listClause "ORDER BY" rfl depth h

/-- An optional expression with calm words around it. -/
theorem gives_optionally {x : Option Expression} {write : Doc → Doc} (h : ∀ y ∈ x, y.Read d)
    (depth : Nat) (around : ∀ {doc p}, Doc.Reads layout doc p → (write doc).Reads layout p) :
    Gives (optionally write (Expression.optionDoc d x depth))
      (·.Reads layout (x.any (·.opens))) := by
  cases x with
  | none => exact .ok .nil
  | some y => exact ((h y rfl).gives layout depth).map fun _ hy ↦ around hy

/-- A clause with one entry. -/
theorem gives_entryClause {x : Option Expression} (keyword : String) (hk : Calm keyword.toList)
    (h : ∀ y ∈ x, y.Read d) (layout : Layout) (depth inner : Nat) :
    Gives (optionally (fun doc ↦ entryClause keyword depth (some doc))
        (Expression.optionDoc d x inner)) (·.Reads layout (x.any (·.opens))) := by
  refine gives_optionally h inner fun {doc p} hd ↦ ?_
  have each : List.Forall₂ (fun flag doc ↦ Doc.Reads layout doc (id flag)) [p] [doc] :=
    .cons hd .nil
  refine (((Doc.Reads.gap depth).before (.text keyword hk)).before
    (reads_entries depth each)).of_eq ?_
  simp

/-- A range of rows as `LIMIT` and `OFFSET`. -/
theorem gives_pageClause {limit offset : Option Expression} (hl : ∀ y ∈ limit, y.Read d)
    (ho : ∀ y ∈ offset, y.Read d) (layout : Layout) (depth : Nat) :
    Gives (pageClause depth (Expression.optionDoc d limit depth)
        (Expression.optionDoc d offset depth))
      (·.Reads layout (limit.any (·.opens) || offset.any (·.opens))) := by
  have word (keyword : String) (hk : Calm keyword.toList) {doc : Doc} {p : Bool}
      (h : doc.Reads layout p) : (Doc.gap depth ++ Doc.text keyword ++ doc).Reads layout p :=
    ((Doc.Reads.gap depth).before (.text keyword hk)).before h
  refine (gives_optionally hl depth (word "LIMIT " rfl)).bind fun _ hl ↦ ?_
  exact (gives_optionally ho depth (word "OFFSET " rfl)).bind fun _ ho ↦ .ok (hl.append ho)

/-- Whichever way a dialect writes a range of rows, it opens a comment before the select list or at
the end exactly if one of the bounds does. -/
theorem Dialect.gives_range {limit offset : Option Expression} (hl : ∀ y ∈ limit, y.Read d)
    (ho : ∀ y ∈ offset, y.Read d) (layout : Layout) (depth : Nat) :
    ∃ top range,
      Gives (d.topClause (Expression.optionDoc d limit depth) (Expression.optionDoc d offset depth))
        (·.Reads layout top) ∧
      Gives (d.rangeClause depth (Expression.optionDoc d limit depth)
        (Expression.optionDoc d offset depth)) (·.Reads layout range) ∧
      (top || range) = (limit.any (·.opens) || offset.any (·.opens)) := by
  unfold topClause rangeClause
  cases d.family with
  | standard => exact ⟨false, _, .ok .nil, gives_pageClause hl ho layout depth, rfl⟩
  | transact =>
    cases offset with
    | none =>
      cases limit with
      | none => exact ⟨false, false, .ok .nil, .ok .nil, rfl⟩
      | some limit =>
        have top : Gives ((limit.doc d depth).map fun n ↦ Doc.text " TOP " ++ n)
            (·.Reads layout limit.opens) :=
          ((hl limit rfl).gives layout depth).map fun _ h ↦ (Doc.Reads.text " TOP " rfl).before h
        exact ⟨_, false, top, .ok .nil, by simp⟩
    | some offset =>
      have fetch : Gives (optionally (fun n ↦ Doc.gap depth ++ "FETCH NEXT " ++ n ++ " ROWS ONLY")
          (Expression.optionDoc d limit depth)) (·.Reads layout (limit.any (·.opens))) :=
        gives_optionally hl depth fun h ↦
          (((Doc.Reads.gap depth).before (.text "FETCH NEXT " rfl)).before h).behind
            (.text " ROWS ONLY" rfl)
      refine ⟨false, offset.opens || limit.any (·.opens), ?_, ?_, ?_⟩
      · cases limit <;> exact .ok .nil
      · refine ((ho offset rfl).gives layout depth).bind fun _ ho ↦ fetch.bind fun _ hf ↦ .ok ?_
        exact ((((Doc.Reads.gap depth).before (.text "OFFSET " rfl)).before ho).behind
          (.text " ROWS" rfl)).append hf
      · rw [Bool.false_or, Bool.or_comm]
        rfl

end Clauses

/-! ### Query blocks -/

/-- Relations are read one after the other. -/
theorem Relation.gives_docs {relations : List Relation} (h : ∀ r ∈ relations, r.Read d)
    (layout : Layout) (depth : Nat) :
    Gives (Relation.docs d relations depth)
      (List.Forall₂ (fun r doc ↦ Doc.Reads layout doc r.opens) relations) := by
  induction relations with
  | nil => exact .ok .nil
  | cons relation rest ih =>
    obtain ⟨hr, rest⟩ := List.forall_mem_cons.mp h
    exact (hr layout false depth).bind fun _ hd ↦ (ih rest).bind fun _ hds ↦ .ok (.cons hd hds)

/-- Columns with calm labels are read one after the other. -/
theorem SelectItem.gives_docs {items : List SelectItem}
    (labels : ∀ i ∈ items, ∃ label, i.label? = some label ∧ Calm (d.identifier label false).toList)
    (h : ∀ i ∈ items, ∀ x, i.expression? = some x → x.Read d) (layout : Layout) (depth : Nat) :
    Gives (SelectItem.docs d items depth)
      (List.Forall₂ (fun i doc ↦ Doc.Reads layout doc (i.expression?.any (·.opens))) items) := by
  induction items with
  | nil => exact .ok .nil
  | cons item rest ih =>
    obtain ⟨⟨label, hl, calm⟩, others⟩ := List.forall_mem_cons.mp labels
    obtain ⟨hx, rest⟩ := List.forall_mem_cons.mp h
    obtain ⟨x, rfl⟩ := SelectItem.eq_column_of_label? hl
    have first : Gives (SelectItem.doc d (.column (some label) x) depth)
        (·.Reads layout x.opens) :=
      ((hx x rfl).gives layout depth).bind fun _ hd ↦
        .ok ((hd.behind (.text " AS " rfl)).behind (.text _ calm))
    exact first.bind fun _ hd ↦ (ih others rest).bind fun _ hds ↦ .ok (.cons hd hds)

/-- Something holds of one of the expressions of a block if it holds of one in its select list, of a
sort key or of one in another clause. -/
theorem QuerySpecification.any_expressions (query : QuerySpecification) (p : Expression → Bool) :
    query.expressions.any p =
      (query.items.any (·.expression?.any p) || query.orderBy.any (p ·.key) ||
        query.filter.any p || query.groupBy.any p || query.having.any p ||
        (query.limit.any p || query.offset.any p)) := by
  have option (x : Option Expression) : x.toList.any p = x.any p := by cases x <;> simp
  have items : (query.items.filterMap (·.expression?)).any p =
      query.items.any (·.expression?.any p) := by
    rw [List.any_filterMap]
    rfl
  simp only [expressions, outputs, clauses, List.any_append, option, items, List.any_map,
    Function.comp_def, Bool.or_assoc]

/-- A query block with quoted labels is read if what it reads from and all of its expressions
are. -/
theorem QuerySpecification.read (hq : d.quote = '"') {query : QuerySpecification}
    {names : List String} (selects : query.Selects d names)
    (sources : ∀ r ∈ query.sources, r.Read d) (expressions : ∀ x ∈ query.expressions, x.Read d)
    (flat : ∀ x ∈ query.expressions, x.Flat) : query.Read d := by
  have labels : ∀ i ∈ query.items,
      ∃ label, i.label? = some label ∧ Calm (d.identifier label false).toList := by
    intro i hi
    have hl : i.label? ∈ (names.map d.quoted).map some := selects ▸ List.mem_map_of_mem hi
    obtain ⟨label, hm, he⟩ := List.mem_map.mp hl
    obtain ⟨name, -, rfl⟩ := List.mem_map.mp hm
    exact ⟨_, he.symm, Dialect.calm_identifier hq (Dialect.calm_quoted hq name)⟩
  obtain ⟨items, keys, filter, groups, having_, limit, offset⟩ :=
    forall_mem_expressions.mp expressions
  intro layout depth
  rw [opens_eq flat]
  obtain ⟨⟨distinct, _⟩, _, _, _, _, _, _, _⟩ := query
  obtain ⟨top, range, htop, hrange, bounds⟩ := Dialect.gives_range limit offset layout depth
  rw [QuerySpecification.doc]
  refine htop.bind fun _ htop ↦ ?_
  refine (Expression.gives_docs groups layout _).bind fun _ hgroups ↦ ?_
  refine (SortItem.gives_docs keys layout _).bind fun _ hkeys ↦ ?_
  refine hrange.bind fun _ hrange ↦ ?_
  refine (SelectItem.gives_docs labels items layout _).bind fun _ hitems ↦ ?_
  refine (Relation.gives_docs sources layout _).bind fun _ hsources ↦ ?_
  refine (gives_entryClause "WHERE" rfl filter layout depth _).bind fun _ hfilter ↦ ?_
  refine (gives_entryClause "HAVING" rfl having_ layout depth _).bind fun _ hhaving ↦ .ok ?_
  have words : Calm (if distinct then " DISTINCT" else "").toList := by cases distinct <;> rfl
  have select := (((Doc.Reads.text "SELECT" rfl).before (.text _ words)).append htop).append
    (reads_entries depth hitems)
  have from_ := (select.append (reads_listClause "FROM" rfl depth hsources)).append hfilter
  have grouped := (from_.append (reads_listClause "GROUP BY" rfl depth hgroups)).append hhaving
  refine ((grouped.append (Dialect.reads_orderClause depth _ hkeys)).append hrange).of_eq ?_
  rw [any_expressions, ← bounds]
  simp only [Bool.false_or, QuerySpecification.items]
  ac_rfl

end Sql

end FrameQuery
