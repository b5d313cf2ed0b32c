import FrameQuery.Proofs.Outcome
import FrameQuery.Proofs.Text.Documents
import FrameQuery.Sql.Generator

/-!
# Ordering and paging at two levels

A query puts an order and a range of rows behind a relation, and so does the query block that reads
everything from that relation. Both are rendered exactly if their parts are, and both write the parts
in the same places; but a query writes `LIMIT` and `OFFSET` for every dialect. So the texts agree
unless the dialect has a range of rows of its own and there is a range to be written.
-/

namespace FrameQuery.Sql

open Outcome (Succeeds)

/-- Whether a relation is a query of its own. -/
def Relation.isQuery : Relation → Bool
  | .specification _ | .union _ _ _ => true
  | _ => false

namespace Query

/-- The query block that reads everything from the body of a query, with its order and range. -/
def block (query : Query) : QuerySpecification where
  select := ⟨false, [.allColumns none]⟩
  sources := [.subquery (.plain query.body)]
  filter := none
  groupBy := []
  having := none
  orderBy := query.orderBy
  limit := query.limit
  offset := query.offset

/-- Whether a query has an order or a range of rows. -/
def hasClauses (query : Query) : Bool :=
  !query.orderBy.isEmpty || query.limit.isSome || query.offset.isSome

end Query

/-- An optional part of a clause. -/
def written (write : Doc → Doc) (part : Option Doc) : Doc := part.elim [] write

/-- The documents of the parts of a query. -/
structure QueryParts where
  body : Doc
  keys : List Doc
  limit : Option Doc
  offset : Option Doc

namespace QueryParts

/-- The parts are what the parts of a query are rendered as, at the depth of its clauses. -/
structure Of (d : Dialect) (query : Query) (depth : Nat) (parts : QueryParts) : Prop where
  body : query.body.doc d true (depth + 1) = .ok parts.body
  keys : SortItem.docs d query.orderBy depth = .ok parts.keys
  limit : Expression.optionDoc d query.limit depth = parts.limit.map .ok
  offset : Expression.optionDoc d query.offset depth = parts.offset.map .ok

/-- The select list and the relation, which both levels write alike. -/
def everything (parts : QueryParts) (depth : Nat) : Doc :=
  Doc.gap (depth + 1) ++ "*" ++ Doc.gap depth ++ "FROM" ++ Doc.gap (depth + 1) ++ parts.body

/-- The range of rows as a query writes it. -/
def page (parts : QueryParts) (depth : Nat) : Doc :=
  written (fun n ↦ Doc.gap depth ++ "LIMIT " ++ n) parts.limit ++
    written (fun n ↦ Doc.gap depth ++ "OFFSET " ++ n) parts.offset

/-- The number of rows as a dialect writes it before the select list. -/
def top (d : Dialect) (parts : QueryParts) : Doc :=
  match d.family, parts.limit, parts.offset with
  | .transact, some limit, none => " TOP " ++ limit
  | _, _, _ => []

/-- The range of rows as a dialect writes it at the end. -/
def range (d : Dialect) (parts : QueryParts) (depth : Nat) : Doc :=
  match d.family, parts.offset with
  | .standard, _ => parts.page depth
  | .transact, none => []
  | .transact, some offset => Doc.gap depth ++ "OFFSET " ++ offset ++ " ROWS" ++
      written (fun n ↦ Doc.gap depth ++ "FETCH NEXT " ++ n ++ " ROWS ONLY") parts.limit

/-- What a query writes between its parentheses. -/
def queryDoc (parts : QueryParts) (depth : Nat) : Doc :=
  "SELECT" ++ (parts.everything depth ++ (listClause "ORDER BY" depth parts.keys ++
    parts.page depth))

/-- What the query block writes between its parentheses. -/
def blockDoc (d : Dialect) (parts : QueryParts) (depth : Nat) : Doc :=
  "SELECT" ++ (parts.top d ++ (parts.everything depth ++
    (d.orderClause depth parts.keys parts.offset.isSome ++ parts.range d depth)))

variable {d : Dialect} {query : Query} {parts other : QueryParts} {depth : Nat}

/-- A query has no range of rows exactly if its parts have none. -/
theorem Of.range_iff (h : Of d query depth parts) :
    query.limit = none ∧ query.offset = none ↔ parts.limit = none ∧ parts.offset = none := by
  have absent {x : Option Expression} {p : Option Doc}
      (he : Expression.optionDoc d x depth = p.map .ok) : x = none ↔ p = none := by
    cases x <;> cases p <;> simp_all [Expression.optionDoc]
  rw [absent h.limit, absent h.offset]

end QueryParts

/-! ### What is rendered -/

section Clauses

variable {d : Dialect} {depth : Nat} {limit offset : Option (Outcome Doc)}

/-- An optional part is written exactly if it is absent or rendered. -/
theorem optionally_eq_ok {write : Doc → Doc} {part : Option (Outcome Doc)} {doc : Doc} :
    optionally write part = .ok doc ↔ ∃ p : Option Doc, part = p.map .ok ∧ doc = written write p := by
  rcases part with _ | e | x
  · constructor
    · intro h
      exact ⟨none, rfl, (Except.ok.inj h).symm⟩
    · rintro ⟨_ | _, hp, rfl⟩
      · rfl
      · cases hp
  · constructor
    · intro h
      cases h
    · rintro ⟨_ | _, hp, -⟩ <;> cases hp
  · constructor
    · intro h
      exact ⟨some x, rfl, (Except.ok.inj h).symm⟩
    · rintro ⟨_ | _, hp, rfl⟩ <;> cases hp
      rfl

/-- A range of rows is written exactly if its parts are absent or rendered. -/
theorem pageClause_eq_ok {page : Doc} :
    pageClause depth limit offset = .ok page ↔ ∃ l o : Option Doc, limit = l.map .ok ∧
      offset = o.map .ok ∧ page = QueryParts.page ⟨[], [], l, o⟩ depth := by
  simp only [pageClause, Outcome.bind_eq_ok, Outcome.pure_eq_ok, optionally_eq_ok]
  constructor
  · rintro ⟨_, ⟨l, hl, rfl⟩, _, ⟨o, ho, rfl⟩, rfl⟩
    exact ⟨l, o, hl, ho, rfl⟩
  · rintro ⟨l, o, hl, ho, rfl⟩
    exact ⟨_, ⟨l, hl, rfl⟩, _, ⟨o, ho, rfl⟩, rfl⟩

/-- A number of rows that is rendered is written before the select list if it belongs there. -/
theorem topClause_ok (l o : Option Doc) :
    d.topClause (l.map .ok) (o.map .ok) = .ok (QueryParts.top d ⟨[], [], l, o⟩) := by
  unfold Dialect.topClause QueryParts.top
  cases d.family <;> cases l <;> cases o <;> rfl

/-- A range of rows that is rendered is written at the end if it belongs there. -/
theorem rangeClause_ok (l o : Option Doc) :
    d.rangeClause depth (l.map .ok) (o.map .ok) =
      .ok (QueryParts.range d ⟨[], [], l, o⟩ depth) := by
  unfold Dialect.rangeClause QueryParts.range
  cases d.family <;> cases l <;> cases o <;> rfl

/-- A dialect leaves out no part of a range of rows: all of them have to be rendered. -/
theorem exists_of_clauses_eq_ok {top range : Doc} (ht : d.topClause limit offset = .ok top)
    (hr : d.rangeClause depth limit offset = .ok range) :
    ∃ l o : Option Doc, limit = l.map .ok ∧ offset = o.map .ok := by
  unfold Dialect.topClause at ht
  unfold Dialect.rangeClause at hr
  cases hf : d.family with
  | standard =>
    rw [hf] at hr
    obtain ⟨l, o, hl, ho, -⟩ := pageClause_eq_ok.mp hr
    exact ⟨l, o, hl, ho⟩
  | transact =>
    rw [hf] at ht hr
    rcases offset with _ | e | o
    · rcases limit with _ | e | l
      · exact ⟨none, none, rfl, rfl⟩
      · cases ht
      · exact ⟨some l, none, rfl, rfl⟩
    · cases hr
    · simp only [Outcome.bind_eq_ok, optionally_eq_ok] at hr
      obtain ⟨_, -, _, ⟨l, hl, -⟩, -⟩ := hr
      exact ⟨l, some o, hl, rfl⟩

end Clauses

namespace Query

variable {d : Dialect} {query : Query} {nested : Bool} {depth : Nat} {result : Doc}

/-- A query with clauses is rendered exactly if its parts are. -/
theorem doc_eq_ok (clauses : query.hasClauses = true) :
    query.doc d nested depth = .ok result ↔ ∃ parts, QueryParts.Of d query (depth + 1) parts ∧
      result = parens depth (parts.queryDoc (depth + 1)) := by
  obtain ⟨body, orderBy, limit, offset⟩ := query
  have plain : isPlain body orderBy limit offset ≠ true := by
    intro h
    unfold isPlain at h
    rw [Bool.and_eq_true, Bool.and_eq_true, Bool.and_eq_true, List.isEmpty_iff,
      Option.isNone_iff_eq_none, Option.isNone_iff_eq_none] at h
    obtain ⟨⟨⟨-, rfl⟩, rfl⟩, rfl⟩ := h
    cases clauses
  rw [doc, if_neg plain]
  simp only [Outcome.bind_eq_ok, Outcome.pure_eq_ok, pageClause_eq_ok]
  constructor
  · rintro ⟨body, hb, keys, hk, _, ⟨limit, offset, hl, ho, rfl⟩, rfl⟩
    exact ⟨⟨body, keys, limit, offset⟩, ⟨hb, hk, hl, ho⟩, by
      simp [parens, QueryParts.queryDoc, QueryParts.everything, QueryParts.page]⟩
  · rintro ⟨⟨body, keys, limit, offset⟩, ⟨hb, hk, hl, ho⟩, rfl⟩
    exact ⟨body, hb, keys, hk, _, ⟨limit, offset, hl, ho, rfl⟩, by
      simp [parens, QueryParts.queryDoc, QueryParts.everything, QueryParts.page]⟩

/-- A relation that is a query is rendered alike as a sub-query. -/
theorem plain_doc {body : Relation} (h : body.isQuery = true) :
    (Query.plain body).doc d true depth = body.doc d true depth := by
  cases body with
  | specification query => rfl
  | union left right distinct => rfl
  | _ => cases h

/-- A query block that selects everything from one relation consists of its parts. -/
private theorem blockDoc_eq (parts : QueryParts) :
    Doc.text "SELECT" ++ Doc.text (if false = true then " DISTINCT" else "") ++ parts.top d ++
      entries depth [Doc.text "*"] ++ listClause "FROM" depth [parts.body] ++ [] ++
      listClause "GROUP BY" depth [] ++ [] ++
      d.orderClause depth parts.keys parts.offset.isSome ++ parts.range d depth =
    parts.blockDoc d depth := by
  simp [QueryParts.blockDoc, QueryParts.everything, entries, listClause, Doc.sepBy,
    List.intercalate_singleton, Doc.text]

/-- The query block of a query that reads from another query is rendered exactly if its parts
are. -/
theorem block_doc_eq_ok (body : query.body.isQuery = true) :
    (Relation.specification query.block).doc d true depth = .ok result ↔
      ∃ parts, QueryParts.Of d query (depth + 1) parts ∧
        result = parens depth (parts.blockDoc d (depth + 1)) := by
  obtain ⟨relation, orderBy, limit, offset⟩ := query
  have absent (depth : Nat) : Expression.optionDoc d none depth = none := rfl
  simp only [block, Relation.doc, QuerySpecification.doc, Expression.docs, SelectItem.docs,
    SelectItem.doc, Relation.docs, plain_doc body, optionally, absent, Outcome.bind_eq_ok,
    Outcome.pure_eq_ok, Except.ok.injEq, if_true, exists_eq_left']
  constructor
  · rintro ⟨_, ⟨top, ht, keys, hk, range, hr, _, ⟨relation, hb, rfl⟩, rfl⟩, rfl⟩
    obtain ⟨limit, offset, hl, ho⟩ := exists_of_clauses_eq_ok ht hr
    rw [hl, ho, topClause_ok] at ht
    rw [hl, ho, rangeClause_ok] at hr
    refine ⟨⟨relation, keys, limit, offset⟩, ⟨hb, hk, hl, ho⟩, ?_⟩
    rw [← Except.ok.inj ht, ← Except.ok.inj hr, ho, Option.isSome_map, ← blockDoc_eq]
    rfl
  · rintro ⟨parts, ⟨hb, hk, hl, ho⟩, rfl⟩
    rw [hl, ho]
    refine ⟨_, ⟨_, topClause_ok .., _, hk, _, rangeClause_ok .., _, ⟨_, hb, rfl⟩, rfl⟩, ?_⟩
    rw [Option.isSome_map, ← blockDoc_eq]
    rfl

end Query

/-! ### Texts -/

namespace QueryParts

variable {d : Dialect} {parts : QueryParts} {depth : Nat} {layout : Layout}

/-- Both levels agree for a dialect without a range of rows of its own. -/
theorem blockDoc_of_standard (family : d.family = .standard) :
    parts.blockDoc d depth = parts.queryDoc depth := by
  rw [blockDoc, queryDoc, top, range, family, Dialect.orderClause, if_neg (by simp [family])]
  rfl

/-- Both levels agree if there is no range of rows. -/
theorem blockDoc_of_no_range (limit : parts.limit = none) (offset : parts.offset = none) :
    parts.blockDoc d depth = parts.queryDoc depth := by
  rw [blockDoc, queryDoc, top, range, page, limit, offset, Dialect.orderClause,
    if_neg (by simp)]
  cases d.family <;> rfl

/-- Only a number of rows without an offset is written before the select list. -/
theorem top_of_offset {offset : Doc} (h : parts.offset = some offset) : parts.top d = [] := by
  rw [top, h]
  cases d.family <;> cases parts.limit <;> rfl

/-- The texts differ if there is a range of rows and the dialect has one of its own. -/
theorem chars_blockDoc_ne (family : d.family = .transact)
    (paged : parts.limit ≠ none ∨ parts.offset ≠ none) :
    layout.chars (parts.queryDoc depth) ≠ layout.chars (parts.blockDoc d depth) := by
  intro h
  rw [queryDoc, blockDoc, Layout.chars_append, Layout.chars_append (Doc.text "SELECT")] at h
  replace h := List.append_cancel_left h
  cases offset : parts.offset with
  | none =>
    -- The select list of the query stands where the block has its number of rows.
    obtain ⟨limit, limited⟩ :=
      Option.ne_none_iff_exists'.mp (paged.resolve_right (not_not_intro offset))
    rw [top, family, limited, offset] at h
    cases hp : layout.pretty <;>
      simp [everything, Layout.chars, Layout.write, Layout.newline, Doc.gap, Doc.text, hp] at h
  | some skipped =>
    rw [top_of_offset offset, List.nil_append, Layout.chars_append,
      Layout.chars_append (everything _ _)] at h
    replace h := List.append_cancel_left h
    rw [page, range, family, offset, Dialect.orderClause] at h
    cases keyed : parts.keys with
    | nil =>
      rw [keyed, if_pos ⟨family, rfl, rfl⟩] at h
      cases limited : parts.limit <;>
        simp [limited, listClause, written, Layout.chars_append, Layout.chars_text] at h
    | cons key rest =>
      rw [keyed, if_neg (by simp), Layout.chars_append, Layout.chars_append (listClause _ _ _)] at h
      replace h := List.append_cancel_left h
      cases limited : parts.limit <;>
        simp [limited, written, Layout.chars_append, Layout.chars_text] at h

/-- Both levels write the same text exactly if the dialect has no range of rows of its own or there
is no range. -/
theorem chars_eq_iff : layout.chars (parts.queryDoc depth) = layout.chars (parts.blockDoc d depth) ↔
    d.family = .standard ∨ (parts.limit = none ∧ parts.offset = none) := by
  constructor
  · intro h
    cases family : d.family with
    | standard => exact .inl rfl
    | transact =>
      refine .inr ?_
      by_contra paged
      exact chars_blockDoc_ne family (by tauto) h
  · rintro (family | ⟨limit, offset⟩)
    · rw [blockDoc_of_standard family]
    · rw [blockDoc_of_no_range limit offset]

end QueryParts

/-- Documents in parentheses say the same exactly if what is between the parentheses does. -/
theorem render_parens_inj {layout : Layout} {depth : Nat} {first second : Doc} :
    layout.render (parens depth first) = layout.render (parens depth second) ↔
      layout.chars first = layout.chars second := by
  simp only [Layout.render, parens, Layout.chars_append, String.ofList_inj, List.append_assoc,
    List.append_cancel_left_eq, List.append_cancel_right_eq]

/-- Results of two operations that succeed are the same exactly if each is one of the other. -/
private theorem succeed_alike_iff {α : Type} (a b : α) :
    (∀ c, (Except.ok a : Outcome α) = .ok c ↔ (Except.ok b : Outcome α) = .ok c) ↔ a = b := by
  constructor
  · intro h
    exact (Except.ok.inj ((h a).mp rfl)).symm
  · rintro rfl c
    rfl

namespace Query

variable {d : Dialect} {query : Query}

/-- For a query that reads from a query and has an order or a range of rows, and for the query block
that says the same, rendering succeeds in the same cases. The texts agree exactly if the dialect has
no range of rows of its own, or there is no range, or rendering fails. -/
theorem doc_agrees_with_block_iff (body : query.body.isQuery = true)
    (clauses : query.hasClauses = true) (layout : Layout) (nested : Bool) (depth : Nat) :
    (Succeeds (query.doc d nested depth) ↔
      Succeeds ((Relation.specification query.block).doc d true depth)) ∧
    ((∀ text, (query.doc d nested depth).map layout.render = .ok text ↔
        ((Relation.specification query.block).doc d true depth).map layout.render = .ok text) ↔
      d.family = .standard ∨ (query.limit = none ∧ query.offset = none) ∨
        ¬ Succeeds (query.doc d nested depth)) := by
  have same : Succeeds (query.doc d nested depth) ↔
      Succeeds ((Relation.specification query.block).doc d true depth) := by
    simp only [Succeeds, doc_eq_ok clauses, block_doc_eq_ok body]
    constructor <;>
    · rintro ⟨_, parts, hp, -⟩
      exact ⟨_, parts, hp, rfl⟩
  refine ⟨same, ?_⟩
  by_cases succeeds : Succeeds (query.doc d nested depth)
  · obtain ⟨result, hr⟩ := succeeds
    obtain ⟨parts, hp, he⟩ := (doc_eq_ok clauses).mp hr
    have hb := (block_doc_eq_ok body).mpr ⟨parts, hp, rfl⟩
    rw [hr, hb]
    refine (succeed_alike_iff (layout.render result) _).trans ?_
    rw [he, render_parens_inj, QueryParts.chars_eq_iff, ← hp.range_iff]
    simp [Outcome.succeeds_ok]
  · refine iff_of_true (fun text ↦ iff_of_false (fun h ↦ ?_) fun h ↦ ?_) (.inr (.inr succeeds))
    · obtain ⟨result, hr, -⟩ := Outcome.map_eq_ok.mp h
      exact succeeds ⟨result, hr⟩
    · obtain ⟨result, hr, -⟩ := Outcome.map_eq_ok.mp h
      exact succeeds (same.mpr ⟨result, hr⟩)

/-- The first five rows of everything that stands in a table. -/
def firstFive : Query :=
  ⟨.specification (.plain [.allColumns none] [.table ⟨["t"]⟩]), [], some (.literal (.integer 5)),
    none⟩

/-- A number of rows is rendered at both levels, but alike only for a dialect that writes `LIMIT`. -/
theorem doc_agrees_with_block_first_five :
    (∀ text, (firstFive.doc Database.postgres.dialect false 0).map Format.compact.layout.render =
        .ok text ↔ ((Relation.specification firstFive.block).doc Database.postgres.dialect true
          0).map Format.compact.layout.render = .ok text) ∧
      ¬ ∀ text, (firstFive.doc Database.msSql.dialect false 0).map Format.compact.layout.render =
        .ok text ↔ ((Relation.specification firstFive.block).doc Database.msSql.dialect true
          0).map Format.compact.layout.render = .ok text := by
  have agrees (d : Dialect) :=
    @doc_agrees_with_block_iff d firstFive rfl rfl Format.compact.layout false 0
  refine ⟨(agrees _).2.mpr (.inl rfl), fun h ↦ ?_⟩
  rcases (agrees _).2.mp h with family | ⟨limit, -⟩ | fails
  · cases family
  · cases limit
  · exact fails ⟨_, rfl⟩

/-- For `MsSql` the two levels say how many rows there are in different ways. -/
theorem doc_differs_from_block :
    (firstFive.doc Database.msSql.dialect false 0).map Format.compact.layout.render =
        .ok "(SELECT * FROM (SELECT * FROM t) LIMIT 5)" ∧
      ((Relation.specification firstFive.block).doc Database.msSql.dialect true 0).map
        Format.compact.layout.render = .ok "(SELECT TOP 5 * FROM (SELECT * FROM t))" :=
  ⟨rfl, rfl⟩

end Query

end FrameQuery.Sql
