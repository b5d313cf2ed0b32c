import FrameQuery.Proofs.Expr.Indentation
import FrameQuery.Proofs.Frame.Brackets
import FrameQuery.Proofs.Frame.Layout
import FrameQuery.Proofs.Sql.Indentation

/-!
# Indentation is compositional

Nodes of the metamodel and frames are written with every break at a depth that counts from where the
text begins. A text that is moved to the right is therefore the same text with blanks behind each of
its line breaks, four for each level of SQL and two for each level of PURE. Line breaks that come
from a name are the exception: they are no breaks of the text, whether the name holds them or the
dialect puts them around it as quotes.
-/

namespace FrameQuery

open Doc (Lined)

/-! ### Nodes of the metamodel -/

namespace Sql.Node

open Outcome (Gives)

/-- The tree of a node; a clause belongs to its query block. -/
def tree : Node → Tree
  | .specification block _ => block.tree
  | .top block | .range block | .grouping block | .order block => block.tree
  | .query q _ => q.tree
  | .relation r _ => r.tree
  | .criteria c => c.tree
  | .select s => s.tree
  | .item i => i.tree
  | .key k => k.tree
  | .expression x => x.tree
  | .call c => c.tree
  | .branch b => b.tree
  | .window w => w.tree
  | .frame f => f.tree
  | .bound b => b.tree
  | .extension f => f.tree

variable {d : Dialect}

/-- The lines of a node end at its breaks if its texts hold no line breaks. -/
theorem lined_doc (hq : d.quote ≠ '\n') {node : Node} (h : node.tree.AllTexts OneLine)
    (depth : Nat) : Gives (node.doc d depth) Lined := by
  cases node with
  | specification block nested =>
    cases nested with
    | true => exact (Relation.specification block).lined_doc hq true depth h
    | false => exact block.lined_doc hq depth h
  | query q nested => exact q.lined_doc hq nested depth h
  | relation r nested => exact r.lined_doc hq nested depth h
  | criteria c => exact c.lined_doc hq depth h
  | select s =>
    obtain ⟨distinct, items⟩ := s
    obtain ⟨-, hi, -⟩ := h
    exact (SelectItem.lined_docs hq items (depth + 1) hi).map fun _ hi ↦ lined_entries depth hi
  | item i => exact i.lined_doc hq depth h
  | top block =>
    obtain ⟨select, sources, filter, groups, having_, keys, limit, offset⟩ := block
    obtain ⟨-, -, -, -, -, -, hl, -, -⟩ := h
    exact Dialect.gives_lined_topClause (Expression.lined_optionDoc hq limit depth hl)
  | range block =>
    obtain ⟨select, sources, filter, groups, having_, keys, limit, offset⟩ := block
    obtain ⟨-, -, -, -, -, -, hl, ho, -⟩ := h
    exact Dialect.gives_lined_rangeClause depth (Expression.lined_optionDoc hq limit depth hl)
      (Expression.lined_optionDoc hq offset depth ho)
  | grouping block =>
    obtain ⟨select, sources, filter, groups, having_, keys, limit, offset⟩ := block
    obtain ⟨-, -, -, hg, -, -, -, -, -⟩ := h
    exact (Expression.lined_docs hq groups (depth + 1) hg).map fun _ hg ↦
      lined_listClause "GROUP BY" (by decide) depth hg
  | order block =>
    obtain ⟨select, sources, filter, groups, having_, keys, limit, offset⟩ := block
    obtain ⟨-, -, -, -, -, hk, -, -, -⟩ := h
    exact (SortItem.lined_docs hq keys depth hk).map fun _ hk ↦
      Dialect.lined_orderClause depth _ hk
  | key k => exact k.lined_doc hq depth h
  | expression x => exact x.lined_doc hq depth h
  | call c => exact c.lined_doc hq depth h
  | branch b => exact b.lined_doc hq depth h
  | window w => exact w.lined_doc hq depth h
  | frame f => exact f.lined_doc hq depth h
  | bound b => exact b.lined_doc hq depth h
  | extension f => exact f.lined_doc hq depth h

/-- A node further to the right fails alike, or has more blanks behind its line breaks. -/
theorem render_add (hq : d.quote ≠ '\n') {node : Node} (h : node.tree.AllTexts OneLine)
    (depth base more : Nat) :
    node.render d depth ⟨true, base + more⟩ =
      (node.render d depth ⟨true, base⟩).map (indented (4 * more)) := by
  rw [render, render]
  cases made : node.doc d depth with
  | error e => rfl
  | ok doc =>
    have lined := lined_doc hq h depth doc made
    exact congrArg Except.ok (Layout.render_add lined 4 base more)

end Sql.Node

/-! ### Steps in PURE -/

section Steps

variable {base : Doc} {docs : List Doc} {names : List String} {new : List ComputedColumn}

/-- A computed column. -/
theorem ComputedColumn.lined_toPure {c : ComputedColumn} {parameters : String}
    (hp : OneLine parameters) (h : ∀ t ∈ c.texts, OneLine t) : (c.toPure parameters).Lined := by
  obtain ⟨name, map, aggregate⟩ := c
  obtain ⟨hn, hb⟩ := List.forall_mem_cons.mp h
  have each : ∀ e ∈ ComputedColumn.bodies ⟨name, map, aggregate⟩, e.toPure.Lined := fun e he ↦
    Expr.lined_toPure fun t ht ↦ hb t (List.mem_flatMap.mpr ⟨e, he, ht⟩)
  obtain ⟨hm, ha⟩ := List.forall_mem_cons.mp each
  have first := ((Lined.text (oneLine_columnName hn)).behind ":" (by decide)).append
    (lined_lambda hp hm)
  cases aggregate with
  | none => exact first
  | some aggregate =>
    exact (first.behind ":" (by decide)).append
      (lined_lambda (by decide) (ha _ (List.mem_singleton_self _)))

/-- Computed columns, one by one. -/
theorem lined_items {parameters : String} (hp : OneLine parameters)
    (h : ∀ t ∈ new.flatMap (·.texts), OneLine t) :
    ∀ doc ∈ new.map (·.toPure parameters), doc.Lined :=
  List.forall_mem_map.mpr fun c hc ↦
    c.lined_toPure hp fun t ht ↦ h t (List.mem_flatMap.mpr ⟨c, hc, ht⟩)

/-- Names of columns. -/
theorem lined_columnNames (h : ∀ name ∈ names, OneLine name) :
    (Doc.commaSep (names.map fun c ↦ Doc.text (PureText.columnName c))).Lined :=
  .commaSep (List.forall_mem_map.mpr fun name hn ↦ .text (oneLine_columnName (h name hn)))

/-- Names of columns between brackets. -/
theorem lined_names (h : ∀ name ∈ names, OneLine name) : (PureText.names names).Lined :=
  ((lined_columnNames h).before "~[" (by decide)).behind "]" (by decide)

/-- A sort key. -/
theorem SortKey.lined_toPure {key : SortKey} (h : OneLine key.column) : key.toPure.Lined := by
  have column {function : String} (hf : OneLine function) :=
    (((Lined.text hf).behind "(~" (by decide)).behind _ (oneLine_columnName h)).behind ")"
      (by decide)
  rw [SortKey.toPure]
  split <;> exact column (by decide)

/-- An end of a window frame. -/
theorem Bound.lined_toPure (bound : Bound) : bound.toPure.Lined := by
  cases bound with
  | unbounded => exact .text (by decide)
  | offset value unit =>
    have amount := Lined.text (oneLine_intText value)
    cases unit with
    | none => exact amount
    | some unit => cases unit <;> exact (amount.behind ", " (by decide)).behind _ (by decide)

/-- A window frame. -/
theorem FrameSpec.lined_toPure (frame : FrameSpec) : frame.toPure.Lined := by
  have ends {function : String} (hf : OneLine function) :=
    ((((Lined.text hf).behind "(" (by decide)).append frame.start.lined_toPure).behind ", "
      (by decide)).append frame.stop.lined_toPure
  rw [FrameSpec.toPure]
  split <;> exact (ends (by decide)).behind ")" (by decide)

/-- A window. -/
theorem WindowSpec.lined_toPure {window : WindowSpec} (h : ∀ c ∈ window.columns, OneLine c) :
    window.toPure.Lined := by
  obtain ⟨hp, ho⟩ := List.forall_mem_append.mp h
  refine .behind (.before "over(" (by decide) (.commaSep ?_)) ")" (by decide)
  rw [List.forall_mem_append, List.forall_mem_cons, List.forall_mem_singleton]
  refine ⟨⟨?_, ?_⟩, ?_⟩
  · split
    · exact .text (by decide)
    · exact lined_names hp
  · have keys : (Doc.commaSep (window.orderBy.map (·.toPure))).Lined :=
      .commaSep (List.forall_mem_map.mpr fun key hk ↦
        key.lined_toPure (ho _ (List.mem_map_of_mem hk)))
    exact (keys.before "[" (by decide)).behind "]" (by decide)
  · cases window.frame with
    | none => exact List.forall_mem_nil _
    | some frame => exact List.forall_mem_singleton.mpr frame.lined_toPure

/-- Documents on lines of their own. -/
private theorem lined_lines (depth : Nat) (h : ∀ doc ∈ docs, doc.Lined) :
    (Doc.sepBy (Doc.text "," ++ Doc.gap depth) docs).Lined :=
  .sepBy ((Lined.gap depth).before "," (by decide)) h

/-- Columns on lines of their own. -/
theorem lined_columnList (depth : Nat) (h : ∀ doc ∈ docs, doc.Lined) :
    (PureText.columnList depth docs).Lined :=
  ((((Lined.seam _).before "~[" (by decide)).append (lined_lines _ h)).append (.seam _)).behind "]"
    (by decide)

/-- A single column, or columns on lines of their own. -/
theorem lined_columns (depth : Nat) (h : ∀ doc ∈ docs, doc.Lined) :
    (PureText.columns depth docs).Lined := by
  rw [PureText.columns.eq_def]
  split
  · exact (h _ (List.mem_singleton_self _)).before "~" (by decide)
  · exact lined_columnList depth h

/-- A step whose arguments stand on lines of their own. -/
theorem lined_tallStep (depth : Nat) {function : String} (hf : OneLine function)
    (h : ∀ doc ∈ docs, doc.Lined) : (PureText.tallStep depth function docs).Lined :=
  (((((Lined.text hf).behind "(" (by decide)).append (.seam _)).append (lined_lines _ h)).append
    (.seam _)).behind ")" (by decide)

/-- A frame followed by steps. -/
theorem lined_steps (depth : Nat) (hb : base.Lined) (h : ∀ doc ∈ docs, doc.Lined) :
    (PureText.steps depth base docs).Lined := by
  refine hb.append fun member ↦ ?_
  obtain ⟨doc, hd, hm⟩ := List.mem_flatMap.mp member
  exact ((Lined.seam (depth + 1)).append (h doc hd)) hm

/-- A frame followed by one step. -/
theorem lined_step (depth : Nat) {step : Doc} (hb : base.Lined) (hs : step.Lined) :
    (PureText.steps depth base [step]).Lined :=
  lined_steps depth hb (List.forall_mem_singleton.mpr hs)

/-- Steps that extend a frame. -/
theorem lined_extension (depth : Nat) {window : Doc} (hw : window.Lined) {parameters : String}
    (hp : OneLine parameters) (h : ∀ t ∈ new.flatMap (·.texts), OneLine t) :
    ∀ doc ∈ PureText.extension depth window parameters new, doc.Lined := by
  have items := lined_items hp h
  have extend {doc : Doc} (hd : doc.Lined) :
      (Doc.text "->extend(" ++ window ++ doc ++ Doc.text ")").Lined :=
    ((hw.before "->extend(" (by decide)).append hd).behind ")" (by decide)
  rw [PureText.extension]
  split
  · exact List.forall_mem_singleton.mpr (extend (lined_columns depth items))
  · refine List.forall_mem_map.mpr fun doc hd ↦ ?_
    exact (((hw.before "->extend(" (by decide)).behind "~" (by decide)).append
      (items doc hd)).behind ")" (by decide)

end Steps

/-! ### Frames -/

namespace Frame

/-- A step with one argument between parentheses. -/
private theorem lined_argument {before after : String} (hb : OneLine before) (ha : OneLine after)
    {doc : Doc} (h : doc.Lined) : (Doc.text before ++ doc ++ Doc.text after).Lined :=
  (h.before before hb).behind after ha

/-- The lines of a frame end at its breaks if its texts hold no line breaks. -/
theorem lined_toPure {frame : Frame}
    (names : ∀ table ∈ frame.tables, ∀ part ∈ table.1, OneLine part)
    (h : ∀ t ∈ frame.texts, OneLine t) (depth : Nat) : (frame.toPure depth).Lined := by
  induction frame generalizing depth with
  | table parts columns =>
    exact lined_argument (by decide) (by decide)
      (.text (.intercalate (by decide) (names _ (List.mem_singleton_self _))))
  | filtered base condition ih =>
    obtain ⟨hb, ho⟩ := List.forall_mem_append.mp h
    exact lined_step depth (ih names hb depth) (lined_argument (by decide) (by decide)
      (lined_lambda (by decide) (Expr.lined_toPure ho)))
  | selected base columns ih =>
    obtain ⟨hb, ho⟩ := List.forall_mem_append.mp h
    exact lined_step depth (ih names hb depth)
      (lined_argument (by decide) (by decide) (lined_names ho))
  | distinct base columns ih =>
    obtain ⟨hb, ho⟩ := List.forall_mem_append.mp h
    cases columns with
    | none => exact lined_step depth (ih names hb depth) (.text (by decide))
    | some columns =>
      exact lined_step depth (ih names hb depth)
        (lined_argument (by decide) (by decide) (lined_names ho))
  | extended base new ih =>
    obtain ⟨hb, ho⟩ := List.forall_mem_append.mp h
    exact lined_steps depth (ih names hb depth) (lined_extension depth .nil (by decide) ho)
  | windowExtended base window new ih =>
    obtain ⟨hb, ho⟩ := List.forall_mem_append.mp h
    obtain ⟨hw, hn⟩ := List.forall_mem_append.mp ho
    exact lined_steps depth (ih names hb depth)
      (lined_extension depth ((WindowSpec.lined_toPure hw).behind ", " (by decide)) (by decide) hn)
  | projected base new ih =>
    obtain ⟨hb, ho⟩ := List.forall_mem_append.mp h
    exact lined_step depth (ih names hb depth) (lined_argument (by decide) (by decide)
      (lined_columnList depth (lined_items (by decide) ho)))
  | renamed base pairs ih =>
    obtain ⟨hb, ho⟩ := List.forall_mem_append.mp h
    refine lined_steps depth (ih names hb depth) (List.forall_mem_map.mpr fun (old, new) hm ↦ ?_)
    have oneLine {name : String} (hn : name ∈ [old, new]) : OneLine (PureText.columnName name) :=
      oneLine_columnName (ho name (List.mem_flatMap.mpr ⟨(old, new), hm, hn⟩))
    exact ((((Lined.text (oneLine (by simp))).before "->rename(~" (by decide)).behind ", ~"
      (by decide)).behind _ (oneLine (by simp))).behind ")" (by decide)
  | grouped base grouping aggregates ih =>
    obtain ⟨hb, ho⟩ := List.forall_mem_append.mp h
    obtain ⟨hg, ha⟩ := List.forall_mem_append.mp ho
    refine lined_step depth (ih names hb depth) (lined_tallStep depth (by decide) ?_)
    rw [List.forall_mem_cons, List.forall_mem_singleton]
    exact ⟨lined_names hg,
      lined_argument (by decide) (by decide) (.commaSep (lined_items (by decide) ha))⟩
  | sorted base keys ih =>
    obtain ⟨hb, ho⟩ := List.forall_mem_append.mp h
    exact lined_step depth (ih names hb depth) (lined_argument (by decide) (by decide)
      (.commaSep (List.forall_mem_map.mpr fun key hk ↦
        key.lined_toPure (ho _ (List.mem_map_of_mem hk)))))
  | sliced base start stop ih =>
    obtain ⟨hb, -⟩ := List.forall_mem_append.mp h
    exact lined_step depth (ih names hb depth)
      (((((Lined.text (oneLine_intText start)).before "->slice(" (by decide)).behind ", "
        (by decide)).behind _ (oneLine_intText stop)).behind ")" (by decide))
  | limited base count ih | dropped base count ih =>
    obtain ⟨hb, -⟩ := List.forall_mem_append.mp h
    exact lined_step depth (ih names hb depth)
      (lined_argument (by decide) (by decide) (.text (oneLine_intText count)))
  | joined base other condition kind ihb iho =>
    obtain ⟨hb, hp⟩ := List.forall_mem_append.mp h
    obtain ⟨ho, hc⟩ := List.forall_mem_append.mp hp
    obtain ⟨nb, no⟩ := List.forall_mem_append.mp names
    have word : OneLine (PureText.joinKind kind) := by cases kind <;> decide
    refine lined_step depth (ihb nb hb depth) (lined_tallStep depth (by decide) ?_)
    simp only [List.forall_mem_cons]
    exact ⟨iho no ho (depth + 2), .text word, lined_lambda (by decide) (Expr.lined_toPure hc),
      List.forall_mem_nil _⟩
  | asOfJoined base other matching condition ihb iho =>
    obtain ⟨hb, hp⟩ := List.forall_mem_append.mp h
    obtain ⟨ho, hc⟩ := List.forall_mem_append.mp hp
    obtain ⟨hm, hc⟩ := List.forall_mem_append.mp hc
    obtain ⟨nb, no⟩ := List.forall_mem_append.mp names
    refine lined_step depth (ihb nb hb depth) (lined_tallStep depth (by decide) ?_)
    rw [List.forall_mem_append, List.forall_mem_cons, List.forall_mem_singleton]
    refine ⟨⟨iho no ho (depth + 2), lined_lambda (by decide) (Expr.lined_toPure hm)⟩, ?_⟩
    cases condition with
    | none => exact List.forall_mem_nil _
    | some condition =>
      exact List.forall_mem_singleton.mpr (lined_lambda (by decide) (Expr.lined_toPure fun t ht ↦
        hc t (List.mem_flatMap.mpr ⟨condition, List.mem_singleton_self _, ht⟩)))
  | concatenated base other ihb iho =>
    obtain ⟨hb, hp⟩ := List.forall_mem_append.mp h
    obtain ⟨ho, -⟩ := List.forall_mem_append.mp hp
    obtain ⟨nb, no⟩ := List.forall_mem_append.mp names
    exact lined_step depth (ihb nb hb depth) (lined_tallStep depth (by decide)
      (List.forall_mem_singleton.mpr (iho no ho (depth + 2))))
  | served frame service ih => exact ih names h depth

end Frame

/-! ### Texts further to the right -/

/-- In every dialect that does not use line breaks as quotes, a node of the metamodel whose texts
hold no line breaks fails alike at all indentations, or its text further to the right has four
blanks more behind each line break for each level. A frame whose texts hold none has two. -/
theorem Layout.indentation :
    (∀ (node : Sql.Node) (d : Sql.Dialect), d.quote ≠ '\n' → node.tree.AllTexts OneLine →
      ∀ depth base more : Nat, node.render d depth ⟨true, base + more⟩ =
        (node.render d depth ⟨true, base⟩).map (indented (4 * more))) ∧
    ∀ frame : Frame, (∀ table ∈ frame.tables, ∀ part ∈ table.1, OneLine part) →
      (∀ t ∈ frame.texts, OneLine t) → ∀ base more : Nat,
        frame.pureText ⟨true, base + more⟩ = indented (2 * more) (frame.pureText ⟨true, base⟩) := by
  refine ⟨fun node d hq h ↦ Sql.Node.render_add hq h, fun frame names h base more ↦ ?_⟩
  exact Layout.render_add (Frame.lined_toPure names h 0) 2 base more

private def firstRows : Sql.Node :=
  .query ⟨.table ⟨["t"]⟩, [], some (.integer 2), none⟩ false

private def oneColumn : Frame :=
  .projected (.table ["t"] []) [⟨"x", ⟨.integer, .column .right "a" none⟩, none⟩]

/-- The first rows of a table and one of its columns, one and three levels to the right. -/
theorem Layout.indentation_of_page :
    ∃ (node : Sql.Node) (frame : Frame),
      node.render {} 0 ⟨true, 1⟩ = .ok ("(\n        SELECT\n            *\n        FROM\n" ++
        "            t\n        LIMIT 2\n    )") ∧
      node.render {} 0 ⟨true, 1 + 2⟩ = (node.render {} 0 ⟨true, 1⟩).map (indented 8) ∧
      frame.pureText ⟨true, 1⟩ = "#Table(t)#\n    ->project(~[\n      x:\x7br | $r.a\x7d\n    ])" ∧
      frame.pureText ⟨true, 1 + 2⟩ = indented 4 (frame.pureText ⟨true, 1⟩) := by
  have texts : firstRows.tree.AllTexts OneLine :=
    ⟨⟨⟨⟨(by decide : OneLine "t"), trivial⟩, trivial⟩, trivial⟩, trivial, trivial, trivial, trivial⟩
  exact ⟨firstRows, oneColumn, rfl, Layout.indentation.1 firstRows {} (by decide) texts 0 1 2, rfl,
    Layout.indentation.2 oneColumn (by decide) (by decide) 1 2⟩

/-- Line breaks around names are no breaks of the text: a dialect that uses them as quotes writes
them as they are. -/
theorem Layout.exists_indentation_fails :
    ∃ (node : Sql.Node) (d : Sql.Dialect), node.tree.AllTexts OneLine ∧
      node.render d 0 ⟨true, 0 + 1⟩ = .ok "\ndate\n" ∧
      node.render d 0 ⟨true, 0 + 1⟩ ≠ (node.render d 0 ⟨true, 0⟩).map (indented (4 * 1)) := by
  refine ⟨.expression (.reference ⟨["date"]⟩), { quote := '\n' },
    ⟨⟨(by decide : OneLine "date"), trivial⟩, trivial⟩, rfl, fun same ↦ ?_⟩
  have texts : (.ok "\ndate\n" : Outcome String) = .ok "\n    date\n    " := same
  exact absurd (Except.ok.inj texts) (by decide)

end FrameQuery
