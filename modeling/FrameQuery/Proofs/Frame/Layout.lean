import FrameQuery.Frame.Pure
import FrameQuery.Proofs.Expr.Layout
import FrameQuery.Proofs.Sql.Layout

/-!
# Layout does not change content

A node of the metamodel and a frame are written as one document each, whatever the layout, and
layouts differ in blanks only. In both languages outer parentheses are dropped from rendered text:
in SQL from conditions of joins, which may be spread over lines, and in PURE from expressions, which
never are. Both drop the same parentheses in every layout.
-/

namespace FrameQuery

namespace Sql

/-! ### Nodes of the metamodel -/

/-- A part of a statement that is written on its own; what can stand in another query is written
between parentheses if it is `nested` there. -/
inductive Node where
  | specification (query : QuerySpecification) (nested : Bool)
  | query (query : Query) (nested : Bool)
  /-- A table, a query block, a sub-query, a join, a union or a function. -/
  | relation (relation : Relation) (nested : Bool)
  | criteria (criteria : JoinCriteria)
  | select (select : Select)
  | item (item : SelectItem)
  | top (query : QuerySpecification)
  | range (query : QuerySpecification)
  | grouping (query : QuerySpecification)
  | order (query : QuerySpecification)
  | key (key : SortItem)
  | expression (expression : Expression)
  | call (call : FunctionCall)
  | branch (branch : WhenClause)
  | window (window : Window)
  | frame (frame : WindowFrame)
  | bound (bound : FrameBound)
  | extension (function : Extension)

namespace Node

/-- The document of a node. -/
def doc (d : Dialect) (depth : Nat) : Node → Outcome Doc
  | .specification block true => (Relation.specification block).doc d true depth
  | .specification block false => block.doc d depth
  | .query q nested => q.doc d nested depth
  | .relation r nested => r.doc d nested depth
  | .criteria c => c.doc d depth
  | .select s => s.doc d depth
  | .item i => i.doc d depth
  | .top block => block.topDoc d depth
  | .range block => block.limitDoc d depth
  | .grouping block => block.groupByDoc d depth
  | .order block => block.orderByDoc d depth
  | .key k => k.doc d depth
  | .expression x => x.doc d depth
  | .call c => c.doc d depth
  | .branch b => b.doc d depth
  | .window w => w.doc d depth
  | .frame f => f.doc d depth
  | .bound b => b.doc d depth
  | .extension f => f.doc d depth

/-- The text of a node. -/
def render (node : Node) (d : Dialect) (depth : Nat) (format : Format) : Outcome String :=
  (node.doc d depth).map format.layout.render

/-- In all layouts a node fails alike, or its texts agree once blanks are left out. -/
theorem map_unblanked_render (node : Node) (d : Dialect) (depth : Nat) (first second : Format) :
    (node.render d depth first).map unblanked = (node.render d depth second).map unblanked := by
  rw [render, render]
  cases node.doc d depth with
  | error e => rfl
  | ok doc => exact congrArg Except.ok (Layout.unblanked_render _ _ doc)

/-- In every layout, a condition of a join is the text of its expression without the pair of
parentheses that encloses that text. -/
theorem render_condition (holds : Expression) (d : Dialect) (depth : Nat) (format : Format) :
    (criteria (.condition holds)).render d depth format =
      ((expression holds).render d depth format).map fun text ↦
        "ON (" ++ strippedText quoteChars text ++ ")" := by
  have condition : (criteria (.condition holds)).doc d depth = holds.doc d depth >>= fun doc ↦
      .ok (Doc.text "ON (" ++ doc.stripOuterParens quoteChars ++ Doc.text ")") := rfl
  rw [render, render, condition, Node.doc]
  cases h : holds.doc d depth with
  | error e => rfl
  | ok doc =>
    have stripped : format.layout.render (doc.stripOuterParens quoteChars) =
        strippedText quoteChars (format.layout.render doc) :=
      Layout.render_stripOuterParens (holds.firm_doc depth doc h) (by decide) (by decide)
    refine congrArg Except.ok ?_
    rw [Layout.render_append, Layout.render_append, Layout.render_text, Layout.render_text,
      stripped]

end Node

end Sql

/-- Whatever the layout, a node of the metamodel fails alike or is written with the same content,
for every dialect and at every depth, and so is a frame in PURE; conditions of joins lose the
parentheses that enclose the text they are written as, and PURE expressions, whose parentheses are
dropped as well, have no breaks. -/
theorem Layout.content_eq :
    (∀ (node : Sql.Node) (d : Sql.Dialect) (depth : Nat) (first second : Sql.Format),
      (node.render d depth first).map unblanked = (node.render d depth second).map unblanked) ∧
    (∀ (frame : Frame) (first second : PureFormat),
      unblanked (frame.pureText first) = unblanked (frame.pureText second)) ∧
    (∀ (holds : Sql.Expression) (d : Sql.Dialect) (depth : Nat) (format : Sql.Format),
      (Sql.Node.criteria (.condition holds)).render d depth format =
        ((Sql.Node.expression holds).render d depth format).map fun text ↦
          "ON (" ++ strippedText Sql.quoteChars text ++ ")") ∧
    ∀ (e : Expr) (format : PureFormat), Doc.laid format.layout e.toPure = e.toPure :=
  ⟨Sql.Node.map_unblanked_render, fun _ _ _ ↦ Layout.unblanked_render _ _ _,
    Sql.Node.render_condition, fun e format ↦ e.unbroken_toPure.laid_eq format.layout⟩

end FrameQuery
