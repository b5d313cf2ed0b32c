import FrameQuery.Expr.Pure
import FrameQuery.Frame.Basic

/-!
# Frames in PURE

A table is written by its name, and every transformation as a step behind the text of the frame it
is applied to. Steps and the longer argument lists stand on lines of their own; the frames and
conditions of joins are indented with the arguments they are.
-/

namespace FrameQuery

open PureText

/-- Options of PURE text. -/
structure PureFormat where
  /-- Whether every step stands on a line of its own. -/
  pretty : Bool := true
  /-- Levels by which the text is indented. -/
  indentCount : Nat := 0
  deriving DecidableEq, Repr

namespace PureFormat

/-- Everything on one line. -/
def compact : PureFormat := { pretty := false }

/-- Several levels further in. -/
def pushIndent (format : PureFormat) (levels : Nat) : PureFormat :=
  { format with indentCount := format.indentCount + levels }

/-- A level of PURE text is two blanks wide. -/
def layout (format : PureFormat) : Layout := ⟨format.pretty, 2, format.indentCount⟩

/-- The blanks between two tokens, `delta` levels further in. Unless they are `forced` apart, nothing
stands between them in compact text. -/
def separator (format : PureFormat) (delta : Nat) (forced : Bool) : String :=
  format.layout.render (if forced then .gap delta else .seam delta)

end PureFormat

namespace ComputedColumn

/-- A column with the lambda that computes it, and the one that reduces its values. -/
def toPure (c : ComputedColumn) (parameters : String) : Doc :=
  let map := Doc.text (columnName c.name) ++ ":" ++ lambda parameters c.map.toPure
  match c.aggregate with
  | none => map
  | some aggregate => map ++ ":" ++ lambda "c" aggregate.toPure

end ComputedColumn

namespace PureText

/-- Names of columns between brackets. -/
def names (columns : List String) : Doc :=
  "~[" ++ Doc.commaSep (columns.map fun c ↦ Doc.text (columnName c)) ++ "]"

/-- Columns between brackets, each on a line of its own. -/
def columnList (depth : Nat) (columns : List Doc) : Doc :=
  "~[" ++ Doc.seam (depth + 2) ++ Doc.sepBy ("," ++ Doc.gap (depth + 2)) columns ++
    Doc.seam (depth + 1) ++ "]"

/-- A single column, or columns between brackets. -/
def columns (depth : Nat) : List Doc → Doc
  | [column] => "~" ++ column
  | columns => columnList depth columns

/-- Steps that extend a frame. Columns of one kind, plain or aggregated, share a step; otherwise each
column has its own. -/
def extension (depth : Nat) (window : Doc) (parameters : String) (new : List ComputedColumn) :
    List Doc :=
  let items := new.map (·.toPure parameters)
  let kinds := new.map (·.aggregate.isSome)
  if kinds.all (· == kinds.headD false) then
    ["->extend(" ++ window ++ columns depth items ++ ")"]
  else items.map fun item ↦ "->extend(" ++ window ++ "~" ++ item ++ ")"

/-- The condition of a join. -/
def joinCondition (condition : TypedExpr) : Doc := lambda "l, r" condition.toPure

/-- The kind of a join in PURE. -/
def joinKind : JoinKind → String
  | .inner => "JoinKind.INNER"
  | .leftOuter => "JoinKind.LEFT"
  | .rightOuter => "JoinKind.RIGHT"

/-- A step whose arguments stand on lines of their own. -/
def tallStep (depth : Nat) (function : String) (arguments : List Doc) : Doc :=
  Doc.text function ++ "(" ++ Doc.seam (depth + 2) ++
    Doc.sepBy ("," ++ Doc.gap (depth + 2)) arguments ++ Doc.seam (depth + 1) ++ ")"

/-- A frame followed by steps. -/
def steps (depth : Nat) (base : Doc) (docs : List Doc) : Doc :=
  base ++ docs.flatMap fun doc ↦ Doc.seam (depth + 1) ++ doc

end PureText

namespace Frame

/-- A frame in PURE. -/
def toPure : Frame → Nat → Doc
  | table parts _, _ => "#Table(" ++ Doc.text (".".intercalate parts) ++ ")#"
  | filtered base condition, depth =>
    steps depth (base.toPure depth) ["->filter(" ++ lambda "r" condition.toPure ++ ")"]
  | selected base columns, depth =>
    steps depth (base.toPure depth) ["->select(" ++ names columns ++ ")"]
  | distinct base none, depth => steps depth (base.toPure depth) ["->distinct()"]
  | distinct base (some columns), depth =>
    steps depth (base.toPure depth) ["->distinct(" ++ names columns ++ ")"]
  | extended base new, depth => steps depth (base.toPure depth) (extension depth [] "r" new)
  | windowExtended base window new, depth =>
    steps depth (base.toPure depth) (extension depth (window.toPure ++ ", ") "p,w,r" new)
  | projected base new, depth =>
    steps depth (base.toPure depth)
      ["->project(" ++ columnList depth (new.map (·.toPure "r")) ++ ")"]
  | renamed base pairs, depth =>
    steps depth (base.toPure depth) <| pairs.map fun (old, new) ↦
      "->rename(~" ++ Doc.text (columnName old) ++ ", ~" ++ columnName new ++ ")"
  | grouped base grouping aggregates, depth =>
    steps depth (base.toPure depth)
      [tallStep depth "->groupBy"
        [names grouping, "~[" ++ Doc.commaSep (aggregates.map (·.toPure "r")) ++ "]"]]
  | sorted base keys, depth =>
    steps depth (base.toPure depth)
      ["->sort([" ++ Doc.commaSep (keys.map (·.toPure)) ++ "])"]
  | sliced base start stop, depth =>
    steps depth (base.toPure depth)
      ["->slice(" ++ Doc.text (intText start) ++ ", " ++ intText stop ++ ")"]
  | limited base count, depth =>
    steps depth (base.toPure depth) ["->limit(" ++ Doc.text (intText count) ++ ")"]
  | dropped base count, depth =>
    steps depth (base.toPure depth) ["->drop(" ++ Doc.text (intText count) ++ ")"]
  | joined base other condition kind, depth =>
    steps depth (base.toPure depth)
      [tallStep depth "->join"
        [other.toPure (depth + 2), Doc.text (joinKind kind), joinCondition condition]]
  | asOfJoined base other matching condition, depth =>
    steps depth (base.toPure depth)
      [tallStep depth "->asOfJoin" ([other.toPure (depth + 2), joinCondition matching] ++
        (condition.map joinCondition).toList)]
  | concatenated base other, depth =>
    steps depth (base.toPure depth) [tallStep depth "->concatenate" [other.toPure (depth + 2)]]
  | served frame _, depth => frame.toPure depth

/-- The PURE text of a frame. -/
def pureText (frame : Frame) (format : PureFormat) : String := format.layout.render (frame.toPure 0)

end Frame

end FrameQuery
