/-!
# Text before layout

A rendered statement is first a `Doc`: its characters, and breaks that know how deep they stand.
A `Layout` then says what a break is written as, a line break with indentation or next to nothing.
What a statement says therefore cannot depend on how it is laid out.
-/

namespace FrameQuery

/-- One unit of a document. -/
inductive Glyph where
  /-- A character of the text itself. -/
  | char (c : Char)
  /-- A break between two tokens that must stay apart, `depth` levels deep. -/
  | gap (depth : Nat)
  /-- A break next to a bracket, `depth` levels deep; compact text has nothing there. -/
  | seam (depth : Nat)
  deriving DecidableEq, Repr

/-- A text whose breaks are not written yet. -/
abbrev Doc := List Glyph

namespace Doc

/-- A text without breaks. -/
def text (s : String) : Doc := s.toList.map .char

instance : Coe String Doc := ⟨text⟩

/-- A single break between two tokens. -/
def gap (depth : Nat) : Doc := [.gap depth]

/-- A single break next to a bracket. -/
def seam (depth : Nat) : Doc := [.seam depth]

/-- The documents in order, with `separator` between neighbours. -/
def sepBy (separator : Doc) (docs : List Doc) : Doc := separator.intercalate docs

/-- The documents in order, with a comma and a blank between neighbours. -/
def commaSep (docs : List Doc) : Doc := sepBy ", " docs

end Doc

/-- How breaks are written. -/
structure Layout where
  /-- Whether every break starts a new line. -/
  pretty : Bool
  /-- Blanks per level of depth. -/
  step : Nat
  /-- Levels by which the whole text is moved to the right. -/
  base : Nat
  deriving DecidableEq, Repr

namespace Layout

/-- A new line indented for something `depth` levels deep. -/
def newline (layout : Layout) (depth : Nat) : List Char :=
  '\n' :: List.replicate (layout.step * (layout.base + depth)) ' '

/-- The characters one glyph is written as. -/
def write (layout : Layout) : Glyph → List Char
  | .char c => [c]
  | .gap depth => if layout.pretty then layout.newline depth else [' ']
  | .seam depth => if layout.pretty then layout.newline depth else []

/-- The characters a document is written as. -/
def chars (layout : Layout) (doc : Doc) : List Char := doc.flatMap layout.write

/-- The text a document is written as. -/
def render (layout : Layout) (doc : Doc) : String := String.ofList (layout.chars doc)

end Layout

end FrameQuery
