import FrameQuery.Error
import FrameQuery.Sql.Dialect

/-!
# The parts of statements

How constants, clauses and calls are put together from parts that are already documents. A clause
that is absent is the empty document. Parts that may fail are given as outcomes; they are looked at
from left to right, and only where the clause is written.
-/

namespace FrameQuery.Sql

/-- The decimal text of an integer. -/
def intDoc (n : Int64) : Doc := Doc.text (toString n.toInt)

/-- A document between parentheses, on lines of its own. -/
def parens (depth : Nat) (inner : Doc) : Doc :=
  "(" ++ Doc.seam (depth + 1) ++ inner ++ Doc.seam depth ++ ")"

/-- A call with arguments separated by commas. -/
def callDoc (function : String) (arguments : List Doc) : Doc :=
  Doc.text function ++ "(" ++ Doc.commaSep arguments ++ ")"

/-- Two operands with a word between them, in parentheses. -/
def infixDoc (word : String) (left right : Doc) : Doc :=
  "(" ++ left ++ " " ++ word ++ " " ++ right ++ ")"

/-- Entries on lines of their own, one level further in, separated by commas. -/
def entries (depth : Nat) (docs : List Doc) : Doc :=
  Doc.gap (depth + 1) ++ Doc.sepBy ("," ++ Doc.gap (depth + 1)) docs

/-- A clause of entries on a line of its own. -/
def listClause (keyword : String) (depth : Nat) (docs : List Doc) : Doc :=
  if docs.isEmpty then [] else Doc.gap depth ++ keyword ++ entries depth docs

/-- A clause with one entry on a line of its own. -/
def entryClause (keyword : String) (depth : Nat) : Option Doc → Doc
  | none => []
  | some entry => Doc.gap depth ++ keyword ++ entries depth [entry]

/-- Writes an optional part. -/
def optionally (write : Doc → Doc) : Option (Outcome Doc) → Outcome Doc
  | none => .ok []
  | some part => part.map write

namespace Dialect

/-- A qualified name. -/
def nameDoc (d : Dialect) (name : QualifiedName) : Doc :=
  Doc.sepBy "." (name.parts.map fun part ↦ Doc.text (d.identifier part false))

/-- A span of time. -/
def intervalDoc (d : Dialect) (interval : IntervalLiteral) : Doc :=
  let span : Doc := intDoc interval.amount ++ " " ++ interval.unit.keyword
  if d.quotesIntervals then "INTERVAL '" ++ span ++ "'" else "INTERVAL " ++ span

/-- A constant. -/
def literalDoc (d : Dialect) : Literal → Doc
  | .boolean value => if value then "true" else "false"
  | .integer value => intDoc value
  | .double value => value.toText
  | .string value true => value
  | .string value false => Quoted.doubled '\'' value
  | .null => "null"
  | .interval span => d.intervalDoc span

/-- The number of rows, where it belongs before the select list. -/
def topClause (d : Dialect) (limit offset : Option (Outcome Doc)) : Outcome Doc :=
  match d.family, limit, offset with
  | .transact, some limit, none => limit.map fun limit ↦ " TOP " ++ limit
  | _, _, _ => .ok []

/-- The order of rows. In the `transact` family rows are skipped only behind an order, so that one
is written even where none is asked for. -/
def orderClause (d : Dialect) (depth : Nat) (keys : List Doc) (skipping : Bool) : Doc :=
  if d.family = .transact ∧ keys.isEmpty ∧ skipping then Doc.gap depth ++ "ORDER BY (SELECT NULL)"
  else listClause "ORDER BY" depth keys

end Dialect

/-- The range of rows as `LIMIT` and `OFFSET`. -/
def pageClause (depth : Nat) (limit offset : Option (Outcome Doc)) : Outcome Doc := do
  let limit ← optionally (fun n ↦ Doc.gap depth ++ "LIMIT " ++ n) limit
  let offset ← optionally (fun n ↦ Doc.gap depth ++ "OFFSET " ++ n) offset
  return limit ++ offset

/-- The range of rows, where it belongs at the end. -/
def Dialect.rangeClause (d : Dialect) (depth : Nat) (limit offset : Option (Outcome Doc)) :
    Outcome Doc :=
  match d.family, offset with
  | .standard, _ => pageClause depth limit offset
  | .transact, none => .ok []
  | .transact, some offset => do
    let offset ← offset
    let fetch ← optionally (fun n ↦ Doc.gap depth ++ "FETCH NEXT " ++ n ++ " ROWS ONLY") limit
    return Doc.gap depth ++ "OFFSET " ++ offset ++ " ROWS" ++ fetch

end FrameQuery.Sql
