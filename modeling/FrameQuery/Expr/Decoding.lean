import FrameQuery.Expr.Window
import FrameQuery.Json.Decoding

/-!
# Sort keys and windows in JSON

Sort keys and windows are records under the names of their parts; a bound is a variant. The frame of
a window and the unit of an offset may be left out.
-/

namespace FrameQuery

open Json (required optional list? record? string? int64? named?)

/-- Reads a sort key. -/
def SortKey.ofJson? (json : Json) : Option SortKey := do
  let m ← record? ["column", "direction"] json
  return ⟨← required string? "column" m, ← required named? "direction" m⟩

/-- A sort key in JSON. -/
def SortKey.toJson (key : SortKey) : Json :=
  .object [("column", .string key.column), ("direction", .string (Named.name key.direction))]

/-- Reads one end of a window frame. -/
def Bound.ofJson? (json : Json) : Option Bound := do
  match ← json.variant? with
  | ("Unbounded", none) => return .unbounded
  | ("Offset", some content) =>
    let m ← record? ["value", "unit"] content
    return .offset (← required int64? "value" m) (← optional named? "unit" m)
  | _ => none

/-- Reads the frame of a window. -/
def FrameSpec.ofJson? (json : Json) : Option FrameSpec := do
  let m ← record? ["mode", "start", "end"] json
  return ⟨← required named? "mode" m, ← required Bound.ofJson? "start" m,
    ← required Bound.ofJson? "end" m⟩

/-- Reads a window. -/
def WindowSpec.ofJson? (json : Json) : Option WindowSpec := do
  let m ← record? ["partition_by", "order_by", "frame"] json
  return ⟨← required (list? string?) "partition_by" m,
    ← required (list? SortKey.ofJson?) "order_by" m, ← optional FrameSpec.ofJson? "frame" m⟩

end FrameQuery
