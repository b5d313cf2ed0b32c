import FrameQuery.Json.Decoding
import FrameQuery.Json.Reader
import FrameQuery.Types.Reading

/-!
# Schema documents

A schema document lists columns and the enumerations they refer to. Wherever it has a list, a single
entry may stand for the list of that entry. A column is of a primitive or precise type, unless its
`_type` says otherwise; then its type names an enumeration.
-/

namespace FrameQuery.Schema

/-- A column as a document describes it. -/
structure ColumnEntry where
  kind : Option String
  name : String
  type : String
  deriving DecidableEq, Repr

/-- An enumeration as a document describes it. -/
structure EnumEntry where
  type : String
  values : List String
  deriving DecidableEq, Repr

/-- What a document describes. -/
structure Document where
  columns : List ColumnEntry
  enums : List EnumEntry
  deriving DecidableEq, Repr

/-- The fields of a record with `fields`, of which the first `needed` have to be there in a record
that is written as an array. A field of an object may not be repeated. -/
def fields (names : List String) (needed : Nat) : Json → Option (List (String × Json))
  | .object members =>
    if names.all fun name ↦ (members.filter (·.1 == name)).length ≤ 1 then some members else none
  | .array items =>
    if needed ≤ items.length ∧ items.length ≤ names.length then some (names.zip items) else none
  | _ => none

/-- A single entry, or a list of entries. -/
def oneOrMany {α : Type} (decode : Json → Option α) (json : Json) : Option (List α) :=
  match decode json with
  | some entry => some [entry]
  | none => Json.list? decode json

mutual

/-- Whether every number is in the range of doubles and every string is a text. -/
def isPlain : Json → Bool
  | .unpaired => false
  | .integer n => (Json.double? (.integer n)).isSome
  | .decimal negative digits exponent => (Json.double? (.decimal negative digits exponent)).isSome
  | .array items => itemsArePlain items
  | .object members => membersArePlain members
  | _ => true

/-- Whether the items of an array are plain. -/
def itemsArePlain : List Json → Bool
  | [] => true
  | item :: rest => isPlain item && itemsArePlain rest

/-- Whether the members of an object are plain. -/
def membersArePlain : List (String × Json) → Bool
  | [] => true
  | (_, value) :: rest => isPlain value && membersArePlain rest

end

/-- Whether a list of a document keeps the limits: it is nested at most 126 levels deep, its numbers
are in the range of doubles, and its strings are texts. -/
def keepsLimits (json : Json) : Bool := json.depth ≤ 126 && isPlain json

/-- A list of a document. -/
def listed {α : Type} (decode : Json → Option α) (json : Json) : Option (List α) :=
  if keepsLimits json then oneOrMany decode json else none

namespace ColumnEntry

/-- Reads a column. -/
def ofJson? (json : Json) : Option ColumnEntry := do
  let m ← fields ["_type", "name", "type"] 3 json
  return ⟨← Json.optional Json.string? "_type" m, ← Json.required Json.string? "name" m,
    ← Json.required Json.string? "type" m⟩

end ColumnEntry

namespace EnumEntry

/-- Reads an enumeration. -/
def ofJson? (json : Json) : Option EnumEntry := do
  let m ← fields ["type", "values"] 2 json
  return ⟨← Json.required Json.string? "type" m,
    ← Json.required (oneOrMany Json.string?) "values" m⟩

end EnumEntry

namespace Document

/-- Reads a document; one without enumerations has none. -/
def ofJson? (json : Json) : Option Document := do
  let m ← fields ["columns", "enums"] 1 json
  let enums ← match Json.lookup "enums" m with
    | none => some []
    | some value => listed EnumEntry.ofJson? value
  return ⟨← Json.required (listed ColumnEntry.ofJson?) "columns" m, enums⟩

end Document

/-- The column of a primitive or precise type. -/
def columnOfType (name type : String) : Outcome Column :=
  match (Named.ofName? type : Option PrimitiveType) with
  | some type => .ok { name, type }
  | none =>
    match PreciseType.ofText type with
    | .ok type => .ok (.precise name type)
    | .error _ => fail (.columnTypeName type)

/-- Whether a column is of a primitive or precise type. -/
def ColumnEntry.isPrimitive (entry : ColumnEntry) : Bool :=
  match entry.kind with
  | none => true
  | some kind => kind == "primitiveSchemaColumn"

/-- The column an entry describes. -/
def ColumnEntry.column (enums : List EnumEntry) (entry : ColumnEntry) : Outcome Column :=
  if entry.isPrimitive then columnOfType entry.name entry.type
  else
    match enums.find? (·.type == entry.type) with
    | some found => .ok (.ofEnum entry.name ⟨entry.type, found.values⟩)
    | none => fail (.enumTypeName entry.type)

/-- The columns several entries describe. -/
def columnsOf (enums : List EnumEntry) : List ColumnEntry → Outcome (List Column)
  | [] => .ok []
  | entry :: rest => do
    let column ← entry.column enums
    return column :: (← columnsOf enums rest)

/-- The columns a schema document describes. Other failures than that of reading it hint at the
document. -/
def columnsOfText (text : String) : Outcome (List Column) :=
  match (Json.ofText? text).bind Document.ofJson? with
  | none => .error { cause := .schemaText text, hints := ["not a schema document"] }
  | some document =>
    hinting (Cause.reason (.schemaText text)) (columnsOf document.enums document.columns)

/-- A precise type in JSON. -/
def preciseTypeJson : PreciseType → Json
  | .varchar none => .object [("Varchar", .null)]
  | .varchar (some length) => .object [("Varchar", .integer length.toNat)]
  | .numeric precision scale =>
    .object [("Numeric", .object [("precision", .integer precision.toNat),
      ("scale", .integer scale.toNat)])]
  | type => .string type.head

/-- A column in JSON; what is not known of it is left out. -/
def columnJson (column : Column) : Json :=
  .presentMembers [("name", some (.string column.name)), ("type", some (.string column.type.name)),
    ("precise_type", column.preciseType.map preciseTypeJson),
    ("enumeration", column.enumeration.map fun e ↦
      .object [("name", .string e.name), ("values", .strings e.values)])]

end FrameQuery.Schema
