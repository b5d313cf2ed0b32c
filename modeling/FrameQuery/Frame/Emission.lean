import FrameQuery.Frame.Pure
import FrameQuery.Frame.Sql
import FrameQuery.Json.Decoding
import FrameQuery.Sql.Generator

/-!
# Writing frames for databases

Options of SQL text and the texts of frames for a type of database, whose generator a registry finds.
Options are read from JSON records in which every field may be left out.
-/

namespace FrameQuery

/-- Options of SQL text for frames. -/
structure SqlOptions where
  /-- The tag of the generator to write with. -/
  databaseType : String := "Postgres"
  /-- Whether clauses stand on indented lines of their own. -/
  pretty : Bool := true
  deriving DecidableEq, Repr

namespace SqlOptions

/-- The layout that is asked for. -/
def format (options : SqlOptions) : Sql.Format := if options.pretty then {} else .compact

end SqlOptions

/-- The fields of a record whose fields may all be left out, from the last one on if it is written as
an array. -/
def optionFields (names : List String) : Json → Option (List (String × Json))
  | .object members => some members
  | .array items => if items.length ≤ names.length then some (names.zip items) else none
  | _ => none

/-- A field that has a value of its own if it is left out. -/
def optionField {α : Type} (decode : Json → Option α) (key : String) (value : α)
    (members : List (String × Json)) : Option α :=
  match Json.lookup key members with
  | none => some value
  | some json => decode json

/-- Reads options of SQL text. -/
def SqlOptions.ofJson? (json : Json) : Option SqlOptions := do
  let m ← optionFields ["database_type", "pretty"] json
  return ⟨← optionField Json.string? "database_type" "Postgres" m,
    ← optionField Json.boolean? "pretty" true m⟩

/-- Options of SQL text in JSON. -/
def SqlOptions.toJson (options : SqlOptions) : Json :=
  .object [("database_type", .string options.databaseType), ("pretty", .boolean options.pretty)]

/-- Reads options of PURE text. -/
def PureFormat.ofJson? (json : Json) : Option PureFormat := do
  let m ← optionFields ["pretty", "indent_count"] json
  return ⟨← optionField Json.boolean? "pretty" true m,
    ← optionField Json.count? "indent_count" 0 m⟩

/-- Options of PURE text in JSON. -/
def PureFormat.toJson (format : PureFormat) : Json :=
  .object [("pretty", .boolean format.pretty), ("indent_count", .integer format.indentCount)]

/-- Reads the layout of SQL text. -/
def Sql.Format.ofJson? (json : Json) : Option Sql.Format := do
  let m ← optionFields ["pretty", "indent_count"] json
  return ⟨← optionField Json.boolean? "pretty" true m,
    ← optionField Json.count? "indent_count" 0 m⟩

/-- The layout of SQL text in JSON. -/
def Sql.Format.toJson (format : Sql.Format) : Json :=
  .object [("pretty", .boolean format.pretty), ("indent_count", .integer format.indentCount)]

/-- Reads options that hold nothing but the layout of SQL text. -/
def Sql.Format.ofOptions? (json : Json) : Option Sql.Format := do
  let m ← optionFields ["format"] json
  optionField Sql.Format.ofJson? "format" {} m

namespace Frame

/-- The query of a frame for a type of database. -/
def sqlQuery (frame : Frame) (options : SqlOptions) (registry : Sql.Registry) :
    Outcome Sql.QuerySpecification × Sql.Registry :=
  let (found, registry) := registry.find options.databaseType
  (found.bind fun found ↦ frame.toSql found.generator.dialect, registry)

/-- The SQL text of a frame for a type of database. -/
def sqlText (frame : Frame) (options : SqlOptions) (registry : Sql.Registry) :
    Outcome String × Sql.Registry :=
  let (found, registry) := registry.find options.databaseType
  (found.bind fun found ↦ do
    let query ← frame.toSql found.generator.dialect
    found.generator.render query options.format, registry)

end Frame

end FrameQuery
