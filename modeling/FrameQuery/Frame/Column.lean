import FrameQuery.Types.Precise

/-!
# Columns

A column has a name and a primitive type, and may say more about its values: how they are stored,
or which texts they are drawn from.
-/

namespace FrameQuery

/-- An enumeration of texts. -/
structure EnumType where
  name : String
  values : List String
  deriving DecidableEq, Repr

/-- Name and type of a column. -/
structure Column where
  name : String
  type : PrimitiveType
  preciseType : Option PreciseType := none
  enumeration : Option EnumType := none
  deriving DecidableEq, Repr

namespace Column

/-- A column of a precise type has the primitive type that is refined. -/
def precise (name : String) (type : PreciseType) : Column :=
  { name, type := type.base, preciseType := some type }

/-- A column of an enumeration holds texts. -/
def ofEnum (name : String) (enumeration : EnumType) : Column :=
  { name, type := .string, enumeration := some enumeration }

/-- The same column under another name. -/
def renamed (column : Column) (name : String) : Column := { column with name }

/-- The name of the most specific type that is known. -/
def typeName (column : Column) : String :=
  match column.enumeration, column.preciseType with
  | some e, _ => e.name
  | none, some p => p.toText
  | none, none => column.type.name

/-- A column as it is shown to users. -/
def toText (column : Column) : String :=
  "TdsColumn(Name: " ++ column.name ++ ", Type: " ++ column.typeName ++ ")"

/-- The first column with a name. -/
def find? (columns : List Column) (name : String) : Option Column :=
  columns.find? (·.name == name)

/-- The names of columns, in order. -/
def names (columns : List Column) : List String := columns.map (·.name)

end Column

end FrameQuery
