import FrameQuery.Frame.Column
import FrameQuery.Sql.Tree

/-!
# Errors

An error is a cause with hints. The kind of an error and its wording follow from the cause; both
are stated here and nowhere else.
-/

namespace FrameQuery

/-- Kinds of errors. -/
inductive ErrorKind where
  /-- An operator or function was applied to a value of the wrong type. -/
  | typeMismatch
  /-- A column was named that does not exist. -/
  | unknownColumn
  /-- A frame would have two columns of one name. -/
  | duplicateColumn
  /-- Two lists that belong together differ in length. -/
  | arityMismatch
  /-- Another rule for building frames was broken. -/
  | validation
  /-- No generator, or more than one, serves a database type. -/
  | unknownDialect
  /-- The target cannot express what was asked for. -/
  | unsupported
  /-- Something happened that never should. -/
  | internal
  deriving DecidableEq, Repr

instance : Named ErrorKind where
  values := [.typeMismatch, .unknownColumn, .duplicateColumn, .arityMismatch, .validation,
    .unknownDialect, .unsupported, .internal]
  name
    | .typeMismatch => "TypeMismatch"
    | .unknownColumn => "UnknownColumn"
    | .duplicateColumn => "DuplicateColumn"
    | .arityMismatch => "ArityMismatch"
    | .validation => "Validation"
    | .unknownDialect => "UnknownDialect"
    | .unsupported => "Unsupported"
    | .internal => "Internal"

/-- What an operation asks of an operand. -/
inductive Expectation where
  | numeric
  | integer
  | string
  | boolean
  | date
  deriving DecidableEq, Repr

namespace Expectation

/-- An expectation in words. -/
def words : Expectation → String
  | .numeric => "a numeric"
  | .integer => "an Integer"
  | .string => "a String"
  | .boolean => "a Boolean"
  | .date => "a date"

/-- Whether a type meets an expectation. -/
def isMetBy : Expectation → PrimitiveType → Bool
  | .numeric, type => type.isNumeric
  | .integer, type => type == .integer
  | .string, type => type == .string
  | .boolean, type => type == .boolean
  | .date, type => type.isDate

end Expectation

/-- Why something failed. -/
inductive Cause where
  -- values of the wrong type
  | operandType (operation : String) (expected : Expectation) (actual : PrimitiveType)
  | incomparable (left right : PrimitiveType) (operator : Sql.ComparisonOperator)
  | listItemType (value item : PrimitiveType)
  | branchTypes (result otherwise : PrimitiveType)
  | sortTarget
  | columnType (column : String) (actual expected : PrimitiveType)
  | aggregateType (function : Sql.AggregateFunction) (wanted : String) (actual : PrimitiveType)
  | joinedType (actual : PrimitiveType)
  | conditionType (function : String) (actual : PrimitiveType)
  | roundScale (scale : Sql.Expression)
  -- columns that do not exist
  | rowColumn (column : String) (columns : List String)
  | listedColumn (column context : String) (columns : List String)
  -- columns that exist twice
  | tableDuplicates (parts columns : List String)
  | newDuplicates (columns : List String)
  | newShadows (column : String)
  | listDuplicates (context : String) (columns : List String)
  | projectDuplicates (columns : List String)
  | renameOldDuplicates (columns : List String)
  | renameNewDuplicates (columns : List String)
  | renameShadows (column : String) (columns : List String)
  | groupDuplicates (grouping aggregates : List String)
  | joinDuplicates (left right : List String)
  -- rules for building frames and types
  | emptyList
  | bucketCount (buckets : Int64)
  | tableParts (parts : List String)
  | tableWithoutColumns (parts : List String)
  | withoutColumns (function : String)
  | withoutSortKeys
  | withoutGroups
  | projectAggregate (column : String)
  | groupPlain (column : String)
  | negativeStart (start : Int64)
  | emptySlice (start stop : Int64)
  | negativeCount (function : String) (count : Int64)
  | joinKind (text : String)
  | columnCounts (left right : List Column)
  | columnMismatch (index : Nat) (left right : Column)
  | preciseType (text : String)
  | numericScale (precision scale : UInt32)
  | columnTypeName (text : String)
  | enumTypeName (text : String)
  | schemaText (text : String)
  | resultText (fault : String)
  -- generators
  | generatorCount (tag : String) (found : List String)
  -- targets
  | asOfJoin
  | withoutService
  -- should never happen
  | boundWithoutValue
  | unlabelledColumn
  | allColumns
  | renamedAllColumns
  | unboundRow (row : String)
  | missingColumn (column : String)
  /-- An error of the program that uses the library. -/
  | reported (kind : ErrorKind) (reason : String)

namespace Cause

/-- The kind of a cause. -/
def kind : Cause → ErrorKind
  | operandType .. | incomparable .. | listItemType .. | branchTypes .. | sortTarget
  | columnType .. | aggregateType .. | joinedType .. | conditionType .. | roundScale .. =>
    .typeMismatch
  | rowColumn .. | listedColumn .. => .unknownColumn
  | tableDuplicates .. | newDuplicates .. | newShadows .. | listDuplicates ..
  | projectDuplicates .. | renameOldDuplicates .. | renameNewDuplicates .. | renameShadows ..
  | groupDuplicates .. | joinDuplicates .. => .duplicateColumn
  | emptyList | bucketCount .. | tableParts .. | tableWithoutColumns .. | withoutColumns ..
  | withoutSortKeys | withoutGroups | projectAggregate .. | groupPlain .. | negativeStart ..
  | emptySlice .. | negativeCount .. | joinKind .. | columnCounts .. | columnMismatch ..
  | preciseType .. | numericScale .. | columnTypeName .. | enumTypeName .. | schemaText ..
  | resultText .. => .validation
  | generatorCount .. => .unknownDialect
  | asOfJoin | withoutService => .unsupported
  | boundWithoutValue | unlabelledColumn | allColumns | renamedAllColumns | unboundRow ..
  | missingColumn .. => .internal
  | reported kind _ => kind

/-- Names between single quotes in a list. -/
def nameList (names : List String) : String :=
  "[" ++ ", ".intercalate (names.map fun n ↦ "'" ++ n ++ "'") ++ "]"

/-- The number of columns and the columns themselves. -/
def describe (columns : List Column) : String :=
  "(Count: " ++ toString columns.length ++ ") - [" ++
    ", ".intercalate (columns.map (·.toText)) ++ "]"

/-- The text of a 64 bit number. -/
def int (n : Int64) : String := toString n.toInt

/-- The wording of a cause. What should never happen is announced as such. -/
def reason : Cause → String
  | operandType operation expected actual =>
    operation ++ " expects " ++ expected.words ++ " operand, got " ++ actual.name
  | incomparable left right operator =>
    "Cannot compare " ++ left.name ++ " with " ++ right.name ++ " using '" ++ operator.symbol ++ "'"
  | listItemType value item =>
    "in_list of " ++ value.name ++ " cannot contain a " ++ item.name ++ " value"
  | branchTypes result otherwise =>
    "if_else branches have incompatible types " ++ result.name ++ " and " ++ otherwise.name
  | sortTarget => "Sort direction can only be applied to a column reference"
  | columnType column actual expected =>
    "Column - '" ++ column ++ "' is of type " ++ actual.name ++ ", not " ++ expected.name
  | aggregateType function wanted actual =>
    function.function ++ " aggregation expects " ++ wanted ++ " values, got " ++ actual.name
  | joinedType actual => "joinStrings expects String values, got " ++ actual.name
  | conditionType function actual =>
    function ++ " function incompatible. Returns non boolean - " ++ actual.name
  | roundScale scale => "Unexpected round argument type - " ++ scale.tree.shown
  | rowColumn column columns =>
    "Column - '" ++ column ++ "' doesn't exist in the current frame. Current frame columns: " ++
      nameList columns
  | listedColumn column context columns =>
    "Column - '" ++ column ++ "' in " ++ context ++
      " columns list doesn't exist in the current frame. Current frame columns: " ++
      nameList columns
  | tableDuplicates parts columns =>
    "Found duplicate column names in table " ++ ".".intercalate parts ++ ": " ++ nameList columns
  | newDuplicates columns => "Extend column names list has duplicates: " ++ nameList columns
  | newShadows column => "Extend column name - '" ++ column ++ "' already exists in base frame"
  | listDuplicates context columns =>
    "Column names list of " ++ context ++ " function has duplicates: " ++ nameList columns
  | projectDuplicates columns => "Project column names list has duplicates: " ++ nameList columns
  | renameOldDuplicates columns =>
    "column_names list shouldn't have duplicates when renaming columns.\n" ++
      "column_names list - (Count: " ++ toString columns.length ++ ") - " ++ nameList columns ++
      "\n"
  | renameNewDuplicates columns =>
    "renamed_column_names_list list shouldn't have duplicates when renaming columns.\n" ++
      "renamed_column_names_list - (Count: " ++ toString columns.length ++ ") - " ++
      nameList columns ++ "\n"
  | renameShadows column columns =>
    "Column - '" ++ column ++ "' in renamed columns list already exists in the current frame. " ++
      "Current frame columns: " ++ nameList columns
  | groupDuplicates grouping aggregates =>
    "Found duplicate column names in grouping columns and aggregation columns. " ++
      "Grouping columns - " ++ nameList grouping ++ ", Aggregation columns - " ++
      nameList aggregates
  | joinDuplicates left right =>
    "Found duplicate columns in joined frames. Use rename function to ensure there are no " ++
      "duplicate columns in joined frames. Columns - Left Frame: " ++ nameList left ++
      ", Right Frame: " ++ nameList right
  | emptyList => "in_list needs at least one value"
  | bucketCount buckets =>
    "Number of buckets argument of ntile function must be positive. Buckets: " ++ int buckets
  | tableParts parts => "Table name parts cannot be empty. Parts: " ++ nameList parts
  | tableWithoutColumns parts =>
    "Table " ++ ".".intercalate parts ++ " must have at least one column"
  | withoutColumns function =>
    "At-least one column must be provided when using " ++ function ++ " function"
  | withoutSortKeys => "At-least one sort column must be provided when using sort function"
  | withoutGroups =>
    "At-least one grouping column or aggregate specification must be provided when using " ++
      "group_by function"
  | projectAggregate column =>
    "Project column - '" ++ column ++
      "' cannot be aggregated. Use group_by or extend for aggregations"
  | groupPlain column =>
    "Aggregate column - '" ++ column ++
      "' of group_by function must have an aggregation function"
  | negativeStart start =>
    "Start row argument of slice function cannot be negative. Start row: " ++ int start
  | emptySlice start stop =>
    "End row argument of slice function cannot be less than or equal to start row argument. " ++
      "Start row: " ++ int start ++ ", End row: " ++ int stop
  | negativeCount function count =>
    "Row count argument of " ++ function ++ " function cannot be negative. Row count: " ++ int count
  | joinKind text =>
    "Unknown join type - " ++ text ++ ". Supported types are - INNER, LEFT_OUTER, RIGHT_OUTER"
  | columnCounts left right =>
    "Cannot concatenate two Tds Frames with different column counts. \nFrame 1 cols - " ++
      describe left ++ " \nFrame 2 cols - " ++ describe right ++ " \n"
  | columnMismatch index left right =>
    "Column name/type mismatch when concatenating Tds Frames at index " ++ toString index ++
      ". Frame 1 column - " ++ left.toText ++ ", Frame 2 column - " ++ right.toText
  | preciseType text => "Unknown precise type - " ++ text
  | numericScale precision scale =>
    "Numeric precision (" ++ toString precision.toNat ++ ") cannot be less than its scale (" ++
      toString scale.toNat ++ ")"
  | columnTypeName text => "Unknown column type - " ++ text
  | enumTypeName text => "Unknown enum type: " ++ text
  | schemaText text => "Unable to parse tds columns from schema: \n" ++ text
  | resultText fault => "Execution result is not valid UTF-8: " ++ fault
  | generatorCount tag found =>
    "Found no (or multiple) sql to string generators for database type '" ++ tag ++
      "'. Found generators: [" ++ ", ".intercalate found ++ "]"
  | asOfJoin => "AsOfJoin SQL translation not supported yet"
  | withoutService => "Executing a frame requires an execution service"
  | boundWithoutValue => "internal error; frame bound offset without a value"
  | unlabelledColumn =>
    "internal error; Subquery creation not supported for queries with SingleColumns with " ++
      "missing alias"
  | allColumns =>
    "internal error; Subquery creation not supported for queries with columns other than " ++
      "SingleColumn"
  | renamedAllColumns =>
    "internal error; Rename columns operation not supported for queries with columns other than " ++
      "SingleColumn"
  | unboundRow row => "internal error; frame " ++ "\x60" ++ row ++ "\x60" ++ " is not bound"
  | missingColumn column => "internal error; Cannot find column: " ++ column
  | reported .internal reason => "internal error; " ++ reason
  | reported _ reason => reason

end Cause

/-- A failure: its cause, and hints gathered on the way to the caller. -/
structure Error where
  cause : Cause
  hints : List String := []

namespace Error

/-- The kind of an error. -/
def kind (e : Error) : ErrorKind := e.cause.kind

/-- The error with one more hint. -/
def pushHint (e : Error) (hint : String) : Error := { e with hints := e.hints ++ [hint] }

/-- The error with these hints instead of its own. -/
def withHints (e : Error) (hints : List String) : Error := { e with hints }

/-- The reason, and each hint on a line of its own. -/
def message (e : Error) : String :=
  e.cause.reason ++ String.join (e.hints.map fun h ↦ "\n↳ Hint: " ++ h)

end Error

/-- The outcome of an operation that may fail. -/
abbrev Outcome (α : Type) := Except Error α

/-- Fails for a cause, without hints. -/
def fail {α : Type} (cause : Cause) : Outcome α := .error { cause }

/-- Checks a condition. -/
def require (condition : Bool) (cause : Cause) : Outcome Unit :=
  if condition then .ok () else fail cause

/-- Adds a hint to a failure. -/
def hinting {α : Type} (hint : String) : Outcome α → Outcome α
  | .ok a => .ok a
  | .error e => .error (e.pushHint hint)

end FrameQuery
