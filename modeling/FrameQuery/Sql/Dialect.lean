import FrameQuery.Named
import FrameQuery.Text.Doc
import FrameQuery.Text.Quoted

/-!
# Dialects

What one SQL database writes differently from another: the character around quoted identifiers, the
words that have to be quoted, how intervals are written, and to which of two families of clauses and
functions it belongs. The layout of SQL text is the same for all of them.
-/

namespace FrameQuery.Sql

/-- Families of clauses and functions. -/
inductive Family where
  /-- A range of rows is `LIMIT` and `OFFSET`. -/
  | standard
  /-- A range of rows is `TOP`, or `OFFSET` and `FETCH` behind an order. -/
  | transact
  deriving DecidableEq, Repr

/-- What a database writes in its own way. -/
structure Dialect where
  /-- The character around quoted identifiers. -/
  quote : Char := '"'
  /-- Identifiers that are always quoted. -/
  reserved : List String := ["kerberos", "date", "first"]
  /-- Whether intervals are written as quoted text. -/
  quotesIntervals : Bool := false
  family : Family := .standard
  deriving DecidableEq, Repr

namespace Dialect

/-- An identifier between quotes. -/
def quoted (d : Dialect) (identifier : String) : String := Quoted.doubled d.quote identifier

/-- An identifier as it is written: between quotes if that is asked for or the word is reserved. -/
def identifier (d : Dialect) (identifier : String) (forced : Bool) : String :=
  if forced || d.reserved.contains identifier then d.quoted identifier else identifier

end Dialect

/-- The databases that are known by name. -/
inductive Database where
  | postgres
  | generic
  | msSql
  deriving DecidableEq, Repr

instance : Named Database where
  values := [.postgres, .generic, .msSql]
  name
    | .postgres => "Postgres"
    | .generic => "Generic"
    | .msSql => "MsSql"

/-- The dialect of a database. -/
def Database.dialect : Database → Dialect
  | .postgres =>
    { reserved := ["kerberos", "date", "first", "user", "order", "group", "select", "table", "from",
        "where"]
      quotesIntervals := true }
  | .generic => {}
  | .msSql => { family := .transact }

/-- The layout of SQL text. -/
structure Format where
  /-- Whether clauses stand on indented lines of their own. -/
  pretty : Bool := true
  /-- Levels by which the text is indented. -/
  indentCount : Nat := 0
  deriving DecidableEq, Repr

namespace Format

/-- Everything on one line. -/
def compact : Format := { pretty := false }

/-- One level further in. -/
def pushIndent (format : Format) : Format := { format with indentCount := format.indentCount + 1 }

/-- A level of SQL text is four blanks wide. -/
def layout (format : Format) : Layout := ⟨format.pretty, 4, format.indentCount⟩

/-- The blanks between two tokens, `delta` levels further in. -/
def separator (format : Format) (delta : Nat) : String := format.layout.render (.gap delta)

/-- The blanks next to a parenthesis, `delta` levels further in. -/
def parenSeparator (format : Format) (delta : Nat) : String := format.layout.render (.seam delta)

end Format

end FrameQuery.Sql
