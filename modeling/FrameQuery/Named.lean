/-!
# Closed lists of named values

A type with finitely many values, each with its own name. The name is what documents and
diagnostics call the value.
-/

namespace FrameQuery

/-- A type whose values are listed and named. -/
class Named (α : Type) where
  /-- All values. -/
  values : List α
  /-- The name of a value. -/
  name : α → String

namespace Named

variable {α : Type} [Named α]

/-- The value with a name, if there is one. -/
def ofName? (s : String) : Option α := (values : List α).find? fun v ↦ name v == s

/-- The value with a name, the case of ASCII letters left out of account. -/
def ofAnyCase? (s : String) : Option α :=
  (values : List α).find? fun v ↦ (name v).toLower == s.toLower

end Named

end FrameQuery
