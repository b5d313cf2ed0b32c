import FrameQuery.Json.Value
import FrameQuery.Named

/-!
# Reading values out of JSON

Decoders of the usual shapes. A record is an object with its fields as members, or an array of all
its fields in order; members that are no field are left out of account. An optional field may be
absent or null. A variant is an object with one member, or without content its name alone.
-/

namespace FrameQuery.Json

/-- A truth value. -/
def boolean? : Json → Option Bool
  | .boolean value => some value
  | _ => none

/-- A text. -/
def string? : Json → Option String
  | .string value => some value
  | _ => none

/-- A number that was written as an integer. -/
def integer? : Json → Option Int
  | .integer value => some value
  | _ => none

/-- An integer of 64 bits. -/
def int64? (json : Json) : Option Int64 := do
  let n ← json.integer?
  if Int64.minValue.toInt ≤ n ∧ n ≤ Int64.maxValue.toInt then some (.ofInt n) else none

/-- An unsigned integer of 32 bits. -/
def uint32? (json : Json) : Option UInt32 := do
  let n ← json.integer?
  if 0 ≤ n ∧ n < UInt32.size then some (.ofNat n.toNat) else none

/-- A count, an unsigned integer of 64 bits. -/
def count? (json : Json) : Option Nat := do
  let n ← json.integer?
  if 0 ≤ n ∧ n < UInt64.size then some n.toNat else none

/-- The double nearest to a number; numbers beyond the largest double are refused. -/
def double? (json : Json) : Option Double := do
  let x ← match json with
    | .integer n => some (Double.ofDecimal (n < 0) n.natAbs 0)
    | .decimal negative digits exponent => some (.ofDecimal negative digits exponent)
    | _ => none
  if x.isFinite then some x else none

/-- An array of values of one kind. -/
def list? {α : Type} (decode : Json → Option α) : Json → Option (List α)
  | .array items => items.mapM decode
  | _ => none

/-- The fields of a record. -/
def record? (fields : List String) : Json → Option (List (String × Json))
  | .object members => some members
  | .array items => if items.length = fields.length then some (fields.zip items) else none
  | _ => none

/-- A field that has to be there. -/
def required {α : Type} (decode : Json → Option α) (key : String)
    (members : List (String × Json)) : Option α := do
  decode (← lookup key members)

/-- A field that may be absent or null. -/
def optional {α : Type} (decode : Json → Option α) (key : String)
    (members : List (String × Json)) : Option (Option α) :=
  match lookup key members with
  | none | some .null => some none
  | some value => (decode value).map some

/-- The name of a variant, and its content if there is one. -/
def variant? : Json → Option (String × Option Json)
  | .string name => some (name, none)
  | .object [(name, .null)] => some (name, none)
  | .object [(name, content)] => some (name, some content)
  | _ => none

/-- A value of a closed list. -/
def named? {α : Type} [Named α] (json : Json) : Option α := do
  match ← json.variant? with
  | (name, none) => Named.ofName? name
  | (_, some _) => none

end FrameQuery.Json
