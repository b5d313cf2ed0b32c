import FrameQuery.Number.Shortest

/-!
# JSON values

Numbers keep their exact value and whether they were written as integers. Objects keep their
members in the order they were written, repeated keys included; a look-up finds the last of them.
-/

namespace FrameQuery

/-- A JSON value. -/
inductive Json where
  | null
  | boolean (value : Bool)
  /-- A number written without point and power of ten. -/
  | integer (value : Int)
  /-- The number `digits · 10 ^ exponent` with a sign, written with a point or a power of ten. -/
  | decimal (negative : Bool) (digits : Nat) (exponent : Int)
  | string (value : String)
  /-- A string in which half of a surrogate pair stands on its own, so that it is no text, or an
  object with such a string as a key. -/
  | unpaired
  | array (items : List Json)
  | object (members : List (String × Json))
  deriving Repr, Inhabited

namespace Json

mutual

/-- Levels of arrays and objects inside each other. -/
def depth : Json → Nat
  | .array items => itemsDepth items + 1
  | .object members => membersDepth members + 1
  | _ => 0

/-- The depth of the deepest item. -/
def itemsDepth : List Json → Nat
  | [] => 0
  | item :: rest => max item.depth (itemsDepth rest)

/-- The depth of the deepest member. -/
def membersDepth : List (String × Json) → Nat
  | [] => 0
  | (_, value) :: rest => max value.depth (membersDepth rest)

end

/-- The last member with a key. -/
def lookup (key : String) : List (String × Json) → Option Json
  | [] => none
  | (k, value) :: rest => (lookup key rest).or (if k = key then some value else none)

/-- The number a double stands for; null for infinities and for no number. -/
def ofDouble (x : Double) : Json :=
  if x.isFinite then
    let d : Decimal := if x.mantissa = 0 then ⟨0, 0⟩ else Shortest.decimal x
    .decimal x.isNegative d.digits d.exponent
  else .null

/-- Members without those that are absent. -/
def presentMembers (members : List (String × Option Json)) : Json :=
  .object (members.filterMap fun (key, value) ↦ value.map (key, ·))

/-- A list of strings. -/
def strings (texts : List String) : Json := .array (texts.map .string)

end Json

end FrameQuery
