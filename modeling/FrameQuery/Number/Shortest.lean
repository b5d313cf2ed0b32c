import FrameQuery.Number.Double

/-!
# Shortest decimals

A positive finite double `m · 2 ^ q` is written with the fewest decimal digits that read back to
it. Every decimal strictly between the midpoints to its neighbours reads back, and the midpoints do
when `m` is even. For one digit, two digits and so on the two neighbours of the value on that
decimal grid are tested in exact arithmetic: the first grid with a hit wins, and of two hits the
nearer one, the upper one when both are equally near.
-/

namespace FrameQuery

/-- A decimal `digits · 10 ^ exponent`. -/
structure Decimal where
  /-- Its digits as one number. -/
  digits : Nat
  /-- The power of ten of the last digit. -/
  exponent : Int
  deriving DecidableEq, Repr

namespace Decimal

/-- Removes zeros at the end of `digits`, at most `fuel` of them. -/
def dropZeros : Nat → Decimal → Decimal
  | 0, d => d
  | fuel + 1, d =>
    if d.digits ≠ 0 ∧ d.digits % 10 = 0 then dropZeros fuel ⟨d.digits / 10, d.exponent + 1⟩ else d

end Decimal

namespace Shortest

/-- The power of ten of the first digit of `num / den`, both positive. -/
def log10Ratio (num den : Nat) : Int :=
  let guess : Int := (Double.digitCount num : Int) - Double.digitCount den
  if num * Nat.pow 10 (-guess).toNat < den * Nat.pow 10 guess.toNat then guess - 1 else guess

/-- The decimals that read back to a double, as the interval from `low` to `high` around `mid`, all
three in units of `2 ^ scale`. -/
structure Interval where
  low : Nat
  mid : Nat
  high : Nat
  scale : Int
  /-- Whether the two ends read back as well. -/
  closed : Bool

/-- The interval of a positive finite double. Below a power of two the neighbours are half as far
apart. -/
def interval (x : Double) : Interval :=
  let m := x.mantissa
  { low := 4 * m - (if x.fraction = 0 ∧ 1 < x.biased then 1 else 2)
    mid := 4 * m
    high := 4 * m + 2
    scale := x.exponent - 2
    closed := m % 2 == 0 }

/-- The neighbour of the value on the grid of multiples of `10 ^ g` that reads back, if one does. -/
def onGrid (i : Interval) (g : Int) : Option Decimal :=
  let grow := Nat.pow 2 i.scale.toNat * Nat.pow 10 (-g).toNat
  let unit := Nat.pow 2 (-i.scale).toNat * Nat.pow 10 g.toNat
  let below := i.mid * grow / unit
  let hit := fun (n : Nat) ↦
    if i.closed then i.low * grow ≤ n * unit ∧ n * unit ≤ i.high * grow
    else i.low * grow < n * unit ∧ n * unit < i.high * grow
  let lower := hit below
  let upper := hit (below + 1)
  if lower ∧ upper then
    if 2 * (i.mid * grow - below * unit) < unit then some ⟨below, g⟩ else some ⟨below + 1, g⟩
  else if lower then some ⟨below, g⟩
  else if upper then some ⟨below + 1, g⟩
  else none

/-- Tries grids with `count` digits, then with one more, for `fuel` grids. Seventeen digits always
suffice, so the last line is not reached from there. -/
def search (i : Interval) (first : Int) : Nat → Nat → Decimal
  | 0, count => ⟨i.mid, count⟩
  | fuel + 1, count =>
    match onGrid i (first + 1 - count) with
    | some d => d
    | none => search i first fuel (count + 1)

/-- The shortest decimal of a positive finite double. -/
def decimal (x : Double) : Decimal :=
  let i := interval x
  let first := log10Ratio (i.mid * Nat.pow 2 i.scale.toNat) (Nat.pow 2 (-i.scale).toNat)
  (search i first 17 1).dropZeros 20

end Shortest

namespace Double

/-- Digits from the first to the last. -/
def digitChars (n : Nat) : List Char := Nat.toDigits 10 n

/-- The text of a positive decimal: positional when its first digit has a power of ten from -4 to
15, with at least one digit on each side of the point, otherwise with one digit before the point
and the power after `e`. -/
def decimalText (d : Decimal) : String :=
  let digits := digitChars d.digits
  let first : Int := d.exponent + digits.length - 1
  if first < -4 ∨ 15 < first then
    let fraction := if digits.length = 1 then "" else "." ++ String.ofList digits.tail
    String.ofList (digits.take 1) ++ fraction ++ "e" ++ toString first
  else if first < 0 then
    "0." ++ String.ofList (List.replicate (-first - 1).toNat '0' ++ digits)
  else if 0 ≤ d.exponent then
    String.ofList (digits ++ List.replicate d.exponent.toNat '0') ++ ".0"
  else
    let whole := (first + 1).toNat
    String.ofList (digits.take whole) ++ "." ++ String.ofList (digits.drop whole)

/-- The text of a double. A value that is no number has no sign. -/
def toText (x : Double) : String :=
  if x.isNaN then "NaN"
  else
    let sign := if x.isNegative then "-" else ""
    if !x.isFinite then sign ++ "inf"
    else if x.mantissa = 0 then sign ++ "0.0"
    else sign ++ decimalText (Shortest.decimal x)

end Double

end FrameQuery
