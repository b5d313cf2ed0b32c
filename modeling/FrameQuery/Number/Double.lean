/-!
# Double precision numbers

A double is its 64 bits: a sign, an 11 bit exponent and a 52 bit fraction. A finite one has the
value `mantissa · 2 ^ exponent`. A decimal is rounded to the nearest double, an exact tie to the
double with the even mantissa.
-/

namespace FrameQuery

/-- A binary floating point number of 64 bits. -/
structure Double where
  /-- Sign, exponent and fraction, from the highest bit down. -/
  bits : UInt64
  deriving DecidableEq, Repr

namespace Double

/-- What the sign bit counts for: `2 ^ 63`. -/
def signWeight : Nat := Nat.pow 2 63

/-- The fraction has 52 bits, so it stays below `2 ^ 52`. -/
def fractionModulus : Nat := Nat.pow 2 52

/-- Whether the sign bit is set. -/
def isNegative (x : Double) : Bool := x.bits.toNat / signWeight == 1

/-- The exponent as it is stored. -/
def biased (x : Double) : Nat := x.bits.toNat / fractionModulus % 2048

/-- The fraction as it is stored. -/
def fraction (x : Double) : Nat := x.bits.toNat % fractionModulus

/-- The largest stored exponent marks infinities and values that are no number. -/
def isFinite (x : Double) : Bool := x.biased != 2047

/-- Whether the value is no number. -/
def isNaN (x : Double) : Bool := x.biased == 2047 && x.fraction != 0

/-- The mantissa of a finite value; the leading one of a normal value is not stored. -/
def mantissa (x : Double) : Nat := if x.biased = 0 then x.fraction else x.fraction + fractionModulus

/-- The exponent of two of a finite value. -/
def exponent (x : Double) : Int := (max x.biased 1 : Nat) - 1075

/-- The sign bit alone. -/
def signBits (negative : Bool) : Nat := if negative then signWeight else 0

/-- Zero with a sign. -/
def zero (negative : Bool) : Double := ⟨.ofNat (signBits negative)⟩

/-- The bits of infinity, the first that no finite magnitude has. -/
def infiniteMagnitude : Nat := 2047 * fractionModulus

/-- Infinity with a sign. -/
def infinity (negative : Bool) : Double := ⟨.ofNat (signBits negative + infiniteMagnitude)⟩

/-- A value that is no number. -/
def nan (negative : Bool) : Double :=
  ⟨.ofNat (signBits negative + infiniteMagnitude + fractionModulus / 2)⟩

/-- A quotient rounded to the nearest natural number, a tie to the even one. -/
def roundDiv (num den : Nat) : Nat :=
  let q := num / den
  let twice := 2 * (num % den)
  if twice > den ∨ (twice = den ∧ q % 2 = 1) then q + 1 else q

/-- The exponent of two of the highest bit of `num / den`, both positive. -/
def log2Ratio (num den : Nat) : Int :=
  let guess : Int := (Nat.log2 num : Int) - Nat.log2 den
  if num * Nat.pow 2 (-guess).toNat < den * Nat.pow 2 guess.toNat then guess - 1 else guess

/-- The double nearest to `num / den`, both positive. A stored exponent counts multiples of
`2 ^ 52`, so a mantissa that rounding carries over moves to the next exponent by itself. -/
def ofRatio (negative : Bool) (num den : Nat) : Double :=
  let q : Int := max (log2Ratio num den - 52) (-1074)
  let m := roundDiv (num * Nat.pow 2 (-q).toNat) (den * Nat.pow 2 q.toNat)
  let magnitude := (q + 1074).toNat * fractionModulus + m
  if infiniteMagnitude ≤ magnitude then infinity negative
  else ⟨.ofNat (signBits negative + magnitude)⟩

/-- Number of decimal digits of a natural number. -/
def digitCount (n : Nat) : Nat := (Nat.toDigits 10 n).length

/-- The double nearest to `digits · 10 ^ exponent`. Every value from `10 ^ 310` on is infinite and
every one below `10 ^ (-330)` is zero, so that no large power is computed for them. -/
def ofDecimal (negative : Bool) (digits : Nat) (exponent : Int) : Double :=
  if digits = 0 then zero negative
  else if (310 : Int) < digitCount digits + exponent then infinity negative
  else if (digitCount digits : Int) + exponent < -330 then zero negative
  else ofRatio negative (digits * Nat.pow 10 exponent.toNat) (Nat.pow 10 (-exponent).toNat)

end Double

end FrameQuery
