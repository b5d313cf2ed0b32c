/-!
# Sets of code points

A set of code points is listed as its maximal runs in increasing order, each run by its first and
last member.
-/

namespace FrameQuery

/-- Runs of code points, in increasing order and apart from each other. -/
abbrev CodePoints := List (Nat × Nat)

namespace CodePoints

/-- Whether a run holds the code point; later runs are not looked at once one starts beyond it. -/
def holds : CodePoints → Nat → Bool
  | [], _ => false
  | (first, last) :: rest, n => if n < first then false else n ≤ last || holds rest n

/-- Whether the set holds a character. -/
def contains (points : CodePoints) (c : Char) : Bool := points.holds c.toNat

end CodePoints

end FrameQuery
