import FrameQuery.Text.CodePoints

/-!
# Blank characters

The Unicode property White_Space, and texts with the blanks at both ends removed.
-/

namespace FrameQuery.Blank

/-- The property White_Space. -/
def blanks : CodePoints :=
  [(0x9, 0xD), (0x20, 0x20), (0x85, 0x85), (0xA0, 0xA0), (0x1680, 0x1680), (0x2000, 0x200A),
   (0x2028, 0x2029), (0x202F, 0x202F), (0x205F, 0x205F), (0x3000, 0x3000)]

/-- Whether a character is blank. -/
def isBlank (c : Char) : Bool := blanks.contains c

/-- The text without the blanks at its start and end. -/
def trim (s : List Char) : List Char := ((s.dropWhile isBlank).reverse.dropWhile isBlank).reverse

end FrameQuery.Blank
