import Tabletop.Text.CharRange

/-! # Blanks

The characters of the Unicode property White_Space.
-/

namespace Tabletop.Text

/-- The ranges of blanks, in order. -/
def blankRanges : List (Nat × Nat) :=
  [(0x9, 0xd), (0x20, 0x20), (0x85, 0x85), (0xa0, 0xa0), (0x1680, 0x1680),
   (0x2000, 0x200a), (0x2028, 0x2029), (0x202f, 0x202f), (0x205f, 0x205f),
   (0x3000, 0x3000)]

/-- A blank of any script. -/
def isBlank (c : Char) : Bool := inRanges blankRanges c

end Tabletop.Text
