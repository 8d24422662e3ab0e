import Stepwise.Text.Range

/-!
# Blank characters

A character is blank when it has the Unicode property `White_Space`: the six
control characters of that property, the space, and the spaces of other
scripts.
-/

namespace Stepwise.Text

/-- The code points with the property `White_Space`. -/
def blankRanges : List CodeRange :=
  [(0x9, 0xd), (0x20, 0x20), (0x85, 0x85), (0xa0, 0xa0), (0x1680, 0x1680),
   (0x2000, 0x200a), (0x2028, 0x2029), (0x202f, 0x202f), (0x205f, 0x205f),
   (0x3000, 0x3000)]

/-- **Blank characters**, in the sense of the property `White_Space`. -/
def isBlank (c : Char) : Bool :=
  inRanges blankRanges c.toNat

/-- The text without its leading and trailing blanks. -/
def trim (cs : List Char) : List Char :=
  ((cs.dropWhile isBlank).reverse.dropWhile isBlank).reverse

end Stepwise.Text
