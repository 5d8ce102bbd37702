import CaseSuite.Text.RangeTable

/-!
# White space

The characters with the property `White_Space`, which a report shows as plain spaces and drops at
the end of a line.
-/

namespace CaseSuite.Text

/-- The ranges of white space. -/
def blankRanges : RangeTable :=
  [(0x9, 0xd), (0x20, 0x20), (0x85, 0x85), (0xa0, 0xa0), (0x1680, 0x1680), (0x2000, 0x200a),
   (0x2028, 0x2029), (0x202f, 0x202f), (0x205f, 0x205f), (0x3000, 0x3000)]

/-- White space in the sense of the Unicode property `White_Space`. -/
def isBlank (c : Char) : Bool :=
  blankRanges.contains c.toNat

end CaseSuite.Text
