/-!
# Tables of character ranges

A property of characters is kept as the ascending list of the code point ranges that have it.
-/

namespace CaseSuite.Text

/-- Ascending, disjoint, inclusive ranges of code points. -/
abbrev RangeTable := List (Nat × Nat)

/-- A code point lies in one of the ranges; the search stops at the first range beyond it. -/
def RangeTable.contains : RangeTable → Nat → Bool
  | [], _ => false
  | (first, last) :: rest, n => first ≤ n && (n ≤ last || RangeTable.contains rest n)

end CaseSuite.Text
