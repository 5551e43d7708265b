/-!
# Sets of characters by code point ranges

A character property of the Unicode standard is a list of inclusive ranges of
code points.  This module holds the type and its membership test.  The lists
themselves are in `Text.Blank`, `Skipped`, `Text.GraphemeExtend` and `Text.Printable`.
-/

namespace ArrayLiteral.Text

/-- A set of characters, as inclusive ranges of code points in ascending order. -/
abbrev CharRanges := List (Nat × Nat)

/-- Whether the character lies in one of the ranges. -/
def CharRanges.contains (ranges : CharRanges) (c : Char) : Bool :=
  ranges.any fun range => range.1 ≤ c.toNat && c.toNat ≤ range.2

end ArrayLiteral.Text
