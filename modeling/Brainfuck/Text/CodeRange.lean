/-!
# Ranges of code points

Tables of Unicode properties are lists of ranges, each with its first and its last code point.
-/

namespace Brainfuck.Text

/-- The first and the last code point of a range. -/
abbrev CodeRange := Nat × Nat

/-- Whether the code point of a character lies in one of some ranges. -/
def inRanges (ranges : List CodeRange) (c : Char) : Bool :=
  ranges.any fun (first, last) => first ≤ c.toNat && c.toNat ≤ last

end Brainfuck.Text
