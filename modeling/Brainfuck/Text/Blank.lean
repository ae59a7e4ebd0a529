import Brainfuck.Text.CodeRange

/-!
# White space

The characters with the Unicode property White_Space, and the removal of those at both ends.
-/

namespace Brainfuck.Text

/-- The ranges of the property White_Space. -/
def blankRanges : List CodeRange := [
  (0x9, 0xD), (0x20, 0x20), (0x85, 0x85), (0xA0, 0xA0), (0x1680, 0x1680), (0x2000, 0x200A),
  (0x2028, 0x2029), (0x202F, 0x202F), (0x205F, 0x205F), (0x3000, 0x3000)]

/-- Whether a character is white space. -/
def isBlank (c : Char) : Bool := inRanges blankRanges c

/-- A sequence without the longest runs at both ends whose members all satisfy a test. -/
def strip (test : Char → Bool) (cs : List Char) : List Char :=
  ((cs.dropWhile test).reverse.dropWhile test).reverse

/-- A text without the white space at both ends. -/
def trim (cs : List Char) : List Char := strip isBlank cs

end Brainfuck.Text
