/-!
# Columns and numerals

Text is set in columns by blanks on its right; text that is wider than its column stays whole.  Code
points are written as `U+` and at least four upper-case hexadecimal digits.
-/

namespace Brainfuck.Text

/-- A text with blanks on its right up to a width. -/
def padRight (width : Nat) (s : String) : String :=
  s ++ String.ofList (List.replicate (width - s.length) ' ')

/-- The hexadecimal digits of a number, in lower case. -/
def hexDigits (n : Nat) : List Char := Nat.toDigits 16 n

/-- A code point in the notation of the Unicode standard. -/
def codePointText (n : Nat) : String :=
  let digits := (hexDigits n).map Char.toUpper
  "U+" ++ String.ofList (List.replicate (4 - digits.length) '0' ++ digits)

end Brainfuck.Text
