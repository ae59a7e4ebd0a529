/-!
# Numerals

Reading of a decimal number below a limit.  A plus sign may come first.  The digits are read from
left to right and the first problem counts, so that a number is too large as soon as some of its
digits are.
-/

namespace Brainfuck.Text

/-- Why a text is no number below the limit. -/
inductive NumeralError where
  | empty
  | invalidDigit
  | tooLarge
  deriving DecidableEq

/-- What is wrong with a numeral, in words. -/
def NumeralError.text : NumeralError → String
  | empty => "cannot parse integer from empty string"
  | invalidDigit => "invalid digit found in string"
  | tooLarge => "number too large to fit in target type"

/-- The value of a decimal digit. -/
def digit? (c : Char) : Option Nat :=
  if c.isDigit then some (c.toNat - '0'.toNat) else none

/-- Reads the digits that follow those of a value. -/
def readDigits (limit : Nat) : (value : Nat) → List Char → Except NumeralError Nat
  | value, [] => .ok value
  | value, c :: cs =>
    match digit? c with
    | none => .error .invalidDigit
    | some d =>
      if 10 * value + d < limit then readDigits limit (10 * value + d) cs else .error .tooLarge

/-- Reads a number below a limit. -/
def readNumeral (limit : Nat) : List Char → Except NumeralError Nat
  | [] => .error .empty
  | '+' :: c :: cs => readDigits limit 0 (c :: cs)
  | cs => readDigits limit 0 cs

end Brainfuck.Text
