import Brainfuck.Text.Blank
import Brainfuck.Text.Numeral

/-!
# Memory sizes

The number of cells of a tape as it is written by hand: a positive number below 2^64, perhaps with
white space around it and underscores among its digits.
-/

namespace Brainfuck

/-- Why a text is no memory size. -/
inductive MemorySizeError where
  /-- The given text is no number that a word can hold. -/
  | number (given : String) (reason : Text.NumeralError)
  | zero
  deriving DecidableEq

/-- What is wrong with a memory size, in words. -/
def MemorySizeError.message : MemorySizeError → String
  | number given reason => "invalid memory size '" ++ given ++ "': " ++ reason.text
  | zero => "memory size must be at least 1 cell"

/-- Memory sizes are smaller than this. -/
def memorySizeLimit : Nat := Nat.pow 2 64

/-- The characters of a memory size that count: white space is removed at both ends, and then every
underscore. -/
def memorySizeNumeral (given : String) : List Char :=
  (Text.trim given.toList).filter (· ≠ '_')

/-- The memory size that a text spells, or what is wrong with it. -/
def parseMemorySize (given : String) : Except MemorySizeError Nat :=
  match Text.readNumeral memorySizeLimit (memorySizeNumeral given) with
  | .error reason => .error (.number given reason)
  | .ok size => if size = 0 then .error .zero else .ok size

/-- The memory size that a text spells, if it does. -/
def memorySize? (given : String) : Option Nat := (parseMemorySize given).toOption

end Brainfuck
