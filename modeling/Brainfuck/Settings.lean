import Brainfuck.MemorySize
import Brainfuck.Text.Split

/-!
# Settings

A settings file has a line for each setting, `name = value`, under the header of a section in
brackets.  Only the section `interpreter` counts; it may be left and entered again.  Of several
lines for one setting the last counts.
-/

namespace Brainfuck

/-- What a settings file says. -/
structure Settings where
  memorySize : Option Nat
  deriving DecidableEq

namespace Settings

/-- What a line of a settings file says. -/
inductive Line where
  /-- An empty line, a comment or anything else that says nothing. -/
  | blank
  | header (name : List Char)
  | assignment (key value : List Char)
  deriving DecidableEq

/-- Reads a line whose white space at both ends is gone. -/
def Line.ofTrimmed (cs : List Char) : Line :=
  if cs = [] ∨ cs.head? = some '#' then
    .blank
  else if cs.head? = some '[' ∧ cs.getLast? = some ']' then
    .header (Text.trim cs.tail.dropLast)
  else
    match cs.dropWhile (· ≠ '=') with
    | [] => .blank
    | _ :: value =>
      .assignment (Text.trim (cs.takeWhile (· ≠ '='))) (Text.strip (· = '"') (Text.trim value))

/-- Reads a line, of which the white space at both ends does not count. -/
def Line.ofChars (cs : List Char) : Line := .ofTrimmed (Text.trim cs)

/-- The section that counts. -/
def sectionName : List Char := "interpreter".toList

/-- The key of the memory size in this section. -/
def memorySizeKey : List Char := "memory_size".toList

/-- The last value that is assigned to a key in the section that counts.  `inside` says whether the
lines start in that section, and `found` is the last value before them. -/
def lastValue (key : List Char) : (inside : Bool) → (found : Option (List Char)) → List Line →
    Option (List Char)
  | _, found, [] => found
  | inside, found, .blank :: rest => lastValue key inside found rest
  | _, found, .header name :: rest => lastValue key (name = sectionName) found rest
  | inside, found, .assignment k value :: rest =>
    lastValue key inside (if inside ∧ k = key then some value else found) rest

/-- Reads a settings file.  A value that is no memory size sets none. -/
def parse (content : String) : Settings :=
  let lines := (Text.split '\n' content.toList).map Line.ofChars
  let value? := lastValue memorySizeKey false none lines
  ⟨value?.bind fun value => memorySize? (String.ofList value)⟩

end Settings

end Brainfuck
