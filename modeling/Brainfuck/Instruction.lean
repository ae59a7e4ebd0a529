/-!
# Instructions

The eight instructions and the characters that stand for them.  Every other character of a text is
a comment.  `instructionsOf` reads a text as its sequence of instructions, and `filterText` is the
same sequence as text.  The characters are faithful names: `ofChar?_eq_some_iff`.
-/

namespace Brainfuck

/-- The eight instructions. -/
inductive Instruction where
  /-- Moves the pointer one cell to the right. -/
  | right
  /-- Moves the pointer one cell to the left. -/
  | left
  /-- Adds one to the current cell. -/
  | increment
  /-- Takes one from the current cell. -/
  | decrement
  /-- Stores a character of the input in the current cell. -/
  | read
  /-- Outputs the current cell as a character. -/
  | write
  /-- Opens a loop, which is skipped when the current cell is zero. -/
  | loopStart
  /-- Closes a loop by going back to its start. -/
  | loopEnd
  deriving DecidableEq

namespace Instruction

/-- The instruction that a character stands for, if it is no comment. -/
def ofChar? : Char → Option Instruction
  | '>' => some right
  | '<' => some left
  | '+' => some increment
  | '-' => some decrement
  | ',' => some read
  | '.' => some write
  | '[' => some loopStart
  | ']' => some loopEnd
  | _ => none

/-- The character that stands for an instruction. -/
def toChar : Instruction → Char
  | right => '>'
  | left => '<'
  | increment => '+'
  | decrement => '-'
  | read => ','
  | write => '.'
  | loopStart => '['
  | loopEnd => ']'

@[simp] theorem ofChar?_toChar (i : Instruction) : ofChar? i.toChar = some i := by
  cases i <;> rfl

theorem ofChar?_eq_some_iff {c : Char} {i : Instruction} : ofChar? c = some i ↔ c = i.toChar := by
  constructor
  · intro h
    unfold ofChar? at h
    split at h <;> first | (cases h; rfl) | cases h
  · rintro rfl
    exact ofChar?_toChar i

end Instruction

/-- The instructions of a text, in order, without its comments. -/
def instructionsOf (text : String) : List Instruction :=
  text.toList.filterMap Instruction.ofChar?

/-- A text without its comments. -/
def filterText (text : String) : String :=
  String.ofList (text.toList.filter fun c => (Instruction.ofChar? c).isSome)

/-- The text of a sequence of instructions, one character each. -/
def Instruction.textOf (is : List Instruction) : String :=
  String.ofList (is.map toChar)

@[simp] theorem instructionsOf_textOf (is : List Instruction) :
    instructionsOf (Instruction.textOf is) = is := by
  rw [instructionsOf, Instruction.textOf, String.toList_ofList]
  induction is with
  | nil => rfl
  | cons i is ih => rw [List.map_cons, List.filterMap_cons, Instruction.ofChar?_toChar, ih]

theorem filterText_eq_textOf (text : String) :
    filterText text = Instruction.textOf (instructionsOf text) := by
  unfold filterText Instruction.textOf instructionsOf
  congr 1
  induction text.toList with
  | nil => rfl
  | cons c cs ih =>
    cases h : Instruction.ofChar? c with
    | none => simp [h, ih]
    | some i => simp [h, ih, (Instruction.ofChar?_eq_some_iff.1 h).symm]

end Brainfuck
