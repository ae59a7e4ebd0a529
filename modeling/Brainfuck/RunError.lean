import Brainfuck.Program
import Brainfuck.Tape

/-!
# Errors of a run

Why a run fails: its text is no program, its tape has no cell, or an instruction cannot be carried
out.  `message` tells all of it in a sentence and `description` is the short form without the
position.
-/

namespace Brainfuck

/-- Why a run fails.  Positions `ip` count instructions and `pointer` is a cell. -/
inductive RunError where
  | parse (error : ParseError)
  | pointerUnderflow (ip : Nat)
  | pointerOverflow (ip pointer : Nat)
  | valueOverflow (ip pointer : Nat)
  | valueUnderflow (ip pointer : Nat)
  /-- There is no character to read. -/
  | input (ip : Nat)
  /-- The system refused to read or write. -/
  | io (ip : Nat) (message : String)
  | emptyTape
  deriving DecidableEq

/-- The character of a bracket in single quotes. -/
def Bracket.quoted : Bracket → String
  | opening => "'['"
  | closing => "']'"

namespace RunError

/-- The error of the instruction at `ip` that a tape refuses with its pointer at `pointer`. -/
def ofFault (fault : Tape.Fault) (ip pointer : Nat) : RunError :=
  match fault with
  | .pointerUnderflow => pointerUnderflow ip
  | .pointerOverflow => pointerOverflow ip pointer
  | .valueOverflow => valueOverflow ip pointer
  | .valueUnderflow => valueUnderflow ip pointer

/-- The instruction that an error is about. -/
def ip? : RunError → Option Nat
  | parse e => some e.ip
  | pointerUnderflow ip => some ip
  | pointerOverflow ip _ => some ip
  | valueOverflow ip _ => some ip
  | valueUnderflow ip _ => some ip
  | input ip => some ip
  | io ip _ => some ip
  | emptyTape => none

/-- Whether an error is about the text and not about its run. -/
def isStructural : RunError → Bool
  | parse _ => true
  | _ => false

/-- What went wrong, in a sentence with the position. -/
def message : RunError → String
  | parse (.unmatched bracket ip) =>
    "Unmatched bracket " ++ bracket.quoted ++ " at instruction " ++ ip.repr
  | parse (.unclosed ip) =>
    "Missing loop terminator: '[' at instruction " ++ ip.repr ++ " is never closed"
  | pointerUnderflow ip =>
    "Pointer underflow at instruction " ++ ip.repr ++ ": cannot move left of cell 0"
  | pointerOverflow ip pointer =>
    "Pointer overflow at instruction " ++ ip.repr ++ ": cannot move right of cell " ++
      pointer.repr
  | valueOverflow ip pointer =>
    "Value overflow at instruction " ++ ip.repr ++ ": cell " ++ pointer.repr ++
      " cannot exceed " ++ cellMax.repr
  | valueUnderflow ip pointer =>
    "Value underflow at instruction " ++ ip.repr ++ ": cell " ++ pointer.repr ++
      " cannot go below 0"
  | input ip =>
    "Input error at instruction " ++ ip.repr ++
      ": expected a character but input was exhausted or invalid"
  | io ip message => "I/O error at instruction " ++ ip.repr ++ ": " ++ message
  | emptyTape => "Memory size must be at least 1 cell"

/-- What went wrong in short, for a headline that gives the position itself. -/
def description : RunError → String
  | parse (.unmatched bracket _) => "unmatched bracket " ++ bracket.quoted
  | parse (.unclosed _) => "'[' is missing its closing ']' (counts of '[' and ']' differ)"
  | pointerUnderflow _ => "pointer moved left of cell 0"
  | pointerOverflow _ pointer =>
    "pointer moved right of the last cell (ptr=" ++ pointer.repr ++ ")"
  | valueOverflow _ pointer => "cell " ++ pointer.repr ++ " exceeded " ++ cellMax.repr
  | valueUnderflow _ pointer => "cell " ++ pointer.repr ++ " went below 0"
  | input _ => "input exhausted or not a valid character"
  | io _ message => "I/O error: " ++ message
  | emptyTape => "memory size must be at least 1 cell"

end RunError

end Brainfuck
