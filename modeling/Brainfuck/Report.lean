import Brainfuck.RunError
import Brainfuck.Text.ControlSequence
import Brainfuck.Text.Slice

/-!
# Reports

How an error is shown to the user: a headline, and then the instructions around its position with a
caret under the one that it is about.  Positions count instructions, so the window shows a text
without its comments.
-/

namespace Brainfuck.Report

/-- How many characters a window shows on either side of the position. -/
def windowRadius : Nat := 32

/-- The characters around a position, sliced at the offsets of the first of them and of the first
behind them.  Such a slice is never refused: `window?_eq`. -/
def window? (code : String) (position : Nat) : Option String :=
  let cs := code.toList
  let first := position - windowRadius
  let last := min (position + windowRadius + 1) cs.length
  Text.slice? code (Text.byteIndex cs first) (Text.byteIndex cs last)

/-- The line under a window: a caret in the column of the position. -/
def caretLine (position : Nat) : List Char :=
  List.replicate (position - (position - windowRadius)) ' ' ++ ['^']

/-- A headline with a position in a text, and the window around it. -/
def withContext (headline code : String) (position : Nat) : String :=
  headline ++ " at instruction " ++ position.repr ++ "\n" ++
    "  " ++ (window? code position).getD "" ++ "\n" ++
    "  " ++ String.ofList (caretLine position) ++ "\n"

/-- A label, bold and red on a terminal. -/
def styled (terminal : Bool) (label : String) : String :=
  if terminal then Text.styled "1;31" label else label

/-- The kind of an error, in front of its headline. -/
def label (e : RunError) : String :=
  if e.isStructural then "Parse error" else "Runtime error"

/-- The headline of an error, after the name of the program if there is one. -/
def headline (program : Option String) (terminal : Bool) (e : RunError) : String :=
  let text := styled terminal (label e) ++ ": " ++ e.description
  match program with
  | some name => name ++ ": " ++ text
  | none => text

/-- All that the user is shown of an error: a headline, with the window if the error has a position.
-/
def ofError (program : Option String) (terminal : Bool) (code : String) (e : RunError) : String :=
  match e.ip? with
  | some ip => withContext (headline program terminal e) (filterText code) ip
  | none => headline program terminal e ++ "\n"

end Brainfuck.Report
