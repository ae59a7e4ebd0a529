import Brainfuck.CommandLine.Arguments
import Brainfuck.CommandLine.Usage
import Brainfuck.Tape

/-!
# Plans

What a command line asks for: either to stop with a message, or to run some code.  There are two
programs, one with options and one that takes all its words as code.
-/

namespace Brainfuck.CommandLine

/-- Where the code of a run is: in words, which belong together, or in a file. -/
inductive CodeLocation where
  | words (ws : List String)
  | file (path : String)
  deriving DecidableEq

/-- A run that a command line asks for. -/
structure Task where
  code : CodeLocation
  /-- The memory size, if the command line gives it. -/
  memorySize : Option Nat
  traced : Bool
  deriving DecidableEq

/-- What a command line asks for. -/
inductive Plan where
  /-- To stop at once, with a message for the error output. -/
  | stop (status : Nat) (message : String)
  | run (task : Task)
  deriving DecidableEq

namespace Plan

/-- What the arguments of the command ask for.  There must be a file or code, and not both. -/
def ofRunArguments (program : String) (a : RunArguments) : Plan :=
  if a.help then
    .stop 0 (Usage.run program)
  else
    match a.file, a.code with
    | none, [] => .stop 2 (Usage.run program)
    | some _, _ :: _ =>
      .stop 2 (program ++ ": cannot use positional code together with --file\n" ++
        Usage.run program)
    | some path, [] => .run ⟨.file path, a.memorySize, a.debug⟩
    | none, w :: ws => .run ⟨.words (w :: ws), a.memorySize, a.debug⟩

/-- What a command line with commands asks for. -/
def ofCommands (program : String) (words : List String) : Plan :=
  match Arguments.parse words with
  | .error e => .stop 2 e.report
  | .ok ⟨true, _⟩ => .stop 0 (Usage.commands program)
  | .ok ⟨false, none⟩ => .stop 2 (Usage.commands program)
  | .ok ⟨false, some a⟩ => ofRunArguments program a

/-- What a command line of code only asks for: the words are code, and the memory size is the
default. -/
def ofCode (program : String) (words : List String) : Plan :=
  match words with
  | [] => .stop 2 (Usage.codeOnly program)
  | w :: ws =>
    if w = "-h" ∨ w = "--help" then
      .stop 2 (Usage.codeOnly program)
    else
      .run ⟨.words (w :: ws), some defaultMemorySize, false⟩

end Plan

end Brainfuck.CommandLine
