import Brainfuck.Machine

/-!
# Interpreters

An interpreter keeps a text and a tape over any number of runs.  Its text is parsed by the first
run.  A run whose text is no program, whose program is empty or whose tape has no cell does nothing
at all; every other run starts on a tape of zeros.
-/

namespace Brainfuck

/-- A text and the tape that its runs use, kept from run to run. -/
structure Interpreter where
  code : String
  /-- The program of the text, once it has been parsed. -/
  program : Option Program
  tape : Tape
  deriving DecidableEq

/-- A run that has ended. -/
structure Outcome where
  result : Except RunError Unit
  /-- The interpreter after the run. -/
  interpreter : Interpreter
  source : Source
  events : Array Event

namespace Interpreter

/-- An interpreter of a text that has not been parsed, with a tape of zeros. -/
def ofText (code : String) (memorySize : Nat) : Interpreter :=
  ⟨code, none, .zeros memorySize⟩

/-- An interpreter of a program, whose text is without comments, with a tape of zeros. -/
def ofProgram (program : Program) (memorySize : Nat) : Interpreter :=
  ⟨program.toText, some program, .zeros memorySize⟩

/-- The program of an interpreter: the one that it keeps, or else what its text spells. -/
def load (b : Interpreter) : Except ParseError Program :=
  match b.program with
  | some program => .ok program
  | none => Program.parse b.code

/-- A run of up to `fuel` steps; `none` if it is not over by then. -/
def execute (b : Interpreter) (traced : Bool) (sink : Sink) (source : Source) (fuel : Nat) :
    Option Outcome :=
  match b.load with
  | .error e => some ⟨.error (.parse e), b, source, #[]⟩
  | .ok program =>
    let ⟨code, _, tape⟩ := b
    if program.isEmpty then
      some ⟨.ok (), ⟨code, some program, tape⟩, source, #[]⟩
    else if tape.isEmpty then
      some ⟨.error .emptyTape, ⟨code, some program, tape⟩, source, #[]⟩
    else
      let m : Machine := ⟨program, sink, traced⟩
      match m.runFor fuel (m.start tape.reset source) with
      | none => none
      | some (result, s) => some ⟨result, ⟨code, some program, s.tape⟩, s.source, s.events⟩

/-- A run without a trace. -/
def run (b : Interpreter) (sink : Sink) (source : Source) (fuel : Nat) : Option Outcome :=
  b.execute false sink source fuel

/-- A run that writes a trace of its instructions. -/
def runTraced (b : Interpreter) (sink : Sink) (source : Source) (fuel : Nat) : Option Outcome :=
  b.execute true sink source fuel

end Interpreter

end Brainfuck
