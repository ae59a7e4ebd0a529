import Brainfuck.CommandLine.Plan
import Brainfuck.Environment
import Brainfuck.Interpreter
import Brainfuck.Report

/-!
# Exits

How a program ends, from its command line and what it finds around itself: its status and what it
has written.  `runCommands` is the program with commands and options, and `runCode` the one that
takes all its words as code.
-/

namespace Brainfuck.CommandLine

/-- What a program finds around itself. -/
structure World where
  environment : Environment
  /-- The content of the file at a path, or the system's message. -/
  readFile : String → Except String ByteArray
  stdin : ByteStream
  stdout : Sink

/-- How a program has ended, with what is left of its input. -/
structure Exit where
  status : Nat
  stdout : String
  stderr : String
  unread : Source

/-- A file of code that cannot be read, with the reason. -/
structure Unreadable where
  path : String
  reason : String
  deriving DecidableEq

/-- What a program says about a file of code that it cannot read. -/
def Unreadable.message (program : String) (u : Unreadable) : String :=
  program ++ ": failed to read code file '" ++ u.path ++ "': " ++ u.reason ++ "\n"

/-- The text of the code.  A file of code must be UTF-8. -/
def CodeLocation.text (readFile : String → Except String ByteArray) :
    CodeLocation → Except Unreadable String
  | .words ws => .ok (String.join ws)
  | .file path =>
    match readFile path with
    | .error reason => .error ⟨path, reason⟩
    | .ok content =>
      match String.fromUTF8? content with
      | some text => .ok text
      | none => .error ⟨path, "stream did not contain valid UTF-8"⟩

/-- What a run writes to the standard output. -/
def outputText (events : Array Event) : String :=
  events.foldl (fun text e => match e with
    | .output c => text.push c
    | _ => text) ""

/-- What a run writes to the error output while it goes on. -/
def traceText (events : Array Event) : String :=
  events.foldl (fun text e => match e with
    | .trace line => text ++ line.text ++ "\n"
    | _ => text) ""

/-- How a program ends whose run has ended. -/
def Exit.ofOutcome (program : String) (o : Outcome) : Exit :=
  match o.result with
  | .ok () => ⟨0, outputText o.events, traceText o.events, o.source⟩
  | .error e =>
    ⟨1, outputText o.events,
      traceText o.events ++ Report.ofError (some program) false o.interpreter.code e, o.source⟩

/-- Carries out a plan with up to `fuel` steps; `none` if the run is not over by then. -/
def Plan.perform (program : String) (w : World) (fuel : Nat) : Plan → Option Exit
  | .stop status message => some ⟨status, "", message, .stream w.stdin⟩
  | .run task =>
    match task.code.text w.readFile with
    | .error unreadable => some ⟨1, "", unreadable.message program, .stream w.stdin⟩
    | .ok code =>
      let size := w.environment.resolveMemorySize task.memorySize
      ((Interpreter.ofText code size).execute task.traced w.stdout (.stream w.stdin) fuel).map
        (Exit.ofOutcome program)

/-- The program with commands, started as `program`. -/
def runCommands (program : String) (words : List String) (w : World) (fuel : Nat) : Option Exit :=
  (Plan.ofCommands program words).perform program w fuel

/-- The program that takes code only, started as `program`. -/
def runCode (program : String) (words : List String) (w : World) (fuel : Nat) : Option Exit :=
  (Plan.ofCode program words).perform program w fuel

end Brainfuck.CommandLine
