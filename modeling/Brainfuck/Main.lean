import Brainfuck.CommandLine.Exit
import Brainfuck.WorkingDirectory

/-!
# The programs

The outer layer: it finds out what the plan needs to know, takes the steps of the machine one by one
and carries out their events.  Started under a name that ends in `runner`, the program takes all its
words as code; under any other name it has commands.
-/

namespace Brainfuck.CommandLine.Main

/-- A message with the number that the system gives the failure. -/
def numbered (text : String) (number : UInt32) : String :=
  text ++ " (os error " ++ number.toNat.repr ++ ")"

/-- The system's message for a failure. -/
def systemMessage : IO.Error → String
  | .noFileOrDirectory .. => WorkingDirectory.Refusal.notFound.text
  | .inappropriateType _ number text => numbered text number
  | .invalidArgument _ number text => numbered text number
  | .permissionDenied _ number text => numbered text number
  | .resourceExhausted _ number text => numbered text number
  | .resourceVanished number text => numbered text number
  | e => toString e

/-- Runs an action, and gives the system's message if it fails. -/
def attempt {α : Type} (action : IO α) : IO (Except String α) := do
  try
    return .ok (← action)
  catch e =>
    return .error (systemMessage e)

/-! ## Surroundings -/

/-- The content of a file, if it can be read. -/
def content? (path : String) : IO (Option ByteArray) := do
  return (← attempt (IO.FS.readBinFile path)).toOption

/-- Looks up the variables and the settings files. -/
def environment : IO Environment := do
  let variableBytes := (← IO.getEnv "BF_MEMORY_SIZE").map String.toUTF8
  match ← IO.getEnv "XDG_CONFIG_HOME" with
  | some directory => return ⟨variableBytes, true, ← content? (directory ++ "/bf.toml"), none⟩
  | none =>
    let home := (← IO.getEnv "HOME").getD ""
    return ⟨variableBytes, false, none, ← content? (home ++ "/.config/bf.toml")⟩

/-- A function that knows the content of the file that a plan names. -/
def fileOf (location : CodeLocation) : IO (String → Except String ByteArray) := do
  match location with
  | .words _ => return fun _ => .ok ByteArray.empty
  | .file path =>
    let content ← attempt (IO.FS.readBinFile path)
    return fun _ => content

/-! ## Steps -/

/-- Reads one byte, without trying again. -/
def readByte (input : IO.FS.Stream) : IO ByteRead := do
  match ← attempt (input.read 1) with
  | .error message => return .failure message
  | .ok bytes =>
    match bytes.toList with
    | [] => return .endOfInput
    | b :: _ => return .byte b

/-- Reads up to `n` bytes, until one is missing. -/
def readBytes (input : IO.FS.Stream) : Nat → IO (List ByteRead)
  | 0 => return []
  | n + 1 => do
    match ← readByte input with
    | .byte b => return .byte b :: (← readBytes input n)
    | r => return [r]

/-- The reads that one character takes. -/
def readChar (input : IO.FS.Stream) : IO ByteStream := do
  match ← readByte input with
  | .byte lead =>
    return ⟨.byte lead :: (← readBytes input ((Utf8.tailLength? lead).getD 0)), none⟩
  | r => return ⟨[r], none⟩

/-- Carries out an event, and gives the system's message if it is refused. -/
def deliver : Event → IO (Except String Unit)
  | .output c => attempt do
    let out ← IO.getStdout
    out.putStr (String.ofList [c])
    out.flush
  | .trace line => attempt (IO.eprintln line.text)
  | .input _ => return .ok ()

/-- Carries out events in order, until one is refused. -/
def deliverAll : List Event → IO (Except String Unit)
  | [] => return .ok ()
  | e :: es => do
    match ← deliver e with
    | .ok () => deliverAll es
    | .error message => return .error message

/-- The events of a step that began without any. -/
def eventsOf : Machine.Step → List Event
  | .next s => s.events.toList
  | .halted _ s => s.events.toList

/-- Runs a machine from a state without events to its end.  Where a character is refused, the step
is taken again with an output that refuses it, which is the step of an output that accepts no more
(`Machine.step_limited`). -/
partial def drive (m : Machine) (s : Machine.State) : IO (Except RunError Unit) := do
  let goOn : Machine.Step → IO (Except RunError Unit)
    | .next s => drive m { s with events := #[] }
    | .halted result _ => return result
  match m.program.get? s.ip with
  | some .write | none =>
    match ← deliverAll (eventsOf (m.step s)) with
    | .ok () => goOn (m.step s)
    | .error message => goOn ({ m with sink := .failing message }.step s)
  | some i =>
    let source ← if i = .read then
        pure (Source.stream (← readChar (← IO.getStdin)))
      else
        pure s.source
    let step := m.step { s with source := source }
    let _ ← deliverAll (eventsOf step)
    goOn step

/-- Runs a text.  A run without steps tells whether there is anything to do. -/
def run (code : String) (memorySize : Nat) (traced : Bool) : IO (Except RunError Unit) := do
  let interpreter := Interpreter.ofText code memorySize
  match interpreter.execute traced .working (.queue []) 0, interpreter.load with
  | some outcome, _ => return outcome.result
  | none, .error e => return .error (.parse e)
  | none, .ok program =>
    let m : Machine := ⟨program, .working, traced⟩
    let s := m.start interpreter.tape (.queue [])
    let _ ← deliverAll s.events.toList
    drive m { s with events := #[] }

/-- Carries out a plan, and gives the exit status. -/
def perform (program : String) : Plan → IO UInt32
  | .stop status message => do
    IO.eprint message
    return UInt32.ofNat status
  | .run task => do
    match task.code.text (← fileOf task.code) with
    | .error unreadable =>
      IO.eprint (unreadable.message program)
      return 1
    | .ok code =>
      let memorySize := (← environment).resolveMemorySize task.memorySize
      match ← run code memorySize task.traced with
      | .ok () => return 0
      | .error e =>
        let terminal ← (← IO.getStderr).isTty
        IO.eprint (Report.ofError (some program) terminal code e)
        return 1

end Brainfuck.CommandLine.Main

open Brainfuck.CommandLine in
/-- The program, which the name that it is started under tells from the other one. -/
def main (words : List String) : IO UInt32 := do
  let program := toString (← IO.appPath)
  let plan := if program.endsWith "runner" then Plan.ofCode program words
    else Plan.ofCommands program words
  Main.perform program plan
