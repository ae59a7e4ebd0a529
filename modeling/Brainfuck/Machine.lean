import Brainfuck.Input
import Brainfuck.RunError
import Brainfuck.Trace

/-!
# The machine

The machine carries out a program one instruction at a time: `step` takes a state to the next one or
to the end of the run, and `runFor` takes up to a number of steps.  What a run does to the outside
is its sequence of events.

An instruction first takes effect, with its input or output event if it has one, and then a traced
machine adds its row.  An instruction that fails has no row and leaves the tape as it was.
-/

namespace Brainfuck

/-- What a run does to the outside. -/
inductive Event where
  /-- A character was accepted by the output. -/
  | output (c : Char)
  /-- A character was asked for. -/
  | input (answer : CharRead)
  | trace (line : Trace.Line)
  deriving DecidableEq

/-- Where the characters of a program's output go. -/
inductive Sink where
  /-- Every character is accepted. -/
  | working
  /-- So many characters of a run are accepted, and each one behind them is refused with the
  system's message. -/
  | limited (capacity : Nat) (message : String)
  deriving DecidableEq

/-- Every character is refused, with the system's message. -/
@[match_pattern] def Sink.failing (message : String) : Sink := .limited 0 message

/-- The message with which the next character is refused, if it is, when so many characters have
been accepted. -/
def Sink.refusal? : Sink → (written : Nat) → Option String
  | .working, _ => none
  | .limited capacity message, written => if written < capacity then none else some message

/-- The character that stands for the value of a cell; a surrogate is no character and is shown as
the replacement character. -/
def cellChar (value : Nat) : Char :=
  if value.isValidChar then Char.ofNat value else '\uFFFD'

/-- A program with its output, traced or not. -/
structure Machine where
  program : Program
  sink : Sink
  traced : Bool
  deriving DecidableEq

namespace Machine

/-- A machine between two instructions. -/
structure State where
  ip : Nat
  /-- The number of completed instructions. -/
  steps : Nat
  tape : Tape
  source : Source
  /-- The number of characters that the output has accepted. -/
  written : Nat
  /-- The events so far, in order. -/
  events : Array Event
  deriving DecidableEq

/-- What came of trying to carry out one instruction, with its input or output event. -/
inductive Effect where
  | completed (event : Option Event) (action : Trace.Action) (next : Nat) (tape : Tape)
    (source : Source)
  | failed (event : Option Event) (error : RunError) (tape : Tape) (source : Source)

/-- What an instruction at `ip` does to a tape and a source of input when so many characters have
been accepted. -/
@[inline] def effect (m : Machine) (i : Instruction) (ip : Nat) (tape : Tape) (source : Source)
    (written : Nat) : Effect :=
  let pointer := tape.pointer
  let cell := tape.get?.getD 0
  match i with
  | .right =>
    match tape.moveRight with
    | .ok tape' => .completed none (.moved tape'.pointer) (ip + 1) tape' source
    | .error fault => .failed none (.ofFault fault ip pointer) tape source
  | .left =>
    match tape.moveLeft with
    | .ok tape' => .completed none (.moved tape'.pointer) (ip + 1) tape' source
    | .error fault => .failed none (.ofFault fault ip pointer) tape source
  | .increment =>
    match tape.increment with
    | .ok tape' => .completed none (.incremented pointer cell (cell + 1)) (ip + 1) tape' source
    | .error fault => .failed none (.ofFault fault ip pointer) tape source
  | .decrement =>
    match tape.decrement with
    | .ok tape' => .completed none (.decremented pointer cell (cell - 1)) (ip + 1) tape' source
    | .error fault => .failed none (.ofFault fault ip pointer) tape source
  | .write =>
    let c := cellChar cell
    match m.sink.refusal? written with
    | none => .completed (some (.output c)) (.output c cell) (ip + 1) tape source
    | some message => .failed none (.io ip message) tape source
  | .read =>
    match source.readChar with
    | (.char c, source') =>
      match tape.set c.toNat with
      | .ok tape' =>
        .completed (some (.input (.char c))) (.stored c pointer) (ip + 1) tape' source'
      | .error fault =>
        .failed (some (.input (.char c))) (.ofFault fault ip pointer) tape source'
    | (.failure message, source') =>
      .failed (some (.input (.failure message))) (.io ip message) tape source'
    | (.endOfInput, source') => .failed (some (.input .endOfInput)) (.input ip) tape source'
    | (.invalid, source') => .failed (some (.input .invalid)) (.input ip) tape source'
  | .loopStart =>
    if cell = 0 then
      let partner := (m.program.partner? ip).getD ip
      .completed none (.skipped partner) (partner + 1) tape source
    else
      .completed none .entered (ip + 1) tape source
  | .loopEnd =>
    let partner := (m.program.partner? ip).getD ip
    .completed none (.returned partner) partner tape source

/-- The events so far and then one more, if there is one. -/
@[inline] def record (event : Option Event) (events : Array Event) : Array Event :=
  match event with
  | some e => events.push e
  | none => events

/-- The number of accepted characters with one more event, if there is one. -/
@[inline] def tally (event : Option Event) (written : Nat) : Nat :=
  match event with
  | some (.output _) => written + 1
  | _ => written

/-- The outcome of one step. -/
inductive Step where
  | next (s : State)
  | halted (result : Except RunError Unit) (s : State)

/-- One step: an instruction or, after the last one, the final line break. -/
def step (m : Machine) (s : State) : Step :=
  let ⟨ip, steps, tape, source, written, events⟩ := s
  match m.program.get? ip with
  | none =>
    match m.sink.refusal? written with
    | none => .halted (.ok ()) ⟨ip, steps, tape, source, written + 1, events.push (.output '\n')⟩
    | some message =>
      .halted (.error (.io m.program.size message)) ⟨ip, steps, tape, source, written, events⟩
  | some i =>
    let pointer := tape.pointer
    let cell := tape.get?.getD 0
    match m.effect i ip tape source written with
    | .completed event action next tape source =>
      let written := tally event written
      let events := record event events
      let events :=
        if m.traced then
          events.push (.trace (.row ⟨steps, ip, pointer, cell, i, action⟩))
        else
          events
      .next ⟨next, steps + 1, tape, source, written, events⟩
    | .failed event error tape source =>
      .halted (.error error) ⟨ip, steps, tape, source, tally event written, record event events⟩

/-- Up to `fuel` steps; `none` if the run is not over by then. -/
def runFor (m : Machine) : (fuel : Nat) → State → Option (Except RunError Unit × State)
  | 0, _ => none
  | fuel + 1, s =>
    match m.step s with
    | .next s' => runFor m fuel s'
    | .halted result s' => some (result, s')

/-- The state before the first instruction; a traced machine has written the header. -/
def start (m : Machine) (tape : Tape) (source : Source) : State :=
  ⟨0, 0, tape, source, 0, if m.traced then #[.trace .columns, .trace .rule] else #[]⟩

end Machine

end Brainfuck
