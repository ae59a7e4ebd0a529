import Brainfuck.Instruction
import Brainfuck.Text.Quoted

/-!
# Traces

A traced run writes a table: two header lines and then a row for every completed instruction.  A row
shows the machine before its instruction, and tells what the instruction did.
-/

namespace Brainfuck.Trace

/-- What a completed instruction did. -/
inductive Action where
  | moved (pointer : Nat)
  | incremented (pointer before after : Nat)
  | decremented (pointer before after : Nat)
  /-- A character was output for the value of a cell. -/
  | output (c : Char) (value : Nat)
  /-- A character was stored in a cell. -/
  | stored (c : Char) (pointer : Nat)
  /-- A loop was passed over, up to its closing bracket. -/
  | skipped (partner : Nat)
  | entered
  /-- Control went back to the opening bracket. -/
  | returned (partner : Nat)
  deriving DecidableEq

/-- What an instruction did, in words. -/
def Action.text : Action → String
  | moved pointer => "Moved pointer head to index " ++ pointer.repr
  | incremented pointer before after =>
    "Increment cell[" ++ pointer.repr ++ "] from " ++ before.repr ++ " to " ++ after.repr
  | decremented pointer before after =>
    "Decrement cell[" ++ pointer.repr ++ "] from " ++ before.repr ++ " to " ++ after.repr
  | output c value => "Output " ++ Text.quoteChar c ++ " (" ++ Text.codePointText value ++ ")"
  | stored c pointer => "Read " ++ Text.quoteChar c ++ " into cell[" ++ pointer.repr ++ "]"
  | skipped partner => "Cell is 0; jump past matching ']' at IP " ++ partner.repr
  | entered => "Enter loop (cell != 0)"
  | returned partner => "Jump back to matching '[' at IP " ++ partner.repr

/-- A completed instruction: the machine before it, and what it did. -/
structure Row where
  /-- The number of instructions completed before. -/
  step : Nat
  ip : Nat
  pointer : Nat
  cell : Nat
  instruction : Instruction
  action : Action
  deriving DecidableEq

/-- The layout of a row.  Numbers that are wider than their columns stay whole. -/
def rowText (step ip pointer cell : Nat) (i : Instruction) (action : String) : String :=
  Text.padRight 4 step.repr ++ " | " ++ Text.padRight 3 ip.repr ++ " | " ++
    Text.padRight 3 pointer.repr ++ " | " ++ Text.padRight 7 cell.repr ++ " |  " ++
    String.ofList [i.toChar] ++ "    | " ++ action

/-- A line of the table. -/
inductive Line where
  | columns
  | rule
  | row (row : Row)
  deriving DecidableEq

/-- A line of the table as it is written. -/
def Line.text : Line → String
  | columns => "STEP | IP  | PTR | CELL    | INSTR | ACTION"
  | rule =>
    "-----+-----+-----+---------+-------+------------------------------------------------"
  | row r => rowText r.step r.ip r.pointer r.cell r.instruction r.action.text

end Brainfuck.Trace
