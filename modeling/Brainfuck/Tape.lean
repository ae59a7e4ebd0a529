/-!
# The tape

A tape is a row of cells and a pointer to one of them.  A cell holds a code point, a number from 0
to `cellMax`, and never wraps.  Every operation checks its bounds and is refused with a `Tape.Fault`
rather than carried out in part.
-/

namespace Brainfuck

/-- The largest value of a cell, the last code point U+10FFFF. -/
def cellMax : Nat := 1114111

/-- The number of cells of a tape for which no size is chosen. -/
def defaultMemorySize : Nat := 30000

/-- A row of cells and the index of the current one. -/
structure Tape where
  cells : Array Nat
  pointer : Nat
  deriving DecidableEq

namespace Tape

/-- Why an operation on a tape is refused. -/
inductive Fault where
  | pointerUnderflow
  /-- There is no cell to the right of the last, or no cell at all. -/
  | pointerOverflow
  | valueOverflow
  | valueUnderflow
  deriving DecidableEq

/-- A tape of zeros with the pointer at the first cell. -/
def zeros (size : Nat) : Tape := ⟨Array.replicate size 0, 0⟩

/-- The number of cells. -/
def size (t : Tape) : Nat := t.cells.size

/-- Whether there is no cell. -/
def isEmpty (t : Tape) : Bool := t.cells.isEmpty

/-- All cells zero again and the pointer at the first. -/
def reset (t : Tape) : Tape := zeros t.size

/-- The value of the current cell. -/
def get? (t : Tape) : Option Nat := t.cells[t.pointer]?

/-- The tape with its pointer one cell further, unless it is at the last. -/
@[inline] def moveRight (t : Tape) : Except Fault Tape :=
  if t.pointer + 1 < t.cells.size then
    .ok ⟨t.cells, t.pointer + 1⟩
  else
    .error .pointerOverflow

/-- The tape with its pointer one cell back, unless it is at the first. -/
@[inline] def moveLeft (t : Tape) : Except Fault Tape :=
  if t.pointer = 0 then
    .error .pointerUnderflow
  else
    .ok ⟨t.cells, t.pointer - 1⟩

/-- The tape with a value stored in the current cell. -/
@[inline] def set (t : Tape) (value : Nat) : Except Fault Tape :=
  if cellMax < value then
    .error .valueOverflow
  else if h : t.pointer < t.cells.size then
    .ok ⟨t.cells.set t.pointer value, t.pointer⟩
  else
    .error .pointerOverflow

/-- The tape with one more in the current cell, unless this holds the largest value. -/
@[inline] def increment (t : Tape) : Except Fault Tape :=
  if h : t.pointer < t.cells.size then
    if cellMax ≤ t.cells[t.pointer] then
      .error .valueOverflow
    else
      .ok ⟨t.cells.set t.pointer (t.cells[t.pointer] + 1), t.pointer⟩
  else
    .error .pointerOverflow

/-- The tape with one less in the current cell, unless this holds zero. -/
@[inline] def decrement (t : Tape) : Except Fault Tape :=
  if h : t.pointer < t.cells.size then
    if t.cells[t.pointer] = 0 then
      .error .valueUnderflow
    else
      .ok ⟨t.cells.set t.pointer (t.cells[t.pointer] - 1), t.pointer⟩
  else
    .error .pointerOverflow

/-- The indices and values of the cells that are not zero, in order. -/
def nonzero (t : Tape) : List (Nat × Nat) :=
  (t.cells.toList.zipIdx.filter fun (value, _) => value ≠ 0).map fun (value, i) => (i, value)

end Tape

end Brainfuck
