import Brainfuck.Tape

/-!
# Operations on a tape

The operations of a tape as data, so that histories can be stated: `perform` carries one out, and a
refused operation leaves the tape alone.
-/

namespace Brainfuck

namespace Tape

/-- An operation on a tape. -/
inductive Operation where
  | moveRight
  | moveLeft
  | increment
  | decrement
  | set (value : Nat)
  | get
  | reset
  deriving DecidableEq

/-- What an operation that was carried out reports. -/
inductive Answer where
  /-- Nothing is reported but that it was done. -/
  | done
  /-- The value of the current cell, for operations that report it. -/
  | value (value : Nat)
  deriving DecidableEq

/-- Carries out an operation, and gives its answer and the tape afterwards. -/
@[inline] def perform (t : Tape) : Operation → Except Fault Answer × Tape
  | .moveRight =>
    match t.moveRight with
    | .ok t' => (.ok .done, t')
    | .error f => (.error f, t)
  | .moveLeft =>
    match t.moveLeft with
    | .ok t' => (.ok .done, t')
    | .error f => (.error f, t)
  | .increment =>
    let value := t.get?.getD 0
    match t.increment with
    | .ok t' => (.ok (.value (value + 1)), t')
    | .error f => (.error f, t)
  | .decrement =>
    let value := t.get?.getD 0
    match t.decrement with
    | .ok t' => (.ok (.value (value - 1)), t')
    | .error f => (.error f, t)
  | .set value =>
    match t.set value with
    | .ok t' => (.ok .done, t')
    | .error f => (.error f, t)
  | .get =>
    match t.get? with
    | some value => (.ok (.value value), t)
    | none => (.error .pointerOverflow, t)
  | .reset => (.ok .done, t.reset)

/-- Carries out an operation up to `n + 1` times, until it is refused, and gives the answer of the
last attempt. -/
def performTimes (op : Operation) : Nat → Tape → Except Fault Answer × Tape
  | 0, t => t.perform op
  | n + 1, t =>
    match t.perform op with
    | (.ok _, t') => performTimes op n t'
    | (.error f, t') => (.error f, t')

end Tape

end Brainfuck
