import Brainfuck.Instruction

/-!
# Programs

A program is a sequence of instructions whose brackets pair up, together with the partner of every
bracket.  `Program.parse` reads one from a text, from left to right, with the loops that are still
open on a stack.  Positions count instructions, not characters of the text.
-/

namespace Brainfuck

/-- The two brackets of a loop. -/
inductive Bracket where
  | opening
  | closing
  deriving DecidableEq

/-- Why a text is no program. -/
inductive ParseError where
  /-- The bracket at `ip` has no partner.  Of closing brackets this is the first without one, of
  several opening brackets the last. -/
  | unmatched (bracket : Bracket) (ip : Nat)
  /-- The opening bracket at `ip` is the only one without a partner. -/
  | unclosed (ip : Nat)
  deriving DecidableEq

/-- The instruction at which a text stops being a program. -/
def ParseError.ip : ParseError → Nat
  | unmatched _ ip => ip
  | unclosed ip => ip

/-- A sequence of instructions with the partner of every bracket. -/
structure Program where
  instructions : Array Instruction
  /-- At the index of a bracket the index of its partner, and `none` elsewhere. -/
  partners : Array (Option Nat)
  deriving DecidableEq

namespace Program

/-- What is wrong with loops that were never closed, given innermost first. -/
def unclosedError? : List Nat → Option ParseError
  | [] => none
  | [ip] => some (.unclosed ip)
  | ip :: _ :: _ => some (.unmatched .opening ip)

/-- Pairs the brackets of the instructions from index `ip` on.  `opened` holds the opening brackets
without a partner so far, innermost first, and `partners` the pairs that are known. -/
def pair : List Instruction → (ip : Nat) → (opened : List Nat) →
    (partners : Array (Option Nat)) → Except ParseError (Array (Option Nat))
  | [], _, opened, partners =>
    match unclosedError? opened with
    | none => .ok partners
    | some e => .error e
  | i :: is, ip, opened, partners =>
    match i, opened with
    | .loopStart, _ => pair is (ip + 1) (ip :: opened) partners
    | .loopEnd, [] => .error (.unmatched .closing ip)
    | .loopEnd, start :: outer =>
      pair is (ip + 1) outer
        ((partners.setIfInBounds start (some ip)).setIfInBounds ip (some start))
    | _, _ => pair is (ip + 1) opened partners

/-- The program that a sequence of instructions spells, if its brackets pair up. -/
def ofInstructions (is : List Instruction) : Except ParseError Program :=
  match pair is 0 [] (Array.replicate is.length none) with
  | .ok partners => .ok ⟨is.toArray, partners⟩
  | .error e => .error e

/-- The program that a text spells, if its brackets pair up. -/
def parse (text : String) : Except ParseError Program :=
  ofInstructions (instructionsOf text)

/-- The number of instructions. -/
def size (p : Program) : Nat := p.instructions.size

/-- Whether there is no instruction. -/
def isEmpty (p : Program) : Bool := p.instructions.isEmpty

/-- The instruction at an index, if there is one. -/
def get? (p : Program) (ip : Nat) : Option Instruction := p.instructions[ip]?

/-- The index of the partner of the bracket at an index. -/
def partner? (p : Program) (ip : Nat) : Option Nat := p.partners[ip]?.join

/-- The text of a program without comments. -/
def toText (p : Program) : String := Instruction.textOf p.instructions.toList

theorem instructions_of_ofInstructions {is : List Instruction} {p : Program}
    (h : ofInstructions is = .ok p) : p.instructions = is.toArray := by
  unfold ofInstructions at h
  split at h <;> cases h
  rfl

end Program

end Brainfuck
