import Brainfuck.Machine
import Brainfuck.Proofs.Nesting

/-!
# Structured programs

A program read by its nesting is a `Block`: simple instructions and loops around blocks.  Every
balanced sequence is the reading of exactly one block (`Balanced.exists_block`,
`Block.instructions_injective`).

`Block.Evaluates` is the meaning of a block, by recursion over its loops and without jumps.  It
works on a `Config`: cells with one of them current, a queue of input, and the events so far.  An
evaluation ends in at most one way (`Block.Evaluates.unique`), normally or at an instruction that
fails.  Some rule applies in front of every instruction, so that only an evaluation that goes on for
ever has no derivation.
-/

namespace Brainfuck

/-! ## Blocks -/

/-- A program by its nesting: nothing, or a simple instruction or a loop and what comes after it. -/
inductive Block where
  | empty
  | simple (a : Simple) (rest : Block)
  | loop (body rest : Block)
  deriving DecidableEq

namespace Block

/-- The instructions of a block in order. -/
def instructions : Block → List Instruction
  | empty => []
  | simple a rest => a :: rest.instructions
  | loop body rest => .loopStart :: (body.instructions ++ .loopEnd :: rest.instructions)

/-- The number of instructions of a block. -/
def size (b : Block) : ℕ := b.instructions.length

@[simp] theorem size_simple (a : Simple) (rest : Block) : (simple a rest).size = rest.size + 1 :=
  rfl

@[simp] theorem size_loop (body rest : Block) :
    (loop body rest).size = body.size + rest.size + 2 := by
  simp only [size, instructions, List.length_cons, List.length_append]
  omega

theorem balanced (b : Block) : Balanced b.instructions := by
  induction b with
  | empty => exact .empty
  | simple a _ ih => exact .simple a ih
  | loop _ _ ihBody ihRest => exact .loop ihBody ihRest

/-- A closing bracket shows where a block ends. -/
theorem append_loopEnd_injective {b b' : Block} {after after' : List Instruction}
    (h : b.instructions ++ .loopEnd :: after = b'.instructions ++ .loopEnd :: after') :
    b = b' ∧ after = after' := by
  induction b generalizing b' after after' with
  | empty =>
    cases b' with
    | empty => exact ⟨rfl, (List.cons.inj h).2⟩
    | simple a _ => exact absurd (List.cons.inj h).1.symm a.toInstruction_ne_loopEnd
    | loop _ _ => exact absurd (List.cons.inj h).1 (by decide)
  | simple a rest ih =>
    cases b' with
    | empty => exact absurd (List.cons.inj h).1 a.toInstruction_ne_loopEnd
    | simple a' rest' =>
      obtain rfl := Simple.toInstruction_injective (List.cons.inj h).1
      obtain ⟨rfl, hafter⟩ := ih (List.cons.inj h).2
      exact ⟨rfl, hafter⟩
    | loop _ _ => exact absurd (List.cons.inj h).1 a.toInstruction_ne_loopStart
  | loop body rest ihBody ihRest =>
    cases b' with
    | empty => exact absurd (List.cons.inj h).1 (by decide)
    | simple a _ => exact absurd (List.cons.inj h).1.symm a.toInstruction_ne_loopStart
    | loop body' rest' =>
      simp only [instructions, List.cons_append, List.append_assoc, List.cons.injEq,
        true_and] at h
      obtain ⟨rfl, hrest⟩ := ihBody h
      obtain ⟨rfl, hafter⟩ := ihRest hrest
      exact ⟨rfl, hafter⟩

theorem instructions_injective {b b' : Block} (h : b.instructions = b'.instructions) : b = b' := by
  have hend : b.instructions ++ [.loopEnd] = b'.instructions ++ [.loopEnd] := by rw [h]
  exact (append_loopEnd_injective hend).1

end Block

theorem Balanced.exists_block {is : List Instruction} (h : Balanced is) :
    ∃ b : Block, b.instructions = is := by
  induction h with
  | empty => exact ⟨.empty, rfl⟩
  | simple a _ ih =>
    obtain ⟨rest, rfl⟩ := ih
    exact ⟨.simple a rest, rfl⟩
  | loop _ _ ihBody ihRest =>
    obtain ⟨body, rfl⟩ := ihBody
    obtain ⟨rest, rfl⟩ := ihRest
    exact ⟨.loop body rest, rfl⟩

/-! ## Simple instructions -/

/-- What a program works on. -/
structure Config (n : ℕ) where
  cells : Vector ℕ n
  /-- The current cell. -/
  pointer : Fin n
  /-- The input that is left; an empty item is an end of the input. -/
  queue : List (Option Char)
  /-- The input and output events so far. -/
  events : Array Event

/-- How carrying out instructions ends. -/
inductive Ending (n : ℕ) where
  | done (c : Config n)
  | failed (error : RunError) (c : Config n)

namespace Config

variable {n : ℕ}

/-- Zeros, the first cell current, and nothing has happened. -/
def initial (h : 1 ≤ n) (queue : List (Option Char)) : Config n :=
  ⟨Vector.replicate n 0, ⟨0, h⟩, queue, #[]⟩

/-- The value of the current cell. -/
def cell (c : Config n) : ℕ := c.cells[c.pointer]

/-- The cell to the right becomes current. -/
def moveRight (c : Config n) (h : c.pointer.val + 1 < n) : Config n :=
  { c with pointer := ⟨c.pointer.val + 1, h⟩ }

/-- The cell to the left becomes current. -/
def moveLeft (c : Config n) : Config n := { c with pointer := ⟨c.pointer.val - 1, by omega⟩ }

/-- The current cell gets a value. -/
def store (c : Config n) (value : ℕ) : Config n :=
  { c with cells := c.cells.set c.pointer value }

@[simp] theorem cell_store (c : Config n) (value : ℕ) : (c.store value).cell = value :=
  Vector.getElem_set_self _

@[simp] theorem store_cell (c : Config n) : c.store c.cell = c := by
  simp [store, cell]

@[simp] theorem store_store (c : Config n) (value value' : ℕ) :
    (c.store value).store value' = c.store value' := by
  simp [store]

/-- An event happens. -/
def emit (c : Config n) (event : Event) : Config n :=
  { c with events := c.events.push event }

/-- The meaning of a simple instruction at index `ip`. -/
def perform (c : Config n) (ip : ℕ) : Simple → Ending n
  | .right =>
    if h : c.pointer.val + 1 < n then .done (c.moveRight h)
    else .failed (.pointerOverflow ip c.pointer) c
  | .left =>
    if c.pointer.val = 0 then .failed (.pointerUnderflow ip) c
    else .done c.moveLeft
  | .increment =>
    if c.cell < cellMax then .done (c.store (c.cell + 1))
    else .failed (.valueOverflow ip c.pointer) c
  | .decrement =>
    if 0 < c.cell then .done (c.store (c.cell - 1))
    else .failed (.valueUnderflow ip c.pointer) c
  | .write => .done (c.emit (.output (cellChar c.cell)))
  | .read =>
    match c.queue with
    | some x :: queue =>
      .done (({ c with queue := queue }.store x.toNat).emit (.input (.char x)))
    | none :: queue => .failed (.input ip) ({ c with queue := queue }.emit (.input .endOfInput))
    | [] => .failed (.input ip) (c.emit (.input .endOfInput))

end Config

/-! ## Evaluation -/

/-- Evaluating a block whose first instruction has the index `ip`.  A loop runs its body, and then
itself once more, as long as the current cell is not zero in front of it. -/
inductive Block.Evaluates {n : ℕ} : Block → ℕ → Config n → Ending n → Prop where
  | empty {ip : ℕ} {c : Config n} : Evaluates .empty ip c (.done c)
  | simple {a : Simple} {rest : Block} {ip : ℕ} {c c' : Config n} {o : Ending n} :
      c.perform ip a = .done c' → Evaluates rest (ip + 1) c' o →
      Evaluates (.simple a rest) ip c o
  | simpleFailed {a : Simple} {rest : Block} {ip : ℕ} {c c' : Config n} {e : RunError} :
      c.perform ip a = .failed e c' → Evaluates (.simple a rest) ip c (.failed e c')
  | loopDone {body rest : Block} {ip : ℕ} {c : Config n} {o : Ending n} :
      c.cell = 0 → Evaluates rest (ip + body.size + 2) c o →
      Evaluates (.loop body rest) ip c o
  | loopAgain {body rest : Block} {ip : ℕ} {c c' : Config n} {o : Ending n} :
      c.cell ≠ 0 → Evaluates body (ip + 1) c (.done c') → Evaluates (.loop body rest) ip c' o →
      Evaluates (.loop body rest) ip c o
  | loopFailed {body rest : Block} {ip : ℕ} {c c' : Config n} {e : RunError} :
      c.cell ≠ 0 → Evaluates body (ip + 1) c (.failed e c') →
      Evaluates (.loop body rest) ip c (.failed e c')

/-- A block has at most one ending. -/
theorem Block.Evaluates.unique {n : ℕ} {b : Block} {ip : ℕ} {c : Config n} {o o' : Ending n}
    (h : b.Evaluates ip c o) (h' : b.Evaluates ip c o') : o = o' := by
  induction h generalizing o' with
  | empty => cases h' with | empty => rfl
  | simple hperform _ ih =>
    cases h' with
    | simple hperform' hrest' =>
      cases hperform.symm.trans hperform'
      exact ih hrest'
    | simpleFailed hperform' => cases hperform.symm.trans hperform'
  | simpleFailed hperform =>
    cases h' with
    | simple hperform' _ => cases hperform.symm.trans hperform'
    | simpleFailed hperform' =>
      cases hperform.symm.trans hperform'
      rfl
  | loopDone zero _ ih =>
    cases h' with
    | loopDone _ hrest' => exact ih hrest'
    | loopAgain nonzero _ _ => exact absurd zero nonzero
    | loopFailed nonzero _ => exact absurd zero nonzero
  | loopAgain nonzero _ _ ihBody ihAgain =>
    cases h' with
    | loopDone zero _ => exact absurd zero nonzero
    | loopAgain _ hbody' hagain' =>
      cases ihBody hbody'
      exact ihAgain hagain'
    | loopFailed _ hbody' => cases ihBody hbody'
  | loopFailed nonzero _ ihBody =>
    cases h' with
    | loopDone zero _ => exact absurd zero nonzero
    | loopAgain _ hbody' _ => cases ihBody hbody'
    | loopFailed _ hbody' =>
      cases ihBody hbody'
      rfl

end Brainfuck
