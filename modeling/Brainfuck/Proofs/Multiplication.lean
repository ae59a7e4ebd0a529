import Brainfuck.Proofs.Demand
import Brainfuck.Proofs.Refinement

/-!
# The multiplication loop

After `a` increments the loop of `b` increments has `a` rounds, each of which takes one from the
first cell and adds `b` to the second (`evaluates_round`).  The rounds that are left are what the
induction is on: the product is in the second cell behind the last of them (`evaluates_rounds`), or
one of them fails where the second cell would pass the ceiling (`rounds_overflow`).  For a run this
is `Interpreter.multiplication_exact`.
-/

namespace Brainfuck

variable {n : ℕ}

/-! ## Programs without input -/

/-- Where an evaluation ends and the program has no `,`, a run has the same end with any input. -/
theorem exists_run_of_evaluates {text : String} {p : Program} (hp : Program.parse text = .ok p)
    (quiet : .read ∉ instructionsOf text) {r : Interpreter} (loaded : r.load = .ok p)
    (hsize : r.tape.size = n) (positive : 1 ≤ n) {b : Block}
    (hb : b.instructions = instructionsOf text) (nonempty : 1 ≤ b.size) {o : Ending n}
    (h : b.Evaluates 0 (.initial positive []) o) (source : Source) :
    ∃ fuel, r.run .working source fuel = some { o.outcome r.code p with source := source } := by
  subst hsize
  have parsed := Program.parsed_of_parse hp
  have hsize : p.size = b.size := by rw [parsed.size_eq, Block.size, hb]
  obtain ⟨fuel, hrun⟩ := (run_ends_iff parsed (by omega) loaded positive [] hb _).2 ⟨o, h, rfl⟩
  have hquiet : ∀ ip, p.get? ip ≠ some .read := by
    intro ip hread
    rw [parsed.get?_eq] at hread
    exact quiet (List.mem_of_getElem? hread)
  refine ⟨fuel, ?_⟩
  rw [Interpreter.run] at hrun ⊢
  rw [Interpreter.execute_withSource loaded hquiet (.queue []) source, hrun]
  rfl

/-! ## Rows of increments -/

namespace Block

/-- A row of increments in front of a block. -/
def increments : ℕ → Block → Block
  | 0, rest => rest
  | k + 1, rest => .simple .increment (increments k rest)

theorem instructions_increments (k : ℕ) (rest : Block) :
    (increments k rest).instructions = List.replicate k .increment ++ rest.instructions := by
  induction k with
  | zero => rfl
  | succ k ih =>
    rw [increments, instructions, ih]
    rfl

theorem size_increments (k : ℕ) (rest : Block) : (increments k rest).size = k + rest.size := by
  rw [size, instructions_increments, List.length_append, List.length_replicate, size]

variable {k v ip : ℕ} {rest : Block} {c : Config n} {o : Ending n}

theorem evaluates_increments (hv : c.cell = v) (room : v + k ≤ cellMax)
    (h : rest.Evaluates (ip + k) (c.store (v + k)) o) : (increments k rest).Evaluates ip c o := by
  induction k generalizing v ip c with
  | zero =>
    rw [Nat.add_zero, Nat.add_zero, ← hv, Config.store_cell] at h
    exact h
  | succ k ih =>
    have hperform : c.perform ip .increment = .done (c.store (c.cell + 1)) := if_pos (by omega)
    rw [hv] at hperform
    refine .simple hperform (ih (c.cell_store (v + 1)) (by omega) ?_)
    rw [Config.store_store, Nat.add_right_comm _ 1, Nat.add_right_comm _ 1]
    exact h

/-- The first increment without room fails. -/
theorem increments_overflow (hv : c.cell = v) (low : v ≤ cellMax) (beyond : cellMax < v + k) :
    (increments k rest).Evaluates ip c
      (.failed (.valueOverflow (ip + (cellMax - v)) c.pointer) (c.store cellMax)) := by
  induction k generalizing v ip c with
  | zero => omega
  | succ k ih =>
    by_cases room : v < cellMax
    · have hperform : c.perform ip .increment = .done (c.store (c.cell + 1)) := if_pos (by omega)
      rw [hv] at hperform
      have later := @ih (v + 1) (ip + 1) _ (c.cell_store (v + 1)) (by omega) (by omega)
      rw [Config.store_store, show ip + 1 + (cellMax - (v + 1)) = ip + (cellMax - v) by omega]
        at later
      exact .simple hperform later
    · obtain rfl : v = cellMax := by omega
      have hperform : c.perform ip .increment = .failed (.valueOverflow ip c.pointer) c :=
        if_neg (by omega)
      rw [Nat.sub_self, Nat.add_zero, ← hv, Config.store_cell]
      exact .simpleFailed hperform

end Block

/-! ## Two cells -/

namespace Config

/-- Zeros but for the first two cells, with one of these current; nothing has happened. -/
def pair (hn : 2 ≤ n) (current : Fin 2) (x y : ℕ) : Config n :=
  ⟨((Vector.replicate n 0).set 0 x).set 1 y, current.castLE hn, [], #[]⟩

variable (hn : 2 ≤ n) (x y ip : ℕ)

theorem pair_zeros : pair hn 0 0 0 = initial (by omega) [] := by
  unfold pair initial
  congr 1
  ext i hi
  simp

theorem cell_pair_zero : (pair hn 0 x y).cell = x := by
  simp [pair, cell]

theorem cell_pair_one : (pair hn 1 x y).cell = y := by
  simp [pair, cell]

theorem store_pair_zero (v : ℕ) : (pair hn 0 x y).store v = pair hn 0 v y := by
  have hne : 1 ≠ ((0 : Fin 2).castLE hn).val := Nat.one_ne_zero
  unfold pair store
  rw [Vector.set_comm _ _ hne]
  simp

theorem store_pair_one (v : ℕ) : (pair hn 1 x y).store v = pair hn 1 x v := by
  simp [pair, store]

theorem perform_right_pair : (pair hn 0 x y).perform ip .right = .done (pair hn 1 x y) :=
  dif_pos hn

theorem perform_left_pair : (pair hn 1 x y).perform ip .left = .done (pair hn 0 x y) := rfl

theorem perform_decrement_pair :
    (pair hn 0 (x + 1) y).perform ip .decrement = .done (pair hn 0 x y) := by
  have hcell := cell_pair_zero hn (x + 1) y
  have hperform : (pair hn 0 (x + 1) y).perform ip .decrement = .done _ := if_pos (by omega)
  rw [hperform, hcell, store_pair_zero]
  rfl

theorem tape_pair (current : Fin 2) :
    (pair hn current x y).tape = ⟨#[x, y] ++ Array.replicate (n - 2) 0, current⟩ := by
  unfold tape pair
  congr 1
  simp only [Vector.toArray_set, Vector.toArray_replicate]
  apply Array.ext
  · simp; omega
  · intro i h1 h2
    rcases i with _ | _ | i <;> simp [Array.getElem_set]

end Config

/-! ## Rounds -/

namespace Multiplication

/-- One round: `>`, `b` increments and `<-`. -/
def round (b : ℕ) : Block :=
  .simple .right (.increments b (.simple .left (.simple .decrement .empty)))

variable (hn : 2 ≤ n) {b x y ip : ℕ} {rest : Block} {o : Ending n}

/-- A round takes one from the first cell and adds `b` to the second. -/
theorem evaluates_round (room : y + b ≤ cellMax) :
    (round b).Evaluates ip (.pair hn 0 (x + 1) y) (.done (.pair hn 0 x (y + b))) := by
  refine .simple (Config.perform_right_pair hn (x + 1) y ip) ?_
  refine Block.evaluates_increments (Config.cell_pair_one hn (x + 1) y) room ?_
  rw [Config.store_pair_one]
  refine .simple (Config.perform_left_pair hn (x + 1) (y + b) _) ?_
  exact .simple (Config.perform_decrement_pair hn x (y + b) _) .empty

/-- A round fails if the second cell has no room for it. -/
theorem round_overflow (low : y ≤ cellMax) (beyond : cellMax < y + b) :
    (round b).Evaluates ip (.pair hn 0 x y)
      (.failed (.valueOverflow (ip + 1 + (cellMax - y)) 1) (.pair hn 1 x cellMax)) := by
  rw [← Config.store_pair_one hn x y]
  refine .simple (Config.perform_right_pair hn x y ip) ?_
  exact Block.increments_overflow (Config.cell_pair_one hn x y) low beyond

/-- All rounds together bring the product to the second cell. -/
theorem evaluates_rounds (room : y + x * b ≤ cellMax)
    (h : rest.Evaluates (ip + (round b).size + 2) (.pair hn 0 0 (y + x * b)) o) :
    (Block.loop (round b) rest).Evaluates ip (.pair hn 0 x y) o := by
  induction x generalizing y with
  | zero =>
    rw [Nat.zero_mul, Nat.add_zero] at h
    exact .loopDone (Config.cell_pair_zero hn 0 y) h
  | succ x ih =>
    have hcell := Config.cell_pair_zero hn (x + 1) y
    have hsum : y + (x + 1) * b = y + b + x * b := by rw [Nat.succ_mul]; omega
    rw [hsum] at room h
    exact .loopAgain (by omega) (evaluates_round hn (by omega)) (ih room h)

/-- If the product is too large, the first round without room fails.  Before it there are as many as
the second cell has room for. -/
theorem rounds_overflow (low : y ≤ cellMax) (beyond : cellMax < y + x * b) :
    (Block.loop (round b) rest).Evaluates ip (.pair hn 0 x y)
      (.failed (.valueOverflow (ip + 2 + (cellMax - y) % b) 1)
        (.pair hn 1 (x - (cellMax - y) / b) cellMax)) := by
  induction x generalizing y with
  | zero => omega
  | succ x ih =>
    have hcell := Config.cell_pair_zero hn (x + 1) y
    have nonzero : (Config.pair hn 0 (x + 1) y).cell ≠ 0 := by omega
    by_cases room : y + b ≤ cellMax
    · have hsum : y + (x + 1) * b = y + b + x * b := by rw [Nat.succ_mul]; omega
      have positive : 0 < b := by
        by_contra hb
        obtain rfl : b = 0 := by omega
        omega
      -- The round takes `b` of the room, which is one off the quotient and leaves the remainder.
      have later := ih room (by omega)
      have hleft : cellMax - (y + b) = cellMax - y - b := by omega
      rw [hleft, ← Nat.mod_eq_sub_mod (by omega)] at later
      rw [Nat.div_eq_sub_div positive (by omega), Nat.succ_sub_succ]
      exact .loopAgain nonzero (evaluates_round hn room) later
    · have short : cellMax - y < b := by omega
      rw [Nat.mod_eq_of_lt short, Nat.div_eq_of_lt short, Nat.sub_zero]
      exact .loopFailed nonzero (round_overflow hn low (by omega))

/-! ## The program -/

/-- The whole program: `a` increments, the loop and `>.`. -/
def block (a b : ℕ) : Block :=
  .increments a (.loop (round b) (.simple .right (.simple .write .empty)))

theorem one_le_size_block (a b : ℕ) : 1 ≤ (block a b).size := by
  rw [block, Block.size_increments, Block.size_loop]
  omega

/-- The text of the program. -/
def text (a b : ℕ) : String :=
  String.ofList (List.replicate a '+') ++ "[>" ++ String.ofList (List.replicate b '+') ++ "<-]>."

theorem text_eq (a b : ℕ) : text a b = Instruction.textOf (block a b).instructions := by
  apply String.toList_injective
  simp [text, Instruction.textOf, block, round, Block.instructions_increments, Block.instructions,
    Instruction.toChar, Simple.toInstruction]

example : text 4 4 = "++++[>++++<-]>." := by decide +kernel

theorem instructions_block (a b : ℕ) : (block a b).instructions = instructionsOf (text a b) := by
  rw [text_eq, instructionsOf_textOf]

theorem read_notMem_text (a b : ℕ) : Instruction.read ∉ instructionsOf (text a b) := by
  rw [← instructions_block]
  simp [block, round, Block.instructions_increments, Block.instructions, Simple.toInstruction]

/-- The run of the text ends like the evaluation of the block, with any input. -/
theorem exists_run {a b : ℕ} (positive : 1 ≤ n) {o : Ending n}
    (h : (block a b).Evaluates 0 (.initial positive []) o) (source : Source) :
    ∃ fuel p, (Interpreter.ofText (text a b) n).run .working source fuel =
      some { o.outcome (text a b) p with source := source } := by
  obtain ⟨p, hp⟩ : ∃ p, Program.parse (text a b) = .ok p := by
    apply Program.exists_parse_of_balanced
    rw [← instructions_block]
    exact (block a b).balanced
  have loaded : (Interpreter.ofText (text a b) n).load = .ok p := hp
  have hsize : (Interpreter.ofText (text a b) n).tape.size = n := Array.size_replicate
  obtain ⟨fuel, hrun⟩ := exists_run_of_evaluates hp (read_notMem_text a b) loaded hsize positive
    (instructions_block a b) (one_le_size_block a b) h source
  exact ⟨fuel, p, hrun⟩

/-- A cell shows its value as the character with that code point, and a surrogate as the replacement
character. -/
theorem cellChar_eq {value : ℕ} (h : value ≤ cellMax) :
    if 0xD800 ≤ value ∧ value ≤ 0xDFFF then cellChar value = '\uFFFD'
    else (cellChar value).toNat = value := by
  unfold cellMax at h
  split
  · next surrogate =>
    have invalid : ¬ value.isValidChar := by
      unfold Nat.isValidChar
      omega
    rw [cellChar, if_neg invalid]
  · next scalar =>
    have valid : value.isValidChar := by
      unfold Nat.isValidChar
      omega
    rw [cellChar, if_pos valid, Char.ofNat, dif_pos valid]
    rfl

/-- If the product is a value of a cell, the program puts it out as a character. -/
theorem evaluates_block {a : ℕ} (ha : a ≤ cellMax) (room : a * b ≤ cellMax) :
    (block a b).Evaluates 0 (.initial (by omega) [])
      (.done ((Config.pair hn 1 0 (a * b)).emit (.output (cellChar (a * b))))) := by
  rw [← Config.pair_zeros hn]
  refine Block.evaluates_increments (Config.cell_pair_zero hn 0 0) (by omega) ?_
  rw [Config.store_pair_zero, Nat.zero_add]
  refine evaluates_rounds hn (by omega) ?_
  rw [Nat.zero_add]
  refine .simple (Config.perform_right_pair hn 0 (a * b) _) (.simple ?_ .empty)
  rw [Config.perform, Config.cell_pair_one]

/-- If the product is too large, the program fails in the round in which the second cell is full. -/
theorem block_overflow {a : ℕ} (ha : a ≤ cellMax) (beyond : cellMax < a * b) :
    (block a b).Evaluates 0 (.initial (by omega) [])
      (.failed (.valueOverflow (a + 2 + cellMax % b) 1)
        (.pair hn 1 (a - cellMax / b) cellMax)) := by
  rw [← Config.pair_zeros hn]
  refine Block.evaluates_increments (Config.cell_pair_zero hn 0 0) (by omega) ?_
  rw [Config.store_pair_zero, Nat.zero_add]
  exact rounds_overflow hn (Nat.zero_le _) (by omega)

end Multiplication

namespace Interpreter

open Multiplication

/-- The product of two numbers is exact up to the ceiling of cells.  If it is a value of a cell, the
program of `a` increments, `[>`, `b` increments and `<-]>.` puts it out as a character and leaves it in
the second cell.  If it is too large, the second cell is full and the first still has the rounds that
are left. -/
theorem multiplication_exact {a : ℕ} (ha : a ≤ cellMax) (b : ℕ) (hn : 2 ≤ n) (source : Source) :
    ∃ fuel o, (ofText (text a b) n).run .working source fuel = some o ∧ o.source = source ∧
      (a * b ≤ cellMax →
        o.result = .ok () ∧
        o.interpreter.tape = ⟨#[0, a * b] ++ Array.replicate (n - 2) 0, 1⟩ ∧
        ∃ c, o.events = #[.output c, .output '\n'] ∧
          if 0xD800 ≤ a * b ∧ a * b ≤ 0xDFFF then c = '\uFFFD' else c.toNat = a * b) ∧
      (cellMax < a * b →
        o.result = .error (.valueOverflow (a + 2 + cellMax % b) 1) ∧
        o.interpreter.tape = ⟨#[a - cellMax / b, cellMax] ++ Array.replicate (n - 2) 0, 1⟩ ∧
        o.events = #[]) := by
  rcases Nat.lt_or_ge cellMax (a * b) with beyond | room
  · obtain ⟨fuel, p, hrun⟩ := exists_run (by omega) (block_overflow hn ha beyond) source
    refine ⟨fuel, _, hrun, rfl, fun room => absurd beyond room.not_gt, fun _ => ⟨rfl, ?_, rfl⟩⟩
    exact Config.tape_pair hn (a - cellMax / b) cellMax 1
  · obtain ⟨fuel, p, hrun⟩ := exists_run (by omega) (evaluates_block hn ha room) source
    refine ⟨fuel, _, hrun, rfl, fun _ => ⟨rfl, ?_, _, rfl, cellChar_eq room⟩,
      fun beyond => absurd beyond room.not_gt⟩
    exact Config.tape_pair hn 0 (a * b) 1

/-- Two times 400000 fits a cell and three times does not.  216 times 256 is the first surrogate. -/
theorem multiplication_exact_beyond_characters :
    (∃ fuel o, (ofText (text 3 400000) 2).run .working (.queue []) fuel = some o ∧
      o.result = .error (.valueOverflow 314116 1) ∧ o.interpreter.tape = ⟨#[1, cellMax], 1⟩ ∧
      o.events = #[]) ∧
    ∃ fuel o, (ofText (text 216 256) 3).run .working (.queue []) fuel = some o ∧
      o.result = .ok () ∧ o.interpreter.tape = ⟨#[0, 0xD800, 0], 1⟩ ∧
      o.events = #[.output '\uFFFD', .output '\n'] := by
  constructor
  · obtain ⟨fuel, o, hrun, -, -, beyond⟩ :=
      multiplication_exact (n := 2) (by decide : 3 ≤ cellMax) 400000 le_rfl (.queue [])
    obtain ⟨hresult, htape, hevents⟩ := beyond (by decide)
    exact ⟨fuel, o, hrun, hresult, htape, hevents⟩
  · obtain ⟨fuel, o, hrun, -, fits, -⟩ :=
      multiplication_exact (n := 3) (by decide : 216 ≤ cellMax) 256 (by decide) (.queue [])
    obtain ⟨hresult, htape, c, hevents, hc⟩ := fits (by decide)
    obtain rfl : c = '\uFFFD' := hc
    exact ⟨fuel, o, hrun, hresult, htape, hevents⟩

end Interpreter

end Brainfuck
