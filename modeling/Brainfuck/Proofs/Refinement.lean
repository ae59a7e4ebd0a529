import Brainfuck.Proofs.Effects
import Brainfuck.Proofs.Loops
import Brainfuck.Proofs.Start
import Brainfuck.Proofs.Structured
import Brainfuck.Proofs.TapeBounds

/-!
# Runs refine the structured meaning

The machine jumps along the table of its program, and `Block.Evaluates` recurses over loops.  Where
the instructions of a block stand in a program, a run from the first of them does what the
evaluation of the block does (`realises_of_evaluates`), and an evaluation exists wherever the run
ends (`witnesses_of_runFor`).  For whole programs this is `run_refines_evaluation`.
-/

namespace Brainfuck

open Machine

variable {n : ℕ}

/-! ## States and configurations -/

namespace Config

/-- The cells of a configuration as a tape. -/
def tape (c : Config n) : Tape := ⟨c.cells.toArray, c.pointer⟩

/-- The machine at index `ip` after a number of steps. -/
def state (c : Config n) (ip steps : ℕ) : State :=
  ⟨ip, steps, c.tape, .queue c.queue, (outputs c.events).length, c.events⟩

theorem state_emit_output (c : Config n) (x : Char) (ip steps : ℕ) :
    (c.emit (.output x)).state ip steps =
      ⟨ip, steps, c.tape, .queue c.queue, (outputs c.events).length + 1,
        c.events.push (.output x)⟩ := by
  rw [state, emit, outputs_push_output, List.length_append, List.length_singleton]
  rfl

theorem state_emit_input (c : Config n) (answer : CharRead) (ip steps : ℕ) :
    (c.emit (.input answer)).state ip steps =
      ⟨ip, steps, c.tape, .queue c.queue, (outputs c.events).length,
        c.events.push (.input answer)⟩ := by
  rw [state, emit, outputs_push_of_ne_output (by simp)]
  rfl

@[simp] theorem size_tape (c : Config n) : c.tape.cells.size = n := c.cells.size_toArray

theorem get?_tape (c : Config n) : c.tape.get? = some c.cell := by
  simp [tape, Tape.get?, cell]

@[simp] theorem getD_get?_tape (c : Config n) : c.tape.get?.getD 0 = c.cell := by
  rw [get?_tape, Option.getD_some]

theorem set_tape (c : Config n) {value : ℕ} (h : value ≤ cellMax) :
    c.tape.set value = .ok (c.store value).tape := by
  simp [Tape.set, tape, store, Nat.not_lt.2 h]

theorem moveRight_tape (c : Config n) :
    c.tape.moveRight = if h : c.pointer.val + 1 < n then .ok (c.moveRight h).tape
      else .error .pointerOverflow := by
  unfold Tape.moveRight
  rw [size_tape]
  by_cases h : c.pointer.val + 1 < n
  · rw [dif_pos h]
    exact if_pos h
  · rw [dif_neg h]
    exact if_neg h

theorem moveLeft_tape (c : Config n) :
    c.tape.moveLeft = if c.pointer.val = 0 then .error .pointerUnderflow
      else .ok c.moveLeft.tape := rfl

theorem increment_tape (c : Config n) :
    c.tape.increment = if c.cell < cellMax then .ok (c.store (c.cell + 1)).tape
      else .error .valueOverflow := by
  unfold Tape.increment
  rw [dif_pos (by simp [tape])]
  by_cases h : c.cell < cellMax
  · rw [if_pos h]
    exact if_neg (Nat.not_le.2 h)
  · rw [if_neg h]
    exact if_pos (Nat.not_lt.1 h)

theorem decrement_tape (c : Config n) :
    c.tape.decrement = if 0 < c.cell then .ok (c.store (c.cell - 1)).tape
      else .error .valueUnderflow := by
  unfold Tape.decrement
  rw [dif_pos (by simp [tape])]
  by_cases h : 0 < c.cell
  · rw [if_pos h]
    exact if_neg h.ne'
  · rw [if_neg h]
    exact if_pos (Nat.eq_zero_of_not_pos h)

end Config

/-! ## One step -/

/-- What the machine makes of a simple instruction at index `ip`. -/
def Ending.step (ip steps : ℕ) : Ending n → Step
  | .done c => .next (c.state (ip + 1) (steps + 1))
  | .failed e c => .halted (.error e) (c.state ip steps)

/-- A machine without trace whose output works. -/
def plain (p : Program) : Machine := ⟨p, .working, false⟩

theorem step_simple {p : Program} {ip : ℕ} {a : Simple} (h : p.get? ip = some a.toInstruction)
    (c : Config n) (steps : ℕ) :
    (plain p).step (c.state ip steps) = (c.perform ip a).step ip steps := by
  have hget : (plain p).program.get? ip = some a.toInstruction := h
  unfold step Config.state
  simp only [hget]
  cases a with
  | right =>
    by_cases hroom : c.pointer.val + 1 < n <;>
      simp only [Simple.toInstruction, effect, Config.moveRight_tape, Config.perform, hroom,
        ↓reduceDIte] <;> rfl
  | left =>
    by_cases hfirst : c.pointer.val = 0 <;>
      simp only [Simple.toInstruction, effect, Config.moveLeft_tape, Config.perform, hfirst,
        ↓reduceIte] <;> rfl
  | increment =>
    by_cases hlow : c.cell < cellMax <;>
      simp only [Simple.toInstruction, effect, Config.increment_tape, Config.perform, hlow,
        ↓reduceIte] <;> rfl
  | decrement =>
    by_cases hpos : 0 < c.cell <;>
      simp only [Simple.toInstruction, effect, Config.decrement_tape, Config.perform, hpos,
        ↓reduceIte] <;> rfl
  | write =>
    simp only [Simple.toInstruction, effect, Config.getD_get?_tape, Config.perform, Ending.step,
      Config.state_emit_output]
    rfl
  | read =>
    obtain ⟨cells, pointer, queue, events⟩ := c
    rcases queue with _ | ⟨_ | x, queue⟩
    case cons.some =>
      simp only [Simple.toInstruction, effect, Source.readChar,
        Config.set_tape _ (toNat_le_cellMax x), Config.perform, Ending.step,
        Config.state_emit_input]
      rfl
    all_goals
      simp only [Config.perform, Ending.step, Config.state_emit_input]
      rfl

theorem step_loopStart {p : Program} {ip e : ℕ} (h : p.get? ip = some .loopStart)
    (partner : p.partner? ip = some e) (c : Config n) (steps : ℕ) :
    (plain p).step (c.state ip steps) =
      .next (c.state (if c.cell = 0 then e + 1 else ip + 1) (steps + 1)) := by
  have hget : (plain p).program.get? ip = some .loopStart := h
  have hpartner : (plain p).program.partner? ip = some e := partner
  unfold step Config.state
  simp only [hget, effect, hpartner, Option.getD_some, Config.getD_get?_tape]
  by_cases hzero : c.cell = 0 <;> simp only [hzero, ↓reduceIte] <;> rfl

theorem step_loopEnd {p : Program} {ip s : ℕ} (h : p.get? ip = some .loopEnd)
    (partner : p.partner? ip = some s) (c : Config n) (steps : ℕ) :
    (plain p).step (c.state ip steps) = .next (c.state s (steps + 1)) := by
  have hget : (plain p).program.get? ip = some .loopEnd := h
  have hpartner : (plain p).program.partner? ip = some s := partner
  unfold step Config.state
  simp only [hget, effect, hpartner, Option.getD_some]
  rfl

theorem step_end {p : Program} {ip : ℕ} (h : p.get? ip = none) (c : Config n) (steps : ℕ) :
    (plain p).step (c.state ip steps) =
      .halted (.ok ()) ((c.emit (.output '\n')).state ip steps) := by
  have hget : (plain p).program.get? (c.state ip steps).ip = none := h
  rw [step_eq_finish hget, Config.state_emit_output]
  rfl

/-! ## Blocks in a program -/

/-- The instructions of a block stand in a sequence from index `ip` on. -/
def Located (is : List Instruction) (ip : ℕ) (b : Block) : Prop :=
  ∃ before after, is = before ++ (b.instructions ++ after) ∧ before.length = ip

namespace Located

variable {is : List Instruction} {ip : ℕ}

theorem simple {a : Simple} {rest : Block} (h : Located is ip (.simple a rest)) :
    is[ip]? = some a.toInstruction ∧ Located is (ip + 1) rest := by
  obtain ⟨before, after, rfl, rfl⟩ := h
  refine ⟨by simp [Block.instructions], before ++ [a.toInstruction], after, ?_, by simp⟩
  simp [Block.instructions]

theorem partners {body rest : Block} (h : Located is ip (.loop body rest)) :
    Partners is ip (ip + 1 + body.size) := by
  obtain ⟨before, after, rfl, rfl⟩ := h
  have hloop := partners_of_balanced before body.balanced (rest.instructions ++ after)
  simpa [Block.instructions, Block.size] using hloop

theorem body {body rest : Block} (h : Located is ip (.loop body rest)) :
    Located is (ip + 1) body := by
  obtain ⟨before, after, rfl, rfl⟩ := h
  refine ⟨before ++ [.loopStart], .loopEnd :: (rest.instructions ++ after), ?_, by simp⟩
  simp [Block.instructions]

theorem rest {body rest : Block} (h : Located is ip (.loop body rest)) :
    Located is (ip + body.size + 2) rest := by
  obtain ⟨before, after, rfl, rfl⟩ := h
  refine ⟨before ++ .loopStart :: (body.instructions ++ [.loopEnd]), after, ?_, ?_⟩
  · simp [Block.instructions]
  · simp [Block.size]
    omega

end Located

/-! ## The simulation -/

/-- The machine comes from the state `s` to the ending of a block, behind which it goes on at index
`next`. -/
def Realises (m : Machine) (s : State) (next : ℕ) : Ending n → Prop
  | .done c => ∃ steps, m.Reaches s (c.state next steps)
  | .failed e c => ∃ ip steps, m.Ends s (.error e) (c.state ip steps)

theorem Realises.of_reaches {m : Machine} {s t : State} {next : ℕ} {o : Ending n}
    (h : m.Reaches s t) (ht : Realises m t next o) : Realises m s next o := by
  cases o with
  | done c =>
    obtain ⟨steps, hsteps⟩ := ht
    exact ⟨steps, h.trans hsteps⟩
  | failed e c =>
    obtain ⟨ip, steps, hends⟩ := ht
    exact ⟨ip, steps, ends_of_reaches h hends⟩

section Simulation

variable {text : String} {p : Program}

theorem advances_simple (parsed : Program.Parsed text p) {a : Simple} {ip : ℕ} {c c' : Config n}
    (hi : (instructionsOf text)[ip]? = some a.toInstruction) (h : c.perform ip a = .done c')
    (steps : ℕ) : (plain p).Advances (c.state ip steps) (c'.state (ip + 1) (steps + 1)) := by
  rw [Advances, step_simple (by rw [parsed.get?_eq, hi]), h]
  rfl

theorem halts_simple (parsed : Program.Parsed text p) {a : Simple} {ip : ℕ} {c c' : Config n}
    {e : RunError} (hi : (instructionsOf text)[ip]? = some a.toInstruction)
    (h : c.perform ip a = .failed e c') (steps : ℕ) :
    (plain p).step (c.state ip steps) = .halted (.error e) (c'.state ip steps) := by
  rw [step_simple (by rw [parsed.get?_eq, hi]), h]
  rfl

theorem advances_loopStart (parsed : Program.Parsed text p) {s e : ℕ}
    (loop : Partners (instructionsOf text) s e) (c : Config n) (steps : ℕ) :
    (plain p).Advances (c.state s steps)
      (c.state (if c.cell = 0 then e + 1 else s + 1) (steps + 1)) :=
  step_loopStart (by rw [parsed.get?_eq, loop.opening])
    ((parsed.partner?_eq_some_iff s e).2 (.inl loop)) c steps

theorem advances_loopEnd (parsed : Program.Parsed text p) {s e : ℕ}
    (loop : Partners (instructionsOf text) s e) (c : Config n) (steps : ℕ) :
    (plain p).Advances (c.state e steps) (c.state s (steps + 1)) :=
  step_loopEnd (by rw [parsed.get?_eq, loop.closing])
    ((parsed.partner?_eq_some_iff e s).2 (.inr loop)) c steps

/-- A run from the first instruction of a block does what the evaluation of the block does. -/
theorem realises_of_evaluates (parsed : Program.Parsed text p) {b : Block} {ip : ℕ}
    {c : Config n} {o : Ending n} (h : b.Evaluates ip c o)
    (located : Located (instructionsOf text) ip b) (steps : ℕ) :
    Realises (plain p) (c.state ip steps) (ip + b.size) o := by
  induction h generalizing steps with
  | empty => exact ⟨steps, .refl⟩
  | @simple a rest ip c c' o hperform _ ih =>
    obtain ⟨hi, hrest⟩ := located.simple
    have first := advances_simple parsed hi hperform steps
    have tail := ih hrest (steps + 1)
    rw [Nat.add_right_comm] at tail
    exact tail.of_reaches (.single first)
  | simpleFailed hperform =>
    exact ⟨_, steps, ends_of_halted (halts_simple parsed located.simple.1 hperform steps)⟩
  | @loopDone body rest ip c o zero _ ih =>
    have skip := advances_loopStart parsed located.partners c steps
    rw [if_pos zero, show ip + 1 + body.size + 1 = ip + body.size + 2 by omega] at skip
    have tail := ih located.rest (steps + 1)
    rw [show ip + body.size + 2 + rest.size = ip + (Block.loop body rest).size by simp; omega]
      at tail
    exact tail.of_reaches (.single skip)
  | @loopAgain body rest ip c c' o nonzero _ _ ihBody ihAgain =>
    have enter := advances_loopStart parsed located.partners c steps
    rw [if_neg nonzero] at enter
    obtain ⟨steps', inside⟩ := ihBody located.body (steps + 1)
    have back := advances_loopEnd parsed located.partners c' steps'
    exact (ihAgain located (steps' + 1)).of_reaches ((inside.head enter).tail back)
  | @loopFailed body rest ip c c' e nonzero _ ihBody =>
    have enter := advances_loopStart parsed located.partners c steps
    rw [if_neg nonzero] at enter
    obtain ⟨ip', steps', hends⟩ := ihBody located.body (steps + 1)
    exact ⟨ip', steps', ends_of_reaches (.single enter) hends⟩

/-- The run with some fuel from the first instruction of a block, whose end is `x`, shows that the
block has an ending.  If it is a normal one, the run goes on behind the block with no more fuel. -/
def Witnesses (p : Program) (fuel : ℕ) (x : Except RunError Unit × State) (b : Block) (ip : ℕ)
    (c : Config n) : Prop :=
  (∃ e c', b.Evaluates ip c (.failed e c')) ∨
  ∃ c', b.Evaluates ip c (.done c') ∧ ∃ fuel' ≤ fuel, ∃ steps,
    (plain p).runFor fuel' (c'.state (ip + b.size) steps) = some x

/-- A block ends like the last part of it that a rule of evaluation leaves to be run. -/
theorem Witnesses.extend {fuel fuel' : ℕ} {x : Except RunError Unit × State} {b b' : Block}
    {ip ip' : ℕ} {c c' : Config n} (h : Witnesses p fuel x b ip c)
    (rule : ∀ o, b.Evaluates ip c o → b'.Evaluates ip' c' o) (size : ip + b.size = ip' + b'.size)
    (more : fuel ≤ fuel') : Witnesses p fuel' x b' ip' c' := by
  rcases h with ⟨e, d, hfail⟩ | ⟨d, hdone, left, hle, steps, hrun⟩
  · exact .inl ⟨e, d, rule _ hfail⟩
  · rw [size] at hrun
    exact .inr ⟨d, rule _ hdone, left, hle.trans more, steps, hrun⟩

/-- If the run from the first instruction of a block ends, the block has an ending. -/
theorem witnesses_of_runFor (parsed : Program.Parsed text p) {fuel : ℕ} {b : Block} {ip : ℕ}
    {c : Config n} {steps : ℕ} {x : Except RunError Unit × State}
    (located : Located (instructionsOf text) ip b)
    (h : (plain p).runFor fuel (c.state ip steps) = some x) : Witnesses p fuel x b ip c := by
  -- The fuel is the measure: a loop needs a step to be entered, so its body and its next round get
  -- less of it.
  induction fuel using Nat.strong_induction_on generalizing b ip c steps with
  | _ fuel ih =>
    cases fuel with
    | zero => simp [runFor] at h
    | succ fuel =>
      have less : fuel < fuel + 1 := Nat.lt_succ_self fuel
      cases b with
      | empty => exact .inr ⟨c, .empty, fuel + 1, le_rfl, steps, h⟩
      | simple a rest =>
        obtain ⟨hi, hrest⟩ := located.simple
        cases hperform : c.perform ip a with
        | failed e c' => exact .inl ⟨e, c', .simpleFailed hperform⟩
        | done c' =>
          rw [runFor_of_advances (advances_simple parsed hi hperform steps)] at h
          refine (ih fuel less hrest h).extend (fun _ => .simple hperform) ?_ less.le
          rw [Block.size_simple]
          omega
      | loop body rest =>
        rw [runFor_of_advances (advances_loopStart parsed located.partners c steps)] at h
        by_cases zero : c.cell = 0
        · rw [if_pos zero, show ip + 1 + body.size + 1 = ip + body.size + 2 by omega] at h
          refine (ih fuel less located.rest h).extend (fun _ => .loopDone zero) ?_ less.le
          rw [Block.size_loop]
          omega
        · rw [if_neg zero] at h
          rcases ih fuel less located.body h with
            ⟨e, c', hfail⟩ | ⟨c', hbody, left, hle, steps', hrun⟩
          · exact .inl ⟨e, c', .loopFailed zero hfail⟩
          · cases left with
            | zero => simp [runFor] at hrun
            | succ left =>
              rw [runFor_of_advances (advances_loopEnd parsed located.partners c' steps')] at hrun
              exact (ih left (by omega) located hrun).extend (fun _ => .loopAgain zero hbody) rfl
                (by omega)

end Simulation

/-! ## Whole programs -/

/-- What a run reports about an ending: at the normal one a line break has come out. -/
def Ending.outcome (code : String) (p : Program) : Ending n → Outcome
  | .done c => ⟨.ok (), ⟨code, some p, c.tape⟩, .queue c.queue, c.events.push (.output '\n')⟩
  | .failed e c => ⟨.error e, ⟨code, some p, c.tape⟩, .queue c.queue, c.events⟩

theorem run_eq_map {p : Program} {r : Interpreter} (loaded : r.load = .ok p)
    (nonempty : 1 ≤ p.size) (positive : 1 ≤ r.tape.size) (queue : List (Option Char)) (fuel : ℕ) :
    r.run .working (.queue queue) fuel =
      ((plain p).runFor fuel ((Config.initial positive queue).state 0 0)).map
        (outcomeOf r.code p) :=
  Interpreter.execute_of_start
    (Interpreter.start?_of_load loaded nonempty positive false .working (.queue queue)) fuel

/-- The run from the first instruction of a program reaches the ending of its block. -/
theorem ends_of_evaluates {text : String} {p : Program} (parsed : Program.Parsed text p) {b : Block}
    (hb : b.instructions = instructionsOf text) {c : Config n} {o : Ending n}
    (h : b.Evaluates 0 c o) (code : String) :
    ∃ fuel x, (plain p).runFor fuel (c.state 0 0) = some x ∧
      outcomeOf code p x = o.outcome code p := by
  have located : Located (instructionsOf text) 0 b := ⟨[], [], by simp [hb], rfl⟩
  have sim := realises_of_evaluates parsed h located 0
  cases o with
  | done c' =>
    obtain ⟨steps, hreach⟩ := sim
    have hend : p.get? (0 + b.size) = none := by
      rw [parsed.get?_eq, ← hb, Nat.zero_add]
      exact List.getElem?_eq_none le_rfl
    obtain ⟨fuel, hfuel⟩ := ends_of_reaches hreach (ends_of_halted (step_end hend c' steps))
    exact ⟨fuel, _, hfuel, rfl⟩
  | failed e c' =>
    obtain ⟨ip, steps, fuel, hfuel⟩ := sim
    exact ⟨fuel, _, hfuel, rfl⟩

/-- The ends of a run are the endings of the block of its program. -/
theorem run_ends_iff {text : String} {p : Program} (parsed : Program.Parsed text p)
    (nonempty : 1 ≤ p.size) {r : Interpreter} (loaded : r.load = .ok p)
    (positive : 1 ≤ r.tape.size) (queue : List (Option Char)) {b : Block}
    (hb : b.instructions = instructionsOf text) (out : Outcome) :
    (∃ fuel, r.run .working (.queue queue) fuel = some out) ↔
      ∃ o, b.Evaluates 0 (.initial positive queue) o ∧ out = o.outcome r.code p := by
  have run_eq := run_eq_map loaded nonempty positive queue
  constructor
  · rintro ⟨fuel, hrun⟩
    rw [run_eq, Option.map_eq_some_iff] at hrun
    obtain ⟨x, hx, rfl⟩ := hrun
    obtain ⟨o, ho⟩ : ∃ o, b.Evaluates 0 (.initial positive queue) o := by
      have located : Located (instructionsOf text) 0 b := ⟨[], [], by simp [hb], rfl⟩
      rcases witnesses_of_runFor parsed located hx with ⟨e, c, hfail⟩ | ⟨c, hdone, -⟩
      · exact ⟨_, hfail⟩
      · exact ⟨_, hdone⟩
    obtain ⟨fuel', x', hx', hout⟩ := ends_of_evaluates parsed hb ho r.code
    obtain rfl := runFor_unique hx hx'
    exact ⟨o, ho, hout⟩
  · rintro ⟨o, ho, rfl⟩
    obtain ⟨fuel, x, hx, hout⟩ := ends_of_evaluates parsed hb ho r.code
    exact ⟨fuel, by rw [run_eq, hx, Option.map_some, hout]⟩

/-- The run of an interpreter does what the structured meaning of its program says.  The
instructions are the reading of exactly one block, the endings of the run are those of the
evaluation of this block over zeros, and the run goes on for ever if and only if the evaluation
does. -/
theorem run_refines_evaluation {text : String} {p : Program} (hp : Program.parse text = .ok p)
    (nonempty : 1 ≤ p.size) {r : Interpreter} (loaded : r.load = .ok p)
    (positive : 1 ≤ r.tape.size) (queue : List (Option Char)) :
    ∃ b : Block, b.instructions = instructionsOf text ∧
      (∀ b' : Block, b'.instructions = instructionsOf text → b' = b) ∧
      (∀ out, (∃ fuel, r.run .working (.queue queue) fuel = some out) ↔
        ∃ o, b.Evaluates 0 (.initial positive queue) o ∧ out = o.outcome r.code p) ∧
      ((∀ fuel, r.run .working (.queue queue) fuel = none) ↔
        ∀ o, ¬ b.Evaluates 0 (.initial positive queue) o) := by
  have parsed := Program.parsed_of_parse hp
  obtain ⟨b, hb⟩ := parsed.balanced.exists_block
  have ends := run_ends_iff parsed nonempty loaded positive queue hb
  refine ⟨b, hb, fun b' hb' => Block.instructions_injective (hb'.trans hb.symm), ends, ?_⟩
  constructor
  · intro hnone o ho
    obtain ⟨fuel, hfuel⟩ := (ends _).2 ⟨o, ho, rfl⟩
    exact absurd ((hnone fuel).symm.trans hfuel) nofun
  · intro hnone fuel
    rw [Option.eq_none_iff_forall_ne_some]
    intro out hout
    obtain ⟨o, ho, -⟩ := (ends out).1 ⟨fuel, hout⟩
    exact hnone o ho

/-- In `+[,]` the second round of the loop finds no input; the evaluation fails there because the
run does. -/
theorem evaluation_fails_in_second_round :
    ∃ p : Program, Program.parse "+[,]" = .ok p ∧ 1 ≤ p.size ∧
      (Interpreter.ofText "+[,]" 1).load = .ok p ∧
      ∃ c : Config 1, Block.Evaluates (.simple .increment (.loop (.simple .read .empty) .empty)) 0
        (.initial le_rfl [some 'a']) (.failed (.input 2) c) := by
  have hp : Program.parse "+[,]" = .ok ⟨#[.increment, .loopStart, .read, .loopEnd],
      #[none, some 3, none, some 1]⟩ := by
    decide +kernel
  refine ⟨_, hp, by decide, hp, ?_⟩
  obtain ⟨b, -, unique, ends, -⟩ := run_refines_evaluation hp (by decide)
    (r := .ofText "+[,]" 1) hp le_rfl [some 'a']
  obtain rfl := unique (.simple .increment (.loop (.simple .read .empty) .empty))
    (by decide +kernel)
  obtain ⟨o, ho, hout⟩ := (ends _).1 ⟨6, rfl⟩
  cases o with
  | done c => exact absurd (congrArg Outcome.result hout) nofun
  | failed e c =>
    cases congrArg Outcome.result hout
    exact ⟨c, ho⟩

end Brainfuck
