import Brainfuck.Proofs.Failures
import Brainfuck.Proofs.Progress
import Brainfuck.Proofs.Sessions

/-!
# Calls that do not start

A text that is no program, a program without instructions and a tape without cells, in this order,
keep a call from starting.  Such a call only answers (`Interpreter.OnlyAnswers`), whatever calls have
gone before it.  Every other call is the run of a machine on a tape of zeros, and no error of this
run is about the text: `Interpreter.call_classification`.
-/

namespace Brainfuck

namespace Interpreter

variable {b b' : Interpreter}

/-- The interpreter that calls in order leave. -/
def after (b : Interpreter) (log : List (Call × Outcome)) : Interpreter :=
  log.getLast?.elim b fun x => x.2.interpreter

theorem Keeps.after (h : b.Keeps b') {left : Source} {log : List (Call × Outcome)}
    (session : Session id b' left log) : b.Keeps (b'.after log) := by
  unfold Interpreter.after
  cases hlast : log.getLast? with
  | none => exact h
  | some x => exact h.of_session session x (List.mem_of_getLast? hlast)

/-- Every call ends at once with `result`.  It tries no instruction, has no event, takes no input and
leaves the interpreter as it was, except that this has the `program` now. -/
def OnlyAnswers (b : Interpreter) (result : Except RunError Unit) (program : Option Program) : Prop :=
  ∀ traced sink source fuel,
    b.execute traced sink source fuel = some ⟨result, { b with program := program }, source, #[]⟩ ∧
    b.tried traced sink source fuel = []

theorem onlyAnswers_of_idle {result : Except RunError Unit} {program : Option Program}
    (idle : ∀ traced sink source, b.start? traced sink source = none)
    (answer : ∀ source, b.idle source = ⟨result, { b with program := program }, source, #[]⟩) :
    b.OnlyAnswers result program := by
  intro traced sink source fuel
  have hidle := idle traced sink source
  constructor
  · rw [execute_of_idle hidle, answer]
  · rw [tried, hidle]

theorem onlyAnswers_of_no_program {e : ParseError} (hload : b.load = .error e) :
    b.OnlyAnswers (.error (.parse e)) b.program := by
  apply onlyAnswers_of_idle
  · intro traced sink source
    rw [start?, hload]
  · intro source
    rw [Interpreter.idle, hload]

theorem onlyAnswers_of_empty_program {p : Program} (hload : b.load = .ok p) (empty : p.size = 0) :
    b.OnlyAnswers (.ok ()) (some p) := by
  have hp : p.isEmpty = true := Array.isEmpty_iff_size_eq_zero.2 empty
  apply onlyAnswers_of_idle
  · intro traced sink source
    simp only [start?, hload, hp, Bool.true_or, ↓reduceIte]
  · intro source
    simp only [Interpreter.idle, hload, hp, ↓reduceIte]

theorem onlyAnswers_of_empty_tape {p : Program} (hload : b.load = .ok p) (nonempty : 1 ≤ p.size)
    (empty : b.tape.size = 0) : b.OnlyAnswers (.error .emptyTape) (some p) := by
  have hp : p.isEmpty = false := Array.isEmpty_eq_false_iff.2 (Array.size_pos_iff.1 nonempty)
  have ht : b.tape.isEmpty = true := Array.isEmpty_iff_size_eq_zero.2 empty
  apply onlyAnswers_of_idle
  · intro traced sink source
    simp only [start?, hload, ht, Bool.or_true, ↓reduceIte]
  · intro source
    simp only [Interpreter.idle, hload, hp, Bool.false_eq_true, ↓reduceIte]

/-- After any calls, what the next one does.  It only answers if the text is no program, or else the
program is empty, or else the tape has no cell.  Otherwise it runs the program on a tape of zeros.
Its error is about the text if and only if the text is no program. -/
theorem call_classification (made : b.Made) {left : Source} {log : List (Call × Outcome)}
    (session : Session id b left log) (called : b' = b.after log) :
    (∀ e, Program.parse b'.code = .error e → b'.OnlyAnswers (.error (.parse e)) b'.program) ∧
    (∀ p, Program.parse b'.code = .ok p → p.size = 0 → b'.OnlyAnswers (.ok ()) (some p)) ∧
    (∀ p, Program.parse b'.code = .ok p → 1 ≤ p.size → b'.tape.size = 0 →
      b'.OnlyAnswers (.error .emptyTape) (some p)) ∧
    (∀ p, Program.parse b'.code = .ok p → 1 ≤ p.size → 1 ≤ b'.tape.size →
      ∀ traced sink source fuel,
        let m : Machine := ⟨p, sink, traced⟩
        b'.execute traced sink source fuel =
          (m.runFor fuel (m.start (.zeros b'.tape.size) source)).map (outcomeOf b'.code p)) ∧
    ∀ traced sink source fuel o e, b'.execute traced sink source fuel = some o →
      o.result = .error e → (e.isStructural = true ↔ ∃ e', Program.parse b'.code = .error e') := by
  have kept : b.Keeps b' := by
    rw [called]
    exact made.keeps.after session
  have hload := kept.load_eq_parse
  rw [← hload]
  refine ⟨fun e => onlyAnswers_of_no_program, fun p => onlyAnswers_of_empty_program,
    fun p => onlyAnswers_of_empty_tape, ?_, ?_⟩
  · intro p loaded nonempty positive traced sink source fuel
    exact execute_of_start (start?_of_load loaded nonempty positive traced sink source) fuel
  · intro traced sink source fuel o e ended failed
    rw [hload]
    exact isStructural_iff_of_execute hload ended failed

/-- The first call of `+<` fails and leaves a one in the cell; the second starts on a zero. -/
theorem call_classification_after_underflow :
    ∃ o p, (ofText "+<" 1).execute false .working (.queue []) 2 = some o ∧
      o.result = .error (.pointerUnderflow 1) ∧ o.interpreter.tape = ⟨#[1], 0⟩ ∧
      Program.parse "+<" = .ok p ∧ ∀ fuel,
        let m : Machine := ⟨p, .working, true⟩
        o.interpreter.execute true .working (.queue []) fuel =
          (m.runFor fuel (m.start ⟨#[0], 0⟩ (.queue []))).map (outcomeOf "+<" p) := by
  have hparse : Program.parse "+<" = .ok ⟨#[.increment, .left], #[none, none]⟩ := by decide +kernel
  have ended : (ofText "+<" 1).execute false .working (.queue []) 2 = some _ := rfl
  have session : Session id (ofText "+<" 1) (.queue []) [(⟨false, .working, none⟩, _)] :=
    .cons 2 ended .nil
  obtain ⟨-, -, -, starts, -⟩ := call_classification (.ofText _ _) session rfl
  refine ⟨_, _, ended, rfl, rfl, hparse, ?_⟩
  exact starts _ hparse (by decide) (by decide) true .working (.queue [])

end Interpreter

end Brainfuck
