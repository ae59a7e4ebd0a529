import Brainfuck.Interpreter
import Mathlib.Data.Nat.Notation

/-!
# The start of a run

A run of an interpreter either starts a machine (`Interpreter.start?`), which then decides how the
run goes on, or it is over before any instruction with the outcome `Interpreter.idle`.  By
`Interpreter.execute_eq` this is all that there is to a run.
-/

namespace Brainfuck

/-- The end of a run of the machine as the end of a run of the interpreter. -/
def outcomeOf (code : String) (p : Program) : Except RunError Unit × Machine.State → Outcome
  | (result, s) => ⟨result, ⟨code, some p, s.tape⟩, s.source, s.events⟩

namespace Interpreter

variable {b : Interpreter} {traced : Bool} {sink : Sink} {source : Source}

/-- The machine of a run and its first state, if there are an instruction and a cell. -/
def start? (b : Interpreter) (traced : Bool) (sink : Sink) (source : Source) :
    Option (Machine × Machine.State) :=
  match b.load with
  | .error _ => none
  | .ok p =>
    if p.isEmpty || b.tape.isEmpty then
      none
    else
      let m : Machine := ⟨p, sink, traced⟩
      some (m, m.start b.tape.reset source)

/-- The outcome of a run that does not start: nothing has happened. -/
def idle (b : Interpreter) (source : Source) : Outcome :=
  match b.load with
  | .error e => ⟨.error (.parse e), b, source, #[]⟩
  | .ok p =>
    ⟨if p.isEmpty then .ok () else .error .emptyTape, { b with program := some p }, source, #[]⟩

/-- A run is the run of the machine that it starts, or over at once. -/
theorem execute_eq (b : Interpreter) (traced : Bool) (sink : Sink) (source : Source) (fuel : ℕ) :
    b.execute traced sink source fuel =
      match b.start? traced sink source with
      | none => some (b.idle source)
      | some (m, s) => (m.runFor fuel s).map (outcomeOf b.code m.program) := by
  unfold execute start? idle
  cases b.load with
  | error e => rfl
  | ok p =>
    cases hp : p.isEmpty
    · cases ht : b.tape.isEmpty
      · simp only [hp, ht, Bool.or_self, Bool.false_eq_true, ↓reduceIte]
        cases Machine.runFor ⟨p, sink, traced⟩ fuel _ <;> rfl
      · simp [hp, ht]
    · simp [hp]

theorem execute_of_idle (h : b.start? traced sink source = none) (fuel : ℕ) :
    b.execute traced sink source fuel = some (b.idle source) := by
  rw [execute_eq, h]

theorem execute_of_start {m : Machine} {s : Machine.State}
    (h : b.start? traced sink source = some (m, s)) (fuel : ℕ) :
    b.execute traced sink source fuel = (m.runFor fuel s).map (outcomeOf b.code m.program) := by
  rw [execute_eq, h]

/-- A run that has ended either did not start or is the run of a machine that has ended. -/
theorem execute_eq_some {fuel : ℕ} {o : Outcome}
    (h : b.execute traced sink source fuel = some o) :
    (b.start? traced sink source = none ∧ o = b.idle source) ∨
      ∃ m s result t, b.start? traced sink source = some (m, s) ∧
        m.runFor fuel s = some (result, t) ∧ o = outcomeOf b.code m.program (result, t) := by
  rw [execute_eq] at h
  cases hstart : b.start? traced sink source with
  | none =>
    rw [hstart] at h
    exact .inl ⟨rfl, (Option.some.inj h).symm⟩
  | some start =>
    obtain ⟨m, s⟩ := start
    rw [hstart, Option.map_eq_some_iff] at h
    obtain ⟨⟨result, t⟩, hrun, rfl⟩ := h
    exact .inr ⟨m, s, result, t, rfl, hrun, rfl⟩

theorem start?_of_load {p : Program} (loaded : b.load = .ok p) (nonempty : 1 ≤ p.size)
    (positive : 1 ≤ b.tape.size) (traced : Bool) (sink : Sink) (source : Source) :
    b.start? traced sink source =
      some (⟨p, sink, traced⟩, Machine.start ⟨p, sink, traced⟩ b.tape.reset source) := by
  have hp : p.isEmpty = false := Array.isEmpty_eq_false_iff.2 (Array.size_pos_iff.1 nonempty)
  have ht : b.tape.isEmpty = false := Array.isEmpty_eq_false_iff.2 (Array.size_pos_iff.1 positive)
  unfold start?
  rw [loaded]
  simp only [hp, ht, Bool.or_self, Bool.false_eq_true, ↓reduceIte]

/-- What has to be there for a run to start, and what it starts. -/
theorem start?_eq_some {m : Machine} {s : Machine.State}
    (h : b.start? traced sink source = some (m, s)) :
    b.load = .ok m.program ∧ 1 ≤ m.program.size ∧ 1 ≤ b.tape.size ∧
      m = ⟨m.program, sink, traced⟩ ∧ s = m.start b.tape.reset source := by
  unfold start? at h
  split at h
  · cases h
  · next p loaded =>
    split at h
    · cases h
    · next hneither =>
      cases h
      simp only [Bool.or_eq_true, not_or, Bool.not_eq_true] at hneither
      exact ⟨loaded, Array.size_pos_iff.2 (Array.isEmpty_eq_false_iff.1 hneither.1),
        Array.size_pos_iff.2 (Array.isEmpty_eq_false_iff.1 hneither.2), rfl, rfl⟩

end Interpreter

end Brainfuck
