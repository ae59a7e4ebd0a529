import Brainfuck.Machine
import Mathlib.Data.Nat.Notation
import Mathlib.Logic.Relation

/-!
# Runs of the machine

A run is a sequence of steps (`Machine.Advances`, `Machine.Reaches`) and ends with a halting one
(`Machine.Ends`).  The number of steps does not matter for the end (`runFor_unique`), and
`advances_effect` says all that a step can do to a state.
-/

namespace Brainfuck.Machine

variable {m : Machine} {s t u : State}

/-- One step from `s`, which does not end the run, leads to `t`. -/
def Advances (m : Machine) (s t : State) : Prop := m.step s = .next t

/-- Any number of steps from `s` lead to `t`. -/
def Reaches (m : Machine) : State → State → Prop := Relation.ReflTransGen m.Advances

/-- The run from `s` ends with a result in the state `t`. -/
def Ends (m : Machine) (s : State) (result : Except RunError Unit) (t : State) : Prop :=
  ∃ fuel, m.runFor fuel s = some (result, t)

theorem runFor_of_advances (h : m.Advances s t) (fuel : ℕ) :
    m.runFor (fuel + 1) s = m.runFor fuel t := by
  rw [runFor, show m.step s = .next t from h]

theorem runFor_of_halted {result : Except RunError Unit} (h : m.step s = .halted result t)
    (fuel : ℕ) : m.runFor (fuel + 1) s = some (result, t) := by
  rw [runFor, h]

theorem ends_of_halted {result : Except RunError Unit} (h : m.step s = .halted result t) :
    m.Ends s result t :=
  ⟨1, runFor_of_halted h 0⟩

theorem ends_of_reaches {result : Except RunError Unit} (h : m.Reaches s t)
    (ends : m.Ends t result u) : m.Ends s result u := by
  induction h using Relation.ReflTransGen.head_induction_on with
  | refl => exact ends
  | head advances _ ih =>
    obtain ⟨fuel, hfuel⟩ := ih
    exact ⟨fuel + 1, (runFor_of_advances advances fuel).trans hfuel⟩

theorem runFor_unique {fuel fuel' : ℕ} {x x' : Except RunError Unit × State}
    (h : m.runFor fuel s = some x) (h' : m.runFor fuel' s = some x') : x = x' := by
  induction fuel generalizing s fuel' with
  | zero => simp [runFor] at h
  | succ fuel ih =>
    cases fuel' with
    | zero => simp [runFor] at h'
    | succ fuel' =>
      cases hstep : m.step s with
      | next t =>
        rw [runFor_of_advances hstep] at h h'
        exact ih h h'
      | halted result t =>
        rw [runFor_of_halted hstep] at h h'
        exact Option.some.inj (h.symm.trans h')

/-- A run that is over has come to a state in which the next step is the last. -/
theorem exists_reaches_of_runFor {fuel : ℕ} {result : Except RunError Unit}
    (h : m.runFor fuel s = some (result, t)) :
    ∃ u, m.Reaches s u ∧ m.step u = .halted result t := by
  induction fuel generalizing s with
  | zero => cases h
  | succ fuel ih =>
    cases hstep : m.step s with
    | next v =>
      rw [runFor_of_advances hstep] at h
      obtain ⟨u, reached, hlast⟩ := ih h
      exact ⟨u, reached.head hstep, hlast⟩
    | halted result' v =>
      rw [runFor_of_halted hstep] at h
      cases h
      exact ⟨s, .refl, hstep⟩

/-- What holds at first and is kept by every step holds in every state that is reached. -/
theorem Reaches.invariant {P : State → Prop} (keep : ∀ s t, m.Advances s t → P s → P t)
    (h : m.Reaches s t) (hs : P s) : P t := by
  induction h with
  | refl => exact hs
  | tail _ advances ih => exact keep _ _ advances ih

/-- All that a step does to a state: the instruction there takes effect, and a traced machine adds
its row. -/
theorem advances_effect (h : m.Advances s t) :
    ∃ i event action, m.program.get? s.ip = some i ∧
      m.effect i s.ip s.tape s.source s.written = .completed event action t.ip t.tape t.source ∧
      t.steps = s.steps + 1 ∧ t.written = tally event s.written ∧
      t.events = if m.traced then
          (record event s.events).push (.trace
            (.row ⟨s.steps, s.ip, s.tape.pointer, s.tape.get?.getD 0, i, action⟩))
        else record event s.events := by
  obtain ⟨ip, steps, tape, source, written, events⟩ := s
  unfold Advances step at h
  dsimp only at h
  cases hget : m.program.get? ip with
  | none =>
    rw [hget] at h
    cases hsink : m.sink.refusal? written <;> simp [hsink] at h
  | some i =>
    rw [hget] at h
    cases heffect : m.effect i ip tape source written with
    | completed event action next tape' source' =>
      simp only [heffect, Step.next.injEq] at h
      subst h
      exact ⟨i, event, action, rfl, heffect, rfl, rfl, rfl⟩
    | failed event error tape' source' => simp [heffect] at h

end Brainfuck.Machine
