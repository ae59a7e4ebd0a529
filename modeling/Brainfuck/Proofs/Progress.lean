import Brainfuck.Proofs.Effects
import Brainfuck.Proofs.Start
import Mathlib.Data.List.Infix

/-!
# The progress of a run

What a run has done in a number of steps, whether or not it is over by then: its events so far
(`Interpreter.eventsFor`), and the instructions that it has tried, each with the state in front of
it (`Interpreter.tried`).  With more steps the events only get more (`Machine.eventsFor_mono`), so
that it makes sense to say how the events of a run begin, whether or not it ends
(`Interpreter.Begins`); what a run reports when it ends are all of them (`begins_iff_of_execute`).
-/

namespace Brainfuck

namespace Machine

variable {m : Machine} {s t : State}

/-- The events of a run in its first `fuel` steps. -/
def eventsFor (m : Machine) : (fuel : ℕ) → State → Array Event
  | 0, s => s.events
  | fuel + 1, s =>
    match m.step s with
    | .next t => eventsFor m fuel t
    | .halted _ t => t.events

/-- The instructions that a run tries in its first `fuel` steps, each with the state in front of
it.  The last of them may be one that fails. -/
def tried (m : Machine) : (fuel : ℕ) → State → List (Instruction × State)
  | 0, _ => []
  | fuel + 1, s =>
    match m.program.get? s.ip with
    | none => []
    | some i =>
      match m.step s with
      | .next t => (i, s) :: tried m fuel t
      | .halted _ _ => [(i, s)]

theorem prefix_push (events : Array Event) (e : Event) :
    events.toList <+: (events.push e).toList := by
  rw [Array.toList_push]
  exact List.prefix_append _ _

theorem prefix_record (event : Option Event) (events : Array Event) :
    events.toList <+: (record event events).toList := by
  cases event with
  | none => exact List.prefix_rfl
  | some e => exact prefix_push events e

/-- A step takes no event back. -/
theorem prefix_step (m : Machine) (s : State) :
    s.events.toList <+: (m.step s).state.events.toList := by
  cases h : m.program.get? s.ip with
  | none =>
    rw [step_eq_finish h, finish]
    cases m.sink.refusal? s.written with
    | none => exact prefix_push _ _
    | some message => exact List.prefix_rfl
  | some i =>
    rw [step_eq_of_get? h]
    cases m.effect i s.ip s.tape s.source s.written with
    | completed event action next tape source =>
      have first := prefix_record event s.events
      simp only [Effect.step, Step.state]
      split
      · exact first.trans (prefix_push _ _)
      · exact first
    | failed event error tape source => exact prefix_record event s.events

theorem prefix_eventsFor (m : Machine) (fuel : ℕ) (s : State) :
    s.events.toList <+: (m.eventsFor fuel s).toList := by
  induction fuel generalizing s with
  | zero => exact List.prefix_rfl
  | succ fuel ih =>
    have first := prefix_step m s
    unfold eventsFor
    cases hstep : m.step s with
    | next t =>
      rw [hstep] at first
      exact first.trans (ih t)
    | halted result t =>
      rw [hstep] at first
      exact first

/-- With more steps the events only get more. -/
theorem eventsFor_mono (m : Machine) {fuel fuel' : ℕ} (h : fuel ≤ fuel') (s : State) :
    (m.eventsFor fuel s).toList <+: (m.eventsFor fuel' s).toList := by
  induction fuel generalizing s fuel' with
  | zero => exact prefix_eventsFor m fuel' s
  | succ fuel ih =>
    obtain ⟨fuel', rfl⟩ : ∃ k, fuel' = k + 1 := ⟨fuel' - 1, by omega⟩
    unfold eventsFor
    cases m.step s with
    | next t => exact ih (by omega) t
    | halted result t => exact List.prefix_rfl

/-- The events of a run that is over are those of its last state. -/
theorem eventsFor_of_runFor {fuel fuel' : ℕ} {result : Except RunError Unit}
    (h : m.runFor fuel s = some (result, t)) (le : fuel ≤ fuel') :
    m.eventsFor fuel' s = t.events := by
  induction fuel generalizing s fuel' with
  | zero => cases h
  | succ fuel ih =>
    obtain ⟨fuel', rfl⟩ : ∃ k, fuel' = k + 1 := ⟨fuel' - 1, by omega⟩
    unfold eventsFor
    cases hstep : m.step s with
    | next u =>
      rw [runFor_of_advances hstep] at h
      exact ih h (by omega)
    | halted result u =>
      rw [runFor_of_halted hstep] at h
      cases h
      rfl

/-- The events of a state that a run reaches are those of the run in some number of steps. -/
theorem exists_eventsFor_of_reaches (h : m.Reaches s t) :
    ∃ fuel, m.eventsFor fuel s = t.events := by
  induction h using Relation.ReflTransGen.head_induction_on with
  | refl => exact ⟨0, rfl⟩
  | @head u v advances _ ih =>
    obtain ⟨fuel, hfuel⟩ := ih
    refine ⟨fuel + 1, ?_⟩
    rw [eventsFor, show m.step u = .next v from advances]
    exact hfuel

end Machine

namespace Interpreter

variable {b : Interpreter} {traced : Bool} {sink : Sink} {source : Source}

/-- The events of a run in its first `fuel` steps. -/
def eventsFor (b : Interpreter) (traced : Bool) (sink : Sink) (source : Source) (fuel : ℕ) :
    Array Event :=
  match b.start? traced sink source with
  | none => #[]
  | some (m, s) => m.eventsFor fuel s

/-- The instructions that a run tries in its first `fuel` steps, each with the state in front of
it. -/
def tried (b : Interpreter) (traced : Bool) (sink : Sink) (source : Source) (fuel : ℕ) :
    List (Instruction × Machine.State) :=
  match b.start? traced sink source with
  | none => []
  | some (m, s) => m.tried fuel s

theorem idle_events (b : Interpreter) (source : Source) : (b.idle source).events = #[] := by
  unfold idle
  split <;> rfl

/-- What a run reports when it ends are the events so far. -/
theorem eventsFor_of_execute {fuel fuel' : ℕ} {o : Outcome}
    (h : b.execute traced sink source fuel = some o) (le : fuel ≤ fuel') :
    b.eventsFor traced sink source fuel' = o.events := by
  unfold eventsFor
  rcases execute_eq_some h with ⟨hstart, rfl⟩ | ⟨m, s, result, t, hstart, hrun, rfl⟩
  · rw [hstart, idle_events]
  · rw [hstart]
    exact Machine.eventsFor_of_runFor hrun le

theorem eventsFor_mono (b : Interpreter) (traced : Bool) (sink : Sink) (source : Source)
    {fuel fuel' : ℕ} (h : fuel ≤ fuel') :
    (b.eventsFor traced sink source fuel).toList <+:
      (b.eventsFor traced sink source fuel').toList := by
  unfold eventsFor
  cases b.start? traced sink source with
  | none => exact List.prefix_rfl
  | some start => exact start.1.eventsFor_mono h start.2

/-- The events of a run, whether or not it ends, begin with `events`. -/
def Begins (b : Interpreter) (traced : Bool) (sink : Sink) (source : Source)
    (events : Array Event) : Prop :=
  ∃ fuel, events.toList <+: (b.eventsFor traced sink source fuel).toList

/-- Where a run ends, its events begin as those that it reports. -/
theorem begins_iff_of_execute {fuel : ℕ} {o : Outcome}
    (h : b.execute traced sink source fuel = some o) (events : Array Event) :
    b.Begins traced sink source events ↔ events.toList <+: o.events.toList := by
  constructor
  · rintro ⟨fuel', hbegins⟩
    have later := eventsFor_mono b traced sink source (Nat.le_max_left fuel' fuel)
    rw [eventsFor_of_execute h (Nat.le_max_right fuel' fuel)] at later
    exact hbegins.trans later
  · intro hprefix
    refine ⟨fuel, ?_⟩
    rw [eventsFor_of_execute h le_rfl]
    exact hprefix

/-- The events of a run begin with those of every state that its machine reaches. -/
theorem begins_of_reaches {m : Machine} {s t : Machine.State}
    (hstart : b.start? traced sink source = some (m, s)) (h : m.Reaches s t) :
    b.Begins traced sink source t.events := by
  obtain ⟨fuel, hevents⟩ := Machine.exists_eventsFor_of_reaches h
  refine ⟨fuel, ?_⟩
  rw [eventsFor, hstart, ← hevents]

end Interpreter

end Brainfuck
