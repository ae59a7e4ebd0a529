import Brainfuck.Proofs.Progress

/-!
# Runs with a trace

A traced run does what the plain run does, step by step, and only adds the lines of its trace to the
events: without these lines every traced state is a state of the plain run
(`Machine.step_untraced`), whatever the input and the output do.
-/

namespace Brainfuck

/-- Events without the lines of the trace. -/
def untracedEvents (events : Array Event) : Array Event := events.filter fun e => !e.isTrace

theorem untracedEvents_push_trace (events : Array Event) (line : Trace.Line) :
    untracedEvents (events.push (.trace line)) = untracedEvents events := by
  simp [untracedEvents, Event.isTrace]

theorem untracedEvents_push {e : Event} (h : e.isTrace = false) (events : Array Event) :
    untracedEvents (events.push e) = (untracedEvents events).push e := by
  simp [untracedEvents, h]

namespace Machine

variable {m : Machine} {s : State}

/-- A state without the lines of the trace. -/
def State.untraced (s : State) : State := { s with events := untracedEvents s.events }

theorem untracedEvents_record {event : Option Event} (h : ∀ e, event = some e → e.isTrace = false)
    (events : Array Event) :
    untracedEvents (record event events) = record event (untracedEvents events) := by
  cases event with
  | none => rfl
  | some e => exact untracedEvents_push (h e rfl) events

theorem Effect.step_untraced (m : Machine) (s : State) (i : Instruction) {e : Effect}
    (h : ∀ event, e.event = some event → event.isTrace = false) :
    e.step m.untraced s.untraced i = (e.step m s i).map State.untraced := by
  have hrecord := untracedEvents_record h s.events
  cases e with
  | completed event action next tape source =>
    dsimp only [Effect.event] at hrecord
    cases htraced : m.traced <;>
      simp [Effect.step, Step.map, State.untraced, untraced, htraced, hrecord,
        untracedEvents_push_trace]
  | failed event error tape source =>
    dsimp only [Effect.event] at hrecord
    simp only [Effect.step, Step.map, State.untraced, hrecord]

/-- Without the trace a step leads where it leads with the trace, but for the lines. -/
theorem step_untraced (m : Machine) (s : State) :
    m.untraced.step s.untraced = (m.step s).map State.untraced := by
  cases h : m.program.get? s.ip with
  | none =>
    have h' : m.untraced.program.get? s.untraced.ip = none := h
    rw [step_eq_finish h, step_eq_finish h']
    have hbreak : untracedEvents (s.events.push (.output '\n')) =
        (untracedEvents s.events).push (.output '\n') := untracedEvents_push rfl s.events
    cases hsink : m.sink.refusal? s.written <;>
      simp only [finish, untraced, hsink, Step.map, State.untraced, hbreak]
  | some i =>
    have h' : m.untraced.program.get? s.untraced.ip = some i := h
    rw [step_eq_of_get? h, step_eq_of_get? h', effect_untraced]
    exact Effect.step_untraced m s i fun event => isTrace_of_effect

theorem runFor_untraced (m : Machine) (fuel : ℕ) (s : State) :
    m.untraced.runFor fuel s.untraced =
      (m.runFor fuel s).map fun x => (x.1, x.2.untraced) := by
  induction fuel generalizing s with
  | zero => rfl
  | succ fuel ih =>
    have hstep := step_untraced m s
    unfold runFor
    rw [hstep]
    cases m.step s with
    | next t => exact ih t
    | halted result t => rfl

theorem eventsFor_untraced (m : Machine) (fuel : ℕ) (s : State) :
    m.untraced.eventsFor fuel s.untraced = untracedEvents (m.eventsFor fuel s) := by
  induction fuel generalizing s with
  | zero => rfl
  | succ fuel ih =>
    have hstep := step_untraced m s
    unfold eventsFor
    rw [hstep]
    cases m.step s with
    | next t => exact ih t
    | halted result t => rfl

end Machine

/-- An outcome without the lines of the trace. -/
def Outcome.untraced (o : Outcome) : Outcome := { o with events := untracedEvents o.events }

namespace Interpreter

theorem start?_untraced (b : Interpreter) (traced : Bool) (sink : Sink) (source : Source) :
    b.start? false sink source =
      (b.start? traced sink source).map fun x => (x.1.untraced, x.2.untraced) := by
  unfold start?
  cases b.load with
  | error e => rfl
  | ok p =>
    dsimp only
    cases p.isEmpty || b.tape.isEmpty with
    | true => rfl
    | false => cases traced <;> rfl

theorem idle_untraced (b : Interpreter) (source : Source) :
    (b.idle source).untraced = b.idle source := by
  unfold idle
  split <;> rfl

/-- A traced run ends when the plain run ends, with the same result, interpreter and rest of the
input, and its events are those of the plain run but for the lines of the trace. -/
theorem runTraced_untraced (b : Interpreter) (sink : Sink) (source : Source) (fuel : ℕ) :
    (b.runTraced sink source fuel).map Outcome.untraced = b.run sink source fuel := by
  have hstart := start?_untraced b true sink source
  unfold run runTraced
  rw [execute_eq b true, execute_eq b false, hstart]
  cases b.start? true sink source with
  | none => exact congrArg some (idle_untraced b source)
  | some start =>
    obtain ⟨m, s⟩ := start
    have hrun := Machine.runFor_untraced m fuel s
    dsimp only [Option.map_some]
    rw [hrun, Option.map_map, Option.map_map]
    rfl

/-- At every point of a traced run its events so far are those of the plain run but for the lines
of the trace. -/
theorem eventsFor_untraced (b : Interpreter) (sink : Sink) (source : Source) (fuel : ℕ) :
    untracedEvents (b.eventsFor true sink source fuel) = b.eventsFor false sink source fuel := by
  have hstart := start?_untraced b true sink source
  unfold eventsFor
  rw [hstart]
  cases b.start? true sink source with
  | none => rfl
  | some start => exact (Machine.eventsFor_untraced start.1 fuel start.2).symm

end Interpreter

end Brainfuck
