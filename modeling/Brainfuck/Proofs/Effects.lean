import Brainfuck.Proofs.Run
import Brainfuck.Proofs.TapeBounds

/-!
# What an instruction has to do with the outside

The effect of an instruction depends on the tape, on the output and, when it reads, on the answer to
one request for a character (`Machine.effect_read`).  The trace has no part in it
(`Machine.effect_untraced`), and no other instruction looks at the input
(`Machine.effect_withSource`).  A step is an instruction that takes effect, or the end of the program
(`Machine.step_eq_of_get?`, `Machine.step_eq_finish`), and neither it nor a run changes the number of
cells (`Machine.size_runFor`).
-/

namespace Brainfuck

/-- Whether an event is a line of the trace. -/
def Event.isTrace : Event → Bool
  | trace _ => true
  | _ => false

/-- The characters that come out of a run, in order. -/
def outputs (events : Array Event) : List Char :=
  events.toList.filterMap fun
    | .output c => some c
    | _ => none

theorem outputs_push_output (events : Array Event) (c : Char) :
    outputs (events.push (.output c)) = outputs events ++ [c] := by
  simp [outputs]

theorem outputs_push_of_ne_output {e : Event} (h : ∀ c, e ≠ .output c) (events : Array Event) :
    outputs (events.push e) = outputs events := by
  cases e with
  | output c => exact absurd rfl (h c)
  | input answer | trace line => simp [outputs]

namespace Machine

namespace Effect

/-- The input or output event of an effect. -/
def event : Effect → Option Event
  | completed event _ _ _ _ => event
  | failed event _ _ _ => event

/-- The tape that an effect leaves. -/
def tape : Effect → Tape
  | completed _ _ _ tape _ => tape
  | failed _ _ tape _ => tape

/-- An effect that leaves another input. -/
def withSource (source : Source) : Effect → Effect
  | completed event action next tape _ => completed event action next tape source
  | failed event error tape _ => failed event error tape source

/-- The effect of reading when a request for a character has an answer and leaves an input. -/
def ofAnswer (ip : ℕ) (tape : Tape) (answer : CharRead) (rest : Source) : Effect :=
  match answer with
  | .char c =>
    match tape.set c.toNat with
    | .ok tape' => completed (some (.input answer)) (.stored c tape.pointer) (ip + 1) tape' rest
    | .error fault => failed (some (.input answer)) (.ofFault fault ip tape.pointer) tape rest
  | .failure message => failed (some (.input answer)) (.io ip message) tape rest
  | .endOfInput => failed (some (.input answer)) (.input ip) tape rest
  | .invalid => failed (some (.input answer)) (.input ip) tape rest

theorem event_ofAnswer (ip : ℕ) (tape : Tape) (answer : CharRead) (rest : Source) :
    (ofAnswer ip tape answer rest).event = some (.input answer) := by
  cases answer with
  | char c =>
    dsimp only [ofAnswer]
    cases tape.set c.toNat <;> rfl
  | endOfInput | invalid | failure message => rfl

theorem size_ofAnswer (ip : ℕ) (t : Tape) (answer : CharRead) (rest : Source) :
    (ofAnswer ip t answer rest).tape.size = t.size := by
  cases answer with
  | char c =>
    dsimp only [ofAnswer]
    cases h : t.set c.toNat with
    | ok t' => exact Tape.size_set h
    | error fault => rfl
  | endOfInput | invalid | failure message => rfl

/-- Reading depends on the answer and not on what comes after it. -/
theorem withSource_ofAnswer (ip : ℕ) (tape : Tape) (answer : CharRead) (rest rest' : Source) :
    (ofAnswer ip tape answer rest).withSource rest' = ofAnswer ip tape answer rest' := by
  cases answer with
  | char c =>
    dsimp only [ofAnswer]
    cases tape.set c.toNat <;> rfl
  | endOfInput | invalid | failure message => rfl

end Effect

variable {m : Machine} {i : Instruction} {ip written : ℕ} {tape : Tape} {source : Source}
  {s : State}

theorem effect_read {answer : CharRead} {rest : Source} (h : source.readChar = (answer, rest)) :
    m.effect .read ip tape source written = .ofAnswer ip tape answer rest := by
  simp only [effect, h]
  cases answer <;> rfl

/-- The machine without its trace. -/
def untraced (m : Machine) : Machine := { m with traced := false }

theorem effect_untraced (m : Machine) (i : Instruction) (ip : ℕ) (tape : Tape) (source : Source)
    (written : ℕ) :
    m.untraced.effect i ip tape source written = m.effect i ip tape source written := by
  cases i <;> rfl

/-- An instruction that does not read leaves the input and does not depend on it. -/
theorem effect_withSource (hi : i ≠ .read) (source' : Source) :
    m.effect i ip tape source' written =
      (m.effect i ip tape source written).withSource source' := by
  cases i with
  | read => exact absurd rfl hi
  | loopEnd => rfl
  | _ =>
    simp only [effect]
    split <;> rfl

/-- No effect has a line of the trace as its event. -/
theorem isTrace_of_effect {e : Event} (h : (m.effect i ip tape source written).event = some e) :
    e.isTrace = false := by
  cases i with
  | write =>
    simp only [effect] at h
    split at h <;> cases h
    rfl
  | read =>
    rw [effect_read rfl, Effect.event_ofAnswer] at h
    cases h
    rfl
  | loopEnd => cases h
  | _ =>
    simp only [effect] at h
    split at h <;> cases h

/-- An instruction keeps the number of cells, also when it fails. -/
theorem size_effect (m : Machine) (i : Instruction) (ip : ℕ) (t : Tape) (source : Source)
    (written : ℕ) : (m.effect i ip t source written).tape.size = t.size := by
  cases i with
  | right =>
    cases h : t.moveRight <;> simp only [effect, h]
    · rfl
    · exact Tape.size_moveRight h
  | left =>
    cases h : t.moveLeft <;> simp only [effect, h]
    · rfl
    · exact Tape.size_moveLeft h
  | increment =>
    cases h : t.increment <;> simp only [effect, h]
    · rfl
    · exact Tape.size_increment h
  | decrement =>
    cases h : t.decrement <;> simp only [effect, h]
    · rfl
    · exact Tape.size_decrement h
  | read =>
    rw [effect_read rfl]
    exact Effect.size_ofAnswer ip t _ _
  | write | loopStart =>
    simp only [effect]
    split <;> rfl
  | loopEnd => rfl

/-! ## Steps -/

/-- What a step makes of the effect that an instruction has in the state `s`. -/
def Effect.step (m : Machine) (s : State) (i : Instruction) : Effect → Step
  | .completed event action next tape source =>
    let events := record event s.events
    .next ⟨next, s.steps + 1, tape, source, tally event s.written,
      if m.traced then
        events.push (.trace (.row ⟨s.steps, s.ip, s.tape.pointer, s.tape.get?.getD 0, i, action⟩))
      else events⟩
  | .failed event error tape source =>
    .halted (.error error)
      ⟨s.ip, s.steps, tape, source, tally event s.written, record event s.events⟩

theorem step_eq_of_get? {i : Instruction} (h : m.program.get? s.ip = some i) :
    m.step s = (m.effect i s.ip s.tape s.source s.written).step m s i := by
  obtain ⟨ip, steps, tape, source, written, events⟩ := s
  unfold step
  simp only [h]
  cases m.effect i ip tape source written <;> rfl

/-- The step behind the last instruction. -/
def finish (m : Machine) (s : State) : Step :=
  match m.sink.refusal? s.written with
  | none =>
    .halted (.ok ()) { s with written := s.written + 1, events := s.events.push (.output '\n') }
  | some message => .halted (.error (.io m.program.size message)) s

theorem step_eq_finish (h : m.program.get? s.ip = none) : m.step s = m.finish s := by
  obtain ⟨ip, steps, tape, source, written, events⟩ := s
  cases hsink : m.sink.refusal? written <;> simp only [step, finish, h, hsink]

/-- All that the last step of a run does: the program is at its end, or the instruction there
fails. -/
theorem halted_effect {result : Except RunError Unit} {t : State}
    (h : m.step s = .halted result t) :
    (m.program.get? s.ip = none ∧ m.finish s = .halted result t) ∨
    ∃ i event error, m.program.get? s.ip = some i ∧
      m.effect i s.ip s.tape s.source s.written = .failed event error t.tape t.source ∧
      result = .error error ∧ t.events = record event s.events := by
  cases hget : m.program.get? s.ip with
  | none =>
    rw [step_eq_finish hget] at h
    exact .inl ⟨rfl, h⟩
  | some i =>
    rw [step_eq_of_get? hget] at h
    cases heffect : m.effect i s.ip s.tape s.source s.written with
    | completed event action next tape source =>
      rw [heffect] at h
      cases h
    | failed event error tape source =>
      rw [heffect] at h
      cases h
      exact .inr ⟨i, event, error, rfl, heffect, rfl, rfl⟩

namespace Step

/-- The state that a step leads to. -/
def state : Step → State
  | next s => s
  | halted _ s => s

/-- A step with its state changed. -/
def map (f : State → State) : Step → Step
  | next s => next (f s)
  | halted result s => halted result (f s)

end Step

/-- A step keeps the number of cells, also when it fails. -/
theorem size_step (m : Machine) (s : State) : (m.step s).state.tape.size = s.tape.size := by
  cases h : m.program.get? s.ip with
  | none =>
    rw [step_eq_finish h, finish]
    cases m.sink.refusal? s.written <;> rfl
  | some i =>
    have keeps := size_effect m i s.ip s.tape s.source s.written
    rw [step_eq_of_get? h]
    cases heffect : m.effect i s.ip s.tape s.source s.written <;> rw [heffect] at keeps <;>
      exact keeps

/-! ## Runs -/

/-- What a step keeps holds at the end of a run. -/
theorem runFor_invariant {P : State → Prop} (keep : ∀ s, P s → P (m.step s).state) {fuel : ℕ}
    {result : Except RunError Unit} {t : State} (h : m.runFor fuel s = some (result, t))
    (hs : P s) : P t := by
  induction fuel generalizing s with
  | zero => cases h
  | succ fuel ih =>
    have hnext := keep s hs
    cases hstep : m.step s with
    | next u =>
      rw [runFor_of_advances hstep] at h
      rw [hstep] at hnext
      exact ih h hnext
    | halted result' u =>
      rw [runFor_of_halted hstep] at h
      rw [hstep] at hnext
      cases h
      exact hnext

/-- A run keeps the number of cells, also when it fails. -/
theorem size_runFor {fuel : ℕ} {result : Except RunError Unit} {t : State}
    (h : m.runFor fuel s = some (result, t)) : t.tape.size = s.tape.size :=
  runFor_invariant (P := fun u => u.tape.size = s.tape.size)
    (fun u hu => (size_step m u).trans hu) h rfl

end Machine

end Brainfuck
