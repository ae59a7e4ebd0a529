import Brainfuck.Proofs.Effects
import Brainfuck.Proofs.Safety
import Brainfuck.Proofs.Start

/-!
# Runs that fail

An instruction that fails leaves the tape alone, and its error describes this tape
(`RunError.Describes`): it names the instruction, the pointer and, by its kind, what the tape
refused.  The faults that have no constructor there never come out of a run, by the bounds of
`State.Within`.  For whole runs this is `Interpreter.error_describes_tape`.
-/

namespace Brainfuck

variable {n : ℕ}

/-- The errors that an instruction of the program `p` can have on the tape `t`, or that the line break
behind its last instruction can have. -/
inductive RunError.Describes (p : Program) (t : Tape) : RunError → Prop
  | pointerUnderflow {ip : ℕ} : p.get? ip = some .left → t.pointer = 0 →
      Describes p t (.pointerUnderflow ip)
  | pointerOverflow {ip : ℕ} : p.get? ip = some .right → t.pointer + 1 = t.size →
      Describes p t (.pointerOverflow ip t.pointer)
  | valueOverflow {ip : ℕ} : p.get? ip = some .increment → t.get? = some cellMax →
      Describes p t (.valueOverflow ip t.pointer)
  | valueUnderflow {ip : ℕ} : p.get? ip = some .decrement → t.get? = some 0 →
      Describes p t (.valueUnderflow ip t.pointer)
  | input {ip : ℕ} : p.get? ip = some .read → Describes p t (.input ip)
  | io {ip : ℕ} {message : String} : p.get? ip = some .read ∨ p.get? ip = some .write →
      Describes p t (.io ip message)
  | lineBreak {message : String} : Describes p t (.io p.size message)

/-- No run on a program fails with an error about the text. -/
theorem RunError.Describes.isStructural_eq_false {p : Program} {t : Tape} {e : RunError}
    (h : e.Describes p t) : e.isStructural = false := by
  cases h <;> rfl

namespace Machine

variable {m : Machine} {i : Instruction} {ip written : ℕ} {tape tape' : Tape}
  {source source' : Source} {event : Option Event} {error : RunError} {s t : State}

theorem Effect.ofAnswer_eq_failed (bounded : tape.Bounded n) {answer : CharRead}
    (hi : m.program.get? ip = some .read)
    (h : ofAnswer ip tape answer source = .failed event error tape' source') :
    tape' = tape ∧ error.ip? = some ip ∧ error.Describes m.program tape := by
  cases answer with
  | char c =>
    simp only [ofAnswer, bounded.set_toNat_eq] at h
    cases h
  | endOfInput | invalid =>
    cases h
    exact ⟨rfl, rfl, .input hi⟩
  | failure message =>
    cases h
    exact ⟨rfl, rfl, .io (.inl hi)⟩

/-- An instruction that fails leaves the tape alone, and its error describes the tape. -/
theorem effect_eq_failed (bounded : tape.Bounded n) (hi : m.program.get? ip = some i)
    (h : m.effect i ip tape source written = .failed event error tape' source') :
    tape' = tape ∧ error.ip? = some ip ∧ error.Describes m.program tape := by
  obtain ⟨v, hle, hv⟩ := bounded.exists_get?
  cases i with
  | right =>
    have hlt := bounded.pointer_lt
    have hsize : tape.size = n := bounded.size_eq
    simp only [effect, bounded.moveRight_eq] at h
    split_ifs at h with hroom
    cases h
    exact ⟨rfl, rfl, .pointerOverflow hi (by omega)⟩
  | left =>
    simp only [effect, Tape.moveLeft] at h
    split_ifs at h with hzero
    cases h
    exact ⟨rfl, rfl, .pointerUnderflow hi hzero⟩
  | increment =>
    simp only [effect, bounded.increment_eq hv] at h
    split_ifs at h with hlow
    cases h
    obtain rfl : v = cellMax := by omega
    exact ⟨rfl, rfl, .valueOverflow hi hv⟩
  | decrement =>
    simp only [effect, bounded.decrement_eq hv] at h
    split_ifs at h with hpos
    cases h
    obtain rfl : v = 0 := by omega
    exact ⟨rfl, rfl, .valueUnderflow hi hv⟩
  | write =>
    simp only [effect] at h
    split at h <;> cases h
    exact ⟨rfl, rfl, .io (.inr hi)⟩
  | read =>
    rw [effect_read rfl] at h
    exact Effect.ofAnswer_eq_failed bounded hi h
  | loopStart =>
    simp only [effect] at h
    split at h <;> cases h
  | loopEnd => cases h

theorem finish_eq_error {result : Except RunError Unit} (h : m.finish s = .halted result t)
    (failed : result = .error error) :
    t.tape = s.tape ∧ ∃ message, error = .io m.program.size message := by
  unfold finish at h
  split at h <;> cases h <;> cases failed
  exact ⟨rfl, _, rfl⟩

/-- The last step of a run that fails leaves the tape alone.  Its position is in the program, or at
its end when the line break there fails. -/
theorem step_eq_error (within : s.Within m.program n) (h : m.step s = .halted (.error error) t) :
    t.tape = s.tape ∧ error.ip? = some s.ip ∧
      (s.ip < m.program.size ∨
        s.ip = m.program.size ∧ ∃ message, error = .io m.program.size message) ∧
      error.Describes m.program s.tape := by
  rcases halted_effect h with ⟨hnone, hfinish⟩ | ⟨i, event, error', hi, heffect, herror, -⟩
  · obtain ⟨htape, message, rfl⟩ := finish_eq_error hfinish rfl
    have hend : s.ip = m.program.size :=
      Nat.le_antisymm within.ip_le (Array.getElem?_eq_none_iff.1 hnone)
    exact ⟨htape, congrArg some hend.symm, .inr ⟨hend, message, rfl⟩, .lineBreak⟩
  · cases herror
    obtain ⟨htape, hip, describes⟩ := effect_eq_failed within.tape hi heffect
    exact ⟨htape, hip, .inl (Program.lt_size_of_get? hi), describes⟩

end Machine

namespace Interpreter

variable {b : Interpreter} {traced : Bool} {sink : Sink} {source : Source}

/-- The error of a run that started describes the tape that the run leaves. -/
theorem describes_of_start {text : String} {m : Machine} {s t : Machine.State}
    (parsed : Program.Parsed text m.program) (started : b.start? traced sink source = some (m, s))
    {fuel : ℕ} {error : RunError} (hrun : m.runFor fuel s = some (.error error, t)) :
    error.Describes m.program t.tape := by
  obtain ⟨-, -, positive, -, rfl⟩ := start?_eq_some started
  obtain ⟨u, reached, hlast⟩ := Machine.exists_reaches_of_runFor hrun
  have within : u.Within m.program b.tape.size :=
    reached.invariant (fun _ _ => Machine.advances_within parsed)
      (Machine.start_within positive source)
  obtain ⟨htape, -, -, describes⟩ := Machine.step_eq_error within hlast
  rw [htape]
  exact describes

/-- The error of a call is that of its text, that of a tape without cells, or one that describes a
tape. -/
theorem error_of_execute (hload : b.load = Program.parse b.code) {fuel : ℕ} {o : Outcome}
    {e : RunError} (ended : b.execute traced sink source fuel = some o)
    (failed : o.result = .error e) :
    (∃ e', Program.parse b.code = .error e' ∧ e = .parse e') ∨
      ∃ p, Program.parse b.code = .ok p ∧ (e = .emptyTape ∨ ∃ t, e.Describes p t) := by
  rcases execute_eq_some ended with ⟨-, rfl⟩ | ⟨m, s, result, t, started, hrun, rfl⟩
  · unfold idle at failed
    rw [hload] at failed
    cases hparse : Program.parse b.code with
    | error e' =>
      rw [hparse] at failed
      cases failed
      exact .inl ⟨e', rfl, rfl⟩
    | ok p =>
      simp only [hparse] at failed
      split at failed
      · cases failed
      · cases failed
        exact .inr ⟨p, rfl, .inl rfl⟩
  · have hparse : Program.parse b.code = .ok m.program :=
      hload.symm.trans (start?_eq_some started).1
    obtain rfl : result = .error e := failed
    have parsed := Program.parsed_of_parse hparse
    exact .inr ⟨m.program, hparse, .inr ⟨t.tape, describes_of_start parsed started hrun⟩⟩

/-- The error of a call is about the text if and only if the text is no program. -/
theorem isStructural_iff_of_execute (hload : b.load = Program.parse b.code) {fuel : ℕ} {o : Outcome}
    {e : RunError} (ended : b.execute traced sink source fuel = some o)
    (failed : o.result = .error e) :
    e.isStructural = true ↔ ∃ e', Program.parse b.code = .error e' := by
  rcases error_of_execute hload ended failed with ⟨e', hparse, rfl⟩ | ⟨p, hparse, rfl | ⟨t, describes⟩⟩
  · exact ⟨fun _ => ⟨e', hparse⟩, fun _ => rfl⟩
  · simp [RunError.isStructural, hparse]
  · simp [describes.isStructural_eq_false, hparse]

/-- Where a run fails, its error describes the tape that it leaves: the one that the completed
instructions have made, on which the instruction with the position of the error is refused. -/
theorem error_describes_tape {text : String} {p : Program} (hp : Program.parse text = .ok p)
    (nonempty : 1 ≤ p.size) (loaded : b.load = .ok p) (positive : 1 ≤ b.tape.size) {fuel : ℕ}
    {o : Outcome} {error : RunError} (ended : b.execute traced sink source fuel = some o)
    (failed : o.result = .error error) :
    let m : Machine := ⟨p, sink, traced⟩
    ∃ s t, m.Reaches (m.start b.tape.reset source) s ∧ m.step s = .halted (.error error) t ∧
      o.interpreter.tape = s.tape ∧ o.interpreter.tape.size = b.tape.size ∧
      error.ip? = some s.ip ∧
      (s.ip < p.size ∨ s.ip = p.size ∧ ∃ message, error = .io p.size message) ∧
      error.Describes p o.interpreter.tape := by
  intro m
  rw [execute_of_start (start?_of_load loaded nonempty positive traced sink source),
    Option.map_eq_some_iff] at ended
  obtain ⟨⟨result, t⟩, hrun, rfl⟩ := ended
  obtain rfl : result = .error error := failed
  obtain ⟨s, reached, hlast⟩ := Machine.exists_reaches_of_runFor hrun
  have parsed : Program.Parsed text m.program := Program.parsed_of_parse hp
  have within : s.Within m.program b.tape.size :=
    reached.invariant (fun _ _ => Machine.advances_within parsed)
      (Machine.start_within positive source)
  obtain ⟨htape, hip, position, describes⟩ := Machine.step_eq_error within hlast
  refine ⟨s, t, reached, hlast, htape, ?_, hip, position, ?_⟩
  · exact (congrArg Tape.size htape).trans within.tape.size_eq
  · change error.Describes p t.tape
    rw [htape]
    exact describes

/-- The loop of `+[>+]` comes to the last of three cells and tries to leave it. -/
theorem error_describes_last_cell :
    ∃ o : Outcome, (ofText "+[>+]" 3).execute true .working (.queue []) 11 = some o ∧
      o.result = .error (.pointerOverflow 2 2) ∧ o.interpreter.tape = ⟨#[1, 1, 1], 2⟩ ∧
      o.interpreter.tape.pointer + 1 = 3 := by
  have hp : Program.parse "+[>+]" = .ok ⟨#[.increment, .loopStart, .right, .increment, .loopEnd],
      #[none, some 4, none, none, some 1]⟩ := by
    decide +kernel
  have ended : (ofText "+[>+]" 3).execute true .working (.queue []) 11 =
      some ⟨.error (.pointerOverflow 2 2), ⟨_, _, ⟨#[1, 1, 1], 2⟩⟩, _, _⟩ := rfl
  obtain ⟨s, t, -, -, -, -, -, -, describes⟩ := error_describes_tape hp (by decide)
    (b := ofText "+[>+]" 3) hp (by decide) ended rfl
  refine ⟨_, ended, rfl, rfl, ?_⟩
  cases describes with
  | pointerOverflow hi hlast => exact hlast

end Interpreter

end Brainfuck
