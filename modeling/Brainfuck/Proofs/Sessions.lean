import Brainfuck.Proofs.Effects
import Brainfuck.Proofs.Pairing
import Brainfuck.Proofs.Start
import Brainfuck.Proofs.TapeBounds

/-!
# Sessions

An interpreter is made once (`Interpreter.Made`) and then called any number of times.  A call leaves
its program and a tape that may be dirty behind, and `Interpreter.Keeps` says what of the interpreter
as it was made is still there afterwards.  That is all that a run depends on (`Keeps.execute_eq`),
so that no call can observe an earlier one: `session_iff_fresh`.
-/

namespace Brainfuck

/-- The text of a program spells it again. -/
theorem Program.parse_toText {text : String} {p : Program} (h : parse text = .ok p) :
    parse p.toText = .ok p := by
  have his : p.instructions.toList = instructionsOf text := by
    rw [instructions_of_ofInstructions h]
  unfold parse toText
  rw [instructionsOf_textOf, his]
  exact h

namespace Interpreter

variable {b b' : Interpreter}

/-- Interpreters as they are made: of a text, or of a program that some text spells. -/
inductive Made : Interpreter → Prop
  | ofText (code : String) (size : ℕ) : Made (ofText code size)
  | ofProgram {text : String} {p : Program} (size : ℕ) :
      Program.parse text = .ok p → Made (ofProgram p size)

/-! ## What calls keep -/

/-- The interpreter `b'` is as good as `b`: only its program may have been parsed meanwhile and,
where runs start, its cells may have changed. -/
structure Keeps (b b' : Interpreter) : Prop where
  code : b'.code = b.code
  load : b'.load = b.load
  cached : ∀ p, b'.program = some p → Program.parse b'.code = .ok p
  size : b'.tape.size = b.tape.size
  /-- Where no run starts, nothing has changed the tape. -/
  tape : ∀ traced sink source, b'.start? traced sink source = none → b'.tape = b.tape

theorem Made.keeps (made : b.Made) : b.Keeps b where
  code := rfl
  load := rfl
  cached p hp := by
    cases made with
    | ofText code size => cases hp
    | ofProgram size h =>
      cases hp
      exact Program.parse_toText h
  size := rfl
  tape _ _ _ _ := rfl

theorem program_of_load_error {e : ParseError} (h : b.load = .error e) : b.program = none := by
  unfold load at h
  split at h
  · cases h
  · assumption

namespace Keeps

theorem start?_eq (h : b.Keeps b') (traced : Bool) (sink : Sink) (source : Source) :
    b'.start? traced sink source = b.start? traced sink source := by
  have hreset : b'.tape.reset = b.tape.reset := congrArg Tape.zeros h.size
  have hempty : b'.tape.isEmpty = b.tape.isEmpty := by
    rw [Tape.isEmpty, Tape.isEmpty, Array.isEmpty, Array.isEmpty]
    exact congrArg (fun n => decide (n = 0)) h.size
  unfold start?
  rw [h.load, hreset, hempty]

theorem idle_eq (h : b.Keeps b') {traced : Bool} {sink : Sink} {source : Source}
    (idle : b'.start? traced sink source = none) : b'.idle source = b.idle source := by
  have htape := h.tape traced sink source idle
  have hcode := h.code
  have hload := h.load
  unfold Interpreter.idle
  rw [hload]
  cases hb : b.load with
  | ok p => simp only [hcode, htape]
  | error e =>
    have hprogram : b'.program = b.program := by
      rw [program_of_load_error hb, program_of_load_error (hload.trans hb)]
    have hsame : b' = b := by
      obtain ⟨code, program, tape⟩ := b
      obtain ⟨code', program', tape'⟩ := b'
      dsimp only at hcode hprogram htape
      rw [hcode, hprogram, htape]
    rw [hsame]

/-- A run depends on nothing that earlier calls change. -/
theorem execute_eq (h : b.Keeps b') : b'.execute = b.execute := by
  funext traced sink source fuel
  rw [Interpreter.execute_eq, Interpreter.execute_eq, ← h.start?_eq]
  cases hstart : b'.start? traced sink source with
  | none =>
    dsimp only
    rw [h.idle_eq hstart]
  | some start =>
    dsimp only
    rw [h.code]

theorem load_eq_parse (h : b.Keeps b') : b'.load = Program.parse b'.code := by
  unfold Interpreter.load
  cases hprogram : b'.program with
  | none => rfl
  | some p => exact (h.cached p hprogram).symm

/-- The program is put back after a run, with a tape that may be dirty only where runs start. -/
theorem put_back (h : b.Keeps b') {p : Program} (loaded : b'.load = .ok p) {tape : Tape}
    (size : tape.size = b.tape.size) (clean : (1 ≤ p.size → tape.size = 0) → tape = b.tape) :
    b.Keeps ⟨b'.code, some p, tape⟩ where
  code := h.code
  load := loaded.symm.trans h.load
  cached q hq := by
    cases hq
    exact h.load_eq_parse.symm.trans loaded
  size := size
  tape traced sink source idle := by
    apply clean
    intro nonempty
    by_contra hne
    have starts := start?_of_load (b := ⟨b'.code, some p, tape⟩) rfl nonempty
      (Nat.pos_of_ne_zero hne) traced sink source
    exact absurd (idle.symm.trans starts) nofun

/-- Every call that ends, in whatever way, keeps the interpreter. -/
theorem of_execute (h : b.Keeps b') {traced : Bool} {sink : Sink} {source : Source} {fuel : ℕ}
    {o : Outcome} (ended : b'.execute traced sink source fuel = some o) :
    b.Keeps o.interpreter := by
  rcases execute_eq_some ended with ⟨hstart, rfl⟩ | ⟨m, s, result, t, hstart, hrun, rfl⟩
  · have htape := h.tape traced sink source hstart
    unfold Interpreter.idle
    cases loaded : b'.load with
    | error e => exact h
    | ok p => exact h.put_back loaded h.size fun _ => htape
  · obtain ⟨loaded, nonempty, positive, -, rfl⟩ := start?_eq_some hstart
    have hreset : b'.tape.reset.size = b'.tape.size := Array.size_replicate
    have hsize : t.tape.size = b'.tape.size := (Machine.size_runFor hrun).trans hreset
    refine h.put_back loaded (hsize.trans h.size) fun hnone => ?_
    have hzero := hnone nonempty
    omega

end Keeps

/-! ## Sessions -/

/-- A call of an interpreter. -/
structure Call where
  traced : Bool
  sink : Sink
  /-- The input that takes the place of what is left, if it is replaced. -/
  replacement : Option Source

/-- The input of a call that comes when `left` is left. -/
def Call.source (c : Call) (left : Source) : Source := c.replacement.getD left

/-- Calls in order that all end, each with its outcome.  The first is made on the interpreter `b`
with the input `left`, and `next` gives the interpreter for the next call from the one that a call
leaves. -/
inductive Session (next : Interpreter → Interpreter) :
    (b : Interpreter) → (left : Source) → List (Call × Outcome) → Prop
  | nil {b : Interpreter} {left : Source} : Session next b left []
  | cons {b : Interpreter} {left : Source} {c : Call} {o : Outcome} {log : List (Call × Outcome)}
      (fuel : ℕ) : b.execute c.traced c.sink (c.source left) fuel = some o →
      Session next (next o.interpreter) o.source log → Session next b left ((c, o) :: log)

theorem Keeps.session_iff (h : b.Keeps b') {left : Source} {log : List (Call × Outcome)} :
    Session id b' left log ↔ Session (fun _ => b) b left log := by
  induction log generalizing b' left with
  | nil => exact ⟨fun _ => .nil, fun _ => .nil⟩
  | cons x log ih =>
    constructor
    · rintro (_ | ⟨fuel, ended, rest⟩)
      have kept := h.of_execute ended
      rw [h.execute_eq] at ended
      exact .cons fuel ended ((ih kept).1 rest)
    · rintro (_ | ⟨fuel, ended, rest⟩)
      rw [← h.execute_eq] at ended
      exact .cons fuel ended ((ih (h.of_execute ended)).2 rest)

theorem Keeps.of_session (h : b.Keeps b') {left : Source} {log : List (Call × Outcome)}
    (session : Session id b' left log) : ∀ x ∈ log, b.Keeps x.2.interpreter := by
  induction log generalizing b' left with
  | nil => exact fun x hx => absurd hx List.not_mem_nil
  | cons y log ih =>
    obtain _ | ⟨fuel, ended, rest⟩ := session
    have kept := h.of_execute ended
    intro x hx
    rcases List.mem_cons.1 hx with rfl | hx
    · exact kept
    · exact ih kept rest x hx

/-- Calls on one interpreter have the outcomes that they have when an interpreter is made afresh for
each of them and given the input as it stands.  An interpreter keeps its text and its number of
cells, and has no program or that of its text. -/
theorem session_iff_fresh (made : b.Made) (left : Source) (log : List (Call × Outcome)) :
    (Session id b left log ↔ Session (fun _ => b) b left log) ∧
    (Session id b left log → ∀ c o, (c, o) ∈ log →
      o.interpreter.code = b.code ∧ o.interpreter.tape.size = b.tape.size ∧
      (o.interpreter.program = none ∨
        ∃ p, o.interpreter.program = some p ∧ Program.parse o.interpreter.code = .ok p)) := by
  refine ⟨made.keeps.session_iff, fun session c o mem => ?_⟩
  have kept := made.keeps.of_session session (c, o) mem
  refine ⟨kept.code, kept.size, ?_⟩
  cases hprogram : o.interpreter.program with
  | none => exact .inl rfl
  | some p => exact .inr ⟨p, rfl, kept.cached p hprogram⟩

/-- The first call of `>+,<<` fails with a dirty tape; the second has a trace and the input that is
left. -/
theorem session_fresh_after_underflow :
    ∃ o o' : Outcome, o.result = .error (.pointerUnderflow 4) ∧ o.interpreter.tape = ⟨#[0, 97], 0⟩ ∧
      o'.interpreter.tape = ⟨#[0, 98], 0⟩ ∧
      Session (fun _ => ofText ">+,<<" 2) (ofText ">+,<<" 2) (.queue [some 'a', some 'b'])
        [(⟨false, .working, none⟩, o), (⟨true, .working, none⟩, o')] := by
  refine ⟨_, _, ?_, ?_, ?_, ((session_iff_fresh (.ofText _ _) _ _).1).1
    (.cons 6 rfl (.cons 6 rfl .nil))⟩
  all_goals rfl

end Interpreter

end Brainfuck
