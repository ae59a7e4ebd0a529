import Brainfuck.Proofs.Progress
import Brainfuck.Proofs.Sessions

/-!
# Replies

What an interpreter replies to calls in order, whether or not they end (`Interpreter.replies`).  Its
text has a part in this only through the program that it spells: interpreters that load the same and
have the same tape (`Interpreter.Alike`) give the same replies, but for the text that they keep
(`Alike.replies_eq`).
-/

namespace Brainfuck

/-- An outcome whose interpreter has another text. -/
def Outcome.withCode (code : String) (o : Outcome) : Outcome :=
  { o with interpreter := { o.interpreter with code := code } }

/-- What is seen of a call in a number of steps. -/
structure Reply where
  /-- The events so far. -/
  events : Array Event
  /-- How the call has ended, if it is over by then. -/
  outcome : Option Outcome

/-- A reply whose interpreter has another text. -/
def Reply.withCode (code : String) (r : Reply) : Reply :=
  { r with outcome := r.outcome.map (.withCode code) }

namespace Interpreter

/-- The replies to calls in order, each with the number of steps that it is given.  The first call is
made with the input `left`; after a call that is not over there is no other. -/
def replies (b : Interpreter) (left : Source) : List (Call × ℕ) → List Reply
  | [] => []
  | (c, fuel) :: calls =>
    ⟨b.eventsFor c.traced c.sink (c.source left) fuel,
      b.execute c.traced c.sink (c.source left) fuel⟩ ::
      match b.execute c.traced c.sink (c.source left) fuel with
      | none => []
      | some o => replies o.interpreter o.source calls

/-- The interpreters load the same and have the same tape. -/
structure Alike (b b' : Interpreter) : Prop where
  load : b'.load = b.load
  tape : b'.tape = b.tape

namespace Alike

variable {b b' : Interpreter} {traced : Bool} {sink : Sink} {source : Source}

theorem refl (b : Interpreter) : b.Alike b := ⟨rfl, rfl⟩

/-- Where the text is no program, the interpreters differ in nothing but the text. -/
theorem eq_of_load_error (h : b.Alike b') {e : ParseError} (loaded : b.load = .error e) :
    b' = { b with code := b'.code } := by
  have hprogram := program_of_load_error loaded
  have hprogram' := program_of_load_error (h.load.trans loaded)
  have htape := h.tape
  obtain ⟨code, program, tape⟩ := b
  obtain ⟨code', program', tape'⟩ := b'
  dsimp only at hprogram hprogram' htape ⊢
  rw [hprogram, hprogram', htape]

theorem start?_eq (h : b.Alike b') : b'.start? traced sink source = b.start? traced sink source := by
  unfold start?
  rw [h.load, h.tape]

theorem idle_eq (h : b.Alike b') (source : Source) :
    b'.idle source = (b.idle source).withCode b'.code := by
  unfold idle
  rw [h.load]
  cases loaded : b.load with
  | ok p => simp only [Outcome.withCode, h.tape]
  | error e =>
    dsimp only [Outcome.withCode]
    rw [← h.eq_of_load_error loaded]

theorem execute_eq (h : b.Alike b') (fuel : ℕ) :
    b'.execute traced sink source fuel =
      (b.execute traced sink source fuel).map (.withCode b'.code) := by
  rw [Interpreter.execute_eq, Interpreter.execute_eq, h.start?_eq]
  cases b.start? traced sink source with
  | none => exact congrArg some (h.idle_eq source)
  | some start =>
    dsimp only
    rw [Option.map_map]
    rfl

theorem eventsFor_eq (h : b.Alike b') (fuel : ℕ) :
    b'.eventsFor traced sink source fuel = b.eventsFor traced sink source fuel := by
  unfold eventsFor
  rw [h.start?_eq]

/-- After a call the interpreters are alike, too. -/
theorem of_execute (h : b.Alike b') {fuel : ℕ} {o : Outcome}
    (ended : b.execute traced sink source fuel = some o) :
    o.interpreter.Alike (o.withCode b'.code).interpreter := by
  refine ⟨?_, rfl⟩
  rcases execute_eq_some ended with ⟨-, rfl⟩ | ⟨m, s, result, t, -, -, rfl⟩
  · unfold idle
    cases loaded : b.load with
    | ok p => rfl
    | error e =>
      dsimp only [Outcome.withCode]
      rw [← h.eq_of_load_error loaded]
      exact h.load
  · rfl

/-- Interpreters that are alike cannot be told apart by calls, but for their texts. -/
theorem replies_eq (h : b.Alike b') (left : Source) (calls : List (Call × ℕ)) :
    b'.replies left calls = (b.replies left calls).map (.withCode b'.code) := by
  induction calls generalizing b b' left with
  | nil => rfl
  | cons call calls ih =>
    obtain ⟨c, fuel⟩ := call
    unfold replies
    rw [h.eventsFor_eq, h.execute_eq]
    cases ended : b.execute c.traced c.sink (c.source left) fuel with
    | none => rfl
    | some o =>
      have rest := ih (h.of_execute ended) o.source
      dsimp only [Option.map_some]
      rw [List.map_cons, ← show (o.withCode b'.code).interpreter.code = b'.code from rfl, ← rest]
      rfl

end Alike

end Interpreter

end Brainfuck
