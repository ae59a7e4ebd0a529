import Brainfuck.Proofs.Comments

/-!
# The text of a program

A program is written as its instructions alone, which is the text that it was read from without the
comments (`Program.toText_of_parse`).  To read it again gives the same program, and an interpreter
that is made of the program cannot be told from one that is made of the text, but for the text that
it keeps: `program_text_round_trip`.
-/

namespace Brainfuck

namespace Program

theorem toText_of_parse {t : String} {p : Program} (h : parse t = .ok p) :
    p.toText = filterText t := by
  rw [toText, instructions_of_ofInstructions h, filterText_eq_textOf]

end Program

namespace Interpreter

/-- It makes no difference that one interpreter has its program from the start and the other reads
it in its first run. -/
theorem alike_ofProgram {t : String} {p : Program} (h : Program.parse t = .ok p) (size : ℕ) :
    (ofText t size).Alike (ofProgram p size) :=
  ⟨h.symm, rfl⟩

end Interpreter

/-- The text of a program is the text that it was read from without the comments, and spells the
program again.  Interpreters that are made of the program and of the text differ in nothing but the
text that they keep, before the first call and after every other. -/
theorem program_text_round_trip {t : String} {p : Program} (h : Program.parse t = .ok p) :
    p.toText = filterText t ∧ Program.parse p.toText = .ok p ∧
    ((∀ c ∈ t.toList, ¬ IsComment c) → p.toText = t) ∧
    ∀ size : ℕ,
      ((Interpreter.ofProgram p size).code = filterText t ∧ (Interpreter.ofText t size).code = t) ∧
      (Interpreter.ofProgram p size).tape = (Interpreter.ofText t size).tape ∧
      ∀ (left : Source) (calls : List (Interpreter.Call × ℕ)),
        (Interpreter.ofProgram p size).replies left calls =
          ((Interpreter.ofText t size).replies left calls).map (.withCode (filterText t)) ∧
        (Interpreter.ofText t size).replies left calls =
          ((Interpreter.ofText t size).replies left calls).map (.withCode t) := by
  have htext := Program.toText_of_parse h
  refine ⟨htext, Program.parse_toText h, fun pure => ?_, fun size => ⟨⟨htext, rfl⟩, rfl, ?_⟩⟩
  · rw [htext, filterText_eq_self pure]
  · intro left calls
    have replies := (Interpreter.alike_ofProgram h size).replies_eq left calls
    rw [show (Interpreter.ofProgram p size).code = filterText t from htext] at replies
    exact ⟨replies, (Interpreter.Alike.refl (.ofText t size)).replies_eq left calls⟩

/-- The program of a text with a comment, run twice with the second input in place of the first. -/
theorem program_text_round_trip_of_loop :
    ∃ p : Program, Program.parse "echo: ,[.,]" = .ok p ∧ p.toText = ",[.,]" ∧
      Program.parse ",[.,]" = .ok p ∧
      (Interpreter.ofProgram p 1).replies (.queue [some 'x'])
          [(⟨false, .working, none⟩, 9), (⟨true, .working, some (.queue [some 'y', none])⟩, 9)] =
        ((Interpreter.ofText "echo: ,[.,]" 1).replies (.queue [some 'x'])
          [(⟨false, .working, none⟩, 9),
            (⟨true, .working, some (.queue [some 'y', none])⟩, 9)]).map (.withCode ",[.,]") := by
  have hp : Program.parse "echo: ,[.,]" = .ok
      ⟨#[.read, .loopStart, .write, .read, .loopEnd], #[none, some 4, none, none, some 1]⟩ := by
    decide +kernel
  have hfilter : filterText "echo: ,[.,]" = ",[.,]" := by decide +kernel
  obtain ⟨htext, again, -, interpreters⟩ := program_text_round_trip hp
  obtain ⟨-, -, replies⟩ := interpreters 1
  rw [htext, hfilter] at again
  rw [hfilter] at htext replies
  exact ⟨_, hp, htext, again, (replies _ _).1⟩

end Brainfuck
