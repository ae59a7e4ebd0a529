import Brainfuck.CommandLine.Exit
import Brainfuck.Proofs.Replies
import Mathlib.Logic.Relation

/-!
# Comments

The comments of a text are its characters that are no instructions (`IsComment`).  To write and to
delete comments (`EditsComment`) is all that can be done to a text without a change to its
instructions (`reaches_by_comments_iff`).  Nothing that reads a text sees them, neither programs nor
interpreters nor reports: `comments_invisible`.
-/

namespace Brainfuck

/-! ## Texts without their comments -/

/-- A character that stands for no instruction. -/
def IsComment (c : Char) : Prop := c ∉ ['>', '<', '+', '-', '.', ',', '[', ']']

theorem ofChar?_eq_none_iff {c : Char} : Instruction.ofChar? c = none ↔ IsComment c := by
  unfold Instruction.ofChar? IsComment
  split <;> simp_all

theorem isSome_ofChar?_iff {c : Char} : (Instruction.ofChar? c).isSome ↔ ¬ IsComment c := by
  rw [← ofChar?_eq_none_iff, ← Option.ne_none_iff_isSome, ne_eq]

/-- The instructions of the texts decide about the texts without comments, and the other way round. -/
theorem filterText_eq_iff {t u : String} :
    filterText t = filterText u ↔ instructionsOf t = instructionsOf u := by
  rw [filterText_eq_textOf, filterText_eq_textOf]
  constructor
  · intro h
    rw [← instructionsOf_textOf (instructionsOf t), h, instructionsOf_textOf]
  · intro h
    rw [h]

theorem parse_eq_of_filterText_eq {t u : String} (h : filterText t = filterText u) :
    Program.parse t = Program.parse u := by
  unfold Program.parse
  rw [filterText_eq_iff.1 h]

theorem filterText_filterText (t : String) : filterText (filterText t) = filterText t := by
  simp [filterText, List.filter_filter]

theorem filterText_append (t u : String) : filterText (t ++ u) = filterText t ++ filterText u := by
  simp [filterText, String.toList_append, List.filter_append, String.ofList_append]

theorem filterText_eq_self {t : String} (h : ∀ c ∈ t.toList, ¬ IsComment c) : filterText t = t := by
  have hall : ∀ c ∈ t.toList, (Instruction.ofChar? c).isSome = true := fun c hc =>
    isSome_ofChar?_iff.2 (h c hc)
  rw [filterText, List.filter_eq_self.2 hall, String.ofList_toList]

/-! ## Writing and deleting comments -/

/-- One character of a comment is written or deleted somewhere in a text. -/
inductive EditsComment : String → String → Prop
  | write (before after : List Char) {c : Char} : IsComment c →
      EditsComment (.ofList (before ++ after)) (.ofList (before ++ c :: after))
  | delete (before after : List Char) {c : Char} : IsComment c →
      EditsComment (.ofList (before ++ c :: after)) (.ofList (before ++ after))

theorem EditsComment.symm {t u : String} (h : EditsComment t u) : EditsComment u t := by
  cases h with
  | write before after hc => exact .delete before after hc
  | delete before after hc => exact .write before after hc

theorem EditsComment.filterText_eq {t u : String} (h : EditsComment t u) :
    filterText t = filterText u := by
  cases h with
  | write before after hc => simp [filterText, ofChar?_eq_none_iff.2 hc]
  | delete before after hc => simp [filterText, ofChar?_eq_none_iff.2 hc]

/-- All comments behind a point of a text can be deleted. -/
theorem deletes_comments (before cs : List Char) :
    Relation.ReflTransGen EditsComment (.ofList (before ++ cs))
      (.ofList (before ++ cs.filter fun c => (Instruction.ofChar? c).isSome)) := by
  induction cs generalizing before with
  | nil => exact .refl
  | cons c cs ih =>
    cases hc : Instruction.ofChar? c with
    | none =>
      have first := EditsComment.delete before cs (ofChar?_eq_none_iff.1 hc)
      rw [List.filter_cons_of_neg (by simp [hc])]
      exact (ih before).head first
    | some i =>
      have rest := ih (before ++ [c])
      rw [List.filter_cons_of_pos (by simp [hc])]
      simpa using rest

theorem reaches_filterText (t : String) : Relation.ReflTransGen EditsComment t (filterText t) := by
  simpa [filterText] using deletes_comments [] t.toList

/-- Texts are the same but for their comments if and only if they have the same instructions. -/
theorem reaches_by_comments_iff {t u : String} :
    Relation.ReflTransGen EditsComment t u ↔ filterText t = filterText u := by
  constructor
  · intro h
    induction h with
    | refl => rfl
    | tail _ edits ih => exact ih.trans edits.filterText_eq
  · intro h
    -- both texts reach the text without comments, and edits can be undone
    have symmetric : Std.Symm EditsComment := ⟨fun _ _ edits => edits.symm⟩
    have back := Relation.ReflTransGen.stdSymm.symm _ _ (reaches_filterText u)
    rw [← h] at back
    exact (reaches_filterText t).trans back

/-! ## Those who read a text -/

theorem Report.ofError_eq {t u : String} (h : filterText t = filterText u) (program : Option String)
    (terminal : Bool) (e : RunError) : ofError program terminal t e = ofError program terminal u e := by
  unfold ofError
  rw [h]

namespace Interpreter

theorem alike_ofText {t u : String} (h : filterText t = filterText u) (size : ℕ) :
    (ofText t size).Alike (ofText u size) :=
  ⟨(parse_eq_of_filterText_eq h).symm, rfl⟩

end Interpreter

namespace CommandLine

/-- A run of another text with the same instructions ends in the same way. -/
theorem Exit.ofOutcome_withCode {u : String} {o : Outcome}
    (h : filterText o.interpreter.code = filterText u) (program : String) :
    Exit.ofOutcome program (o.withCode u) = Exit.ofOutcome program o := by
  unfold Exit.ofOutcome Outcome.withCode
  cases o.result with
  | ok => rfl
  | error e =>
    dsimp only
    rw [Report.ofError_eq h]

/-- Where the code is, and what it has in comments, makes no difference to a task. -/
theorem Plan.perform_eq_of_filterText {t u : String} (h : filterText t = filterText u)
    {location location' : CodeLocation} {w : World} (ht : location.text w.readFile = .ok t)
    (hu : location'.text w.readFile = .ok u) (memorySize : Option ℕ) (traced : Bool)
    (program : String) (fuel : ℕ) :
    (Plan.run ⟨location, memorySize, traced⟩).perform program w fuel =
      (Plan.run ⟨location', memorySize, traced⟩).perform program w fuel := by
  unfold perform
  dsimp only
  rw [ht, hu]
  dsimp only
  generalize w.environment.resolveMemorySize memorySize = size
  rw [(Interpreter.alike_ofText h size).execute_eq fuel, Option.map_map]
  refine Option.map_congr fun o ended => ?_
  have kept := (Interpreter.Made.ofText t size).keeps.of_execute ended
  have hcode : o.interpreter.code = t := kept.code
  rw [← hcode] at h
  exact (Exit.ofOutcome_withCode h program).symm

end CommandLine

/-- Texts that are the same but for their comments are the same to all that read them: to the filter
and the parser, to interpreters in any sequence of calls, to reports, and to the program that runs
them. -/
theorem comments_invisible :
    (∀ t u : String, Relation.ReflTransGen EditsComment t u →
      filterText t = filterText u ∧
      Program.parse t = Program.parse u ∧
      (∀ (size : ℕ) (left : Source) (calls : List (Interpreter.Call × ℕ)),
        (Interpreter.ofText u size).replies left calls =
          ((Interpreter.ofText t size).replies left calls).map (.withCode u)) ∧
      (∀ (program : Option String) (terminal : Bool) (e : RunError),
        Report.ofError program terminal t e = Report.ofError program terminal u e) ∧
      (∀ (memorySize : Option ℕ) (traced : Bool) (program : String) (w : CommandLine.World)
        (fuel : ℕ),
        (CommandLine.Plan.run ⟨.words [t], memorySize, traced⟩).perform program w fuel =
          (CommandLine.Plan.run ⟨.words [u], memorySize, traced⟩).perform program w fuel)) ∧
    (∀ t : String, Relation.ReflTransGen EditsComment t (filterText t)) ∧
    (∀ t : String, filterText (filterText t) = filterText t) ∧
    (∀ t u : String, filterText (t ++ u) = filterText t ++ filterText u) := by
  refine ⟨fun t u edits => ?_, reaches_filterText, filterText_filterText, filterText_append⟩
  have same := reaches_by_comments_iff.1 edits
  refine ⟨same, parse_eq_of_filterText_eq same, ?_, Report.ofError_eq same, ?_⟩
  · intro size left calls
    exact (Interpreter.alike_ofText same size).replies_eq left calls
  · intro memorySize traced program w fuel
    have ht : (CommandLine.CodeLocation.words [t]).text w.readFile = .ok t := by
      simp [CommandLine.CodeLocation.text]
    have hu : (CommandLine.CodeLocation.words [u]).text w.readFile = .ok u := by
      simp [CommandLine.CodeLocation.text]
    exact CommandLine.Plan.perform_eq_of_filterText same ht hu memorySize traced program fuel

/-- A text with a word and a line break in it, and one with other comments in other places. -/
theorem comments_invisible_beside_accents :
    Relation.ReflTransGen EditsComment "read:,[\n.]" ",é[.] ok" ∧
      Program.parse "read:,[\n.]" = Program.parse ",é[.] ok" ∧
      (Interpreter.ofText ",é[.] ok" 1).replies (.queue [some 'x'])
          [(⟨true, .working, none⟩, 9), (⟨false, .working, none⟩, 9)] =
        ((Interpreter.ofText "read:,[\n.]" 1).replies (.queue [some 'x'])
          [(⟨true, .working, none⟩, 9), (⟨false, .working, none⟩, 9)]).map (.withCode ",é[.] ok") := by
  have edits : Relation.ReflTransGen EditsComment "read:,[\n.]" ",é[.] ok" :=
    reaches_by_comments_iff.2 (by decide +kernel)
  obtain ⟨-, hparse, hreplies, -, -⟩ := comments_invisible.1 _ _ edits
  exact ⟨edits, hparse, hreplies 1 _ _⟩

end Brainfuck
