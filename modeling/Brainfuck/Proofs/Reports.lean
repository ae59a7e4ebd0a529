import Brainfuck.Proofs.Failures
import Brainfuck.Proofs.Windows

/-!
# Reports of errors

A report shows the instructions around a position and under one of them a caret.  The error of a run
has its position at an instruction that can cause it (`RunError.culprits`) or, if the final line break
is refused, behind the last one.  Together with the place of the caret in the window this is
`report_points_at_error`.
-/

namespace Brainfuck

/-! ## Labels -/

namespace Report

theorem label_eq_parse_iff (e : RunError) : label e = "Parse error" ↔ e.isStructural = true := by
  cases h : e.isStructural <;> simp [label, h]

theorem label_eq_or (e : RunError) : label e = "Parse error" ∨ label e = "Runtime error" := by
  cases h : e.isStructural <;> simp [label, h]

end Report

/-! ## Positions -/

/-- The instructions that can cause an error, as characters. -/
def RunError.culprits : RunError → List Char
  | parse (.unmatched .opening _) => ['[']
  | parse (.unmatched .closing _) => [']']
  | parse (.unclosed _) => ['[']
  | pointerUnderflow _ => ['<']
  | pointerOverflow _ _ => ['>']
  | valueOverflow _ _ => ['+']
  | valueUnderflow _ _ => ['-']
  | input _ => [',']
  | io _ _ => [',', '.']
  | emptyTape => []

/-- Some instruction at `k` can cause the error, or `k` is behind the last instruction and the line
break there was refused. -/
def RunError.StandsAt (e : RunError) (is : List Instruction) (k : ℕ) : Prop :=
  (∃ i, is[k]? = some i ∧ i.toChar ∈ e.culprits) ∨ k = is.length ∧ ∃ message, e = .io k message

/-- A text that is no program has a bracket of the right kind at the position of its error. -/
theorem Fault.standsAt {is : List Instruction} {e : ParseError} (h : Fault is e) :
    (RunError.parse e).StandsAt is e.ip := by
  refine .inl ?_
  cases h with
  | @closing before after his hbefore =>
    refine ⟨.loopEnd, ?_, List.mem_singleton.2 rfl⟩
    rw [his, ParseError.ip, List.getElem?_append_right le_rfl, Nat.sub_self]
    rfl
  | unclosed opened => exact ⟨.loopStart, opened.getElem? List.mem_cons_self, List.mem_singleton.2 rfl⟩
  | opening opened => exact ⟨.loopStart, opened.getElem? List.mem_cons_self, List.mem_singleton.2 rfl⟩

/-- The error of an instruction, or of the line break, stands there. -/
theorem RunError.Describes.standsAt {text : String} {p : Program} {t : Tape} {e : RunError} {k : ℕ}
    (h : e.Describes p t) (parsed : Program.Parsed text p) (position : e.ip? = some k) :
    e.StandsAt (instructionsOf text) k := by
  unfold StandsAt
  rw [← parsed.get?_eq, ← parsed.size_eq]
  cases h with
  | pointerUnderflow hi _ | pointerOverflow hi _ | valueOverflow hi _ | valueUnderflow hi _
  | input hi =>
    cases position
    exact .inl ⟨_, hi, List.mem_singleton.2 rfl⟩
  | io hi =>
    cases position
    rcases hi with hi | hi <;> exact .inl ⟨_, hi, by simp [culprits, Instruction.toChar]⟩
  | lineBreak =>
    cases position
    exact .inr ⟨rfl, _, rfl⟩

/-- The error of a run is about the text if and only if the text is no program, and it stands at its
position. -/
theorem Interpreter.standsAt_of_execute {text : String} {size fuel k : ℕ} {traced : Bool}
    {sink : Sink} {source : Source} {o : Outcome} {e : RunError}
    (ended : (ofText text size).execute traced sink source fuel = some o)
    (failed : o.result = .error e) (position : e.ip? = some k) :
    (e.isStructural = true ↔ ∃ e', Program.parse text = .error e') ∧
      e.StandsAt (instructionsOf text) k := by
  refine ⟨isStructural_iff_of_execute rfl ended failed, ?_⟩
  rcases error_of_execute rfl ended failed with ⟨e', hparse, rfl⟩ | ⟨p, hparse, rfl | ⟨t, describes⟩⟩
  · cases position
    exact (Program.fault_of_parse hparse).standsAt
  · cases position
  · exact describes.standsAt (Program.parsed_of_parse hparse) position

/-! ## Reports -/

theorem Report.ofError_of_ip? {e : RunError} {k : ℕ} (position : e.ip? = some k)
    (program : Option String) (code : String) :
    ofError program false code e =
      program.elim "" (· ++ ": ") ++ label e ++ ": " ++ e.description ++ " at instruction " ++
        k.repr ++ "\n" ++ ("  " ++ String.ofList (window (filterText code).toList k)) ++ "\n" ++
        ("  " ++ String.ofList (caretLine k)) ++ "\n" := by
  rw [ofError, position]
  cases program <;>
    simp only [withContext_eq, headline, styled, Bool.false_eq_true, ↓reduceIte, Option.elim_none,
      Option.elim_some, String.empty_append, String.append_assoc]

/-- The report of a run's error with a position has three lines: a headline with this position, the
instructions up to 32 places from it, and a caret.  Over the caret is the instruction at the
position, which can cause the error, or else the caret stands behind the last instruction, where
the final line break was refused. -/
theorem report_points_at_error {text : String} {size fuel k : ℕ} {traced : Bool} {sink : Sink}
    {source : Source} {o : Outcome} {e : RunError}
    (ended : (Interpreter.ofText text size).execute traced sink source fuel = some o)
    (failed : o.result = .error e) (position : e.ip? = some k) (program : Option String) :
    let is := instructionsOf text
    ∃ (label shown caret : String) (column : ℕ),
      Report.ofError program false text e =
        program.elim "" (· ++ ": ") ++ label ++ ": " ++ e.description ++ " at instruction " ++
          k.repr ++ "\n" ++ shown ++ "\n" ++ caret ++ "\n" ∧
      (label = "Parse error" ∨ label = "Runtime error") ∧
      (label = "Parse error" ↔ ∃ e', Program.parse text = .error e') ∧
      shown = "  " ++ Instruction.textOf (is.extract (k - 32) (min is.length (k + 33))) ∧
      caret = String.ofList (List.replicate column ' ' ++ ['^']) ∧
      column = 2 + (k - (k - 32)) ∧
      k ≤ is.length ∧
      (k < is.length → ∃ i, is[k]? = some i ∧ i.toChar ∈ e.culprits ∧
        shown.toList[column]? = some i.toChar) ∧
      (k = is.length → column = shown.length ∧ ∃ message, e = .io k message) := by
  intro is
  obtain ⟨structural, stands⟩ := Interpreter.standsAt_of_execute ended failed position
  have htext : (filterText text).toList = is.map Instruction.toChar := by
    rw [filterText_eq_textOf, Instruction.textOf, String.toList_ofList]
  have hlength : (filterText text).toList.length = is.length := by rw [htext, List.length_map]
  have hmargin : "  " = String.ofList (List.replicate 2 ' ') := by decide
  refine ⟨Report.label e, _, _, 2 + Report.caretColumn k, Report.ofError_of_ip? position program text,
    Report.label_eq_or e, (Report.label_eq_parse_iff e).trans structural, ?_, ?_, rfl, ?_, ?_, ?_⟩
  · rw [Report.window_eq_extract, hlength, htext, Instruction.textOf, List.extract_eq_take_drop,
      List.extract_eq_take_drop, List.map_take, List.map_drop]
    rfl
  · rw [Report.caretLine_eq, hmargin, ← String.ofList_append, List.replicate_add, List.append_assoc]
  · rcases stands with ⟨i, hi, -⟩ | ⟨hk, -⟩
    · exact (List.getElem?_eq_some_iff.1 hi).1.le
    · exact hk.le
  · intro hlt
    rcases stands with ⟨i, hi, hculprit⟩ | ⟨hk, -⟩
    · refine ⟨i, hi, hculprit, ?_⟩
      have hchar := Report.getElem?_window (filterText text).toList k
      rw [htext, List.getElem?_map, hi] at hchar
      rw [htext, hmargin, ← String.ofList_append, String.toList_ofList,
        List.getElem?_append_right (by simp), List.length_replicate, Nat.add_sub_cancel_left]
      exact hchar
    · exact absurd hk hlt.ne
  · intro hk
    rcases stands with ⟨i, hi, -⟩ | ⟨-, refused⟩
    · exact absurd hk (List.getElem?_eq_some_iff.1 hi).1.ne
    · refine ⟨?_, refused⟩
      rw [hk, ← hlength, ← Report.length_window_length, hmargin, ← String.ofList_append,
        String.length_ofList, List.length_append, List.length_replicate]

/-- The bracket is too far from the start for the whole text to be shown. -/
theorem report_points_at_bracket_behind_clip :
    let text := String.ofList (List.replicate 40 '+' ++ [']'])
    ∃ o : Outcome, (Interpreter.ofText text 1).execute false .working (.queue []) 0 = some o ∧
      o.result = .error (.parse (.unmatched .closing 40)) ∧
      Report.ofError (some "bf") false text (.parse (.unmatched .closing 40)) =
        "bf: Parse error: unmatched bracket ']' at instruction 40\n" ++
        "  ++++++++++++++++++++++++++++++++]\n" ++
        "                                  ^\n" ∧
      ("  ++++++++++++++++++++++++++++++++]".toList)[34]? = some ']' := by
  intro text
  have his : instructionsOf text = List.replicate 40 .increment ++ [.loopEnd] := by decide +kernel
  have hparse : Program.parse text = .error (.unmatched .closing 40) := by decide +kernel
  have ended : (Interpreter.ofText text 1).execute false .working (.queue []) 0 =
      some ⟨.error (.parse (.unmatched .closing 40)), .ofText text 1, .queue [], #[]⟩ := by
    rw [Interpreter.execute, show (Interpreter.ofText text 1).load = _ from hparse]
  obtain ⟨label, shown, caret, column, report, -, structural, hshown, hcaret, hcolumn, -, inside, -⟩ :=
    report_points_at_error ended rfl rfl (some "bf")
  obtain rfl : label = "Parse error" := structural.2 ⟨_, hparse⟩
  rw [his] at hshown inside
  obtain rfl : shown = "  ++++++++++++++++++++++++++++++++]" := hshown.trans (by decide +kernel)
  obtain ⟨i, hi, -, hchar⟩ := inside (by decide)
  obtain rfl : i = .loopEnd := Option.some.inj (hi.symm.trans (by decide))
  rw [hcolumn] at hchar
  refine ⟨_, ended, rfl, ?_, hchar⟩
  rw [report, hcaret, hcolumn]
  decide +kernel

end Brainfuck
