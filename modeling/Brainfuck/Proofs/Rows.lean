import Brainfuck.Trace
import Mathlib.Data.Nat.Notation

/-!
# Rows of the trace

A row of the trace can be read back from its text (`Trace.Shown.read?`).  A column is the digits of
a number and blanks up to the bar, so that its end is found without knowing its width, and a number
that is wider does no harm.  The action is all that comes behind the last column, with bars of its
own or not.  Hence a text is that of one row at most: `Trace.text_determines_row`.
-/

namespace Brainfuck.Trace

variable {width n : ℕ} {cs : List Char}

/-! ## Columns -/

/-- The number `n` in a column: all its digits, and behind them blanks up to the width. -/
structure IsColumn (width n : ℕ) (cs : List Char) : Prop where
  digits : ∃ blanks, cs = n.repr.toList ++ List.replicate blanks ' '
  length : cs.length = max width n.repr.length

/-- What stands behind a column. -/
def bar : List Char := [' ', '|', ' ']

/-- Reads the digits of a number and the blanks behind them, and gives what comes behind the bar. -/
def readColumn? (cs : List Char) : Option (ℕ × List Char) :=
  match (cs.dropWhile Char.isDigit).dropWhile (· = ' ') with
  | '|' :: ' ' :: rest => some (Nat.ofDigitChars 10 (cs.takeWhile Char.isDigit) 0, rest)
  | _ => none

theorem isColumn_padRight (width n : ℕ) : IsColumn width n (Text.padRight width n.repr).toList where
  digits := by
    refine ⟨width - n.repr.length, ?_⟩
    rw [Text.padRight, String.toList_append, String.toList_ofList]
  length := by
    rw [Text.padRight, String.length_toList, String.length_append, String.length_ofList,
      List.length_replicate]
    omega

theorem isDigit_of_mem_repr {c : Char} (h : c ∈ n.repr.toList) : c.isDigit = true := by
  rw [Nat.toList_repr] at h
  exact Nat.isDigit_of_mem_toDigits (by decide) (by decide) h

theorem readColumn?_append (h : IsColumn width n cs) (rest : List Char) :
    readColumn? (cs ++ (bar ++ rest)) = some (n, rest) := by
  obtain ⟨blanks, rfl⟩ := h.digits
  -- With the blank of the bar there is always one behind the digits.
  have hblanks : List.replicate blanks ' ' ++ (bar ++ rest) =
      ' ' :: (List.replicate blanks ' ' ++ '|' :: ' ' :: rest) := by
    rw [← List.cons_append, ← List.replicate_succ, List.replicate_succ', List.append_assoc]
    rfl
  have hdropped : (' ' :: (List.replicate blanks ' ' ++ '|' :: ' ' :: rest)).dropWhile (· = ' ') =
      '|' :: ' ' :: rest := by
    rw [← List.cons_append, ← List.replicate_succ,
      List.dropWhile_append_of_pos fun c hc => decide_eq_true (List.eq_of_mem_replicate hc)]
    rfl
  have hdigits : ∀ c ∈ n.repr.toList, c.isDigit = true := fun c => isDigit_of_mem_repr
  have hnumber : Nat.ofDigitChars 10 n.repr.toList 0 = n := by
    rw [Nat.toList_repr, Nat.ofDigitChars_toDigits (by decide) (by decide)]
  rw [List.append_assoc, hblanks, readColumn?, List.dropWhile_append_of_pos hdigits,
    List.takeWhile_append_of_pos hdigits, List.dropWhile_cons_of_neg (by decide),
    List.takeWhile_cons_of_neg (by decide), hdropped, List.append_nil, hnumber]
  rfl

/-! ## Rows -/

/-- What a row shows, with any text for the action. -/
structure Shown where
  step : ℕ
  ip : ℕ
  pointer : ℕ
  cell : ℕ
  instruction : Instruction
  action : String
  deriving DecidableEq

namespace Shown

/-- The text of a row in the layout of the table. -/
def text (r : Shown) : String := rowText r.step r.ip r.pointer r.cell r.instruction r.action

/-- The layout of a row: four columns of numbers, the instruction and the action. -/
inductive IsRow (r : Shown) : List Char → Prop
  | intro {step ip pointer cell : List Char} :
    IsColumn 4 r.step step → IsColumn 3 r.ip ip → IsColumn 3 r.pointer pointer →
    IsColumn 7 r.cell cell →
    IsRow r (step ++ (bar ++ (ip ++ (bar ++ (pointer ++ (bar ++ (cell ++ (bar ++
      (' ' :: r.instruction.toChar :: ' ' :: ' ' :: ' ' :: (bar ++ r.action.toList))))))))))

/-- Reads a row. -/
def read? (text : String) : Option Shown := do
  let (step, cs) ← readColumn? text.toList
  let (ip, cs) ← readColumn? cs
  let (pointer, cs) ← readColumn? cs
  let (cell, cs) ← readColumn? cs
  match cs with
  | ' ' :: c :: ' ' :: ' ' :: ' ' :: ' ' :: '|' :: ' ' :: action =>
    let instruction ← Instruction.ofChar? c
    return ⟨step, ip, pointer, cell, instruction, String.ofList action⟩
  | _ => none

theorem isRow_text (r : Shown) : r.IsRow r.text.toList := by
  rw [text, rowText]
  simp only [String.toList_append, String.toList_ofList, List.append_assoc]
  exact .intro (isColumn_padRight 4 r.step) (isColumn_padRight 3 r.ip)
    (isColumn_padRight 3 r.pointer) (isColumn_padRight 7 r.cell)

theorem read?_of_isRow {r : Shown} {text : String} (h : r.IsRow text.toList) :
    read? text = some r := by
  generalize hcs : text.toList = cs at h
  obtain ⟨hstep, hip, hpointer, hcell⟩ := h
  rw [read?, hcs, readColumn?_append hstep]
  simp only [Option.bind_eq_bind, Option.bind_some, readColumn?_append hip,
    readColumn?_append hpointer, readColumn?_append hcell]
  simp [bar]

end Shown

/-- A row is laid out in columns, can be read back, and has its text with no other row in common. -/
theorem text_determines_row (r : Shown) :
    r.IsRow r.text.toList ∧ Shown.read? r.text = some r ∧
      ∀ r' : Shown, r.text = r'.text ↔ r = r' := by
  have read (r : Shown) : Shown.read? r.text = some r := Shown.read?_of_isRow r.isRow_text
  refine ⟨r.isRow_text, read r, fun r' => ⟨fun h => ?_, fun h => h ▸ rfl⟩⟩
  rw [← Option.some.injEq, ← read r, ← read r', h]

example : Shown.read? (Line.row ⟨12345, 7, 0, 124, .write, .output '|' 124⟩).text =
    some ⟨12345, 7, 0, 124, .write, "Output '|' (U+007C)"⟩ := by
  decide +kernel

end Brainfuck.Trace
