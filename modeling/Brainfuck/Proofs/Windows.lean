import Brainfuck.Report
import Mathlib.Data.Nat.Notation

/-!
# Windows

The window of a report is sliced in bytes, and consists of the characters around a position
(`Report.window?_eq`), none of them in part.  It is the part of a text from the first to the last
place that are near enough (`Report.window_eq_extract`), and the character over the caret is the one
at the position (`Report.getElem?_window`).
-/

namespace Brainfuck

namespace Report

/-- The characters around a position. -/
def window (cs : List Char) (position : ℕ) : List Char :=
  (cs.take (position + windowRadius + 1)).drop (position - windowRadius)

/-- The slice in bytes is that of the characters around the position. -/
theorem window?_eq (code : String) (position : ℕ) :
    window? code position = some (String.ofList (window code.toList position)) := by
  have hmin : code.toList.take (min (position + windowRadius + 1) code.toList.length) =
      code.toList.take (position + windowRadius + 1) := by
    rw [List.take_eq_take_iff]
    omega
  rw [window?, Text.slice?_byteIndex (by rw [← String.length_toList]; omega), hmin, window]

theorem withContext_eq (headline code : String) (position : ℕ) :
    withContext headline code position =
      headline ++ " at instruction " ++ position.repr ++ "\n" ++
        "  " ++ String.ofList (window code.toList position) ++ "\n" ++
        "  " ++ String.ofList (caretLine position) ++ "\n" := by
  rw [withContext, window?_eq, Option.getD_some]

/-- The column of the caret under a window. -/
def caretColumn (position : ℕ) : ℕ := position - (position - windowRadius)

theorem caretLine_eq (position : ℕ) :
    caretLine position = List.replicate (caretColumn position) ' ' ++ ['^'] := rfl

/-- The window is the part of a text from its first to its last position, as far as there are any. -/
theorem window_eq_extract (cs : List Char) (position : ℕ) :
    window cs position =
      cs.extract (position - windowRadius) (min cs.length (position + windowRadius + 1)) := by
  rw [window, List.drop_take, List.extract_eq_take_drop, List.take_eq_take_iff, List.length_drop]
  omega

/-- The character over the caret is the one at the position. -/
theorem getElem?_window (cs : List Char) (position : ℕ) :
    (window cs position)[caretColumn position]? = cs[position]? := by
  have hposition : position - windowRadius + caretColumn position = position := by
    unfold caretColumn
    omega
  rw [window, List.getElem?_drop, hposition, List.getElem?_take_of_lt (by omega)]

/-- At the end of a text the caret stands behind the window. -/
theorem length_window_length (cs : List Char) :
    (window cs cs.length).length = caretColumn cs.length := by
  rw [window, List.length_drop, List.length_take, caretColumn]
  omega

theorem caretColumn_eq (position : ℕ) : caretColumn position = min position 32 := by
  unfold caretColumn windowRadius
  omega

/-- A window is sliced without being refused, and has exactly the characters up to 32 places from the
position.  The caret stands under the character at the position, and a report has the two lines under
its headline. -/
theorem window_exact (code : String) (position : ℕ) :
    ∃ shown, window? code position = some shown ∧
      shown.toList = code.toList.extract (position - 32) (min (position + 33) code.length) ∧
      shown.length ≤ 65 ∧
      caretLine position = List.replicate (min position 32) ' ' ++ ['^'] ∧
      shown.toList[min position 32]? = code.toList[position]? ∧
      ∀ headline, withContext headline code position =
        headline ++ " at instruction " ++ position.repr ++ "\n" ++ "  " ++ shown ++ "\n" ++
          "  " ++ String.ofList (caretLine position) ++ "\n" := by
  have hextract := window_eq_extract code.toList position
  rw [String.length_toList, Nat.min_comm] at hextract
  refine ⟨String.ofList (window code.toList position), window?_eq code position, ?_, ?_, ?_, ?_,
    fun headline => withContext_eq headline code position⟩
  · rw [String.toList_ofList, hextract]
    rfl
  · rw [String.length_ofList, window, List.length_drop, List.length_take]
    unfold windowRadius
    omega
  · rw [caretLine_eq, caretColumn_eq]
  · rw [String.toList_ofList, ← caretColumn_eq, getElem?_window]

end Report

end Brainfuck
