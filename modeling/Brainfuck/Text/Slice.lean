/-!
# Slices

A text is sliced between two offsets in bytes.  A slice is refused unless both offsets lie between
characters and come in order; between the offsets of characters it is not (`slice?_byteIndex`).
-/

namespace Brainfuck.Text

/-- The offset in bytes of the character at an index, or of the end of a text that is too short. -/
def byteIndex : List Char → (index : Nat) → Nat
  | c :: cs, index + 1 => c.utf8Size + byteIndex cs index
  | _, _ => 0

/-- The part of a text between two offsets, if they are in order and between characters. -/
def slice? (text : String) (start stop : Nat) : Option String := do
  let start ← text.pos? ⟨start⟩
  let stop ← text.pos? ⟨stop⟩
  let slice ← text.slice? start stop
  some slice.copy

theorem byteIndex_eq (cs : List Char) (i : Nat) :
    byteIndex cs i = (String.ofList (cs.take i)).utf8ByteSize := by
  induction cs generalizing i with
  | nil => rw [List.take_nil]; cases i <;> rfl
  | cons c cs ih =>
    cases i with
    | zero => rfl
    | succ i =>
      rw [List.take_succ_cons, String.ofList_cons, String.utf8ByteSize_append,
        String.utf8ByteSize_singleton, ← ih]
      rfl

/-- The offset of a character is a position in the text, with the characters before it on its
left. -/
theorem exists_pos?_byteIndex (text : String) (i : Nat) :
    ∃ p, text.pos? ⟨byteIndex text.toList i⟩ = some p ∧
      p.Splits (String.ofList (text.toList.take i)) (String.ofList (text.toList.drop i)) := by
  have hvalid : (⟨byteIndex text.toList i⟩ : String.Pos.Raw).IsValid text :=
    String.Pos.Raw.isValid_iff_exists_take_toList.2 ⟨i, byteIndex_eq _ _⟩
  refine ⟨text.pos _ hvalid, ?_, ?_, ?_⟩
  · rw [String.pos?, String.Slice.pos?,
      dif_pos (String.Pos.Raw.isValidForSlice_eq_true_iff.2 hvalid.toSlice)]
    rfl
  · rw [← String.ofList_append, List.take_append_drop, String.ofList_toList]
  · rw [String.offset_pos, byteIndex_eq]
    rfl

/-- Between the offsets of two characters a slice has the characters from the first on and before
the second, and is not refused. -/
theorem slice?_byteIndex {text : String} {i j : Nat} (h : min i text.length ≤ j) :
    slice? text (byteIndex text.toList i) (byteIndex text.toList j) =
      some (String.ofList ((text.toList.take j).drop i)) := by
  rw [← String.length_toList] at h
  obtain ⟨p, hp, psplits⟩ := exists_pos?_byteIndex text i
  obtain ⟨q, hq, qsplits⟩ := exists_pos?_byteIndex text j
  generalize text.toList = cs at *
  have hleft : cs.take j = cs.take i ++ (cs.take j).drop i := by
    have htake : (cs.take j).take i = cs.take i := by
      rw [List.take_take, List.take_eq_take_iff]
      omega
    rw [← htake, List.take_append_drop]
  have hright : cs.drop i = (cs.take j).drop i ++ cs.drop j := by
    refine List.append_cancel_left (?_ : cs.take i ++ _ = cs.take i ++ _)
    rw [List.take_append_drop, ← List.append_assoc, ← hleft, List.take_append_drop]
  rw [hright, String.ofList_append] at psplits
  rw [hleft, String.ofList_append] at qsplits
  obtain ⟨le, hcopy⟩ := String.copy_slice_eq_iff_splits.2 ⟨_, _, psplits, qsplits⟩
  simp only [slice?, hp, hq, String.slice?, dif_pos le, Option.bind_eq_bind, Option.bind_some, hcopy]

example : slice? "é+" 0 2 = some "é" ∧ slice? "é+" 1 2 = none ∧ slice? "é+" 2 0 = none := by
  decide +kernel

end Brainfuck.Text
