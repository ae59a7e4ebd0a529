/-!
# Splitting

A text is split at every occurrence of a separator, so that it has one part more than it has
separators.
-/

namespace Brainfuck.Text

/-- The parts of a text with one character more in front. -/
def consPart (separator c : Char) (parts : List (List Char)) : List (List Char) :=
  if c = separator then
    [] :: parts
  else
    match parts with
    | [] => [[c]]
    | part :: rest => (c :: part) :: rest

/-- The parts of a text between the occurrences of a separator. -/
def split (separator : Char) (cs : List Char) : List (List Char) :=
  cs.foldr (consPart separator) [[]]

@[simp] theorem split_cons (separator c : Char) (cs : List Char) :
    split separator (c :: cs) = consPart separator c (split separator cs) := rfl

/-- A text without separators is one part. -/
theorem split_of_notMem {separator : Char} {cs : List Char} (h : separator ∉ cs) :
    split separator cs = [cs] := by
  induction cs with
  | nil => rfl
  | cons c cs ih =>
    obtain ⟨hne, hcs⟩ := not_or.1 (mt List.mem_cons.2 h)
    rw [split_cons, ih hcs, consPart, if_neg (Ne.symm hne)]

theorem split_append_cons {separator : Char} {cs : List Char} (h : separator ∉ cs)
    (rest : List Char) : split separator (cs ++ separator :: rest) = cs :: split separator rest := by
  induction cs with
  | nil => exact if_pos rfl
  | cons c cs ih =>
    obtain ⟨hne, hcs⟩ := not_or.1 (mt List.mem_cons.2 h)
    rw [List.cons_append, split_cons, ih hcs, consPart, if_neg (Ne.symm hne)]

/-- What stands in front of the first separator, and the rest from there on. -/
theorem span_append_cons {separator : Char} {cs : List Char} (h : separator ∉ cs)
    (rest : List Char) : (cs ++ separator :: rest).takeWhile (· ≠ separator) = cs ∧
      (cs ++ separator :: rest).dropWhile (· ≠ separator) = separator :: rest := by
  have hall : ∀ c ∈ cs, decide (c ≠ separator) = true :=
    fun c hc => decide_eq_true fun heq => h (heq ▸ hc)
  rw [List.takeWhile_append_of_pos hall, List.dropWhile_append_of_pos hall]
  simp

/-- The first separator of a text is in one place. -/
theorem append_cons_inj {separator : Char} {cs cs' rest rest' : List Char} (h : separator ∉ cs)
    (h' : separator ∉ cs') (heq : cs ++ separator :: rest = cs' ++ separator :: rest') :
    cs = cs' ∧ rest = rest' := by
  obtain ⟨htake, hdrop⟩ := span_append_cons h rest
  obtain ⟨htake', hdrop'⟩ := span_append_cons h' rest'
  rw [heq] at htake hdrop
  exact ⟨htake.symm.trans htake', List.tail_eq_of_cons_eq (hdrop.symm.trans hdrop')⟩

end Brainfuck.Text
