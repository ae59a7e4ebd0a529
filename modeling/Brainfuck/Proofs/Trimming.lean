import Brainfuck.Text.Blank
import Mathlib.Data.List.DropRight

/-!
# Removal at both ends

A text with some characters removed at both ends is the part of it that neither begins nor ends with
one of them (`Text.Stripped`) and has nothing else around it (`Text.strip_append`, `Text.exists_strip`).
So more of these characters around a text make no difference (`Text.strip_surround`).
-/

namespace Brainfuck.Text

variable {test : Char → Bool} {cs inner front back : List Char}

/-- A text that neither begins nor ends with a character that satisfies the test. -/
structure Stripped (test : Char → Bool) (cs : List Char) : Prop where
  head : ∀ c, cs.head? = some c → test c = false
  last : ∀ c, cs.getLast? = some c → test c = false

theorem dropWhile_eq_self_of_head? (h : ∀ c, cs.head? = some c → test c = false) :
    cs.dropWhile test = cs := by
  cases cs with
  | nil => rfl
  | cons c cs => exact List.dropWhile_cons_of_neg (by simp [h c rfl])

theorem strip_append (hfront : ∀ c ∈ front, test c = true) (hback : ∀ c ∈ back, test c = true)
    (h : Stripped test inner) : strip test (front ++ inner ++ back) = inner := by
  rw [strip, List.append_assoc, List.dropWhile_append_of_pos hfront]
  cases inner with
  | nil =>
    rw [List.nil_append, List.dropWhile_eq_nil_iff.2 hback]
    rfl
  | cons c inner =>
    have hlead : (c :: inner ++ back).dropWhile test = c :: inner ++ back :=
      dropWhile_eq_self_of_head? (h.head · ·)
    have hlast : (c :: inner).reverse.dropWhile test = (c :: inner).reverse :=
      dropWhile_eq_self_of_head? fun d hd => h.last d (List.head?_reverse ▸ hd)
    rw [hlead, List.reverse_append,
      List.dropWhile_append_of_pos fun d hd => hback d (List.mem_reverse.1 hd), hlast,
      List.reverse_reverse]

theorem eq_false_of_head?_dropWhile {c : Char} (h : (cs.dropWhile test).head? = some c) :
    test c = false := by
  have hnot := List.head?_dropWhile_not test cs
  rw [h] at hnot
  exact hnot

/-- What is removed at both ends satisfies the test, and what is left does not begin or end so. -/
theorem exists_strip (test : Char → Bool) (cs : List Char) :
    ∃ front back, cs = front ++ strip test cs ++ back ∧ (∀ c ∈ front, test c = true) ∧
      (∀ c ∈ back, test c = true) ∧ Stripped test (strip test cs) := by
  have hstrip : strip test cs = ((cs.dropWhile test).reverse.dropWhile test).reverse := rfl
  have hrest : strip test cs ++ ((cs.dropWhile test).reverse.takeWhile test).reverse =
      cs.dropWhile test := by
    rw [hstrip, ← List.reverse_append, List.takeWhile_append_dropWhile, List.reverse_reverse]
  refine ⟨cs.takeWhile test, ((cs.dropWhile test).reverse.takeWhile test).reverse, ?_,
    fun c hc => List.mem_takeWhile_imp hc,
    fun c hc => List.mem_takeWhile_imp (List.mem_reverse.1 hc), fun c hc => ?_, fun c hc => ?_⟩
  · rw [List.append_assoc, hrest, List.takeWhile_append_dropWhile]
  · have hhead : (cs.dropWhile test).head? = some c := by rw [← hrest, List.head?_append, hc, Option.or]
    exact eq_false_of_head?_dropWhile hhead
  · rw [hstrip, List.getLast?_reverse] at hc
    exact eq_false_of_head?_dropWhile hc

theorem strip_surround (hfront : ∀ c ∈ front, test c = true) (hback : ∀ c ∈ back, test c = true)
    (cs : List Char) : strip test (front ++ cs ++ back) = strip test cs := by
  obtain ⟨front', back', hcs, hfront', hback', stripped⟩ := exists_strip test cs
  have hsplit : front ++ cs ++ back = front ++ front' ++ strip test cs ++ (back' ++ back) := by
    rw [congrArg (front ++ · ++ back) hcs]
    simp only [List.append_assoc]
  rw [hsplit]
  refine strip_append (fun c hc => ?_) (fun c hc => ?_) stripped
  · exact (List.mem_append.1 hc).elim (hfront c) (hfront' c)
  · exact (List.mem_append.1 hc).elim (hback' c) (hback c)

theorem Stripped.strip_eq (h : Stripped test cs) : strip test cs = cs := by
  have hnil : ∀ c ∈ ([] : List Char), test c = true := nofun
  simpa using strip_append hnil hnil h

/-- A text without characters that satisfy the test is left as it is. -/
theorem strip_eq_self (h : ∀ c ∈ cs, test c = false) : strip test cs = cs :=
  Stripped.strip_eq ⟨fun c hc => h c (List.mem_of_head? hc), fun c hc => h c (List.mem_of_getLast? hc)⟩

theorem mem_of_mem_strip {c : Char} (h : c ∈ strip test cs) : c ∈ cs := by
  obtain ⟨front, back, hcs, -⟩ := exists_strip test cs
  rw [hcs]
  exact List.mem_append_left _ (List.mem_append_right _ h)

@[simp] theorem strip_strip (test : Char → Bool) (cs : List Char) :
    strip test (strip test cs) = strip test cs := by
  obtain ⟨-, -, -, -, -, stripped⟩ := exists_strip test cs
  exact stripped.strip_eq

/-- Behind a character that is not removed at the front, what is removed at the end is removed from
the rest. -/
theorem exists_strip_append_cons {c : Char} (hc : test c = false)
    (hhead : ∀ d, front.head? = some d → test d = false) (tail : List Char) :
    ∃ rest, strip test (front ++ c :: tail) = front ++ c :: rest ∧
      strip test rest = strip test tail := by
  let back := (tail.reverse.takeWhile test).reverse
  let rest := (tail.reverse.dropWhile test).reverse
  have htail : tail = rest ++ back := by
    rw [← List.reverse_append, List.takeWhile_append_dropWhile, List.reverse_reverse]
  have hback : ∀ d ∈ back, test d = true :=
    fun d hd => List.mem_takeWhile_imp (List.mem_reverse.1 hd)
  have stripped : Stripped test (front ++ c :: rest) := by
    refine ⟨fun d hd => ?_, fun d hd => ?_⟩
    · cases front with
      | nil => exact Option.some.inj hd ▸ hc
      | cons d' front => exact hhead d hd
    · rw [List.getLast?_append_cons, List.getLast?_cons] at hd
      cases hlast : rest.getLast? with
      | none =>
        rw [hlast] at hd
        exact Option.some.inj hd ▸ hc
      | some d' =>
        rw [hlast] at hd
        obtain rfl : d' = d := Option.some.inj hd
        exact eq_false_of_head?_dropWhile (List.getLast?_reverse ▸ hlast)
  have hnil : ∀ d ∈ ([] : List Char), test d = true := nofun
  refine ⟨rest, ?_, ?_⟩
  · rw [htail, ← List.cons_append, ← List.append_assoc]
    exact strip_append hnil hback stripped
  · rw [htail]
    exact (strip_surround hnil hback rest).symm

end Brainfuck.Text
