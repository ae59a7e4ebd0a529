import Brainfuck.Instruction
import Mathlib.Algebra.Order.Group.Int
import Mathlib.Data.List.Basic
import Mathlib.Data.Set.Insert
import Mathlib.Order.Bounds.Defs

/-!
# Nesting

The grammar of balanced sequences (`Balanced`), the excess of opening over closing brackets
(`excess`), and the two brackets of a loop (`Partners`).  The height of a sequence at an index is
the excess of what stands before it.  It is higher everywhere inside a loop than in front of it,
which is why a bracket has at most one partner (`Partners.right_unique`, `Partners.left_unique`) and
loops never cross (`Partners.nested_or_disjoint`).

`Opened is stack` describes a sequence of which some loops are not closed yet: between two of their
brackets everything is balanced, and `stack` holds these brackets, innermost first.
-/

namespace Brainfuck

/-! ## Lists around an element -/

section Split

variable {α : Type} (before : List α) (a : α) (after : List α) (k : ℕ)

theorem take_split : (before ++ a :: after).take (before.length + k + 1) =
    before ++ a :: after.take k := by
  rw [List.take_append, List.take_of_length_le (by omega), Nat.add_assoc, Nat.add_sub_cancel_left,
    List.take_succ_cons]

theorem getElem?_split : (before ++ a :: after)[before.length + k + 1]? = after[k]? := by
  rw [List.getElem?_append_right (by omega), Nat.add_assoc, Nat.add_sub_cancel_left,
    List.getElem?_cons_succ]

variable {before a after}

/-- An element stands before, at or behind a given one. -/
theorem getElem?_split_cases {i : ℕ} {x : α} (h : (before ++ a :: after)[i]? = some x) :
    before[i]? = some x ∨ i = before.length ∨
      ∃ k, i = before.length + k + 1 ∧ after[k]? = some x := by
  rcases Nat.lt_trichotomy i before.length with hlt | heq | hgt
  · rw [List.getElem?_append_left hlt] at h
    exact .inl h
  · exact .inr (.inl heq)
  · obtain ⟨k, rfl⟩ := Nat.exists_eq_add_of_lt hgt
    rw [getElem?_split] at h
    exact .inr (.inr ⟨k, rfl, h⟩)

end Split

/-! ## Simple instructions -/

/-- The instructions that are no brackets. -/
inductive Simple where
  | right
  | left
  | increment
  | decrement
  | read
  | write
  deriving DecidableEq

/-- A simple instruction as an instruction. -/
def Simple.toInstruction : Simple → Instruction
  | right => .right
  | left => .left
  | increment => .increment
  | decrement => .decrement
  | read => .read
  | write => .write

instance : Coe Simple Instruction := ⟨Simple.toInstruction⟩

theorem Instruction.simple_or_bracket (i : Instruction) :
    (∃ a : Simple, i = a) ∨ i = .loopStart ∨ i = .loopEnd := by
  cases i with
  | right => exact .inl ⟨.right, rfl⟩
  | left => exact .inl ⟨.left, rfl⟩
  | increment => exact .inl ⟨.increment, rfl⟩
  | decrement => exact .inl ⟨.decrement, rfl⟩
  | read => exact .inl ⟨.read, rfl⟩
  | write => exact .inl ⟨.write, rfl⟩
  | loopStart => exact .inr (.inl rfl)
  | loopEnd => exact .inr (.inr rfl)

@[simp] theorem Simple.toInstruction_ne_loopStart (a : Simple) :
    (a : Instruction) ≠ .loopStart := by
  cases a <;> exact nofun

@[simp] theorem Simple.toInstruction_ne_loopEnd (a : Simple) :
    (a : Instruction) ≠ .loopEnd := by
  cases a <;> exact nofun

theorem Simple.toInstruction_injective {a b : Simple} (h : (a : Instruction) = b) : a = b := by
  cases a <;> cases b <;> first | rfl | cases h

/-! ## The grammar -/

/-- The balanced sequences: nothing, a simple instruction before a balanced sequence, or a loop
around a balanced sequence before another one. -/
inductive Balanced : List Instruction → Prop where
  | empty : Balanced []
  | simple (a : Simple) {is : List Instruction} : Balanced is → Balanced (a :: is)
  | loop {body rest : List Instruction} : Balanced body → Balanced rest →
      Balanced (.loopStart :: (body ++ .loopEnd :: rest))

theorem Balanced.append {is js : List Instruction} (hi : Balanced is) (hj : Balanced js) :
    Balanced (is ++ js) := by
  induction hi with
  | empty => exact hj
  | simple a _ ih => exact .simple a ih
  | loop hbody _ _ ih =>
    rw [List.cons_append, List.append_assoc]
    exact .loop hbody ih

/-! ## Excess -/

/-- How many more opening than closing brackets a sequence has. -/
def excess (is : List Instruction) : ℤ :=
  (is.count .loopStart : ℤ) - is.count .loopEnd

@[simp] theorem excess_nil : excess [] = 0 := rfl

@[simp] theorem excess_append (is js : List Instruction) :
    excess (is ++ js) = excess is + excess js := by
  simp only [excess, List.count_append]
  omega

@[simp] theorem excess_simple (a : Simple) (is : List Instruction) :
    excess (a :: is) = excess is := by
  simp [excess]

@[simp] theorem excess_loopStart (is : List Instruction) :
    excess (.loopStart :: is) = excess is + 1 := by
  simp only [excess, List.count_cons_self, List.count_cons_of_ne (by decide :
    Instruction.loopStart ≠ .loopEnd)]
  omega

@[simp] theorem excess_loopEnd (is : List Instruction) :
    excess (.loopEnd :: is) = excess is - 1 := by
  simp only [excess, List.count_cons_self, List.count_cons_of_ne (by decide :
    Instruction.loopEnd ≠ .loopStart)]
  omega

theorem Balanced.excess_eq_zero {is : List Instruction} (h : Balanced is) : excess is = 0 := by
  induction h with
  | empty => rfl
  | simple a _ ih => rw [excess_simple, ih]
  | loop _ _ ihBody ihRest =>
    simp only [excess_loopStart, excess_append, excess_loopEnd, ihBody, ihRest]
    omega

/-- No prefix of a balanced sequence closes more than it opens. -/
theorem Balanced.excess_take_nonneg {is : List Instruction} (h : Balanced is) (n : ℕ) :
    0 ≤ excess (is.take n) := by
  induction h generalizing n with
  | empty => simp
  | simple a _ ih =>
    cases n with
    | zero => simp
    | succ n => simpa using ih n
  | @loop body rest hbody _ ihBody ihRest =>
    cases n with
    | zero => simp
    | succ n =>
      have hb := ihBody n
      rcases Nat.lt_or_ge body.length n with hn | hn
      · obtain ⟨k, rfl⟩ := Nat.exists_eq_add_of_lt hn
        have hr := ihRest k
        have hz := hbody.excess_eq_zero
        rw [List.take_succ_cons, take_split, excess_loopStart, excess_append, excess_loopEnd]
        omega
      · rw [List.take_succ_cons, List.take_append_of_le_length hn, excess_loopStart]
        omega

/-! ## Partners -/

/-- The brackets at `s` and `e` are those of one loop. -/
structure Partners (is : List Instruction) (s e : ℕ) : Prop where
  lt : s < e
  opening : is[s]? = some .loopStart
  closing : is[e]? = some .loopEnd
  balanced : Balanced ((is.take e).drop (s + 1))

/-- A loop in a sequence, whatever stands before and after it. -/
theorem partners_of_balanced (before : List Instruction) {body : List Instruction}
    (h : Balanced body) (after : List Instruction) :
    Partners (before ++ .loopStart :: (body ++ .loopEnd :: after)) before.length
      (before.length + 1 + body.length) where
  lt := by omega
  opening := by simp
  closing := by
    rw [Nat.add_right_comm, getElem?_split]
    simp
  balanced := by
    have split : before ++ .loopStart :: (body ++ .loopEnd :: after) =
        (before ++ [.loopStart]) ++ body ++ .loopEnd :: after := by simp
    rw [split, List.take_left' (by simp; omega), List.drop_left' (by simp)]
    exact h

namespace Partners

variable {is : List Instruction} {s e : ℕ}

theorem lt_length (h : Partners is s e) : e < is.length :=
  (List.getElem?_eq_some_iff.1 h.closing).1

/-- A sequence around one of its loops. -/
theorem exists_split (h : Partners is s e) :
    ∃ before body after, is = before ++ .loopStart :: (body ++ .loopEnd :: after) ∧
      before.length = s ∧ s + 1 + body.length = e ∧ Balanced body := by
  obtain ⟨hs, hopen⟩ := List.getElem?_eq_some_iff.1 h.opening
  obtain ⟨he, hclose⟩ := List.getElem?_eq_some_iff.1 h.closing
  have hlt := h.lt
  refine ⟨is.take s, (is.take e).drop (s + 1), is.drop (e + 1), ?_, by simp; omega, by simp; omega,
    h.balanced⟩
  rw [← hopen, ← hclose]
  calc is = is.take e ++ is.drop e := (List.take_append_drop e is).symm
    _ = (is.take e).take s ++ (is.take e).drop s ++ is.drop e := by
        rw [List.take_append_drop s (is.take e)]
    _ = _ := by
        rw [List.take_take, Nat.min_eq_left hlt.le, List.drop_eq_getElem_cons he,
          List.drop_eq_getElem_cons (i := s) (by simp; omega), List.getElem_take]
        simp

/-- Inside a loop the height exceeds that in front of it. -/
theorem excess_take_lt (h : Partners is s e) {n : ℕ} (hs : s < n) (he : n ≤ e) :
    excess (is.take s) < excess (is.take n) := by
  obtain ⟨before, body, after, rfl, rfl, rfl, hbody⟩ := h.exists_split
  obtain ⟨k, rfl⟩ := Nat.exists_eq_add_of_lt hs
  have hk := hbody.excess_take_nonneg k
  rw [List.take_left, take_split, List.take_append_of_le_length (by omega), excess_append,
    excess_loopStart]
  omega

/-- Behind a loop the height is that in front of it. -/
theorem excess_take_succ (h : Partners is s e) :
    excess (is.take (e + 1)) = excess (is.take s) := by
  obtain ⟨before, body, after, rfl, rfl, rfl, hbody⟩ := h.exists_split
  have split : before ++ .loopStart :: (body ++ .loopEnd :: after) =
      (before ++ .loopStart :: (body ++ [.loopEnd])) ++ after := by simp
  have hz := hbody.excess_eq_zero
  rw [List.take_left, split, List.take_left' (by simp; omega)]
  simp only [excess_append, excess_loopStart, excess_loopEnd, excess_nil]
  omega

theorem right_unique {e' : ℕ} (h : Partners is s e) (h' : Partners is s e') : e = e' := by
  by_contra hne
  have hlt := h.lt
  have hlt' := h'.lt
  rcases Nat.lt_or_gt_of_ne hne with hee | hee
  · have := h'.excess_take_lt (n := e + 1) (by omega) hee
    have := h.excess_take_succ
    omega
  · have := h.excess_take_lt (n := e' + 1) (by omega) hee
    have := h'.excess_take_succ
    omega

theorem left_unique {s' : ℕ} (h : Partners is s e) (h' : Partners is s' e) : s = s' := by
  by_contra hne
  have hend := h.excess_take_succ
  have hend' := h'.excess_take_succ
  rcases Nat.lt_or_gt_of_ne hne with hss | hss
  · have := h.excess_take_lt hss h'.lt.le
    omega
  · have := h'.excess_take_lt hss h.lt.le
    omega

/-- A loop that starts behind the start of another one ends before its end or starts after it. -/
theorem nested_or_after {s' e' : ℕ} (h : Partners is s e) (h' : Partners is s' e') (hss : s < s') :
    e' < e ∨ e < s' := by
  by_contra hcross
  have hend := h.excess_take_succ
  have hne : e ≠ e' := fun hee => hss.ne (h.left_unique (hee ▸ h'))
  have := h.excess_take_lt hss (by omega)
  have := h'.excess_take_lt (n := e + 1) (by omega) (by omega)
  omega

/-- Two loops are the same, nested or disjoint. -/
theorem nested_or_disjoint {s' e' : ℕ} (h : Partners is s e) (h' : Partners is s' e') :
    (s = s' ∧ e = e') ∨ (s < s' ∧ e' < e) ∨ (s' < s ∧ e < e') ∨ e < s' ∨ e' < s := by
  rcases Nat.lt_trichotomy s s' with hss | rfl | hss
  · rcases h.nested_or_after h' hss with hn | hn
    · exact .inr (.inl ⟨hss, hn⟩)
    · exact .inr (.inr (.inr (.inl hn)))
  · exact .inl ⟨rfl, h.right_unique h'⟩
  · rcases h'.nested_or_after h hss with hn | hn
    · exact .inr (.inr (.inl ⟨hss, hn⟩))
    · exact .inr (.inr (.inr (.inr hn)))

theorem append_right (h : Partners is s e) (js : List Instruction) : Partners (is ++ js) s e where
  lt := h.lt
  opening := by rw [List.getElem?_append_left (h.lt.trans h.lt_length), h.opening]
  closing := by rw [List.getElem?_append_left h.lt_length, h.closing]
  balanced := by rw [List.take_append_of_le_length h.lt_length.le]; exact h.balanced

theorem of_append (js : List Instruction) (h : Partners (is ++ js) s e) (he : e < is.length) :
    Partners is s e where
  lt := h.lt
  opening := by rw [← List.getElem?_append_left (h.lt.trans he), h.opening]
  closing := by rw [← List.getElem?_append_left he, h.closing]
  balanced := by
    have hbalanced := h.balanced
    rwa [List.take_append_of_le_length he.le] at hbalanced

theorem append_left (h : Partners is s e) (js : List Instruction) :
    Partners (js ++ is) (js.length + s) (js.length + e) := by
  obtain ⟨before, body, after, rfl, rfl, rfl, hbody⟩ := h.exists_split
  have := partners_of_balanced (js ++ before) hbody after
  simpa only [List.append_assoc, List.length_append, Nat.add_assoc] using this

theorem cons (h : Partners is s e) (i : Instruction) : Partners (i :: is) (s + 1) (e + 1) := by
  simpa [Nat.add_comm] using h.append_left [i]

end Partners

/-- The brackets at `i` and `j` belong to one loop, in either order. -/
def Paired (is : List Instruction) (i j : ℕ) : Prop := Partners is i j ∨ Partners is j i

namespace Paired

variable {is : List Instruction} {i j : ℕ}

theorem symm (h : Paired is i j) : Paired is j i := Or.symm h

theorem lt_length (h : Paired is i j) : i < is.length := by
  rcases h with h | h
  · exact h.lt.trans h.lt_length
  · exact h.lt_length

theorem append_right (h : Paired is i j) (js : List Instruction) : Paired (is ++ js) i j :=
  Or.imp (·.append_right js) (·.append_right js) h

theorem append_left (h : Paired is i j) (js : List Instruction) :
    Paired (js ++ is) (js.length + i) (js.length + j) :=
  Or.imp (·.append_left js) (·.append_left js) h

theorem cons (h : Paired is i j) (a : Instruction) : Paired (a :: is) (i + 1) (j + 1) :=
  Or.imp (·.cons a) (·.cons a) h

end Paired

/-- The opening brackets without a partner. -/
def unclosed (is : List Instruction) : Set ℕ :=
  {s | is[s]? = some .loopStart ∧ ∀ e, ¬ Partners is s e}

theorem Partners.append_singleton {is : List Instruction} {b : Instruction} {s e : ℕ}
    (h : Partners (is ++ [b]) s e) : Partners is s e ∨ (e = is.length ∧ b = .loopEnd) := by
  have he : e < is.length + 1 := by simpa using h.lt_length
  rcases Nat.lt_succ_iff_lt_or_eq.1 he with he | rfl
  · exact .inl (h.of_append [b] he)
  · exact .inr ⟨rfl, by simpa using h.closing⟩

/-- Only a closing bracket adds a pair. -/
theorem paired_append_of_ne {is : List Instruction} {b : Instruction} (hb : b ≠ .loopEnd)
    {i j : ℕ} : Paired (is ++ [b]) i j ↔ Paired is i j := by
  refine ⟨fun h => h.imp (fun h => ?_) (fun h => ?_), fun h => h.append_right [b]⟩
  · exact h.append_singleton.resolve_right fun h => hb h.2
  · exact h.append_singleton.resolve_right fun h => hb h.2

/-- A closing bracket adds one pair, in both directions. -/
theorem paired_append_loopEnd {is : List Instruction} {s : ℕ}
    (hs : Partners (is ++ [.loopEnd]) s is.length) {i j : ℕ} :
    Paired (is ++ [.loopEnd]) i j ↔
      Paired is i j ∨ (i = s ∧ j = is.length) ∨ (i = is.length ∧ j = s) := by
  constructor
  · rintro (h | h)
    · rcases h.append_singleton with hp | ⟨rfl, -⟩
      · exact .inl (.inl hp)
      · exact .inr (.inl ⟨h.left_unique hs, rfl⟩)
    · rcases h.append_singleton with hp | ⟨rfl, -⟩
      · exact .inl (.inr hp)
      · exact .inr (.inr ⟨rfl, h.left_unique hs⟩)
  · rintro (h | ⟨rfl, rfl⟩ | ⟨rfl, rfl⟩)
    · exact h.append_right _
    · exact .inl hs
    · exact .inr hs

/-- In a balanced sequence every bracket has a partner. -/
theorem Balanced.exists_paired {is : List Instruction} (h : Balanced is) {i : ℕ} {b : Instruction}
    (hb : b = .loopStart ∨ b = .loopEnd) (hi : is[i]? = some b) : ∃ j, Paired is i j := by
  induction h generalizing i with
  | empty => simp at hi
  | simple a _ ih =>
    cases i with
    | zero =>
      have ha : (a : Instruction) = b := by simpa using hi
      rcases hb with rfl | rfl
      · exact absurd ha a.toInstruction_ne_loopStart
      · exact absurd ha a.toInstruction_ne_loopEnd
    | succ i =>
      obtain ⟨j, hj⟩ := ih hi
      exact ⟨j + 1, hj.cons a⟩
  | @loop body rest hbody _ ihBody ihRest =>
    have outer := partners_of_balanced [] hbody rest
    cases i with
    | zero => exact ⟨_, .inl outer⟩
    | succ i =>
      rw [List.getElem?_cons_succ] at hi
      rcases getElem?_split_cases hi with hbefore | rfl | ⟨k, rfl, hafter⟩
      · obtain ⟨j, hj⟩ := ihBody hbefore
        exact ⟨j + 1, (hj.append_right _).cons _⟩
      · exact ⟨0, .inr (by simpa [Nat.add_comm] using outer)⟩
      · obtain ⟨j, hj⟩ := ihRest hafter
        exact ⟨_, ((hj.cons _).append_left _).cons _⟩

/-! ## Sequences with open loops -/

/-- The sequence `is` is balanced but for the loops that start at the brackets in `stack`, innermost
first, and are not closed yet. -/
inductive Opened : List Instruction → List ℕ → Prop where
  | balanced {is : List Instruction} : Balanced is → Opened is []
  | loopStart {is body : List Instruction} {stack : List ℕ} : Opened is stack → Balanced body →
      Opened (is ++ .loopStart :: body) (is.length :: stack)

namespace Opened

variable {is : List Instruction} {stack : List ℕ}

theorem append_balanced (h : Opened is stack) {js : List Instruction} (hj : Balanced js) :
    Opened (is ++ js) stack := by
  cases h with
  | balanced hi => exact .balanced (hi.append hj)
  | loopStart h hbody =>
    rw [List.append_assoc, List.cons_append]
    exact .loopStart h (hbody.append hj)

/-- A closing bracket closes the innermost loop. -/
theorem close {s : ℕ} (h : Opened is (s :: stack)) :
    Opened (is ++ [.loopEnd]) stack ∧ Partners (is ++ [.loopEnd]) s is.length := by
  cases h with
  | @loopStart before body _ h hbody =>
    rw [List.append_assoc, List.cons_append]
    refine ⟨h.append_balanced (.loop hbody .empty), ?_⟩
    simpa [Nat.add_assoc, Nat.add_comm 1] using partners_of_balanced before hbody []

theorem balanced_of_nil (h : Opened is []) : Balanced is := by
  cases h with
  | balanced h => exact h

theorem excess_eq_length (h : Opened is stack) : excess is = stack.length := by
  induction h with
  | balanced h => exact h.excess_eq_zero
  | loopStart _ hbody ih =>
    rw [excess_append, excess_loopStart, hbody.excess_eq_zero, ih, List.length_cons]
    omega

theorem excess_take_nonneg (h : Opened is stack) (n : ℕ) : 0 ≤ excess (is.take n) := by
  induction h generalizing n with
  | balanced h => exact h.excess_take_nonneg n
  | @loopStart before body stack h hbody ih =>
    rcases Nat.lt_or_ge before.length n with hn | hn
    · obtain ⟨k, rfl⟩ := Nat.exists_eq_add_of_lt hn
      have hk := hbody.excess_take_nonneg k
      have hb := h.excess_eq_length
      rw [take_split, excess_append, excess_loopStart]
      omega
    · rw [List.take_append_of_le_length hn]
      exact ih n

theorem lt_length (h : Opened is stack) {s : ℕ} (hs : s ∈ stack) : s < is.length := by
  induction h with
  | balanced => simp at hs
  | loopStart _ _ ih =>
    rw [List.length_append, List.length_cons]
    rcases List.mem_cons.1 hs with rfl | hs
    · omega
    · exact (ih hs).trans_le (by omega)

/-- The open brackets are listed from the last to the first. -/
theorem pairwise (h : Opened is stack) : stack.Pairwise (· > ·) := by
  induction h with
  | balanced => exact .nil
  | loopStart h _ ih => exact .cons (fun _ hs => h.lt_length hs) ih

theorem getElem? (h : Opened is stack) {s : ℕ} (hs : s ∈ stack) : is[s]? = some .loopStart := by
  induction h with
  | balanced => simp at hs
  | loopStart h _ ih =>
    rcases List.mem_cons.1 hs with rfl | hs
    · simp
    · rw [List.getElem?_append_left (h.lt_length hs), ih hs]

/-- The height stays above that in front of an open bracket. -/
theorem excess_take_lt (h : Opened is stack) {s n : ℕ} (hs : s ∈ stack) (hn : s < n) :
    excess (is.take s) < excess (is.take n) := by
  induction h generalizing n with
  | balanced => simp at hs
  | @loopStart before body stack h hbody ih =>
    rcases Nat.lt_or_ge before.length n with hlt | hge
    · obtain ⟨k, rfl⟩ := Nat.exists_eq_add_of_lt hlt
      have hk := hbody.excess_take_nonneg k
      rw [take_split, excess_append, excess_loopStart]
      rcases List.mem_cons.1 hs with rfl | hs
      · rw [List.take_left]
        omega
      · have hlast := ih hs (h.lt_length hs)
        rw [List.take_length] at hlast
        rw [List.take_append_of_le_length (h.lt_length hs).le]
        omega
    · rcases List.mem_cons.1 hs with rfl | hs
      · exact absurd hn (by omega)
      · rw [List.take_append_of_le_length (h.lt_length hs).le, List.take_append_of_le_length hge]
        exact ih hs hn

theorem not_paired (h : Opened is stack) {s j : ℕ} (hs : s ∈ stack) : ¬ Paired is s j := by
  rintro (hp | hp)
  · have := h.excess_take_lt hs (n := j + 1) (hp.lt.trans (by omega))
    have := hp.excess_take_succ
    omega
  · exact absurd ((h.getElem? hs).symm.trans hp.closing) (by decide)

/-- Every bracket has a partner or is open. -/
theorem exists_paired (h : Opened is stack) {i : ℕ} {b : Instruction}
    (hb : b = .loopStart ∨ b = .loopEnd) (hi : is[i]? = some b) :
    i ∈ stack ∨ ∃ j, Paired is i j := by
  induction h generalizing i with
  | balanced h => exact .inr (h.exists_paired hb hi)
  | @loopStart before body stack h hbody ih =>
    rcases getElem?_split_cases hi with hbefore | rfl | ⟨k, rfl, hafter⟩
    · refine (ih hbefore).imp (List.mem_cons_of_mem _) ?_
      rintro ⟨j, hj⟩
      exact ⟨j, hj.append_right _⟩
    · exact .inl List.mem_cons_self
    · obtain ⟨j, hj⟩ := hbody.exists_paired hb hafter
      exact .inr ⟨_, (hj.cons _).append_left _⟩

/-- The brackets on the stack are the opening brackets without a partner. -/
theorem mem_iff (h : Opened is stack) {s : ℕ} : s ∈ stack ↔ s ∈ unclosed is := by
  constructor
  · intro hs
    exact ⟨h.getElem? hs, fun e he => h.not_paired hs (.inl he)⟩
  · rintro ⟨hopen, hnone⟩
    refine (h.exists_paired (.inl rfl) hopen).resolve_right ?_
    rintro ⟨j, hj | hj⟩
    · exact hnone j hj
    · exact absurd (hopen.symm.trans hj.closing) (by decide)

theorem unclosed_eq_singleton {s : ℕ} (h : Opened is [s]) : unclosed is = {s} := by
  ext s'
  rw [← h.mem_iff]
  exact List.mem_singleton

theorem isGreatest_unclosed {s : ℕ} (h : Opened is (s :: stack)) : IsGreatest (unclosed is) s := by
  refine ⟨h.mem_iff.1 List.mem_cons_self, fun s' hs' => ?_⟩
  rcases List.mem_cons.1 (h.mem_iff.2 hs') with rfl | hmem
  · exact le_rfl
  · exact (List.rel_of_pairwise_cons h.pairwise hmem).le

end Opened

end Brainfuck
