import Brainfuck.Proofs.TapeBounds
import Brainfuck.Tape.Operation
import Mathlib.Data.Int.Order.Basic
import Mathlib.Logic.Function.Basic

/-!
# Ideal tapes

An ideal tape has a cell at every integer, with an integer in it, and refuses nothing.  A tape of `n`
cells is an ideal tape that is kept within bounds: an operation whose ideal effect breaks one of them
(`IdealTape.Breaks`) is refused with the fault that names this bound, and every other operation has
its ideal effect (`Tape.Follows`).  Over all sequences of operations this is `simulates_ideal`.
-/

namespace Brainfuck

open Tape (Operation Answer)

/-- A row of integers without ends and a pointer into it. -/
structure IdealTape where
  pointer : ℤ
  cell : ℤ → ℤ

namespace IdealTape

variable {n : ℕ} {i : IdealTape}

/-- All integers zero and the pointer at the origin. -/
def zeros : IdealTape := ⟨0, fun _ => 0⟩

/-- The value of the current cell. -/
def current (i : IdealTape) : ℤ := i.cell i.pointer

/-- The tape with its pointer somewhere else. -/
def moveTo (i : IdealTape) (pointer : ℤ) : IdealTape := ⟨pointer, i.cell⟩

/-- The tape with a value in the current cell. -/
def put (i : IdealTape) (v : ℤ) : IdealTape := ⟨i.pointer, Function.update i.cell i.pointer v⟩

@[simp] theorem current_put (v : ℤ) : (i.put v).current = v := Function.update_self ..

theorem put_current (i : IdealTape) : i.put i.current = i := by
  rw [put, current, Function.update_eq_self]

/-- The ideal effect of an operation. -/
def apply (i : IdealTape) : Operation → IdealTape
  | .moveRight => i.moveTo (i.pointer + 1)
  | .moveLeft => i.moveTo (i.pointer - 1)
  | .increment => i.put (i.current + 1)
  | .decrement => i.put (i.current - 1)
  | .set value => i.put value
  | .get => i
  | .reset => zeros

/-- The value that an operation reports, if it reports one. -/
def answer? (i : IdealTape) : Operation → Option ℤ
  | .increment => some (i.current + 1)
  | .decrement => some (i.current - 1)
  | .get => some i.current
  | .moveRight | .moveLeft | .set _ | .reset => none

/-- The pointer is at one of `n` cells, and the value there is one of a cell. -/
structure Within (n : ℕ) (i : IdealTape) : Prop where
  pointer_nonneg : 0 ≤ i.pointer
  pointer_lt : i.pointer < n
  current_nonneg : 0 ≤ i.current
  current_le : i.current ≤ cellMax

instance (n : ℕ) (i : IdealTape) : Decidable (i.Within n) :=
  decidable_of_iff
    ((0 ≤ i.pointer ∧ i.pointer < n) ∧ 0 ≤ i.current ∧ i.current ≤ cellMax)
    ⟨fun ⟨⟨h₁, h₂⟩, h₃, h₄⟩ => ⟨h₁, h₂, h₃, h₄⟩, fun ⟨h₁, h₂, h₃, h₄⟩ => ⟨⟨h₁, h₂⟩, h₃, h₄⟩⟩

/-- The bound of a tape of `n` cells that an ideal tape breaks, by the fault that names it. -/
inductive Breaks (n : ℕ) (i : IdealTape) : Tape.Fault → Prop
  | pointerUnderflow : i.pointer < 0 → Breaks n i .pointerUnderflow
  | pointerOverflow : n ≤ i.pointer → Breaks n i .pointerOverflow
  | valueOverflow : cellMax < i.current → Breaks n i .valueOverflow
  | valueUnderflow : i.current < 0 → Breaks n i .valueUnderflow

theorem within_iff : i.Within n ↔ ∀ f, ¬ i.Breaks n f := by
  constructor
  · rintro ⟨h₁, h₂, h₃, h₄⟩ f breaks
    cases breaks <;> omega
  · intro h
    exact ⟨not_lt.1 fun hlt => h _ (.pointerUnderflow hlt),
      not_le.1 fun hle => h _ (.pointerOverflow hle),
      not_lt.1 fun hlt => h _ (.valueUnderflow hlt),
      not_lt.1 fun hlt => h _ (.valueOverflow hlt)⟩

/-- The effect of an operation, if it stays within the bounds of a tape of `n` cells. -/
def next (n : ℕ) (i : IdealTape) (op : Operation) : IdealTape :=
  if (i.apply op).Within n then i.apply op else i

/-- The tape after operations of which those that break a bound are left out. -/
def after (n : ℕ) (i : IdealTape) (ops : List Operation) : IdealTape := ops.foldl (next n) i

end IdealTape

namespace Tape

variable {n : ℕ} {t : Tape} {op : Operation}

/-- The tape after operations, some of which may be refused. -/
def after (t : Tape) (ops : List Operation) : Tape := ops.foldl (fun t op => (t.perform op).2) t

/-- The ideal tape with the cells of a tape and with zeros beyond them. -/
def ideal (t : Tape) : IdealTape where
  pointer := t.pointer
  cell k := if 0 ≤ k then (t.cells[k.toNat]?.getD 0 : ℕ) else 0

/-- The integer that an answer reports, if it reports one. -/
def Answer.toInt? : Answer → Option ℤ
  | done => none
  | value v => some v

/-! ## The ideal tape of a tape -/

theorem ideal_zeros (n : ℕ) : (zeros n).ideal = .zeros := by
  have hcell : ∀ k : ℕ, (zeros n).cells[k]?.getD 0 = 0 := by
    intro k
    rw [zeros, Array.getElem?_replicate]
    split <;> rfl
  simp only [ideal, IdealTape.zeros, hcell, Int.cast_ofNat_Int, ite_self]
  rfl

theorem current_ideal {v : ℕ} (hv : t.get? = some v) : t.ideal.current = v := by
  have hv' : t.cells[t.pointer]? = some v := hv
  simp [ideal, IdealTape.current, hv']

namespace Bounded

variable (h : t.Bounded n)

include h

theorem cell_ideal (k : ℤ) : 0 ≤ t.ideal.cell k ∧ t.ideal.cell k ≤ cellMax := by
  dsimp only [ideal]
  split
  · cases hget : t.cells[k.toNat]? with
    | none => exact ⟨le_rfl, Int.natCast_nonneg _⟩
    | some v =>
      have hle := h.cell_le v (Array.mem_of_getElem? hget)
      exact ⟨Int.natCast_nonneg _, Int.ofNat_le.2 hle⟩
  · exact ⟨le_rfl, Int.natCast_nonneg _⟩

theorem ideal_put (v : ℕ) : (t.put v).ideal = t.ideal.put v := by
  have hlt := h.lt_size
  unfold ideal put IdealTape.put
  congr 1
  funext k
  by_cases hk : k = t.pointer
  · subst hk
    simp [hlt]
  · rw [Function.update_of_ne hk]
    dsimp only
    split
    · rw [Array.getElem?_setIfInBounds_ne (by omega)]
    · rfl

theorem within_moveTo {p : ℤ} (nonneg : 0 ≤ p) (lt : p < n) : (t.ideal.moveTo p).Within n :=
  ⟨nonneg, lt, (h.cell_ideal p).1, (h.cell_ideal p).2⟩

theorem within_put {v : ℤ} (nonneg : 0 ≤ v) (le : v ≤ cellMax) : (t.ideal.put v).Within n where
  pointer_nonneg := Int.natCast_nonneg _
  pointer_lt := Int.ofNat_lt.2 h.pointer_lt
  current_nonneg := by rwa [IdealTape.current_put]
  current_le := by rwa [IdealTape.current_put]

/-- A move can break the bounds of the pointer only, and one of them at most. -/
theorem breaks_moveTo_iff {p : ℤ} {f : Fault} :
    (t.ideal.moveTo p).Breaks n f ↔
      f = .pointerUnderflow ∧ p < 0 ∨ f = .pointerOverflow ∧ n ≤ p := by
  have hcell : 0 ≤ (t.ideal.moveTo p).current ∧ (t.ideal.moveTo p).current ≤ cellMax :=
    h.cell_ideal p
  constructor
  · intro breaks
    cases breaks with
    | pointerUnderflow hlt => exact .inl ⟨rfl, hlt⟩
    | pointerOverflow hle => exact .inr ⟨rfl, hle⟩
    | valueOverflow hlt => omega
    | valueUnderflow hlt => omega
  · rintro (⟨rfl, hlt⟩ | ⟨rfl, hle⟩)
    · exact .pointerUnderflow hlt
    · exact .pointerOverflow hle

/-- A new value can break the bounds of the cell only, and one of them at most. -/
theorem breaks_put_iff {v : ℤ} {f : Fault} :
    (t.ideal.put v).Breaks n f ↔ f = .valueUnderflow ∧ v < 0 ∨ f = .valueOverflow ∧ cellMax < v := by
  have hpointer : 0 ≤ (t.ideal.put v).pointer ∧ (t.ideal.put v).pointer < n :=
    ⟨Int.natCast_nonneg _, Int.ofNat_lt.2 h.pointer_lt⟩
  have hcurrent := t.ideal.current_put v
  constructor
  · intro breaks
    cases breaks with
    | pointerUnderflow hlt => omega
    | pointerOverflow hle => omega
    | valueOverflow hlt => exact .inr ⟨rfl, hcurrent ▸ hlt⟩
    | valueUnderflow hlt => exact .inl ⟨rfl, hcurrent ▸ hlt⟩
  · rintro (⟨rfl, hlt⟩ | ⟨rfl, hlt⟩)
    · exact .valueUnderflow (hcurrent.symm ▸ hlt)
    · exact .valueOverflow (hcurrent.symm ▸ hlt)

end Bounded

/-! ## Operations -/

/-- What an operation does to a tape of `n` cells, as its ideal effect says. -/
inductive Follows (n : ℕ) (t : Tape) (op : Operation) : Except Fault Answer × Tape → Prop
  /-- The ideal effect stays within the bounds and takes place. -/
  | accepted {a : Answer} {t' : Tape} : (t.ideal.apply op).Within n → t'.Bounded n →
      t'.ideal = t.ideal.apply op → a.toInt? = t.ideal.answer? op → Follows n t op (.ok a, t')
  /-- The ideal effect breaks one bound, and nothing happens. -/
  | refused {f : Fault} : (∀ f', (t.ideal.apply op).Breaks n f' ↔ f' = f) →
      Follows n t op (.error f, t)

namespace Bounded

variable (h : t.Bounded n)

include h

theorem accepted_moveTo {p : ℕ} (effect : t.ideal.apply op = t.ideal.moveTo p) (lt : p < n)
    (silent : t.ideal.answer? op = none) : t.Follows n op (.ok .done, ⟨t.cells, p⟩) := by
  refine .accepted ?_ ⟨h.size_eq, lt, h.cell_le⟩ effect.symm silent.symm
  rw [effect]
  exact h.within_moveTo (Int.natCast_nonneg p) (Int.ofNat_lt.2 lt)

theorem refused_moveTo {p : ℤ} {f : Fault} (effect : t.ideal.apply op = t.ideal.moveTo p)
    (breaks : f = .pointerUnderflow ∧ p < 0 ∨ f = .pointerOverflow ∧ n ≤ p) :
    t.Follows n op (.error f, t) := by
  refine .refused fun f' => ?_
  rw [effect, h.breaks_moveTo_iff]
  rcases breaks with ⟨rfl, hlt⟩ | ⟨rfl, hle⟩
  · have : ¬ (n : ℤ) ≤ p := by omega
    simp [hlt, this]
  · have : ¬ p < 0 := by omega
    simp [hle, this]

theorem accepted_put {v : ℕ} {a : Answer} (effect : t.ideal.apply op = t.ideal.put v)
    (le : v ≤ cellMax) (reports : a.toInt? = t.ideal.answer? op) :
    t.Follows n op (.ok a, t.put v) := by
  have bounded : (t.put v).Bounded n := h.put_eq v ▸ h.write le
  refine .accepted ?_ bounded ((h.ideal_put v).trans effect.symm) reports
  rw [effect]
  exact h.within_put (Int.natCast_nonneg v) (Int.ofNat_le.2 le)

theorem refused_put {v : ℤ} {f : Fault} (effect : t.ideal.apply op = t.ideal.put v)
    (breaks : f = .valueUnderflow ∧ v < 0 ∨ f = .valueOverflow ∧ cellMax < v) :
    t.Follows n op (.error f, t) := by
  refine .refused fun f' => ?_
  rw [effect, h.breaks_put_iff]
  rcases breaks with ⟨rfl, hlt⟩ | ⟨rfl, hlt⟩
  · have : ¬ (cellMax : ℤ) < v := by omega
    simp [hlt, this]
  · have : ¬ v < 0 := by omega
    simp [hlt, this]

/-- Every operation follows its ideal effect. -/
theorem follows_perform (op : Operation) : t.Follows n op (t.perform op) := by
  obtain ⟨v, hle, hv⟩ := h.exists_get?
  have hcurrent := current_ideal hv
  have hlt := h.pointer_lt
  cases op with
  | moveRight =>
    simp only [perform, h.moveRight_eq]
    split_ifs with hroom
    · exact h.accepted_moveTo rfl hroom rfl
    · exact h.refused_moveTo rfl (.inr ⟨rfl, by dsimp only [ideal]; omega⟩)
  | moveLeft =>
    simp only [perform, Tape.moveLeft]
    split_ifs with hzero
    · exact h.refused_moveTo rfl (.inl ⟨rfl, by dsimp only [ideal]; omega⟩)
    · refine h.accepted_moveTo ?_ (by omega) rfl
      dsimp only [IdealTape.apply, ideal]
      congr 1
      omega
  | increment =>
    have effect : t.ideal.apply .increment = t.ideal.put (v + 1 : ℕ) := by
      rw [IdealTape.apply, hcurrent, Int.natCast_succ]
    simp only [perform, h.increment_eq hv, hv, Option.getD_some]
    split_ifs with hlow
    · exact h.accepted_put effect hlow (by simp [Answer.toInt?, IdealTape.answer?, hcurrent])
    · exact h.refused_put effect (.inr ⟨rfl, by omega⟩)
  | decrement =>
    have effect : t.ideal.apply .decrement = t.ideal.put ((v : ℤ) - 1) := by
      rw [IdealTape.apply, hcurrent]
    simp only [perform, h.decrement_eq hv, hv, Option.getD_some]
    split_ifs with hpos
    · have hsub : ((v - 1 : ℕ) : ℤ) = (v : ℤ) - 1 := by omega
      refine h.accepted_put (effect.trans (by rw [hsub])) (by omega) ?_
      simp [Answer.toInt?, IdealTape.answer?, hcurrent, hsub]
    · exact h.refused_put effect (.inl ⟨rfl, by omega⟩)
  | set value =>
    simp only [perform]
    by_cases hvalue : value ≤ cellMax
    · rw [h.set_eq_ok hvalue, h.put_eq]
      exact h.accepted_put rfl hvalue rfl
    · rw [Tape.set, if_pos (by omega)]
      exact h.refused_put rfl (.inr ⟨rfl, by omega⟩)
  | get =>
    have within : (t.ideal.put t.ideal.current).Within n := by
      rw [hcurrent]
      exact h.within_put (Int.natCast_nonneg v) (Int.ofNat_le.2 hle)
    rw [IdealTape.put_current] at within
    simp only [perform, hv]
    exact .accepted within h rfl (by simp [Answer.toInt?, IdealTape.answer?, hcurrent])
  | reset =>
    obtain rfl : t.size = n := h.size_eq
    have within : IdealTape.zeros.Within t.size :=
      ⟨le_rfl, Int.ofNat_lt.2 (by omega : 0 < t.size), le_rfl, Int.natCast_nonneg _⟩
    exact .accepted within (t.bounded_reset (by omega)) (ideal_zeros t.size) rfl

end Bounded

namespace Follows

variable {x : Except Fault Answer × Tape}

theorem error_iff (follows : t.Follows n op x) (f : Fault) :
    x.1 = .error f ↔ (t.ideal.apply op).Breaks n f := by
  cases follows with
  | accepted within bounded effect reports =>
    exact ⟨nofun, fun breaks => (IdealTape.within_iff.1 within f breaks).elim⟩
  | refused only =>
    rw [only, Except.error.injEq]
    exact eq_comm

theorem unchanged (follows : t.Follows n op x) {f : Fault} (h : x.1 = .error f) : x.2 = t := by
  cases follows with
  | accepted => cases h
  | refused => rfl

theorem effect (follows : t.Follows n op x) {a : Answer} (h : x.1 = .ok a) :
    x.2.ideal = t.ideal.apply op ∧ a.toInt? = t.ideal.answer? op := by
  cases follows with
  | accepted within bounded effect reports =>
    cases h
    exact ⟨effect, reports⟩
  | refused => cases h

/-- The tape goes on as the ideal tape that leaves out what breaks a bound. -/
theorem next (follows : t.Follows n op x) (bounded : t.Bounded n) :
    x.2.ideal = t.ideal.next n op ∧ x.2.Bounded n := by
  cases follows with
  | accepted within bounded' effect =>
    rw [IdealTape.next, if_pos within]
    exact ⟨effect, bounded'⟩
  | @refused f only =>
    have hwithin : ¬ (t.ideal.apply op).Within n := fun within =>
      IdealTape.within_iff.1 within f ((only f).2 rfl)
    rw [IdealTape.next, if_neg hwithin]
    exact ⟨rfl, bounded⟩

end Follows

/-! ## Sequences of operations -/

theorem Bounded.ideal_after (h : t.Bounded n) (ops : List Operation) :
    (t.after ops).ideal = t.ideal.after n ops ∧ (t.after ops).Bounded n := by
  induction ops generalizing t with
  | nil => exact ⟨rfl, h⟩
  | cons op ops ih =>
    obtain ⟨ideal, bounded⟩ := (h.follows_perform op).next h
    obtain ⟨ideal', bounded'⟩ := ih bounded
    exact ⟨ideal'.trans (by rw [ideal]; rfl), bounded'⟩

/-- A tape without a cell refuses everything but a reset, which changes nothing either. -/
theorem perform_zeros_zero (op : Operation) :
    ((zeros 0).perform op).2 = zeros 0 ∧
      (op ≠ .reset → ∃ f, ((zeros 0).perform op).1 = .error f) := by
  cases op with
  | set value =>
    by_cases hvalue : cellMax < value
    · simp [perform, Tape.set, hvalue]
    · simp [perform, Tape.set, hvalue, zeros]
  | reset => exact ⟨rfl, fun hreset => absurd rfl hreset⟩
  | moveRight | moveLeft | increment | decrement | get => exact ⟨rfl, fun _ => ⟨_, rfl⟩⟩

theorem after_zeros_zero (ops : List Operation) : (zeros 0).after ops = zeros 0 := by
  induction ops with
  | nil => rfl
  | cons op ops ih => rw [after, List.foldl_cons, (perform_zeros_zero op).1, ← after, ih]

/-- After any operations a tape is the ideal tape that the same operations make within its bounds.
The next operation is refused exactly if its ideal effect breaks a bound, with the fault that names
this bound, and then leaves the tape; any other has its ideal effect and answer.  A tape without a
cell never changes. -/
theorem simulates_ideal :
    (∀ (n : ℕ) (ops : List Operation), 1 ≤ n →
      let t := (zeros n).after ops
      let i := IdealTape.zeros.after n ops
      t.ideal = i ∧ t.Bounded n ∧ (t.perform .reset).2 = zeros n ∧
      ∀ op,
        (∀ f, (t.perform op).1 = .error f ↔ (i.apply op).Breaks n f) ∧
        (∀ f, (t.perform op).1 = .error f → (t.perform op).2 = t) ∧
        (∀ a, (t.perform op).1 = .ok a →
          (t.perform op).2.ideal = i.apply op ∧ a.toInt? = i.answer? op)) ∧
    (∀ ops : List Operation,
      (zeros 0).after ops = zeros 0 ∧
      ∀ op, op ≠ .reset → ∃ f, (((zeros 0).after ops).perform op).1 = .error f) := by
  refine ⟨fun n ops positive => ?_, fun ops => ?_⟩
  · intro t i
    obtain ⟨ideal, bounded⟩ := (bounded_zeros positive).ideal_after ops
    rw [ideal_zeros] at ideal
    have ideal : t.ideal = i := ideal
    refine ⟨ideal, bounded, ?_, fun op => ?_⟩
    · exact congrArg zeros bounded.size_eq
    · have follows := bounded.follows_perform op
      rw [← ideal]
      exact ⟨follows.error_iff, fun _ => follows.unchanged, fun _ => follows.effect⟩
  · rw [after_zeros_zero]
    exact ⟨rfl, fun op => (perform_zeros_zero op).2⟩

/-- The second move of three is refused, and so is going beyond the ceiling. -/
theorem simulates_ideal_at_ceiling :
    let ops : List Operation := [.increment, .moveRight, .moveRight, .set cellMax]
    let t := (zeros 2).after ops
    1 ≤ 2 ∧ t = ⟨#[1, cellMax], 1⟩ ∧ t.ideal = IdealTape.zeros.after 2 ops ∧ t.Bounded 2 ∧
      (t.perform .increment).1 = .error .valueOverflow ∧ (t.perform .increment).2 = t := by
  intro ops t
  obtain ⟨ideal, bounded, -, step⟩ := simulates_ideal.1 2 ops (by decide)
  have breaks : ((IdealTape.zeros.after 2 ops).apply .increment).Breaks 2 .valueOverflow :=
    .valueOverflow (by decide +kernel)
  have refused := ((step .increment).1 .valueOverflow).2 breaks
  exact ⟨by decide, rfl, ideal, bounded, refused, (step .increment).2.1 _ refused⟩

end Tape

end Brainfuck
