import Brainfuck.Tape
import Mathlib.Data.Nat.Notation

/-!
# Bounds of a tape

Every operation keeps the number of cells, the pointer on one of them and every cell at most
`cellMax` (`Tape.Bounded`).  On such a tape there is always a current cell, and every character
can be stored in it.  What the operations do to it are equations, from `Bounded.moveRight_eq` to
`Bounded.set_toNat_eq`.
-/

namespace Brainfuck

/-- Characters are values of cells. -/
theorem toNat_le_cellMax (c : Char) : c.toNat ≤ cellMax := by
  have h : c.toNat.isValidChar := c.valid
  unfold Nat.isValidChar at h
  unfold cellMax
  omega

namespace Tape

/-- A tape of `n` cells with the pointer on one of them and no value beyond the ceiling. -/
structure Bounded (n : ℕ) (t : Tape) : Prop where
  size_eq : t.cells.size = n
  pointer_lt : t.pointer < n
  cell_le : ∀ v ∈ t.cells, v ≤ cellMax

variable {n : ℕ} {t t' : Tape}

/-! ## The number of cells -/

theorem size_moveRight (h : t.moveRight = .ok t') : t'.size = t.size := by
  unfold moveRight at h
  split at h <;> cases h
  rfl

theorem size_moveLeft (h : t.moveLeft = .ok t') : t'.size = t.size := by
  unfold moveLeft at h
  split at h <;> cases h
  rfl

theorem size_increment (h : t.increment = .ok t') : t'.size = t.size := by
  unfold increment at h
  split at h
  · next hlt =>
    split at h <;> cases h
    exact Array.size_set hlt
  · cases h

theorem size_decrement (h : t.decrement = .ok t') : t'.size = t.size := by
  unfold decrement at h
  split at h
  · next hlt =>
    split at h <;> cases h
    exact Array.size_set hlt
  · cases h

theorem size_set {v : ℕ} (h : t.set v = .ok t') : t'.size = t.size := by
  unfold set at h
  split at h
  · cases h
  · split at h
    · next hlt =>
      cases h
      exact Array.size_set hlt
    · cases h

/-! ## Tapes within their bounds -/

theorem bounded_zeros (positive : 1 ≤ n) : (zeros n).Bounded n where
  size_eq := Array.size_replicate
  pointer_lt := positive
  cell_le v hv := by
    rw [(Array.mem_replicate.1 hv).2]
    exact Nat.zero_le _

theorem bounded_reset (h : 1 ≤ t.size) : t.reset.Bounded t.size := bounded_zeros h

namespace Bounded

theorem lt_size (h : t.Bounded n) : t.pointer < t.cells.size :=
  h.size_eq ▸ h.pointer_lt

/-- The current cell exists. -/
theorem exists_get? (h : t.Bounded n) : ∃ v ≤ cellMax, t.get? = some v :=
  ⟨_, h.cell_le _ (Array.getElem_mem h.lt_size), Array.getElem?_eq_getElem h.lt_size⟩

/-- Storing a value of a cell is never refused and changes the current cell only. -/
theorem write (h : t.Bounded n) {v : ℕ} (hv : v ≤ cellMax) :
    Bounded n ⟨t.cells.set t.pointer v h.lt_size, t.pointer⟩ where
  size_eq := by rw [Array.size_set, h.size_eq]
  pointer_lt := h.pointer_lt
  cell_le u hu := by
    rcases Array.mem_or_eq_of_mem_set (w := h.lt_size) hu with hu | rfl
    · exact h.cell_le u hu
    · exact hv

theorem moveRight (h : t.Bounded n) (ht : t.moveRight = .ok t') : t'.Bounded n := by
  unfold Tape.moveRight at ht
  split at ht
  · cases ht
    exact ⟨h.size_eq, by have := h.size_eq; dsimp only; omega, h.cell_le⟩
  · cases ht

theorem moveLeft (h : t.Bounded n) (ht : t.moveLeft = .ok t') : t'.Bounded n := by
  unfold Tape.moveLeft at ht
  split at ht
  · cases ht
  · cases ht
    exact ⟨h.size_eq, by have := h.pointer_lt; dsimp only; omega, h.cell_le⟩

theorem increment (h : t.Bounded n) (ht : t.increment = .ok t') : t'.Bounded n := by
  unfold Tape.increment at ht
  rw [dif_pos h.lt_size] at ht
  split at ht
  · cases ht
  · cases ht
    exact h.write (by omega)

theorem decrement (h : t.Bounded n) (ht : t.decrement = .ok t') : t'.Bounded n := by
  have hle := h.cell_le _ (Array.getElem_mem h.lt_size)
  unfold Tape.decrement at ht
  rw [dif_pos h.lt_size] at ht
  split at ht
  · cases ht
  · cases ht
    exact h.write (by omega)

theorem set_eq_ok (h : t.Bounded n) {v : ℕ} (hv : v ≤ cellMax) :
    t.set v = .ok ⟨t.cells.set t.pointer v h.lt_size, t.pointer⟩ := by
  rw [Tape.set, if_neg (by omega), dif_pos h.lt_size]

theorem set_toNat (h : t.Bounded n) (c : Char) : ∃ t', t.set c.toNat = .ok t' ∧ t'.Bounded n :=
  ⟨_, h.set_eq_ok (toNat_le_cellMax c), h.write (toNat_le_cellMax c)⟩

end Bounded

/-! ## What the operations do -/

/-- The tape with a value in the current cell, without any check. -/
def put (t : Tape) (v : ℕ) : Tape := ⟨t.cells.setIfInBounds t.pointer v, t.pointer⟩

namespace Bounded

variable (h : t.Bounded n)

include h

theorem get?_put (v : ℕ) : (t.put v).get? = some v := by
  have hlt := h.lt_size
  simp [get?, put, hlt]

theorem put_eq (v : ℕ) : ⟨t.cells.set t.pointer v h.lt_size, t.pointer⟩ = t.put v := by
  rw [put, Array.setIfInBounds, dif_pos h.lt_size]

theorem moveRight_eq : t.moveRight =
    if t.pointer + 1 < n then .ok ⟨t.cells, t.pointer + 1⟩ else .error .pointerOverflow := by
  rw [Tape.moveRight, h.size_eq]

theorem increment_eq {v : ℕ} (hv : t.get? = some v) : t.increment =
    if v < cellMax then .ok (t.put (v + 1)) else .error .valueOverflow := by
  obtain ⟨hlt, rfl⟩ := Array.getElem?_eq_some_iff.1 hv
  rw [Tape.increment, dif_pos hlt, ← h.put_eq]
  simp only [← Nat.not_lt, ite_not]

theorem decrement_eq {v : ℕ} (hv : t.get? = some v) : t.decrement =
    if 0 < v then .ok (t.put (v - 1)) else .error .valueUnderflow := by
  obtain ⟨hlt, rfl⟩ := Array.getElem?_eq_some_iff.1 hv
  rw [Tape.decrement, dif_pos hlt, ← h.put_eq]
  simp only [Nat.pos_iff_ne_zero, ne_eq, ite_not]

theorem set_toNat_eq (c : Char) : t.set c.toNat = .ok (t.put c.toNat) := by
  rw [h.set_eq_ok (toNat_le_cellMax c), h.put_eq]

end Bounded

end Tape

end Brainfuck
