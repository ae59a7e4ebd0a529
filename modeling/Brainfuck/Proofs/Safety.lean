import Brainfuck.Proofs.Pairing
import Brainfuck.Proofs.Run
import Brainfuck.Proofs.TapeBounds
import Mathlib.Algebra.Group.Nat.Defs

/-!
# Safety of a run

In every state that a run reaches the position is in the program or at its end, and the tape has
kept its cells, its pointer on one of them and its values below the ceiling (`State.Within`).  Hence
the instruction there can be carried out without a missing cell, a missing partner or a number out
of range (`Machine.Ready`), whatever the input and the output do.
-/

namespace Brainfuck.Machine

/-- A state of a run of the program `p` over a tape of `n` cells. -/
structure State.Within (p : Program) (n : ℕ) (s : State) : Prop where
  ip_le : s.ip ≤ p.size
  tape : s.tape.Bounded n

/-- In the state `s` everything is there that the next instruction needs. -/
structure Ready (m : Machine) (s : State) : Prop where
  /-- The current cell can be read. -/
  cell : ∃ v, s.tape.get? = some v
  /-- A bracket has a partner. -/
  partner : ∀ i, m.program.get? s.ip = some i → i = .loopStart ∨ i = .loopEnd →
    ∃ j, m.program.partner? s.ip = some j
  /-- A character of the input can be stored. -/
  store : ∀ c : Char, ∃ t, s.tape.set c.toNat = .ok t
  /-- The next cell has an index that fits a word. -/
  pointer_succ : s.tape.pointer + 1 < 2 ^ 64
  /-- The next value of the cell fits half a word. -/
  cell_succ : ∀ v, s.tape.get? = some v → v + 1 < 2 ^ 32
  /-- The next position does not exceed the length of the program. -/
  ip_succ : ∀ i, m.program.get? s.ip = some i → s.ip + 1 ≤ m.program.size
  /-- The position behind a partner does not exceed the length of the program. -/
  partner_succ : ∀ j, m.program.partner? s.ip = some j → j + 1 ≤ m.program.size

end Brainfuck.Machine

namespace Brainfuck

namespace Machine

variable {m : Machine} {text : String} {n : ℕ}

/-- One instruction keeps the bounds of the tape and leads to a position in the program or at its
end. -/
theorem effect_within (parsed : Program.Parsed text m.program) {i : Instruction}
    {ip next written : ℕ} {tape tape' : Tape} {source source' : Source} {event : Option Event}
    {action : Trace.Action}
    (hi : m.program.get? ip = some i) (bounded : tape.Bounded n)
    (h : m.effect i ip tape source written = .completed event action next tape' source') :
    next ≤ m.program.size ∧ tape'.Bounded n := by
  have hip := Program.lt_size_of_get? hi
  cases i with
  | right =>
    cases hmove : tape.moveRight <;> simp only [effect, hmove] at h <;> cases h
    exact ⟨hip, bounded.moveRight hmove⟩
  | left =>
    cases hmove : tape.moveLeft <;> simp only [effect, hmove] at h <;> cases h
    exact ⟨hip, bounded.moveLeft hmove⟩
  | increment =>
    cases hcell : tape.increment <;> simp only [effect, hcell] at h <;> cases h
    exact ⟨hip, bounded.increment hcell⟩
  | decrement =>
    cases hcell : tape.decrement <;> simp only [effect, hcell] at h <;> cases h
    exact ⟨hip, bounded.decrement hcell⟩
  | write =>
    cases hsink : m.sink.refusal? written <;> simp only [effect, hsink] at h <;> cases h
    exact ⟨hip, bounded⟩
  | read =>
    obtain ⟨read, rest, hread⟩ : ∃ read rest, source.readChar = (read, rest) := ⟨_, _, rfl⟩
    cases read <;> simp only [effect, hread] at h
    case char c =>
      obtain ⟨stored, hset, hstored⟩ := bounded.set_toNat c
      rw [hset] at h
      cases h
      exact ⟨hip, hstored⟩
    all_goals cases h
  | loopStart =>
    obtain ⟨j, hj⟩ := parsed.exists_partner hi (.inl rfl)
    have hlt := parsed.partner_lt hj
    simp only [effect, hj, Option.getD_some] at h
    split at h <;> cases h
    · exact ⟨hlt, bounded⟩
    · exact ⟨hip, bounded⟩
  | loopEnd =>
    obtain ⟨j, hj⟩ := parsed.exists_partner hi (.inr rfl)
    have hlt := parsed.partner_lt hj
    simp only [effect, hj, Option.getD_some] at h
    cases h
    exact ⟨hlt.le, bounded⟩

theorem advances_within (parsed : Program.Parsed text m.program) {s t : State}
    (h : m.Advances s t) (within : s.Within m.program n) : t.Within m.program n := by
  obtain ⟨i, event, action, hi, heffect, -⟩ := advances_effect h
  obtain ⟨hip, htape⟩ := effect_within parsed hi within.tape heffect
  exact ⟨hip, htape⟩

theorem start_within {tape : Tape} (h : 1 ≤ tape.size) (source : Source) :
    (m.start tape.reset source).Within m.program tape.size :=
  ⟨Nat.zero_le _, tape.bounded_reset h⟩

theorem ready_of_within (parsed : Program.Parsed text m.program) (hn : n < 2 ^ 63) {s : State}
    (h : s.Within m.program n) : m.Ready s where
  cell := by
    obtain ⟨v, -, hv⟩ := h.tape.exists_get?
    exact ⟨v, hv⟩
  partner _ hi bracket := parsed.exists_partner hi bracket
  store c := by
    obtain ⟨t, ht, -⟩ := h.tape.set_toNat c
    exact ⟨t, ht⟩
  pointer_succ := by
    have := h.tape.pointer_lt
    omega
  cell_succ v hv := by
    obtain ⟨u, hu, hget⟩ := h.tape.exists_get?
    obtain rfl : u = v := Option.some.inj (hget.symm.trans hv)
    unfold cellMax at hu
    omega
  ip_succ _ hi := Program.lt_size_of_get? hi
  partner_succ _ hj := parsed.partner_lt hj

/-- A run of a program over at least one cell never leaves its bounds, and never reaches a state in
which an instruction lacks something. -/
theorem within_and_ready_of_reaches (hp : Program.parse text = .ok m.program) {tape : Tape}
    (positive : 1 ≤ tape.size) (small : tape.size < 2 ^ 63) {source : Source} {s : State}
    (reached : m.Reaches (m.start tape.reset source) s) :
    s.Within m.program tape.size ∧ m.Ready s := by
  have parsed := Program.parsed_of_parse hp
  have within : s.Within m.program tape.size :=
    reached.invariant (fun _ _ => advances_within parsed) (start_within positive source)
  exact ⟨within, ready_of_within parsed small within⟩

/-- At the end of the loop in `+[-]`, with the dirty cell of an earlier run reset. -/
theorem within_and_ready_at_loopEnd :
    ∃ m : Machine, ∃ s : State, Program.parse "+[-]" = .ok m.program ∧
      m.Reaches (m.start (Tape.reset ⟨#[7], 0⟩) (.queue [])) s ∧ s.ip = 3 ∧
      s.Within m.program 1 ∧ m.Ready s := by
  have hp : Program.parse "+[-]" = .ok ⟨#[.increment, .loopStart, .decrement, .loopEnd],
      #[none, some 3, none, some 1]⟩ := by
    decide +kernel
  let m : Machine := ⟨⟨#[.increment, .loopStart, .decrement, .loopEnd],
    #[none, some 3, none, some 1]⟩, .working, false⟩
  have reached : m.Reaches (m.start (Tape.reset ⟨#[7], 0⟩) (.queue []))
      ⟨3, 3, ⟨#[0], 0⟩, .queue [], 0, #[]⟩ :=
    .tail (.tail (.single rfl) (rfl : m.step ⟨1, 1, ⟨#[1], 0⟩, .queue [], 0, #[]⟩ = _)) rfl
  exact ⟨m, _, hp, reached, rfl,
    within_and_ready_of_reaches (m := m) hp (by decide) (by decide) reached⟩

end Machine

end Brainfuck
