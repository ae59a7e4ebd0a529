import Brainfuck.Proofs.Effects
import Brainfuck.Proofs.Run

/-!
# Two runs side by side

Two runs are compared along a relation between their states.  In lockstep both go on to related
states, or both end with one result (`Step.Agree`).  Where this may fail is a relation of its own,
and `lockstep` says that the runs agree to their ends unless they come to a pair of related states
at which they part.
-/

namespace Brainfuck.Machine

variable {m m' : Machine} {s s' t : State}

namespace Step

/-- Both runs go on in states that `R` relates, or both end with one result in states that `Q`
relates. -/
inductive Agree (R Q : State → State → Prop) : Step → Step → Prop
  | next {s s' : State} : R s s' → Agree R Q (next s) (next s')
  | halted {result : Except RunError Unit} {s s' : State} :
      Q s s' → Agree R Q (halted result s) (halted result s')

end Step

/-- Either runs in lockstep come to related states at which they may part, or with the same number
of steps both are not over, or both are over with one result. -/
theorem lockstep {R P Q : State → State → Prop}
    (sim : ∀ s s', R s s' → P s s' ∨ Step.Agree R Q (m.step s) (m'.step s'))
    (h : R s s') (fuel : ℕ) :
    (∃ u u', m.Reaches s u ∧ m'.Reaches s' u' ∧ R u u' ∧ P u u') ∨
      Option.Rel (fun x x' => x.1 = x'.1 ∧ Q x.2 x'.2) (m.runFor fuel s) (m'.runFor fuel s') := by
  induction fuel generalizing s s' with
  | zero => exact .inr .none
  | succ fuel ih =>
    rcases sim s s' h with parts | agree
    · exact .inl ⟨s, s', .refl, .refl, h, parts⟩
    generalize hstep : m.step s = st at agree
    generalize hstep' : m'.step s' = st' at agree
    cases agree with
    | next hnext =>
      rw [runFor_of_advances hstep, runFor_of_advances hstep']
      rcases ih hnext with ⟨u, u', hu, hu', related, parts⟩ | both
      · exact .inl ⟨u, u', hu.head hstep, hu'.head hstep', related, parts⟩
      · exact .inr both
    | halted hend =>
      rw [runFor_of_halted hstep, runFor_of_halted hstep']
      exact .inr (.some ⟨rfl, hend⟩)

end Brainfuck.Machine
