import Brainfuck.Proofs.Lockstep
import Brainfuck.Proofs.Progress
import Brainfuck.Proofs.Safety

/-!
# Runs with more memory

A tape with more cells behind its last (`Tape.widen`) allows and refuses what the tape itself does,
but for a move to the right out of its last cell.  Hence a run with more memory is in lockstep with
the run with less until the latter would leave its tape (`Machine.lockstep_widen`), and there is no
other way in which the memory size has a part in a run: `Interpreter.memory_monotone`.
-/

namespace Brainfuck

/-! ## Tapes -/

namespace Tape

variable {d n : ℕ} {t t' : Tape}

/-- The tape with `d` cells more, all of them zero. -/
def widen (d : ℕ) (t : Tape) : Tape := ⟨t.cells ++ Array.replicate d 0, t.pointer⟩

theorem widen_zeros (d n : ℕ) : (zeros n).widen d = zeros (n + d) := by
  unfold widen zeros
  rw [Array.replicate_append_replicate]

theorem moveRight_widen (d : ℕ) (h : t.moveRight = .ok t') :
    (t.widen d).moveRight = .ok (t'.widen d) := by
  unfold moveRight at h ⊢
  split at h
  · next hlt =>
    cases h
    have hlt' : t.pointer + 1 < (t.widen d).cells.size := by
      rw [widen, Array.size_append]
      omega
    exact if_pos hlt'
  · cases h

theorem moveLeft_widen (d : ℕ) (t : Tape) :
    (t.widen d).moveLeft = t.moveLeft.map (widen d) := by
  unfold moveLeft
  by_cases hzero : t.pointer = 0
  · have hzero' : (t.widen d).pointer = 0 := hzero
    rw [if_pos hzero, if_pos hzero']
    rfl
  · have hzero' : ¬ (t.widen d).pointer = 0 := hzero
    rw [if_neg hzero, if_neg hzero']
    rfl

namespace Bounded

variable (h : t.Bounded n)

include h

theorem lt_size_widen (d : ℕ) : (t.widen d).pointer < (t.widen d).cells.size := by
  rw [widen, Array.size_append]
  exact Nat.lt_add_right _ h.lt_size

theorem get?_widen (d : ℕ) : (t.widen d).get? = t.get? :=
  Array.getElem?_append_left h.lt_size

theorem set_widen (d v : ℕ) : (t.widen d).set v = (t.set v).map (widen d) := by
  have hlt := h.lt_size
  unfold Tape.set
  rw [dif_pos hlt, dif_pos (h.lt_size_widen d)]
  split
  · rfl
  · simp only [widen, Array.set_append_left hlt, Except.map]

theorem increment_widen (d : ℕ) : (t.widen d).increment = t.increment.map (widen d) := by
  have hlt := h.lt_size
  unfold Tape.increment
  rw [dif_pos hlt, dif_pos (h.lt_size_widen d)]
  simp only [widen, Array.set_append_left hlt, Array.getElem_append_left hlt]
  split <;> rfl

theorem decrement_widen (d : ℕ) : (t.widen d).decrement = t.decrement.map (widen d) := by
  have hlt := h.lt_size
  unfold Tape.decrement
  rw [dif_pos hlt, dif_pos (h.lt_size_widen d)]
  simp only [widen, Array.set_append_left hlt, Array.getElem_append_left hlt]
  split <;> rfl

end Bounded

end Tape

/-! ## Steps -/

namespace Machine

variable {m : Machine} {i : Instruction} {ip d n : ℕ} {tape : Tape} {source : Source} {s t : State}

/-- An effect with its tape changed. -/
def Effect.mapTape (f : Tape → Tape) : Effect → Effect
  | completed event action next tape source => completed event action next (f tape) source
  | failed event error tape source => failed event error (f tape) source

theorem Effect.ofAnswer_widen (bounded : tape.Bounded n) (d ip : ℕ) (answer : CharRead)
    (rest : Source) :
    ofAnswer ip (tape.widen d) answer rest = (ofAnswer ip tape answer rest).mapTape (Tape.widen d) := by
  cases answer with
  | char c =>
    dsimp only [ofAnswer]
    rw [bounded.set_widen]
    cases tape.set c.toNat <;> rfl
  | endOfInput | invalid | failure message => rfl

/-- More cells make no difference to an instruction, unless it moves right out of the last. -/
theorem effect_widen (bounded : tape.Bounded n) (m : Machine) (i : Instruction) (d ip : ℕ)
    (source : Source) (written : ℕ) :
    m.effect i ip tape source written =
        .failed none (.pointerOverflow ip tape.pointer) tape source ∨
      m.effect i ip (tape.widen d) source written =
        (m.effect i ip tape source written).mapTape (Tape.widen d) := by
  have hcell := bounded.get?_widen d
  cases i with
  | right =>
    cases hmove : tape.moveRight with
    | ok tape' =>
      have hmove' := Tape.moveRight_widen d hmove
      right
      simp only [effect, hmove, hmove']
      rfl
    | error fault =>
      left
      have hfault : fault = .pointerOverflow := by
        unfold Tape.moveRight at hmove
        split at hmove <;> cases hmove
        rfl
      simp only [effect, hmove, hfault]
      rfl
  | left =>
    right
    simp only [effect, Tape.moveLeft_widen]
    cases tape.moveLeft <;> rfl
  | increment =>
    right
    simp only [effect, hcell, bounded.increment_widen]
    cases tape.increment <;> rfl
  | decrement =>
    right
    simp only [effect, hcell, bounded.decrement_widen]
    cases tape.decrement <;> rfl
  | write =>
    right
    simp only [effect, hcell]
    cases m.sink.refusal? written <;> rfl
  | read =>
    right
    rw [effect_read rfl, effect_read rfl]
    exact Effect.ofAnswer_widen bounded d ip _ _
  | loopStart =>
    right
    simp only [effect, hcell]
    split <;> rfl
  | loopEnd => exact .inr rfl

/-- A state with `d` cells more. -/
def State.widen (d : ℕ) (s : State) : State := { s with tape := s.tape.widen d }

/-- The next step ends the run since there is no cell to the right. -/
def Overflows (m : Machine) (s : State) : Prop :=
  m.step s = .halted (.error (.pointerOverflow s.ip s.tape.pointer)) s

theorem step_widen (bounded : s.tape.Bounded n) (m : Machine) (d : ℕ) :
    m.Overflows s ∨ m.step (s.widen d) = (m.step s).map (State.widen d) := by
  cases h : m.program.get? s.ip with
  | none =>
    have h' : m.program.get? (s.widen d).ip = none := h
    have hwritten : (s.widen d).written = s.written := rfl
    right
    rw [step_eq_finish h, step_eq_finish h', finish, finish, hwritten]
    cases m.sink.refusal? s.written <;> rfl
  | some i =>
    have h' : m.program.get? (s.widen d).ip = some i := h
    -- The row of the step shows the current cell.
    have hcell : (s.widen d).tape.get? = s.tape.get? := bounded.get?_widen d
    rcases effect_widen bounded m i d s.ip s.source s.written with overflow | heffect
    · left
      rw [Overflows, step_eq_of_get? h, overflow]
      rfl
    · right
      rw [step_eq_of_get? h, step_eq_of_get? h']
      have heffect' : m.effect i (s.widen d).ip (s.widen d).tape (s.widen d).source
          (s.widen d).written = _ := heffect
      rw [heffect']
      cases m.effect i s.ip s.tape s.source s.written <;>
        simp only [Effect.mapTape, Effect.step, hcell] <;> rfl

/-- A run with more cells does what the run with fewer cells does, and both are over with the same
number of steps, unless the latter leaves its tape. -/
theorem lockstep_widen {text : String} (parsed : Program.Parsed text m.program)
    (within : s.Within m.program n) (d fuel : ℕ) :
    (∃ u, m.Reaches s u ∧ m.Reaches (s.widen d) (u.widen d) ∧ m.Overflows u) ∨
      m.runFor fuel (s.widen d) = (m.runFor fuel s).map fun x => (x.1, x.2.widen d) := by
  -- Steps that go on keep the bounds, which say that there is a current cell; at the end of a run
  -- nothing depends on them.
  have sim : ∀ s s' : State, s.Within m.program n ∧ s' = s.widen d → m.Overflows s ∨
      Step.Agree (fun s s' => s.Within m.program n ∧ s' = s.widen d) (fun s s' => s' = s.widen d)
        (m.step s) (m.step s') := by
    rintro s _ ⟨within, rfl⟩
    rcases step_widen within.tape m d with overflow | hstep
    · exact .inl overflow
    · right
      rw [hstep]
      cases h : m.step s with
      | next t => exact .next ⟨advances_within parsed h within, rfl⟩
      | halted result t => exact .halted rfl
  rcases lockstep (P := fun s _ => m.Overflows s) sim ⟨within, rfl⟩ fuel with
    ⟨u, _, hu, hu', ⟨-, rfl⟩, overflow⟩ | both
  · exact .inl ⟨u, hu, hu', overflow⟩
  · right
    generalize m.runFor fuel s = x, m.runFor fuel (s.widen d) = x' at both
    cases both with
    | none => rfl
    | some same => exact congrArg some (Prod.ext same.1.symm same.2)

end Machine

/-! ## Runs -/

/-- An outcome with `d` cells more. -/
def Outcome.widen (d : ℕ) (o : Outcome) : Outcome :=
  { o with interpreter := { o.interpreter with tape := o.interpreter.tape.widen d } }

namespace Interpreter

variable {code : String} {n : ℕ} {traced : Bool} {sink : Sink} {source : Source}

theorem tape_widen (code : String) (d n : ℕ) :
    (ofText code (n + d)).tape = (ofText code n).tape.widen d :=
  (Tape.widen_zeros d n).symm

theorem idle_widen (code : String) (d n : ℕ) (source : Source) :
    (ofText code (n + d)).idle source = ((ofText code n).idle source).widen d := by
  have hload : (ofText code (n + d)).load = (ofText code n).load := rfl
  have htape := tape_widen code d n
  unfold idle
  rw [hload]
  cases (ofText code n).load with
  | error e =>
    dsimp only [Outcome.widen]
    rw [← htape]
    rfl
  | ok p =>
    dsimp only [Outcome.widen]
    rw [htape]
    rfl

theorem start?_widen (positive : 1 ≤ n) (code : String) (d : ℕ) (traced : Bool) (sink : Sink)
    (source : Source) :
    (ofText code (n + d)).start? traced sink source =
      ((ofText code n).start? traced sink source).map fun x => (x.1, x.2.widen d) := by
  have hload : (ofText code (n + d)).load = (ofText code n).load := rfl
  have hsize : ∀ k, (ofText code k).tape.cells.size = k := fun _ => Array.size_replicate
  have hempty : ∀ k, 1 ≤ k → (ofText code k).tape.isEmpty = false := fun k hk =>
    Array.isEmpty_eq_false_iff.2 (Array.size_pos_iff.1 (hk.trans_eq (hsize k).symm))
  have hreset : ∀ k, (ofText code k).tape.reset = Tape.zeros k := fun k =>
    congrArg Tape.zeros (hsize k)
  unfold start?
  rw [hload, hempty n positive, hempty (n + d) (by omega), hreset, hreset, ← Tape.widen_zeros]
  cases (ofText code n).load with
  | error e => rfl
  | ok p =>
    dsimp only
    cases p.isEmpty <;> rfl

/-- With more memory a run that does not leave its tape ends in the same way, with zeros in the cells
that are more.  A run that leaves its tape has done nothing that a run with more memory does not
do. -/
theorem memory_monotone {m m' : ℕ} (positive : 1 ≤ m) (le : m ≤ m') {fuel : ℕ} {o : Outcome}
    (ended : (ofText code m).execute traced sink source fuel = some o) :
    ((∀ ip pointer, o.result ≠ .error (.pointerOverflow ip pointer)) →
      (ofText code m').execute traced sink source fuel = some (o.widen (m' - m))) ∧
    (∀ ip pointer, o.result = .error (.pointerOverflow ip pointer) →
      (ofText code m').Begins traced sink source o.events) := by
  obtain ⟨d, rfl⟩ := Nat.exists_eq_add_of_le le
  rw [Nat.add_sub_cancel_left]
  -- Where the run with more memory ends in the same way there is nothing else to show.
  have same : (ofText code (m + d)).execute traced sink source fuel = some (o.widen d) →
      ((∀ ip pointer, o.result ≠ .error (.pointerOverflow ip pointer)) →
        (ofText code (m + d)).execute traced sink source fuel = some (o.widen d)) ∧
      (∀ ip pointer, o.result = .error (.pointerOverflow ip pointer) →
        (ofText code (m + d)).Begins traced sink source o.events) := fun h =>
    ⟨fun _ => h, fun _ _ _ => (begins_iff_of_execute h _).2 List.prefix_rfl⟩
  have hstart' := start?_widen positive code d traced sink source
  rcases execute_eq_some ended with ⟨hstart, rfl⟩ | ⟨machine, s, result, t, hstart, hrun, rfl⟩
  · rw [hstart] at hstart'
    apply same
    rw [execute_of_idle hstart', idle_widen]
  · rw [hstart] at hstart'
    obtain ⟨loaded, -, nonempty, -, rfl⟩ := start?_eq_some hstart
    have parsed := Program.parsed_of_parse loaded
    rcases Machine.lockstep_widen parsed (Machine.start_within nonempty source) d fuel with
      ⟨u, hu, hu', overflow⟩ | both
    · -- The end is unique, so it is the state in which the tape is left.
      obtain ⟨fuel', hfuel'⟩ := Machine.ends_of_reaches hu (Machine.ends_of_halted overflow)
      cases Machine.runFor_unique hfuel' hrun
      have begins := begins_of_reaches hstart' hu'
      exact ⟨fun other => absurd rfl (other _ _), fun _ _ _ => begins⟩
    · apply same
      rw [execute_of_start hstart']
      dsimp only
      rw [both, hrun]
      rfl

/-- Two cells are enough for `>+.` and not for `.>>.`. -/
theorem memory_monotone_from_two_cells :
    ∃ o o' : Outcome,
      (ofText ">+." 2).execute false .working (.queue []) 4 = some o ∧
      (ofText ">+." 5).execute false .working (.queue []) 4 = some (o.widen 3) ∧
      (ofText ".>>." 2).execute false .working (.queue []) 3 = some o' ∧
      o'.result = .error (.pointerOverflow 2 1) ∧
      (ofText ".>>." 5).Begins false .working (.queue []) o'.events := by
  have enough := memory_monotone (by decide) (by decide : 2 ≤ 5)
    (rfl : (ofText ">+." 2).execute false .working (.queue []) 4 = _)
  have short := memory_monotone (by decide) (by decide : 2 ≤ 5)
    (rfl : (ofText ".>>." 2).execute false .working (.queue []) 3 = _)
  exact ⟨_, _, rfl, enough.1 nofun, rfl, rfl, short.2 2 1 rfl⟩

end Interpreter

end Brainfuck
