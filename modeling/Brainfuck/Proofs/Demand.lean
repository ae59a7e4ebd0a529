import Brainfuck.Proofs.Progress

/-!
# Input on demand

A run takes an item of its queue for each `,` that it comes to, and looks at no other: one step
depends on the first item at most (`Machine.step_demand`), hence a run on as many items as it takes
(`Machine.runFor_demand`).  Only a run that asks an empty queue would go on differently if there were
more, and does the same until then (`Machine.reaches_append`).  `Interpreter.input_on_demand` is
both together.
-/

namespace Brainfuck

/-- The answer to a request that takes an item. -/
def itemRead : Option Char → CharRead
  | some c => .char c
  | none => .endOfInput

theorem readChar_cons (x : Option Char) (q : List (Option Char)) :
    (Source.queue (x :: q)).readChar = (itemRead x, .queue q) := by
  cases x <;> rfl

namespace Machine

variable {m : Machine} {s t u : State} {q q' : List (Option Char)}

/-! ## Steps -/

/-- A state with another input. -/
def State.withSource (source : Source) (s : State) : State := { s with source := source }

theorem withSource_self {source : Source} (hs : s.source = source) : s.withSource source = s := by
  rw [← hs]
  rfl

theorem Effect.step_withSource (m : Machine) (s : State) (i : Instruction) (source source' : Source)
    (e : Effect) :
    (e.withSource source).step m (s.withSource source') i =
      (e.step m s i).map (State.withSource source) := by
  cases e <;> rfl

/-- A step that is not `,` does not look at the input. -/
theorem step_withSource (h : m.program.get? s.ip ≠ some .read) (source : Source) :
    m.step (s.withSource source) = (m.step s).map (State.withSource source) := by
  cases hget : m.program.get? s.ip with
  | none =>
    have hget' : m.program.get? (s.withSource source).ip = none := hget
    have hwritten : (s.withSource source).written = s.written := rfl
    rw [step_eq_finish hget, step_eq_finish hget', finish, finish, hwritten]
    cases m.sink.refusal? s.written <;> rfl
  | some i =>
    have hi : i ≠ .read := fun hread => h (hget.trans (congrArg some hread))
    have hget' : m.program.get? (s.withSource source).ip = some i := hget
    have heffect : m.effect i (s.withSource source).ip (s.withSource source).tape source
          (s.withSource source).written =
        (m.effect i s.ip s.tape s.source s.written).withSource source := effect_withSource hi source
    rw [step_eq_of_get? hget, step_eq_of_get? hget', ← Effect.step_withSource m s i source source,
      ← heffect]
    rfl

/-- A machine whose program has no `,` does not look at the input. -/
theorem runFor_withSource (quiet : ∀ ip, m.program.get? ip ≠ some .read) (source : Source)
    (fuel : ℕ) (s : State) :
    m.runFor fuel (s.withSource source) =
      (m.runFor fuel s).map (Prod.map id (State.withSource source)) := by
  induction fuel generalizing s with
  | zero => rfl
  | succ fuel ih =>
    rw [runFor, runFor, step_withSource (quiet s.ip)]
    cases m.step s with
    | next t => exact ih t
    | halted result t => rfl

/-- A `,` does not look beyond the item that it takes. -/
theorem step_read_cons (h : m.program.get? s.ip = some .read) {x : Option Char}
    (hs : s.source = .queue (x :: q)) (q' : List (Option Char)) :
    m.step (s.withSource (.queue (x :: q'))) =
      (m.step s).map (State.withSource (.queue q')) := by
  have h' : m.program.get? (s.withSource (.queue (x :: q'))).ip = some .read := h
  have hread : s.source.readChar = (itemRead x, .queue q) := by rw [hs, readChar_cons]
  have hread' : (s.withSource (.queue (x :: q'))).source.readChar = (itemRead x, .queue q') :=
    readChar_cons x q'
  rw [step_eq_of_get? h, step_eq_of_get? h', effect_read hread, effect_read hread',
    ← Effect.step_withSource m s .read (.queue q') (.queue (x :: q')), Effect.withSource_ofAnswer]
  rfl

/-- A `,` that asks an empty queue is the end. -/
theorem step_read_nil (h : m.program.get? s.ip = some .read) (hs : s.source = .queue []) :
    m.step s = .halted (.error (.input s.ip))
      { s with events := s.events.push (.input .endOfInput) } := by
  have hread : s.source.readChar = (.endOfInput, s.source) := by rw [hs]; rfl
  rw [step_eq_of_get? h, effect_read hread]
  rfl

/-- How many items the next step asks for. -/
def demand (m : Machine) (s : State) : ℕ := if m.program.get? s.ip = some .read then 1 else 0

/-- The next step asks a queue that is empty. -/
def Starves (m : Machine) (s : State) : Prop :=
  m.program.get? s.ip = some .read ∧ s.source = .queue []

theorem demand_le (hs : s.source = .queue q) (h : ¬ m.Starves s) : m.demand s ≤ q.length := by
  unfold demand
  split
  · next hread =>
    have hq : q ≠ [] := fun hnil => h ⟨hread, hs.trans (congrArg Source.queue hnil)⟩
    exact List.length_pos_iff.2 hq
  · exact Nat.zero_le _

/-- A step takes the items that it asks for and does not look at the rest. -/
theorem step_demand (hs : s.source = .queue q) (h : ¬ m.Starves s)
    (same : q'.take (m.demand s) = q.take (m.demand s)) :
    m.step (s.withSource (.queue q')) =
      (m.step s).map (State.withSource (.queue (q'.drop (m.demand s)))) := by
  have le := demand_le hs h
  by_cases hread : m.program.get? s.ip = some .read
  · have hdemand : m.demand s = 1 := if_pos hread
    rw [hdemand] at le same ⊢
    cases q with
    | nil => cases le
    | cons x q =>
      cases q' with
      | nil => cases same
      | cons x' q' =>
        obtain rfl : x' = x := by simpa using same
        exact step_read_cons hread hs q'
  · have hdemand : m.demand s = 0 := if_neg hread
    rw [hdemand, List.drop_zero]
    exact step_withSource hread _

theorem source_step (hs : s.source = .queue q) (h : ¬ m.Starves s) :
    (m.step s).state.source = .queue (q.drop (m.demand s)) := by
  have hstep := step_demand hs h rfl
  rw [withSource_self hs] at hstep
  rw [hstep]
  cases m.step s <;> rfl

/-! ## Runs -/

theorem tried_of_advances {i : Instruction} (hget : m.program.get? s.ip = some i)
    (h : m.Advances s t) (fuel : ℕ) : m.tried (fuel + 1) s = (i, s) :: m.tried fuel t := by
  rw [tried, hget]
  dsimp only
  rw [show m.step s = .next t from h]

theorem mem_tried_self {i : Instruction} (hget : m.program.get? s.ip = some i) (fuel : ℕ) :
    (i, s) ∈ m.tried (fuel + 1) s := by
  rw [tried, hget]
  cases m.step s with
  | next t => exact List.mem_cons_self
  | halted result t => exact List.mem_cons_self

/-- What a run tries it has come to. -/
theorem reaches_of_mem_tried {i : Instruction} {fuel : ℕ} (h : (i, u) ∈ m.tried fuel s) :
    m.Reaches s u ∧ m.program.get? u.ip = some i := by
  induction fuel generalizing s with
  | zero => cases h
  | succ fuel ih =>
    rw [tried] at h
    cases hget : m.program.get? s.ip with
    | none =>
      rw [hget] at h
      cases h
    | some j =>
      rw [hget] at h
      cases hstep : m.step s with
      | next t =>
        simp only [hstep, List.mem_cons] at h
        rcases h with h | h
        · cases h
          exact ⟨.refl, hget⟩
        · obtain ⟨reached, hu⟩ := ih h
          exact ⟨reached.head hstep, hu⟩
      | halted result t =>
        simp only [hstep, List.mem_singleton] at h
        cases h
        exact ⟨.refl, hget⟩

/-- How many `,` a run comes to in its first `fuel` steps. -/
def reads (m : Machine) (fuel : ℕ) (s : State) : ℕ :=
  (m.tried fuel s).countP fun x => x.1 = .read

/-- In its first `fuel` steps a run asks a queue that is empty. -/
def AsksEmpty (m : Machine) (fuel : ℕ) (s : State) : Prop :=
  ∃ x ∈ m.tried fuel s, x.1 = .read ∧ x.2.source = .queue []

theorem reads_of_advances (h : m.Advances s t) (fuel : ℕ) :
    m.reads (fuel + 1) s = m.demand s + m.reads fuel t := by
  obtain ⟨i, event, action, hget, -⟩ := advances_effect h
  unfold reads demand
  rw [tried_of_advances hget h, List.countP_cons, hget, Nat.add_comm]
  simp

theorem reads_of_halted {result : Except RunError Unit} (h : m.step s = .halted result t)
    (fuel : ℕ) : m.reads (fuel + 1) s = m.demand s := by
  unfold reads demand tried
  rw [h]
  cases m.program.get? s.ip with
  | none => rfl
  | some i => simp [List.countP_cons]

variable {fuel : ℕ}

theorem not_starves_of_never (never : ¬ m.AsksEmpty (fuel + 1) s) : ¬ m.Starves s :=
  fun starves => never ⟨(.read, s), mem_tried_self starves.1 fuel, rfl, starves.2⟩

theorem never_of_advances (h : m.Advances s t) (never : ¬ m.AsksEmpty (fuel + 1) s) :
    ¬ m.AsksEmpty fuel t := by
  obtain ⟨i, event, action, hget, -⟩ := advances_effect h
  rintro ⟨x, mem, asks⟩
  apply never
  refine ⟨x, ?_, asks⟩
  rw [tried_of_advances hget h]
  exact List.mem_cons_of_mem _ mem

/-- A run that never asks an empty queue takes an item for each `,`, and does the same on every queue
that begins with these items. -/
theorem runFor_demand {result : Except RunError Unit} (h : m.runFor fuel s = some (result, t))
    (hs : s.source = .queue q) (never : ¬ m.AsksEmpty fuel s) :
    m.reads fuel s ≤ q.length ∧
    ∀ q', q'.take (m.reads fuel s) = q.take (m.reads fuel s) →
      m.runFor fuel (s.withSource (.queue q')) =
        some (result, t.withSource (.queue (q'.drop (m.reads fuel s)))) := by
  induction fuel generalizing s q with
  | zero => cases h
  | succ fuel ih =>
    have served := not_starves_of_never never
    have le := demand_le hs served
    cases hstep : m.step s with
    | next u =>
      rw [runFor_of_advances hstep] at h
      have hu : u.source = .queue (q.drop (m.demand s)) := by
        have hsource := source_step hs served
        rw [hstep] at hsource
        exact hsource
      obtain ⟨hle, hrest⟩ := ih h hu (never_of_advances hstep never)
      rw [List.length_drop] at hle
      rw [reads_of_advances hstep]
      refine ⟨by omega, fun q' same => ?_⟩
      -- The items of the run are those of its first step and those of the rest.
      have first : q'.take (m.demand s) = q.take (m.demand s) := by
        simpa [List.take_take] using congrArg (List.take (m.demand s)) same
      have others : (q'.drop (m.demand s)).take (m.reads fuel u) =
          (q.drop (m.demand s)).take (m.reads fuel u) := by
        simpa [List.drop_take] using congrArg (List.drop (m.demand s)) same
      have hstep' := step_demand hs served first
      rw [hstep] at hstep'
      rw [runFor_of_advances hstep', hrest _ others, List.drop_drop]
    | halted result' u =>
      rw [runFor_of_halted hstep] at h
      cases h
      rw [reads_of_halted hstep]
      refine ⟨le, fun q' same => ?_⟩
      have hstep' := step_demand hs served same
      rw [hstep] at hstep'
      exact runFor_of_halted hstep' fuel

theorem source_of_runFor {result : Except RunError Unit}
    (h : m.runFor fuel s = some (result, t)) (hs : s.source = .queue q)
    (never : ¬ m.AsksEmpty fuel s) : t.source = .queue (q.drop (m.reads fuel s)) := by
  have again := (runFor_demand h hs never).2 q rfl
  rw [withSource_self hs, h] at again
  exact congrArg (fun x => x.2.source) (Option.some.inj again)

/-- With more items behind a queue a run comes to the same states, with these items still there. -/
theorem reaches_append (h : m.Reaches s u) (hs : s.source = .queue q)
    (more : List (Option Char)) :
    ∃ left, u.source = .queue left ∧
      m.Reaches (s.withSource (.queue (q ++ more))) (u.withSource (.queue (left ++ more))) := by
  induction h with
  | refl => exact ⟨q, hs, .refl⟩
  | @tail t v _ advances ih =>
    obtain ⟨left, ht, reached⟩ := ih
    -- A step that asks the empty queue would be the last.
    have served : ¬ m.Starves t := fun starves =>
      absurd (advances.symm.trans (step_read_nil starves.1 starves.2)) nofun
    have le := demand_le ht served
    have hv := source_step ht served
    have same : (left ++ more).take (m.demand t) = left.take (m.demand t) :=
      List.take_append_of_le_length le
    have hstep := step_demand ht served same
    rw [show m.step t = .next v from advances] at hv hstep
    rw [List.drop_append_of_le_length le] at hstep
    exact ⟨left.drop (m.demand t), hv, reached.tail hstep⟩

/-- A run that asks an empty queue ends there. -/
theorem runFor_asksEmpty {result : Except RunError Unit} (h : m.runFor fuel s = some (result, t))
    (asks : m.AsksEmpty fuel s) :
    ∃ u, m.Reaches s u ∧ u.source = .queue [] ∧ result = .error (.input u.ip) ∧
      t = { u with events := u.events.push (.input .endOfInput) } := by
  obtain ⟨⟨_, u⟩, mem, rfl, empty⟩ := asks
  obtain ⟨reached, hget⟩ := reaches_of_mem_tried mem
  obtain ⟨fuel', ends⟩ := ends_of_reaches reached (ends_of_halted (step_read_nil hget empty))
  cases runFor_unique h ends
  exact ⟨u, reached, empty, rfl, rfl⟩

end Machine

namespace Interpreter

variable {b : Interpreter} {traced : Bool} {sink : Sink} {source : Source}

/-- How many `,` a run comes to in its first `fuel` steps. -/
def reads (b : Interpreter) (traced : Bool) (sink : Sink) (source : Source) (fuel : ℕ) : ℕ :=
  (b.tried traced sink source fuel).countP fun x => x.1 = .read

/-- In its first `fuel` steps a run asks a queue that is empty. -/
def AsksEmpty (b : Interpreter) (traced : Bool) (sink : Sink) (source : Source) (fuel : ℕ) :
    Prop :=
  ∃ x ∈ b.tried traced sink source fuel, x.1 = .read ∧ x.2.source = .queue []

instance (b : Interpreter) (traced : Bool) (sink : Sink) (source : Source) (fuel : ℕ) :
    Decidable (b.AsksEmpty traced sink source fuel) :=
  inferInstanceAs (Decidable (∃ x ∈ b.tried traced sink source fuel, _))

theorem start?_withSource (b : Interpreter) (traced : Bool) (sink : Sink)
    (source source' : Source) :
    b.start? traced sink source' =
      (b.start? traced sink source).map fun x => (x.1, x.2.withSource source') := by
  unfold start?
  cases b.load with
  | error e => rfl
  | ok p =>
    dsimp only
    cases p.isEmpty || b.tape.isEmpty <;> rfl

theorem idle_withSource (b : Interpreter) (source source' : Source) :
    b.idle source' = { b.idle source with source := source' } := by
  unfold idle
  cases b.load <;> rfl

/-- A call does not look at the input if the program has no `,`. -/
theorem execute_withSource {p : Program} (loaded : b.load = .ok p)
    (quiet : ∀ ip, p.get? ip ≠ some .read) (source source' : Source) (fuel : ℕ) :
    b.execute traced sink source' fuel =
      (b.execute traced sink source fuel).map fun o => { o with source := source' } := by
  rw [execute_eq, execute_eq, start?_withSource b traced sink source source',
    idle_withSource b source source']
  cases hstart : b.start? traced sink source with
  | none => rfl
  | some start =>
    obtain ⟨m, s⟩ := start
    obtain rfl : p = m.program :=
      Except.ok.inj (loaded.symm.trans (start?_eq_some hstart).1)
    simp only [Option.map_some, Machine.runFor_withSource quiet, Option.map_map]
    rfl

section Started

variable {m : Machine} {s : Machine.State} (hstart : b.start? traced sink source = some (m, s))
  (fuel : ℕ)

include hstart

theorem tried_of_start : b.tried traced sink source fuel = m.tried fuel s := by
  rw [tried, hstart]

theorem reads_of_start : b.reads traced sink source fuel = m.reads fuel s :=
  congrArg (List.countP _) (tried_of_start hstart fuel)

theorem asksEmpty_of_start : b.AsksEmpty traced sink source fuel ↔ m.AsksEmpty fuel s := by
  rw [AsksEmpty, tried_of_start hstart]
  rfl

end Started

/-- A run that ends takes an item of its queue for each `,`, and does not look at those that it does
not take.  If it asks an empty queue it ends there, and with more items it does the same up to this
request. -/
theorem input_on_demand {w : List (Option Char)} {fuel : ℕ} {o : Outcome}
    (ended : b.execute traced sink (.queue w) fuel = some o) :
    let k := b.reads traced sink (.queue w) fuel
    (¬ b.AsksEmpty traced sink (.queue w) fuel →
      k ≤ w.length ∧ o.source = .queue (w.drop k) ∧
      ∀ w', w'.take k = w.take k →
        b.execute traced sink (.queue w') fuel = some { o with source := .queue (w'.drop k) }) ∧
    (b.AsksEmpty traced sink (.queue w) fuel →
      ∃ ip before, o.result = .error (.input ip) ∧ o.source = .queue [] ∧
        o.events = before.push (.input .endOfInput) ∧
        ∀ v, b.Begins traced sink (.queue (w ++ v)) before) := by
  intro k
  have hstart' := fun w' => start?_withSource b traced sink (.queue w) (.queue w')
  rcases execute_eq_some ended with ⟨hstart, rfl⟩ | ⟨m, s, result, t, hstart, hrun, rfl⟩
  · have htried : b.tried traced sink (.queue w) fuel = [] := by rw [tried, hstart]
    have hk : k = 0 := congrArg (List.countP _) htried
    simp only [hstart, Option.map_none] at hstart'
    rw [hk]
    refine ⟨fun _ => ⟨Nat.zero_le _, ?_, fun w' _ => ?_⟩, fun ⟨x, mem, _⟩ => ?_⟩
    · exact congrArg Outcome.source (idle_withSource b (.queue w) (.queue w))
    · rw [execute_of_idle (hstart' w'), idle_withSource b (.queue w)]
      rfl
    · rw [htried] at mem
      cases mem
  · simp only [hstart, Option.map_some] at hstart'
    obtain ⟨-, -, -, -, hs⟩ := start?_eq_some hstart
    have hsource : s.source = .queue w := congrArg Machine.State.source hs
    rw [show k = m.reads fuel s from reads_of_start hstart fuel, asksEmpty_of_start hstart fuel]
    constructor
    · intro never
      obtain ⟨le, others⟩ := Machine.runFor_demand hrun hsource never
      refine ⟨le, Machine.source_of_runFor hrun hsource never, fun w' same => ?_⟩
      rw [execute_of_start (hstart' w'), others w' same]
      rfl
    · intro asks
      obtain ⟨u, reached, empty, rfl, rfl⟩ := Machine.runFor_asksEmpty hrun asks
      refine ⟨u.ip, u.events, rfl, empty, rfl, fun v => ?_⟩
      obtain ⟨left, -, reached'⟩ := Machine.reaches_append reached hsource v
      have begins := begins_of_reaches (hstart' (w ++ v)) reached'
      exact begins

/-- `,.` takes one item of two.  `.,,` asks for a second one where there is one only. -/
theorem input_on_demand_for_one_item :
    ∃ o o' : Outcome,
      (ofText ",." 1).execute false .working (.queue [some 'a', some 'b']) 3 = some o ∧
      (ofText ",." 1).execute false .working (.queue [some 'a', none, none]) 3 =
        some { o with source := .queue [none, none] } ∧
      (ofText ".,," 1).execute false .working (.queue [some 'a']) 3 = some o' ∧
      o'.result = .error (.input 2) ∧
      (ofText ".,," 1).Begins false .working (.queue [some 'a', some 'c'])
        #[.output (cellChar 0), .input (.char 'a')] := by
  have enough := input_on_demand
    (rfl : (ofText ",." 1).execute false .working (.queue [some 'a', some 'b']) 3 = _)
  have short := input_on_demand
    (rfl : (ofText ".,," 1).execute false .working (.queue [some 'a']) 3 = _)
  obtain ⟨-, -, others⟩ := enough.1 (by decide +kernel)
  obtain ⟨ip, before, hresult, -, hevents, begins⟩ := short.2 (by decide +kernel)
  have hpush : Array.push #[.output (cellChar 0), .input (.char 'a')] (.input .endOfInput) =
      before.push (.input .endOfInput) := hevents
  rw [← (Array.push_eq_push.1 hpush).2] at begins
  exact ⟨_, _, rfl, others [some 'a', none, none] rfl, rfl, rfl, begins [some 'c']⟩

end Interpreter

end Brainfuck
