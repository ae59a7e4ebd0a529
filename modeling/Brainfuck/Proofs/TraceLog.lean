import Brainfuck.Proofs.Failures

/-!
# The trace as a log

The events of a traced run are a log with an entry for every completed instruction: its input or
output, if it has one, and behind it its row.  The log can be checked without the machine.  Each row
fixes where the next one stands (`Trace.Row.successor`), and `Trace.apply` makes the tape again from
the instructions of the rows and the characters that were read.  `Trace.Entry.Faithful` compares an
entry with the log in front of it, and `Interpreter.trace_is_faithful` is the statement for whole
runs.
-/

namespace Brainfuck

variable {n : ℕ}

/-! ## Logs -/

namespace Trace

/-- A completed instruction: its input or output, and its row. -/
structure Entry where
  event : Option Event
  row : Row

/-- The events of a completed instruction, in order. -/
def Entry.events (e : Entry) : List Event := e.event.toList ++ [.trace (.row e.row)]

/-- Where the instruction after a row stands. -/
def Row.successor (p : Program) (r : Row) : Option ℕ :=
  match r.instruction with
  | .loopStart => if r.cell = 0 then (p.partner? r.ip).map (· + 1) else some (r.ip + 1)
  | .loopEnd => p.partner? r.ip
  | _ => some (r.ip + 1)

/-- Where the instruction after a log stands. -/
def next? (p : Program) (log : List Entry) : Option ℕ :=
  match log.getLast? with
  | none => some 0
  | some e => e.row.successor p

/-- What an entry makes of a tape, without any check. -/
def Entry.apply (t : Tape) (e : Entry) : Tape :=
  match e.row.instruction, e.event with
  | .right, _ => ⟨t.cells, t.pointer + 1⟩
  | .left, _ => ⟨t.cells, t.pointer - 1⟩
  | .increment, _ => t.put (t.get?.getD 0 + 1)
  | .decrement, _ => t.put (t.get?.getD 0 - 1)
  | .read, some (.input (.char c)) => t.put c.toNat
  | _, _ => t

/-- What a log makes of `n` cells that are zero. -/
def replay (n : ℕ) (log : List Entry) : Tape := log.foldl Entry.apply (.zeros n)

/-- The event and the action that an instruction at `ip` has to show when it takes the tape `before`
to the tape `after`. -/
inductive Shows (p : Program) (ip : ℕ) (before after : Tape) :
    Instruction → Option Event → Action → Prop
  | right : Shows p ip before after .right none (.moved after.pointer)
  | left : Shows p ip before after .left none (.moved after.pointer)
  | increment {v w : ℕ} : before.get? = some v → after.get? = some w →
      Shows p ip before after .increment none (.incremented before.pointer v w)
  | decrement {v w : ℕ} : before.get? = some v → after.get? = some w →
      Shows p ip before after .decrement none (.decremented before.pointer v w)
  | write {v : ℕ} : before.get? = some v →
      Shows p ip before after .write (some (.output (cellChar v))) (.output (cellChar v) v)
  | read {c : Char} :
      Shows p ip before after .read (some (.input (.char c))) (.stored c before.pointer)
  | skip {j : ℕ} : before.get? = some 0 → p.partner? ip = some j →
      Shows p ip before after .loopStart none (.skipped j)
  | enter {v : ℕ} : before.get? = some v → v ≠ 0 →
      Shows p ip before after .loopStart none .entered
  | back {j : ℕ} : p.partner? ip = some j →
      Shows p ip before after .loopEnd none (.returned j)

/-- The entry tells the truth after the log `log` of a run of `p` on `n` cells. -/
structure Entry.Faithful (p : Program) (n : ℕ) (log : List Entry) (e : Entry) : Prop where
  step : e.row.step = log.length
  ip : next? p log = some e.row.ip
  instruction : p.get? e.row.ip = some e.row.instruction
  pointer : e.row.pointer = (replay n log).pointer
  cell : (replay n log).get? = some e.row.cell
  shows : Shows p e.row.ip (replay n log) (replay n (log ++ [e])) e.row.instruction e.event
    e.row.action

/-- The row shows the state `s` of a run of `p` and the instruction that comes next there. -/
structure Row.Of (p : Program) (s : Machine.State) (r : Row) : Prop where
  step : r.step = s.steps
  ip : r.ip = s.ip
  pointer : r.pointer = s.tape.pointer
  cell : s.tape.get? = some r.cell
  instruction : p.get? s.ip = some r.instruction

@[simp] theorem next?_nil (p : Program) : next? p [] = some 0 := rfl

@[simp] theorem next?_append (p : Program) (log : List Entry) (e : Entry) :
    next? p (log ++ [e]) = e.row.successor p := by
  rw [next?, List.getLast?_concat]

@[simp] theorem replay_append (n : ℕ) (log : List Entry) (e : Entry) :
    replay n (log ++ [e]) = e.apply (replay n log) := by
  rw [replay, List.foldl_concat]
  rfl

theorem Shows.not_isTrace {p : Program} {ip : ℕ} {before after : Tape} {i : Instruction}
    {event : Option Event} {action : Action} (h : Shows p ip before after i event action) :
    ∀ x ∈ event.toList, x.isTrace = false := by
  cases h <;> simp [Event.isTrace]

end Trace

open Trace

namespace Machine

variable {m : Machine} {s₀ s t : State} {log : List Entry}

/-! ## Steps -/

/-- What an instruction does that completes: replaying its entry makes the tape, its row fixes the
next position, and the entry shows what has happened. -/
theorem effect_eq_completed {text : String} (parsed : Program.Parsed text m.program)
    {i : Instruction} {ip next written : ℕ} {tape tape' : Tape} {source source' : Source}
    {event : Option Event} {action : Action} (bounded : tape.Bounded n)
    (hi : m.program.get? ip = some i)
    (h : m.effect i ip tape source written = .completed event action next tape' source')
    (steps : ℕ) :
    let e : Entry := ⟨event, ⟨steps, ip, tape.pointer, tape.get?.getD 0, i, action⟩⟩
    e.apply tape = tape' ∧ e.row.successor m.program = some next ∧
      Shows m.program ip tape tape' i event action := by
  obtain ⟨v, hle, hv⟩ := bounded.exists_get?
  cases i with
  | right =>
    simp only [effect, bounded.moveRight_eq] at h
    split_ifs at h
    cases h
    exact ⟨rfl, rfl, .right⟩
  | left =>
    simp only [effect, Tape.moveLeft] at h
    split_ifs at h
    cases h
    exact ⟨rfl, rfl, .left⟩
  | increment =>
    simp only [effect, bounded.increment_eq hv, hv, Option.getD_some] at h
    split_ifs at h
    cases h
    refine ⟨?_, rfl, .increment hv (bounded.get?_put _)⟩
    simp only [Entry.apply, hv, Option.getD_some]
  | decrement =>
    simp only [effect, bounded.decrement_eq hv, hv, Option.getD_some] at h
    split_ifs at h
    cases h
    refine ⟨?_, rfl, .decrement hv (bounded.get?_put _)⟩
    simp only [Entry.apply, hv, Option.getD_some]
  | write =>
    simp only [effect, hv, Option.getD_some] at h
    split at h <;> cases h
    exact ⟨rfl, rfl, .write hv⟩
  | read =>
    obtain ⟨answer, rest, hread⟩ : ∃ answer rest, source.readChar = (answer, rest) := ⟨_, _, rfl⟩
    rw [effect_read hread] at h
    cases answer with
    | char c =>
      simp only [Effect.ofAnswer, bounded.set_toNat_eq] at h
      cases h
      exact ⟨rfl, rfl, .read⟩
    | endOfInput | invalid | failure message => cases h
  | loopStart =>
    obtain ⟨j, hj⟩ := parsed.exists_partner hi (.inl rfl)
    simp only [effect, hv, hj, Option.getD_some] at h
    split_ifs at h with hzero
    · cases h
      subst hzero
      refine ⟨rfl, ?_, .skip hv hj⟩
      simp [Row.successor, hv, hj]
    · cases h
      refine ⟨rfl, ?_, .enter hv hzero⟩
      simp [Row.successor, hv, hzero]
  | loopEnd =>
    obtain ⟨j, hj⟩ := parsed.exists_partner hi (.inr rfl)
    simp only [effect, hj, Option.getD_some] at h
    cases h
    exact ⟨rfl, hj, .back hj⟩

theorem toList_record (event : Option Event) (events : Array Event) :
    (record event events).toList = events.toList ++ event.toList := by
  cases event <;> simp [record]

/-- The log of the completed instructions of a traced run from `s₀`, on `n` cells, to `s`. -/
structure Logged (m : Machine) (s₀ : State) (n : ℕ) (log : List Entry) (s : State) : Prop where
  reached : m.Reaches s₀ s
  events : s.events.toList = .trace .columns :: .trace .rule :: log.flatMap Entry.events
  steps : s.steps = log.length
  ip : next? m.program log = some s.ip
  tape : replay n log = s.tape
  entries : ∀ k (e : Entry), log[k]? = some e → e.Faithful m.program n (log.take k) ∧
    ∃ u, m.Reaches s₀ u ∧ e.row.Of m.program u

/-- Each step adds an entry. -/
theorem Logged.advances {text : String} (parsed : Program.Parsed text m.program)
    (traced : m.traced = true) (within : s.Within m.program n) (h : m.Logged s₀ n log s)
    (step : m.Advances s t) : ∃ e, m.Logged s₀ n (log ++ [e]) t := by
  obtain ⟨i, event, action, hi, heffect, hsteps, -, hevents⟩ := advances_effect step
  obtain ⟨happly, hnext, shown⟩ := effect_eq_completed parsed within.tape hi heffect s.steps
  obtain ⟨v, -, hv⟩ := within.tape.exists_get?
  rw [hv, Option.getD_some] at happly hnext hevents
  let e : Entry := ⟨event, ⟨s.steps, s.ip, s.tape.pointer, v, i, action⟩⟩
  have htape : replay n (log ++ [e]) = t.tape := by
    rw [replay_append, h.tape]
    exact happly
  have faithful : e.Faithful m.program n log :=
    { step := h.steps
      ip := h.ip
      instruction := hi
      pointer := congrArg Tape.pointer h.tape.symm
      cell := h.tape ▸ hv
      shows := by
        rw [htape, h.tape]
        exact shown }
  refine ⟨e, h.reached.tail step, ?_, ?_, ?_, htape, ?_⟩
  · rw [hevents, if_pos traced, Array.toList_push, toList_record, h.events]
    simp [Entry.events, e]
  · rw [hsteps, h.steps, List.length_append, List.length_singleton]
  · rw [next?_append]
    exact hnext
  · intro k x hx
    -- An entry before the last one has the same log in front of it as before the step.
    rcases Nat.lt_or_ge k log.length with hlt | hge
    · rw [List.getElem?_append_left hlt] at hx
      rw [List.take_append_of_le_length hlt.le]
      exact h.entries k x hx
    · rw [List.getElem?_append_right hge, List.getElem?_singleton] at hx
      split at hx <;> cases hx
      obtain rfl : k = log.length := by omega
      rw [List.take_left]
      exact ⟨faithful, s, h.reached, rfl, rfl, rfl, hv, hi⟩

/-- The last step of a run that succeeds is the line break. -/
theorem step_eq_ok (h : m.step s = .halted (.ok ()) t) :
    m.program.get? s.ip = none ∧
      t = { s with written := s.written + 1, events := s.events.push (.output '\n') } := by
  rcases halted_effect h with ⟨hnone, hfinish⟩ | ⟨_, _, _, _, _, hresult, _⟩
  · unfold finish at hfinish
    split at hfinish <;> cases hfinish
    exact ⟨hnone, rfl⟩
  · cases hresult

/-- The last step of a run that fails has no row. -/
theorem events_of_step_eq_error {error : RunError} (h : m.step s = .halted (.error error) t) :
    ∃ last, t.events.toList = s.events.toList ++ last ∧ ∀ x ∈ last, x.isTrace = false := by
  rcases halted_effect h with ⟨-, hfinish⟩ | ⟨i, event, error', -, heffect, -, hevents⟩
  · unfold finish at hfinish
    split at hfinish <;> cases hfinish
    exact ⟨[], (List.append_nil _).symm, nofun⟩
  · refine ⟨event.toList, ?_, fun x hx => ?_⟩
    · rw [hevents, toList_record]
    · have hevent : (m.effect i s.ip s.tape s.source s.written).event = some x := by
        rw [heffect]
        exact Option.mem_toList.1 hx
      exact isTrace_of_effect hevent

/-! ## Runs -/

theorem logged_start (traced : m.traced = true) (tape : Tape) (source : Source) :
    m.Logged (m.start tape.reset source) tape.size [] (m.start tape.reset source) where
  reached := .refl
  events := by
    rw [start, if_pos traced]
    rfl
  steps := rfl
  ip := next?_nil m.program
  tape := rfl
  entries k e he := by
    rw [List.getElem?_nil] at he
    cases he

/-- In every state that a traced run reaches there is a log of what it has done. -/
theorem exists_logged {text : String} (parsed : Program.Parsed text m.program)
    (traced : m.traced = true) {tape : Tape} (positive : 1 ≤ tape.size) {source : Source}
    (reached : m.Reaches (m.start tape.reset source) s) :
    s.Within m.program tape.size ∧
      ∃ log, m.Logged (m.start tape.reset source) tape.size log s := by
  induction reached with
  | refl => exact ⟨start_within positive source, [], logged_start traced tape source⟩
  | tail _ step ih =>
    obtain ⟨within, log, logged⟩ := ih
    obtain ⟨e, next⟩ := logged.advances parsed traced within step
    exact ⟨advances_within parsed step within, _, next⟩

/-- What the last step adds to a log. -/
theorem Logged.halted {result : Except RunError Unit} (within : s.Within m.program n)
    (h : m.Logged s₀ n log s) (hlast : m.step s = .halted result t) :
    ∃ last, t.events.toList =
        .trace .columns :: .trace .rule :: (log.flatMap Entry.events ++ last) ∧
      (∀ x ∈ last, x.isTrace = false) ∧ t.tape = replay n log ∧
      (result = .ok () → next? m.program log = some m.program.size ∧ last = [.output '\n']) ∧
      (∀ error, result = .error error → error.ip? = next? m.program log) := by
  cases result with
  | ok done =>
    obtain ⟨hnone, rfl⟩ := step_eq_ok hlast
    have hend : s.ip = m.program.size :=
      Nat.le_antisymm within.ip_le (Array.getElem?_eq_none_iff.1 hnone)
    refine ⟨[.output '\n'], ?_, by simp [Event.isTrace], h.tape.symm, fun _ => ⟨?_, rfl⟩, nofun⟩
    · rw [Array.toList_push, h.events]
      rfl
    · rw [h.ip, hend]
  | error error =>
    obtain ⟨last, hevents, plain⟩ := events_of_step_eq_error hlast
    obtain ⟨htape, hip, -, -⟩ := step_eq_error within hlast
    refine ⟨last, ?_, plain, htape.trans h.tape.symm, nofun, fun error' herror => ?_⟩
    · rw [hevents, h.events]
      rfl
    · cases herror
      rw [hip, h.ip]

theorem filter_isTrace_entries (h : ∀ e ∈ log, ∀ x ∈ e.event.toList, x.isTrace = false) :
    (log.flatMap Entry.events).filter Event.isTrace =
      log.map fun e => .trace (.row e.row) := by
  induction log with
  | nil => rfl
  | cons e log ih =>
    have hnone : e.event.toList.filter Event.isTrace = [] := by
      rw [List.filter_eq_nil_iff]
      intro x hx
      simp [h e List.mem_cons_self x hx]
    rw [List.flatMap_cons, List.filter_append, ih fun e' he' => h e' (List.mem_cons_of_mem _ he'),
      Entry.events, List.filter_append, hnone]
    rfl

end Machine

namespace Interpreter

variable {b : Interpreter} {sink : Sink} {source : Source}

/-- The trace of a run is a faithful log of it.  Behind the header it has a row for each completed
instruction, behind the input or output of this instruction and in front of the next one.  The rows
show the states that the run comes to, each stands where the row before it leads, and replaying them
gives what they show and the tape at the end.  The last row leads to the end of the program, or to
the instruction that fails. -/
theorem trace_is_faithful {text : String} {p : Program} (hp : Program.parse text = .ok p)
    (nonempty : 1 ≤ p.size) (loaded : b.load = .ok p) (positive : 1 ≤ b.tape.size) {fuel : ℕ}
    {o : Outcome} (ended : b.runTraced sink source fuel = some o) :
    let m : Machine := ⟨p, sink, true⟩
    let s₀ := m.start b.tape.reset source
    ∃ (log : List Entry) (last : List Event),
      o.events.toList = .trace .columns :: .trace .rule :: (log.flatMap Entry.events ++ last) ∧
      o.events.toList.filter Event.isTrace =
        .trace .columns :: .trace .rule :: log.map (fun e => .trace (.row e.row)) ∧
      (∃ s t, m.Reaches s₀ s ∧ s.steps = log.length ∧ m.step s = .halted o.result t) ∧
      (∀ k (e : Entry), log[k]? = some e → e.Faithful p b.tape.size (log.take k) ∧
        ∃ s, m.Reaches s₀ s ∧ e.row.Of p s) ∧
      o.interpreter.tape = replay b.tape.size log ∧
      (o.result = .ok () → next? p log = some p.size ∧ last = [.output '\n']) ∧
      (∀ error, o.result = .error error → error.ip? = next? p log) := by
  intro m s₀
  rw [runTraced, execute_of_start (start?_of_load loaded nonempty positive true sink source),
    Option.map_eq_some_iff] at ended
  obtain ⟨⟨result, t⟩, hrun, rfl⟩ := ended
  obtain ⟨s, reached, hlast⟩ := Machine.exists_reaches_of_runFor hrun
  have parsed : Program.Parsed text m.program := Program.parsed_of_parse hp
  obtain ⟨within, log, logged⟩ := Machine.exists_logged parsed rfl positive reached
  obtain ⟨last, hevents, plain, htape, hok, herror⟩ := logged.halted within hlast
  refine ⟨log, last, hevents, ?_, ⟨s, t, reached, logged.steps, hlast⟩, logged.entries, htape, hok,
    herror⟩
  have entries : ∀ e ∈ log, ∀ x ∈ e.event.toList, x.isTrace = false := by
    intro e he
    obtain ⟨k, hk⟩ := List.getElem?_of_mem he
    exact (logged.entries k e hk).1.shows.not_isTrace
  have hlines := Machine.filter_isTrace_entries entries
  have hnone : last.filter Event.isTrace = [] := by
    rw [List.filter_eq_nil_iff]
    intro x hx
    simp [plain x hx]
  calc t.events.toList.filter Event.isTrace
    _ = .trace .columns :: .trace .rule ::
        (log.flatMap Entry.events ++ last).filter Event.isTrace := by rw [hevents]; rfl
    _ = .trace .columns :: .trace .rule :: log.map (fun e => .trace (.row e.row)) := by
      rw [List.filter_append, hlines, hnone, List.append_nil]

/-- The program `,[.,]` reads a second character that is not there: its log has three rows, and the
last one leads to the instruction that fails. -/
theorem trace_is_faithful_of_failing_read :
    ∃ (p : Program) (o : Outcome) (log : List Entry), Program.parse ",[.,]" = .ok p ∧
      (ofText ",[.,]" 1).runTraced .working (.queue [some 'b']) 4 = some o ∧
      o.result = .error (.input 3) ∧
      log.map Entry.row = [⟨0, 0, 0, 0, .read, .stored 'b' 0⟩, ⟨1, 1, 0, 98, .loopStart, .entered⟩,
        ⟨2, 2, 0, 98, .write, .output 'b' 98⟩] ∧
      (∀ k (e : Entry), log[k]? = some e → e.Faithful p 1 (log.take k)) ∧
      next? p log = some 3 ∧ replay 1 log = ⟨#[98], 0⟩ := by
  have hp : Program.parse ",[.,]" = .ok ⟨#[.read, .loopStart, .write, .read, .loopEnd],
      #[none, some 4, none, none, some 1]⟩ := by
    decide +kernel
  obtain ⟨o, ended, hresult, htape, hlines⟩ :
      ∃ o : Outcome, (ofText ",[.,]" 1).runTraced .working (.queue [some 'b']) 4 = some o ∧
        o.result = .error (.input 3) ∧ o.interpreter.tape = ⟨#[98], 0⟩ ∧
        o.events.toList.filter Event.isTrace = [.trace .columns, .trace .rule,
          .trace (.row ⟨0, 0, 0, 0, .read, .stored 'b' 0⟩),
          .trace (.row ⟨1, 1, 0, 98, .loopStart, .entered⟩),
          .trace (.row ⟨2, 2, 0, 98, .write, .output 'b' 98⟩)] :=
    ⟨_, rfl, rfl, rfl, rfl⟩
  obtain ⟨log, last, -, hrows, -, entries, hreplay, -, herror⟩ :=
    trace_is_faithful hp (by decide) (b := ofText ",[.,]" 1) hp (by decide) ended
  refine ⟨_, o, log, hp, ended, hresult, ?_, fun k e he => (entries k e he).1, ?_, ?_⟩
  · have injective : Function.Injective fun r : Row => Event.trace (.row r) := by
      intro r r' h
      cases h
      rfl
    rw [hlines, List.cons_inj_right, List.cons_inj_right] at hrows
    refine List.map_injective_iff.2 injective ?_
    rw [List.map_map]
    exact hrows.symm
  · exact (herror _ hresult).symm
  · exact hreplay.symm.trans htape

end Interpreter

end Brainfuck
