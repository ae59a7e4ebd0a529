import Brainfuck.CommandLine.Exit
import Brainfuck.Proofs.InputPaths

/-!
# Runs whose output fails

Only a `.` and the line break behind the program have to do with the output (`Machine.PutsOut`).  A
run whose output accepts `capacity` characters therefore does the same as with a working output
until it has put out so many and comes to the next one (`Machine.NextOutput`), and this is its end
(`Interpreter.execute_limited_of_many`).  A run that puts out no more does not depend on the output
(`Interpreter.execute_limited_of_few`), and in no run more comes out than is accepted
(`Interpreter.length_outputs_le_of_execute`).  For an output that fails at once this is
`failing_output_stops_run`.
-/

namespace Brainfuck

namespace Machine

variable {m : Machine} {s t : State} {ip capacity : ℕ}

/-- The machine with another output. -/
def withSink (sink : Sink) (m : Machine) : Machine := { m with sink := sink }

/-- The next step puts out a character.  It is a `.`, or the line break behind the program, which has
the number of instructions as its position. -/
inductive PutsOut (m : Machine) (s : State) : ℕ → Prop
  | write : m.program.get? s.ip = some .write → PutsOut m s s.ip
  | lineBreak : m.program.get? s.ip = none → PutsOut m s m.program.size

/-- As many characters have been accepted as have come out. -/
def State.Counted (s : State) : Prop := s.written = (outputs s.events).length

/-! ## Steps -/

/-- The output has a part in a step only if a character is put out, and then only by whether it
refuses this character. -/
theorem step_withSink {sink : Sink}
    (h : ∀ ip, m.PutsOut s ip → sink.refusal? s.written = m.sink.refusal? s.written) :
    (m.withSink sink).step s = m.step s := by
  cases hget : m.program.get? s.ip with
  | none =>
    have hget' : (m.withSink sink).program.get? s.ip = none := hget
    have same : (m.withSink sink).sink.refusal? s.written = m.sink.refusal? s.written :=
      h _ (.lineBreak hget)
    rw [step_eq_finish hget, step_eq_finish hget', finish, finish, same]
    rfl
  | some i =>
    have hget' : (m.withSink sink).program.get? s.ip = some i := hget
    have heffect : (m.withSink sink).effect i s.ip s.tape s.source s.written =
        m.effect i s.ip s.tape s.source s.written := by
      cases i with
      | write =>
        have same : (m.withSink sink).sink.refusal? s.written = m.sink.refusal? s.written :=
          h _ (.write hget)
        simp only [effect, same]
      | _ => rfl
    rw [step_eq_of_get? hget, step_eq_of_get? hget', heffect]
    cases m.effect i s.ip s.tape s.source s.written <;> rfl

/-- Step by step a limited output is a working one as long as it has room, and then one that
fails. -/
theorem step_limited (m : Machine) (capacity : ℕ) (message : String) (s : State) :
    (m.withSink (.limited capacity message)).step s =
      if s.written < capacity then (m.withSink .working).step s
      else (m.withSink (.failing message)).step s := by
  split
  · next room => exact step_withSink (m := m.withSink .working) fun _ _ => if_pos room
  · next full => exact step_withSink (m := m.withSink (.failing message)) fun _ _ => if_neg full

/-- Where there is room for the next character, or none is put out, a limited output makes no
difference. -/
theorem step_limited_of_room (working : m.sink = .working)
    (room : s.written < capacity ∨ ∀ ip, ¬ m.PutsOut s ip) (message : String) :
    (m.withSink (.limited capacity message)).step s = m.step s := by
  have hm : m.withSink .working = m := by rw [withSink, ← working]
  rcases room with room | quiet
  · rw [step_limited, if_pos room, hm]
  · exact step_withSink fun ip putsOut => absurd putsOut (quiet ip)

/-- Where there is no room the next character is refused, and nothing else happens. -/
theorem step_limited_of_full (full : capacity ≤ s.written) (h : m.PutsOut s ip) (message : String) :
    (m.withSink (.limited capacity message)).step s = .halted (.error (.io ip message)) s := by
  rw [step_limited, if_neg (Nat.not_lt.2 full)]
  cases h with
  | write hget =>
    have hget' : (m.withSink (.failing message)).program.get? s.ip = some .write := hget
    rw [step_eq_of_get? hget']
    rfl
  | lineBreak hget =>
    have hget' : (m.withSink (.failing message)).program.get? s.ip = none := hget
    rw [step_eq_finish hget']
    rfl

/-- A working output takes the character. -/
theorem outputs_step_of_putsOut (working : m.sink = .working) (h : m.PutsOut s ip) :
    ∃ c, outputs (m.step s).state.events = outputs s.events ++ [c] := by
  cases h with
  | write hget =>
    refine ⟨cellChar (s.tape.get?.getD 0), ?_⟩
    rw [step_eq_of_get? hget]
    simp only [effect, working, Sink.refusal?, Effect.step, record, Step.state]
    split
    · rw [outputs_push_of_ne_output (by simp), outputs_push_output]
    · exact outputs_push_output _ _
  | lineBreak hget =>
    refine ⟨'\n', ?_⟩
    rw [step_eq_finish hget, finish, working]
    exact outputs_push_output _ _

/-- Only `.` has an output as its event. -/
theorem ne_output_of_effect {i : Instruction} (hi : i ≠ .write) {tape : Tape} {source : Source}
    {written : ℕ} {x : Effect} (h : m.effect i ip tape source written = x) {e : Event}
    (he : x.event = some e) (c : Char) : e ≠ .output c := by
  rintro rfl
  subst h
  cases i with
  | write => exact hi rfl
  | read =>
    rw [effect_read rfl, Effect.event_ofAnswer] at he
    cases he
  | loopEnd => cases he
  | _ =>
    simp only [effect] at he
    split at he <;> cases he

theorem length_outputs_record (event : Option Event) (events : Array Event) :
    (outputs (record event events)).length = tally event (outputs events).length := by
  cases event with
  | none => rfl
  | some e =>
    cases e with
    | output c => rw [record, outputs_push_output, List.length_append, List.length_singleton, tally]
    | input answer | trace line => simp [record, outputs_push_of_ne_output, tally]

theorem State.Counted.step (counted : s.Counted) (m : Machine) : (m.step s).state.Counted := by
  unfold State.Counted at counted ⊢
  cases hget : m.program.get? s.ip with
  | none =>
    rw [step_eq_finish hget, finish]
    cases m.sink.refusal? s.written with
    | none => simp [Step.state, outputs_push_output, counted]
    | some message => exact counted
  | some i =>
    have hrecord := fun event => length_outputs_record event s.events
    rw [step_eq_of_get? hget]
    cases m.effect i s.ip s.tape s.source s.written with
    | completed event action next tape source =>
      simp only [Effect.step, Step.state]
      split
      · rw [outputs_push_of_ne_output (by simp), hrecord, counted]
      · rw [hrecord, counted]
    | failed event error tape source => simp only [Effect.step, Step.state, hrecord, counted]

theorem written_step_le (m : Machine) (s : State) : (m.step s).state.written ≤ s.written + 1 := by
  have tally_le : ∀ event, tally event s.written ≤ s.written + 1 := by
    intro event
    unfold tally
    split <;> omega
  cases hget : m.program.get? s.ip with
  | none =>
    rw [step_eq_finish hget, finish]
    cases m.sink.refusal? s.written with
    | none => exact le_rfl
    | some message => exact Nat.le_succ _
  | some i =>
    rw [step_eq_of_get? hget]
    cases m.effect i s.ip s.tape s.source s.written <;> exact tally_le _

/-- A step that puts out nothing does not count. -/
theorem written_step_of_quiet (quiet : ∀ ip, ¬ m.PutsOut s ip) :
    (m.step s).state.written = s.written := by
  cases hget : m.program.get? s.ip with
  | none => exact absurd (.lineBreak hget) (quiet m.program.size)
  | some i =>
    have hi : i ≠ .write := by
      rintro rfl
      exact quiet s.ip (.write hget)
    rw [step_eq_of_get? hget]
    generalize heffect : m.effect i s.ip s.tape s.source s.written = x
    have silent : tally x.event s.written = s.written := by
      cases hevent : x.event with
      | none => rfl
      | some e =>
        cases e with
        | output c => exact absurd rfl (ne_output_of_effect hi heffect hevent c)
        | input answer | trace line => rfl
    cases x <;> exact silent

/-- A limited output does not accept more than its capacity. -/
theorem written_step_le_capacity {message : String} (limited : m.sink = .limited capacity message)
    (le : s.written ≤ capacity) : (m.step s).state.written ≤ capacity := by
  by_cases full : capacity ≤ s.written ∧ ∃ ip, m.PutsOut s ip
  · obtain ⟨full, ip, putsOut⟩ := full
    have hm : m.withSink (.limited capacity message) = m := by rw [withSink, ← limited]
    have hstep := step_limited_of_full full putsOut message
    rw [hm] at hstep
    rw [hstep]
    exact le
  · rcases Nat.lt_or_ge s.written capacity with room | ge
    · exact (written_step_le m s).trans room
    · have quiet : ∀ ip, ¬ m.PutsOut s ip := fun ip putsOut => full ⟨ge, ip, putsOut⟩
      exact (written_step_of_quiet quiet).trans_le le

/-! ## Runs -/

/-- The run from `s` comes to `t` and has put out `k` characters until then, and its next step puts
out one more at the position `ip`. -/
structure NextOutput (m : Machine) (k : ℕ) (s t : State) (ip : ℕ) : Prop where
  reached : m.Reaches s t
  count : (outputs t.events).length = k
  putsOut : m.PutsOut t ip

/-- The run from `s` comes to `t` and has put out nothing until then, and its next step puts out a
character at the position `ip`. -/
structure FirstOutput (m : Machine) (s t : State) (ip : ℕ) : Prop where
  reached : m.Reaches s t
  silent : outputs t.events = []
  putsOut : m.PutsOut t ip

theorem NextOutput.first (h : m.NextOutput 0 s t ip) : m.FirstOutput s t ip :=
  ⟨h.reached, List.length_eq_zero_iff.1 h.count, h.putsOut⟩

theorem counted_start (m : Machine) (tape : Tape) (source : Source) :
    (m.start tape source).Counted := by
  unfold State.Counted start
  split <;> rfl

theorem eventsFor_one (m : Machine) (s : State) : m.eventsFor 1 s = (m.step s).state.events := by
  unfold eventsFor
  cases m.step s <;> rfl

/-- A run that puts out no more than an output accepts does not depend on it. -/
theorem limited_of_few (working : m.sink = .working) (counted : s.Counted)
    (few : ∀ fuel, (outputs (m.eventsFor fuel s)).length ≤ capacity) (message : String) (fuel : ℕ) :
    (m.withSink (.limited capacity message)).runFor fuel s = m.runFor fuel s ∧
      (m.withSink (.limited capacity message)).eventsFor fuel s = m.eventsFor fuel s := by
  induction fuel generalizing s with
  | zero => exact ⟨rfl, rfl⟩
  | succ fuel ih =>
    have room : s.written < capacity ∨ ∀ ip, ¬ m.PutsOut s ip := by
      by_cases now : ∃ ip, m.PutsOut s ip
      · obtain ⟨ip, putsOut⟩ := now
        obtain ⟨c, hc⟩ := outputs_step_of_putsOut working putsOut
        have le := few 1
        rw [eventsFor_one, hc, List.length_append, List.length_singleton] at le
        exact .inl (counted ▸ le)
      · exact .inr (not_exists.1 now)
    have hstep := step_limited_of_room working room message
    have next := counted.step m
    unfold runFor eventsFor
    rw [hstep]
    cases hnext : m.step s with
    | next u =>
      rw [hnext] at next
      refine ih next fun fuel => ?_
      have le := few (fuel + 1)
      rwa [eventsFor, hnext] at le
    | halted result u => exact ⟨rfl, rfl⟩

/-- A run that puts out more than an output accepts ends in front of the first character that is too
many. -/
theorem exists_nextOutput (working : m.sink = .working) (counted : s.Counted)
    (le : s.written ≤ capacity) {fuel : ℕ}
    (many : capacity < (outputs (m.eventsFor fuel s)).length) (message : String) :
    ∃ t ip, m.NextOutput capacity s t ip ∧
      (m.withSink (.limited capacity message)).Ends s (.error (.io ip message)) t := by
  induction fuel generalizing s with
  | zero =>
    rw [eventsFor, ← counted] at many
    omega
  | succ fuel ih =>
    -- the character that is refused is found from the front, since until then the two runs are in
    -- the same state
    by_cases now : capacity ≤ s.written ∧ ∃ ip, m.PutsOut s ip
    · obtain ⟨full, ip, putsOut⟩ := now
      have count : (outputs s.events).length = capacity := counted.symm.trans (le.antisymm full)
      exact ⟨s, ip, ⟨.refl, count, putsOut⟩,
        ends_of_halted (step_limited_of_full full putsOut message)⟩
    · have room : s.written < capacity ∨ ∀ ip, ¬ m.PutsOut s ip := by
        rcases Nat.lt_or_ge s.written capacity with lt | full
        · exact .inl lt
        · exact .inr fun ip putsOut => now ⟨full, ip, putsOut⟩
      have le' : (m.step s).state.written ≤ capacity := by
        rcases room with lt | quiet
        · exact (written_step_le m s).trans lt
        · exact (written_step_of_quiet quiet).trans_le le
      have counted' := counted.step m
      have hstep := step_limited_of_room working room message
      unfold eventsFor at many
      cases hnext : m.step s with
      | next u =>
        rw [hnext] at le' counted' hstep many
        obtain ⟨t, ip, next, ends⟩ := ih counted' le' many
        exact ⟨t, ip, ⟨next.reached.head hnext, next.count, next.putsOut⟩,
          ends_of_reaches (.single hstep) ends⟩
      | halted result u =>
        rw [hnext] at le' counted' many
        exact absurd (counted'.symm.trans_le le') (Nat.not_le.2 many)

end Machine

/-! ## Interpreters -/

namespace Interpreter

variable {b : Interpreter} {traced : Bool} {source : Source} {capacity : ℕ}

/-- A run puts out more than `k` characters where the output works. -/
def EmitsBeyond (b : Interpreter) (k : ℕ) (traced : Bool) (source : Source) : Prop :=
  ∃ fuel, k < (outputs (b.eventsFor traced .working source fuel)).length

/-- A run puts out something where the output works. -/
def Emits (b : Interpreter) (traced : Bool) (source : Source) : Prop :=
  ∃ fuel, outputs (b.eventsFor traced .working source fuel) ≠ []

theorem emitsBeyond_zero_iff : b.EmitsBeyond 0 traced source ↔ b.Emits traced source := by
  simp only [EmitsBeyond, Emits, List.length_pos_iff]

theorem start?_withSink (b : Interpreter) (traced : Bool) (sink : Sink) (source : Source) :
    b.start? traced sink source =
      (b.start? traced .working source).map fun x => (x.1.withSink sink, x.2) := by
  unfold start?
  cases b.load with
  | error e => rfl
  | ok p =>
    dsimp only
    cases p.isEmpty || b.tape.isEmpty <;> rfl

/-- A run ends in one way, however many steps it is given. -/
theorem execute_unique {sink : Sink} {fuel fuel' : ℕ} {o o' : Outcome}
    (h : b.execute traced sink source fuel = some o)
    (h' : b.execute traced sink source fuel' = some o') : o = o' := by
  cases hstart : b.start? traced sink source with
  | none =>
    rw [execute_of_idle hstart] at h h'
    exact Option.some.inj (h.symm.trans h')
  | some start =>
    rw [execute_of_start hstart, Option.map_eq_some_iff] at h h'
    obtain ⟨x, hx, rfl⟩ := h
    obtain ⟨x', hx', rfl⟩ := h'
    rw [Machine.runFor_unique hx hx']

/-- No more comes out of a run than its output accepts. -/
theorem length_outputs_le_of_execute {message : String} {fuel : ℕ} {o : Outcome}
    (ended : b.execute traced (.limited capacity message) source fuel = some o) :
    (outputs o.events).length ≤ capacity := by
  rcases execute_eq_some ended with ⟨-, rfl⟩ | ⟨m, s, result, t, hstart, hrun, rfl⟩
  · rw [idle_events]
    exact Nat.zero_le _
  · obtain ⟨-, -, -, hm, rfl⟩ := start?_eq_some hstart
    have limited : m.sink = .limited capacity message := congrArg Machine.sink hm
    obtain ⟨counted, le⟩ := Machine.runFor_invariant
      (P := fun u => u.Counted ∧ u.written ≤ capacity)
      (fun u hu => ⟨hu.1.step m, Machine.written_step_le_capacity limited hu.2⟩) hrun
      ⟨m.counted_start _ _, Nat.zero_le _⟩
    exact counted.symm.trans_le le

/-- A run that ends has put out something if there is some output among its events. -/
theorem emits_iff_of_execute {fuel : ℕ} {o : Outcome}
    (ended : b.execute traced .working source fuel = some o) :
    b.Emits traced source ↔ outputs o.events ≠ [] := by
  constructor
  · rintro ⟨fuel', emits⟩ silent
    have begins : b.Begins traced .working source (b.eventsFor traced .working source fuel') :=
      ⟨fuel', List.prefix_rfl⟩
    have hprefix := (begins_iff_of_execute ended _).1 begins
    have houtputs : outputs (b.eventsFor traced .working source fuel') <+: outputs o.events :=
      hprefix.filterMap _
    exact emits (List.prefix_nil.1 (silent ▸ houtputs))
  · intro emits
    refine ⟨fuel, ?_⟩
    rw [eventsFor_of_execute ended le_rfl]
    exact emits

/-- Where a run puts out no more than an output accepts, the output makes no difference to it. -/
theorem execute_limited_of_few (few : ¬ b.EmitsBeyond capacity traced source) (message : String)
    (fuel : ℕ) :
    b.execute traced (.limited capacity message) source fuel =
        b.execute traced .working source fuel ∧
      b.eventsFor traced (.limited capacity message) source fuel =
        b.eventsFor traced .working source fuel := by
  have hstart' := start?_withSink b traced (.limited capacity message) source
  rw [execute_eq, execute_eq, eventsFor, eventsFor, hstart']
  cases hstart : b.start? traced .working source with
  | none => exact ⟨rfl, rfl⟩
  | some start =>
    obtain ⟨m, s⟩ := start
    obtain ⟨-, -, -, hm, rfl⟩ := start?_eq_some hstart
    have hfew : ∀ fuel, (outputs (m.eventsFor fuel (m.start b.tape.reset source))).length ≤
        capacity := by
      intro fuel
      by_contra many
      refine few ⟨fuel, ?_⟩
      rw [eventsFor, hstart]
      exact Nat.lt_of_not_le many
    obtain ⟨hrun, hevents⟩ := Machine.limited_of_few (congrArg Machine.sink hm)
      (m.counted_start _ _) hfew message fuel
    refine ⟨?_, hevents⟩
    dsimp only [Option.map_some]
    rw [hrun]
    rfl

/-- Where a run puts out more than an output accepts, it ends in front of the first character that
is too many, with an error that has the position of this output and with the input, the tape and
the events as they are there. -/
theorem execute_limited_of_many (many : b.EmitsBeyond capacity traced source) (message : String) :
    ∃ m s t ip fuel, b.start? traced .working source = some (m, s) ∧ m.NextOutput capacity s t ip ∧
      b.execute traced (.limited capacity message) source fuel =
        some ⟨.error (.io ip message), ⟨b.code, some m.program, t.tape⟩, t.source, t.events⟩ := by
  obtain ⟨fuel, hfuel⟩ := many
  have hstart' := start?_withSink b traced (.limited capacity message) source
  unfold eventsFor at hfuel
  cases hstart : b.start? traced .working source with
  | none =>
    rw [hstart] at hfuel
    exact absurd hfuel (Nat.not_lt_zero _)
  | some start =>
    obtain ⟨m, s⟩ := start
    rw [hstart] at hfuel hstart'
    obtain ⟨-, -, -, hm, rfl⟩ := start?_eq_some hstart
    obtain ⟨t, ip, next, fuel', ends⟩ := Machine.exists_nextOutput (congrArg Machine.sink hm)
      (m.counted_start _ _) (Nat.zero_le _) hfuel message
    refine ⟨m, _, t, ip, fuel', rfl, next, ?_⟩
    rw [execute_of_start hstart', ends]
    rfl

/-- The loop of `+[.]` goes on until its output is closed behind the fifth character. -/
example : ((ofText "+[.]" 1).execute false (.limited 5 "closed") (.queue []) 20).map
    (fun o => (o.result, outputs o.events)) =
    some (.error (.io 2 "closed"), List.replicate 5 '\x01') := by
  decide +kernel

end Interpreter

/-! ## Programs -/

namespace CommandLine

theorem outputText_push_output (events : Array Event) (c : Char) :
    outputText (events.push (.output c)) = (outputText events).push c := by
  unfold outputText
  rw [Array.foldl_push]

theorem outputText_push_of_ne_output {e : Event} (h : ∀ c, e ≠ .output c) (events : Array Event) :
    outputText (events.push e) = outputText events := by
  unfold outputText
  rw [Array.foldl_push]
  cases e with
  | output c => exact absurd rfl (h c)
  | input answer | trace line => rfl

theorem outputText_eq (events : Array Event) : outputText events = String.ofList (outputs events) := by
  obtain ⟨es, rfl⟩ : ∃ es : List Event, events = es.toArray := ⟨events.toList, rfl⟩
  induction es using List.reverseRecOn with
  | nil => rfl
  | append_singleton es e ih =>
    rw [← List.push_toArray]
    cases e with
    | output c =>
      rw [outputText_push_output, outputs_push_output, ih, ← String.toList_inj]
      simp
    | input answer | trace line =>
      rw [outputText_push_of_ne_output (by simp), outputs_push_of_ne_output (by simp), ih]

/-- The world with another output. -/
def World.withOutput (sink : Sink) (w : World) : World := { w with stdout := sink }

namespace Plan

variable {plan : Plan} {w : World} {capacity : ℕ}

/-- There is a run in a plan, and it puts out more than `k` characters where the output works. -/
def EmitsBeyond (k : ℕ) (w : World) : Plan → Prop
  | stop _ _ => False
  | run task =>
    ∃ code, task.code.text w.readFile = .ok code ∧
      (Interpreter.ofText code (w.environment.resolveMemorySize task.memorySize)).EmitsBeyond k
        task.traced (.stream w.stdin)

/-- There is a run in a plan, and it puts out something where the output works. -/
def Emits (w : World) : Plan → Prop
  | stop _ _ => False
  | run task =>
    ∃ code, task.code.text w.readFile = .ok code ∧
      (Interpreter.ofText code (w.environment.resolveMemorySize task.memorySize)).Emits task.traced
        (.stream w.stdin)

theorem emitsBeyond_zero_iff : plan.EmitsBeyond 0 w ↔ plan.Emits w := by
  cases plan with
  | stop status text => exact Iff.rfl
  | run task => simp only [EmitsBeyond, Emits, Interpreter.emitsBeyond_zero_iff]

/-- A plan that puts out no more than an output accepts does not depend on it. -/
theorem perform_limited_of_few (few : ¬ plan.EmitsBeyond capacity w) (message program : String)
    (fuel : ℕ) :
    plan.perform program (w.withOutput (.limited capacity message)) fuel =
      plan.perform program (w.withOutput .working) fuel := by
  cases plan with
  | stop status text => rfl
  | run task =>
    unfold perform World.withOutput
    dsimp only
    cases htext : task.code.text w.readFile with
    | error unreadable => rfl
    | ok code =>
      have same := Interpreter.execute_limited_of_few
        (fun many => few ⟨code, htext, many⟩) message fuel
      dsimp only
      rw [same.1]

/-- A plan that puts out more than an output accepts ends with status 1, and what is accepted has
come out. -/
theorem perform_limited_of_many (many : plan.EmitsBeyond capacity w) (message program : String) :
    ∃ fuel e, plan.perform program (w.withOutput (.limited capacity message)) fuel = some e ∧
      e.status = 1 ∧ e.stdout.length = capacity := by
  cases plan with
  | stop status text => exact many.elim
  | run task =>
    obtain ⟨code, htext, many⟩ := many
    obtain ⟨m, s, t, ip, fuel, -, next, ended⟩ :=
      Interpreter.execute_limited_of_many many message
    have hperform : (run task).perform program (w.withOutput (.limited capacity message)) fuel =
        some (Exit.ofOutcome program
          ⟨.error (.io ip message), ⟨code, some m.program, t.tape⟩, t.source, t.events⟩) := by
      unfold perform World.withOutput
      dsimp only
      rw [htext]
      dsimp only
      rw [ended]
      rfl
    refine ⟨fuel, _, hperform, rfl, ?_⟩
    change (outputText t.events).length = capacity
    rw [outputText_eq, String.length_ofList, next.count]

/-- A plan that puts out nothing does not depend on whether the output fails. -/
theorem perform_failing_of_not_emits (silent : ¬ plan.Emits w) (message program : String)
    (fuel : ℕ) :
    plan.perform program (w.withOutput (.failing message)) fuel =
      plan.perform program (w.withOutput .working) fuel :=
  perform_limited_of_few (mt emitsBeyond_zero_iff.1 silent) message program fuel

/-- A plan that puts out something ends with status 1 where the output fails. -/
theorem perform_failing_of_emits (emits : plan.Emits w) (message program : String) :
    ∃ fuel e, plan.perform program (w.withOutput (.failing message)) fuel = some e ∧
      e.status = 1 ∧ e.stdout = "" := by
  obtain ⟨fuel, e, ended, hstatus, hlength⟩ :=
    perform_limited_of_many (emitsBeyond_zero_iff.2 emits) message program
  exact ⟨fuel, e, ended, hstatus, String.length_eq_zero_iff.1 hlength⟩

end Plan

end CommandLine

/-- A failing output makes no difference to a run that puts out nothing.  Any other run it ends in
front of the first output, with an error that has the position of this output and with the input and
the tape as they are there, and the programs end with status 1. -/
theorem failing_output_stops_run (message : String) :
    (∀ (b : Interpreter) (traced : Bool) (source : Source),
      (¬ b.Emits traced source → ∀ fuel,
        b.execute traced (.failing message) source fuel = b.execute traced .working source fuel ∧
        b.eventsFor traced (.failing message) source fuel =
          b.eventsFor traced .working source fuel) ∧
      (b.Emits traced source → ∃ m s t ip fuel o,
        b.start? traced .working source = some (m, s) ∧ m.FirstOutput s t ip ∧
        b.execute traced (.failing message) source fuel = some o ∧
        o.result = .error (.io ip message) ∧ o.source = t.source ∧
        o.interpreter.tape = t.tape ∧ o.events = t.events)) ∧
    (∀ (program : String) (words : List String) (w : CommandLine.World),
      (¬ (CommandLine.Plan.ofCommands program words).Emits w → ∀ fuel,
        CommandLine.runCommands program words (w.withOutput (.failing message)) fuel =
          CommandLine.runCommands program words (w.withOutput .working) fuel) ∧
      ((CommandLine.Plan.ofCommands program words).Emits w → ∃ fuel e,
        CommandLine.runCommands program words (w.withOutput (.failing message)) fuel = some e ∧
          e.status = 1 ∧ e.stdout = "") ∧
      (¬ (CommandLine.Plan.ofCode program words).Emits w → ∀ fuel,
        CommandLine.runCode program words (w.withOutput (.failing message)) fuel =
          CommandLine.runCode program words (w.withOutput .working) fuel) ∧
      ((CommandLine.Plan.ofCode program words).Emits w → ∃ fuel e,
        CommandLine.runCode program words (w.withOutput (.failing message)) fuel = some e ∧
          e.status = 1 ∧ e.stdout = "")) := by
  refine ⟨fun b traced source => ⟨fun silent fuel => ?_, fun emits => ?_⟩,
    fun program words w => ⟨fun silent fuel => ?_, fun emits => ?_, fun silent fuel => ?_,
      fun emits => ?_⟩⟩
  · exact Interpreter.execute_limited_of_few (mt Interpreter.emitsBeyond_zero_iff.1 silent) message
      fuel
  · obtain ⟨m, s, t, ip, fuel, hstart, next, ended⟩ :=
      Interpreter.execute_limited_of_many (Interpreter.emitsBeyond_zero_iff.2 emits) message
    exact ⟨m, s, t, ip, fuel, _, hstart, next.first, ended, rfl, rfl, rfl, rfl⟩
  · exact CommandLine.Plan.perform_failing_of_not_emits silent message program fuel
  · exact CommandLine.Plan.perform_failing_of_emits emits message program
  · exact CommandLine.Plan.perform_failing_of_not_emits silent message program fuel
  · exact CommandLine.Plan.perform_failing_of_emits emits message program

/-- The run of `+[.]` goes on for ever where its output works.  In `+<.` the error comes first. -/
theorem failing_output_stops_endless_run :
    (Interpreter.ofText "+[.]" 1).Emits false (.queue []) ∧
    (∃ m s t o, Machine.FirstOutput m s t 2 ∧
      (Interpreter.ofText "+[.]" 1).execute false (.failing "closed") (.queue []) 3 = some o ∧
      o.result = .error (.io 2 "closed") ∧ o.interpreter.tape = t.tape) ∧
    ¬ (Interpreter.ofText "+<." 1).Emits false (.queue []) ∧
    (∀ fuel, (Interpreter.ofText "+<." 1).execute false (.failing "closed") (.queue []) fuel =
      (Interpreter.ofText "+<." 1).execute false .working (.queue []) fuel) ∧
    ∃ w : CommandLine.World, ∃ fuel e,
      CommandLine.runCommands "bf" ["run", "-m", "1", "+[.]"] (w.withOutput (.failing "closed"))
        fuel = some e ∧ e.status = 1 := by
  have emits : (Interpreter.ofText "+[.]" 1).Emits false (.queue []) := ⟨3, by decide +kernel⟩
  have silent : ¬ (Interpreter.ofText "+<." 1).Emits false (.queue []) := by
    have ended : (Interpreter.ofText "+<." 1).execute false .working (.queue []) 2 =
        some ⟨.error (.pointerUnderflow 1), _, _, #[]⟩ := rfl
    rw [Interpreter.emits_iff_of_execute ended]
    decide
  refine ⟨emits, ?_, silent,
    fun fuel => (((failing_output_stops_run "closed").1 _ _ _).1 silent fuel).1, ?_⟩
  · obtain ⟨m, s, t, ip, fuel, o, -, first, ended, hresult, -, htape, -⟩ :=
      ((failing_output_stops_run "closed").1 _ _ _).2 emits
    have ended' : (Interpreter.ofText "+[.]" 1).execute false (.failing "closed") (.queue []) 3 =
        some ⟨.error (.io 2 "closed"), _, _, _⟩ := rfl
    obtain rfl := Interpreter.execute_unique ended ended'
    cases hresult
    exact ⟨m, s, t, _, first, ended', rfl, htape⟩
  · let w : CommandLine.World :=
      ⟨⟨none, false, none, none⟩, fun _ => .error "", ⟨[], none⟩, .working⟩
    have hplan : CommandLine.Plan.ofCommands "bf" ["run", "-m", "1", "+[.]"] =
        .run ⟨.words ["+[.]"], some 1, false⟩ := by
      decide +kernel
    have emits : (CommandLine.Plan.ofCommands "bf" ["run", "-m", "1", "+[.]"]).Emits w := by
      rw [hplan]
      exact ⟨"+[.]", rfl, 3, by decide +kernel⟩
    obtain ⟨fuel, e, ended, hstatus, -⟩ :=
      ((failing_output_stops_run "closed").2 "bf" ["run", "-m", "1", "+[.]"] w).2.1 emits
    exact ⟨w, fuel, e, ended, hstatus⟩

end Brainfuck
