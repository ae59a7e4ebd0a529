import Brainfuck.Proofs.Decoding
import Brainfuck.Proofs.Demand
import Brainfuck.Proofs.Lockstep

/-!
# The two ways to give input

A stream of bytes and the queue of the characters of its longest prefix of whole characters are the
same input to a program (`Machine.Mirrors`).  The two runs are in lockstep as long as they ask for
these characters, and a further request is the end of both: `Interpreter.stream_agrees_with_queue`.
-/

namespace Brainfuck

/-- The two outcomes have the same result, tape and output. -/
structure Outcome.Agrees (o o' : Outcome) : Prop where
  result : o.result = o'.result
  interpreter : o.interpreter = o'.interpreter
  outputs : outputs o.events = outputs o'.events

namespace Machine

variable {m : Machine} {s s' t t' : State} {cs : List Char} {stream : ByteStream}
  {bytes : List UInt8}

/-! ## Steps -/

/-- The state `s` has a stream of which the characters `cs` can be read, and `s'` is the same with
these characters in a queue. -/
structure Mirrors (cs : List Char) (s s' : State) : Prop where
  stream : ∃ stream bytes, s.source = .stream stream ∧ stream.Delivers bytes ∧
    Utf8.LongestPrefix cs bytes
  eq : s' = s.withSource (.queue (cs.map some))

/-- The two states have the same tape and have put out the same. -/
structure SameEnd (s s' : State) : Prop where
  tape : s.tape = s'.tape
  outputs : outputs s.events = outputs s'.events

/-- A step and the same step with characters in place of a stream. -/
theorem Step.agree_map {st : Step} (hst : st.state.source = .stream stream)
    (delivers : stream.Delivers bytes) (longest : Utf8.LongestPrefix cs bytes) :
    Step.Agree (Mirrors cs) SameEnd st (st.map (State.withSource (.queue (cs.map some)))) := by
  cases st with
  | next s => exact .next ⟨⟨stream, bytes, hst, delivers, longest⟩, rfl⟩
  | halted result s => exact .halted ⟨rfl, rfl⟩

theorem source_step_of_ne_read (h : m.program.get? s.ip ≠ some .read) :
    (m.step s).state.source = s.source := by
  have hstep : m.step s = (m.step s).map (State.withSource s.source) := step_withSource h s.source
  rw [hstep]
  cases m.step s <;> rfl

/-- A `,` that gets a character depends on it and not on what comes after it. -/
theorem step_read_of_char {c : Char} {rest rest' source' : Source}
    (h : m.program.get? s.ip = some .read) (hread : s.source.readChar = (.char c, rest))
    (hread' : source'.readChar = (.char c, rest')) :
    m.step (s.withSource source') = (m.step s).map (State.withSource rest') ∧
      (m.step s).state.source = rest := by
  have h' : m.program.get? (s.withSource source').ip = some .read := h
  have hread'' : (s.withSource source').source.readChar = (.char c, rest') := hread'
  rw [step_eq_of_get? h, step_eq_of_get? h', effect_read hread, effect_read hread'']
  constructor
  · rw [← Effect.step_withSource m s .read rest' source', Effect.withSource_ofAnswer]
    rfl
  · dsimp only [Effect.ofAnswer]
    cases s.tape.set c.toNat <;> rfl

/-- A `,` that gets no character is the end. -/
theorem step_read_of_no_char {answer : CharRead} {rest : Source}
    (h : m.program.get? s.ip = some .read) (hread : s.source.readChar = (answer, rest))
    (hanswer : answer = .endOfInput ∨ answer = .invalid) :
    m.step s = .halted (.error (.input s.ip))
      { s with source := rest, events := s.events.push (.input answer) } := by
  rw [step_eq_of_get? h, effect_read hread]
  rcases hanswer with rfl | rfl <;> rfl

/-- Steps that ask for a character that is there, or for none, go on in lockstep.  Where there is
none left the next request is the end. -/
theorem step_mirrors (h : Mirrors cs s s') :
    (m.demand s ≤ cs.length ∧
      Step.Agree (Mirrors (cs.drop (m.demand s))) SameEnd (m.step s) (m.step s')) ∨
    (cs.length < m.demand s ∧ ∃ t t', m.step s = .halted (.error (.input s.ip)) t ∧
      m.step s' = .halted (.error (.input s.ip)) t' ∧ SameEnd t t') := by
  obtain ⟨⟨stream, bytes, hs, delivers, longest⟩, rfl⟩ := h
  by_cases hread : m.program.get? s.ip = some .read
  · have hdemand : m.demand s = 1 := if_pos hread
    rw [hdemand]
    cases cs with
    | nil =>
      right
      have hchar : s.source.readChar = (stream.readChar.1, .stream stream.readChar.2) := by
        rw [hs]
        rfl
      have hnone : stream.readChar.1 = .endOfInput ∨ stream.readChar.1 = .invalid := by
        rw [ByteStream.readChar_of_longestPrefix_nil delivers longest]
        split
        · exact .inl rfl
        · exact .inr rfl
      refine ⟨Nat.zero_lt_one, _, _, step_read_of_no_char hread hchar hnone,
        step_read_nil (s := s.withSource (.queue [])) hread rfl, rfl, ?_⟩
      rw [outputs_push_of_ne_output (by simp), outputs_push_of_ne_output (by simp)]
      rfl
    | cons c cs =>
      left
      obtain ⟨rest, rfl, hrest⟩ := longest.exists_of_cons
      obtain ⟨left, hchar, -, hleft⟩ := ByteStream.readChar_eq_char delivers
      have hstream : s.source.readChar = (.char c, .stream left) := by
        rw [hs, Source.readChar, hchar]
      have hqueue : (Source.queue ((c :: cs).map some)).readChar = (.char c, .queue (cs.map some)) :=
        rfl
      obtain ⟨hstep, hsource⟩ := step_read_of_char (m := m) hread hstream hqueue
      rw [hstep]
      exact ⟨Nat.succ_le_succ (Nat.zero_le _), Step.agree_map hsource hleft hrest⟩
  · have hdemand : m.demand s = 0 := if_neg hread
    left
    rw [hdemand, List.drop_zero, step_withSource hread]
    exact ⟨Nat.zero_le _,
      Step.agree_map ((source_step_of_ne_read hread).trans hs) delivers longest⟩

/-! ## Runs -/

theorem runFor_mirrors (h : Mirrors cs s s') (fuel : ℕ) :
    Option.Rel (fun x x' => x.1 = x'.1 ∧ SameEnd x.2 x'.2) (m.runFor fuel s)
      (m.runFor fuel s') := by
  have sim : ∀ s s', (∃ cs, Mirrors cs s s') → False ∨
      Step.Agree (fun s s' => ∃ cs, Mirrors cs s s') SameEnd (m.step s) (m.step s') := by
    -- The runs never part: the request where the characters are used up is the end of both.
    rintro s s' ⟨cs, h⟩
    right
    rcases step_mirrors (m := m) h with ⟨-, agree⟩ | ⟨-, t, t', hstep, hstep', hend⟩
    · generalize m.step s = st, m.step s' = st' at agree
      cases agree with
      | next hnext => exact .next ⟨_, hnext⟩
      | halted hend => exact .halted hend
    · rw [hstep, hstep']
      exact .halted hend
  rcases lockstep (P := fun _ _ => False) sim ⟨cs, h⟩ fuel with ⟨_, _, _, _, _, no⟩ | both
  · exact no.elim
  · exact both

/-- The two runs come to the same requests, and end at the first one beyond the characters. -/
theorem reads_mirrors (h : Mirrors cs s s') (fuel : ℕ) :
    m.reads fuel s = m.reads fuel s' ∧
      (cs.length < m.reads fuel s →
        ∃ ip t, m.runFor fuel s = some (.error (.input ip), t)) := by
  induction fuel generalizing cs s s' with
  | zero => exact ⟨rfl, nofun⟩
  | succ fuel ih =>
    have hdemand : m.demand s' = m.demand s := by rw [h.eq]; rfl
    rcases step_mirrors (m := m) h with ⟨le, agree⟩ | ⟨lt, t, t', hstep, hstep', -⟩
    · generalize hst : m.step s = st, hst' : m.step s' = st' at agree
      cases agree with
      | @next t t' hnext =>
        obtain ⟨same, ends⟩ := ih hnext
        rw [reads_of_advances hst, reads_of_advances hst', hdemand, same]
        refine ⟨rfl, fun beyond => ?_⟩
        rw [runFor_of_advances hst]
        apply ends
        rw [List.length_drop, same]
        omega
      | halted hend =>
        rw [reads_of_halted hst, reads_of_halted hst', hdemand]
        exact ⟨rfl, fun beyond => by omega⟩
    · rw [reads_of_halted hstep, reads_of_halted hstep', hdemand]
      exact ⟨rfl, fun _ => ⟨s.ip, t, runFor_of_halted hstep fuel⟩⟩

end Machine

namespace Interpreter

variable {b : Interpreter} {traced : Bool} {sink : Sink} {stream : ByteStream} {bytes : List UInt8}
  {cs : List Char}

theorem idle_agrees (b : Interpreter) (source source' : Source) :
    (b.idle source).Agrees (b.idle source') := by
  rw [idle_withSource b source source']
  exact ⟨rfl, rfl, rfl⟩

/-- Where a run starts, the first states for a stream and for its characters mirror each other. -/
theorem mirrors_of_start {m : Machine} {s : Machine.State}
    (hstart : b.start? traced sink (.stream stream) = some (m, s)) (delivers : stream.Delivers bytes)
    (longest : Utf8.LongestPrefix cs bytes) :
    Machine.Mirrors cs s (s.withSource (.queue (cs.map some))) := by
  obtain ⟨-, -, -, -, rfl⟩ := start?_eq_some hstart
  exact ⟨⟨stream, bytes, rfl, delivers, longest⟩, rfl⟩

/-- A stream and the queue of its characters give the same run: one ends if the other does, with the
same result, tape and output.  Both come to the same requests for a character, and the first request
beyond the characters is the end of both. -/
theorem stream_agrees_with_queue (b : Interpreter) (traced : Bool) (sink : Sink)
    (delivers : stream.Delivers bytes) (longest : Utf8.LongestPrefix cs bytes) (fuel : ℕ) :
    Option.Rel Outcome.Agrees (b.execute traced sink (.stream stream) fuel)
      (b.execute traced sink (.queue (cs.map some)) fuel) ∧
    b.reads traced sink (.stream stream) fuel = b.reads traced sink (.queue (cs.map some)) fuel ∧
    (cs.length < b.reads traced sink (.stream stream) fuel →
      ∃ o o' ip, b.execute traced sink (.stream stream) fuel = some o ∧
        b.execute traced sink (.queue (cs.map some)) fuel = some o' ∧
        o.result = .error (.input ip) ∧ o'.result = .error (.input ip)) := by
  have hstart' := start?_withSource b traced sink (.stream stream) (.queue (cs.map some))
  cases hstart : b.start? traced sink (.stream stream) with
  | none =>
    rw [hstart] at hstart'
    have hreads : ∀ source, b.start? traced sink source = none →
        b.reads traced sink source fuel = 0 := by
      intro source h
      rw [reads, tried, h]
      rfl
    rw [execute_of_idle hstart, execute_of_idle hstart', hreads _ hstart, hreads _ hstart']
    exact ⟨.some (idle_agrees b _ _), rfl, fun beyond => absurd beyond (Nat.not_lt_zero _)⟩
  | some start =>
    obtain ⟨m, s⟩ := start
    rw [hstart] at hstart'
    have mirrors := mirrors_of_start hstart delivers longest
    obtain ⟨same, ends⟩ := Machine.reads_mirrors (m := m) mirrors fuel
    have related := Machine.runFor_mirrors (m := m) mirrors fuel
    rw [execute_of_start hstart, execute_of_start hstart', reads_of_start hstart,
      reads_of_start hstart']
    dsimp only at related ⊢
    refine ⟨?_, same, fun beyond => ?_⟩
    · generalize m.runFor fuel s = x, m.runFor fuel (s.withSource _) = x' at related
      cases related with
      | none => exact .none
      | some h =>
        refine .some ⟨h.1, ?_, h.2.outputs⟩
        rw [outcomeOf, outcomeOf, h.2.tape]
    · obtain ⟨ip, t, hrun⟩ := ends beyond
      rw [hrun] at related ⊢
      generalize m.runFor fuel (s.withSource _) = x' at related ⊢
      cases related with
      | some h => exact ⟨_, _, ip, rfl, rfl, rfl, h.1.symm⟩

/-- In `,[.,]` the second `,` comes to an encoding that is cut short. -/
theorem stream_agrees_with_queue_before_truncation :
    ∃ o o' : Outcome,
      (ofText ",[.,]" 1).execute false .working (.stream (.ofBytes [0xC3, 0xA9, 0xE2, 0x82])) 4 =
        some o ∧
      (ofText ",[.,]" 1).execute false .working (.queue [some 'é']) 4 = some o' ∧
      o.result = .error (.input 3) ∧ o.Agrees o' := by
  have delivers : (ByteStream.ofBytes [0xC3, 0xA9, 0xE2, 0x82]).Delivers
      [0xC3, 0xA9, 0xE2, 0x82] := ⟨rfl, by decide⟩
  have longest : Utf8.LongestPrefix ['é'] [0xC3, 0xA9, 0xE2, 0x82] :=
    Utf8.LongestPrefix.cons_iff.2 (.nil_of_decode? (n := 2) rfl (by decide))
  obtain ⟨agrees, -, beyond⟩ :=
    stream_agrees_with_queue (ofText ",[.,]" 1) false .working delivers longest 4
  obtain ⟨o, o', ip, ho, ho', -, -⟩ := beyond (by decide +kernel)
  have hresult : ((ofText ",[.,]" 1).execute false .working
      (.stream (.ofBytes [0xC3, 0xA9, 0xE2, 0x82])) 4).map Outcome.result =
      some (.error (.input 3)) := rfl
  rw [ho] at hresult agrees
  rw [ho'] at agrees
  cases agrees with
  | some h => exact ⟨o, o', ho, ho', Option.some.inj hresult, h⟩

end Interpreter

end Brainfuck
