import Brainfuck.Proofs.InputPaths
import Brainfuck.Text.Split

/-!
# Copying the input

The program `,[.,]` stores a character in a cell, puts it out from there and asks for the next one,
until the character is U+0000 or there is none.  Between its rounds nothing but the character in the
cell, what is left of the input and what has come out matters (`Copying.At`); the induction is on
the characters that have come out so far (`Copying.reaches_loop`).  A queue and a stream of bytes
are the same to it (`Source.Gives`).  The statement for whole runs is `Interpreter.copies_input`.
-/

namespace Brainfuck

open Machine

variable {n ip : ℕ} {c d : Char} {cs out : List Char} {source rest : Source}

/-- A character survives in a cell. -/
theorem cellChar_toNat (c : Char) : cellChar c.toNat = c := by
  have valid : c.toNat.isValidChar := c.valid
  rw [cellChar, if_pos valid, Char.ofNat_toNat]

/-! ## Inputs -/

namespace Source

/-- An input of the characters `cs`: they are in a queue, or a stream delivers their encodings. -/
inductive Gives : Source → List Char → Prop
  | queue (cs : List Char) : Gives (.queue (cs.map some)) cs
  | stream {s : ByteStream} {cs : List Char} : s.Delivers (Utf8.encode cs) → Gives (.stream s) cs

/-- The input `rest` is left of an input when the characters `cs`, and nothing behind them, are
taken from it. -/
inductive Takes : Source → (cs : List Char) → (rest : Source) → Prop
  | queue (cs : List Char) (items : List (Option Char)) :
      Takes (.queue (cs.map some ++ items)) cs (.queue items)
  | stream {s t : ByteStream} {cs : List Char} : s.Consumes ((Utf8.encode cs).map .byte) t →
      Takes (.stream s) cs (.stream t)

theorem Takes.trans {left : Source} {ds : List Char} (h : source.Takes cs left)
    (h' : left.Takes ds rest) : source.Takes (cs ++ ds) rest := by
  cases h with
  | queue cs items =>
    cases h' with
    | queue ds items =>
      rw [← List.append_assoc, ← List.map_append]
      exact .queue (cs ++ ds) items
  | stream consumes =>
    cases h' with
    | stream consumes' =>
      refine .stream ?_
      rw [Utf8.encode, List.flatMap_append, List.map_append]
      exact consumes.trans consumes'

theorem Gives.readChar_cons (h : source.Gives (c :: cs)) :
    ∃ rest, source.readChar = (.char c, rest) ∧ source.Takes [c] rest ∧ rest.Gives cs := by
  generalize hall : c :: cs = all at h
  cases h with
  | queue all =>
    subst hall
    exact ⟨.queue (cs.map some), rfl, .queue [c] (cs.map some), .queue cs⟩
  | @stream s all delivers =>
    subst hall
    obtain ⟨t, hread, consumes, delivers'⟩ := ByteStream.readChar_eq_char delivers
    refine ⟨.stream t, by rw [readChar, hread], .stream ?_, .stream delivers'⟩
    simpa using consumes

theorem Gives.readChar_nil (h : source.Gives []) :
    ∃ rest, source.readChar = (.endOfInput, rest) := by
  generalize hall : [] = all at h
  cases h with
  | queue all =>
    subst hall
    exact ⟨_, rfl⟩
  | @stream s all delivers =>
    subst hall
    have hread := ByteStream.readChar_nil delivers
    exact ⟨.stream s.readChar.2, by rw [readChar, ← hread]⟩

end Source

/-! ## Steps -/

namespace Machine

variable {m : Machine} {s : State}

/-- An instruction that is carried out leads to the next state, and its event is put out if it is an
output. -/
theorem advances_of_completed {i : Instruction} {event : Option Event} {action : Trace.Action}
    {next : ℕ} {tape : Tape} (hget : m.program.get? s.ip = some i)
    (heffect : m.effect i s.ip s.tape s.source s.written = .completed event action next tape rest) :
    ∃ t, m.Advances s t ∧ t.ip = next ∧ t.tape = tape ∧ t.source = rest ∧
      outputs t.events = outputs (record event s.events) := by
  have hstep := step_eq_of_get? hget
  rw [heffect, Effect.step] at hstep
  refine ⟨_, hstep, rfl, rfl, rfl, ?_⟩
  dsimp only
  split
  · exact outputs_push_of_ne_output (by simp) _
  · rfl

end Machine

/-- The program `,[.,]`. -/
def Program.copying : Program :=
  ⟨#[.read, .loopStart, .write, .read, .loopEnd], #[none, some 4, none, none, some 1]⟩

namespace Copying

theorem parse_text : Program.parse ",[.,]" = .ok .copying := by decide +kernel

/-- The machine that runs the program. -/
def machine (traced : Bool) : Machine := ⟨.copying, .working, traced⟩

/-- The machine stands at index `ip` with the character `c` in the current cell of `n`; the input
`source` is left and the characters `out` have come out. -/
structure At (n ip : ℕ) (c : Char) (source : Source) (out : List Char) (s : State) : Prop where
  ip : s.ip = ip
  bounded : s.tape.Bounded n
  cell : s.tape.get? = some c.toNat
  source : s.source = source
  outputs : outputs s.events = out

variable (traced : Bool) {s : State}

namespace At

theorem get?_eq (h : At n ip c source out s) :
    (machine traced).program.get? s.ip = Program.copying.get? ip := by
  rw [h.ip]
  rfl

/-- A `,` with a character to come stores it. -/
theorem read (h : At n ip c source out s) (hget : Program.copying.get? ip = some .read)
    (hread : source.readChar = (.char d, rest)) :
    ∃ t, (machine traced).Advances s t ∧ At n (ip + 1) d rest out t := by
  have heffect : (machine traced).effect .read s.ip s.tape s.source s.written =
      .completed (some (.input (.char d))) (.stored d s.tape.pointer) (s.ip + 1)
        (s.tape.put d.toNat) rest := by
    rw [h.source, effect_read hread, Effect.ofAnswer, h.bounded.set_toNat_eq d]
  obtain ⟨t, advances, hip, htape, hsource, houtputs⟩ :=
    advances_of_completed ((h.get?_eq traced).trans hget) heffect
  refine ⟨t, advances, by rw [hip, h.ip], ?_, ?_, hsource, ?_⟩
  · rw [htape, ← h.bounded.put_eq]
    exact h.bounded.write (toNat_le_cellMax d)
  · rw [htape, h.bounded.get?_put]
  · rw [houtputs, record, outputs_push_of_ne_output (by simp), h.outputs]

/-- A `,` without one is the end. -/
theorem read_nothing (h : At n ip c source out s) (hget : Program.copying.get? ip = some .read)
    (gives : source.Gives []) :
    ∃ t, (machine traced).Ends s (.error (.input ip)) t ∧ Brainfuck.outputs t.events = out := by
  obtain ⟨rest, hread⟩ := gives.readChar_nil
  rw [← h.source] at hread
  have hstep := step_read_of_no_char ((h.get?_eq traced).trans hget) hread (.inl rfl)
  rw [h.ip] at hstep
  refine ⟨_, ends_of_halted hstep, ?_⟩
  rw [outputs_push_of_ne_output (by simp), h.outputs]

/-- An instruction that does not read keeps the tape and the input, and puts out its event. -/
theorem advances {i : Instruction} {event : Option Event} {action : Trace.Action} {next : ℕ}
    (h : At n ip c source out s) (hget : Program.copying.get? ip = some i)
    (heffect : (machine traced).effect i s.ip s.tape s.source s.written =
      .completed event action next s.tape s.source) :
    ∃ t, (machine traced).Advances s t ∧
      At n next c source (Brainfuck.outputs (record event s.events)) t := by
  obtain ⟨t, advances, hip, htape, hsource, houtputs⟩ :=
    advances_of_completed ((h.get?_eq traced).trans hget) heffect
  refine ⟨t, advances, hip, ?_, ?_, hsource.trans h.source, houtputs⟩
  · rw [htape]
    exact h.bounded
  · rw [htape]
    exact h.cell

/-- The loop is entered with any character but U+0000. -/
theorem enter (h : At n 1 c source out s) (hc : c ≠ '\x00') :
    ∃ t, (machine traced).Advances s t ∧ At n 2 c source out t := by
  have nonzero : c.toNat ≠ 0 := fun hzero => hc (Char.toNat_inj.1 hzero)
  have heffect : (machine traced).effect .loopStart s.ip s.tape s.source s.written =
      .completed none .entered 2 s.tape s.source := by
    simp [effect, h.cell, h.ip, nonzero]
  have next := h.advances traced rfl heffect
  rwa [record, h.outputs] at next

/-- With U+0000 the loop is left. -/
theorem skip (h : At n 1 '\x00' source out s) :
    ∃ t, (machine traced).Advances s t ∧ At n 5 '\x00' source out t := by
  have heffect : (machine traced).effect .loopStart s.ip s.tape s.source s.written =
      .completed none (.skipped 4) 5 s.tape s.source := by
    simp only [effect, h.cell, h.ip]
    rfl
  have next := h.advances traced rfl heffect
  rwa [record, h.outputs] at next

theorem back (h : At n 4 c source out s) :
    ∃ t, (machine traced).Advances s t ∧ At n 1 c source out t := by
  have heffect : (machine traced).effect .loopEnd s.ip s.tape s.source s.written =
      .completed none (.returned 1) 1 s.tape s.source := by
    simp only [effect, h.ip]
    rfl
  have next := h.advances traced rfl heffect
  rwa [record, h.outputs] at next

/-- The character comes out of the cell as it was stored. -/
theorem write (h : At n 2 c source out s) :
    ∃ t, (machine traced).Advances s t ∧ At n 3 c source (out ++ [c]) t := by
  have heffect : (machine traced).effect .write s.ip s.tape s.source s.written =
      .completed (some (.output c)) (.output c c.toNat) 3 s.tape s.source := by
    simp only [effect, h.cell, h.ip, Option.getD_some, cellChar_toNat]
    rfl
  have next := h.advances traced rfl heffect
  rwa [record, outputs_push_output, h.outputs] at next

/-- Behind the program a line break comes out. -/
theorem finish (h : At n 5 c source out s) :
    ∃ t, (machine traced).Ends s (.ok ()) t ∧ t.source = source ∧
      Brainfuck.outputs t.events = out ++ ['\n'] := by
  have hstep : (machine traced).step s = .halted (.ok ())
      { s with written := s.written + 1, events := s.events.push (.output '\n') } :=
    step_eq_finish ((h.get?_eq traced).trans rfl)
  refine ⟨_, ends_of_halted hstep, h.source, ?_⟩
  rw [outputs_push_output, h.outputs]

end At

/-! ## Runs -/

variable {before after : List Char}

/-- When characters other than U+0000 have come out, the next one is in the cell. -/
theorem reaches_loop (h : At n 0 '\x00' source [] s) (nonzero : '\x00' ∉ before)
    (gives : source.Gives (before ++ c :: after)) :
    ∃ t rest, (machine traced).Reaches s t ∧ At n 1 c rest before t ∧
      source.Takes (before ++ [c]) rest ∧ rest.Gives after := by
  -- A round puts out the character that was read in the round before it.
  induction before using List.reverseRecOn generalizing c after with
  | nil =>
    obtain ⟨rest, hread, takes, hrest⟩ := gives.readChar_cons
    obtain ⟨t, first, ht⟩ := h.read traced rfl hread
    exact ⟨t, rest, .single first, ht, takes, hrest⟩
  | append_singleton before b ih =>
    rw [List.mem_append, not_or, List.mem_singleton] at nonzero
    rw [List.append_assoc] at gives
    obtain ⟨s₁, rest, reached, h₁, takes, hrest⟩ := ih nonzero.1 gives
    obtain ⟨rest', hread, takes', hrest'⟩ := hrest.readChar_cons
    obtain ⟨s₂, enter, h₂⟩ := h₁.enter traced (Ne.symm nonzero.2)
    obtain ⟨s₃, write, h₃⟩ := h₂.write traced
    obtain ⟨s₄, read, h₄⟩ := h₃.read traced rfl hread
    obtain ⟨s₅, back, h₅⟩ := h₄.back traced
    exact ⟨s₅, rest', (((reached.tail enter).tail write).tail read).tail back, h₅,
      takes.trans takes', hrest'⟩

/-- At U+0000 the program is over. -/
theorem ends_at_zero (h : At n 0 '\x00' source [] s) (nonzero : '\x00' ∉ before)
    (gives : source.Gives (before ++ '\x00' :: after)) :
    ∃ t, (machine traced).Ends s (.ok ()) t ∧ outputs t.events = before ++ ['\n'] ∧
      source.Takes (before ++ ['\x00']) t.source ∧ t.source.Gives after := by
  obtain ⟨s₁, rest, reached, h₁, takes, hrest⟩ := reaches_loop traced h nonzero gives
  obtain ⟨s₂, skip, h₂⟩ := h₁.skip traced
  obtain ⟨t, ends, rfl, houtputs⟩ := h₂.finish traced
  exact ⟨t, ends_of_reaches (reached.tail skip) ends, houtputs, takes, hrest⟩

/-- Without U+0000 the first request behind the last character is the end. -/
theorem ends_used_up (h : At n 0 '\x00' source [] s) (nonzero : '\x00' ∉ cs)
    (gives : source.Gives cs) :
    ∃ t, (machine traced).Ends s (.error (.input (if cs = [] then 0 else 3))) t ∧
      outputs t.events = cs := by
  rcases List.eq_nil_or_concat' cs with rfl | ⟨before, c, rfl⟩
  · exact h.read_nothing traced rfl gives
  · rw [List.mem_append, not_or, List.mem_singleton] at nonzero
    obtain ⟨s₁, rest, reached, h₁, -, hrest⟩ := reaches_loop traced h nonzero.1 gives
    obtain ⟨s₂, enter, h₂⟩ := h₁.enter traced (Ne.symm nonzero.2)
    obtain ⟨s₃, write, h₃⟩ := h₂.write traced
    obtain ⟨t, ends, houtputs⟩ := h₃.read_nothing traced rfl hrest
    rw [if_neg (by simp)]
    exact ⟨t, ends_of_reaches ((reached.tail enter).tail write) ends, houtputs⟩

end Copying

namespace Interpreter

open Copying

/-- The first state of a run of the program. -/
theorem start?_copying (positive : 1 ≤ n) (traced : Bool) (source : Source) :
    ∃ s, (ofText ",[.,]" n).start? traced .working source = some (Copying.machine traced, s) ∧
      Copying.At n 0 '\x00' source [] s := by
  have hsize : (ofText ",[.,]" n).tape.size = n := Array.size_replicate
  have hstart := start?_of_load (b := ofText ",[.,]" n) parse_text (by decide)
    (by rw [hsize]; exact positive) traced .working source
  have htape : (ofText ",[.,]" n).tape.reset = .zeros n := by rw [Tape.reset, hsize]
  rw [htape] at hstart
  refine ⟨_, hstart, rfl, Tape.bounded_zeros positive, ?_, rfl, ?_⟩
  · exact (Array.getElem?_replicate ..).trans (if_pos positive)
  · cases traced <;> rfl

/-- Characters survive the way from the input through a cell to the output: those in front of the
first U+0000 come out unchanged and in order.  At U+0000 the run is over and leaves what is behind
it in the input; where there is none, the request behind the last character is the end. -/
theorem copies_input (positive : 1 ≤ n) (traced : Bool) (gives : source.Gives cs) :
    ∃ fuel o, (ofText ",[.,]" n).execute traced .working source fuel = some o ∧
      (∀ before after, cs = before ++ '\x00' :: after → '\x00' ∉ before →
        o.result = .ok () ∧ outputs o.events = before ++ ['\n'] ∧
        source.Takes (before ++ ['\x00']) o.source ∧ o.source.Gives after) ∧
      ('\x00' ∉ cs →
        o.result = .error (.input (if cs = [] then 0 else 3)) ∧ outputs o.events = cs) := by
  obtain ⟨s, hstart, h⟩ := start?_copying positive traced source
  by_cases hzero : '\x00' ∈ cs
  · obtain ⟨before, after, rfl, nonzero⟩ := List.eq_append_cons_of_mem hzero
    obtain ⟨t, ⟨fuel, hrun⟩, houtputs, takes, hrest⟩ := ends_at_zero traced h nonzero gives
    refine ⟨fuel, _, by rw [execute_of_start hstart, hrun]; rfl, ?_, fun none => absurd hzero none⟩
    intro before' after' heq nonzero'
    obtain ⟨rfl, rfl⟩ := Text.append_cons_inj nonzero nonzero' heq
    exact ⟨rfl, houtputs, takes, hrest⟩
  · obtain ⟨t, ⟨fuel, hrun⟩, houtputs⟩ := ends_used_up traced h hzero gives
    refine ⟨fuel, _, by rw [execute_of_start hstart, hrun]; rfl, ?_, fun _ => ⟨rfl, houtputs⟩⟩
    rintro before after rfl
    exact absurd (by simp) hzero

/-- The bytes of `é`, U+0000 and `x` come with interruptions, and `x` is left.  A queue of `€` and
`😀` is used up. -/
theorem copies_input_before_zero :
    (∃ s : ByteStream, (Source.stream s).Gives ['é', '\x00', 'x'] ∧
      ∃ fuel o, (ofText ",[.,]" 1).execute false .working (.stream s) fuel = some o ∧
        o.result = .ok () ∧ outputs o.events = ['é', '\n'] ∧
        (Source.stream s).Takes ['é', '\x00'] o.source ∧ o.source.Gives ['x']) ∧
    ∃ fuel o, (ofText ",[.,]" 2).execute true .working (.queue [some '€', some '😀']) fuel = some o ∧
      o.result = .error (.input 3) ∧ outputs o.events = ['€', '😀'] := by
  constructor
  · have gives : (Source.stream ⟨[.interrupted, .byte 0xC3, .interrupted, .byte 0xA9, .byte 0,
        .byte 0x78], none⟩).Gives ['é', '\x00', 'x'] :=
      .stream ⟨rfl, by decide⟩
    obtain ⟨fuel, o, hrun, zero, -⟩ := copies_input le_rfl false gives
    exact ⟨_, gives, fuel, o, hrun, zero ['é'] ['x'] rfl (by decide)⟩
  · obtain ⟨fuel, o, hrun, -, used_up⟩ :=
      copies_input (n := 2) (by decide) true (.queue ['€', '😀'])
    exact ⟨fuel, o, hrun, used_up (by decide)⟩

end Interpreter

end Brainfuck
