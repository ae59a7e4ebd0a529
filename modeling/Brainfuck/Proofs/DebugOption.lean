import Brainfuck.CommandLine.Exit
import Brainfuck.Proofs.Tracing

/-!
# The option for a trace

Where a command line parses and has no option for a trace, putting `--debug` behind its command
changes this option only (`Arguments.parse_debug`).  The program then carries out the same plan with
a trace, and all that is new are the lines of the trace on the error output:
`debug_only_adds_trace`.
-/

namespace Brainfuck.CommandLine

/-! ## Arguments -/

theorem map_eq_ok {α β ε : Type} {f : α → β} {x : Except ε α} {y : β} (h : x.map f = .ok y) :
    ∃ a, x = .ok a ∧ f a = y := by
  cases x with
  | error e => cases h
  | ok a => exact ⟨a, rfl, Except.ok.inj h⟩

namespace RunArguments

variable {a r : RunArguments} {pending pending' : Pending}

/-- The arguments with the option for a trace. -/
def withDebug (a : RunArguments) : RunArguments := { a with debug := true }

theorem add_withDebug {s : Switch} {value : Option String} (h : a.add s value = .ok r)
    (plain : r.debug = false) : a.debug = false ∧ a.withDebug.add s value = .ok r.withDebug := by
  cases s with
  | debug =>
    simp only [add] at h
    split at h <;> cases h
    exact absurd plain nofun
  | help =>
    simp only [add] at h ⊢
    split at h <;> cases h
    next hhelp => exact ⟨plain, if_neg hhelp⟩
  | file =>
    cases value with
    | none => cases h
    | some path =>
      simp only [add] at h ⊢
      split at h <;> cases h
      next hfile => exact ⟨plain, if_neg hfile⟩
  | memorySize =>
    cases value with
    | none => cases h
    | some value =>
      simp only [add] at h ⊢
      split at h
      · cases h
      · next hsize =>
        rw [if_neg (show ¬ a.withDebug.memorySize.isSome = true from hsize)]
        cases hparse : parseMemorySize value <;> rw [hparse] at h <;> cases h
        exact ⟨plain, rfl⟩

theorem settle_withDebug (h : a.settle pending = .ok r) (plain : r.debug = false) :
    a.debug = false ∧ a.withDebug.settle pending = .ok r.withDebug := by
  cases pending with
  | none =>
    cases h
    exact ⟨plain, rfl⟩
  | some x => exact add_withDebug h plain

theorem settle_map_withDebug {α : Type} {f : RunArguments → α} {y : α}
    (h : (a.settle pending).map f = .ok y) (plain : ∀ a', f a' = y → a'.debug = false) :
    a.debug = false ∧ ∃ a', f a' = y ∧ (a.withDebug.settle pending).map f = .ok (f a'.withDebug) := by
  obtain ⟨a', hsettle, hy⟩ := map_eq_ok h
  obtain ⟨hdebug, hsettle'⟩ := settle_withDebug hsettle (plain a' hy)
  rw [hsettle']
  exact ⟨hdebug, a', hy, rfl⟩

theorem addOccurrence_withDebug {o : Occurrence}
    (h : a.addOccurrence pending o = .ok (r, pending')) (plain : r.debug = false) :
    a.debug = false ∧ a.withDebug.addOccurrence pending o = .ok (r.withDebug, pending') := by
  unfold addOccurrence at h ⊢
  split at h
  · cases h
  · obtain ⟨hdebug, a', hr, hsettle⟩ := settle_map_withDebug h fun a' hr => by
      cases hr
      exact plain
    cases hr
    exact ⟨hdebug, hsettle⟩
  · split at h
    · next a' hsettle =>
      obtain ⟨a'', hadd, hr⟩ := map_eq_ok h
      cases hr
      obtain ⟨plain', hadd'⟩ := add_withDebug hadd plain
      obtain ⟨hdebug, hsettle'⟩ := settle_withDebug hsettle plain'
      rw [hsettle']
      dsimp only
      rw [hadd']
      exact ⟨hdebug, rfl⟩
    · cases h

theorem addOccurrences_withDebug {os : List Occurrence}
    (h : a.addOccurrences pending os = .ok (r, pending')) (plain : r.debug = false) :
    a.debug = false ∧ a.withDebug.addOccurrences pending os = .ok (r.withDebug, pending') := by
  induction os generalizing a pending with
  | nil =>
    cases h
    exact ⟨plain, rfl⟩
  | cons o os ih =>
    unfold addOccurrences at h ⊢
    split at h
    · next a' p' hadd =>
      obtain ⟨plain', hrest⟩ := ih h
      obtain ⟨hdebug, hadd'⟩ := addOccurrence_withDebug hadd plain'
      rw [hadd']
      exact ⟨hdebug, hrest⟩
    · cases h

/-- An option for a trace that was given before makes no difference but for itself to words among
which there is none. -/
theorem scan_withDebug {ws : List String} (h : a.scan pending ws = .ok r)
    (plain : r.debug = false) : a.debug = false ∧ a.withDebug.scan pending ws = .ok r.withDebug := by
  induction ws generalizing a pending with
  | nil => exact settle_withDebug h plain
  | cons w ws ih =>
    have hcode : ∀ (code : List String) (a' : RunArguments),
        { a' with code := code } = r → a'.debug = false := by
      rintro code a' rfl
      exact plain
    unfold scan at h ⊢
    split at h
    · obtain ⟨hdebug, a', rfl, hsettle⟩ := settle_map_withDebug h (hcode _)
      exact ⟨hdebug, hsettle⟩
    · split at h
      · next hadd =>
        obtain ⟨plain', hrest⟩ := ih h
        obtain ⟨hdebug, hadd'⟩ := addOccurrences_withDebug hadd plain'
        rw [hadd']
        exact ⟨hdebug, hrest⟩
      · cases h
    · exact ih h
    · obtain ⟨hdebug, a', rfl, hsettle⟩ := settle_map_withDebug h (hcode _)
      exact ⟨hdebug, hsettle⟩

theorem parse_debug {ws : List String} (h : parse ws = .ok r) (plain : r.debug = false) :
    parse ("--debug" :: ws) = .ok r.withDebug := by
  have hrole : Role.ofString "--debug" = .options [⟨.debug, none⟩] := by decide +kernel
  unfold parse scan
  rw [hrole]
  exact (scan_withDebug h plain).2

end RunArguments

namespace Arguments

/-- A word before the command is an option for help if a command is read behind it, and the words
behind it are read on their own. -/
theorem scan_option {v : String} (hv : ¬ isCommand v = true) {help help' : Bool} {ws : List String}
    {a : RunArguments} (h : scan help (v :: ws) = .ok ⟨help', some a⟩) :
    ∃ help₁, ∀ us, scan help (v :: us) = scan help₁ us := by
  unfold scan at h
  rw [if_neg hv] at h
  cases hword : Word.ofString v with
  | plain =>
    rw [hword] at h
    cases h
  | separator =>
    -- Behind a separator there is no command.
    rw [hword] at h
    cases ws with
    | nil => cases h
    | cons w ws =>
      dsimp only at h
      split at h <;> cases h
  | long name value =>
    rw [hword] at h
    dsimp only at h
    split at h
    · cases h
    · next hname =>
      cases value with
      | some value => cases h
      | none =>
        dsimp only at h
        split at h
        · cases h
        · next hhelp =>
          refine ⟨true, fun us => ?_⟩
          rw [scan.eq_def]
          dsimp only
          rw [if_neg hv, hword]
          dsimp only
          rw [if_neg hname, if_neg hhelp]
  | short letters =>
    rw [hword] at h
    cases hletters : scanLetters help letters with
    | error e =>
      simp only [hletters] at h
      cases h
    | ok help₁ =>
      refine ⟨help₁, fun us => ?_⟩
      rw [scan.eq_def]
      simp only [if_neg hv, hword, hletters]

/-- What stands before the command is read without regard to what stands behind it. -/
theorem scan_command {before : List String} {command : String} (hcommand : isCommand command = true)
    (hbefore : ∀ v ∈ before, isCommand v = false) {help help' : Bool} {ws ws' : List String}
    {a a' : RunArguments} (h : scan help (before ++ command :: ws) = .ok ⟨help', some a⟩)
    (replaced : RunArguments.parse ws = .ok a → RunArguments.parse ws' = .ok a') :
    scan help (before ++ command :: ws') = .ok ⟨help', some a'⟩ := by
  induction before generalizing help with
  | nil =>
    unfold scan at h ⊢
    rw [List.nil_append] at h ⊢
    dsimp only at h ⊢
    rw [if_pos hcommand] at h ⊢
    obtain ⟨r, hparse, hr⟩ := map_eq_ok h
    cases hr
    rw [replaced hparse]
    rfl
  | cons v before ih =>
    have hv : ¬ isCommand v = true := by simp [hbefore v List.mem_cons_self]
    have hrest : ∀ u ∈ before, isCommand u = false := fun u hu =>
      hbefore u (List.mem_cons_of_mem v hu)
    rw [List.cons_append] at h ⊢
    obtain ⟨help₁, hscan⟩ := scan_option hv h
    rw [hscan] at h ⊢
    exact ih hrest h

/-- An option for a trace behind the command is read as nothing else. -/
theorem parse_debug {before : List String} {command : String} (hcommand : isCommand command = true)
    (hbefore : ∀ v ∈ before, isCommand v = false) {help : Bool} {ws : List String}
    {a : RunArguments} (h : parse (before ++ command :: ws) = .ok ⟨help, some a⟩)
    (plain : a.debug = false) :
    parse (before ++ command :: "--debug" :: ws) = .ok ⟨help, some a.withDebug⟩ :=
  scan_command hcommand hbefore h fun hws => RunArguments.parse_debug hws plain

end Arguments

/-! ## What is written -/

/-- The line that an event adds to the trace. -/
def lineOf? : Event → Option Trace.Line
  | .trace line => some line
  | _ => none

/-- The lines of the trace among the events. -/
def traceLines (events : Array Event) : List Trace.Line := events.toList.filterMap lineOf?

/-- Lines as they are written. -/
def linesText (lines : List Trace.Line) : String := String.join (lines.map fun l => l.text ++ "\n")

theorem traceText_eq (events : Array Event) : traceText events = linesText (traceLines events) := by
  suffices h : ∀ (es : List Event) (text : String),
      es.foldl (fun text e => match e with
        | .trace line => text ++ line.text ++ "\n"
        | _ => text) text = text ++ linesText (es.filterMap lineOf?) by
    have hnil := h events.toList ""
    rw [String.empty_append, Array.foldl_toList] at hnil
    exact hnil
  intro es
  induction es with
  | nil => intro text; simp [linesText]
  | cons e es ih =>
    intro text
    rw [List.foldl_cons, ih]
    cases e <;> simp [linesText, lineOf?, List.filterMap_cons, String.append_assoc]

theorem traceLines_untraced (events : Array Event) : traceLines (untracedEvents events) = [] := by
  unfold traceLines untracedEvents
  rw [List.filterMap_eq_nil_iff]
  intro e he
  rw [Array.mem_toList_iff, Array.mem_filter] at he
  cases e with
  | trace line => exact absurd he.2 nofun
  | output c | input answer => rfl

/-- The trace is not part of the output. -/
theorem outputText_untraced (events : Array Event) :
    outputText (untracedEvents events) = outputText events := by
  unfold outputText untracedEvents
  rw [Array.foldl_filter]
  congr 1
  funext text e
  cases e <;> rfl

theorem Exit.ofOutcome_untraced (program : String) (o : Outcome) :
    Exit.ofOutcome program o =
      { Exit.ofOutcome program o.untraced with
        stderr := linesText (traceLines o.events) ++ (Exit.ofOutcome program o.untraced).stderr } := by
  have hnone : traceText (untracedEvents o.events) = "" := by
    rw [traceText_eq, traceLines_untraced]
    rfl
  unfold Exit.ofOutcome Outcome.untraced
  cases o.result <;> simp [hnone, outputText_untraced, traceText_eq]

namespace Plan

/-- The plan with a trace, if something is to be run. -/
def withTrace : Plan → Plan
  | stop status message => stop status message
  | run task => run { task with traced := true }

theorem ofRunArguments_withDebug (program : String) (a : RunArguments) :
    ofRunArguments program a.withDebug = (ofRunArguments program a).withTrace := by
  obtain ⟨debug, file, memorySize, help, code⟩ := a
  cases help <;> cases file <;> cases code <;> rfl

/-- The lines of the trace when a plan is carried out with a trace in up to `fuel` steps. -/
def traceLines (w : World) (fuel : ℕ) : Plan → List Trace.Line
  | stop _ _ => []
  | run task =>
    match task.code.text w.readFile with
    | .error _ => []
    | .ok code =>
      let size := w.environment.resolveMemorySize task.memorySize
      match (Interpreter.ofText code size).runTraced w.stdout (.stream w.stdin) fuel with
      | none => []
      | some o => CommandLine.traceLines o.events

/-- The trace of a plan adds its lines to the error output, and nothing else changes. -/
theorem perform_withTrace {plan : Plan} (untraced : ∀ task, plan = run task → task.traced = false)
    (program : String) (w : World) (fuel : ℕ) :
    plan.withTrace.perform program w fuel =
      (plan.perform program w fuel).map fun e =>
        { e with stderr := linesText (plan.traceLines w fuel) ++ e.stderr } := by
  cases plan with
  | stop status message =>
    simp [perform, withTrace, traceLines, linesText]
  | run task =>
    have htraced := untraced task rfl
    unfold perform withTrace traceLines
    dsimp only
    rw [htraced]
    cases htext : task.code.text w.readFile with
    | error unreadable => simp [linesText]
    | ok code =>
      have hrun := Interpreter.runTraced_untraced
        (.ofText code (w.environment.resolveMemorySize task.memorySize)) w.stdout (.stream w.stdin)
        fuel
      dsimp only [Interpreter.run, Interpreter.runTraced] at hrun ⊢
      rw [← hrun]
      cases Interpreter.execute _ true w.stdout (.stream w.stdin) fuel with
      | none => rfl
      | some o => exact congrArg some (Exit.ofOutcome_untraced program o)

theorem traced_of_ofRunArguments {program : String} {a : RunArguments} {task : Task}
    (h : ofRunArguments program a = run task) : task.traced = a.debug := by
  unfold ofRunArguments at h
  split at h
  · cases h
  · split at h <;> cases h <;> rfl

/-- The option for a trace asks for the same thing with a trace. -/
theorem ofCommands_debug {before ws : List String} {command : String}
    (hcommand : Arguments.isCommand command = true)
    (hbefore : ∀ v ∈ before, Arguments.isCommand v = false) {help : Bool} {a : RunArguments}
    (h : Arguments.parse (before ++ command :: ws) = .ok ⟨help, some a⟩) (plain : a.debug = false)
    (program : String) :
    ofCommands program (before ++ command :: "--debug" :: ws) =
        (ofCommands program (before ++ command :: ws)).withTrace ∧
      ∀ task, ofCommands program (before ++ command :: ws) = run task → task.traced = false := by
  have h' := Arguments.parse_debug hcommand hbefore h plain
  unfold ofCommands
  rw [h, h']
  cases help with
  | true => exact ⟨rfl, fun _ hstop => by cases hstop⟩
  | false =>
    refine ⟨ofRunArguments_withDebug program a, fun task hrun => ?_⟩
    exact (traced_of_ofRunArguments hrun).trans plain

end Plan

/-- A trace changes nothing in a run but for its own lines, and the option for it changes nothing in
what the program does but for these lines in front of what it writes to the error output. -/
theorem debug_only_adds_trace :
    (∀ (b : Interpreter) (sink : Sink) (source : Source) (fuel : ℕ),
      (b.runTraced sink source fuel).map Outcome.untraced = b.run sink source fuel ∧
      untracedEvents (b.eventsFor true sink source fuel) = b.eventsFor false sink source fuel) ∧
    (∀ (before ws : List String) (command : String) (help : Bool) (a : RunArguments),
      Arguments.isCommand command = true → (∀ v ∈ before, Arguments.isCommand v = false) →
      Arguments.parse (before ++ command :: ws) = .ok ⟨help, some a⟩ → a.debug = false →
      ∀ (program : String) (w : World) (fuel : ℕ),
        runCommands program (before ++ command :: "--debug" :: ws) w fuel =
          (runCommands program (before ++ command :: ws) w fuel).map fun e =>
            { e with
              stderr := linesText
                ((Plan.ofCommands program (before ++ command :: ws)).traceLines w fuel) ++
                e.stderr }) := by
  refine ⟨fun b sink source fuel => ⟨b.runTraced_untraced sink source fuel,
    b.eventsFor_untraced sink source fuel⟩, ?_⟩
  intro before ws command help a hcommand hbefore parsed plain program w fuel
  obtain ⟨hplan, untraced⟩ := Plan.ofCommands_debug hcommand hbefore parsed plain program
  unfold runCommands
  rw [hplan]
  exact Plan.perform_withTrace untraced program w fuel

/-- The trace of `+` is written although the output fails at the end of the program. -/
theorem debug_only_adds_trace_of_failing_output :
    ∃ w : World, w.stdout = .failing "closed" ∧
      Arguments.parse ["run", "-m", "2", "+"] =
        .ok ⟨false, some ⟨false, none, some 2, false, ["+"]⟩⟩ ∧
      (Plan.ofCommands "bf" ["run", "-m", "2", "+"]).traceLines w 2 =
        [.columns, .rule, .row ⟨0, 0, 0, 0, .increment, .incremented 0 0 1⟩] ∧
      runCommands "bf" ["run", "--debug", "-m", "2", "+"] w 2 =
        (runCommands "bf" ["run", "-m", "2", "+"] w 2).map fun e =>
          { e with
            stderr := linesText ((Plan.ofCommands "bf" ["run", "-m", "2", "+"]).traceLines w 2) ++
              e.stderr } := by
  have parsed : Arguments.parse ["run", "-m", "2", "+"] =
      .ok ⟨false, some ⟨false, none, some 2, false, ["+"]⟩⟩ := by
    decide +kernel
  refine ⟨⟨⟨none, false, none, none⟩, fun _ => .error "", ⟨[], none⟩, .failing "closed"⟩, rfl,
    parsed, by decide +kernel, ?_⟩
  exact debug_only_adds_trace.2 [] ["-m", "2", "+"] "run" false _ (by decide +kernel) nofun parsed
    rfl "bf" _ 2

end Brainfuck.CommandLine
