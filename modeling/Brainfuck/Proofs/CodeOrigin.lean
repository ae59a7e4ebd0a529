import Brainfuck.Proofs.CodeFiles
import Brainfuck.Proofs.Comments

/-!
# Where the code comes from

The command `run` takes its code from words or from a file.  The options in front of it are read
without regard to which of the two follows (`RunArguments.parse_optionWords`), and from there on only
the text counts: `code_origin_irrelevant`.  A path is taken as the value of `--file` only if it does
not look like an option or a separator itself (`code_origin_matters_for_hyphens`).
-/

namespace Brainfuck.CommandLine

/-! ## Words -/

/-- An option in front of the code. -/
inductive RunOption where
  | debug
  | memorySize (value : String)

/-- The words of an option, with its name and its value apart. -/
def RunOption.words : RunOption → List String
  | debug => ["--debug"]
  | memorySize value => ["--memory-size", value]

/-- The words of options, in order. -/
def optionWords (os : List RunOption) : List String := os.flatMap RunOption.words

/-- Words that are code where options may stand: there is one, and the first has no hyphen in
front. -/
inductive IsCode : List String → Prop
  | intro {w : String} (ws : List String) : w.toList.head? ≠ some '-' → IsCode (w :: ws)

theorem Word.ofString_of_head? {w : String} (h : w.toList.head? ≠ some '-') : ofString w = plain := by
  unfold ofString
  split
  · next heq => exact absurd (congrArg List.head? heq) h
  · next heq => exact absurd (congrArg List.head? heq) h
  · next heq => exact absurd (congrArg List.head? heq) h
  · rfl

theorem Word.ne_nil_of_ofString {w : String} {letters : List Char} (h : ofString w = short letters) :
    letters ≠ [] := by
  unfold ofString at h
  split at h
  · cases h
  · split at h <;> cases h
  · cases h
    exact List.cons_ne_nil _ _
  · cases h

theorem Occurrence.ne_nil_of_ofLetters? {cs : List Char} {os : List Occurrence} (hcs : cs ≠ [])
    (h : ofLetters? cs = some os) : os ≠ [] := by
  cases cs with
  | nil => exact absurd rfl hcs
  | cons c cs =>
    simp only [ofLetters?] at h
    split at h
    · split at h <;> cases h <;> exact List.cons_ne_nil _ _
    · cases h

namespace Role

theorem ofString_of_head? {w : String} (h : w.toList.head? ≠ some '-') : ofString w = other := by
  rw [ofString, Word.ofString_of_head? h]

/-- A word of options has one at least. -/
theorem ne_nil_of_ofString {w : String} {os : List Occurrence} (h : ofString w = options os) :
    os ≠ [] := by
  unfold ofString at h
  split at h
  · cases h
  · split at h <;> cases h
    exact List.cons_ne_nil _ _
  · next letters hword =>
    split at h
    · next os' hos =>
      cases h
      exact Occurrence.ne_nil_of_ofLetters? (Word.ne_nil_of_ofString hword) hos
    · cases h
  · cases h

end Role

/-! ## Arguments -/

namespace RunArguments

variable {a a' : RunArguments} {pending : Pending}

/-- Nothing is said yet about where the code is, and no help is asked for. -/
structure Bare (a : RunArguments) : Prop where
  file : a.file = none
  help : a.help = false
  code : a.code = []

/-- What is read but not stored yet is at most a memory size, with its value. -/
inductive Settleable : Pending → Prop
  | none : Settleable none
  | memorySize (value : String) : Settleable (some (.memorySize, some value))

/-- No option waits for a value that is still to come. -/
def Filled (pending : Pending) : Prop := ∀ s, pending ≠ some (s, Option.none)

theorem filled_none : Filled none := fun _ => nofun

theorem filled_some (s : Switch) (v : String) : Filled (some (s, some v)) := fun _ => nofun

theorem Settleable.filled (settleable : Settleable pending) : Filled pending := by
  cases settleable with
  | none => exact filled_none
  | memorySize value => exact filled_some .memorySize value

theorem Bare.settle (bare : a.Bare) (settleable : Settleable pending)
    (h : a.settle pending = .ok a') : a'.Bare := by
  cases settleable with
  | none =>
    cases h
    exact bare
  | memorySize value =>
    simp only [RunArguments.settle, add] at h
    split at h
    · cases h
    · split at h <;> cases h
      exact ⟨bare.file, bare.help, bare.code⟩

theorem scan_options {w : String} {os : List Occurrence} (hw : Role.ofString w = .options os)
    (ws : List String) :
    a.scan pending (w :: ws) =
      match a.addOccurrences pending os with
      | .ok (a, pending) => a.scan pending ws
      | .error e => .error e := by
  rw [scan.eq_def]
  dsimp only
  rewrite [hw]
  rfl

theorem scan_debug (a : RunArguments) (pending : Pending) (ws : List String) :
    a.scan pending ("--debug" :: ws) =
      match a.settle pending with
      | .ok a =>
        match a.add .debug none with
        | .ok a => a.scan none ws
        | .error e => .error e
      | .error e => .error e := by
  rw [scan_options (by decide +kernel : Role.ofString "--debug" = .options [⟨.debug, none⟩])]
  simp only [addOccurrences, addOccurrence, Switch.takesValue]
  cases a.settle pending with
  | error e => rfl
  | ok a =>
    dsimp only
    cases a.add .debug none <;> rfl

/-- An option that takes a value waits for it. -/
theorem scan_takesValue (a : RunArguments) (pending : Pending) {s : Switch}
    (hs : s.takesValue = true) {w : String} (hw : Role.ofString w = .options [⟨s, none⟩])
    (ws : List String) :
    a.scan pending (w :: ws) =
      match a.settle pending with
      | .ok a => a.scan (some (s, none)) ws
      | .error e => .error e := by
  rw [scan_options hw]
  simp only [addOccurrences, addOccurrence, hs]
  cases a.settle pending <;> rfl

theorem scan_value {s : Switch} {v : String} (hv : Role.ofString v = .other) (ws : List String) :
    a.scan (some (s, none)) (v :: ws) = a.scan (some (s, some v)) ws := by
  rw [scan.eq_def]
  dsimp only
  rw [hv]

/-- What is wrong with an option that waits is an error at the next word, unless that is its value. -/
theorem scan_settle_error {e : ArgumentError} (h : a.settle pending = .error e) {w : String}
    (hw : Role.ofString w ≠ .other ∨ Filled pending) :
    ∃ e', ∀ ws, a.scan pending (w :: ws) = .error e' := by
  cases hrole : Role.ofString w with
  | other =>
    have filled : Filled pending := hw.resolve_left (not_not_intro hrole)
    refine ⟨e, fun ws => ?_⟩
    rw [scan.eq_def]
    dsimp only
    rw [hrole]
    split
    · next heq => cases heq
    · next heq => cases heq
    · next heq => exact absurd rfl (filled _)
    · rw [h]
      rfl
  | separator =>
    refine ⟨e, fun ws => ?_⟩
    unfold scan
    rw [hrole]
    dsimp only
    rw [h]
    rfl
  | options os =>
    cases os with
    | nil => exact absurd rfl (Role.ne_nil_of_ofString hrole)
    | cons o os =>
      obtain ⟨e', he⟩ : ∃ e', a.addOccurrence pending o = .error e' := by
        unfold addOccurrence
        rw [h]
        split <;> exact ⟨_, rfl⟩
      refine ⟨e', fun ws => ?_⟩
      rw [scan_options hrole, addOccurrences, he]

/-- Neither an option nor a separator is a value. -/
theorem scan_missing (a : RunArguments) {s : Switch} (hs : s.takesValue = true) {v : String}
    (hv : Role.ofString v ≠ .other) :
    ∃ e, ∀ ws, a.scan (some (s, none)) (v :: ws) = .error e := by
  have hsettle : a.settle (some (s, none)) = .error (.missingValue s) := by
    cases s with
    | debug | help => cases hs
    | file | memorySize => rfl
  exact scan_settle_error hsettle (.inl hv)

/-- Where a word is no option and no option lacks its value, the code begins. -/
theorem scan_code (filled : Filled pending) {w : String} (hw : Role.ofString w = .other)
    (ws : List String) :
    a.scan pending (w :: ws) = (a.settle pending).map fun a => { a with code := w :: ws } := by
  rw [scan.eq_def]
  dsimp only
  rw [hw]
  rcases pending with _ | ⟨s, _ | v⟩
  · rfl
  · exact absurd rfl (filled s)
  · rfl

theorem scan_file (bare : a.Bare) (settleable : Settleable pending) {path : String}
    (hpath : Role.ofString path = .other) :
    a.scan pending ["--file", path] =
      (a.settle pending).map fun a => { a with file := some path } := by
  have hrole : Role.ofString "--file" = .options [⟨.file, none⟩] := by decide +kernel
  rw [scan_takesValue a pending rfl hrole]
  cases hsettle : a.settle pending with
  | error e => rfl
  | ok a' =>
    have hfile : ¬ a'.file.isSome = true := by simp [(bare.settle settleable hsettle).file]
    dsimp only
    rw [scan_value hpath, scan, settle, add, if_neg hfile]
    rfl

theorem scan_file_missing (a : RunArguments) (pending : Pending) {path : String}
    (hpath : Role.ofString path ≠ .other) : ∃ e, a.scan pending ["--file", path] = .error e := by
  have hrole : Role.ofString "--file" = .options [⟨.file, none⟩] := by decide +kernel
  rw [scan_takesValue a pending rfl hrole]
  cases a.settle pending with
  | error e => exact ⟨e, rfl⟩
  | ok a' =>
    obtain ⟨e, he⟩ := scan_missing a' (s := .file) rfl hpath
    exact ⟨e, he []⟩

/-- The words are read without regard to what follows.  Either they are wrong, or the arguments are
still bare behind them. -/
def ReadFirst (a : RunArguments) (pending : Pending) (words : List String) : Prop :=
  (∃ e, ∀ ws, a.scan pending (words ++ ws) = .error e) ∨
    ∃ (a' : RunArguments) (pending' : Pending), a'.Bare ∧ Settleable pending' ∧
      ∀ ws, a.scan pending (words ++ ws) = a'.scan pending' ws

theorem readFirst_debug (bare : a.Bare) (settleable : Settleable pending) :
    a.ReadFirst pending ["--debug"] := by
  have hscan := scan_debug a pending
  cases hsettle : a.settle pending with
  | error e =>
    rw [hsettle] at hscan
    exact .inl ⟨e, hscan⟩
  | ok a' =>
    have bare' := bare.settle settleable hsettle
    rw [hsettle] at hscan
    by_cases hdebug : a'.debug = true
    · have hadd : a'.add .debug none = .error (.repeated .debug) := if_pos hdebug
      simp only [hadd] at hscan
      exact .inl ⟨_, hscan⟩
    · have hadd : a'.add .debug none = .ok { a' with debug := true } := if_neg hdebug
      simp only [hadd] at hscan
      exact .inr ⟨{ a' with debug := true }, none, ⟨bare'.file, bare'.help, bare'.code⟩, .none, hscan⟩

theorem readFirst_memorySize (bare : a.Bare) (settleable : Settleable pending) (value : String) :
    a.ReadFirst pending ["--memory-size", value] := by
  have hrole : Role.ofString "--memory-size" = .options [⟨.memorySize, none⟩] := by decide +kernel
  have hscan := fun ws => scan_takesValue a pending rfl hrole (value :: ws)
  cases hsettle : a.settle pending with
  | error e =>
    rw [hsettle] at hscan
    exact .inl ⟨e, hscan⟩
  | ok a' =>
    rw [hsettle] at hscan
    by_cases hvalue : Role.ofString value = .other
    · refine .inr ⟨a', _, bare.settle settleable hsettle, .memorySize value, fun ws => ?_⟩
      exact (hscan ws).trans (scan_value hvalue ws)
    · obtain ⟨e, he⟩ := scan_missing a' (s := .memorySize) rfl hvalue
      exact .inl ⟨e, fun ws => (hscan ws).trans (he ws)⟩

theorem readFirst_optionWords (os : List RunOption) (bare : a.Bare)
    (settleable : Settleable pending) : a.ReadFirst pending (optionWords os) := by
  induction os generalizing a pending with
  | nil => exact .inr ⟨a, pending, bare, settleable, fun ws => rfl⟩
  | cons o os ih =>
    have first : a.ReadFirst pending o.words := by
      cases o with
      | debug => exact readFirst_debug bare settleable
      | memorySize value => exact readFirst_memorySize bare settleable value
    -- what follows the first option begins with the others, so `first` is used for these, too
    have hwords : ∀ ws, optionWords (o :: os) ++ ws = o.words ++ (optionWords os ++ ws) := by
      intro ws
      rw [optionWords, List.flatMap_cons, List.append_assoc]
      rfl
    unfold ReadFirst
    simp only [hwords]
    rcases first with ⟨e, he⟩ | ⟨a', pending', bare', settleable', hscan⟩
    · exact .inl ⟨e, fun ws => he _⟩
    · simp only [hscan]
      exact ih bare' settleable'

/-- Behind options the words of the code and the path of a file are read with the same result, but
for themselves. -/
theorem parse_optionWords (os : List RunOption) :
    ∃ r : Except ArgumentError RunArguments, (∀ a, r = .ok a → a.Bare) ∧
      (∀ ws, IsCode ws →
        parse (optionWords os ++ ws) = r.map fun a => { a with code := ws }) ∧
      (∀ path, Role.ofString path = .other →
        parse (optionWords os ++ ["--file", path]) = r.map fun a => { a with file := some path }) ∧
      (∀ path, Role.ofString path ≠ .other →
        ∃ e, parse (optionWords os ++ ["--file", path]) = .error e) := by
  have bare : empty.Bare := ⟨rfl, rfl, rfl⟩
  rcases readFirst_optionWords os bare .none with ⟨e, he⟩ | ⟨a, pending, bare, settleable, hscan⟩
  · exact ⟨.error e, nofun, fun ws _ => he ws, fun path _ => he _, fun path _ => ⟨e, he _⟩⟩
  · refine ⟨a.settle pending, fun a' h => bare.settle settleable h, fun ws code => ?_,
      fun path hpath => ?_, fun path hpath => ?_⟩
    · obtain ⟨ws, hw⟩ := code
      exact (hscan _).trans (scan_code settleable.filled (Role.ofString_of_head? hw) ws)
    · exact (hscan _).trans (scan_file bare settleable hpath)
    · obtain ⟨e, he⟩ := scan_file_missing a pending hpath
      exact ⟨e, (hscan _).trans he⟩

end RunArguments

/-! ## Plans -/

theorem Arguments.parse_command {command : String} (hcommand : isCommand command = true)
    (words : List String) : parse (command :: words) =
      (RunArguments.parse words).map fun a => ⟨false, some a⟩ := by
  rw [parse, scan.eq_def]
  dsimp only
  rw [if_pos hcommand]

namespace Plan

/-- What a command asks for is read off the words behind it. -/
theorem ofCommands_cons {command : String} (hcommand : Arguments.isCommand command = true)
    (program : String) (words : List String) :
    ofCommands program (command :: words) =
      match RunArguments.parse words with
      | .ok a => ofRunArguments program a
      | .error e => .stop 2 e.report := by
  rw [ofCommands, Arguments.parse_command hcommand]
  cases RunArguments.parse words <;> rfl

theorem ofRunArguments_code {a : RunArguments} (bare : a.Bare) {ws : List String} (code : IsCode ws)
    (program : String) :
    ofRunArguments program { a with code := ws } = .run ⟨.words ws, a.memorySize, a.debug⟩ := by
  obtain ⟨ws, -⟩ := code
  simp [ofRunArguments, bare.help, bare.file]

theorem ofRunArguments_file {a : RunArguments} (bare : a.Bare) (path program : String) :
    ofRunArguments program { a with file := some path } =
      .run ⟨.file path, a.memorySize, a.debug⟩ := by
  simp [ofRunArguments, bare.help, bare.code]

/-- With the same options words of code and the path of a file are either both refused with one
message, or ask for the same task but for the place of the code. -/
theorem ofCommands_optionWords {command : String} (hcommand : Arguments.isCommand command = true)
    (program : String) (os : List RunOption) :
    (∃ message, (∀ ws, IsCode ws →
        ofCommands program (command :: (optionWords os ++ ws)) = .stop 2 message) ∧
      ∀ path, Role.ofString path = .other →
        ofCommands program (command :: (optionWords os ++ ["--file", path])) = .stop 2 message) ∨
    ∃ memorySize traced, (∀ ws, IsCode ws →
        ofCommands program (command :: (optionWords os ++ ws)) =
          .run ⟨.words ws, memorySize, traced⟩) ∧
      ∀ path, Role.ofString path = .other →
        ofCommands program (command :: (optionWords os ++ ["--file", path])) =
          .run ⟨.file path, memorySize, traced⟩ := by
  obtain ⟨r, hbare, hcode, hfile, -⟩ := RunArguments.parse_optionWords os
  simp only [ofCommands_cons hcommand]
  cases r with
  | error e =>
    refine .inl ⟨e.report, fun ws code => ?_, fun path hpath => ?_⟩
    · rw [hcode ws code]
      rfl
    · rw [hfile path hpath]
      rfl
  | ok a =>
    have bare := hbare a rfl
    refine .inr ⟨a.memorySize, a.debug, fun ws code => ?_, fun path hpath => ?_⟩
    · rw [hcode ws code]
      exact ofRunArguments_code bare code program
    · rw [hfile path hpath]
      exact ofRunArguments_file bare path program

end Plan

/-! ## Runs -/

/-- With the same options in front of them, words of code and the path of a file with the text of
these words have the same exit, and so have other words with the same text.  Only a path that looks
like an option or a separator is refused. -/
theorem code_origin_irrelevant {command : String} (hcommand : Arguments.isCommand command = true)
    (program : String) (os : List RunOption) (w : World) (fuel : ℕ) :
    (∀ (path : String) (ws : List String), IsCode ws → Role.ofString path = .other →
      w.readFile path = .ok (String.join ws).toUTF8 →
      runCommands program (command :: (optionWords os ++ ["--file", path])) w fuel =
        runCommands program (command :: (optionWords os ++ ws)) w fuel) ∧
    (∀ ws ws' : List String, IsCode ws → IsCode ws' → String.join ws = String.join ws' →
      runCommands program (command :: (optionWords os ++ ws)) w fuel =
        runCommands program (command :: (optionWords os ++ ws')) w fuel) ∧
    (∀ path : String, Role.ofString path ≠ .other →
      ∃ message, runCommands program (command :: (optionWords os ++ ["--file", path])) w fuel =
        some ⟨2, "", message, .stream w.stdin⟩) := by
  unfold runCommands
  refine ⟨fun path ws code hpath hfile => ?_, fun ws ws' code code' same => ?_, fun path hpath => ?_⟩
  · rcases Plan.ofCommands_optionWords hcommand program os with
      ⟨message, hcode, hstop⟩ | ⟨memorySize, traced, hcode, hrun⟩
    · rw [hcode ws code, hstop path hpath]
    · rw [hcode ws code, hrun path hpath]
      have htext : (CodeLocation.file path).text w.readFile = .ok (String.join ws) :=
        CodeLocation.text_file_eq_ok_iff.2 hfile
      exact Plan.perform_eq_of_filterText rfl htext rfl memorySize traced program fuel
  · rcases Plan.ofCommands_optionWords hcommand program os with
      ⟨message, hcode, -⟩ | ⟨memorySize, traced, hcode, -⟩
    · rw [hcode ws code, hcode ws' code']
    · have htext : (CodeLocation.words ws').text w.readFile = .ok (String.join ws) :=
        congrArg Except.ok same.symm
      rw [hcode ws code, hcode ws' code']
      exact Plan.perform_eq_of_filterText rfl rfl htext memorySize traced program fuel
  · obtain ⟨r, -, -, -, hmissing⟩ := RunArguments.parse_optionWords os
    obtain ⟨e, he⟩ := hmissing path hpath
    refine ⟨e.report, ?_⟩
    rw [Plan.ofCommands_cons hcommand, he]
    rfl

/-- The loop is cut by the words, and a later word looks like an option.  The path begins with a
hyphen, but there is no such option. -/
theorem code_origin_irrelevant_for_cut_loop :
    ∃ w : World, w.readFile "-x" = .ok "+[-d].".toUTF8 ∧ IsCode ["+[", "-d", "]."] ∧
      runCommands "bf" ["run", "--debug", "--memory-size", "1", "--file", "-x"] w 9 =
        runCommands "bf" ["run", "--debug", "--memory-size", "1", "+[", "-d", "]."] w 9 ∧
      runCommands "bf" ["run", "--debug", "--memory-size", "1", "+[", "-d", "]."] w 9 =
        runCommands "bf" ["run", "--debug", "--memory-size", "1", "+[-d]."] w 9 := by
  let d : WorkingDirectory := ⟨[("-x", .file "+[-d].".toUTF8)]⟩
  let w : World := ⟨⟨none, false, none, none⟩, d.readFile, ⟨[], none⟩, .working⟩
  have hfile : w.readFile "-x" = .ok "+[-d].".toUTF8 :=
    d.readFile_of_lookup "-x" (by decide) (by decide) (by decide) rfl
  have code : IsCode ["+[", "-d", "]."] := .intro _ (by decide)
  have whole : IsCode ["+[-d]."] := .intro _ (by decide)
  have hcommand : Arguments.isCommand "run" = true := by decide +kernel
  have hpath : Role.ofString "-x" = .other := by decide +kernel
  obtain ⟨file, words, -⟩ :=
    code_origin_irrelevant hcommand "bf" [.debug, .memorySize "1"] w 9
  exact ⟨w, hfile, code, file "-x" _ code hpath hfile, words _ _ code whole rfl⟩

/-- A file that has the name of an option cannot be named by `--file`. -/
theorem code_origin_matters_for_hyphens :
    ∃ w : World, w.readFile "-d" = .ok (String.join ["+."]).toUTF8 ∧ IsCode ["+."] ∧
      (runCommands "bf" ["run", "--memory-size", "1", "--file", "-d"] w 3).map Exit.status =
        some 2 ∧
      (runCommands "bf" ["run", "--memory-size", "1", "+."] w 3).map Exit.status = some 0 := by
  let d : WorkingDirectory := ⟨[("-d", .file "+.".toUTF8)]⟩
  let w : World := ⟨⟨none, false, none, none⟩, d.readFile, ⟨[], none⟩, .working⟩
  have hfile : w.readFile "-d" = .ok "+.".toUTF8 :=
    d.readFile_of_lookup "-d" (by decide) (by decide) (by decide) rfl
  exact ⟨w, hfile, .intro _ (by decide), by decide +kernel, by decide +kernel⟩

end Brainfuck.CommandLine
