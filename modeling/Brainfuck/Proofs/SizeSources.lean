import Brainfuck.Proofs.ExitStatus
import Brainfuck.Proofs.Failures

/-!
# Where the memory size comes from

A memory size is looked for on the command line, in the environment and in the settings file, in this
order, and behind them there is the default (`Environment.sources`).  What a source gives is said
without regard to the others (`SizeSource.Gives`), and the first that gives a size decides
(`Resolves`).  A size that was read is never zero, so that every run of a task has a cell:
`first_usable_source_decides`.
-/

namespace Brainfuck

/-! ## Sizes that can be read -/

namespace Text

theorem readDigits_lt {limit value n : ℕ} {cs : List Char} (h : readDigits limit value cs = .ok n)
    (lt : value < limit) : n < limit := by
  induction cs generalizing value with
  | nil =>
    cases h
    exact lt
  | cons c cs ih =>
    unfold readDigits at h
    split at h
    · cases h
    · split at h
      · next hlt => exact ih h hlt
      · cases h

theorem readNumeral_lt {limit n : ℕ} {cs : List Char} (h : readNumeral limit cs = .ok n)
    (positive : 0 < limit) : n < limit := by
  unfold readNumeral at h
  split at h
  · cases h
  · exact readDigits_lt h positive
  · exact readDigits_lt h positive

end Text

theorem bounds_of_parseMemorySize {text : String} {n : ℕ} (h : parseMemorySize text = .ok n) :
    1 ≤ n ∧ n ≤ 2 ^ 64 - 1 := by
  unfold parseMemorySize at h
  split at h
  · cases h
  · next size hread =>
    have hlt : size < 2 ^ 64 := Text.readNumeral_lt hread (by decide)
    split at h
    · cases h
    · cases h
      omega

/-- A size, if there is one, that some text spells. -/
def Spelled (size : Option ℕ) : Prop := ∀ n, size = some n → ∃ text, parseMemorySize text = .ok n

theorem memorySize?_eq_some_iff {text : String} {n : ℕ} :
    memorySize? text = some n ↔ parseMemorySize text = .ok n := by
  unfold memorySize?
  cases parseMemorySize text <;> simp [Except.toOption]

theorem Settings.exists_parseMemorySize {content : String} {n : ℕ}
    (h : (parse content).memorySize = some n) : ∃ text, parseMemorySize text = .ok n := by
  obtain ⟨value, -, hsize⟩ := Option.bind_eq_some_iff.1 h
  exact ⟨_, memorySize?_eq_some_iff.1 hsize⟩

/-- What is read off bytes is read off the text that they encode. -/
theorem bind_fromUTF8?_eq_some_iff {value : Option ByteArray} {read : String → Option ℕ} {n : ℕ} :
    (value.bind fun bytes => (String.fromUTF8? bytes).bind read) = some n ↔
      ∃ text, value = some text.toUTF8 ∧ read text = some n := by
  simp only [Option.bind_eq_some_iff, Utf8.fromUTF8?_eq_some_iff]
  constructor
  · rintro ⟨-, rfl, text, rfl, h⟩
    exact ⟨text, rfl, h⟩
  · rintro ⟨text, rfl, h⟩
    exact ⟨_, rfl, text, rfl, h⟩

/-! ## Sources -/

/-- A place where a memory size may be found, with what is there. -/
inductive SizeSource where
  /-- The command line, whose options have been read. -/
  | given (size : Option ℕ)
  | environment (value : Option ByteArray)
  | file (content : Option ByteArray)

namespace SizeSource

variable {s : SizeSource} {n : ℕ}

/-- The size that a source gives. -/
inductive Gives : SizeSource → ℕ → Prop
  | given (n : ℕ) : Gives (.given (some n)) n
  | environment {text : String} {n : ℕ} : parseMemorySize text = .ok n →
      Gives (.environment (some text.toUTF8)) n
  | file {text : String} {n : ℕ} : (Settings.parse text).memorySize = some n →
      Gives (.file (some text.toUTF8)) n

/-- A source gives some size. -/
def Usable (s : SizeSource) : Prop := ∃ n, s.Gives n

/-- The same place with nothing there. -/
def absent : SizeSource → SizeSource
  | given _ => given none
  | environment _ => environment none
  | file _ => file none

/-- What a source gives, as a function. -/
def size? : SizeSource → Option ℕ
  | given size => size
  | environment value => value.bind fun bytes => (String.fromUTF8? bytes).bind memorySize?
  | file content => content.bind fun bytes =>
      (String.fromUTF8? bytes).bind fun text => (Settings.parse text).memorySize

theorem size?_eq_some_iff : s.size? = some n ↔ s.Gives n := by
  cases s with
  | given size =>
    constructor
    · rintro ⟨⟩
      exact .given n
    · rintro ⟨⟩
      rfl
  | environment value =>
    refine bind_fromUTF8?_eq_some_iff.trans ⟨?_, ?_⟩
    · rintro ⟨text, rfl, h⟩
      exact .environment (memorySize?_eq_some_iff.1 h)
    · rintro (_ | h | _)
      exact ⟨_, rfl, memorySize?_eq_some_iff.2 h⟩
  | file content =>
    refine bind_fromUTF8?_eq_some_iff.trans ⟨?_, ?_⟩
    · rintro ⟨text, rfl, h⟩
      exact .file h
    · rintro (_ | _ | h)
      exact ⟨_, rfl, h⟩

theorem size?_eq_none_iff : s.size? = none ↔ ¬ s.Usable := by
  rw [Option.eq_none_iff_forall_ne_some, Usable, not_exists]
  exact forall_congr' fun n => not_congr size?_eq_some_iff

theorem size?_absent (s : SizeSource) : s.absent.size? = none := by
  cases s <;> rfl

end SizeSource

/-- The size that sources give in their order: that of the first usable one, and behind them all the
default. -/
inductive Resolves : List SizeSource → ℕ → Prop
  | default : Resolves [] defaultMemorySize
  | first {s : SizeSource} {rest : List SizeSource} {n : ℕ} : s.Gives n → Resolves (s :: rest) n
  | next {s : SizeSource} {rest : List SizeSource} {n : ℕ} : ¬ s.Usable → Resolves rest n →
      Resolves (s :: rest) n

/-- The size of the first usable source. -/
def firstSize? (sources : List SizeSource) : Option ℕ := sources.findSome? SizeSource.size?

theorem resolves_iff {sources : List SizeSource} {n : ℕ} :
    Resolves sources n ↔ (firstSize? sources).getD defaultMemorySize = n := by
  induction sources with
  | nil =>
    constructor
    · rintro ⟨⟩
      rfl
    · rintro rfl
      exact .default
  | cons s rest ih =>
    unfold firstSize? at ih ⊢
    rw [List.findSome?_cons]
    cases h : s.size? with
    | none =>
      have unusable := SizeSource.size?_eq_none_iff.1 h
      rw [← ih]
      constructor
      · rintro (_ | gives | ⟨-, resolves⟩)
        · exact absurd ⟨n, gives⟩ unusable
        · exact resolves
      · exact .next unusable
    | some m =>
      have gives := SizeSource.size?_eq_some_iff.1 h
      constructor
      · rintro (_ | gives' | ⟨unusable, -⟩)
        · exact Option.some.inj (h.symm.trans (SizeSource.size?_eq_some_iff.2 gives'))
        · exact absurd ⟨m, gives⟩ unusable
      · rintro rfl
        exact .first gives

/-- A source as it is, or, where it cannot be used, as if nothing were there. -/
inductive SizeSource.Cleared : SizeSource → SizeSource → Prop
  | same (s : SizeSource) : Cleared s s
  | absent {s : SizeSource} : ¬ s.Usable → Cleared s s.absent

theorem firstSize?_eq_of_cleared {sources sources' : List SizeSource}
    (h : List.Forall₂ SizeSource.Cleared sources sources') :
    firstSize? sources = firstSize? sources' := by
  induction h with
  | nil => rfl
  | @cons s s' rest rest' cleared _ ih =>
    have same : s.size? = s'.size? := by
      cases cleared with
      | same => rfl
      | absent unusable => rw [SizeSource.size?_absent, SizeSource.size?_eq_none_iff.2 unusable]
    unfold firstSize? at ih ⊢
    rw [List.findSome?_cons, List.findSome?_cons, same, ih]

/-- What is behind a usable source does not count. -/
theorem firstSize?_eq_take {sources : List SizeSource} {k : ℕ} {s : SizeSource}
    (hs : sources[k]? = some s) (usable : s.Usable) :
    firstSize? sources = firstSize? (sources.take (k + 1)) := by
  obtain ⟨n, gives⟩ := usable
  have mem : s ∈ sources.take (k + 1) :=
    List.mem_of_getElem? ((List.getElem?_take_of_lt k.lt_succ_self).trans hs)
  have found : (firstSize? (sources.take (k + 1))).isSome := by
    refine List.findSome?_isSome_iff.2 ⟨s, mem, ?_⟩
    rw [SizeSource.size?_eq_some_iff.2 gives]
    rfl
  obtain ⟨m, hm⟩ := Option.isSome_iff_exists.1 found
  unfold firstSize? at hm ⊢
  conv_lhs => rw [← List.take_append_drop (k + 1) sources]
  rw [List.findSome?_append, hm]
  rfl

namespace Environment

/-- The sources of a memory size in their order, where `given` is what the command line says. -/
def sources (env : Environment) (given : Option ℕ) : List SizeSource :=
  [.given given, .environment env.sizeVariable, .file env.settingsFile?]

theorem resolveMemorySize_eq (env : Environment) (given : Option ℕ) :
    env.resolveMemorySize given = (firstSize? (env.sources given)).getD defaultMemorySize := by
  have hgiven : (SizeSource.given given).size? = given := rfl
  have hvariable : (SizeSource.environment env.sizeVariable).size? = env.variableSize? := rfl
  have hsettings : (SizeSource.file env.settingsFile?).size? = env.settingsSize? := rfl
  simp only [firstSize?, sources, List.findSome?_cons, hgiven, hvariable, hsettings,
    resolveMemorySize]
  cases given <;> cases env.variableSize? <;> cases env.settingsSize? <;> rfl

theorem exists_parseMemorySize_of_gives {env : Environment} {given : Option ℕ}
    (spelled : Spelled given) {s : SizeSource} (hs : s ∈ env.sources given) {n : ℕ}
    (h : s.Gives n) : ∃ text, parseMemorySize text = .ok n := by
  cases h with
  | given =>
    simp [sources] at hs
    exact spelled n hs.symm
  | environment h => exact ⟨_, h⟩
  | file h => exact Settings.exists_parseMemorySize h

theorem bounds_resolveMemorySize (env : Environment) {given : Option ℕ}
    (spelled : Spelled given) :
    1 ≤ env.resolveMemorySize given ∧ env.resolveMemorySize given ≤ 2 ^ 64 - 1 := by
  rw [resolveMemorySize_eq]
  cases found : firstSize? (env.sources given) with
  | none => decide
  | some n =>
    obtain ⟨s, hs, hsize⟩ := List.exists_of_findSome?_eq_some found
    obtain ⟨text, htext⟩ :=
      exists_parseMemorySize_of_gives spelled hs (SizeSource.size?_eq_some_iff.1 hsize)
    exact bounds_of_parseMemorySize htext

end Environment

/-! ## Sizes on the command line -/

namespace CommandLine

namespace RunArguments

variable {P : RunArguments → Prop} {a r : RunArguments} {pending pending' : Pending}

/-! What every single option keeps, and the code too, holds of all arguments that are read. -/

section Invariant

variable (keep : ∀ a s value a', P a → a.add s value = .ok a' → P a')

include keep

theorem settle_invariant (ha : P a) (h : a.settle pending = .ok r) : P r := by
  cases pending with
  | none =>
    cases h
    exact ha
  | some x => exact keep _ _ _ _ ha h

theorem addOccurrence_invariant {o : Occurrence} (ha : P a)
    (h : a.addOccurrence pending o = .ok (r, pending')) : P r := by
  unfold addOccurrence at h
  split at h
  · cases h
  · obtain ⟨a', hsettle, hr⟩ := map_eq_ok h
    cases hr
    exact settle_invariant keep ha hsettle
  · split at h
    · next a' hsettle =>
      obtain ⟨a'', hadd, hr⟩ := map_eq_ok h
      cases hr
      exact keep _ _ _ _ (settle_invariant keep ha hsettle) hadd
    · cases h

theorem addOccurrences_invariant {os : List Occurrence} (ha : P a)
    (h : a.addOccurrences pending os = .ok (r, pending')) : P r := by
  induction os generalizing a pending with
  | nil =>
    cases h
    exact ha
  | cons o os ih =>
    unfold addOccurrences at h
    split at h
    · next a' p' hadd => exact ih (addOccurrence_invariant keep ha hadd) h
    · cases h

theorem scan_invariant (code : ∀ a ws, P a → P { a with code := ws }) {ws : List String} (ha : P a)
    (h : a.scan pending ws = .ok r) : P r := by
  induction ws generalizing a pending with
  | nil => exact settle_invariant keep ha h
  | cons w ws ih =>
    unfold scan at h
    split at h
    · obtain ⟨a', hsettle, rfl⟩ := map_eq_ok h
      exact code _ _ (settle_invariant keep ha hsettle)
    · split at h
      · next hadd => exact ih (addOccurrences_invariant keep ha hadd) h
      · cases h
    · exact ih ha h
    · obtain ⟨a', hsettle, rfl⟩ := map_eq_ok h
      exact code _ _ (settle_invariant keep ha hsettle)

end Invariant

theorem spelled_add {s : Switch} {value : Option String} (ha : Spelled a.memorySize)
    (h : a.add s value = .ok r) : Spelled r.memorySize := by
  cases s with
  | debug | help =>
    simp only [add] at h
    split at h <;> cases h
    exact ha
  | file =>
    cases value with
    | none => cases h
    | some path =>
      simp only [add] at h
      split at h <;> cases h
      exact ha
  | memorySize =>
    cases value with
    | none => cases h
    | some value =>
      simp only [add] at h
      split at h
      · cases h
      · split at h
        · next size hparse =>
          cases h
          rintro n ⟨⟩
          exact ⟨value, hparse⟩
        · cases h

/-- The memory size of arguments that are read is one that could be read. -/
theorem spelled_of_parse {ws : List String} (h : parse ws = .ok a) :
    Spelled a.memorySize :=
  scan_invariant (P := fun a => Spelled a.memorySize)
    (fun _ _ _ _ => spelled_add) (fun _ _ ha => ha) (fun _ hn => by cases hn) h

end RunArguments

/-- The arguments of a command are read off words behind it. -/
theorem Arguments.exists_parse_of_scan {help help' : Bool} {ws : List String} {a : RunArguments}
    (h : scan help ws = .ok ⟨help', some a⟩) : ∃ ws', RunArguments.parse ws' = .ok a := by
  induction ws generalizing help with
  | nil => cases h
  | cons w ws ih =>
    by_cases hw : isCommand w = true
    · unfold scan at h
      rw [if_pos hw] at h
      obtain ⟨a', hparse, ha⟩ := map_eq_ok h
      cases ha
      exact ⟨ws, hparse⟩
    · obtain ⟨help₁, hscan⟩ := scan_option hw h
      rw [hscan] at h
      exact ih h

theorem spelled_of_requests {words : List String} {task : Task} (h : Requests words task) :
    Spelled task.memorySize := by
  cases h with
  | words parsed | file parsed =>
    obtain ⟨ws, hparse⟩ := Arguments.exists_parse_of_scan parsed
    exact RunArguments.spelled_of_parse hparse

end CommandLine

/-! ## Runs -/

/-- A run over at least one cell does not lack a tape. -/
theorem Interpreter.result_ne_emptyTape {code : String} {size : ℕ} (positive : 1 ≤ size)
    {traced : Bool} {sink : Sink} {source : Source} {fuel : ℕ} {o : Outcome}
    (ended : (ofText code size).execute traced sink source fuel = some o) :
    o.result ≠ .error .emptyTape := by
  have hcells : (ofText code size).tape.isEmpty = false := by
    rw [ofText, Tape.isEmpty, Tape.zeros, Array.isEmpty_eq_false_iff, ← Array.size_pos_iff,
      Array.size_replicate]
    exact positive
  rcases execute_eq_some ended with ⟨idle, rfl⟩ | ⟨m, s, result, t, started, hrun, rfl⟩
  · unfold Interpreter.idle
    split
    · simp
    · next p loaded =>
      have empty : p.isEmpty = true := by simpa [start?, loaded, hcells] using idle
      simp [empty]
  · rintro ⟨⟩
    have parsed : Program.Parsed code m.program :=
      Program.parsed_of_parse (start?_eq_some started).1
    cases describes_of_start parsed started hrun

/-- The memory size is that of the first usable source: a source that cannot be used counts as if
nothing were there, and what is behind a usable one does not count at all.  It is positive and fits
a word, so that no run of a task lacks a tape. -/
theorem first_usable_source_decides :
    (∀ (env : Environment) (given : Option ℕ) (n : ℕ),
      Resolves (env.sources given) n ↔ env.resolveMemorySize given = n) ∧
    (∀ (env env' : Environment) (given given' : Option ℕ),
      List.Forall₂ SizeSource.Cleared (env.sources given) (env'.sources given') →
      env.resolveMemorySize given = env'.resolveMemorySize given') ∧
    (∀ (env env' : Environment) (given given' : Option ℕ) (k : ℕ) (s : SizeSource),
      (env.sources given)[k]? = some s → s.Usable →
      (env.sources given).take (k + 1) = (env'.sources given').take (k + 1) →
      env.resolveMemorySize given = env'.resolveMemorySize given') ∧
    (∀ (env : Environment) (given : Option ℕ), Spelled given →
      1 ≤ env.resolveMemorySize given ∧ env.resolveMemorySize given ≤ 2 ^ 64 - 1) ∧
    (∀ (words : List String) (task : CommandLine.Task) (w : CommandLine.World) (o : Outcome),
      CommandLine.Requests words task → task.Ends w o → o.result ≠ .error .emptyTape) := by
  refine ⟨fun env given n => ?_, fun env env' given given' cleared => ?_,
    fun env env' given given' k s hs usable same => ?_,
    fun env given spelled => env.bounds_resolveMemorySize spelled,
    fun words task w o requests ends => ?_⟩
  · rw [resolves_iff, Environment.resolveMemorySize_eq]
  · rw [env.resolveMemorySize_eq, env'.resolveMemorySize_eq, firstSize?_eq_of_cleared cleared]
  · have hs' : (env'.sources given')[k]? = some s := by
      rw [← List.getElem?_take_of_lt k.lt_succ_self, ← same, List.getElem?_take_of_lt k.lt_succ_self,
        hs]
    rw [env.resolveMemorySize_eq, env'.resolveMemorySize_eq, firstSize?_eq_take hs usable,
      firstSize?_eq_take hs' usable, same]
  · obtain ⟨code, fuel, -, ended⟩ := ends
    have spelled := CommandLine.spelled_of_requests requests
    exact Interpreter.result_ne_emptyTape (w.environment.bounds_resolveMemorySize spelled).1 ended

/-- A variable that says zero does not hide the settings file. -/
theorem first_usable_source_decides_behind_zero :
    let content := "[interpreter]\nmemory_size = 64\n"
    let env : Environment := ⟨some "0".toUTF8, true, some content.toUTF8, none⟩
    let w : CommandLine.World := ⟨env, fun _ => .error "", ⟨[], none⟩, .working⟩
    env.resolveMemorySize none = 64 ∧
      Environment.resolveMemorySize ⟨none, true, some content.toUTF8, none⟩ none = 64 ∧
      Environment.resolveMemorySize ⟨none, false, none, none⟩ (some 7) =
        env.resolveMemorySize (some 7) ∧
      1 ≤ env.resolveMemorySize (some 7) ∧
      ∃ o, CommandLine.Requests ["run", "-m", "7", "+"] ⟨.words ["+"], some 7, false⟩ ∧
        CommandLine.Task.Ends w ⟨.words ["+"], some 7, false⟩ o ∧ o.result ≠ .error .emptyTape := by
  intro content env w
  have unusable : ¬ (SizeSource.environment env.sizeVariable).Usable :=
    SizeSource.size?_eq_none_iff.1 (by decide +kernel)
  have gives : (SizeSource.file env.settingsFile?).Gives 64 := .file (by decide +kernel)
  obtain ⟨resolves, cleared, below, bounds, runs⟩ := first_usable_source_decides
  have size : env.resolveMemorySize none = 64 :=
    (resolves env none 64).1 (.next nofun (.next unusable (.first gives)))
  have parsed : CommandLine.Arguments.parse ["run", "-m", "7", "+"] =
      .ok ⟨false, some ⟨false, none, some 7, false, ["+"]⟩⟩ := by
    decide +kernel
  have requests : CommandLine.Requests ["run", "-m", "7", "+"] ⟨.words ["+"], some 7, false⟩ :=
    .words parsed rfl rfl (by simp)
  have run : (Interpreter.ofText "+" 7).execute false .working (.stream ⟨[], none⟩) 2 =
      some ⟨.ok (), _, _, _⟩ :=
    rfl
  have ends : CommandLine.Task.Ends w ⟨.words ["+"], some 7, false⟩ _ := ⟨"+", 2, rfl, run⟩
  refine ⟨size, ?_, ?_, ?_, _, requests, ends, runs _ _ _ _ requests ends⟩
  · exact (cleared env ⟨none, true, some content.toUTF8, none⟩ none none (.cons (.same _)
      (.cons (.absent unusable) (.cons (.same _) .nil)))).symm.trans size
  · exact below _ _ _ _ 0 (.given (some 7)) rfl ⟨7, .given 7⟩ rfl
  · exact (bounds env (some 7) fun n hn => ⟨"7", by cases hn; decide +kernel⟩).1

end Brainfuck
