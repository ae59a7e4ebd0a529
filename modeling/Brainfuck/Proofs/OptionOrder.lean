import Brainfuck.CommandLine.Exit
import Brainfuck.Proofs.SizeSpellings

/-!
# Options in any order

Every option can be written in several ways (`Occurrence.WrittenAs`), and behind the options stand
the words of the code, perhaps with a separator in front (`CodeBehind`).  Where no kind of option is
written twice, a command gets the options that are written and the code word for word
(`RunArguments.Holds`), or reports a memory size that is refused: `options_determine_run`.  Neither
depends on the order of the options, on how they are written or on the separator.
-/

namespace Brainfuck.CommandLine

/-! ## Options in words -/

namespace Switch

/-- The word of an option with its letter. -/
def letterWord : Switch → String
  | debug => "-d"
  | file => "-f"
  | memorySize => "-m"
  | help => "-h"

/-- The word of an option with its name. -/
def nameWord : Switch → String
  | debug => "--debug"
  | file => "--file"
  | memorySize => "--memory-size"
  | help => "--help"

/-- The words that are the option and nothing else. -/
def words (s : Switch) : List String := [s.letterWord, s.nameWord]

end Switch

namespace Role

theorem ofString_of_mem_words {s : Switch} {w : String} (hw : w ∈ s.words) :
    ofString w = options [⟨s, none⟩] := by
  have letter : ofString s.letterWord = options [⟨s, none⟩] := by cases s <;> decide +kernel
  have name : ofString s.nameWord = options [⟨s, none⟩] := by cases s <;> decide +kernel
  rw [Switch.words, List.mem_pair] at hw
  rcases hw with rfl | rfl
  · exact letter
  · exact name

theorem ofString_nameWord_joined (s : Switch) (v : String) :
    ofString (s.nameWord ++ "=" ++ v) = options [⟨s, some v⟩] := by
  obtain ⟨name, hname, hequals, known, hword⟩ : ∃ name : List Char, name ≠ [] ∧ '=' ∉ name ∧
      Switch.ofName? name = some s ∧ s.nameWord.toList = '-' :: '-' :: name := by
    refine ⟨s.nameWord.toList.drop 2, ?_⟩
    cases s <;> decide +kernel
  refine ofString_joined known hname hequals ?_
  rw [String.toList_append, String.toList_append, hword, List.append_assoc]
  rfl

end Role

/-- The words of one option.  A value that is a word of its own has no hyphen in front. -/
inductive Occurrence.WrittenAs : Occurrence → List String → Prop
  | alone {s : Switch} {w : String} : s.takesValue = false → w ∈ s.words → WrittenAs ⟨s, none⟩ [w]
  | apart {s : Switch} {w v : String} : s.takesValue = true → w ∈ s.words →
      v.toList.head? ≠ some '-' → WrittenAs ⟨s, some v⟩ [w, v]
  | joined {s : Switch} (v : String) : s.takesValue = true →
      WrittenAs ⟨s, some v⟩ [s.nameWord ++ "=" ++ v]

/-- The words of options, one after the other. -/
inductive WrittenAs : List Occurrence → List String → Prop
  | nil : WrittenAs [] []
  | cons {o : Occurrence} {os : List Occurrence} {ws words : List String} :
      o.WrittenAs ws → WrittenAs os words → WrittenAs (o :: os) (ws ++ words)

/-- What can stand behind options where the code has these words. -/
inductive CodeBehind : (code : List String) → List String → Prop
  | nothing : CodeBehind [] []
  | bare {code : List String} : IsCode code → CodeBehind code code
  | separated (code : List String) : CodeBehind code ("--" :: code)

/-- An option has a value where it takes one. -/
def Occurrence.Complete (o : Occurrence) : Prop := o.value.isSome = o.switch.takesValue

theorem Occurrence.WrittenAs.complete {o : Occurrence} {ws : List String} (h : o.WrittenAs ws) :
    o.Complete := by
  cases h with
  | alone hs _ => exact hs.symm
  | apart hs _ _ => exact hs.symm
  | joined _ hs => exact hs.symm

theorem WrittenAs.complete {os : List Occurrence} {words : List String} (h : WrittenAs os words) :
    ∀ o ∈ os, o.Complete := by
  induction h with
  | nil => exact nofun
  | cons ho _ ih => exact List.forall_mem_cons.2 ⟨ho.complete, ih⟩

/-! ## Single words -/

namespace RunArguments

variable {a a' : RunArguments} {pending : Pending} {o : Occurrence} {os os' : List Occurrence}
  {ws words tail code : List String} {v : String} {reason : MemorySizeError}

theorem addOccurrence_eq (h : o.switch.takesValue = false → o.value = none) (a : RunArguments)
    (pending : Pending) :
    a.addOccurrence pending o = (a.settle pending).bind fun a => a.addOccurrence none o := by
  obtain ⟨s, value⟩ := o
  unfold addOccurrence
  cases hs : s.takesValue with
  | false =>
    cases h hs
    cases a.settle pending <;> rfl
  | true => cases value <;> cases a.settle pending <;> rfl

theorem addOccurrence_none_of_complete (complete : o.Complete) (a : RunArguments) :
    a.addOccurrence none o = (a.add o.switch o.value).map fun a => (a, none) := by
  obtain ⟨s, value⟩ := o
  have hs : s.takesValue = value.isSome := complete.symm
  unfold addOccurrence
  cases value <;> rw [hs] <;> rfl

theorem scan_option {w : String} (hw : Role.ofString w = .options [o]) (a : RunArguments)
    (pending : Pending) (ws : List String) :
    a.scan pending (w :: ws) = (a.addOccurrence pending o).bind fun r => r.1.scan r.2 ws := by
  rw [scan_options hw, addOccurrences]
  cases a.addOccurrence pending o <;> rfl

theorem scan_separator (a : RunArguments) (pending : Pending) (ws : List String) :
    a.scan pending ("--" :: ws) = (a.settle pending).bind fun a => .ok { a with code := ws } := by
  have hrole : Role.ofString "--" = .separator := by decide +kernel
  rw [scan.eq_def]
  dsimp only
  rw [hrole]
  cases a.settle pending <;> rfl

theorem scan_isCode (filled : Filled pending) (code : IsCode ws) (a : RunArguments) :
    a.scan pending ws = (a.settle pending).bind fun a => .ok { a with code := ws } := by
  obtain ⟨ws, hw⟩ := code
  rw [scan_code filled (Role.ofString_of_head? hw)]
  cases a.settle pending <;> rfl

/-- Behind the options the code is as it is written. -/
theorem scan_codeBehind (h : CodeBehind code tail) (empty : a.code = []) :
    a.scan none tail = .ok { a with code := code } := by
  cases h with
  | nothing => exact congrArg Except.ok (by rw [← empty])
  | bare hcode => exact scan_isCode filled_none hcode a
  | separated => exact scan_separator a none code

/-! ## Settling -/

/-- Before anything else these words add the option that waits, if it has its value. -/
def Settles (words : List String) : Prop :=
  ∀ (a : RunArguments) (pending : Pending), Filled pending →
    a.scan pending words = (a.settle pending).bind fun a => a.scan none words

theorem settles_of_scan {f : RunArguments → Except ArgumentError RunArguments}
    (h : ∀ (a : RunArguments) (pending : Pending), Filled pending →
      a.scan pending words = (a.settle pending).bind f) :
    Settles words := by
  intro a pending filled
  rw [h a pending filled]
  exact congrArg _ (funext fun a => (h a none filled_none).symm)

theorem settles_codeBehind (h : CodeBehind code tail) : Settles tail := by
  cases h with
  | nothing =>
    refine settles_of_scan (f := .ok) fun a pending _ => ?_
    rw [scan]
    cases a.settle pending <;> rfl
  | bare hcode => exact settles_of_scan fun a _ filled => scan_isCode filled hcode a
  | separated => exact settles_of_scan fun a pending _ => scan_separator a pending code

theorem settles_option {w : String} (hw : Role.ofString w = .options [o])
    (h : o.switch.takesValue = false → o.value = none) (ws : List String) : Settles (w :: ws) := by
  refine settles_of_scan (f := fun a => (a.addOccurrence none o).bind fun r => r.1.scan r.2 ws)
    fun a pending _ => ?_
  rw [scan_option hw, addOccurrence_eq h]
  cases a.settle pending <;> rfl

theorem settles_writtenAs (h : o.WrittenAs ws) (words : List String) : Settles (ws ++ words) := by
  cases h with
  | alone hs hw => exact settles_option (Role.ofString_of_mem_words hw) (fun _ => rfl) words
  | apart hs hw _ => exact settles_option (Role.ofString_of_mem_words hw) (fun _ => rfl) _
  | joined v hs =>
    exact settles_option (Role.ofString_nameWord_joined _ v) (fun h => by simp [hs] at h) words

theorem settles_written (h : WrittenAs os words) (settles : Settles tail) :
    Settles (words ++ tail) := by
  cases h with
  | nil => exact settles
  | cons ho _ =>
    rw [List.append_assoc]
    exact settles_writtenAs ho _

/-! ## Options one after the other -/

/-- Adds options from left to right. -/
def addAll (a : RunArguments) : List Occurrence → Except ArgumentError RunArguments
  | [] => .ok a
  | o :: os => (a.add o.switch o.value).bind fun a => a.addAll os

theorem addAll_append (a : RunArguments) (os os' : List Occurrence) :
    a.addAll (os ++ os') = (a.addAll os).bind fun a => a.addAll os' := by
  induction os generalizing a with
  | nil => rfl
  | cons o os ih =>
    rw [List.cons_append, addAll, addAll]
    cases a.add o.switch o.value with
    | error e => rfl
    | ok a => exact ih a

/-- The words of one option add it. -/
theorem scan_writtenAs (h : o.WrittenAs ws) (settles : Settles words) (a : RunArguments) :
    a.scan none (ws ++ words) =
      (a.add o.switch o.value).bind fun a => a.scan none words := by
  have alone : ∀ w, Role.ofString w = .options [o] → o.Complete →
      a.scan none (w :: words) = (a.add o.switch o.value).bind fun a => a.scan none words := by
    intro w hw complete
    rw [scan_option hw, addOccurrence_none_of_complete complete]
    cases a.add o.switch o.value <;> rfl
  have complete := h.complete
  cases h with
  | alone hs hw => exact alone _ (Role.ofString_of_mem_words hw) complete
  | @apart s w v hs hw hv =>
    have hvalue := Role.ofString_of_head? hv
    -- The value is read, but not looked at before the words that follow.
    refine (scan_pair a hs (Role.ofString_of_mem_words hw) hvalue words).trans ?_
    exact settles a _ (filled_some s v)
  | joined v hs => exact alone _ (Role.ofString_nameWord_joined _ v) complete

/-- The words of options add them, one after the other. -/
theorem scan_written (h : WrittenAs os words) (settles : Settles tail) (a : RunArguments) :
    a.scan none (words ++ tail) = (a.addAll os).bind fun a => a.scan none tail := by
  induction h generalizing a with
  | nil => rfl
  | @cons o os ws words ho written ih =>
    rw [List.append_assoc, scan_writtenAs ho (settles_written written settles), addAll]
    cases a.add o.switch o.value with
    | error e => rfl
    | ok a => exact ih a

/-! ## Meaning -/

/-- The arguments have what these options give, each of them once, and this code. -/
structure Holds (os : List Occurrence) (code : List String) (a : RunArguments) : Prop where
  debug : a.debug = true ↔ ⟨.debug, none⟩ ∈ os
  help : a.help = true ↔ ⟨.help, none⟩ ∈ os
  file : ∀ path, a.file = some path ↔ ⟨.file, some path⟩ ∈ os
  memorySize : ∀ n, a.memorySize = some n ↔
    ∃ v, ⟨.memorySize, some v⟩ ∈ os ∧ parseMemorySize v = .ok n
  code : a.code = code

theorem Holds.unique (h : a.Holds os code) (h' : a'.Holds os code) : a = a' := by
  have hdebug : a.debug = a'.debug := Bool.eq_iff_iff.2 (h.debug.trans h'.debug.symm)
  have hhelp : a.help = a'.help := Bool.eq_iff_iff.2 (h.help.trans h'.help.symm)
  have hfile : a.file = a'.file := Option.ext fun path => (h.file path).trans (h'.file path).symm
  have hsize : a.memorySize = a'.memorySize :=
    Option.ext fun n => (h.memorySize n).trans (h'.memorySize n).symm
  have hcode : a.code = a'.code := h.code.trans h'.code.symm
  cases a
  cases a'
  rw [mk.injEq]
  exact ⟨hdebug, hfile, hsize, hhelp, hcode⟩

theorem Holds.congr (h : a.Holds os code) (hmem : ∀ o, o ∈ os ↔ o ∈ os') : a.Holds os' code := by
  refine ⟨h.debug.trans (hmem _), h.help.trans (hmem _), fun path => (h.file path).trans (hmem _),
    fun n => (h.memorySize n).trans ?_, h.code⟩
  simp only [hmem]

theorem Holds.withCode (h : a.Holds os code) (code' : List String) :
    { a with code := code' }.Holds os code' :=
  ⟨h.debug, h.help, h.file, h.memorySize, rfl⟩

/-- Every memory size among the options is accepted. -/
def SizesAccepted (os : List Occurrence) : Prop :=
  ∀ v, ⟨.memorySize, some v⟩ ∈ os → ∃ n, parseMemorySize v = .ok n

theorem exists_rejected_of_not_sizesAccepted (h : ¬ SizesAccepted os) :
    ∃ v reason, ⟨.memorySize, some v⟩ ∈ os ∧ parseMemorySize v = .error reason := by
  simp only [SizesAccepted, not_forall] at h
  obtain ⟨v, hmem, hv⟩ := h
  cases hsize : parseMemorySize v with
  | ok n => exact absurd ⟨n, hsize⟩ hv
  | error reason => exact ⟨v, reason, hmem, hsize⟩

theorem holds_empty : empty.Holds [] [] := by
  constructor <;> simp [empty]

theorem Holds.add (h : a.Holds os code) (complete : o.Complete)
    (fresh : o.switch ∉ os.map Occurrence.switch)
    (accepted : ∀ v, o = ⟨.memorySize, some v⟩ → ∃ n, parseMemorySize v = .ok n) :
    ∃ a', a.add o.switch o.value = .ok a' ∧ a'.Holds (o :: os) code := by
  obtain ⟨s, value⟩ := o
  have absent : ∀ value', ⟨s, value'⟩ ∉ os := fun _ hmem => fresh (List.mem_map.2 ⟨_, hmem, rfl⟩)
  cases s with
  | debug =>
    cases value with
    | some v => cases complete
    | none =>
      have hdebug : ¬ a.debug = true := h.debug.not.2 (absent _)
      refine ⟨{ a with debug := true }, if_neg hdebug, ?_⟩
      constructor <;> simp [h.help, h.file, h.memorySize, h.code]
  | help =>
    cases value with
    | some v => cases complete
    | none =>
      have hhelp : ¬ a.help = true := h.help.not.2 (absent _)
      refine ⟨{ a with help := true }, if_neg hhelp, ?_⟩
      constructor <;> simp [h.debug, h.file, h.memorySize, h.code]
  | file =>
    cases value with
    | none => cases complete
    | some path =>
      have hfile : a.file = none :=
        Option.eq_none_iff_forall_ne_some.2 fun path' => (h.file path').not.2 (absent _)
      refine ⟨{ a with file := some path }, if_neg (by simp [hfile]), ?_⟩
      constructor <;> simp [h.debug, h.help, h.memorySize, h.code, absent, eq_comm]
  | memorySize =>
    cases value with
    | none => cases complete
    | some v =>
      obtain ⟨n, hn⟩ := accepted v rfl
      have hsize : a.memorySize = none := Option.eq_none_iff_forall_ne_some.2 fun n' hn' => by
        obtain ⟨v', hmem, -⟩ := (h.memorySize n').1 hn'
        exact absent _ hmem
      refine ⟨{ a with memorySize := some n }, ?_, ?_⟩
      · rw [add_memorySize hsize, hn]
      · constructor <;> simp [h.debug, h.help, h.file, h.code, absent, hn]

/-- Options that are all accepted are added one after the other, behind others of other kinds. -/
theorem Holds.addAll (h : a.Holds os code) (complete : ∀ o ∈ os', o.Complete)
    (distinct : ((os ++ os').map Occurrence.switch).Nodup)
    (accepted : SizesAccepted os') :
    ∃ a', a.addAll os' = .ok a' ∧ a'.Holds (os ++ os') code := by
  induction os' generalizing a os with
  | nil => exact ⟨a, rfl, by rwa [List.append_nil]⟩
  | cons o os' ih =>
    -- The option moves from those to come to those in front, where the order does not count.
    have hperm : (o :: os ++ os').Perm (os ++ o :: os') := List.perm_middle.symm
    have distinct' := (hperm.map Occurrence.switch).nodup_iff.2 distinct
    have fresh : o.switch ∉ os.map Occurrence.switch := by
      rw [List.cons_append, List.map_cons, List.nodup_cons, List.map_append] at distinct'
      exact fun hmem => distinct'.1 (List.mem_append_left _ hmem)
    obtain ⟨a₁, hadd, holds₁⟩ := h.add (complete o List.mem_cons_self) fresh
      fun v ho => accepted v (ho ▸ List.mem_cons_self)
    obtain ⟨a', haddAll, holds'⟩ := ih holds₁
      (fun o' ho' => complete o' (List.mem_cons_of_mem _ ho')) distinct'
      fun v hv => accepted v (List.mem_cons_of_mem _ hv)
    refine ⟨a', ?_, holds'.congr fun o' => hperm.mem_iff⟩
    rw [RunArguments.addAll, hadd]
    exact haddAll

/-- A memory size that is refused is an error, whatever the other options are. -/
theorem addAll_of_rejected (complete : ∀ o ∈ os, o.Complete)
    (distinct : (os.map Occurrence.switch).Nodup) (hmem : ⟨.memorySize, some v⟩ ∈ os)
    (rejected : parseMemorySize v = .error reason) :
    empty.addAll os = .error (.invalidMemorySize v reason) := by
  obtain ⟨before, behind, rfl⟩ := List.append_of_mem hmem
  rw [List.map_append, List.map_cons] at distinct
  have absent : ∀ value, ⟨.memorySize, value⟩ ∉ before := fun _ hvalue =>
    (List.nodup_cons.1 (List.perm_middle.nodup_iff.1 distinct)).1
      (List.mem_append_left _ (List.mem_map.2 ⟨_, hvalue, rfl⟩))
  have accepted : SizesAccepted before := fun v hv => absurd hv (absent _)
  obtain ⟨a, hadd, holds⟩ := holds_empty.addAll
    (fun o ho => complete o (List.mem_append_left _ ho)) (List.nodup_append.1 distinct).1 accepted
  have fresh : a.memorySize = none := Option.eq_none_iff_forall_ne_some.2 fun n hn => by
    obtain ⟨v', hv', -⟩ := (holds.memorySize n).1 hn
    exact absent _ hv'
  rw [addAll_append, hadd]
  simp only [Except.bind, addAll]
  rw [add_memorySize fresh, rejected]

theorem parse_written (written : WrittenAs os words) (behind : CodeBehind code tail) :
    parse (words ++ tail) = (empty.addAll os).bind fun a => a.scan none tail :=
  scan_written written (settles_codeBehind behind) empty

theorem exists_holds_of_parse (written : WrittenAs os words)
    (distinct : (os.map Occurrence.switch).Nodup) (behind : CodeBehind code tail)
    (accepted : SizesAccepted os) :
    ∃ a : RunArguments, parse (words ++ tail) = .ok a ∧ a.Holds os code := by
  obtain ⟨a, hadd, holds⟩ := holds_empty.addAll written.complete distinct accepted
  refine ⟨{ a with code := code }, ?_, holds.withCode code⟩
  rw [parse_written written behind, hadd]
  exact scan_codeBehind behind holds.code

theorem parse_rejected (written : WrittenAs os words) (distinct : (os.map Occurrence.switch).Nodup)
    (behind : CodeBehind code tail) (hmem : ⟨.memorySize, some v⟩ ∈ os)
    (rejected : parseMemorySize v = .error reason) :
    parse (words ++ tail) = .error (.invalidMemorySize v reason) := by
  rw [parse_written written behind, addAll_of_rejected written.complete distinct hmem rejected]
  rfl

/-- The order of the options, their words and the separator make no difference. -/
theorem parse_perm {words' tail' : List String} (perm : os'.Perm os) (written : WrittenAs os words)
    (written' : WrittenAs os' words') (distinct : (os.map Occurrence.switch).Nodup)
    (behind : CodeBehind code tail) (behind' : CodeBehind code tail') :
    parse (words' ++ tail') = parse (words ++ tail) := by
  have distinct' := (perm.map Occurrence.switch).nodup_iff.2 distinct
  by_cases accepted : SizesAccepted os
  · have accepted' : SizesAccepted os' := fun v hv => accepted v (perm.mem_iff.1 hv)
    obtain ⟨a, hparse, holds⟩ := exists_holds_of_parse written distinct behind accepted
    obtain ⟨a', hparse', holds'⟩ := exists_holds_of_parse written' distinct' behind' accepted'
    rw [hparse, hparse', holds.unique (holds'.congr fun o => perm.mem_iff)]
  · obtain ⟨v, reason, hmem, rejected⟩ := exists_rejected_of_not_sizesAccepted accepted
    rw [parse_rejected written distinct behind hmem rejected,
      parse_rejected written' distinct' behind' (perm.mem_iff.2 hmem) rejected]

end RunArguments

/-! ## Runs -/

/-- Options in front of the code, none of a kind twice, give the command what they say and the code
word for word, even if further words look like options.  A memory size that is refused is reported
instead, even if help is asked for.  The order of the options, how they are written and a separator
behind them make no difference to how the program ends. -/
theorem options_determine_run {command : String} (hcommand : Arguments.isCommand command = true)
    {os : List Occurrence} {words : List String} (written : WrittenAs os words)
    (distinct : (os.map Occurrence.switch).Nodup) {code tail : List String}
    (behind : CodeBehind code tail) :
    (RunArguments.SizesAccepted os → ∃ a : RunArguments, a.Holds os code ∧
      Arguments.parse (command :: (words ++ tail)) = .ok ⟨false, some a⟩ ∧
      ∀ program w fuel, runCommands program (command :: (words ++ tail)) w fuel =
        (Plan.ofRunArguments program a).perform program w fuel) ∧
    (∀ v reason, ⟨.memorySize, some v⟩ ∈ os → parseMemorySize v = .error reason →
      Arguments.parse (command :: (words ++ tail)) = .error (.invalidMemorySize v reason) ∧
      ∀ program w fuel, runCommands program (command :: (words ++ tail)) w fuel =
        some ⟨2, "", (ArgumentError.invalidMemorySize v reason).report, .stream w.stdin⟩) ∧
    ∀ os' words' tail', os'.Perm os → WrittenAs os' words' → CodeBehind code tail' →
      ∀ program w fuel, runCommands program (command :: (words' ++ tail')) w fuel =
        runCommands program (command :: (words ++ tail)) w fuel := by
  refine ⟨fun accepted => ?_, fun v reason hmem rejected => ?_,
    fun os' words' tail' perm written' behind' program w fuel => ?_⟩
  · obtain ⟨a, hparse, holds⟩ :=
      RunArguments.exists_holds_of_parse written distinct behind accepted
    refine ⟨a, holds, ?_, fun program w fuel => ?_⟩
    · rw [Arguments.parse_command hcommand, hparse]
      rfl
    · rw [runCommands, Plan.ofCommands_cons hcommand, hparse]
  · have hparse := RunArguments.parse_rejected written distinct behind hmem rejected
    refine ⟨?_, fun program w fuel => ?_⟩
    · rw [Arguments.parse_command hcommand, hparse]
      rfl
    · rw [runCommands, Plan.ofCommands_cons hcommand, hparse]
      rfl
  · rw [runCommands, runCommands, Plan.ofCommands_cons hcommand, Plan.ofCommands_cons hcommand,
      RunArguments.parse_perm perm written written' distinct behind behind']

/-- Behind the first word of the code `-d` and `--` are code.  A memory size of zero is reported
although help is asked for. -/
theorem options_determine_run_before_hyphens :
    Arguments.parse ["run", "--memory-size=1_6", "-d", "+", "-d", "--"] =
        .ok ⟨false, some ⟨true, none, some 16, false, ["+", "-d", "--"]⟩⟩ ∧
      (∀ program w fuel,
        runCommands program ["run", "--debug", "-m", "1_6", "--", "+", "-d", "--"] w fuel =
          runCommands program ["run", "--memory-size=1_6", "-d", "+", "-d", "--"] w fuel) ∧
      Arguments.parse ["run", "-h", "-m", "0", "+"] = .error (.invalidMemorySize "0" .zero) := by
  have joined : Occurrence.WrittenAs ⟨.memorySize, some "1_6"⟩ ["--memory-size=1_6"] :=
    .joined "1_6" rfl
  have written :
      WrittenAs [⟨.memorySize, some "1_6"⟩, ⟨.debug, none⟩] ["--memory-size=1_6", "-d"] :=
    .cons joined (.cons (.alone rfl (by decide)) .nil)
  have respelled :
      WrittenAs [⟨.debug, none⟩, ⟨.memorySize, some "1_6"⟩] ["--debug", "-m", "1_6"] :=
    .cons (.alone rfl (by decide)) (.cons (.apart rfl (by decide) (by decide)) .nil)
  have rejected : WrittenAs [⟨.help, none⟩, ⟨.memorySize, some "0"⟩] ["-h", "-m", "0"] :=
    .cons (.alone rfl (by decide)) (.cons (.apart rfl (by decide) (by decide)) .nil)
  have size : parseMemorySize "1_6" = .ok 16 := by decide +kernel
  have run : Arguments.isCommand "run" = true := by decide
  have code : IsCode ["+", "-d", "--"] := .intro ["-d", "--"] (by decide)
  have code' : IsCode ["+"] := .intro [] (by decide)
  obtain ⟨accepts, -, same⟩ := options_determine_run run written (by decide) (.bare code)
  obtain ⟨-, rejects, -⟩ := options_determine_run run rejected (by decide) (.bare code')
  have accepted : RunArguments.SizesAccepted [⟨.memorySize, some "1_6"⟩, ⟨.debug, none⟩] := by
    intro v hv
    have hsize : v = "1_6" := by simpa using hv
    exact ⟨16, hsize ▸ size⟩
  obtain ⟨a, holds, hparse, -⟩ := accepts accepted
  have expected : RunArguments.Holds [⟨.memorySize, some "1_6"⟩, ⟨.debug, none⟩] ["+", "-d", "--"]
      ⟨true, none, some 16, false, ["+", "-d", "--"]⟩ := by
    constructor <;> simp [size]
  refine ⟨?_, ?_, ?_⟩
  · rw [← holds.unique expected]
    exact hparse
  · exact same _ _ _ (List.Perm.swap _ _ _) respelled (.separated _)
  · exact (rejects "0" .zero (by decide) (by decide +kernel)).1

end Brainfuck.CommandLine
