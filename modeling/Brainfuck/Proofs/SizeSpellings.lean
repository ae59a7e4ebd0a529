import Brainfuck.Proofs.CodeOrigin
import Brainfuck.Proofs.SettingsFile
import Mathlib.Data.List.TFAE

/-!
# One memory size in three places

A memory size is written in the same way on the command line, in the environment and in a settings
file.  The file is split into lines and at an equals sign, and white space and quotes are removed
from the value, but nothing of this changes how a size is read: a file with one line for it gives
what its value spells, with quotes around the value (`Settings.memorySize_sizeFile_quoted`) or not
(`Settings.memorySize_sizeFile_unquoted`).  So the three places agree on every text of one line
without quotes (`size_sources_agree`).  What is no memory size is an error on the command line only.
-/

namespace Brainfuck

variable {v : String} {n : ℕ}

/-! ## Texts -/

/-- Only the numeral of a text counts for the size that it spells. -/
theorem memorySize?_congr {text text' : String}
    (h : memorySizeNumeral text = memorySizeNumeral text') : memorySize? text = memorySize? text' := by
  unfold memorySize? parseMemorySize
  rw [h]
  cases Text.readNumeral memorySizeLimit (memorySizeNumeral text') <;> rfl

theorem memorySizeNumeral_ofList_trim (v : String) :
    memorySizeNumeral (String.ofList (Text.trim v.toList)) = memorySizeNumeral v := by
  have htrim : Text.trim (Text.trim v.toList) = Text.trim v.toList := Text.strip_strip _ _
  rw [memorySizeNumeral, String.toList_ofList, htrim]
  rfl

/-- A memory size has no hyphen in front, so it does not look like an option. -/
theorem head?_ne_hyphen_of_parseMemorySize (h : parseMemorySize v = .ok n) :
    v.toList.head? ≠ some '-' := by
  intro hhead
  obtain ⟨cs, hcs⟩ := List.head?_eq_some_iff.1 hhead
  have hhyphen : Text.isBlank '-' = false := by decide
  have hnil : ∀ d, ([] : List Char).head? = some d → Text.isBlank d = false := nofun
  obtain ⟨rest, hstrip, -⟩ := Text.exists_strip_append_cons hhyphen hnil cs
  have hnumeral : memorySizeNumeral v = '-' :: rest.filter (· ≠ '_') := by
    rw [memorySizeNumeral, hcs, Text.trim]
    exact congrArg (List.filter _) hstrip
  have hread : parseMemorySize v = .error (.number v .invalidDigit) := by
    rw [parseMemorySize, hnumeral]
    rfl
  cases hread.symm.trans h

/-! ## The settings file -/

namespace Settings

/-- A settings file that gives the memory size only. -/
def sizeFile (value : String) : String := "[interpreter]\nmemory_size = " ++ value

/-- The line of the settings file, without the white space at its ends. -/
def sizeLine (value : String) : List Char :=
  Text.trim ("memory_size ".toList ++ '=' :: ' ' :: value.toList)

theorem trimmedLines_sizeFile (one_line : '\n' ∉ v.toList) :
    trimmedLines (sizeFile v) = ["[interpreter]".toList, sizeLine v] := by
  have hlines : "[interpreter]\nmemory_size = ".toList =
      "[interpreter]".toList ++ '\n' :: ("memory_size ".toList ++ ['=', ' ']) := by
    decide +kernel
  have htext : (sizeFile v).toList =
      "[interpreter]".toList ++ '\n' :: ("memory_size ".toList ++ '=' :: ' ' :: v.toList) := by
    change ("[interpreter]\nmemory_size = " ++ v).toList = _
    rw [String.toList_append, hlines]
    simp only [List.append_assoc, List.cons_append, List.nil_append]
  have hline : '\n' ∉ "memory_size ".toList ++ '=' :: ' ' :: v.toList := by
    have hkey : '\n' ∉ "memory_size ".toList := by decide +kernel
    simp only [List.mem_append, List.mem_cons, hkey, one_line]
    decide
  have hheader : Text.trim "[interpreter]".toList = "[interpreter]".toList := by decide +kernel
  rw [trimmedLines, htext, Text.split_append_cons (by decide +kernel), Text.split_of_notMem hline,
    List.map_cons, hheader]
  rfl

theorem assigns_sizeLine (v : String) :
    Assigns (sizeLine v) (Text.strip (· = '"') (Text.trim v.toList)) := by
  have hequals : Text.isBlank '=' = false := by decide
  have hkey : ∀ d, "memory_size ".toList.head? = some d → Text.isBlank d = false := by
    intro d hd
    obtain rfl : 'm' = d := Option.some.inj hd
    decide
  obtain ⟨rest, hline, hrest⟩ := Text.exists_strip_append_cons hequals hkey (' ' :: v.toList)
  have hspace : ∀ c ∈ [' '], Text.isBlank c = true := List.forall_mem_singleton.2 (by decide)
  have hnil : ∀ c ∈ ([] : List Char), Text.isBlank c = true := nofun
  have hvalue : Text.trim rest = Text.trim v.toList := by
    have hfront := Text.strip_surround hspace hnil v.toList
    rw [List.append_nil] at hfront
    exact hrest.trans hfront
  have hhead : (sizeLine v).head? = some 'm' := congrArg List.head? hline
  refine ⟨by rw [hhead]; decide, fun h => ?_, _, rest, hline, by decide +kernel, by decide +kernel,
    by rw [hvalue]⟩
  cases hhead.symm.trans h.first

/-- The file gives the size that is spelled between the quotes. -/
theorem memorySize_sizeFile (one_line : '\n' ∉ v.toList) : (parse (sizeFile v)).memorySize =
    memorySize? (String.ofList (Text.strip (· = '"') (Text.trim v.toList))) := by
  have hheader : Line.ofTrimmed "[interpreter]".toList = .header sectionName := by decide +kernel
  rw [parse_memorySize, trimmedLines_sizeFile one_line, List.map_cons, List.map_singleton, hheader,
    ofTrimmed_eq_assignment_iff.2 (assigns_sizeLine v)]
  simp [lastValue]

theorem memorySize_sizeFile_unquoted (one_line : '\n' ∉ v.toList) (unquoted : '"' ∉ v.toList) :
    (parse (sizeFile v)).memorySize = memorySize? v := by
  have hstrip : Text.strip (· = '"') (Text.trim v.toList) = Text.trim v.toList := by
    refine Text.strip_eq_self fun c hc => decide_eq_false fun heq => unquoted ?_
    exact heq ▸ Text.mem_of_mem_strip hc
  rw [memorySize_sizeFile one_line, hstrip]
  exact memorySize?_congr (memorySizeNumeral_ofList_trim v)

theorem memorySize_sizeFile_quoted (one_line : '\n' ∉ v.toList) (unquoted : '"' ∉ v.toList) :
    (parse (sizeFile ("\"" ++ v ++ "\""))).memorySize = memorySize? v := by
  have htext : ("\"" ++ v ++ "\"").toList = ['"'] ++ v.toList ++ ['"'] := by
    rw [String.toList_append, String.toList_append]
    rfl
  have hquote : ∀ c ∈ ['"'], decide (c = '"') = true := List.forall_mem_singleton.2 (by decide)
  have htrim : Text.trim (['"'] ++ v.toList ++ ['"']) = ['"'] ++ v.toList ++ ['"'] := by
    refine Text.Stripped.strip_eq ⟨fun c hc => ?_, fun c hc => ?_⟩
    · obtain rfl : '"' = c := Option.some.inj hc
      decide
    · rw [List.getLast?_concat] at hc
      obtain rfl : '"' = c := Option.some.inj hc
      decide
  have hstrip : Text.strip (· = '"') (['"'] ++ v.toList ++ ['"']) = v.toList := by
    rw [Text.strip_surround hquote hquote]
    exact Text.strip_eq_self fun c hc => decide_eq_false fun heq => unquoted (heq ▸ hc)
  have one_line' : '\n' ∉ ("\"" ++ v ++ "\"").toList := by
    rw [htext]
    simp [one_line]
  rw [memorySize_sizeFile one_line', htext, htrim, hstrip, String.ofList_toList]

end Settings

/-! ## The environment -/

namespace Environment

variable {env env' : Environment} {text : String}

theorem variableSize?_of_text (h : env.sizeVariable = some v.toUTF8) :
    env.variableSize? = memorySize? v := by
  rw [variableSize?, h, Option.bind_some, Utf8.fromUTF8?_eq_some_iff.2 rfl, Option.bind_some]

theorem settingsSize?_of_text (h : env.settingsFile? = some text.toUTF8) :
    env.settingsSize? = (Settings.parse text).memorySize := by
  rw [settingsSize?, h, Option.bind_some, Utf8.fromUTF8?_eq_some_iff.2 rfl, Option.bind_some]

theorem resolveMemorySize_congr (hvariable : env.variableSize? = env'.variableSize?)
    (hsettings : env.settingsSize? = env'.settingsSize?) (given : Option ℕ) :
    env.resolveMemorySize given = env'.resolveMemorySize given := by
  unfold resolveMemorySize
  rw [hvariable, hsettings]

theorem resolveMemorySize_none_eq (env : Environment) : env.resolveMemorySize none =
    (env.variableSize?.or env.settingsSize?).getD defaultMemorySize := by
  unfold resolveMemorySize
  cases env.variableSize? <;> cases env.settingsSize? <;> rfl

/-- The variable decides, whatever the settings file says, if it spells a memory size. -/
theorem variable_decides_iff : (∀ env : Environment, env.sizeVariable = some v.toUTF8 →
    env.resolveMemorySize none = n) ↔ memorySize? v = some n := by
  constructor
  · intro decides
    let silent : Environment := ⟨some v.toUTF8, false, none, none⟩
    have hsilent := decides silent rfl
    rw [resolveMemorySize_none_eq, variableSize?_of_text rfl] at hsilent
    cases hsize : memorySize? v with
    | some m =>
      rw [hsize] at hsilent
      exact congrArg some hsilent
    | none =>
      -- a settings file would decide then, so that no size is that of every environment
      let single : Environment := ⟨some v.toUTF8, false, none, some (Settings.sizeFile "1").toUTF8⟩
      have one : (Settings.parse (Settings.sizeFile "1")).memorySize = some 1 := by decide +kernel
      have hsingle := decides single rfl
      rw [resolveMemorySize_none_eq, variableSize?_of_text rfl, settingsSize?_of_text rfl, one, hsize]
        at hsingle
      rw [hsize] at hsilent
      cases hsilent.trans hsingle.symm
  · intro hsize env h
    rw [resolveMemorySize_none_eq, variableSize?_of_text h, hsize]
    rfl

end Environment

/-! ## The command line -/

namespace CommandLine

/-- The words of the option for the memory size. -/
inductive IsSizeOption (value : String) : List String → Prop
  | long : IsSizeOption value ["--memory-size", value]
  | short : IsSizeOption value ["-m", value]
  | joined : IsSizeOption value ["--memory-size=" ++ value]

/-- A name with an equals sign behind it has a value. -/
theorem Word.ofString_joined {name : List Char} (hname : name ≠ []) (hequals : '=' ∉ name) {w : String}
    (hw : w.toList = '-' :: '-' :: (name ++ '=' :: v.toList)) : ofString w = long name (some v) := by
  obtain ⟨htake, hdrop⟩ := Text.span_append_cons hequals v.toList
  obtain ⟨c, cs, rfl⟩ := List.exists_cons_of_ne_nil hname
  rw [List.cons_append] at hw htake hdrop
  rw [ofString, hw]
  simp only [hdrop, htake, String.ofList_toList]

theorem Role.ofString_joined {name : List Char} {s : Switch} (known : Switch.ofName? name = some s)
    (hname : name ≠ []) (hequals : '=' ∉ name) {w : String}
    (hw : w.toList = '-' :: '-' :: (name ++ '=' :: v.toList)) :
    ofString w = options [⟨s, some v⟩] := by
  rw [ofString, Word.ofString_joined hname hequals hw]
  dsimp only
  rw [known]

namespace RunArguments

variable {a : RunArguments} {words ws : List String} {reason : MemorySizeError}

theorem add_memorySize (fresh : a.memorySize = none) (v : String) :
    a.add .memorySize (some v) =
      match parseMemorySize v with
      | .ok size => .ok { a with memorySize := some size }
      | .error reason => .error (.invalidMemorySize v reason) := by
  have hfresh : ¬ a.memorySize.isSome = true := by simp [fresh]
  cases h : parseMemorySize v <;> rw [add, if_neg hfresh, h]

theorem add_memorySize_error (a : RunArguments) (h : parseMemorySize v = .error reason) :
    ∃ e, a.add .memorySize (some v) = .error e := by
  rw [add, h]
  split <;> exact ⟨_, rfl⟩

theorem scan_joined (a : RunArguments) (v : String) (ws : List String) :
    a.scan none (("--memory-size=" ++ v) :: ws) =
      match a.add .memorySize (some v) with
      | .ok a => a.scan none ws
      | .error e => .error e := by
  have htext : ("--memory-size=" ++ v).toList =
      '-' :: '-' :: ("memory-size".toList ++ '=' :: v.toList) := by
    rw [String.toList_append]
    rfl
  have known : Switch.ofName? "memory-size".toList = some .memorySize := by decide +kernel
  rw [scan_options (Role.ofString_joined known (by decide +kernel) (by decide +kernel) htext)]
  simp only [addOccurrences, addOccurrence, Switch.takesValue, settle]
  cases a.add .memorySize (some v) <;> rfl

/-- An option that takes a value, with a next word that can be one. -/
theorem scan_pair (a : RunArguments) {s : Switch} (hs : s.takesValue = true) {w : String}
    (hw : Role.ofString w = .options [⟨s, none⟩]) (hv : Role.ofString v = .other)
    (ws : List String) : a.scan none (w :: v :: ws) = a.scan (some (s, some v)) ws := by
  rw [scan_takesValue a none hs hw]
  exact scan_value hv ws

/-- The value of the option is read, and the code begins behind it. -/
theorem scan_sizeOption (a : RunArguments) (opt : IsSizeOption v words)
    (hv : Role.ofString v = .other) (code : IsCode ws) :
    a.scan none (words ++ ws) =
      (a.add .memorySize (some v)).map fun a => { a with code := ws } := by
  obtain @⟨first, ws, hfirst⟩ := code
  have hcode := Role.ofString_of_head? hfirst
  have pair : ∀ w : String, Role.ofString w = .options [⟨.memorySize, none⟩] →
      a.scan none (w :: v :: first :: ws) =
        (a.add .memorySize (some v)).map fun a => { a with code := first :: ws } := by
    intro w hrole
    rw [scan_pair a rfl hrole hv, scan_code (filled_some .memorySize v) hcode, settle]
  cases opt with
  | long => exact pair _ (by decide +kernel)
  | short => exact pair _ (by decide +kernel)
  | joined =>
    refine (scan_joined a v _).trans ?_
    cases a.add .memorySize (some v) with
    | error e => rfl
    | ok a' => exact scan_code filled_none hcode ws

/-- A value that is no memory size is an error, whatever follows. -/
theorem scan_sizeOption_error (a : RunArguments) (opt : IsSizeOption v words)
    (h : parseMemorySize v = .error reason) (ws : List String) :
    ∃ e, a.scan none (words ++ ws) = .error e := by
  obtain ⟨e, hadd⟩ := add_memorySize_error a h
  have pair : ∀ w : String, Role.ofString w = .options [⟨.memorySize, none⟩] →
      ∃ e, a.scan none (w :: v :: ws) = .error e := by
    intro w hrole
    by_cases hv : Role.ofString v = .other
    · rw [scan_pair a rfl hrole hv]
      cases ws with
      | nil => exact ⟨e, hadd⟩
      | cons w' ws =>
        have hsettle : a.settle (some (.memorySize, some v)) = .error e := hadd
        obtain ⟨e', he⟩ := scan_settle_error hsettle (.inr (filled_some .memorySize v))
        exact ⟨e', he ws⟩
    · obtain ⟨e', he⟩ := scan_missing a (s := .memorySize) rfl hv
      exact ⟨e', (scan_takesValue a none rfl hrole _).trans (he ws)⟩
  cases opt with
  | long => exact pair _ (by decide +kernel)
  | short => exact pair _ (by decide +kernel)
  | joined =>
    refine ⟨e, (scan_joined a v ws).trans ?_⟩
    rw [hadd]

theorem parse_of_accepted (opt : IsSizeOption v words) (h : parseMemorySize v = .ok n)
    (code : IsCode ws) : parse (words ++ ws) = .ok ⟨false, none, some n, false, ws⟩ := by
  have hv := Role.ofString_of_head? (head?_ne_hyphen_of_parseMemorySize h)
  rw [parse, scan_sizeOption empty opt hv code, add_memorySize rfl, h]
  rfl

theorem parse_of_rejected (opt : IsSizeOption v words) (h : parseMemorySize v = .error reason)
    (hyphen : v.toList.head? ≠ some '-') (code : IsCode ws) :
    parse (words ++ ws) = .error (.invalidMemorySize v reason) := by
  rw [parse, scan_sizeOption empty opt (Role.ofString_of_head? hyphen) code, add_memorySize rfl, h]
  rfl

theorem parse_sizeOption_iff (opt : IsSizeOption v words) (code : IsCode ws) :
    parse (words ++ ws) = .ok ⟨false, none, some n, false, ws⟩ ↔ parseMemorySize v = .ok n := by
  constructor
  · intro hparse
    cases h : parseMemorySize v with
    | ok m =>
      cases hparse.symm.trans (parse_of_accepted opt h code)
      rfl
    | error reason =>
      obtain ⟨e, he⟩ := scan_sizeOption_error empty opt h ws
      cases hparse.symm.trans he
  · intro h
    exact parse_of_accepted opt h code

end RunArguments

end CommandLine

/-! ## All places -/

open CommandLine in
/-- A text of one line without quotes is the same memory size on the command line, in the
environment and in the settings file, with quotes around it or not.  A text that is no memory size
is an error on the command line, and the environment or the settings file with it counts as if it
were not there. -/
theorem size_sources_agree {v : String} (one_line : '\n' ∉ v.toList) (unquoted : '"' ∉ v.toList)
    {words : List String} (opt : IsSizeOption v words) :
    (∀ n ws, IsCode ws → List.TFAE [
      parseMemorySize v = .ok n,
      RunArguments.parse (words ++ ws) = .ok ⟨false, none, some n, false, ws⟩,
      ∀ env : Environment, env.sizeVariable = some v.toUTF8 → env.resolveMemorySize none = n,
      (Settings.parse (Settings.sizeFile v)).memorySize = some n,
      (Settings.parse (Settings.sizeFile ("\"" ++ v ++ "\""))).memorySize = some n]) ∧
    ∀ reason, parseMemorySize v = .error reason →
      (∀ ws, ∃ e, RunArguments.parse (words ++ ws) = .error e ∧
        (IsCode ws → v.toList.head? ≠ some '-' → e = .invalidMemorySize v reason) ∧
        ∀ command program, Arguments.isCommand command = true →
          Plan.ofCommands program (command :: (words ++ ws)) = .stop 2 e.report) ∧
      (∀ (env : Environment) given, env.sizeVariable = some v.toUTF8 →
        env.resolveMemorySize given =
          { env with sizeVariable := none }.resolveMemorySize given) ∧
      ∀ (env : Environment) given text, text = v ∨ text = "\"" ++ v ++ "\"" →
        env.settingsFile? = some (Settings.sizeFile text).toUTF8 →
        env.resolveMemorySize given =
          { env with configHomeSettings := none, userSettings := none }.resolveMemorySize given := by
  have hplain := Settings.memorySize_sizeFile_unquoted one_line unquoted
  have hquoted := Settings.memorySize_sizeFile_quoted one_line unquoted
  refine ⟨fun n ws code => ?_, fun reason rejected => ⟨fun ws => ?_, fun env given h => ?_,
    fun env given text htext h => ?_⟩⟩
  · rw [hplain, hquoted, Environment.variable_decides_iff, memorySize?_eq_some_iff,
      RunArguments.parse_sizeOption_iff opt code]
    simp
  · obtain ⟨e, he⟩ := RunArguments.scan_sizeOption_error .empty opt rejected ws
    have hparse : RunArguments.parse (words ++ ws) = .error e := he
    refine ⟨e, hparse, fun code hyphen => ?_, fun command program hcommand => ?_⟩
    · exact Except.error.inj
        (hparse.symm.trans (RunArguments.parse_of_rejected opt rejected hyphen code))
    · rw [Plan.ofCommands_cons hcommand, hparse]
  · have unread : env.variableSize? = none := by
      rw [Environment.variableSize?_of_text h, memorySize?, rejected]
      rfl
    refine Environment.resolveMemorySize_congr ?_ ?_ given
    · rw [unread]
      rfl
    · rfl
  · have unread : env.settingsSize? = none := by
      rw [Environment.settingsSize?_of_text h]
      rcases htext with rfl | rfl
      · rw [hplain, memorySize?, rejected]
        rfl
      · rw [hquoted, memorySize?, rejected]
        rfl
    refine Environment.resolveMemorySize_congr ?_ ?_ given
    · rfl
    · rw [unread]
      unfold Environment.settingsSize? Environment.settingsFile?
      dsimp only
      split <;> rfl

open CommandLine in
/-- White space and an underscore count nowhere; brackets and a hash sign are refused, but do not make
a header or a comment of the line. -/
theorem size_sources_agree_for_padded_size :
    RunArguments.parse ["-m", " 1_6\t", "+"] = .ok ⟨false, none, some 16, false, ["+"]⟩ ∧
      Environment.resolveMemorySize ⟨some " 1_6\t".toUTF8, false, none, none⟩ none = 16 ∧
      (Settings.parse (Settings.sizeFile " 1_6\t")).memorySize = some 16 ∧
      (Settings.parse (Settings.sizeFile "\" 1_6\t\"")).memorySize = some 16 ∧
      RunArguments.parse ["--memory-size", "[16]=#", "+"] =
        .error (.invalidMemorySize "[16]=#" (.number "[16]=#" .invalidDigit)) ∧
      Environment.resolveMemorySize ⟨some "[16]=#".toUTF8, true, none, none⟩ none =
        defaultMemorySize ∧
      Environment.resolveMemorySize
        ⟨none, true, some (Settings.sizeFile "[16]=#").toUTF8, none⟩ none = defaultMemorySize := by
  have code : IsCode ["+"] := .intro [] (by decide)
  have opt : IsSizeOption " 1_6\t" ["-m", " 1_6\t"] := .short
  have opt' : IsSizeOption "[16]=#" ["--memory-size", "[16]=#"] := .long
  obtain ⟨agree, -⟩ := size_sources_agree (by decide +kernel) (by decide +kernel) opt
  obtain ⟨-, refuse⟩ := size_sources_agree (by decide +kernel) (by decide +kernel) opt'
  have same := agree 16 ["+"] code
  have accepted : parseMemorySize " 1_6\t" = .ok 16 := by decide +kernel
  have in_environment : ∀ env : Environment, env.sizeVariable = some " 1_6\t".toUTF8 →
      env.resolveMemorySize none = 16 :=
    (same.out 0 2).1 accepted
  obtain ⟨as_option, as_variable, as_file⟩ :=
    refuse (.number "[16]=#" .invalidDigit) (by decide +kernel)
  obtain ⟨e, he, hreason, -⟩ := as_option ["+"]
  refine ⟨(same.out 0 1).1 accepted, in_environment _ rfl, (same.out 0 3).1 accepted,
    (same.out 0 4).1 accepted, ?_, ?_, ?_⟩
  · rw [← hreason code (by decide +kernel)]
    exact he
  · exact as_variable ⟨some "[16]=#".toUTF8, true, none, none⟩ none rfl
  · exact as_file ⟨none, true, some (Settings.sizeFile "[16]=#").toUTF8, none⟩ none _ (.inl rfl) rfl

end Brainfuck
