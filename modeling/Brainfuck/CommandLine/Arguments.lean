import Brainfuck.MemorySize
import Brainfuck.Text.ControlSequence

/-!
# Arguments

The words of the command line that has options.  Before the command, `run` or `read`, there is only
the option for help.  After it come options up to the first word that is none; from there on every
word is code.  A separator `--` ends the options as well.

A word that begins with a hyphen is an option only if it is one exactly: `--` and a known name,
perhaps with `=` and a value, or a hyphen and known letters only.  A value may also be the next
word; such a value is looked at when the next option, the code or the end is reached.  Of several
errors the one that is met first counts.
-/

namespace Brainfuck.CommandLine

/-- The options of the command line. -/
inductive Switch where
  | debug
  | file
  | memorySize
  | help
  deriving DecidableEq

namespace Switch

/-- The option with a letter, as it stands after one hyphen. -/
def ofLetter? : Char → Option Switch
  | 'd' => some debug
  | 'f' => some file
  | 'm' => some memorySize
  | 'h' => some help
  | _ => none

/-- The option with a name, as it stands after two hyphens. -/
def ofName? (name : List Char) : Option Switch :=
  if name = "debug".toList then some debug
  else if name = "file".toList then some file
  else if name = "memory-size".toList then some memorySize
  else if name = "help".toList then some help
  else none

/-- Whether an option comes with a value. -/
def takesValue : Switch → Bool
  | debug => false
  | file => true
  | memorySize => true
  | help => false

/-- An option as messages show it. -/
def text : Switch → String
  | debug => "--debug"
  | file => "--file <FILE>"
  | memorySize => "--memory-size <N>"
  | help => "--help"

end Switch

/-- What is wrong with the words of a command line. -/
inductive ArgumentError where
  | missingValue (s : Switch)
  | repeated (s : Switch)
  | unexpectedValue (s : Switch) (value : String)
  | invalidMemorySize (value : String) (reason : MemorySizeError)
  /-- There is no such option here. -/
  | unexpectedArgument (argument : String)
  | unknownCommand (word : String)
  deriving DecidableEq

namespace ArgumentError

/-- What is wrong, in yellow. -/
def wrong (text : String) : String := Text.styled "33" text

/-- What is to be written as it is, in bold. -/
def literal (text : String) : String := Text.styled "1" text

/-- What is wrong with the arguments, in words and with styles. -/
def message : ArgumentError → String
  | missingValue s => "a value is required for '" ++ wrong s.text ++ "' but none was supplied"
  | repeated s => "the argument '" ++ wrong s.text ++ "' cannot be used multiple times"
  | unexpectedValue s value =>
    "unexpected value '" ++ wrong value ++ "' for '" ++ literal s.text ++
      "' found; no more were expected"
  | invalidMemorySize value reason =>
    "invalid value '" ++ wrong value ++ "' for '" ++ literal Switch.memorySize.text ++ "': " ++
      reason.message
  | unexpectedArgument argument => "unexpected argument '" ++ wrong argument ++ "' found"
  | unknownCommand word => "unrecognized subcommand '" ++ wrong word ++ "'"

/-- What is shown of an error where there is no terminal: the styles are gone, and so are the
control sequences that the arguments bring with them. -/
def report (e : ArgumentError) : String :=
  Text.removeControls (Text.styled "1;31" "error:" ++ " " ++ e.message ++ "\n")

end ArgumentError

/-! ## Words -/

/-- What a word looks like. -/
inductive Word where
  /-- Two hyphens. -/
  | separator
  /-- Two hyphens and a name, perhaps with `=` and a value. -/
  | long (name : List Char) (value : Option String)
  /-- A hyphen and letters. -/
  | short (letters : List Char)
  /-- Anything else, a single hyphen included. -/
  | plain
  deriving DecidableEq

/-- Tells by its hyphens what a word looks like.  A name ends in front of the first `=`. -/
def Word.ofString (w : String) : Word :=
  match w.toList with
  | ['-', '-'] => .separator
  | '-' :: '-' :: cs =>
    match cs.dropWhile (· ≠ '=') with
    | [] => .long cs none
    | _ :: value => .long (cs.takeWhile (· ≠ '=')) (some (String.ofList value))
  | '-' :: c :: cs => .short (c :: cs)
  | _ => .plain

/-! ## After the command -/

/-- An option as it is written, with the value that stands in the same word. -/
structure Occurrence where
  switch : Switch
  value : Option String
  deriving DecidableEq

/-- The options of a word of letters, if all its letters are known.  What follows the letter of an
option that has a value is the value. -/
def Occurrence.ofLetters? : List Char → Option (List Occurrence)
  | [] => some []
  | c :: cs =>
    match Switch.ofLetter? c, ofLetters? cs with
    | some s, some rest =>
      if s.takesValue then
        some [⟨s, if cs = [] then none else some (String.ofList cs)⟩]
      else
        some (⟨s, none⟩ :: rest)
    | _, _ => none

/-- What a word is where options may stand. -/
inductive Role where
  | separator
  | options (os : List Occurrence)
  /-- A value or the first word of the code. -/
  | other
  deriving DecidableEq

/-- Tells what a word is.  One that looks like an option but is none may be code. -/
def Role.ofString (w : String) : Role :=
  match Word.ofString w with
  | .separator => .separator
  | .long name value =>
    match Switch.ofName? name with
    | some s => .options [⟨s, value⟩]
    | none => .other
  | .short letters =>
    match Occurrence.ofLetters? letters with
    | some os => .options os
    | none => .other
  | .plain => .other

/-- What the words after the command have told. -/
structure RunArguments where
  debug : Bool
  file : Option String
  memorySize : Option Nat
  help : Bool
  code : List String
  deriving DecidableEq

namespace RunArguments

/-- Nothing has been told yet. -/
def empty : RunArguments := ⟨false, none, none, false, []⟩

/-- Adds an option with its value.  Each option can be given once, and a size must be one. -/
def add (a : RunArguments) : Switch → Option String → Except ArgumentError RunArguments
  | .debug, _ => if a.debug then .error (.repeated .debug) else .ok { a with debug := true }
  | .help, _ => if a.help then .error (.repeated .help) else .ok { a with help := true }
  | .file, none => .error (.missingValue .file)
  | .file, some path =>
    if a.file.isSome then .error (.repeated .file) else .ok { a with file := some path }
  | .memorySize, none => .error (.missingValue .memorySize)
  | .memorySize, some value =>
    if a.memorySize.isSome then
      .error (.repeated .memorySize)
    else
      match parseMemorySize value with
      | .ok size => .ok { a with memorySize := some size }
      | .error reason => .error (.invalidMemorySize value reason)

/-- An option whose value is the next word: the option, and the value once it is there. -/
abbrev Pending := Option (Switch × Option String)

/-- Adds the option that is waiting, if there is one. -/
def settle (a : RunArguments) : Pending → Except ArgumentError RunArguments
  | none => .ok a
  | some (s, value) => a.add s value

/-- Adds an option as it is written, after the one that is waiting. -/
def addOccurrence (a : RunArguments) (pending : Pending) (o : Occurrence) :
    Except ArgumentError (RunArguments × Pending) :=
  match o.switch.takesValue, o.value with
  | false, some value => .error (.unexpectedValue o.switch value)
  | true, none => (a.settle pending).map fun a => (a, some (o.switch, none))
  | _, value =>
    match a.settle pending with
    | .ok a => (a.add o.switch value).map fun a => (a, none)
    | .error e => .error e

/-- Adds the options of a word, from left to right. -/
def addOccurrences (a : RunArguments) (pending : Pending) :
    List Occurrence → Except ArgumentError (RunArguments × Pending)
  | [] => .ok (a, pending)
  | o :: os =>
    match a.addOccurrence pending o with
    | .ok (a, pending) => addOccurrences a pending os
    | .error e => .error e

/-- Reads the words after the command. -/
def scan (a : RunArguments) (pending : Pending) : List String → Except ArgumentError RunArguments
  | [] => a.settle pending
  | w :: ws =>
    match Role.ofString w, pending with
    | .separator, _ => (a.settle pending).map fun a => { a with code := ws }
    | .options os, _ =>
      match a.addOccurrences pending os with
      | .ok (a, pending) => scan a pending ws
      | .error e => .error e
    | .other, some (s, none) => scan a (some (s, some w)) ws
    | .other, _ => (a.settle pending).map fun a => { a with code := w :: ws }

/-- The arguments that the words after the command spell. -/
def parse (words : List String) : Except ArgumentError RunArguments := empty.scan none words

end RunArguments

/-! ## Before the command -/

/-- The arguments of a whole command line: whether help is asked for before the command, and the
arguments of the command if there is one. -/
structure Arguments where
  help : Bool
  command : Option RunArguments
  deriving DecidableEq

namespace Arguments

/-- Whether a word is the command, which has two names. -/
def isCommand (w : String) : Bool := w = "run" || w = "read"

/-- Reads letters before the command, of which only that for help is known. -/
def scanLetters : (help : Bool) → List Char → Except ArgumentError Bool
  | help, [] => .ok help
  | help, c :: cs =>
    if Switch.ofLetter? c ≠ some .help then
      .error (.unexpectedArgument (String.ofList ['-', c]))
    else if help then
      .error (.repeated .help)
    else
      scanLetters true cs

/-- Reads a command line, where help may have been asked for already. -/
def scan : (help : Bool) → List String → Except ArgumentError Arguments
  | help, [] => .ok ⟨help, none⟩
  | help, w :: ws =>
    if isCommand w then
      (RunArguments.parse ws).map fun a => ⟨help, some a⟩
    else
      match Word.ofString w with
      | .plain => .error (.unknownCommand w)
      | .separator =>
        match ws with
        | [] => .ok ⟨help, none⟩
        | word :: _ =>
          if isCommand word then
            .error (.unexpectedArgument word)
          else
            .error (.unknownCommand word)
      | .long name value =>
        if Switch.ofName? name ≠ some .help then
          .error (.unexpectedArgument (String.ofList ('-' :: '-' :: name)))
        else
          match value with
          | some value => .error (.unexpectedValue .help value)
          | none => if help then .error (.repeated .help) else scan true ws
      | .short letters =>
        match scanLetters help letters with
        | .ok help => scan help ws
        | .error e => .error e

/-- The arguments that a whole command line spells. -/
def parse (words : List String) : Except ArgumentError Arguments := scan false words

end Arguments

end Brainfuck.CommandLine
