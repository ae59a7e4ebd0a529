import Brainfuck.Text.Split

/-!
# Working directories

The files that a program can read by a path: files and empty directories in the directory where it
runs.  A path is followed part by part.  What lies above that directory is not known, so that
nothing can be read there.  Names and paths are limited in length, which is counted in bytes.
-/

namespace Brainfuck

/-- What a name in a directory stands for. -/
inductive Entry where
  | file (content : ByteArray)
  | directory

/-- A directory: the names in it and what they stand for. -/
structure WorkingDirectory where
  entries : List (String × Entry)

namespace WorkingDirectory

/-- Why a file cannot be read. -/
inductive Refusal where
  | notFound
  | isDirectory
  | notDirectory
  | nameTooLong
  deriving DecidableEq

/-- A refusal in the words of the system. -/
def Refusal.text : Refusal → String
  | notFound => "No such file or directory (os error 2)"
  | isDirectory => "Is a directory (os error 21)"
  | notDirectory => "Not a directory (os error 20)"
  | nameTooLong => "File name too long (os error 36)"

/-- A name has at most this many bytes. -/
def nameLimit : Nat := 255

/-- A path has fewer bytes than this. -/
def pathLimit : Nat := 4096

/-- A place that a path can lead to. -/
inductive Place where
  /-- The directory itself. -/
  | here
  /-- An empty directory in it. -/
  | below
  /-- A directory that contains it. -/
  | above
  | file (content : ByteArray)

/-- The content of the place that a path has led to, if this is a file. -/
def Place.content : Place → Except Refusal ByteArray
  | file content => .ok content
  | here | below | above => .error .isDirectory

/-- Why a name that is not there cannot be entered. -/
def refusalOf (name : List Char) : Refusal :=
  if (String.ofList name).utf8ByteSize ≤ nameLimit then .notFound else .nameTooLong

/-- Goes from a place to one of its names. -/
def enter (d : WorkingDirectory) (place : Place) (name : List Char) : Except Refusal Place :=
  match place with
  | .file _ => .error .notDirectory
  | .here =>
    if name = [] ∨ name = ['.'] then .ok .here
    else if name = ['.', '.'] then .ok .above
    else
      match d.entries.lookup (String.ofList name) with
      | none => .error (refusalOf name)
      | some .directory => .ok .below
      | some (.file content) => .ok (.file content)
  | .below =>
    if name = [] ∨ name = ['.'] then .ok .below
    else if name = ['.', '.'] then .ok .here
    else .error (refusalOf name)
  | .above =>
    if name = [] ∨ name = ['.'] ∨ name = ['.', '.'] then .ok .above
    else .error (refusalOf name)

/-- Goes from a place to one name after the other. -/
def follow (d : WorkingDirectory) : Place → List (List Char) → Except Refusal Place
  | place, [] => .ok place
  | place, name :: rest =>
    match d.enter place name with
    | .ok next => follow d next rest
    | .error e => .error e

/-- The content of the file at a path, whose parts are separated by slashes. -/
def read (d : WorkingDirectory) (path : String) : Except Refusal ByteArray :=
  match path.toList with
  | [] => .error .notFound
  | c :: cs =>
    let start := if c = '/' then Place.above else Place.here
    if pathLimit ≤ path.utf8ByteSize then .error .nameTooLong
    else (d.follow start (Text.split '/' (c :: cs))).bind Place.content

/-- The content of the file at a path, or the system's message. -/
def readFile (d : WorkingDirectory) (path : String) : Except String ByteArray :=
  (d.read path).mapError Refusal.text

end WorkingDirectory

end Brainfuck
