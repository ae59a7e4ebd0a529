import Brainfuck.Utf8

/-!
# Input

A program asks for one character at a time.  It is served from a queue of characters or from a
stream of bytes, and nothing past the character is taken.  A stream is a script of the outcomes of
its one-byte reads; an interrupted read is tried again.
-/

namespace Brainfuck

/-- The outcome of reading one byte. -/
inductive ByteRead where
  | byte (b : UInt8)
  /-- Nothing happened and the read is to be tried again. -/
  | interrupted
  | endOfInput
  /-- The read failed, with the system's message. -/
  | failure (message : String)
  deriving DecidableEq

/-- A source of bytes: the outcomes of its reads in order, and what comes for ever after them. -/
structure ByteStream where
  reads : List ByteRead
  /-- The failure of every later read; without one, they are all at the end of the input. -/
  failure : Option String := none
  deriving DecidableEq

/-- The answer to a request for a character. -/
inductive CharRead where
  | char (c : Char)
  | endOfInput
  /-- The bytes taken are no character. -/
  | invalid
  /-- A read failed, with the system's message. -/
  | failure (message : String)
  deriving DecidableEq

namespace ByteStream

/-- A stream that gives its bytes without interruption and is then at its end. -/
def ofBytes (bytes : List UInt8) : ByteStream := ⟨bytes.map .byte, none⟩

/-- A stream that cannot be read at all. -/
def failing (message : String) : ByteStream := ⟨[], some message⟩

/-- The next byte of a script, if there is one, and the rest of the script. -/
def nextByte (failure : Option String) :
    List ByteRead → Except String (Option UInt8) × List ByteRead
  | [] =>
    match failure with
    | none => (.ok none, [])
    | some message => (.error message, [])
  | .byte b :: rest => (.ok (some b), rest)
  | .interrupted :: rest => nextByte failure rest
  | .endOfInput :: rest => (.ok none, rest)
  | .failure message :: rest => (.error message, rest)

/-- Reads one byte; `none` at the end of the input. -/
def readByte (s : ByteStream) : Except String (Option UInt8) × ByteStream :=
  match nextByte s.failure s.reads with
  | (r, reads) => (r, ⟨reads, s.failure⟩)

/-- Reads the `n` bytes that follow the first of a character, or says why there are not so many. -/
def readTail : Nat → ByteStream → Except CharRead (List UInt8) × ByteStream
  | 0, s => (.ok [], s)
  | n + 1, s =>
    match s.readByte with
    | (.error message, s) => (.error (.failure message), s)
    | (.ok none, s) => (.error .invalid, s)
    | (.ok (some b), s) =>
      match readTail n s with
      | (.error r, s) => (.error r, s)
      | (.ok bytes, s) => (.ok (b :: bytes), s)

/-- Reads one character: a first byte, and then as many bytes as it announces. -/
def readChar (s : ByteStream) : CharRead × ByteStream :=
  match s.readByte with
  | (.error message, s) => (.failure message, s)
  | (.ok none, s) => (.endOfInput, s)
  | (.ok (some lead), s) =>
    match Utf8.tailLength? lead with
    | none => (.invalid, s)
    | some n =>
      match readTail n s with
      | (.error r, s) => (r, s)
      | (.ok tail, s) =>
        match Utf8.decode? (lead :: tail) with
        | none => (.invalid, s)
        | some c => (.char c, s)

end ByteStream

/-- Where the characters of a program's input come from. -/
inductive Source where
  /-- A queue; an empty item, like the empty queue, is an end of the input. -/
  | queue (items : List (Option Char))
  | stream (bytes : ByteStream)
  deriving DecidableEq

/-- Takes one character from a source of input, and leaves the rest. -/
def Source.readChar : Source → CharRead × Source
  | .queue [] => (.endOfInput, .queue [])
  | .queue (none :: items) => (.endOfInput, .queue items)
  | .queue (some c :: items) => (.char c, .queue items)
  | .stream bytes =>
    match bytes.readChar with
    | (r, bytes) => (r, .stream bytes)

end Brainfuck
