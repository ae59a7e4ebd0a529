import Brainfuck.Text.CodeRange

/-!
# Control sequences

Characters that a terminal obeys and does not show.  An escape character begins a sequence, and the
characters after it tell of which kind the sequence is and thereby where it ends (`Part.next`).
Where there is no terminal, the sequences are removed (`removeControls`).

A layout character that stands in a sequence does not wait for its end.  It is shown, and what
follows it too, up to the next control character; there the sequence goes on.
-/

namespace Brainfuck.Text

namespace ControlSequence

/-! ## Classes of characters -/

/-- Whether a character may stand between the head and the end of a sequence. -/
def isIntermediate (c : Char) : Bool := inRanges [(0x20, 0x2F)] c

/-- Whether a character may stand among the parameters of a sequence. -/
def isParameter (c : Char) : Bool := inRanges [(0x30, 0x3F)] c

/-- Whether a character may stand among the parameters of a sequence of private use only. -/
def isPrivate (c : Char) : Bool := inRanges [(0x3C, 0x3F)] c

/-- Whether a character may end a sequence, or the head of a string. -/
def isFinal (c : Char) : Bool := inRanges [(0x40, 0x7E)] c

/-- Whether a character shapes the text: a tab or an end of a line or a page. -/
def isLayout (c : Char) : Bool := c = '\t' || c = '\n' || c = '\x0c' || c = '\r'

/-- Whether a character is beyond ASCII. -/
def isWide (c : Char) : Bool := decide (0x7F < c.toNat)

/-- Whether a character ends a string: it is beyond ASCII, and the terminator of strings, 0x9C, is
among the bytes of its encoding. -/
def endsString (c : Char) : Bool := isWide c && (String.utf8EncodeChar c).contains 0x9C

/-! ## Parts of sequences -/

/-- Where in a sequence a character stands. -/
inductive Part where
  | outside
  | escape
  /-- After the intermediate characters of a sequence without parameters. -/
  | intermediate
  /-- In a sequence with parameters. -/
  | parameters
  /-- In a command to the system, which a bell ends. -/
  | command
  /-- At the head of a string to the device. -/
  | deviceHead
  /-- In the parameters of a string to the device. -/
  | deviceParameters
  /-- After the intermediate characters of a string to the device. -/
  | deviceIntermediate
  /-- In the string itself, or in a string of another kind. -/
  | string
  deriving DecidableEq

/-- The part after a character that is not shown. -/
def Part.next (part : Part) (c : Char) : Part :=
  if c = '\x1b' then escape
  else if c = '\x18' ∨ c = '\x1a' then outside
  else
    match part with
    | outside => outside
    | escape =>
      if isIntermediate c then intermediate
      else if c = '[' then parameters
      else if c = ']' then command
      else if c = 'P' then deviceHead
      else if c = 'X' ∨ c = '^' ∨ c = '_' then string
      else if isParameter c || isFinal c then outside
      else escape
    | intermediate => if isParameter c || isFinal c then outside else intermediate
    | parameters => if isFinal c then outside else parameters
    | command => if c = '\x07' then outside else command
    | deviceHead =>
      if isIntermediate c then deviceIntermediate
      else if isParameter c then deviceParameters
      else if isFinal c then string
      else deviceHead
    | deviceParameters =>
      if isIntermediate c then deviceIntermediate
      else if isPrivate c || isFinal c then string
      else deviceParameters
    | deviceIntermediate => if isParameter c || isFinal c then string else deviceIntermediate
    | string => if endsString c then outside else string

/-- Whether a character that stands in some part is shown. -/
def Part.shows (part : Part) (c : Char) : Bool :=
  match part with
  | outside => isIntermediate c || isParameter c || isFinal c || isLayout c || isWide c
  | escape | intermediate | parameters => isLayout c
  | _ => false

/-! ## Removal -/

/-- What is shown of a text that begins in some part of a sequence; `running` tells whether it goes
on with a run of shown characters. -/
def shown : (running : Bool) → Part → List Char → List Char
  | _, _, [] => []
  | running, part, c :: cs =>
    if (if running then .outside else part : Part).shows c then
      c :: shown true (if isWide c then .outside else part) cs
    else
      shown false (part.next c) cs

end ControlSequence

/-- A text as it is shown where there is no terminal. -/
def removeControls (s : String) : String :=
  String.ofList (ControlSequence.shown false .outside s.toList)

/-- A text in a style: a sequence turns the style on before it, and one turns it off after it. -/
def styled (style text : String) : String := "\x1b[" ++ style ++ "m" ++ text ++ "\x1b[0m"

end Brainfuck.Text
