import Brainfuck.Text.Column
import Brainfuck.Text.DefaultIgnorable
import Brainfuck.Text.GraphemeExtend
import Brainfuck.Text.Unprintable

/-!
# Quoted characters

A character in single quotes, such that it can be seen: the usual controls, the quote and the
backslash are escaped by a backslash, and what has no look of its own is written by its code point
(`isInvisible`).
-/

namespace Brainfuck.Text

/-- Whether a character is one of the two halfwidth sound marks.  They join the character before
them and yet are letters with a cell of their own. -/
def isHalfwidthSoundMark (c : Char) : Bool := inRanges [(0xFF9E, 0xFF9F)] c

/-- Whether a character has no look of its own: it cannot be shown, may leave no mark, or joins the
character before it without being a letter. -/
def isInvisible (c : Char) : Bool :=
  isUnprintable c || isDefaultIgnorable c || (isGraphemeExtend c && !isHalfwidthSoundMark c)

/-- A character as it stands between the quotes. -/
def escapeChar (c : Char) : String :=
  match c with
  | '\x00' => "\\0"
  | '\t' => "\\t"
  | '\n' => "\\n"
  | '\r' => "\\r"
  | '\'' => "\\'"
  | '\\' => "\\\\"
  | c =>
    if isInvisible c then
      "\\u\x7b" ++ String.ofList (hexDigits c.toNat) ++ "\x7d"
    else
      String.ofList [c]

/-- A character in single quotes. -/
def quoteChar (c : Char) : String := "'" ++ escapeChar c ++ "'"

end Brainfuck.Text
