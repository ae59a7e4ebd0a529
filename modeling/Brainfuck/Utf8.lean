/-!
# UTF-8

Decoding of one character, by the rules of RFC 3629.  The first byte of a character announces how
many bytes follow (`tailLength?`); `decode?` accepts the bytes of a character only in their shortest
form, and no surrogate and nothing above U+10FFFF.
-/

namespace Brainfuck.Utf8

/-- How many bytes a first byte announces after itself; `none` for a byte that begins nothing. -/
def tailLength? (lead : UInt8) : Option Nat :=
  if lead ≤ 0x7F then some 0
  else if 0xC2 ≤ lead ∧ lead ≤ 0xDF then some 1
  else if 0xE0 ≤ lead ∧ lead ≤ 0xEF then some 2
  else if 0xF0 ≤ lead ∧ lead ≤ 0xF4 then some 3
  else none

/-- The six bits that a byte after the first carries. -/
def tailBits? (b : UInt8) : Option Nat :=
  if 0x80 ≤ b ∧ b ≤ 0xBF then some (b.toNat - 0x80) else none

/-- The character with a value, if it is one and could not be written with fewer bytes. -/
def scalar? (least value : Nat) : Option Char :=
  if least ≤ value ∧ value.isValidChar then some (Char.ofNat value) else none

/-- The character that a sequence of bytes encodes, if it encodes exactly one. -/
def decode? : List UInt8 → Option Char
  | [a] => if a ≤ 0x7F then some (Char.ofNat a.toNat) else none
  | [a, b] => do
    let y ← tailBits? b
    if 0xC0 ≤ a ∧ a ≤ 0xDF then scalar? 0x80 ((a.toNat - 0xC0) * 64 + y) else none
  | [a, b, c] => do
    let y ← tailBits? b
    let z ← tailBits? c
    if 0xE0 ≤ a ∧ a ≤ 0xEF then scalar? 0x800 (((a.toNat - 0xE0) * 64 + y) * 64 + z) else none
  | [a, b, c, d] => do
    let y ← tailBits? b
    let z ← tailBits? c
    let w ← tailBits? d
    if 0xF0 ≤ a ∧ a ≤ 0xF7 then
      scalar? 0x10000 ((((a.toNat - 0xF0) * 64 + y) * 64 + z) * 64 + w)
    else none
  | _ => none

end Brainfuck.Utf8
