import Tabletop.Text.CharRange

/-! # Characters as bytes

A character is written as one to four bytes, the longer the larger its code
point is. The characters between two code points are those that match one of
a few sequences of byte ranges.
-/

namespace Tabletop.Text

/-- The bytes of a code point. -/
def utf8Bytes (n : Nat) : List Nat :=
  if n < 0x80 then [n]
  else if n < 0x800 then [0xc0 + n / 0x40, 0x80 + n % 0x40]
  else if n < 0x10000 then [0xe0 + n / 0x1000, 0x80 + n / 0x40 % 0x40, 0x80 + n % 0x40]
  else
    [0xf0 + n / 0x40000, 0x80 + n / 0x1000 % 0x40, 0x80 + n / 0x40 % 0x40, 0x80 + n % 0x40]

/-- The code points whose bytes are of one number, apart from the surrogates,
which have none. -/
def utf8Blocks : List (Nat × Nat) :=
  [(0, 0x7f), (0x80, 0x7ff), (0x800, 0xd7ff), (0xe000, 0xffff), (0x10000, lastCode)]

/-- Where a range of code points has to be cut so that its last bytes, `unit`
combinations of them, vary freely: behind an incomplete start, or else before
an incomplete end. -/
def cutAt? (unit low high : Nat) : Option Nat :=
  if low / unit = high / unit then none
  else if low % unit ≠ 0 then some ((low / unit + 1) * unit)
  else if high % unit ≠ unit - 1 then some (high / unit * unit)
  else none

/-- The parts of a range in each of which every byte varies on its own. Six
cuts behind one another are the most that a range needs. -/
def freeParts : (fuel low high : Nat) → List (Nat × Nat)
  | 0, low, high => [(low, high)]
  | fuel + 1, low, high =>
      match (cutAt? 0x40 low high).or ((cutAt? 0x1000 low high).or (cutAt? 0x40000 low high)) with
      | some cut => freeParts fuel low (cut - 1) ++ freeParts fuel cut high
      | none => [(low, high)]

/-- The sequences of byte ranges that the characters of a range match, in
order. -/
def byteSequences (low high : Nat) : List (List (Nat × Nat)) :=
  utf8Blocks.flatMap fun block =>
    if max low block.1 ≤ min high block.2 then
      (freeParts 8 (max low block.1) (min high block.2)).map fun part =>
        (utf8Bytes part.1).zip (utf8Bytes part.2)
    else []

end Tabletop.Text
