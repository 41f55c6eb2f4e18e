/-! # Ranges of characters

A property of characters is tabulated as a list of ranges of code points, both
ends included, in increasing order and apart from each other.
-/

namespace Tabletop.Text

/-- A code point lies in a list of ranges. -/
def covers : List (Nat × Nat) → Nat → Bool
  | [], _ => false
  | (low, high) :: rest, n => if n < low then false else n ≤ high || covers rest n

/-- A character lies in a list of ranges. -/
def inRanges (ranges : List (Nat × Nat)) (c : Char) : Bool := covers ranges c.toNat

/-- The list of ranges with one more range, which may touch or overlap those
in the list. -/
def insertRange : (low high : Nat) → List (Nat × Nat) → List (Nat × Nat)
  | low, high, [] => [(low, high)]
  | low, high, (l, h) :: rest =>
      if high + 1 < l then (low, high) :: (l, h) :: rest
      else if h + 1 < low then (l, h) :: insertRange low high rest
      else insertRange (min low l) (max high h) rest

/-- The list of ranges that covers some ranges in any order. -/
def coverOf (ranges : List (Nat × Nat)) : List (Nat × Nat) :=
  ranges.foldr (fun r rest => insertRange r.1 r.2 rest) []

/-- The largest code point. -/
def lastCode : Nat := 0x10ffff

/-- The ranges between those of a list, from a code point on. -/
def gapsFrom : (start : Nat) → List (Nat × Nat) → List (Nat × Nat)
  | start, [] => if start ≤ lastCode then [(start, lastCode)] else []
  | start, (low, high) :: rest =>
      if start < low then (start, low - 1) :: gapsFrom (high + 1) rest
      else gapsFrom (high + 1) rest

/-- The ranges of the characters outside a list of ranges. -/
def gaps (ranges : List (Nat × Nat)) : List (Nat × Nat) := gapsFrom 0 ranges

end Tabletop.Text
